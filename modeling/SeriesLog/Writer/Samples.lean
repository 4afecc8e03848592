import SeriesLog.Pod.Values
import SeriesLog.Writer.Basic

/-! # Writing samples

A data block of a numeric series holds whole samples, at least one, of the element type and
the shape that the series was declared with. -/
namespace SeriesLog.Writer

def declareSamples (w : Writer) (id : SeriesId) (shape : Pod.Shape) (indexNames : List String)
    (annotations : Labels) : Except LogError UInt32 × Writer :=
  w.declare id (.pod shape) indexNames annotations

def sampleRefusal? (d : SeriesDescriptor) (values : Pod.Values) : Option LogError :=
  match d.kind with
  | .pod shape =>
    if shape.element ≠ values.element then
      some (.seriesType d.id (.podOf values.element) (.known d.kind))
    else
      match shape.elementsPerSample with
      | none => some (.sampleMismatch d.id (.overflow shape))
      | some perSample =>
        let count := values.words.length
        if perSample = 0 ∨ count = 0 ∨ count % perSample ≠ 0 then
          some (.sampleMismatch d.id (.partialSample count perSample))
        else none
  | kind => some (.seriesType d.id (.podOf values.element) (.known kind))

def appendSamples (w : Writer) (index : UInt32) (timestamp : Int64) (indexValues : List Int64)
    (values : Pod.Values) : Except LogError BlockLocation × Writer :=
  match w.descriptor? index with
  | none => (.error (.unknownSeries (.numbered index)), w)
  | some d =>
    match sampleRefusal? d values with
    | some e => (.error e, w)
    | none => w.appendTo index timestamp indexValues values.encode

end SeriesLog.Writer
