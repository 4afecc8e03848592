import SeriesLog.Pod.Values
import SeriesLog.Reader.Basic

/-! # Reading samples

The blocks of a numeric series as values of its element type. -/
namespace SeriesLog

structure SampleBlock where
  timestamp : Int64
  indexValues : List Int64
  shape : Pod.Shape
  values : Pod.Values
  deriving DecidableEq

def SampleBlock.sampleCount (b : SampleBlock) : Nat :=
  match b.shape.elementsPerSample with
  | none => 0
  | some perSample => b.values.words.length / perSample

namespace Reader

def shape (r : Reader) (index : UInt32) : Except LogError Pod.Shape :=
  match r.descriptor? index with
  | none => .error (.unknownSeries (.numbered index))
  | some d =>
    match d.kind with
    | .pod shape => .ok shape
    | kind => .error (.seriesType d.id .anyPod (.known kind))

def sampleBlock (shape : Pod.Shape) (record : DataRecord) : Except LogError SampleBlock :=
  match Pod.Values.decode? shape.element record.payload with
  | none =>
    .error (.format (.invalidPod (.partialElement record.payload.length shape.element)))
  | some values => .ok ⟨record.timestamp, record.indexValues, shape, values⟩

def sampleBlocksOf (shape : Pod.Shape) :
    List (Except LogError DataRecord) → Except LogError (List SampleBlock)
  | [] => .ok []
  | .error e :: _ => .error e
  | .ok record :: rest =>
    match sampleBlock shape record with
    | .error e => .error e
    | .ok block => (sampleBlocksOf shape rest).map (block :: ·)

def sampleBlocks (r : Reader) (selector : Selector) (range : TimeRange) :
    Except LogError (List SampleBlock) :=
  match r.find selector with
  | .error e => .error e
  | .ok index =>
    match r.shape index with
    | .error e => .error e
    | .ok shape =>
      match r.records (.numbered index) range with
      | .error e => .error e
      | .ok records => sampleBlocksOf shape records

/-- The values of a series of one element type in a range, block by block. -/
def sampleValues (r : Reader) (element : Pod.Element) (selector : Selector) (range : TimeRange) :
    Except LogError (List (Int64 × Pod.Values)) :=
  match r.find selector with
  | .error e => .error e
  | .ok index =>
    match r.shape index with
    | .error e => .error e
    | .ok shape =>
      if shape.element ≠ element then
        match r.descriptor? index with
        | none => .error (.unknownSeries (.numbered index))
        | some d => .error (.seriesType d.id (.podOf element) (.podOf shape.element))
      else
        (r.sampleBlocks (.numbered index) range).map fun blocks =>
          blocks.map fun b => (b.timestamp, b.values)

end Reader

end SeriesLog
