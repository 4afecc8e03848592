import Mathlib.Data.List.Basic
import SeriesLog.Writer.Run

/-! # Looking series up while writing

A writer that looks a name up in a table, and not among its series. The table is filled where a
series is added, behind the block that is written for it, with the number that the series is given. -/
namespace SeriesLog

structure TabledWriter where
  writer : Writer
  named : Std.HashMap SeriesId UInt32

namespace TabledWriter

def start (c : WriterConfig) (sink : Sink) : Except StartFailure TabledWriter :=
  (Writer.start c sink).map fun w => ⟨w, ∅⟩

def indexOf? (t : TabledWriter) (id : SeriesId) : Option UInt32 := t.named[id]?

def addSeries (t : TabledWriter) (id : SeriesId) (kind : SeriesKind) (indexNames : List String)
    (annotations : Labels) : Except LogError UInt32 × TabledWriter :=
  match t.writer.addSeries id kind indexNames annotations with
  | (.error e, w) => (.error e, ⟨w, t.named⟩)
  | (.ok index, w) => (.ok index, ⟨w, t.named.insert id index⟩)

def declare (t : TabledWriter) (id : SeriesId) (kind : SeriesKind) (indexNames : List String)
    (annotations : Labels) : Except LogError UInt32 × TabledWriter :=
  if t.writer.phase = .closed then (.error .writerClosed, t)
  else
    match t.indexOf? id with
    | none => t.addSeries id kind indexNames annotations
    | some index =>
      match t.writer.descriptor? index with
      | none => (.error .writerClosed, t)
      | some first =>
        match Writer.redeclaration? first kind indexNames with
        | some difference => (.error (.redeclared id difference), t)
        | none => (.ok index, t)

def appendTo (t : TabledWriter) (index : UInt32) (timestamp : Int64) (indexValues : List Int64)
    (payload : Bytes) : Except LogError BlockLocation × TabledWriter :=
  let r := t.writer.appendTo index timestamp indexValues payload
  (r.1, ⟨r.2, t.named⟩)

def append (t : TabledWriter) (id : SeriesId) (timestamp : Int64) (indexValues : List Int64)
    (payload : Bytes) : Except LogError BlockLocation × TabledWriter :=
  match t.indexOf? id with
  | some index => t.appendTo index timestamp indexValues payload
  | none =>
    match t.declare id .untyped [] .empty with
    | (.error e, t) => (.error e, t)
    | (.ok index, t) => t.appendTo index timestamp indexValues payload

/-- Answers a call. Only names are looked up, so all other calls leave the table alone. -/
def answer (t : TabledWriter) : Call → Except LogError Answer × TabledWriter
  | .declare id kind indexNames annotations =>
    let r := t.declare id kind indexNames annotations
    (r.1.map .series, r.2)
  | .append id timestamp indexValues payload =>
    let r := t.append id timestamp indexValues payload
    (r.1.map .located, r.2)
  | call =>
    let r := t.writer.answer call
    (r.1, ⟨r.2, t.named⟩)

def run (t : TabledWriter) : List Call → List (Except LogError Answer) × TabledWriter
  | [] => ([], t)
  | call :: rest =>
    let (answer, t) := t.answer call
    let (answers, t) := t.run rest
    (answer :: answers, t)

end TabledWriter

end SeriesLog
