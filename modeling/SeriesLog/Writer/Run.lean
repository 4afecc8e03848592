import SeriesLog.Writer.Samples

/-! # Runs of a writer

A run is a list of calls, answered one after another by one writer. -/
namespace SeriesLog

inductive Call where
  | declare (id : SeriesId) (kind : SeriesKind) (indexNames : List String) (annotations : Labels)
  | append (id : SeriesId) (timestamp : Int64) (indexValues : List Int64) (payload : Bytes)
  | appendTo (index : UInt32) (timestamp : Int64) (indexValues : List Int64) (payload : Bytes)
  | appendSamples (index : UInt32) (timestamp : Int64) (indexValues : List Int64)
      (values : Pod.Values)
  | flush
  | close
  deriving DecidableEq

inductive Answer where
  | series (index : UInt32)
  | located (location : BlockLocation)
  | flushed
  | sealed (summary : CloseSummary)
  deriving DecidableEq, Repr

/-- Answers a call. A sink holds what it was given, so flushing it does nothing. -/
def Writer.answer (w : Writer) : Call → Except LogError Answer × Writer
  | .declare id kind indexNames annotations =>
    let r := w.declare id kind indexNames annotations
    (r.1.map .series, r.2)
  | .append id timestamp indexValues payload =>
    let r := w.append id timestamp indexValues payload
    (r.1.map .located, r.2)
  | .appendTo index timestamp indexValues payload =>
    let r := w.appendTo index timestamp indexValues payload
    (r.1.map .located, r.2)
  | .appendSamples index timestamp indexValues values =>
    let r := w.appendSamples index timestamp indexValues values
    (r.1.map .located, r.2)
  | .flush => (.ok .flushed, w)
  | .close =>
    let r := w.close
    (r.1.map .sealed, r.2)

def Writer.run (w : Writer) : List Call → List (Except LogError Answer) × Writer
  | [] => ([], w)
  | call :: rest =>
    let (answer, w) := w.answer call
    let (answers, w) := w.run rest
    (answer :: answers, w)

end SeriesLog
