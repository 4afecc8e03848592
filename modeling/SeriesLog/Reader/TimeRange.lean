import SeriesLog.Descriptor.Basic

/-! # Time ranges

A range bounds timestamps on either side or not at all, both bounds included. In entries
ordered by time the selected ones lie together, between two points found by bisection. -/
namespace SeriesLog

structure TimeRange where
  start : Option Int64
  stop : Option Int64
  deriving DecidableEq, Repr

/-- The first position in `[lo, hi]` from which on a property fails, for a property that fails
from some position on. -/
def partitionPoint (holds : IndexEntry → Bool) (entries : Array IndexEntry) (lo hi : Nat) : Nat :=
  if _ordered : lo < hi then
    let mid := (lo + hi) / 2
    match entries[mid]? with
    | none => lo
    | some entry =>
      if holds entry then partitionPoint holds entries (mid + 1) hi
      else partitionPoint holds entries lo mid
  else lo
termination_by hi - lo
decreasing_by
  · have : mid = (lo + hi) / 2 := rfl
    omega
  · have : mid = (lo + hi) / 2 := rfl
    omega

namespace TimeRange

def all : TimeRange := ⟨none, none⟩

def contains (r : TimeRange) (timestamp : Int64) : Bool :=
  r.start.all (fun start => decide (start ≤ timestamp)) &&
    r.stop.all (fun stop => decide (timestamp ≤ stop))

def firstPosition (r : TimeRange) (entries : Array IndexEntry) : Nat :=
  match r.start with
  | none => 0
  | some start => partitionPoint (fun e => decide (e.timestamp < start)) entries 0 entries.size

def endPosition (r : TimeRange) (entries : Array IndexEntry) : Nat :=
  match r.stop with
  | none => entries.size
  | some stop => partitionPoint (fun e => decide (e.timestamp ≤ stop)) entries 0 entries.size

/-- The entries in the range, of entries in time order. -/
def select (r : TimeRange) (entries : Array IndexEntry) : List IndexEntry :=
  (entries.extract (r.firstPosition entries) (r.endPosition entries)).toList

end TimeRange

end SeriesLog
