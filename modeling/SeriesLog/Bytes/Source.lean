import SeriesLog.Bytes.Fault
import SeriesLog.Bytes.LittleEndian

/-! # Byte sources

A source delivers bytes one after another and then either ends or fails. A read takes a
fixed number of bytes or, at a source that has fewer, reports which of the two happened. -/
namespace SeriesLog

/-- What a source still delivers, and the fault it then fails with, if it does not end. -/
structure Source where
  bytes : Bytes
  fault : Option DeviceFault
  deriving DecidableEq, Repr

/-- Why a read got fewer bytes than it asked for. -/
inductive Shortfall where
  /-- The source ended after this many of the bytes. -/
  | ended (got : Nat)
  | failed (fault : DeviceFault)
  deriving DecidableEq, Repr

namespace Source

def ofBytes (bytes : Bytes) : Source := ⟨bytes, none⟩

def shortfall (s : Source) (got : Nat) : Shortfall :=
  match s.fault with
  | none => .ended got
  | some fault => .failed fault

def read (s : Source) (count : Nat) : Except Shortfall (Bytes × Source) :=
  let (taken, rest) := s.bytes.splitAt count
  if taken.length = count then .ok (taken, { s with bytes := rest })
  else .error (s.shortfall taken.length)

theorem read_eq (s : Source) (count : Nat) :
    s.read count =
      if count ≤ s.bytes.length then .ok (s.bytes.take count, { s with bytes := s.bytes.drop count })
      else .error (s.shortfall s.bytes.length) := by
  simp only [read, List.splitAt_eq, List.length_take]
  by_cases h : count ≤ s.bytes.length
  · simp [h]
  · have hlt : s.bytes.length ≤ count := by omega
    simp [Nat.min_eq_right hlt, h, show ¬ s.bytes.length = count by omega]

theorem read_ok {s rest : Source} {count : Nat} {taken : Bytes}
    (h : s.read count = .ok (taken, rest)) :
    taken.length = count ∧ s.bytes = taken ++ rest.bytes ∧ rest.fault = s.fault := by
  rw [read_eq] at h
  split at h
  · next hle =>
    cases h
    simp [Nat.min_eq_left hle]
  · cases h

end Source

end SeriesLog
