import SeriesLog.Descriptor.Basic

/-! # A series in progress

A series and its data blocks as they come in, whether they are being written or found in a
stream. -/
namespace SeriesLog

structure SeriesState where
  descriptor : SeriesDescriptor
  /-- The data blocks, newest first. -/
  recorded : List IndexEntry
  nextPosition : Nat
  deriving DecidableEq

namespace SeriesState

def entries (s : SeriesState) : List IndexEntry := s.recorded.reverse

def declared (descriptor : SeriesDescriptor) : SeriesState := ⟨descriptor, [], 0⟩

def record (s : SeriesState) (entry : IndexEntry) : SeriesState :=
  { s with recorded := entry :: s.recorded, nextPosition := s.nextPosition + 1 }

def toIndex (s : SeriesState) : SeriesIndex := ⟨s.descriptor, s.entries⟩

@[simp] theorem entries_declared (d : SeriesDescriptor) : (declared d).entries = [] := rfl

@[simp] theorem entries_record (s : SeriesState) (entry : IndexEntry) :
    (s.record entry).entries = s.entries ++ [entry] := by
  simp [record, entries]

end SeriesState

end SeriesLog
