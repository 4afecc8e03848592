import SeriesLog.Bytes.Source
import SeriesLog.Format.Error

/-! # Framing

Blocks are written one after another and read one after another from a source. A source that
ends between two blocks ends cleanly; anywhere else it is torn. -/
namespace SeriesLog

def Header.make (type : BlockType) (size : Nat) : Except FormatError Header :=
  if h : size ≤ maxBodySize then .ok ⟨type, size, h⟩ else .error (.tooLarge size maxBodySize)

def blockPieces (type : BlockType) (parts : List Bytes) : Except FormatError (List Bytes) :=
  (Header.make type parts.flatten.length).map fun header => header.encode :: parts

namespace Source

/-- The error of a read that counts the bytes it gets. -/
def errorOf (truncation : Nat → Truncation) : Shortfall → FormatError
  | .ended got => .truncated (truncation got)
  | .failed fault => .device fault

/-- The error of a read that only knows whether it got all its bytes. A device that says itself that
its bytes ended is to this read a source that ends. -/
def exactErrorOf (place : Truncation) : Shortfall → FormatError
  | .ended _ => .truncated place
  | .failed fault => if fault.kind = .unexpectedEnd then .truncated place else .device fault

def take (s : Source) (count : Nat) (error : Shortfall → FormatError) :
    Except FormatError (Bytes × Source) :=
  match s.read count with
  | .error short => .error (error short)
  | .ok cut => .ok cut

theorem take_ok {s rest : Source} {count : Nat} {error : Shortfall → FormatError} {taken : Bytes}
    (h : s.take count error = .ok (taken, rest)) :
    taken.length = count ∧ s.bytes = taken ++ rest.bytes ∧ rest.fault = s.fault := by
  unfold take at h
  split at h
  · cases h
  · next hr => cases h; exact read_ok hr

def headerOf (bytes : Bytes) : Except FormatError Header :=
  match Header.ofBytes? bytes with
  | some header => .ok header
  | none => .error (.truncated .header)

def readHeader (s : Source) : Except FormatError (Header × Source) :=
  match s.take headerSize (exactErrorOf .header) with
  | .error e => .error e
  | .ok (bytes, rest) => (headerOf bytes).map (·, rest)

/-- Reads a header where a block may start; `none` at the end of the source. -/
def readHeader? (s : Source) : Except FormatError (Option (Header × Source)) :=
  match s.take headerSize (errorOf .partialHeader) with
  | .error (.truncated (.partialHeader 0)) => .ok none
  | .error e => .error e
  | .ok (bytes, rest) => (headerOf bytes).map fun header => some (header, rest)

def skipBody (s : Source) (type : BlockType) (size : Nat) : Except FormatError Source :=
  (s.take size (errorOf fun got => .body got size type)).map (·.2)

def readBody (s : Source) (type : BlockType) (size limit : Nat) :
    Except FormatError (Bytes × Source) :=
  if limit < size then .error (.tooLarge size limit)
  else s.take size (errorOf fun got => .body got size type)

theorem readHeader?_ok {s rest : Source} {header : Header}
    (h : s.readHeader? = .ok (some (header, rest))) :
    s.bytes = header.encode ++ rest.bytes ∧ rest.fault = s.fault := by
  unfold readHeader? at h
  split at h
  · cases h
  · cases h
  · next bytes after ht =>
    obtain ⟨_, hs, hf⟩ := take_ok ht
    unfold headerOf at h
    split at h
    · next hb =>
      cases h
      rw [Header.encode_of_ofBytes? hb]
      exact ⟨hs, hf⟩
    · cases h

theorem readBody_ok {s rest : Source} {type : BlockType} {size limit : Nat} {body : Bytes}
    (h : s.readBody type size limit = .ok (body, rest)) :
    body.length = size ∧ s.bytes = body ++ rest.bytes ∧ rest.fault = s.fault := by
  unfold readBody at h
  split at h
  · cases h
  · exact take_ok h

theorem skipBody_ok {s rest : Source} {type : BlockType} {size : Nat}
    (h : s.skipBody type size = .ok rest) :
    ∃ body : Bytes, body.length = size ∧ s.bytes = body ++ rest.bytes ∧ rest.fault = s.fault := by
  unfold skipBody at h
  cases ht : s.take size (errorOf fun got => .body got size type) with
  | error e => simp [ht, Except.map] at h
  | ok cut =>
    rw [ht] at h
    cases h
    exact ⟨cut.1, take_ok ht⟩

end Source

end SeriesLog
