import SeriesLog.Bytes.LittleEndian

/-! # Variable-length numbers

Seven bits a byte, lowest first, every byte but the last with its high bit set. A number has
at most 64 bits, so at most ten bytes, of which the tenth adds one bit. -/
namespace SeriesLog.Wire

def varint (n : Nat) : Bytes :=
  if n < 128 then [UInt8.ofNat n] else UInt8.ofNat (n % 128 + 128) :: varint (n / 128)
termination_by n

/-- Reads a number of at most `room` more bytes; the last possible byte is 0 or 1. -/
def readVarintWithin : (room : Nat) → Bytes → Option (Nat × Bytes)
  | 0, _ => none
  | _ + 1, [] => none
  | room + 1, b :: rest =>
    if b.toNat < 128 then
      if room = 0 ∧ 2 ≤ b.toNat then none else some (b.toNat, rest)
    else
      match readVarintWithin room rest with
      | some (high, rest) => some (b.toNat - 128 + 128 * high, rest)
      | none => none

def readVarint (bytes : Bytes) : Option (Nat × Bytes) := readVarintWithin 10 bytes

theorem length_of_readVarintWithin {room n : Nat} {bytes rest : Bytes}
    (h : readVarintWithin room bytes = some (n, rest)) : rest.length < bytes.length := by
  induction room generalizing n bytes rest with
  | zero => simp [readVarintWithin] at h
  | succ room ih =>
    cases bytes with
    | nil => simp [readVarintWithin] at h
    | cons b tail =>
      simp only [readVarintWithin] at h
      split at h
      · split at h
        · cases h
        · cases h; simp
      · split at h
        · next hr =>
          cases h
          have := ih hr
          simp only [List.length_cons]
          omega
        · cases h

theorem length_of_readVarint {n : Nat} {bytes rest : Bytes}
    (h : readVarint bytes = some (n, rest)) : rest.length < bytes.length :=
  length_of_readVarintWithin h

end SeriesLog.Wire
