import SeriesLog.Bytes.Hex

/-! # Blocks

After its magic bytes a file is a sequence of blocks, each an eight-byte header and a body.
The header is the type code and a size of 56 bits; all 256 codes are types, of which three
have a meaning. -/
namespace SeriesLog

def openingMagic : Bytes := [0x42, 0x44, 0x44, 0x46]

def closingMagic : Bytes := [0x46, 0x44, 0x44, 0x42]

inductive BlockType where
  | descriptor
  | data
  /-- The header in front of the trailer. -/
  | trailer
  /-- A type without a meaning yet, which readers skip. -/
  | reserved (code : UInt8) (above : 3 ≤ code)
  deriving DecidableEq, Repr

namespace BlockType

def code : BlockType → UInt8
  | descriptor => 0
  | data => 1
  | trailer => 2
  | reserved code _ => code

def ofCode (code : UInt8) : BlockType :=
  if h : 3 ≤ code then reserved code h
  else if code = 0 then descriptor
  else if code = 1 then data
  else trailer

@[simp] theorem ofCode_code (t : BlockType) : ofCode t.code = t := by
  cases t with
  | reserved code above => simp [ofCode, BlockType.code, above]
  | _ => rfl

@[simp] theorem code_ofCode (code : UInt8) : (ofCode code).code = code := by
  unfold ofCode
  split
  · rfl
  · next h =>
    have hlt : code.toNat < 3 := by
      have := mt UInt8.le_iff_toNat_le.2 h
      simp at this
      omega
    have hcases : code = 0 ∨ code = 1 ∨ code = 2 := by
      rw [← UInt8.toNat_inj, ← UInt8.toNat_inj, ← UInt8.toNat_inj]
      simp
      omega
    rcases hcases with rfl | rfl | rfl <;> rfl

def isReserved : BlockType → Bool
  | reserved _ _ => true
  | _ => false

def name : BlockType → String
  | descriptor => "descriptor"
  | data => "data"
  | trailer => "end"
  | reserved code _ => "reserved(0x" ++ hexPadded 2 code.toNat ++ ")"

end BlockType

def headerSize : Nat := 8

/-- The largest size of a body, which has to fit in seven bytes. -/
def maxBodySize : Nat := 0xFFFFFFFFFFFFFF

def trailerDeclaredSize : Nat := 20

def trailerSize : Nat := 40

def checksumSize : Nat := 20

structure Header where
  type : BlockType
  size : Nat
  size_le : size ≤ maxBodySize
  deriving DecidableEq, Repr

namespace Header

def encode (h : Header) : Bytes := h.type.code :: Bytes.littleEndian 7 h.size

def decode (code : UInt8) (size : Bytes) (hsize : size.length = 7) : Header where
  type := .ofCode code
  size := Bytes.ofLittleEndian size
  size_le := by
    have hlt := Bytes.ofLittleEndian_lt size
    rw [hsize] at hlt
    exact Nat.le_of_lt_succ hlt

def ofBytes? : Bytes → Option Header
  | [] => none
  | code :: size => if h : size.length = 7 then some (decode code size h) else none

def totalSize (h : Header) : Nat := headerSize + h.size

@[simp] theorem length_encode (h : Header) : h.encode.length = headerSize := by
  simp [encode, headerSize]

@[simp] theorem ofBytes?_encode (h : Header) : ofBytes? h.encode = some h := by
  have hlt : h.size < Nat.pow 256 7 := Nat.lt_succ_of_le h.size_le
  cases h
  simp [ofBytes?, encode, decode, Bytes.ofLittleEndian_littleEndian hlt]

theorem encode_of_ofBytes? {bytes : Bytes} {h : Header} (hb : ofBytes? bytes = some h) :
    h.encode = bytes := by
  unfold ofBytes? at hb
  split at hb
  · cases hb
  · next code size =>
    split at hb
    · next hlen =>
      cases hb
      have := Bytes.littleEndian_ofLittleEndian size
      rw [hlen] at this
      simp [encode, decode, this]
    · cases hb

theorem exists_of_length {bytes : Bytes} (h : bytes.length = headerSize) :
    ∃ header, ofBytes? bytes = some header := by
  cases bytes with
  | nil => simp [headerSize] at h
  | cons code size =>
    have hlen : size.length = 7 := by simpa [headerSize] using h
    exact ⟨decode code size hlen, by simp [ofBytes?, hlen]⟩

end Header

end SeriesLog
