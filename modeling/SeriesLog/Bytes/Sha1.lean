import SeriesLog.Bytes.LittleEndian

/-! # SHA-1

The 20-byte digest used by the trailer and by the hash of a series. The message is padded to
whole blocks of 64 bytes, and each block is mixed into a state of five words. -/
namespace SeriesLog.Sha1

structure State where
  a : UInt32
  b : UInt32
  c : UInt32
  d : UInt32
  e : UInt32
  deriving DecidableEq, Repr

def State.initial : State := ⟨0x67452301, 0xEFCDAB89, 0x98BADCFE, 0x10325476, 0xC3D2E1F0⟩

def State.add (s t : State) : State := ⟨s.a + t.a, s.b + t.b, s.c + t.c, s.d + t.d, s.e + t.e⟩

def rotateLeft (x : UInt32) (count : UInt32) : UInt32 := (x <<< count) ||| (x >>> (32 - count))

def bigEndian (width n : Nat) : Bytes := (Bytes.littleEndian width n).reverse

def words : Bytes → List UInt32
  | a :: b :: c :: d :: rest =>
    ((a.toUInt32 <<< 24) ||| (b.toUInt32 <<< 16) ||| (c.toUInt32 <<< 8) ||| d.toUInt32) :: words rest
  | _ => []

/-- A one bit, zeros up to eight bytes short of a whole block, then the length in bits. -/
def pad (message : Bytes) : Bytes :=
  let zeros := (119 - message.length % 64) % 64
  message ++ 0x80 :: (List.replicate zeros 0 ++ bigEndian 8 (8 * message.length))

def extend : Nat → Array UInt32 → Array UInt32
  | 0, w => w
  | count + 1, w =>
    let n := w.size
    let word := w.getD (n - 3) 0 ^^^ w.getD (n - 8) 0 ^^^ w.getD (n - 14) 0 ^^^ w.getD (n - 16) 0
    extend count (w.push (rotateLeft word 1))

def schedule (block : Bytes) : Array UInt32 := extend 64 (words block).toArray

def step (w : Array UInt32) (s : State) (round : Nat) : State :=
  let (f, k) : UInt32 × UInt32 :=
    if round < 20 then ((s.b &&& s.c) ||| (~~~s.b &&& s.d), 0x5A827999)
    else if round < 40 then (s.b ^^^ s.c ^^^ s.d, 0x6ED9EBA1)
    else if round < 60 then ((s.b &&& s.c) ||| (s.b &&& s.d) ||| (s.c &&& s.d), 0x8F1BBCDC)
    else (s.b ^^^ s.c ^^^ s.d, 0xCA62C1D6)
  ⟨rotateLeft s.a 5 + f + s.e + k + w.getD round 0, s.a, rotateLeft s.b 30, s.c, s.d⟩

def compress (s : State) (block : Bytes) : State :=
  s.add ((List.range 80).foldl (step (schedule block)) s)

def absorb (s : State) (bytes : Bytes) : State :=
  let cut := bytes.splitAt 64
  if cut.1.length = 64 then absorb (compress s cut.1) cut.2 else s
termination_by bytes.length
decreasing_by
  rename_i h
  simp only [cut, List.splitAt_eq, List.length_take, List.length_drop] at h ⊢
  omega

def digest (message : Bytes) : Bytes :=
  let s := absorb .initial (pad message)
  [s.a, s.b, s.c, s.d, s.e].flatMap fun word => bigEndian 4 word.toNat

@[simp] theorem length_digest (message : Bytes) : (digest message).length = 20 := by
  simp [digest, bigEndian]

end SeriesLog.Sha1

namespace SeriesLog

def sha1 (message : Bytes) : Bytes := Sha1.digest message

@[simp] theorem length_sha1 (message : Bytes) : (sha1 message).length = 20 :=
  Sha1.length_digest message

end SeriesLog
