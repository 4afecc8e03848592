import SeriesLog.Wire.Message

/-! # Operator comments

A message that an operator enters into a log: a text and the time of entry. -/
namespace SeriesLog

open Wire

/-- How messages of a type are written and read. -/
structure MessageCodec (α : Type) where
  encode : α → Bytes
  decode? : Bytes → Option α

structure OperatorComment where
  message : String
  timestamp : Int64
  deriving DecidableEq, Repr

namespace OperatorComment

def encode (c : OperatorComment) : Bytes :=
  delimitedFieldUnlessEmpty 1 (utf8 c.message) ++
    varintFieldUnlessZero 2 c.timestamp.toUInt64.toNat

def mergeField (_ : Nat) (c : OperatorComment) (field : Field) : Option OperatorComment :=
  match field.number with
  | 1 => field.value.text?.map fun message => { c with message }
  | 2 => field.value.number?.map fun n => { c with timestamp := (UInt64.ofNat n).toInt64 }
  | _ => some c

def decode? (bytes : Bytes) : Option OperatorComment :=
  mergeFields noEntries mergeField depthLimit ⟨"", 0⟩ bytes

def codec : MessageCodec OperatorComment := ⟨encode, decode?⟩

end OperatorComment

end SeriesLog
