import SeriesLog.Format.Error
import SeriesLog.Wire.Message

/-! # Data blocks

The body of a data block is the size of a descriptor in four bytes, the descriptor, and the
payload, which reaches to the end of the body. -/
namespace SeriesLog

open Wire

/-- What a data block says about its payload. -/
structure DataDescriptor where
  series : UInt32
  timestamp : Int64
  /-- The number of earlier blocks of the series. -/
  position : UInt64
  indexValues : List Int64
  deriving DecidableEq, Repr

/-- The bytes that hold the size of the descriptor. -/
def descriptorSizeBytes : Nat := 4

namespace DataDescriptor

def empty : DataDescriptor := ⟨0, 0, 0, []⟩

def encode (d : DataDescriptor) : Bytes :=
  varintFieldUnlessZero 1 d.series.toNat ++
    varintFieldUnlessZero 2 d.timestamp.toUInt64.toNat ++
    varintFieldUnlessZero 3 d.position.toNat ++
    packedField 4 (d.indexValues.map fun v => v.toUInt64.toNat)

def mergeField (_ : Nat) (d : DataDescriptor) (field : Field) : Option DataDescriptor :=
  match field.number with
  | 1 => field.value.number?.map fun n => { d with series := UInt32.ofNat n }
  | 2 => field.value.number?.map fun n => { d with timestamp := (UInt64.ofNat n).toInt64 }
  | 3 => field.value.number?.map fun n => { d with position := UInt64.ofNat n }
  | 4 => field.value.numbers?.map fun ns =>
    { d with indexValues := d.indexValues ++ ns.map fun n => (UInt64.ofNat n).toInt64 }
  | _ => some d

def decode? (bytes : Bytes) : Option DataDescriptor :=
  mergeFields noEntries mergeField depthLimit empty bytes

def encodeSized (d : DataDescriptor) : Except FormatError Bytes :=
  let bytes := d.encode
  if bytes.length < UInt32.size then
    .ok (Bytes.littleEndian descriptorSizeBytes bytes.length ++ bytes)
  else .error (.malformed (.dataDescriptorSize bytes.length))

end DataDescriptor

structure DataBlock where
  descriptor : DataDescriptor
  payload : Bytes
  deriving DecidableEq, Repr

def DataBlock.decode (body : Bytes) : Except FormatError DataBlock :=
  let cut := body.splitAt descriptorSizeBytes
  if cut.1.length < descriptorSizeBytes then .error (.truncated (.noDescriptorSize cut.1.length))
  else
    let size := Bytes.ofLittleEndian cut.1
    match takeBytes size cut.2 with
    | none => .error (.truncated (.dataDescriptor size cut.2.length))
    | some (bytes, payload) =>
      match DataDescriptor.decode? bytes with
      | none => .error .undecodable
      | some descriptor => .ok ⟨descriptor, payload⟩

end SeriesLog
