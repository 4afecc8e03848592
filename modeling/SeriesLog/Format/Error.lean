import SeriesLog.Annotations
import SeriesLog.Block.Basic
import SeriesLog.Bytes.Fault
import SeriesLog.Descriptor.Basic

/-! # Errors of the format

What can be wrong with the bytes of a file or with what is to be written to one. Each error
is a cause with the values that tell it apart; its wording is `FormatError.message`. -/
namespace SeriesLog

inductive Truncation where
  | magic
  | fileMagic
  | header
  | partialHeader (got : Nat)
  | body (got size : Nat) (type : BlockType)
  | dataBlock
  | trailer
  | noTrailer
  | noFileDescriptor
  | noDescriptorSize (size : Nat)
  | dataDescriptor (size rest : Nat)
  deriving DecidableEq, Repr

def Truncation.message : Truncation → String
  | magic => "stream ended inside the magic"
  | fileMagic => "file is shorter than the magic"
  | header => "stream ended inside a block header"
  | partialHeader got => s!"stream ended after {got} of {headerSize} block header bytes"
  | body got size type => s!"stream ended after {got} of {size} bytes of a {type.name} block"
  | dataBlock => "stream ended inside a data block"
  | trailer => "stream ended inside the trailer"
  | noTrailer => "file has no trailer"
  | noFileDescriptor => "no file format descriptor after the 4 byte magic"
  | noDescriptorSize size => s!"data block body of {size} bytes has no descriptor size"
  | dataDescriptor size rest =>
    s!"data descriptor of {size} bytes exceeds remaining body of {rest} bytes"

inductive Malformation where
  | dataDescriptorSize (size : Nat)
  | noDescriptor
  | noVersion
  | checksumKind (kind : Int32) (bytes : UInt32)
  | noIdentifier (index : UInt32)
  | unknownElement (code : Int32)
  | noElement
  | indexWithoutDescriptor (position : Nat)
  | indexOrder (position : Nat) (index : UInt32)
  | shortDataBlock (offset size : Nat)
  | dataDescriptorOverrun (size offset : Nat)
  | seriesOrder (offset : Nat) (index : UInt32) (expected : Nat)
  | firstDescriptor (name : String)
  | fileDescriptor (offset : Nat) (reason : String)
  deriving DecidableEq, Repr

def Malformation.message : Malformation → String
  | dataDescriptorSize size => s!"data descriptor of {size} bytes exceeds the 32-bit size field"
  | noDescriptor => "descriptor block carries no descriptor"
  | noVersion => "file format descriptor has no version"
  | checksumKind kind bytes =>
    s!"unsupported checksum type {kind.toInt} with {bytes.toNat} bytes"
  | noIdentifier index => s!"series descriptor {index.toNat} has no identifier"
  | unknownElement code => s!"unknown POD type {code.toInt}"
  | noElement => "POD series without an element type"
  | indexWithoutDescriptor position => s!"file index entry {position} has no series descriptor"
  | indexOrder position index =>
    s!"file index entry {position} describes series index {index.toNat}"
  | shortDataBlock offset size => s!"data block at offset {offset} is only {size} bytes"
  | dataDescriptorOverrun size offset =>
    s!"data descriptor of {size} bytes overruns block at offset {offset}"
  | seriesOrder offset index expected =>
    s!"series descriptor at offset {offset} has index {index.toNat}, expected {expected}"
  | firstDescriptor name => s!"first descriptor is a {name} descriptor"
  | fileDescriptor offset reason =>
    s!"file format descriptor at offset {offset} does not decode: {reason}"

inductive PodFault where
  | overflow (shape : Pod.Shape)
  | partialElement (bytes : Nat) (element : Pod.Element)
  deriving DecidableEq, Repr

def PodFault.message : PodFault → String
  | overflow shape => s!"sample shape {shape.dimensionsText} of {shape.element.name} overflows"
  | partialElement bytes element =>
    s!"{bytes} bytes is not a whole number of {element.name} elements"

inductive FormatError where
  | device (fault : DeviceFault)
  | magic (expected found : Bytes)
  | truncated (place : Truncation)
  | tooLarge (size limit : Nat)
  | unexpectedBlock (offset : Nat) (expected found : BlockType)
  | unknownBlock (code : UInt8)
  | malformed (what : Malformation)
  /-- A message that does not decode. -/
  | undecodable
  | unsupportedVersion (version : Version)
  | invalidSeries (fault : SeriesIdFault)
  | invalidAnnotations (fault : Annotations.Fault)
  | invalidPod (fault : PodFault)
  | checksum (stored computed : Bytes)
  deriving DecidableEq, Repr

def byteList (bytes : Bytes) : String := bracketed (bytes.map fun b => toString b.toNat)

def undecodableText : String := "failed to decode Protobuf message"

def FormatError.message : FormatError → String
  | device fault => "IO error: " ++ fault.text
  | magic expected found =>
    s!"Invalid magic bytes: expected {byteList expected}, found {byteList found}"
  | truncated place => "Truncated stream: " ++ place.message
  | tooLarge size limit => s!"Block too large: {size} bytes (limit {limit})"
  | unexpectedBlock offset expected found =>
    s!"Unexpected block at offset {offset}: expected {expected.name}, found {found.name}"
  | unknownBlock code => "Unknown block type 0x" ++ hexPadded 2 code.toNat
  | malformed what => "Malformed descriptor: " ++ what.message
  | undecodable => "Protobuf decode error: " ++ undecodableText
  | unsupportedVersion version => "Unsupported format version: " ++ version.text
  | invalidSeries fault => "Invalid series identifier: " ++ fault.message
  | invalidAnnotations fault => "Invalid annotation: " ++ fault.message
  | invalidPod fault => "Invalid POD data: " ++ fault.message
  | checksum stored computed =>
    s!"Checksum mismatch: stored {stored.hex}, computed {computed.hex}"

def FormatError.causes (e : FormatError) : List String :=
  e.message ::
    match e with
    | device fault => [fault.text]
    | undecodable => [undecodableText]
    | _ => []

end SeriesLog
