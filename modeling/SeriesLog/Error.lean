import SeriesLog.Format.Error
import SeriesLog.Selector

/-! # Errors of reading and writing logs

What a writer refuses, what a reader finds wrong with a file as a whole, and the errors of
the format and of the device below them. -/
namespace SeriesLog

inductive Redeclaration where
  | kind (first now : SeriesKind)
  | indexNames (first now : List String)
  deriving DecidableEq, Repr

def Redeclaration.message : Redeclaration → String
  | kind first now => s!"declared as {first.describe}, now {now.describe}"
  | indexNames first now =>
    s!"index names {bracketed (first.map quoted)}, now {bracketed (now.map quoted)}"

inductive SampleMismatch where
  | overflow (shape : Pod.Shape)
  | partialSample (values perSample : Nat)
  deriving DecidableEq, Repr

def SampleMismatch.message : SampleMismatch → String
  | overflow shape => s!"sample shape {shape.dimensionsText} overflows"
  | partialSample values perSample =>
    s!"{values} values is not a whole number of {perSample}-element samples"

/-- How the index of a file contradicts the file. -/
inductive IndexFault where
  | outside (offset fileSize : Nat)
  | notDescriptorBlock (offset : Nat) (found : BlockType)
  | overrun (offset : Nat)
  | notIndex (offset : Nat) (name : String)
  | entryOutside (series : SeriesId) (offset : Nat)
  | blockOutside (offset : Nat)
  | notDataBlock (offset : Nat) (found : BlockType)
  | blockOverrun (offset : Nat)
  | otherBlock (offset : Nat) (foundSeries : UInt32) (foundTime : Int64) (series : UInt32)
      (time : Int64)
  deriving DecidableEq

def IndexFault.message : IndexFault → String
  | outside offset fileSize => s!"index offset {offset} is outside the file ({fileSize} bytes)"
  | notDescriptorBlock offset found => s!"block at index offset {offset} is a {found.name} block"
  | overrun offset => s!"index block at offset {offset} runs past the trailer"
  | notIndex offset name => s!"block at index offset {offset} is a {name} descriptor"
  | entryOutside series offset =>
    s!"series {series.display} has a block at offset {offset} outside the data region"
  | blockOutside offset => s!"block offset {offset} is past the end of the file"
  | notDataBlock offset found => s!"block at offset {offset} is a {found.name} block, expected data"
  | blockOverrun offset => s!"data block at offset {offset} runs past the end of the file"
  | otherBlock offset foundSeries foundTime series time =>
    s!"block at offset {offset} belongs to series {foundSeries.toNat} at {foundTime.toInt}, " ++
      s!"index says series {series.toNat} at {time.toInt}"

inductive Content where
  | anyMessage
  | anyPod
  | podOf (element : Pod.Element)
  | known (kind : SeriesKind)
  deriving DecidableEq, Repr

def Content.describe : Content → String
  | anyMessage => "a message series"
  | anyPod => "a pod series"
  | podOf element => "pod " ++ element.name
  | known kind => kind.describe

inductive LogError where
  | writerClosed
  | redeclared (series : SeriesId) (difference : Redeclaration)
  | indexArity (series : SeriesId) (expected actual : Nat)
  | sampleMismatch (series : SeriesId) (reason : SampleMismatch)
  | unknownSeries (selector : Selector)
  | corruptIndex (fault : IndexFault)
  | seriesType (series : SeriesId) (expected actual : Content)
  | undecodableMessage
  | format (error : FormatError)
  | device (fault : DeviceFault)
  deriving DecidableEq

def LogError.message : LogError → String
  | writerClosed => "Writer is closed"
  | redeclared series difference =>
    s!"Series {series.display} re-declared with a different descriptor: {difference.message}"
  | indexArity series expected actual =>
    s!"Series {series.display} expects {expected} index values, got {actual}"
  | sampleMismatch series reason => s!"POD series {series.display}: {reason.message}"
  | unknownSeries selector => "Unknown series: " ++ selector.display
  | corruptIndex fault => "Corrupt index: " ++ fault.message
  | seriesType series expected actual =>
    s!"Series {series.display} is {actual.describe}, not {expected.describe}"
  | undecodableMessage => "Message decode error: " ++ undecodableText
  | format error => "Format error: " ++ error.message
  | device fault => "IO error: " ++ fault.text

def LogError.causes (e : LogError) : List String :=
  e.message ::
    match e with
    | undecodableMessage => [undecodableText]
    | format error => error.causes
    | device fault => [fault.text]
    | _ => []

end SeriesLog
