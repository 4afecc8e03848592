import SeriesLog.Pod.Shape
import SeriesLog.Series.Id

/-! # Descriptors

Descriptor blocks describe the rest of a file: its version and annotations, its series, and,
in a sealed file, where the blocks of every series lie. -/
namespace SeriesLog

structure Version where
  major : UInt32
  minor : UInt32
  patch : UInt32
  deriving DecidableEq, Repr

def Version.current : Version := ⟨1, 0, 0⟩

def Version.text (v : Version) : String := s!"{v.major.toNat}.{v.minor.toNat}.{v.patch.toNat}"

structure FileDescriptor where
  version : Version
  annotations : Labels
  deriving DecidableEq

def FileDescriptor.ofAnnotations (annotations : Labels) : FileDescriptor := ⟨.current, annotations⟩

structure MessageType where
  contentType : String
  typeName : String
  isMetadata : Bool
  deriving DecidableEq, Repr

def protobufContentType : String := "application/protobuf"

def MessageType.protobuf (typeName : String) : MessageType := ⟨protobufContentType, typeName, false⟩

/-- What the payloads of a series hold. -/
inductive SeriesKind where
  /-- Bytes of no declared content. -/
  | untyped
  | message (type : MessageType)
  | pod (shape : Pod.Shape)
  deriving DecidableEq, Repr

namespace SeriesKind

def isPod : SeriesKind → Bool
  | pod _ => true
  | _ => false

def describe : SeriesKind → String
  | untyped => "opaque"
  | message type => "message " ++ type.typeName
  | pod shape => "pod " ++ shape.describe

end SeriesKind

structure SeriesDescriptor where
  index : UInt32
  id : SeriesId
  idHash : UInt64
  kind : SeriesKind
  indexNames : List String
  annotations : Labels
  deriving DecidableEq

namespace SeriesDescriptor

def make (index : UInt32) (id : SeriesId) (kind : SeriesKind) (indexNames : List String)
    (annotations : Labels) : SeriesDescriptor :=
  ⟨index, id, id.hash, kind, indexNames, annotations⟩

/-- Whether the series is of a kind and has index names; annotations do not count. -/
def isCompatible (d : SeriesDescriptor) (kind : SeriesKind) (indexNames : List String) : Bool :=
  d.kind = kind ∧ d.indexNames = indexNames

end SeriesDescriptor

/-- Where a data block lies and when it was taken. -/
structure IndexEntry where
  timestamp : Int64
  offset : UInt64
  deriving DecidableEq, Repr

/-- A series and its data blocks in the order they were written. -/
structure SeriesIndex where
  descriptor : SeriesDescriptor
  entries : List IndexEntry
  deriving DecidableEq

def timeSpan? : List Int64 → Option (Int64 × Int64)
  | [] => none
  | t :: rest => some (rest.foldl min t, rest.foldl max t)

def SeriesIndex.timeSpan? (s : SeriesIndex) : Option (Int64 × Int64) :=
  SeriesLog.timeSpan? (s.entries.map (·.timestamp))

/-- Every series of a file, in the order of their indexes. -/
structure FileIndex where
  series : List SeriesIndex
  deriving DecidableEq

def FileIndex.blockCount (index : FileIndex) : Nat :=
  (index.series.flatMap fun s => s.entries).length

inductive Descriptor where
  | file (d : FileDescriptor)
  | series (d : SeriesDescriptor)
  | index (d : FileIndex)
  deriving DecidableEq

def Descriptor.name : Descriptor → String
  | file _ => "file-format"
  | series _ => "series"
  | index _ => "file-index"

end SeriesLog
