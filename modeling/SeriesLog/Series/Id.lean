import SeriesLog.Bytes.Hex
import SeriesLog.Bytes.Sha1
import SeriesLog.Labels

/-! # Series identity

A series is named by a type and a specification. Its hash is taken over the type and then
the keys and values in key order, so it does not depend on the order in which the
specification was given. -/
namespace SeriesLog

/-- The name of a series: its type and the labels that single it out. -/
structure SeriesId where
  type : String
  spec : Labels
  deriving DecidableEq

/-- Why a type and a list of entries name no series. -/
inductive SeriesIdFault where
  | emptyType
  | duplicateKey (type key : String)
  deriving DecidableEq, Repr

def SeriesIdFault.message : SeriesIdFault → String
  | emptyType => "series type must not be empty"
  | duplicateKey type key => s!"duplicate spec key '{key}' for series type '{type}'"

namespace SeriesId

def ofType (type : String) : SeriesId := ⟨type, .empty⟩

def withSpec (id : SeriesId) (key value : String) : SeriesId :=
  { id with spec := id.spec.insert key value }

def distinctSpec (type : String) : Labels → List (String × String) → Except SeriesIdFault Labels
  | spec, [] => .ok spec
  | spec, (key, value) :: rest =>
    if spec.contains key then .error (.duplicateKey type key)
    else distinctSpec type (spec.insert key value) rest

/-- The identifier of a type that is not empty and of entries with distinct keys. -/
def ofParts (type : String) (entries : List (String × String)) : Except SeriesIdFault SeriesId :=
  if type = "" then .error .emptyType
  else (distinctSpec type .empty entries).map fun spec => ⟨type, spec⟩

def hashedBytes (id : SeriesId) : Bytes :=
  utf8 id.type ++ id.spec.entries.flatMap fun entry => utf8 entry.1 ++ utf8 entry.2

/-- The first eight bytes of the digest, lowest first. -/
def hash (id : SeriesId) : UInt64 :=
  UInt64.ofNat (Bytes.ofLittleEndian ((sha1 id.hashedBytes).take 8))

def display (id : SeriesId) : String :=
  let entries := id.spec.entries.map fun entry => entry.1 ++ "=" ++ entry.2
  id.type ++ "\x7b" ++ String.intercalate ", " entries ++ "\x7d"

instance : Hashable SeriesId := ⟨hash⟩

end SeriesId

/-- A series hash as tools print it: 16 hexadecimal digits after `0x`. -/
def seriesHashText (hash : UInt64) : String := "0x" ++ hexPadded 16 hash.toNat

end SeriesLog
