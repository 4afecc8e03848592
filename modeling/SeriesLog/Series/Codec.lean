import SeriesLog.Series.Id
import SeriesLog.Wire.Message

/-! # The message of a series identifier

Field 1 is the type and field 2 a label of the specification. -/
namespace SeriesLog.SeriesId

open Wire

def encode (id : SeriesId) : Bytes :=
  delimitedFieldUnlessEmpty 1 (utf8 id.type) ++ labelFields 2 id.spec

def mergeField (limit : Nat) (id : SeriesId) (field : Field) : Option SeriesId :=
  match field.number with
  | 1 => field.value.text?.map fun type => { id with type }
  | 2 => (mergeLabel limit id.spec field.value).map fun spec => { id with spec }
  | _ => some id

def merge (limit : Nat) (id : SeriesId) (bytes : Bytes) : Option SeriesId :=
  mergeFields (entriesIn 2) mergeField limit id bytes

end SeriesLog.SeriesId
