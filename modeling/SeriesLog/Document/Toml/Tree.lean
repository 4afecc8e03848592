import SeriesLog.Document.Basic

/-! # Growing TOML documents

A document grows line by line: a header declares a table or a further item of a list of
tables, and a key with a value puts an entry into the table declared last. No entry is ever
replaced, no table is declared twice, and a key with dots adds only to tables that such keys
have made. -/
namespace SeriesLog.Toml

inductive Origin where
  | header
  /-- The header of a table inside it. -/
  | outerHeader
  | dottedKey
  deriving DecidableEq, Repr

/-- An entry of a table that may still grow. -/
inductive Entry where
  | value (d : Document)
  | table (origin : Origin) (entries : List (String × Entry))
  /-- A list of tables, the newest first. -/
  | tables (items : List (List (String × Entry)))

abbrev Entries := List (String × Entry)

def change (name : String) (f : Option Entry → Option Entry) : Entries → Option Entries
  | [] => (f none).map fun entry => [(name, entry)]
  | (other, entry) :: rest =>
    if other = name then (f (some entry)).map fun entry => (other, entry) :: rest
    else (change name f rest).map ((other, entry) :: ·)

def Entry.changeInside (f : Entries → Option Entries) : Entry → Option Entry
  | table origin entries => (f entries).map (table origin)
  | tables (newest :: earlier) => (f newest).map fun newest => tables (newest :: earlier)
  | _ => none

/-- Whether a key with dots may pass through an entry, or end in it. -/
def Entry.takesDotted (ends : Bool) : Entry → Bool
  | table .dottedKey _ => true
  | table .outerHeader _ | tables _ => !ends
  | _ => false

def put (value : Document) : List String → Entries → Option Entries
  | [] => fun _ => none
  | [name] => change name fun
    | none => some (.value value)
    | some _ => none
  | name :: key :: keys => change name fun
    | none => (put value (key :: keys) []).map (.table .dottedKey)
    | some entry =>
      if entry.takesDotted keys.isEmpty then entry.changeInside (put value (key :: keys)) else none

def declare (isItem : Bool) : List String → Entries → Option Entries
  | [] => fun _ => none
  | [name] => change name fun
    | none => some (if isItem then .tables [[]] else .table .header [])
    | some (.table .outerHeader entries) =>
      if isItem then none else some (.table .header entries)
    | some (.tables items) => if isItem then some (.tables ([] :: items)) else none
    | some _ => none
  | name :: key :: keys => change name fun
    | none => (declare isItem (key :: keys) []).map (.table .outerHeader)
    | some entry => entry.changeInside (declare isItem (key :: keys))

def changeAt (f : Entries → Option Entries) : List String → Entries → Option Entries
  | [] => f
  | name :: keys => change name fun entry => entry.bind (Entry.changeInside (changeAt f keys))

mutual

def Entry.document : Entry → Document
  | .value d => d
  | .table _ entries => .table (entriesDocument entries)
  | .tables items => .list (itemsDocument items).reverse

def entriesDocument : List (String × Entry) → List (String × Document)
  | [] => []
  | (name, entry) :: rest => (name, entry.document) :: entriesDocument rest

def itemsDocument : List (List (String × Entry)) → List Document
  | [] => []
  | entries :: rest => .table (entriesDocument entries) :: itemsDocument rest

end

end SeriesLog.Toml
