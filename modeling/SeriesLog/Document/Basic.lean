/-! # Documents

Values as settings files and machine-readable output hold them. No setting is a fraction or a
date, so all fractions are one value, and all dates are. -/
namespace SeriesLog

inductive Document where
  | null
  | bool (b : Bool)
  | integer (n : Int)
  | text (s : String)
  | list (items : List Document)
  | table (fields : List (String × Document))
  | fraction
  | date
  deriving Inhabited

namespace Document

def bool? : Document → Option Bool
  | bool b => some b
  | _ => none

def text? : Document → Option String
  | text s => some s
  | _ => none

def integer? : Document → Option Int
  | integer n => some n
  | _ => none

def naturalBelow? (bound : Nat) (d : Document) : Option Nat :=
  d.integer?.bind fun n => if 0 ≤ n ∧ n < bound then some n.toNat else none

def list? : Document → Option (List Document)
  | list items => some items
  | _ => none

def table? : Document → Option (List (String × Document))
  | table fields => some fields
  | _ => none

def field? (d : Document) (name : String) : Option Document :=
  d.table?.bind fun fields => (fields.find? fun f => f.1 = name).map (·.2)

/-- The fields of a record: by name in a table, where others may stand beside them, or by
position in a list, which may be shorter but not longer. A date has none of the fields. -/
def record? (names : List String) : Document → Option (List (Option Document))
  | table fields =>
    some (names.map fun name => (fields.find? fun f => f.1 = name).map (·.2))
  | list items =>
    if items.length ≤ names.length then
      some (items.map some ++ List.replicate (names.length - items.length) none)
    else none
  | date => some (names.map fun _ => none)
  | _ => none

/-- One of several names: as a text, or as the only field of a table, where it stands for
itself and its value says nothing. -/
def choice? (saysNothing : Document → Bool) : Document → Option String
  | text name => some name
  | table [(name, value)] => if saysNothing value then some name else none
  | _ => none

def required {α : Type} (read : Document → Option α) (field : Option Document) : Option α :=
  field.bind read

def optional {α : Type} (default : α) (read : Document → Option α) : Option Document → Option α
  | none => some default
  | some d => read d

def listOf? {α : Type} (read : Document → Option α) (d : Document) : Option (List α) :=
  d.list?.bind fun items => items.mapM read

end Document

end SeriesLog
