import SeriesLog.Labels
import SeriesLog.Text.Blank

/-! # Annotations

Files and series carry labels. A key is a namespace and a name around a colon; keys without
a namespace are reserved, and of those only `units` has a meaning. -/
namespace SeriesLog.Annotations

def unitsKey : String := "units"

def isReserved (key : String) : Bool :=
  match key.toList with
  | ':' :: _ => true
  | chars => !chars.contains ':'

def key (space name : String) : String := space ++ ":" ++ name

def units? (annotations : Labels) : Option String := annotations.get? unitsKey

inductive Fault where
  | emptyKey
  | reservedKey (key : String)
  | blankUnits
  deriving DecidableEq, Repr

def Fault.message : Fault → String
  | emptyKey => "empty annotation key"
  | reservedKey key =>
    s!"'{key}' is in the reserved namespace; use '\x7bnamespace\x7d:\x7bname\x7d'"
  | blankUnits => "'units' must name a UCUM unit"

def entryFault? (entry : String × String) : Option Fault :=
  if entry.1 = "" then some .emptyKey
  else if isReserved entry.1 = false then none
  else if entry.1 ≠ unitsKey then some (.reservedKey entry.1)
  else if allBlank entry.2 then some .blankUnits
  else none

def fault? (annotations : Labels) : Option Fault := annotations.entries.findSome? entryFault?

end SeriesLog.Annotations
