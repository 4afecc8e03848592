import SeriesLog.Series.Id
import SeriesLog.Text.Unsigned

/-! # Operands

The texts in which a command line names hashes, labels and numbers. -/
namespace SeriesLog.Cli

inductive OperandFault where
  | badHash (text : String) (fault : NumberFault)
  | noEquals (text : String)
  | emptyKey (text : String)
  deriving DecidableEq, Repr

def OperandFault.message : OperandFault → String
  | badHash text fault => s!"invalid series hash '{text}': {fault.message}"
  | noEquals text => s!"expected key=value, got '{text}'"
  | emptyKey text => s!"empty key in '{text}'"

/-- The digits of a hash and their base: sixteen after `0x`, else ten. -/
def hashDigits : List Char → Nat × List Char
  | '0' :: 'x' :: digits | '0' :: 'X' :: digits => (16, digits)
  | digits => (10, digits)

def seriesHash (text : String) : Except OperandFault UInt64 :=
  let (base, digits) := hashDigits text.toList
  match readUnsigned base UInt64.size digits with
  | .ok n => .ok (UInt64.ofNat n)
  | .error fault => .error (.badHash text fault)

/-- The entry that a text spells: a key, the first equals sign, and a value. -/
def labelEntry (text : String) : Except OperandFault (String × String) :=
  let key := text.toList.takeWhile (· != '=')
  match text.toList.drop key.length with
  | [] => .error (.noEquals text)
  | _ :: value =>
    if key.isEmpty then .error (.emptyKey text) else .ok (String.ofList key, String.ofList value)

def seriesIndex? (text : String) : Option UInt32 :=
  match readSigned text.toList with
  | .ok n => if 0 ≤ n ∧ n.toNat < UInt32.size then some (UInt32.ofNat n.toNat) else none
  | .error _ => none

def timestampOf? (text : String) : Option Int64 := (readSigned text.toList).toOption.map Int64.ofInt

def count? (text : String) : Option Nat := (readUnsigned 10 UInt64.size text.toList).toOption

end SeriesLog.Cli
