import SeriesLog.Bytes.LittleEndian

/-! # Element types

The plain numeric types whose values a series may hold: signed and unsigned integers of
four widths and two widths of floating point. -/
namespace SeriesLog.Pod

inductive Element where
  | int8
  | int16
  | int32
  | int64
  | uint8
  | uint16
  | uint32
  | uint64
  | float32
  | float64
  deriving DecidableEq, Repr

namespace Element

def all : List Element :=
  [int8, int16, int32, int64, uint8, uint16, uint32, uint64, float32, float64]

def size : Element → Nat
  | int8 | uint8 => 1
  | int16 | uint16 => 2
  | int32 | uint32 | float32 => 4
  | int64 | uint64 | float64 => 8

def name : Element → String
  | int8 => "int8"
  | int16 => "int16"
  | int32 => "int32"
  | int64 => "int64"
  | uint8 => "uint8"
  | uint16 => "uint16"
  | uint32 => "uint32"
  | uint64 => "uint64"
  | float32 => "float32"
  | float64 => "float64"

def ofName? (name : String) : Option Element := all.find? fun e => e.name == name

def code : Element → Nat
  | int8 => 1
  | int16 => 2
  | int32 => 3
  | int64 => 4
  | uint8 => 5
  | uint16 => 6
  | uint32 => 7
  | uint64 => 8
  | float32 => 9
  | float64 => 10

def ofCode? : Nat → Option Element
  | 1 => some int8
  | 2 => some int16
  | 3 => some int32
  | 4 => some int64
  | 5 => some uint8
  | 6 => some uint16
  | 7 => some uint32
  | 8 => some uint64
  | 9 => some float32
  | 10 => some float64
  | _ => none

@[simp] theorem ofCode?_code (e : Element) : ofCode? e.code = some e := by cases e <;> rfl

theorem size_pos (e : Element) : 0 < e.size := by cases e <;> decide

/-- Whether the values have a sign and no fraction. -/
def isSigned : Element → Bool
  | int8 | int16 | int32 | int64 => true
  | _ => false

def isFloat : Element → Bool
  | float32 | float64 => true
  | _ => false

end Element

end SeriesLog.Pod
