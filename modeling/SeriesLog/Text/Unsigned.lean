import SeriesLog.Bytes.Hex

/-! # Unsigned numbers in text

Digits in base ten or sixteen, after an optional plus sign, whose value stays below a bound.
The first fault from the left is reported. -/
namespace SeriesLog

inductive NumberFault where
  | empty
  | invalidDigit
  | tooLarge
  | tooSmall
  deriving DecidableEq, Repr

def NumberFault.message : NumberFault → String
  | empty => "cannot parse integer from empty string"
  | invalidDigit => "invalid digit found in string"
  | tooLarge => "number too large to fit in target type"
  | tooSmall => "number too small to fit in target type"

def digitValue? (base : Nat) (c : Char) : Option Nat :=
  (hexValue? c).bind fun n => if n < base then some n else none

def readDigits (base bound : Nat) : (value : Nat) → List Char → Except NumberFault Nat
  | value, [] => .ok value
  | value, c :: rest =>
    match digitValue? base c with
    | none => .error .invalidDigit
    | some digit =>
      let next := value * base + digit
      if next < bound then readDigits base bound next rest else .error .tooLarge

def readUnsigned (base bound : Nat) (text : List Char) : Except NumberFault Nat :=
  match text with
  | [] => .error .empty
  | ['+'] => .error .invalidDigit
  | '+' :: digits => readDigits base bound 0 digits
  | digits => readDigits base bound 0 digits

def readSigned (text : List Char) : Except NumberFault Int :=
  match text with
  | ['-'] => .error .invalidDigit
  | '-' :: digits =>
    match readDigits 10 (Nat.pow 2 63 + 1) 0 digits with
    | .ok n => .ok (-n)
    | .error .tooLarge => .error .tooSmall
    | .error e => .error e
  | text => (readUnsigned 10 (Nat.pow 2 63) text).map Int.ofNat

end SeriesLog
