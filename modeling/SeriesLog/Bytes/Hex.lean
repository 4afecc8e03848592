import SeriesLog.Bytes.LittleEndian

/-! # Hexadecimal text

Bytes and numbers in lower-case hexadecimal digits. -/
namespace SeriesLog

def hexDigit (n : Nat) : Char := Nat.digitChar (n % 16)

def hexPadded (width n : Nat) : String :=
  let digits := Nat.toDigits 16 n
  String.ofList (List.replicate (width - digits.length) '0' ++ digits)

def Bytes.hexChars (bytes : Bytes) : List Char :=
  bytes.flatMap fun b => [hexDigit (b.toNat / 16), hexDigit b.toNat]

def Bytes.hex (bytes : Bytes) : String := String.ofList bytes.hexChars

def hexValue? (c : Char) : Option Nat :=
  if '0' ≤ c ∧ c ≤ '9' then some (c.toNat - '0'.toNat)
  else if 'a' ≤ c ∧ c ≤ 'f' then some (c.toNat - 'a'.toNat + 10)
  else if 'A' ≤ c ∧ c ≤ 'F' then some (c.toNat - 'A'.toNat + 10)
  else none

end SeriesLog
