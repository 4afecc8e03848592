import SeriesLog.Bytes.Hex
import SeriesLog.Text.Unprintable
import SeriesLog.Text.Extender

/-! # Quoted text

A text between double quotes with escapes for quotes, backslashes, line breaks, tabs, the
zero character, and every character that has no printed form or combines with its
predecessor. -/
namespace SeriesLog

/-- An escape by code point, in hexadecimal between braces. -/
def escapePoint (c : Char) : List Char :=
  '\\' :: 'u' :: '\x7b' :: (Nat.toDigits 16 c.toNat ++ ['\x7d'])

def quoteChar (c : Char) : List Char :=
  if c = '\x00' then ['\\', '0']
  else if c = '\t' then ['\\', 't']
  else if c = '\r' then ['\\', 'r']
  else if c = '\n' then ['\\', 'n']
  else if c = '"' then ['\\', '"']
  else if c = '\\' then ['\\', '\\']
  else if isExtender c || isUnprintable c then escapePoint c
  else [c]

def quoted (s : String) : String := String.ofList ('"' :: (s.toList.flatMap quoteChar ++ ['"']))

def bracketed (items : List String) : String := "[" ++ String.intercalate ", " items ++ "]"

end SeriesLog
