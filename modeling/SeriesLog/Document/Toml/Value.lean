import SeriesLog.Document.Basic
import SeriesLog.Text.Unsigned

/-! # Values in TOML text

Each reader takes a value from the front of the text and returns the rest. Strings come in
four forms; a bare word is a truth value, a number or a date; arrays and inline tables hold
further values. -/
namespace SeriesLog.Toml

/-- What a reader returns: a value and the text after it. -/
abbrev Read (α : Type) := Option (α × List Char)

abbrev Fields := List (String × Document)

def isSpace (c : Char) : Bool := c == ' ' || c == '\t'

/-- Controls may not stand in strings and comments, the tab excepted. -/
def isAllowed (c : Char) : Bool := c == '\t' || (32 ≤ c.toNat && c.toNat != 127)

def skipSpaces (text : List Char) : List Char := text.dropWhile isSpace

def skipComment : List Char → Option (List Char)
  | '#' :: text =>
    let rest := text.dropWhile isAllowed
    match rest with
    | [] | '\n' :: _ | '\r' :: '\n' :: _ => some rest
    | _ => none
  | text => some text

def newline? : List Char → Option (List Char)
  | '\n' :: rest => some rest
  | '\r' :: '\n' :: rest => some rest
  | _ => none

/-- Passes over spaces, line breaks and comments; `fuel` bounds their number. -/
def skipLines : (fuel : Nat) → List Char → Option (List Char)
  | 0, _ => none
  | fuel + 1, text =>
    let text := skipSpaces text
    match newline? text, text with
    | some rest, _ => skipLines fuel rest
    | none, '#' :: _ => (skipComment text).bind (skipLines fuel)
    | none, text => some text

def codePoint? (digits : Nat) (text : List Char) : Read Char :=
  let cut := text.splitAt digits
  if cut.1.length = digits then
    match cut.1.mapM hexValue? with
    | none => none
    | some values =>
      let n := values.foldl (fun n d => 16 * n + d) 0
      if n.isValidChar then some (Char.ofNat n, cut.2) else none
  else none

def escape? : List Char → Read Char
  | 'b' :: rest => some ('\x08', rest)
  | 't' :: rest => some ('\t', rest)
  | 'n' :: rest => some ('\n', rest)
  | 'f' :: rest => some ('\x0c', rest)
  | 'r' :: rest => some ('\r', rest)
  | '"' :: rest => some ('"', rest)
  | '\\' :: rest => some ('\\', rest)
  | 'u' :: rest => codePoint? 4 rest
  | 'U' :: rest => codePoint? 8 rest
  | _ => none

def basicString : (fuel : Nat) → List Char → Read (List Char)
  | 0, _ => none
  | fuel + 1, text =>
    match text with
    | '"' :: rest => some ([], rest)
    | '\\' :: rest =>
      (escape? rest).bind fun (c, rest) => (basicString fuel rest).map fun (s, rest) => (c :: s, rest)
    | c :: rest =>
      if isAllowed c then (basicString fuel rest).map fun (s, rest) => (c :: s, rest) else none
    | [] => none

def literalString (text : List Char) : Read (List Char) :=
  match text.dropWhile fun c => c != '\'' && isAllowed c with
  | '\'' :: rest => some (text.takeWhile fun c => c != '\'' && isAllowed c, rest)
  | _ => none

/-- The quotes that end a string of several lines: the last three of up to five. -/
def closing? (quote : Char) (text : List Char) : Read (List Char) :=
  let quotes := text.takeWhile (· == quote)
  if quotes.length ≤ 5 then
    some (List.replicate (quotes.length - 3) quote, text.drop quotes.length)
  else none

def isClosed (quote : Char) (text : List Char) : Bool := [quote, quote, quote].isPrefixOf text

def skipBlankLines : List Char → List Char
  | ' ' :: rest | '\t' :: rest | '\n' :: rest | '\r' :: '\n' :: rest => skipBlankLines rest
  | text => text

/-- A string of several lines, after the opening quotes. A backslash at the end of a line joins
it with the next text. -/
def longString (quote : Char) (escapes : Bool) : (fuel : Nat) → List Char → Read (List Char)
  | 0, _ => none
  | fuel + 1, text =>
    if isClosed quote text then closing? quote text
    else
      match newline? text, text with
      | some rest, _ =>
        (longString quote escapes fuel rest).map fun (s, rest) => ('\n' :: s, rest)
      | none, [] => none
      | none, c :: rest =>
        if escapes && c == '\\' then
          match newline? (skipSpaces rest) with
          | some next => longString quote escapes fuel (skipBlankLines next)
          | none =>
            (escape? rest).bind fun (c, rest) =>
              (longString quote escapes fuel rest).map fun (s, rest) => (c :: s, rest)
        else if isAllowed c then
          (longString quote escapes fuel rest).map fun (s, rest) => (c :: s, rest)
        else none

/-- The first line break of a string of several lines does not count. -/
def afterOpening (text : List Char) : List Char := (newline? text).getD text

def string? (text : List Char) : Read String :=
  let fuel := text.length + 1
  let read : Read (List Char) :=
    match text with
    | '"' :: '"' :: '"' :: rest => longString '"' true fuel (afterOpening rest)
    | '\'' :: '\'' :: '\'' :: rest => longString '\'' false fuel (afterOpening rest)
    | '"' :: rest => basicString fuel rest
    | '\'' :: rest => literalString rest
    | _ => none
  read.map fun (s, rest) => (String.ofList s, rest)

def isBareKey (c : Char) : Bool := c.isAlphanum || c == '_' || c == '-'

def simpleKey (text : List Char) : Read String :=
  match text with
  | '"' :: rest =>
    (basicString (text.length + 1) rest).map fun (s, rest) => (String.ofList s, rest)
  | '\'' :: rest => (literalString rest).map fun (s, rest) => (String.ofList s, rest)
  | text =>
    let name := text.takeWhile isBareKey
    if name.isEmpty then none else some (String.ofList name, text.drop name.length)

def key : (fuel : Nat) → List Char → Read (List String)
  | 0, _ => none
  | fuel + 1, text =>
    (simpleKey text).bind fun (part, rest) =>
      match skipSpaces rest with
      | '.' :: rest => (key fuel (skipSpaces rest)).map fun (parts, rest) => (part :: parts, rest)
      | rest => some ([part], rest)

/-- Digits with single underscores between them, without the underscores. -/
def plainDigits? (isDigit : Char → Bool) : List Char → Option (List Char)
  | [] => none
  | [c] => if isDigit c then some [c] else none
  | c :: '_' :: rest => if isDigit c then (plainDigits? isDigit rest).map (c :: ·) else none
  | c :: rest => if isDigit c then (plainDigits? isDigit rest).map (c :: ·) else none

def isHexDigit (c : Char) : Bool := (hexValue? c).isSome

def unsign : List Char → Bool × List Char
  | '-' :: rest => (true, rest)
  | '+' :: rest => (false, rest)
  | text => (false, text)

def decimal? (text : List Char) : Option (List Char) :=
  match plainDigits? Char.isDigit text with
  | some ['0'] => some ['0']
  | some ('0' :: _) => none
  | digits => digits

def integer? (word : List Char) : Option Int :=
  let inBase (base : Nat) (isDigit : Char → Bool) (digits : List Char) : Option Int :=
    (plainDigits? isDigit digits).bind fun digits =>
      ((readDigits base (Nat.pow 2 63) 0 digits).toOption).map Int.ofNat
  match word with
  | '0' :: 'x' :: digits => inBase 16 isHexDigit digits
  | '0' :: 'o' :: digits => inBase 8 (fun c => '0' ≤ c && c ≤ '7') digits
  | '0' :: 'b' :: digits => inBase 2 (fun c => c == '0' || c == '1') digits
  | word =>
    let (negative, digits) := unsign word
    (decimal? digits).bind fun digits =>
      match readDigits 10 (Nat.pow 2 63 + negative.toNat) 0 digits with
      | .ok n => some (if negative then -n else n)
      | .error _ => none

def ofDigits (digits : List Char) : Nat := digits.foldl (fun n c => 10 * n + (c.toNat - 48)) 0

def exponent? (text : List Char) : Option Int :=
  let (negative, digits) := unsign text
  (plainDigits? Char.isDigit digits).map fun digits =>
    if negative then -ofDigits digits else ofDigits digits

/-- A fraction and an exponent, of which one may be missing: the digits of the fraction and the
exponent. -/
def tail? (text : List Char) : Option (List Char × Int) :=
  match text with
  | '.' :: rest =>
    let fraction := rest.takeWhile fun c => c != 'e' && c != 'E'
    (plainDigits? Char.isDigit fraction).bind fun digits =>
      match rest.drop fraction.length with
      | [] => some (digits, 0)
      | _ :: exponent => (exponent? exponent).map (digits, ·)
  | _ :: exponent => (exponent? exponent).map ([], ·)
  | [] => none

/-- The least whole number that has no place among the numbers of 64 bits with a fraction. -/
def fractionBound : Nat := Nat.pow 2 1024 - Nat.pow 2 970

def staysFinite (digits : List Char) (exponent : Int) : Bool :=
  let digits := digits.dropWhile (· == '0')
  let magnitude := digits.length + exponent
  if digits.isEmpty || magnitude ≤ 308 then true
  else if 309 < magnitude then false
  else
    ofDigits digits * Nat.pow 10 exponent.toNat < fractionBound * Nat.pow 10 (-exponent).toNat

/-- Whether a word is a number with a fraction or an exponent. A positive one has to be finite. -/
def isFraction (word : List Char) : Bool :=
  let (negative, digits) := unsign word
  if digits = "inf".toList ∨ digits = "nan".toList then true
  else
    let whole := digits.takeWhile fun c => c != '.' && c != 'e' && c != 'E'
    match decimal? whole, tail? (digits.drop whole.length) with
    | some whole, some (fraction, exponent) =>
      negative || staysFinite (whole ++ fraction) (exponent - fraction.length)
    | _, _ => false

def fixedDigits? (count : Nat) (text : List Char) : Read Nat :=
  let digits := text.take count
  if digits.length = count ∧ digits.all Char.isDigit then
    some (ofDigits digits, text.drop count)
  else none

def expect (c : Char) : List Char → Option (List Char)
  | d :: rest => if c = d then some rest else none
  | [] => none

def daysIn (year month : Nat) : Nat :=
  if month = 2 then
    if year % 4 = 0 ∧ (year % 100 ≠ 0 ∨ year % 400 = 0) then 29 else 28
  else if month = 4 ∨ month = 6 ∨ month = 9 ∨ month = 11 then 30
  else 31

def date? (text : List Char) : Option (List Char) := do
  let (year, text) ← fixedDigits? 4 text
  let (month, text) ← fixedDigits? 2 (← expect '-' text)
  let (day, text) ← fixedDigits? 2 (← expect '-' text)
  if 1 ≤ month ∧ month ≤ 12 ∧ 1 ≤ day ∧ day ≤ daysIn year month then some text else none

def clock? (text : List Char) : Option (List Char) := do
  let (hour, text) ← fixedDigits? 2 text
  let (minute, text) ← fixedDigits? 2 (← expect ':' text)
  if hour < 24 ∧ minute < 60 then some text else none

def time? (text : List Char) : Option (List Char) := do
  let (second, text) ← fixedDigits? 2 (← expect ':' (← clock? text))
  if 60 < second then none
  else
    match text with
    | '.' :: rest =>
      let fraction := rest.takeWhile Char.isDigit
      if fraction.isEmpty then none else some (rest.drop fraction.length)
    | text => some text

def isOffset (text : List Char) : Bool :=
  match text with
  | [] | ['Z'] | ['z'] => true
  | '+' :: rest | '-' :: rest => clock? rest == some []
  | _ => false

def isDate (word : List Char) : Bool :=
  match date? word with
  | some [] => true
  | some (mark :: rest) =>
    (mark == 'T' || mark == 't' || mark == ' ') && ((time? rest).map isOffset).getD false
  | none => time? word == some []

def isWordChar (c : Char) : Bool :=
  c.isAlphanum || c == '+' || c == '-' || c == '.' || c == '_' || c == ':'

/-- A bare word; between a date and a time there may be a space. -/
def bareWord (text : List Char) : List Char :=
  let word := text.takeWhile isWordChar
  match text.drop word.length with
  | ' ' :: c :: rest =>
    if date? word = some [] ∧ c.isDigit then word ++ ' ' :: (c :: rest).takeWhile isWordChar else word
  | _ => word

def word? (word : List Char) : Option Document :=
  if word = "true".toList then some (.bool true)
  else if word = "false".toList then some (.bool false)
  else
    match integer? word with
    | some n => some (.integer n)
    | none => if isFraction word then some .fraction else if isDate word then some .date else none

end SeriesLog.Toml
