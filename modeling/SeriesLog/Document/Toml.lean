import SeriesLog.Document.Toml.Tree
import SeriesLog.Document.Toml.Value

/-! # TOML text

A text is read line by line into a document. Lists and inline tables may lie in one another
to a fixed depth, and keys have a bounded number of parts. -/
namespace SeriesLog.Toml

/-- Keys have fewer parts than this, and values lie in fewer lists and tables. -/
def depthLimit : Nat := 80

def boundedKey (text : List Char) : Read (List String) :=
  (key (text.length + 1) (skipSpaces text)).bind fun (parts, rest) =>
    if parts.length < depthLimit then some (parts, rest) else none

mutual

/-- A value. `fuel` bounds the number of steps and `depth` that of lists and tables around a
further value. -/
def value (fuel depth : Nat) (text : List Char) : Read Document :=
  match fuel, text with
  | 0, _ => none
  | _, '"' :: _ | _, '\'' :: _ => (string? text).map fun (s, rest) => (.text s, rest)
  | fuel + 1, '[' :: rest =>
    if depth = 0 then none
    else (items fuel (depth - 1) rest).map fun (ds, rest) => (.list ds, rest)
  | fuel + 1, '\x7b' :: rest =>
    if depth = 0 then none
    else
      match skipSpaces rest with
      | '\x7d' :: rest => some (.table [], rest)
      | rest =>
        (pairs fuel (depth - 1) [] rest).map fun (entries, rest) =>
          (.table (entriesDocument entries), rest)
  | _, text =>
    let word := bareWord text
    (word? word).map fun d => (d, text.drop word.length)

def items (fuel depth : Nat) (text : List Char) : Read (List Document) :=
  match fuel, skipLines (text.length + 1) text with
  | 0, _ | _, none => none
  | _, some (']' :: rest) => some ([], rest)
  | fuel + 1, some text =>
    (value fuel depth text).bind fun (d, rest) =>
      match skipLines (rest.length + 1) rest with
      | some (',' :: rest) => (items fuel depth rest).map fun (ds, rest) => (d :: ds, rest)
      | some (']' :: rest) => some ([d], rest)
      | _ => none

def pairs (fuel depth : Nat) (entries : Entries) (text : List Char) :
    Option (Entries × List Char) :=
  match fuel with
  | 0 => none
  | fuel + 1 => do
    let (parts, rest) ← boundedKey text
    let (d, rest) ← value fuel depth (skipSpaces (← expect '=' rest))
    let entries ← put d parts entries
    match skipSpaces rest with
    | ',' :: rest => pairs fuel depth entries rest
    | '\x7d' :: rest => some (entries, rest)
    | _ => none

end

def lineEnd? (text : List Char) : Option (List Char) :=
  (skipComment (skipSpaces text)).bind fun rest => if rest.isEmpty then some rest else newline? rest

structure Draft where
  header : List String
  entries : Entries

def readHeader (draft : Draft) (text : List Char) : Option (Draft × List Char) := do
  let (isItem, text) := match text with
    | '[' :: rest => (true, rest)
    | text => (false, text)
  let (parts, rest) ← boundedKey text
  let rest ← expect ']' rest
  let rest ← if isItem then expect ']' rest else some rest
  let entries ← declare isItem parts draft.entries
  return (⟨parts, entries⟩, ← lineEnd? rest)

def readPair (draft : Draft) (text : List Char) : Option (Draft × List Char) := do
  let (parts, rest) ← boundedKey text
  let rest := skipSpaces (← expect '=' rest)
  let (d, rest) ← value (2 * rest.length + 2) (depthLimit - 1) rest
  let entries ← changeAt (put d parts) draft.header draft.entries
  return (⟨draft.header, entries⟩, ← lineEnd? rest)

def readLines : (fuel : Nat) → Draft → List Char → Option Entries
  | 0, _, _ => none
  | fuel + 1, draft, text =>
    match skipLines (text.length + 1) text with
    | none => none
    | some [] => some draft.entries
    | some ('[' :: rest) => (readHeader draft rest).bind fun (draft, rest) => readLines fuel draft rest
    | some text => (readPair draft text).bind fun (draft, rest) => readLines fuel draft rest

end SeriesLog.Toml

namespace SeriesLog

/-- The document that a text spells; a byte order mark in front does not count. -/
def Document.ofToml? (text : String) : Option Document :=
  let chars := match text.toList with
    | '\ufeff' :: rest => rest
    | chars => chars
  (Toml.readLines (chars.length + 1) ⟨[], []⟩ chars).map fun entries =>
    .table (Toml.entriesDocument entries)

end SeriesLog
