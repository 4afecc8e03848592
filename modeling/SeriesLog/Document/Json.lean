import SeriesLog.Bytes.Hex
import SeriesLog.Document.Basic

/-! # JSON text

Documents as JSON, a field or an item a line, indented by two spaces a level. -/
namespace SeriesLog

namespace Document

def jsonChar (c : Char) : List Char :=
  if c = '"' then ['\\', '"']
  else if c = '\\' then ['\\', '\\']
  else if c = '\n' then ['\\', 'n']
  else if c = '\r' then ['\\', 'r']
  else if c = '\t' then ['\\', 't']
  else if c = '\x08' then ['\\', 'b']
  else if c = '\x0c' then ['\\', 'f']
  else if c.toNat < 32 then '\\' :: 'u' :: (hexPadded 4 c.toNat).toList
  else [c]

def jsonText (s : String) : String := String.ofList ('"' :: (s.toList.flatMap jsonChar ++ ['"']))

def jsonBlock (opening closing indent : String) (lines : List String) : String :=
  if lines.isEmpty then opening ++ closing
  else
    opening ++ "\n" ++ String.intercalate ",\n" (lines.map fun line => indent ++ "  " ++ line) ++
      "\n" ++ indent ++ closing

mutual

def json (indent : String) : Document → String
  | null | fraction | date => "null"
  | bool b => if b then "true" else "false"
  | integer n => toString n
  | text s => jsonText s
  | list items => jsonBlock "[" "]" indent (jsonItems (indent ++ "  ") items)
  | table fields => jsonBlock "\x7b" "\x7d" indent (jsonFields (indent ++ "  ") fields)

def jsonItems (indent : String) : List Document → List String
  | [] => []
  | d :: rest => json indent d :: jsonItems indent rest

def jsonFields (indent : String) : List (String × Document) → List String
  | [] => []
  | (name, d) :: rest => (jsonText name ++ ": " ++ json indent d) :: jsonFields indent rest

end

end Document

end SeriesLog
