import SeriesLog.Document.Forms
import SeriesLog.Document.Toml

/-! # Settings of the command line

Read from a settings file, and overridden by options. -/
namespace SeriesLog.Cli

inductive OutputFormat where
  | table
  | json
  deriving DecidableEq, Repr

namespace OutputFormat

def name : OutputFormat → String
  | table => "table"
  | json => "json"

def all : List OutputFormat := [table, json]

def ofName? (name : String) : Option OutputFormat := all.find? fun f => f.name = name

end OutputFormat

structure Settings where
  format : OutputFormat
  colored : Bool
  reader : ReaderConfig
  deriving DecidableEq, Repr

namespace Settings

def default : Settings := ⟨.table, true, .default⟩

/-- The empty list and the empty table say nothing beside the name of a choice. -/
def saysNothing : Document → Bool
  | .list [] | .table [] => true
  | _ => false

/-- The settings of a reader; further items of a list are ignored. -/
def reader? : Document → Option ReaderConfig
  | .list items => ReaderConfig.ofDocument? (.list (items.take 4))
  | d => ReaderConfig.ofDocument? d

/-- Missing settings take their defaults, and unknown ones are ignored. -/
def ofDocument? (d : Document) : Option Settings := do
  match ← d.record? ["output_format", "colored", "reader"] with
  | [format, colored, reader] =>
    let format ← Document.optional default.format
      (fun d => (d.choice? saysNothing).bind OutputFormat.ofName?) format
    return ⟨format, ← Document.optional default.colored Document.bool? colored,
      ← Document.optional default.reader reader? reader⟩
  | _ => none

def ofText? (text : String) : Option Settings := (Document.ofToml? text).bind ofDocument?

def document (s : Settings) : Document :=
  .table [("output_format", .text s.format.name), ("colored", .bool s.colored),
    ("reader", s.reader.document)]

end Settings

end SeriesLog.Cli
