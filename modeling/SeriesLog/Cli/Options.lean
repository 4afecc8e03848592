import SeriesLog.Cli.Operand
import SeriesLog.Cli.Settings

/-! # Options

The commands of the program, the options of each, and the places for its words. Options stand
in the order in which help texts list them. -/
namespace SeriesLog.Cli

inductive Choice where
  | format (f : OutputFormat)
  | noColor
  | strict
  | verbose
  | help
  | version
  | hash (text : String)
  | index (n : UInt32)
  | type (text : String)
  | spec (entry : String × String)
  | start (t : Int64)
  | stop (t : Int64)
  | limit (n : Nat)
  | full
  | label (entry : String × String)
  deriving DecidableEq

inductive OptionValue where
  | none (choice : Choice)
  /-- A value, named for help texts; one may begin with a minus sign if it is a number. -/
  | one (name : String) (mayBeNegative : Bool) (read : String → Option Choice)

structure CliOption where
  long : String
  short : Option Char
  about : String
  value : OptionValue
  repeatable : Bool

structure Level where
  name : String
  about : String
  /-- The names and descriptions of its words. -/
  places : List (String × String)
  options : List CliOption
  /-- Options without which it is not understood. -/
  required : List String

inductive Verb where
  | info
  | series
  | blocks
  | dump
  | verify
  | reindex
  | hash
  deriving DecidableEq, Repr

def flag (long : String) (short : Option Char) (choice : Choice) (about : String) : CliOption :=
  ⟨long, short, about, .none choice, false⟩

def formatOption : CliOption :=
  ⟨"format", some 'f', "Output format (overrides the config file) [possible values: table, json]",
    .one "FORMAT" false fun text => (OutputFormat.ofName? text).map .format, false⟩

def noColorOption : CliOption := flag "no-color" none .noColor "Disable colored output"

def strictOption : CliOption :=
  flag "strict" none .strict "Reject reserved block types instead of skipping them"

def verboseOption : CliOption := flag "verbose" (some 'v') .verbose "Debug logging on stderr"

def helpOption : CliOption := flag "help" (some 'h') .help "Print help"

def versionOption : CliOption := flag "version" (some 'V') .version "Print version"

def hashOption : CliOption :=
  ⟨"hash", none, "Series hash, `0x`-prefixed hex or decimal",
    .one "HASH" false fun text => some (.hash text), false⟩

def indexOption : CliOption :=
  ⟨"index", some 'i', "Series index in the file",
    .one "INDEX" false fun text => (seriesIndex? text).map .index, false⟩

def typeOption (about : String) : CliOption :=
  ⟨"type", none, about, .one "SERIES_TYPE" false fun text => some (.type text), false⟩

def specOption : CliOption :=
  ⟨"spec", none, "Series spec entry as key=value (repeatable)",
    .one "SPEC" false fun text => (labelEntry text).toOption.map .spec, true⟩

def startOption : CliOption :=
  ⟨"start", none, "First timestamp to include (nanoseconds, inclusive)",
    .one "START" true fun text => (timestampOf? text).map .start, false⟩

def endOption : CliOption :=
  ⟨"end", none, "Last timestamp to include (nanoseconds, inclusive)",
    .one "END" true fun text => (timestampOf? text).map .stop, false⟩

def limitOption : CliOption :=
  ⟨"limit", some 'l', "Maximum number of records to print",
    .one "LIMIT" false fun text => (count? text).map .limit, false⟩

def fullOption : CliOption := flag "full" none .full "Print whole payloads"

def annotationOption : CliOption :=
  ⟨"annotation", none, "File annotation to set, as key=value (repeatable)",
    .one "ANNOTATIONS" false fun text => (labelEntry text).toOption.map .label, true⟩

def commonOptions : List CliOption := [formatOption, noColorOption, strictOption, verboseOption]

def Level.program : Level :=
  ⟨"bddf", "BDDF file inspection and repair tool", [],
    commonOptions ++ [helpOption, versionOption], []⟩

namespace Verb

def all : List Verb := [info, series, blocks, dump, verify, reindex, hash]

def fileLevel (name about : String) : Level :=
  ⟨name, about, [("FILE", "BDDF file")], commonOptions ++ [helpOption], []⟩

def level : Verb → Level
  | info => fileLevel "info" "Show version, annotations, index source and checksum status"
  | series => fileLevel "series" "List the series in a file"
  | blocks => fileLevel "blocks" "List every block in file order"
  | dump =>
    ⟨"dump", "Print the records of one series", [("FILE", "BDDF file to read")],
      [formatOption, hashOption, indexOption, noColorOption, strictOption,
        typeOption "Series type, combined with `--spec`", specOption, verboseOption, startOption,
        endOption, limitOption, fullOption, helpOption], []⟩
  | verify => fileLevel "verify" "Check the checksum and index; exits non-zero on failure"
  | reindex =>
    ⟨"reindex", "Rewrite a damaged or unsealed file with a fresh index and trailer",
      [("SOURCE", "File to read"), ("DESTINATION", "File to write")],
      annotationOption :: commonOptions ++ [helpOption], []⟩
  | hash =>
    ⟨"hash", "Compute the hash of a series identifier", [],
      [formatOption, typeOption "Series type, e.g. bosdyn:message-channel", noColorOption,
        specOption, strictOption, verboseOption, helpOption], ["type"]⟩

def ofName? (name : String) : Option Verb := all.find? fun verb => verb.level.name = name

end Verb

end SeriesLog.Cli
