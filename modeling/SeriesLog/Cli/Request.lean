import SeriesLog.Cli.Arguments

/-! # Requests

What a command line asks for: a command with its operands, and the options of the program. -/
namespace SeriesLog.Cli

structure RecordQuery where
  file : String
  hash : Option String
  index : Option UInt32
  type : Option String
  spec : List (String × String)
  start : Option Int64
  stop : Option Int64
  limit : Option Nat
  /-- Whether payloads are shown whole. -/
  full : Bool
  deriving DecidableEq

inductive Command where
  | info (file : String)
  | series (file : String)
  | blocks (file : String)
  | dump (query : RecordQuery)
  | verify (file : String)
  | reindex (source destination : String) (annotations : List (String × String))
  | hash (type : String) (spec : List (String × String))
  deriving DecidableEq

structure Request where
  command : Command
  format : Option OutputFormat
  noColor : Bool
  strict : Bool
  deriving DecidableEq

namespace Arguments

def hash? (a : Arguments) : Option String :=
  a.one? fun
    | .hash text => some text
    | _ => none

def index? (a : Arguments) : Option UInt32 :=
  a.one? fun
    | .index n => some n
    | _ => none

def type? (a : Arguments) : Option String :=
  a.one? fun
    | .type text => some text
    | _ => none

def spec (a : Arguments) : List (String × String) :=
  a.all fun
    | .spec entry => some entry
    | _ => none

def annotations (a : Arguments) : List (String × String) :=
  a.all fun
    | .label entry => some entry
    | _ => none

def start? (a : Arguments) : Option Int64 :=
  a.one? fun
    | .start t => some t
    | _ => none

def stop? (a : Arguments) : Option Int64 :=
  a.one? fun
    | .stop t => some t
    | _ => none

def limit? (a : Arguments) : Option Nat :=
  a.one? fun
    | .limit n => some n
    | _ => none

def format? (a : Arguments) : Option OutputFormat :=
  a.one? fun
    | .format f => some f
    | _ => none

/-- A series is selected in one way; a specification goes with a type or, where no type can
stand, with nothing. -/
def selectsOnce (a : Arguments) : Bool :=
  let byHash := a.has "hash"
  let byIndex := a.has "index"
  let byType := a.has "type"
  !(byHash && byIndex) && !(byHash && byType) && !(byIndex && byType) &&
    (!a.has "spec" || byHash || byIndex || byType)

end Arguments

def Command.ofArguments? (verb : Verb) (a : Arguments) : Option Command :=
  match verb, a.words with
  | .info, [file] => some (.info file)
  | .series, [file] => some (.series file)
  | .blocks, [file] => some (.blocks file)
  | .dump, [file] =>
    if a.selectsOnce then
      some (.dump ⟨file, a.hash?, a.index?, a.type?, a.spec, a.start?, a.stop?, a.limit?,
        a.has "full"⟩)
    else none
  | .verify, [file] => some (.verify file)
  | .reindex, [destination, source] => some (.reindex source destination a.annotations)
  | .hash, [] => a.type?.map fun type => .hash type a.spec
  | _, _ => none

def HelpTopic.ofWords? : List String → Option HelpTopic
  | [] => some .program
  | [word] => if word = "help" then some .help else (Verb.ofName? word).map .command
  | _ => none

namespace Request

def readProgram (a : Arguments) : List String → Except Stop (Arguments × Verb × List String)
  | [] => .error .notUnderstood
  | text :: rest =>
    let mayBeCommand := !a.onlyWords && !a.awaitsValue
    match mayBeCommand && text == "help", if mayBeCommand then Verb.ofName? text else none with
    | true, _ =>
      match HelpTopic.ofWords? rest with
      | some topic => .error (.help topic)
      | none => .error .notUnderstood
    | false, some verb => .ok (a, verb, rest)
    | false, none =>
      match a.read .program .program text with
      | .error stop => .error stop
      | .ok a => readProgram a rest

def readCommand (verb : Verb) (texts : List String) : Except Stop (Arguments × Command) := do
  let read ← texts.foldlM (Arguments.read verb.level (.command verb)) .empty
  let read ← read.settle
  match Command.ofArguments? verb read with
  | some command => return (read, command)
  | none => .error .notUnderstood

def ofArguments (texts : List String) : Except Stop Request := do
  let (before, verb, rest) ← readProgram .empty texts
  let (after, command) ← readCommand verb rest
  let before ← before.settle
  return ⟨command, after.format?.orElse fun _ => before.format?,
    before.has "no-color" || after.has "no-color", before.has "strict" || after.has "strict"⟩

def apply (r : Request) (s : Settings) : Settings :=
  ⟨r.format.getD s.format, s.colored && !r.noColor,
    { s.reader with strictBlockTypes := r.strict || s.reader.strictBlockTypes }⟩

end Request

end SeriesLog.Cli
