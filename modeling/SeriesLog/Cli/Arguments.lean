import SeriesLog.Cli.Help

/-! # Arguments

A command line is read from left to right. An option's value may follow it or be attached to
it, single letters may share a minus sign, and after `--` everything is a word. The value of
an option is checked when the next one or the end is reached. Options of the program may stand
before and after the command; then the later format counts. -/
namespace SeriesLog.Cli

/-- Why a command line is no request. -/
inductive Stop where
  | notUnderstood
  | help (topic : HelpTopic)
  | version
  deriving DecidableEq, Repr

/-- What has been read of one level of a command line. -/
structure Arguments where
  /-- The options, newest first, each by its long name. -/
  choices : List (String × Choice)
  /-- The option read last, and its value if there is one, as long as it is unchecked. -/
  pending : Option (CliOption × Option String)
  /-- The words, newest first. -/
  words : List String
  /-- Whether all that follows are words. -/
  onlyWords : Bool

namespace Arguments

def empty : Arguments := ⟨[], none, [], false⟩

def add (a : Arguments) (o : CliOption) (choice : Choice) : Except Stop Arguments :=
  if !o.repeatable && a.choices.any (·.1 == o.long) then .error .notUnderstood
  else .ok { a with choices := (o.long, choice) :: a.choices, pending := none }

def addValue (a : Arguments) (o : CliOption) (text : String) : Except Stop Arguments :=
  match o.value with
  | .none _ => .error .notUnderstood
  | .one _ _ read =>
    match read text with
    | some choice => a.add o choice
    | none => .error .notUnderstood

def settle (a : Arguments) : Except Stop Arguments :=
  match a.pending with
  | none => .ok a
  | some (_, none) => .error .notUnderstood
  | some (o, some text) => a.addValue o text

def awaitsValue (a : Arguments) : Bool := a.pending.any fun (_, value) => value.isNone

def awaitsNegative (a : Arguments) : Bool :=
  match a.pending with
  | some (⟨_, _, _, .one _ mayBeNegative _, _⟩, none) => mayBeNegative
  | _ => false

def takeValue (a : Arguments) (text : String) : Arguments :=
  { a with pending := a.pending.map fun (o, _) => (o, some text) }

def takeOption (topic : HelpTopic) (a : Arguments) (o : CliOption) : Except Stop Arguments :=
  match a.settle with
  | .error stop => .error stop
  | .ok a =>
    match o.value with
    | .none .help => .error (.help topic)
    | .none .version => .error .version
    | .none choice => a.add o choice
    | .one _ _ _ => .ok { a with pending := some (o, none) }

def takeAttached (a : Arguments) (o : CliOption) (text : String) : Except Stop Arguments :=
  match a.settle with
  | .error stop => .error stop
  | .ok a => a.addValue o text

def takeWord (places : Nat) (a : Arguments) (word : String) : Except Stop Arguments :=
  match a.settle with
  | .error stop => .error stop
  | .ok a =>
    if word.isEmpty || places ≤ a.words.length then .error .notUnderstood
    else .ok { a with words := word :: a.words }

def readLong (level : Level) (topic : HelpTopic) (a : Arguments) (text : List Char) :
    Except Stop Arguments :=
  let name := text.takeWhile (· != '=')
  match level.options.find? fun o => o.long.toList == name, text.drop name.length with
  | none, _ => .error .notUnderstood
  | some o, [] => a.takeOption topic o
  | some o, _ :: value => a.takeAttached o (String.ofList value)

/-- The value attached to a letter; an equals sign in front does not count. -/
def attached : List Char → String
  | '=' :: value => String.ofList value
  | value => String.ofList value

def readShort (level : Level) (topic : HelpTopic) :
    Arguments → List Char → Except Stop Arguments
  | a, [] => .ok a
  | a, letter :: rest =>
    match level.options.find? fun o => o.short == some letter with
    | none => .error .notUnderstood
    | some o =>
      match o.value, rest with
      | .one _ _ _, _ :: _ => a.takeAttached o (attached rest)
      | _, _ =>
        match a.takeOption topic o with
        | .error stop => .error stop
        | .ok a => readShort level topic a rest

def isNumeral (text : List Char) : Bool :=
  let isMantissa (cs : List Char) : Bool :=
    cs.all (fun c => c.isDigit || c == '.') && cs.count '.' ≤ 1 && cs.head? != some '.'
  let mantissa := text.takeWhile (· != 'e')
  isMantissa mantissa &&
    match text.drop mantissa.length with
    | [] => true
    | _ :: exponent => !mantissa.isEmpty && !exponent.isEmpty && exponent.all Char.isDigit

def read (level : Level) (topic : HelpTopic) (a : Arguments) (text : String) :
    Except Stop Arguments :=
  if a.onlyWords then a.takeWord level.places.length text
  else
    match text.toList with
    | ['-', '-'] => .ok { a with onlyWords := true }
    | '-' :: '-' :: long => a.readLong level topic long
    | '-' :: letter :: letters =>
      if a.awaitsNegative && isNumeral (letter :: letters) then .ok (a.takeValue text)
      else readShort level topic a (letter :: letters)
    | _ =>
      if a.awaitsValue then .ok (a.takeValue text) else a.takeWord level.places.length text

def has (a : Arguments) (long : String) : Bool := a.choices.any (·.1 == long)

def all (a : Arguments) {α : Type} (f : Choice → Option α) : List α :=
  (a.choices.filterMap fun c => f c.2).reverse

def one? (a : Arguments) {α : Type} (f : Choice → Option α) : Option α := (a.all f).head?

end Arguments

end SeriesLog.Cli
