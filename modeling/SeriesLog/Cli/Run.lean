import SeriesLog.Cli.Failure
import SeriesLog.Cli.Place
import SeriesLog.Cli.Request
import SeriesLog.Cli.View
import SeriesLog.Repair
import SeriesLog.Scan.File

/-! # Running the program

What the program shows and writes is a function of its arguments and of what it finds around
it. -/
namespace SeriesLog.Cli

/-- What the program finds around it. -/
structure Environment where
  home : String
  /-- A settings file that has to be there. -/
  settingsPath : Option String
  openFile : String → Except DeviceFault File
  creationFault : String → Option DeviceFault
  /-- Whether the terminal shows colours. -/
  showsColors : Bool

/-- Whether colours are shown: always when forced, never when refused, and else on terminals. -/
def colorsShown (wanted refused forced : Option String) (isTerminal : Bool) : Bool :=
  if forced.any (· != "0") then true
  else if refused.isSome then false
  else wanted.all (· != "0") && isTerminal

structure Outcome where
  output : List String
  errors : List String
  exitCode : UInt8
  change : Option (String × FileChange)

inductive Paint where
  | bold
  | red
  | green
  deriving DecidableEq, Repr

def Paint.code : Paint → String
  | bold => "1"
  | red => "31"
  | green => "32"

def painted (shown : Bool) (paint : Paint) (s : String) : String :=
  if shown then "\x1b[" ++ paint.code ++ "m" ++ s ++ "\x1b[0m" else s

structure Style where
  format : OutputFormat
  colored : Bool

namespace Style

def listing (style : Style) (l : Listing) : List String :=
  match style.format with
  | .table => l.lines
  | .json => [l.document.json ""]

/-- Names are padded by characters to the greatest number of bytes of a name. -/
def details (style : Style) (d : Details) : List String :=
  match style.format with
  | .table =>
    let width := (d.facts.map fun fact => fact.1.utf8ByteSize).foldl max 0
    d.facts.map fun (name, value) =>
      let name := name ++ TextTable.spaces (width - name.length)
      "  " ++ painted style.colored .bold name ++ "  " ++ value
  | .json => [d.document.json ""]

/-- Success is told to readers only. -/
def success (style : Style) (message : String) : List String :=
  match style.format with
  | .table => [painted style.colored .green "✅" ++ " " ++ message]
  | .json => []

def error (style : Style) (message : String) : String :=
  painted style.colored .red "❌" ++ " " ++ painted style.colored .red message

def shown (lines : List String) : Outcome := ⟨lines, [], 0, none⟩

def failed (style : Style) (f : Failure) : Outcome := ⟨[], [style.error f.message], 1, none⟩

def outcome {α : Type} (style : Style) (lines : α → List String) : Except Failure α → Outcome
  | .ok a => shown (lines a)
  | .error f => style.failed f

end Style

def homeSettings (home : String) : String :=
  Place.inside (Place.inside home ".bddf") "config.toml"

inductive SettingsFault where
  | unreadable (path : String) (cause : Option DeviceFault)
  | invalid (path : String)
  deriving DecidableEq, Repr

def SettingsFault.lines : SettingsFault → List String
  | unreadable path cause =>
    ("Error: Failed to read config " ++ path) ::
      (match cause with
        | some fault => ["", "Caused by:", "    " ++ fault.text]
        | none => [])
  | invalid path => ["Error: Failed to parse config " ++ path]

def Environment.settingsIn (env : Environment) (path : String) : Except SettingsFault Settings :=
  match env.openFile path with
  | .error fault => .error (.unreadable path (some fault))
  | .ok file =>
    match file.fault, ofUtf8? file.bytes with
    | some fault, _ => .error (.unreadable path (some fault))
    | none, none => .error (.unreadable path none)
    | none, some text =>
      match Settings.ofText? text with
      | some settings => .ok settings
      | none => .error (.invalid path)

/-- The settings that hold: those of the file that has to be there, else those of the file in
the home directory, if there is one, else the defaults. -/
def Environment.settings (env : Environment) : Except SettingsFault Settings :=
  match env.settingsPath with
  | some path => env.settingsIn path
  | none =>
    let path := homeSettings env.home
    match env.openFile path with
    | .error fault => if fault.saysAbsent then .ok .default else env.settingsIn path
    | .ok _ => env.settingsIn path

def Environment.openLog (env : Environment) (c : ReaderConfig) (path : String) :
    Except Failure Reader :=
  match env.openFile path with
  | .error fault => .error (.unreadable path (.device fault))
  | .ok file =>
    match file.fault with
    | some fault => .error (.unreadable path (.format (.device fault)))
    | none => (Reader.ofFile file.bytes c).mapError (.unreadable path)

namespace RecordQuery

def selector (q : RecordQuery) : Except Failure Selector :=
  match q.hash, q.index, q.type with
  | some text, _, _ => ((seriesHash text).map .hashed).mapError .operand
  | none, some index, _ => .ok (.numbered index)
  | none, none, some type => ((SeriesId.ofParts type q.spec).map .named).mapError .identifier
  | none, none, none => .error .noSelector

def range (q : RecordQuery) : Except Failure TimeRange :=
  match q.start, q.stop with
  | some start, some stop =>
    if stop < start then .error (.emptyRange start stop) else .ok ⟨some start, some stop⟩
  | start, stop => .ok ⟨start, stop⟩

def previewLength : Nat := 48

def run (q : RecordQuery) (env : Environment) (c : ReaderConfig) : Except Failure Listing := do
  let selector ← q.selector
  let range ← q.range
  let reader ← env.openLog c q.file
  let (index, entries) ← (reader.select selector range).mapError (.select selector)
  let entries := match q.limit with
    | some limit => entries.take limit
    | none => entries
  let records ← (entries.mapM (reader.record index)).mapError .block
  return recordListing (if q.full then none else some previewLength) records

end RecordQuery

def listBlocks (env : Environment) (style : Style) (c : ReaderConfig) (path : String) : Outcome :=
  match env.openFile path with
  | .error fault => style.failed (.inaccessible path fault)
  | .ok file =>
    let scan := file.scan (c.scan false true)
    let lines := style.listing (blockListing scan.items)
    match scan.ending with
    | .failed e => style.failed (.scan path (.format e))
    | .torn =>
      ⟨lines, [style.error s!"File ends inside a block at offset {scan.offset}"], 0, none⟩
    | _ => Style.shown lines

def verifyFile (env : Environment) (style : Style) (c : ReaderConfig) (path : String) : Outcome :=
  match env.openLog c path with
  | .error f => style.failed f
  | .ok reader =>
    let v := Verification.ofReader path reader
    let lines := style.details v.details
    if v.passes then Style.shown (lines ++ style.success (path ++ " verified"))
    else { style.failed (.verification path) with output := lines }

def repairFile (env : Environment) (style : Style) (source destination : String)
    (annotations : List (String × String)) : Outcome :=
  if Place.ofPath source = Place.ofPath destination then style.failed .sameFile
  else
    match env.openFile source with
    | .error fault => style.failed (.reindex source destination (.device fault))
    | .ok file =>
      let config := { WriterConfig.default with annotations := Labels.ofList annotations }
      let (result, change) := reindexFile (file.source 0) config (env.creationFault destination)
      let outcome :=
        match result with
        | .error e => style.failed (.reindex source destination e)
        | .ok report =>
          Style.shown (style.details (repairDetails report) ++
            style.success ("Wrote " ++ destination))
      { outcome with change := some (destination, change) }

def identify (type : String) (spec : List (String × String)) : Except Failure SeriesId :=
  (SeriesId.ofParts type spec).mapError .identifier

def Command.run (env : Environment) (settings : Settings) (command : Command) : Outcome :=
  let style : Style := ⟨settings.format, settings.colored && env.showsColors⟩
  let c := settings.reader
  match command with
  | info file =>
    style.outcome (fun r => style.details (fileDetails file r)) (env.openLog c file)
  | series file => style.outcome (fun r => style.listing (seriesListing r)) (env.openLog c file)
  | blocks file => listBlocks env style c file
  | dump query => style.outcome style.listing (query.run env c)
  | verify file => verifyFile env style c file
  | reindex source destination annotations =>
    repairFile env style source destination annotations
  | hash type spec =>
    style.outcome (fun id => style.details (hashDetails id)) (identify type spec)

def Command.reads : Command → List String
  | info file | series file | blocks file | verify file => [file]
  | dump query => [query.file]
  | reindex source _ _ => [source]
  | hash _ _ => []

def filesRead (settingsPath : String) (arguments : List String) : List String :=
  match Request.ofArguments arguments with
  | .ok request => settingsPath :: request.command.reads
  | .error _ => []

def versionText : String := Level.program.name ++ " 0.1.0"

def run (env : Environment) (arguments : List String) : Outcome :=
  match Request.ofArguments arguments with
  | .error .version => Style.shown [versionText]
  | .error (.help topic) => Style.shown topic.lines
  | .error .notUnderstood =>
    ⟨[], "error: the command line is not understood" :: "" :: HelpTopic.program.lines, 2, none⟩
  | .ok request =>
    match env.settings with
    | .error fault => ⟨[], fault.lines, 1, none⟩
    | .ok settings => request.command.run env (request.apply settings)

end SeriesLog.Cli
