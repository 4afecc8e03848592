import SeriesLog.Cli.Options
import SeriesLog.Text.Table

/-! # Help texts

What a command is for, how it is called, and its words and options, a line each. -/
namespace SeriesLog.Cli

inductive HelpTopic where
  | program
  | command (verb : Verb)
  /-- The command that prints help texts. -/
  | help
  deriving DecidableEq, Repr

def helpSection (heading : String) (rows : List (String × String)) : List String :=
  let width := (rows.map fun row => row.1.length).foldl max 0
  if rows.isEmpty then []
  else
    "" :: (heading ++ ":") ::
      rows.map fun row => "  " ++ TextTable.leftAligned (width + 2) row.1 ++ row.2

def CliOption.usage (o : CliOption) : String :=
  match o.value with
  | .none _ => "--" ++ o.long
  | .one name _ _ => "--" ++ o.long ++ " <" ++ name ++ ">"

def CliOption.helpRow (o : CliOption) : String × String :=
  match o.short with
  | some short => ("-" ++ short.toString ++ ", " ++ o.usage, o.about)
  | none => ("    " ++ o.usage, o.about)

def commandHelpAbout : String := "Print this message or the help of the given subcommand(s)"

def commandRows : List (String × String) :=
  (Verb.all.map fun verb => (verb.level.name, verb.level.about)) ++ [("help", commandHelpAbout)]

def Level.usage (l : Level) : String :=
  let required := l.options.filter fun o => l.required.contains o.long
  String.intercalate " "
    ([Level.program.name, l.name, "[OPTIONS]"] ++ required.map CliOption.usage ++
      l.places.map fun place => "<" ++ place.1 ++ ">")

namespace HelpTopic

def lines : HelpTopic → List String
  | program =>
    [Level.program.about, "", "Usage: " ++ Level.program.name ++ " [OPTIONS] <COMMAND>"] ++
      helpSection "Commands" commandRows ++
      helpSection "Options" (Level.program.options.map CliOption.helpRow)
  | command verb =>
    [verb.level.about, "", "Usage: " ++ verb.level.usage] ++
      helpSection "Arguments"
        (verb.level.places.map fun place => ("<" ++ place.1 ++ ">", place.2)) ++
      helpSection "Options" (verb.level.options.map CliOption.helpRow)
  | help =>
    [commandHelpAbout, "", "Usage: " ++ Level.program.name ++ " help [COMMAND]..."] ++
      helpSection "Arguments" [("[COMMAND]...", "Print help for the subcommand(s)")]

end HelpTopic

end SeriesLog.Cli
