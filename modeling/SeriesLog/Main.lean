import SeriesLog.Cli.Run

/-! # The program

Reads the files that a command line names, runs it, and shows and writes the outcome. -/
namespace SeriesLog.Cli

def faultOf : IO.Error → DeviceFault
  | .noFileOrDirectory _ code details | .permissionDenied _ code details
  | .inappropriateType _ code details | .invalidArgument _ code details
  | .resourceExhausted _ code details | .alreadyExists _ code details =>
    ⟨s!"{details} (os error {code})", .other⟩
  | .unexpectedEof => ⟨toString IO.Error.unexpectedEof, .unexpectedEnd⟩
  | e => ⟨toString e, .other⟩

def readAll (handle : IO.FS.Handle) : IO File := do
  try return ⟨← handle.readBinToEnd, none⟩
  catch e => return ⟨.empty, some (faultOf e)⟩

def openFile (path : String) : IO (Except DeviceFault File) := do
  try
    let handle ← IO.FS.Handle.mk path .read
    return .ok (← readAll handle)
  catch e => return .error (faultOf e)

/-- Changes a file, or says why it cannot be created. -/
def applyChange (change : Option (String × FileChange)) : IO (Option DeviceFault) := do
  try
    match change with
    | some (path, .written bytes) => IO.FS.writeBinFile path ⟨bytes.toArray⟩
    | some (path, .removed) =>
      IO.FS.writeBinFile path .empty
      IO.FS.removeFile path
    | _ => pure ()
    return none
  catch e => return some (faultOf e)

def environment (arguments : List String) : IO Environment := do
  let home := (← IO.getEnv "HOME").getD "."
  let settingsPath ← IO.getEnv "BDDF_CONFIG"
  let paths := filesRead (settingsPath.getD (homeSettings home)) arguments
  let files ← paths.mapM fun path => return (path, ← openFile path)
  let isTerminal ← (← IO.getStdout).isTty
  return {
    home
    settingsPath
    openFile := fun path => (files.lookup path).getD (.error .notFound)
    creationFault := fun _ => none
    showsColors := colorsShown (← IO.getEnv "CLICOLOR") (← IO.getEnv "NO_COLOR")
      (← IO.getEnv "CLICOLOR_FORCE") isTerminal }

def Outcome.show (outcome : Outcome) : IO UInt32 := do
  for line in outcome.output do IO.println line
  for line in outcome.errors do IO.eprintln line
  return outcome.exitCode.toUInt32

end SeriesLog.Cli

open SeriesLog.Cli

def main (arguments : List String) : IO UInt32 := do
  let env ← environment arguments
  let outcome := run env arguments
  match ← applyChange outcome.change with
  | none => outcome.show
  | some fault => (run { env with creationFault := fun _ => some fault } arguments).show
