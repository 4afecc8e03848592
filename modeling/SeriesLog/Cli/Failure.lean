import SeriesLog.Cli.Operand
import SeriesLog.Error

/-! # Failures of commands

Why a command has no result, told from the command down to the cause. -/
namespace SeriesLog.Cli

inductive Failure where
  | operand (fault : OperandFault)
  | noSelector
  | emptyRange (start stop : Int64)
  | identifier (fault : SeriesIdFault)
  | sameFile
  /-- A file that cannot be opened as a log. -/
  | unreadable (path : String) (error : LogError)
  /-- A file that cannot be opened at all. -/
  | inaccessible (path : String) (fault : DeviceFault)
  | scan (path : String) (error : LogError)
  | select (selector : Selector) (error : LogError)
  | block (error : LogError)
  | reindex (source destination : String) (error : LogError)
  | verification (path : String)
  deriving DecidableEq

namespace Failure

def causes : Failure → List String
  | operand fault => [fault.message]
  | noSelector => ["Select a series with --hash, --index or --type/--spec"]
  | emptyRange start stop => [s!"--start {start.toInt} is after --end {stop.toInt}"]
  | identifier fault =>
    "Invalid series identifier" :: (FormatError.invalidSeries fault).causes
  | sameFile => ["Source and destination must differ"]
  | unreadable path error => ("Failed to open " ++ path) :: error.causes
  | inaccessible path fault => ["Failed to open " ++ path, fault.text]
  | scan path error => ("Failed to scan " ++ path) :: error.causes
  | select selector error => ("Failed to read series " ++ selector.display) :: error.causes
  | block error => "Failed to read data block" :: error.causes
  | reindex source destination error =>
    s!"Failed to reindex {source} into {destination}" :: error.causes
  | verification path => [path ++ " failed verification"]

def message (f : Failure) : String := String.intercalate ": " f.causes

end Failure

end SeriesLog.Cli
