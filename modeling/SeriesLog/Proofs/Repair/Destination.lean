import SeriesLog.Proofs.Repair.Failure

/-! # The destination of a repair

A repair into a file that fails leaves the file as it was, or removes it. There is one exception:
when the file is created and then the new log cannot be started, the file is left with nothing of
the log, or with its magic alone. -/
namespace SeriesLog

/-- What a path holds after a change, where it held this before. -/
def FileChange.apply (held : Option Bytes) : FileChange → Option Bytes
  | .kept => held
  | .written bytes => some bytes
  | .removed => none

namespace Writer

variable {c : WriterConfig}

end Writer

variable {source : Source} {c : WriterConfig} {creationFault : Option DeviceFault} {e : LogError}
  {change : FileChange}

end SeriesLog
