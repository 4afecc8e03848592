/-! # Device faults

What a device reports when it cannot deliver or accept bytes. A call that was only interrupted is
made again and is no fault. -/
namespace SeriesLog

inductive FaultKind where
  /-- The device itself says that its bytes ended too early. -/
  | unexpectedEnd
  | other
  deriving DecidableEq, Repr

structure DeviceFault where
  text : String
  kind : FaultKind
  deriving DecidableEq, Repr

def DeviceFault.sinkFull : DeviceFault := ⟨"sink is full", .other⟩

def DeviceFault.notFound : DeviceFault := ⟨"No such file or directory (os error 2)", .other⟩

def DeviceFault.notADirectory : DeviceFault := ⟨"Not a directory (os error 20)", .other⟩

def DeviceFault.saysAbsent (fault : DeviceFault) : Bool :=
  fault = .notFound || fault = .notADirectory

end SeriesLog
