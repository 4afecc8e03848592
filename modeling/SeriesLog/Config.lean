import SeriesLog.Labels

/-! # Settings of reading and writing -/
namespace SeriesLog

structure ReaderConfig where
  /-- Compare the checksum when a file is opened. -/
  verifyChecksum : Bool
  strictBlockTypes : Bool
  allowUnsealed : Bool
  maxBlockSize : Nat
  deriving DecidableEq, Repr

/-- The largest body that is read or written unless set otherwise: 1 GiB. -/
def defaultMaxBlockSize : Nat := 1024 * 1024 * 1024

def ReaderConfig.default : ReaderConfig := ⟨false, false, true, defaultMaxBlockSize⟩

structure WriterConfig where
  annotations : Labels
  bufferCapacity : Nat
  /-- The largest body of a data block that is written. -/
  maxBlockSize : Nat
  syncOnClose : Bool
  deriving DecidableEq

def WriterConfig.default : WriterConfig := ⟨.empty, 65536, defaultMaxBlockSize, true⟩

end SeriesLog
