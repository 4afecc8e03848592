import SeriesLog.Scan
import SeriesLog.Writer.Basic

/-! # Repair

A damaged or unsealed log is scanned and written anew with an index and a trailer. Series and
blocks keep their content and their order; blocks of series without a descriptor are
dropped, and blocks that mean nothing are left out. When repair fails the new log has neither
index nor trailer. -/
namespace SeriesLog

structure RepairReport where
  seriesCount : Nat
  blocksCopied : Nat
  /-- Data blocks of series without a descriptor. -/
  blocksDropped : Nat
  reservedSkipped : Nat
  /-- Descriptor blocks that do not decode. -/
  undecodableSkipped : Nat
  sourceHadIndex : Bool
  sourceSealed : Bool
  /-- Whether the source ends inside a block. -/
  tornTail : Bool
  indexOffset : Nat
  bytesWritten : Nat
  deriving DecidableEq, Repr

structure Repair where
  writer : Writer
  /-- The new index of each series of the source, newest first. -/
  renumbered : List (UInt32 × UInt32)
  report : RepairReport
  deriving DecidableEq

/-- A repair's report or error, and what it wrote. -/
structure RepairOutcome where
  result : Except LogError RepairReport
  output : Bytes

namespace Repair

def scanConfig : ScanConfig := ReaderConfig.default.scan true true

def noReport : RepairReport := ⟨0, 0, 0, 0, 0, false, false, false, 0, 0⟩

def target? (r : Repair) (index : UInt32) : Option UInt32 :=
  (r.renumbered.find? fun p => p.1 = index).map (·.2)

def note (r : Repair) (change : RepairReport → RepairReport) : Repair :=
  { r with report := change r.report }

def copySeries (r : Repair) (d : SeriesDescriptor) : Option LogError × Repair :=
  match r.writer.declare d.id d.kind d.indexNames d.annotations with
  | (.error e, writer) => (some e, { r with writer })
  | (.ok index, writer) =>
    (none, { r with writer, renumbered := (d.index, index) :: r.renumbered })

/-- Appends a block of the source to the new log, if its series is known. -/
def copyData (r : Repair) (d : DataDescriptor) (payload : Bytes) : Option LogError × Repair :=
  match r.target? d.series with
  | none => (none, r.note fun p => { p with blocksDropped := p.blocksDropped + 1 })
  | some index =>
    match r.writer.appendTo index d.timestamp d.indexValues payload with
    | (.error e, writer) => (some e, { r with writer })
    | (.ok _, writer) =>
      (none, { r with writer }.note fun p => { p with blocksCopied := p.blocksCopied + 1 })

def copyItem (r : Repair) : ScanItem → Option LogError × Repair
  | .block _ _ (.descriptor (.series d)) => r.copySeries d
  | .block _ _ (.descriptor (.index _)) => (none, r.note fun p => { p with sourceHadIndex := true })
  | .block _ _ (.descriptor (.file _)) => (none, r)
  | .block _ _ (.data d payload) => r.copyData d (payload.getD [])
  | .block _ _ (.reserved _) =>
    (none, r.note fun p => { p with reservedSkipped := p.reservedSkipped + 1 })
  | .block _ _ (.undecodable _) =>
    (none, r.note fun p => { p with undecodableSkipped := p.undecodableSkipped + 1 })
  | .trailer _ _ => (none, r.note fun p => { p with sourceSealed := true })

def copyItems (r : Repair) : List ScanItem → Option LogError × Repair
  | [] => (none, r)
  | item :: rest =>
    match r.copyItem item with
    | (some e, r) => (some e, r)
    | (none, r) => r.copyItems rest

def itemType : ScanItem → BlockType
  | .block _ _ (.descriptor _) | .block _ _ (.undecodable _) => .descriptor
  | .block _ _ (.data _ _) => .data
  | .block _ _ (.reserved code) => .ofCode code
  | .trailer _ _ => .trailer

/-- The annotations in the first item of a source, which has to be a file descriptor. -/
def sourceAnnotations : ScanItem → Except FormatError Labels
  | .block _ _ (.descriptor (.file d)) => .ok d.annotations
  | .block _ _ (.descriptor d) => .error (.malformed (.firstDescriptor d.name))
  | .block offset _ (.undecodable reason) =>
    .error (.malformed (.fileDescriptor offset reason.message))
  | item => .error (.unexpectedBlock item.offset .descriptor (itemType item))

def openScan (scan : Scan) : Except FormatError (Labels × List ScanItem) :=
  match scan.items with
  | first :: rest => (sourceAnnotations first).map (·, rest)
  | [] =>
    match scan.ending with
    | .failed e => .error e
    | _ => .error (.truncated .noFileDescriptor)

/-- Carries over the items of a scan and seals the new log. -/
def copyScan (writer : Writer) (items : List ScanItem) (ending : ScanEnding) : RepairOutcome :=
  match (Repair.mk writer [] noReport).copyItems items with
  | (some e, r) => ⟨.error e, r.writer.abandon.sink.bytes⟩
  | (none, r) =>
    match ending with
    | .failed e => ⟨.error (.format e), r.writer.abandon.sink.bytes⟩
    | ending =>
      match r.writer.close with
      | (.error e, writer) => ⟨.error e, writer.sink.bytes⟩
      | (.ok summary, writer) =>
        ⟨.ok { r.report with
            tornTail := ending = .torn
            seriesCount := summary.seriesCount
            indexOffset := summary.indexOffset
            bytesWritten := summary.size },
          writer.sink.bytes⟩

end Repair

/-- The settings of a repair, whose annotations lie over those of the source. -/
def WriterConfig.withSource (c : WriterConfig) (source : Labels) : WriterConfig :=
  { c with annotations := source.overlay c.annotations }

/-- Writes the log in a source anew. -/
def reindex (source : Source) (c : WriterConfig) : RepairOutcome :=
  let scan := source.scan Repair.scanConfig
  match Repair.openScan scan with
  | .error e => ⟨.error (.format e), []⟩
  | .ok (annotations, items) =>
    match Writer.start (c.withSource annotations) (.empty none) with
    | .error failure => ⟨.error failure.error, failure.sink.bytes⟩
    | .ok writer => Repair.copyScan writer items scan.ending

inductive FileChange where
  | kept
  | written (bytes : Bytes)
  | removed
  deriving DecidableEq, Repr

/-- Writes a log anew into a file, unless the file cannot be created. It is created when the
source has a file descriptor, and removed again when copying fails. -/
def reindexFile (source : Source) (c : WriterConfig) (creationFault : Option DeviceFault) :
    Except LogError RepairReport × FileChange :=
  let scan := source.scan Repair.scanConfig
  match Repair.openScan scan, creationFault with
  | .error e, _ => (.error (.format e), .kept)
  | .ok _, some fault => (.error (.device fault), .kept)
  | .ok (annotations, items), none =>
    match Writer.start (c.withSource annotations) (.empty none) with
    | .error failure => (.error failure.error, .written failure.sink.bytes)
    | .ok writer =>
      match Repair.copyScan writer items scan.ending with
      | ⟨.error e, _⟩ => (.error e, .removed)
      | ⟨.ok report, output⟩ => (.ok report, .written output)

end SeriesLog
