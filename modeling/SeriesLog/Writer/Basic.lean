import SeriesLog.Block.Data
import SeriesLog.Block.Framing
import SeriesLog.Bytes.Sink
import SeriesLog.Config
import SeriesLog.Descriptor.Codec
import SeriesLog.Error
import SeriesLog.Series.State

/-! # Writing a log

A writer puts a log on a sink: first the magic and the file descriptor, then a descriptor
block for every series and a data block for every payload, and at last, when it is closed,
the index and the trailer. Nothing that was written is changed later. An operation that
fails leaves the series as they were; when the sink is full it may leave part of a block. -/
namespace SeriesLog

inductive Phase where
  /-- The file descriptor is written, no data yet. -/
  | headerWritten
  | writing
  /-- The log is sealed, or sealing it failed. -/
  | closed
  deriving DecidableEq, Repr

structure Writer where
  sink : Sink
  position : Nat
  /-- The series in the order of declaration. -/
  series : List SeriesState
  phase : Phase
  maxBlockSize : Nat
  deriving DecidableEq

structure BlockLocation where
  series : UInt32
  /-- The number of earlier blocks of the series. -/
  position : Nat
  offset : Nat
  deriving DecidableEq, Repr

structure CloseSummary where
  /-- Where the index lies, 0 when no data was written. -/
  indexOffset : Nat
  checksum : Bytes
  size : Nat
  seriesCount : Nat
  blockCount : Nat
  deriving DecidableEq, Repr

/-- A writer that could not start, and what its sink holds. -/
structure StartFailure where
  error : LogError
  sink : Sink
  deriving DecidableEq

namespace Writer

/-- Writes a piece as far as it fits, and counts the bytes. -/
def put (w : Writer) (piece : Bytes) : Writer :=
  { w with sink := w.sink.write piece, position := w.position + (w.sink.fitting piece).length }

def fits (w : Writer) (piece : Bytes) : Bool := w.sink.fitting piece = piece

def putAll (w : Writer) : List Bytes → Bool × Writer
  | [] => (true, w)
  | piece :: rest => if w.fits piece then (w.put piece).putAll rest else (false, w.put piece)

/-- Writes pieces that the checksum does not cover; only whole ones are counted. -/
def putUncovered (w : Writer) : List Bytes → Bool × Writer
  | [] => (true, w)
  | piece :: rest =>
    if w.fits piece then (w.put piece).putUncovered rest
    else (false, { w with sink := w.sink.write piece })

def writeBlock (w : Writer) (type : BlockType) (parts : List Bytes) : Except LogError Unit × Writer :=
  match blockPieces type parts with
  | .error e => (.error (.format e), w)
  | .ok pieces =>
    match w.putAll pieces with
    | (true, w) => (.ok (), w)
    | (false, w) => (.error (.format (.device .sinkFull)), w)

def start (c : WriterConfig) (sink : Sink) : Except StartFailure Writer :=
  match Annotations.fault? c.annotations with
  | some fault => .error ⟨.format (.invalidAnnotations fault), sink⟩
  | none =>
    let blank : Writer := ⟨sink, 0, [], .headerWritten, c.maxBlockSize⟩
    match blank.putAll [openingMagic] with
    | (false, w) => .error ⟨.device .sinkFull, w.sink⟩
    | (true, w) =>
      match w.writeBlock .descriptor
          [Descriptor.encode (.file (.ofAnnotations c.annotations))] with
      | (.error e, w) => .error ⟨e, w.sink⟩
      | (.ok _, w) => .ok w

def indexOf? (w : Writer) (id : SeriesId) : Option Nat :=
  w.series.findIdx? fun s => s.descriptor.id = id

def descriptor? (w : Writer) (index : UInt32) : Option SeriesDescriptor :=
  w.series[index.toNat]?.map (·.descriptor)

def seriesCount (w : Writer) : Nat := w.series.length

def blockCount (w : Writer) : Nat := (w.series.flatMap fun s => s.recorded).length

def redeclaration? (d : SeriesDescriptor) (kind : SeriesKind) (indexNames : List String) :
    Option Redeclaration :=
  if d.kind ≠ kind then some (.kind d.kind kind)
  else if d.indexNames ≠ indexNames then some (.indexNames d.indexNames indexNames)
  else none

/-- Why a new series is refused. -/
def refusal? (id : SeriesId) (kind : SeriesKind) (annotations : Labels) : Option LogError :=
  match Annotations.fault? annotations with
  | some fault => some (.format (.invalidAnnotations fault))
  | none =>
    match kind with
    | .pod shape =>
      if shape.sampleSize.isNone then some (.sampleMismatch id (.overflow shape)) else none
    | _ => none

def addSeries (w : Writer) (id : SeriesId) (kind : SeriesKind) (indexNames : List String)
    (annotations : Labels) : Except LogError UInt32 × Writer :=
  match refusal? id kind annotations with
  | some e => (.error e, w)
  | none =>
    let index := UInt32.ofNat w.series.length
    let descriptor := SeriesDescriptor.make index id kind indexNames annotations
    match w.writeBlock .descriptor [Descriptor.encode (.series descriptor)] with
    | (.error e, w) => (.error e, w)
    | (.ok _, w) => (.ok index, { w with series := w.series ++ [.declared descriptor] })

/-- Declares a series. Declaring it again changes nothing; it has to be of the same kind and
index names, while the annotations of the first declaration stay. -/
def declare (w : Writer) (id : SeriesId) (kind : SeriesKind) (indexNames : List String)
    (annotations : Labels) : Except LogError UInt32 × Writer :=
  if w.phase = .closed then (.error .writerClosed, w)
  else
    match w.indexOf? id with
    | none => w.addSeries id kind indexNames annotations
    | some index =>
      match w.series[index]? with
      | none => (.error .writerClosed, w)
      | some first =>
        match redeclaration? first.descriptor kind indexNames with
        | some difference => (.error (.redeclared id difference), w)
        | none => (.ok (UInt32.ofNat index), w)

def dataParts (d : DataDescriptor) (payload : Bytes) (limit : Nat) :
    Except FormatError (List Bytes) :=
  match d.encodeSized with
  | .error e => .error e
  | .ok sized =>
    let size := sized.length + payload.length
    if limit < size then .error (.tooLarge size limit) else .ok [sized, payload]

def appendTo (w : Writer) (index : UInt32) (timestamp : Int64) (indexValues : List Int64)
    (payload : Bytes) : Except LogError BlockLocation × Writer :=
  if w.phase = .closed then (.error .writerClosed, w)
  else
    match w.series[index.toNat]? with
    | none => (.error (.unknownSeries (.numbered index)), w)
    | some s =>
      if indexValues.length ≠ s.descriptor.indexNames.length then
        (.error (.indexArity s.descriptor.id s.descriptor.indexNames.length indexValues.length), w)
      else
        match dataParts ⟨index, timestamp, UInt64.ofNat s.nextPosition, indexValues⟩ payload
            w.maxBlockSize with
        | .error e => (.error (.format e), w)
        | .ok parts =>
          let offset := w.position
          match w.writeBlock .data parts with
          | (.error e, w) => (.error e, w)
          | (.ok _, w) =>
            (.ok ⟨index, s.nextPosition, offset⟩,
              { w with
                series := w.series.set index.toNat (s.record ⟨timestamp, UInt64.ofNat offset⟩)
                phase := .writing })

/-- Appends a data block to a series, which is declared as untyped if it is new. -/
def append (w : Writer) (id : SeriesId) (timestamp : Int64) (indexValues : List Int64)
    (payload : Bytes) : Except LogError BlockLocation × Writer :=
  match w.indexOf? id with
  | some index => w.appendTo (UInt32.ofNat index) timestamp indexValues payload
  | none =>
    match w.declare id .untyped [] .empty with
    | (.error e, w) => (.error e, w)
    | (.ok index, w) => w.appendTo index timestamp indexValues payload

def writeIndex (w : Writer) : Except LogError Nat × Writer :=
  if w.blockCount = 0 then (.ok 0, w)
  else
    match w.writeBlock .descriptor
        [Descriptor.encode (.index ⟨w.series.map SeriesState.toIndex⟩)] with
    | (.error e, after) => (.error e, after)
    | (.ok _, after) => (.ok w.position, after)

def trailerHeader : Header := ⟨.trailer, trailerDeclaredSize, Nat.le_of_ble_eq_true rfl⟩

/-- Seals the log: index, trailer, and the checksum of all before it. Even a failure ends the
log. -/
def close (w : Writer) : Except LogError CloseSummary × Writer :=
  if w.phase = .closed then (.error .writerClosed, w)
  else
    match { w with phase := .closed }.writeIndex with
    | (.error e, w) => (.error e, w)
    | (.ok indexOffset, w) =>
      match w.putAll [trailerHeader.encode, Bytes.littleEndian 8 indexOffset] with
      | (false, w) => (.error (.device .sinkFull), w)
      | (true, w) =>
        let checksum := sha1 w.sink.bytes
        match w.putUncovered [checksum, closingMagic] with
        | (false, w) => (.error (.device .sinkFull), w)
        | (true, w) => (.ok ⟨indexOffset, checksum, w.position, w.seriesCount, w.blockCount⟩, w)

/-- Seals the log if it is open; a closed one stays as it is. -/
def finish (w : Writer) : Except LogError Unit × Writer :=
  if w.phase = .closed then (.ok (), w)
  else
    match w.close with
    | (.error e, w) => (.error e, w)
    | (.ok _, w) => (.ok (), w)

def abandon (w : Writer) : Writer := { w with phase := .closed }

end Writer

end SeriesLog
