import SeriesLog.Error
import SeriesLog.Reader.TimeRange
import SeriesLog.Scan
import SeriesLog.Series.State

/-! # Reading a log

A reader knows the series of a file and where their data blocks lie, either from the index at
the end of a sealed file or from a scan of the whole. Every block is checked against its
entry when it is read, so a damaged index yields an error and never another block. -/
namespace SeriesLog

/-- Why the blocks are found by a scan. -/
inductive ScanReason where
  /-- The trailer says that there is no index. -/
  | noIndex
  | unsealed
  | unreadableIndex
  deriving DecidableEq, Repr

def ScanReason.name : ScanReason → String
  | noIndex => "NoIndex"
  | unsealed => "Unsealed"
  | unreadableIndex => "UnreadableIndex"

/-- Where the places of the blocks are known from. -/
inductive IndexSource where
  | fileIndex (offset : UInt64)
  | scan (reason : ScanReason)
  deriving DecidableEq, Repr

def IndexSource.text : IndexSource → String
  | fileIndex offset => s!"file index at offset {offset.toNat}"
  | scan reason => s!"forward scan ({reason.name})"

/-- A series and its data blocks in time order, blocks of one time in the order of writing. -/
structure Timeline where
  descriptor : SeriesDescriptor
  entries : Array IndexEntry
  deriving DecidableEq

def SeriesIndex.timeline (s : SeriesIndex) : Timeline :=
  ⟨s.descriptor, (s.entries.mergeSort fun a b => decide (a.timestamp ≤ b.timestamp)).toArray⟩

def Timeline.timeSpan? (t : Timeline) : Option (Int64 × Int64) :=
  SeriesLog.timeSpan? (t.entries.toList.map (·.timestamp))

/-- A data block as a query yields it. -/
structure DataRecord where
  series : UInt32
  timestamp : Int64
  /-- The number of earlier blocks of the series. -/
  position : UInt64
  indexValues : List Int64
  payload : Bytes
  offset : UInt64
  deriving DecidableEq, Repr

/-- Whether the checksum of a file is the one in its trailer. -/
inductive ChecksumStatus where
  | valid
  | mismatch (stored computed : Bytes)
  | unsealed
  deriving DecidableEq, Repr

namespace ChecksumStatus

def isValid : ChecksumStatus → Bool
  | valid => true
  | _ => false

def ensureValid : ChecksumStatus → Except LogError Unit
  | mismatch stored computed => .error (.format (.checksum stored computed))
  | _ => .ok ()

end ChecksumStatus

structure Reader where
  file : Bytes
  config : ReaderConfig
  descriptor : FileDescriptor
  trailer : Option Trailer
  source : IndexSource
  /-- The series in the order of their indexes. -/
  series : List Timeline
  torn : Bool
  deriving DecidableEq

namespace Reader

def lift {α : Type} : Except FormatError α → Except LogError α
  | .ok a => .ok a
  | .error e => .error (.format e)

def readFileDescriptor (file : Bytes) (limit : Nat) : Except FormatError FileDescriptor :=
  match Scan.readMagic (.ofBytes file) .fileMagic with
  | .error e => .error e
  | .ok s =>
    match s.readHeader with
    | .error e => .error e
    | .ok (header, s) =>
      if header.type ≠ .descriptor then
        .error (.unexpectedBlock openingMagic.length .descriptor header.type)
      else
        match s.readBody header.type header.size limit with
        | .error e => .error e
        | .ok (body, _) =>
          match Descriptor.decode body with
          | .error e => .error e
          | .ok (.file d) => .ok d
          | .ok d => .error (.malformed (.firstDescriptor d.name))

/-- The trailer, if the last bytes of the file are one. -/
def readTrailer? (file : Bytes) : Option Trailer :=
  if file.length < openingMagic.length + trailerSize then none
  else
    let raw := file.drop (file.length - trailerSize)
    match Header.ofBytes? (raw.take headerSize) with
    | some header =>
      if header.type = .trailer ∧ header.size = trailerDeclaredSize then
        match Scan.readTrailer (.ofBytes (raw.drop headerSize)) with
        | .ok trailer => some trailer
        | .error _ => none
      else none
    | none => none

/-- The first entry of an index that lies outside the data. -/
def entryFault? (indexOffset : Nat) (series : List SeriesIndex) : Option IndexFault :=
  series.findSome? fun s =>
    (s.entries.find? fun e => e.offset.toNat < openingMagic.length ∨ indexOffset ≤ e.offset.toNat).map
      fun e => .entryOutside s.descriptor.id e.offset.toNat

def loadIndex (file : Bytes) (offset limit : Nat) : Except LogError (List SeriesIndex) :=
  let dataEnd := file.length - trailerSize
  if offset < openingMagic.length ∨ dataEnd < offset + headerSize then
    .error (.corruptIndex (.outside offset file.length))
  else
    match (Source.ofBytes (file.drop offset)).readHeader with
    | .error e => .error (.format e)
    | .ok (header, s) =>
      if header.type ≠ .descriptor then
        .error (.corruptIndex (.notDescriptorBlock offset header.type))
      else if dataEnd < offset + header.totalSize then .error (.corruptIndex (.overrun offset))
      else
        match s.readBody header.type header.size limit with
        | .error e => .error (.format e)
        | .ok (body, _) =>
          match Descriptor.decode body with
          | .error e => .error (.format e)
          | .ok (.index index) =>
            match entryFault? offset index.series with
            | some fault => .error (.corruptIndex fault)
            | none => .ok index.series
          | .ok d => .error (.corruptIndex (.notIndex offset d.name))

/-- Adds a scanned item to the series found so far. Series are numbered in the order in which
they are first described; a later descriptor of the same number and the blocks of a series that
is not described count for nothing. -/
def collectItem (found : List SeriesState) : ScanItem → Except FormatError (List SeriesState)
  | .block offset _ (.descriptor (.series d)) =>
    if d.index.toNat < found.length then .ok found
    else if d.index.toNat = found.length then .ok (found ++ [.declared d])
    else .error (.malformed (.seriesOrder offset d.index found.length))
  | .block offset _ (.data d _) =>
    .ok (found.modify d.series.toNat fun s => s.record ⟨d.timestamp, UInt64.ofNat offset⟩)
  | _ => .ok found

def collect : List SeriesState → List ScanItem → Except FormatError (List SeriesState)
  | found, [] => .ok found
  | found, item :: rest =>
    match collectItem found item with
    | .error e => .error e
    | .ok found => collect found rest

/-- Finds the series by a scan, and whether the file ends inside a block. -/
def scanSeries (file : Bytes) (c : ReaderConfig) (skipUndecodable : Bool) :
    Except FormatError (List SeriesIndex × Bool) :=
  let scan := (Source.ofBytes file).scan (c.scan false skipUndecodable)
  match collect [] scan.items with
  | .error e => .error e
  | .ok found =>
    match scan.ending with
    | .failed e => .error e
    | ending => .ok (found.map SeriesState.toIndex, ending = .torn)

def locate (file : Bytes) (c : ReaderConfig) (trailer : Option Trailer) :
    Except LogError (IndexSource × List SeriesIndex × Bool) :=
  let byScan (reason : ScanReason) :=
    (lift (scanSeries file c (reason = .unreadableIndex))).map fun found =>
      (IndexSource.scan reason, found)
  match trailer with
  | none =>
    if c.allowUnsealed then byScan .unsealed else .error (.format (.truncated .noTrailer))
  | some trailer =>
    if trailer.indexOffset = 0 then byScan .noIndex
    else
      match loadIndex file trailer.indexOffset.toNat c.maxBlockSize with
      | .ok series => .ok (.fileIndex trailer.indexOffset, series, false)
      | .error (.format _) => byScan .unreadableIndex
      | .error e => .error e

def ofFile (file : Bytes) (c : ReaderConfig) : Except LogError Reader :=
  match readFileDescriptor file c.maxBlockSize with
  | .error e => .error (.format e)
  | .ok descriptor =>
    let trailer := readTrailer? file
    (locate file c trailer).map fun (source, series, torn) =>
      ⟨file, c, descriptor, trailer, source, series.map SeriesIndex.timeline, torn⟩

def isSealed (r : Reader) : Bool := r.trailer.isSome

def descriptor? (r : Reader) (index : UInt32) : Option SeriesDescriptor :=
  r.series[index.toNat]?.map (·.descriptor)

/-- The first series that a selector names. -/
def position? (r : Reader) : Selector → Option Nat
  | .named id => r.series.findIdx? fun s => s.descriptor.id = id
  | .hashed hash => r.series.findIdx? fun s => s.descriptor.idHash = hash
  | .numbered index => if index.toNat < r.series.length then some index.toNat else none

def find (r : Reader) (selector : Selector) : Except LogError UInt32 :=
  match r.position? selector with
  | some position => .ok (UInt32.ofNat position)
  | none => .error (.unknownSeries selector)

def readBlock (file : Bytes) (limit : Nat) (index : UInt32) (entry : IndexEntry) :
    Except LogError DataRecord :=
  let offset := entry.offset.toNat
  if file.length < offset + headerSize then .error (.corruptIndex (.blockOutside offset))
  else
    match (Source.ofBytes (file.drop offset)).readHeader with
    | .error e => .error (.format e)
    | .ok (header, s) =>
      if header.type ≠ .data then .error (.corruptIndex (.notDataBlock offset header.type))
      else if file.length < offset + header.totalSize then
        .error (.corruptIndex (.blockOverrun offset))
      else
        match s.readBody header.type header.size limit with
        | .error e => .error (.format e)
        | .ok (body, _) =>
          match DataBlock.decode body with
          | .error e => .error (.format e)
          | .ok block =>
            let d := block.descriptor
            if d.series ≠ index ∨ d.timestamp ≠ entry.timestamp then
              .error (.corruptIndex
                (.otherBlock offset d.series d.timestamp index entry.timestamp))
            else
              .ok ⟨index, d.timestamp, d.position, d.indexValues, block.payload, entry.offset⟩

def select (r : Reader) (selector : Selector) (range : TimeRange) :
    Except LogError (UInt32 × List IndexEntry) :=
  (r.find selector).map fun index =>
    (index, (r.series[index.toNat]?.map fun s => range.select s.entries).getD [])

def record (r : Reader) (index : UInt32) (entry : IndexEntry) : Except LogError DataRecord :=
  readBlock r.file r.config.maxBlockSize index entry

/-- The blocks of a series in a range, in time order. -/
def records (r : Reader) (selector : Selector) (range : TimeRange) :
    Except LogError (List (Except LogError DataRecord)) :=
  (r.select selector range).map fun (index, entries) => entries.map (r.record index)

def allEntries (r : Reader) : List (UInt32 × IndexEntry) :=
  r.series.zipIdx.flatMap fun (s, position) =>
    s.entries.toList.map fun entry => (UInt32.ofNat position, entry)

/-- Reads every block once; the number of blocks, or the first error. -/
def verifyIndex (r : Reader) : Except LogError Nat :=
  (r.allEntries.mapM fun (index, entry) => r.record index entry).map List.length

def verifyChecksum (r : Reader) : ChecksumStatus :=
  match r.trailer with
  | none => .unsealed
  | some trailer =>
    let computed := sha1 (r.file.take (r.file.length - (checksumSize + closingMagic.length)))
    if computed = trailer.checksum then .valid else .mismatch trailer.checksum computed

end Reader

end SeriesLog
