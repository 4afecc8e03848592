import SeriesLog.Reader.Basic

/-! # Sessions

A reader has one stream of its file, which every query and every check moves. Each read of a block
goes to the place of the block first, wherever the last one left the stream. -/
namespace SeriesLog

/-- A reader whose stream is at a position. -/
structure Reader.Session (r : Reader) where
  position : Nat

structure Query where
  index : UInt32
  entries : List IndexEntry
  /-- The number of entries that were taken. -/
  taken : Nat

def Query.remaining (q : Query) : Nat := q.entries.length - q.taken

inductive Inquiry where
  /-- To take a number of blocks, or all there are, off a query. -/
  | records (selector : Selector) (range : TimeRange) (count : Nat)
  | index
  | checksum
  deriving DecidableEq

inductive Reply where
  /-- The blocks that were taken, and how many the query has left. -/
  | records (found : Except LogError (List (Except LogError DataRecord) × Nat))
  | index (checked : Except LogError Nat)
  | checksum (status : ChecksumStatus)

namespace Reader.Session

variable {r : Reader}

def seek (_ : Session r) (position : Nat) : Session r := ⟨position⟩

def ahead (s : Session r) : Source := .ofBytes (r.file.drop s.position)

/-- Takes exactly `count` bytes. At fewer the stream is left at its end. -/
def take (s : Session r) (count : Nat) (error : Shortfall → FormatError) :
    Except FormatError Bytes × Session r :=
  match s.ahead.take count error with
  | .error e => (.error e, s.seek r.file.length)
  | .ok (bytes, _) => (.ok bytes, s.seek (s.position + count))

def readHeader (s : Session r) : Except FormatError Header × Session r :=
  match s.take headerSize (Source.exactErrorOf .header) with
  | (.error e, s) => (.error e, s)
  | (.ok bytes, s) => (Source.headerOf bytes, s)

def readBody (s : Session r) (header : Header) : Except FormatError Bytes × Session r :=
  let limit := r.config.maxBlockSize
  if limit < header.size then (.error (.tooLarge header.size limit), s)
  else s.take header.size (Source.errorOf fun got => .body got header.size header.type)

def recordOf (index : UInt32) (entry : IndexEntry) (body : Bytes) : Except LogError DataRecord :=
  match DataBlock.decode body with
  | .error e => .error (.format e)
  | .ok block =>
    let d := block.descriptor
    if d.series ≠ index ∨ d.timestamp ≠ entry.timestamp then
      .error (.corruptIndex
        (.otherBlock entry.offset.toNat d.series d.timestamp index entry.timestamp))
    else .ok ⟨index, d.timestamp, d.position, d.indexValues, block.payload, entry.offset⟩

/-- Goes to the data block of an entry, reads it and checks that it is the one. -/
def readBlock (s : Session r) (index : UInt32) (entry : IndexEntry) :
    Except LogError DataRecord × Session r :=
  let offset := entry.offset.toNat
  if r.file.length < offset + headerSize then (.error (.corruptIndex (.blockOutside offset)), s)
  else
    match (s.seek offset).readHeader with
    | (.error e, s) => (.error (.format e), s)
    | (.ok header, s) =>
      if header.type ≠ .data then (.error (.corruptIndex (.notDataBlock offset header.type)), s)
      else if r.file.length < offset + header.totalSize then
        (.error (.corruptIndex (.blockOverrun offset)), s)
      else
        match s.readBody header with
        | (.error e, s) => (.error (.format e), s)
        | (.ok body, s) => (recordOf index entry body, s)

def query (_ : Session r) (selector : Selector) (range : TimeRange) : Except LogError Query :=
  (r.select selector range).map fun (index, entries) => ⟨index, entries, 0⟩

def next (s : Session r) (q : Query) : Option (Except LogError DataRecord) × Query × Session r :=
  match q.entries[q.taken]? with
  | none => (none, q, s)
  | some entry =>
    let (item, s) := s.readBlock q.index entry
    (some item, { q with taken := q.taken + 1 }, s)

def consume (s : Session r) (q : Query) :
    Nat → List (Except LogError DataRecord) × Query × Session r
  | 0 => ([], q, s)
  | count + 1 =>
    match s.next q with
    | (none, q, s) => ([], q, s)
    | (some item, q, s) =>
      let (items, q, s) := s.consume q count
      (item :: items, q, s)

def checkEntries (s : Session r) (index : UInt32) (checked : Nat) :
    List IndexEntry → Except LogError Nat × Session r
  | [] => (.ok checked, s)
  | entry :: rest =>
    match s.readBlock index entry with
    | (.error e, s) => (.error e, s)
    | (.ok _, s) => s.checkEntries index (checked + 1) rest

def checkSeries (s : Session r) (checked : Nat) :
    List (Timeline × Nat) → Except LogError Nat × Session r
  | [] => (.ok checked, s)
  | (t, place) :: rest =>
    match s.checkEntries (UInt32.ofNat place) checked t.entries.toList with
    | (.error e, s) => (.error e, s)
    | (.ok checked, s) => s.checkSeries checked rest

def verifyIndex (s : Session r) : Except LogError Nat × Session r :=
  s.checkSeries 0 r.series.zipIdx

def bufferSize : Nat := 64 * 1024

/-- Reads `left` bytes, or all there are, buffer by buffer behind what was read already. -/
def drain (s : Session r) (left : Nat) (read : Bytes) : Bytes × Session r :=
  let bytes := s.ahead.bytes.take (min bufferSize left)
  if _more : bytes ≠ [] then
    (s.seek (s.position + bytes.length)).drain (left - bytes.length) (read ++ bytes)
  else (read, s)
termination_by left
decreasing_by
  change left - bytes.length < left
  have hlength : bytes.length = min (min bufferSize left) s.ahead.bytes.length :=
    List.length_take
  have hpositive := List.length_pos_iff.2 _more
  omega

def verifyChecksum (s : Session r) : ChecksumStatus × Session r :=
  match r.trailer with
  | none => (.unsealed, s)
  | some trailer =>
    let (covered, s) :=
      (s.seek 0).drain (r.file.length - (checksumSize + closingMagic.length)) []
    let computed := sha1 covered
    (if computed = trailer.checksum then .valid else .mismatch trailer.checksum computed, s)

def answer (s : Session r) : Inquiry → Reply × Session r
  | .records selector range count =>
    match s.query selector range with
    | .error e => (.records (.error e), s)
    | .ok q =>
      let (items, q, s) := s.consume q count
      (.records (.ok (items, q.remaining)), s)
  | .index =>
    let (checked, s) := s.verifyIndex
    (.index checked, s)
  | .checksum =>
    let (status, s) := s.verifyChecksum
    (.checksum status, s)

def run (s : Session r) : List Inquiry → List Reply × Session r
  | [] => ([], s)
  | inquiry :: rest =>
    let (reply, s) := s.answer inquiry
    let (replies, s) := s.run rest
    (reply :: replies, s)

end Reader.Session

end SeriesLog
