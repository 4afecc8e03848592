import SeriesLog.Document.Forms
import SeriesLog.Document.Json
import SeriesLog.Text.Preview
import SeriesLog.Text.Table

/-! # Views

What commands show of a log: lists of like things, and details of one thing. Either has a form
for readers and a document. -/
namespace SeriesLog.Cli

structure Listing where
  /-- The field names and titles of the columns. -/
  columns : List (String × String)
  rows : List (List Document)

structure Details where
  /-- Names and values for readers. -/
  facts : List (String × String)
  document : Document

namespace Listing

def cell : Document → String
  | .text s => s
  | .integer n => toString n
  | _ => "-"

def document (l : Listing) : Document :=
  .list (l.rows.map fun row => .table (List.zipWith (fun c d => (c.1, d)) l.columns row))

def table (l : Listing) : TextTable := ⟨l.columns.map (·.2), l.rows.map fun row => row.map cell⟩

def lines (l : Listing) : List String :=
  if l.rows.isEmpty then ["No items found"] else l.table.lines

end Listing

def checksumText (absent : String) : ChecksumStatus → String
  | .valid => "valid"
  | .mismatch stored computed => s!"MISMATCH (stored {stored.hex}, computed {computed.hex})"
  | .unsealed => absent

def whenTrue (name : String) (holds : Bool) : List (String × String) :=
  if holds then [(name, "true")] else []

def fileDetails (path : String) (r : Reader) : Details :=
  let blockCount := (r.series.flatMap fun s => s.entries.toList).length
  let checksum := r.verifyChecksum
  let annotations := r.descriptor.annotations
  { facts :=
      [("File", path), ("Version", r.descriptor.version.text), ("Size", s!"{r.file.length} bytes"),
        ("Sealed", toString r.isSealed), ("Index", r.source.text),
        ("Series", toString r.series.length), ("Blocks", toString blockCount),
        ("Checksum", checksumText "none (unsealed)" checksum)] ++ whenTrue "Truncated" r.torn ++
        annotations.entries.map fun entry => ("@" ++ entry.1, entry.2)
    document := .table
      [("path", .text path), ("version", .text r.descriptor.version.text),
        ("size_bytes", .integer r.file.length), ("sealed", .bool r.isSealed),
        ("truncated", .bool r.torn), ("index_source", .text r.source.text),
        ("series_count", .integer r.series.length), ("block_count", .integer blockCount),
        ("checksum", checksum.document), ("annotations", annotations.document)] }

def specText (spec : Labels) : String :=
  String.intercalate ", " (spec.entries.map fun entry => entry.1 ++ "=" ++ entry.2)

def seriesListing (r : Reader) : Listing :=
  { columns :=
      [("series_index", "Index"), ("hash", "Hash"), ("series_type", "Type"), ("spec", "Spec"),
        ("kind", "Kind"), ("blocks", "Blocks"), ("first_timestamp_nsec", "First"),
        ("last_timestamp_nsec", "Last")]
    rows := r.series.map fun s =>
      let time (t : Option Int64) : Document := (t.map fun t => Document.integer t.toInt).getD .null
      let d := s.descriptor
      [.integer d.index.toNat, .text (seriesHashText d.idHash), .text d.id.type,
        .text (specText d.id.spec), .text d.kind.describe, .integer s.entries.size,
        time (s.timeSpan?.map (·.1)), time (s.timeSpan?.map (·.2))] }

def descriptorText : Descriptor → String
  | .file d => "file format v" ++ d.version.text
  | .series d => s!"series {d.index.toNat} {d.id.display}"
  | .index d => s!"file index: {d.series.length} series, {d.blockCount} blocks"

def itemTexts : ScanItem → String × Nat × String
  | .block _ size (.descriptor d) => ("descriptor", size, descriptorText d)
  | .block _ size (.data d _) =>
    ("data", size,
      s!"series {d.series.toNat} #{d.position.toNat} t={d.timestamp.toInt}")
  | .block _ size (.reserved code) => (s!"reserved(0x{hexPadded 2 code.toNat})", size, "skipped")
  | .block _ size (.undecodable reason) => ("descriptor", size, "undecodable: " ++ reason.message)
  | .trailer _ t =>
    ("end", trailerDeclaredSize, s!"index offset {t.indexOffset.toNat}, sha1 {t.checksum.hex}")

def blockListing (items : List ScanItem) : Listing :=
  { columns := [("offset", "Offset"), ("block_type", "Type"), ("size", "Size"), ("detail", "Detail")]
    rows := items.map fun item =>
      let (type, size, detail) := itemTexts item
      [.integer item.offset, .text type, .integer size, .text detail] }

def recordListing (limit : Option Nat) (records : List DataRecord) : Listing :=
  { columns :=
      [("timestamp_nsec", "Timestamp"), ("index_in_series", "#"), ("index_values", "Indexes"),
        ("file_offset", "Offset"), ("size", "Bytes"), ("payload", "Payload")]
    rows := records.map fun r =>
      [.integer r.timestamp.toInt, .integer r.position.toNat,
        .text (String.intercalate "," (r.indexValues.map fun v => toString v.toInt)),
        .integer r.offset.toNat, .integer r.payload.length,
        .text (payloadPreview limit r.payload)] }

structure Verification where
  path : String
  checksum : ChecksumStatus
  source : IndexSource
  blocksChecked : Nat
  indexError : Option LogError
  torn : Bool
  deriving DecidableEq

namespace Verification

def ofReader (path : String) (r : Reader) : Verification :=
  let index := r.verifyIndex
  { path
    checksum := r.verifyChecksum
    source := r.source
    blocksChecked := index.toOption.getD 0
    indexError :=
      match index with
      | .ok _ => none
      | .error e => some e
    torn := r.torn }

/-- Whether nothing is wrong; a file without a checksum may be in order. -/
def passes (v : Verification) : Bool :=
  (match v.checksum with
    | .mismatch _ _ => false
    | _ => true) && v.indexError.isNone && !v.torn

def details (v : Verification) : Details :=
  { facts :=
      [("File", v.path), ("Checksum", checksumText "not present (unsealed)" v.checksum),
        ("Index", v.source.text), ("Blocks checked", toString v.blocksChecked)] ++
        (v.indexError.map fun e => ("Index error", e.message)).toList ++
        whenTrue "Truncated" v.torn
    document := .table
      [("path", .text v.path), ("checksum", v.checksum.document),
        ("index_source", v.source.document), ("blocks_checked", .integer v.blocksChecked),
        ("index_error", (v.indexError.map fun e => Document.text e.message).getD .null),
        ("truncated", .bool v.torn)] }

end Verification

def repairDetails (r : RepairReport) : Details :=
  { facts :=
      [("Series", toString r.seriesCount), ("Blocks copied", toString r.blocksCopied),
        ("Blocks dropped", toString r.blocksDropped),
        ("Reserved skipped", toString r.reservedSkipped),
        ("Undecodable skipped", toString r.undecodableSkipped),
        ("Source had index", toString r.sourceHadIndex),
        ("Source sealed", toString r.sourceSealed), ("Truncated tail", toString r.tornTail),
        ("Index offset", toString r.indexOffset), ("Bytes written", toString r.bytesWritten)]
    document := r.document }

def hashDetails (id : SeriesId) : Details :=
  { facts :=
      [("Series", id.display), ("Hash", seriesHashText id.hash),
        ("Decimal", toString id.hash.toNat)]
    document := .table
      [("identifier", id.document), ("hash", .text (seriesHashText id.hash)),
        ("hash_decimal", .integer id.hash.toNat)] }

end SeriesLog.Cli
