import SeriesLog.Proofs.Descriptor.Series

/-! # Descriptors read back

The body of a descriptor block decodes to the descriptor it was written for, provided that the
descriptor is valid: of the version that is written, with valid series, and, for an index, with
the series in the order of their numbers. -/
namespace SeriesLog

open Wire

namespace Version

def wireFields (v : Version) : List Field :=
  numberFields 1 v.major.toNat ++ numberFields 2 v.minor.toNat ++ numberFields 3 v.patch.toNat

theorem encode_eq (v : Version) : v.encode = v.wireFields.flatMap Field.encode := by
  simp only [encode, wireFields, varintFieldUnlessZero_eq, List.flatMap_append]

theorem plain_wireFields (v : Version) : ∀ f ∈ v.wireFields, f.Plain noEntries := by
  have hmajor := v.major.toNat_lt
  have hminor := v.minor.toNat_lt
  have hpatch := v.patch.toNat_lt
  intro f hf
  simp only [wireFields, List.mem_append] at hf
  rcases hf with (hf | hf) | hf
  · exact plain_numberFields (by decide) (by decide) (by omega) rfl f hf
  · exact plain_numberFields (by decide) (by decide) (by omega) rfl f hf
  · exact plain_numberFields (by decide) (by decide) (by omega) rfl f hf

theorem merge_encode {v : Version} (limit : Nat) (h : v.encode.length < 2 ^ 64) :
    mergeFields noEntries mergeField limit ⟨0, 0, 0⟩ v.encode = some v := by
  rw [encode_eq] at h ⊢
  have hmajor : (numberFields 1 v.major.toNat).foldlM (mergeField (limit - 1)) ⟨0, 0, 0⟩ =
      some ⟨v.major, 0, 0⟩ := by
    apply foldlM_numberFields
    · simp [mergeField, Value.number?]
    · intro h
      have : v.major = 0 := UInt32.toNat_inj.1 h
      rw [this]
  have hminor : (numberFields 2 v.minor.toNat).foldlM (mergeField (limit - 1)) ⟨v.major, 0, 0⟩ =
      some ⟨v.major, v.minor, 0⟩ := by
    apply foldlM_numberFields
    · simp [mergeField, Value.number?]
    · intro h
      have : v.minor = 0 := UInt32.toNat_inj.1 h
      rw [this]
  rw [mergeFields_flatMap v.plain_wireFields h, wireFields, List.append_assoc, foldlM_append hmajor,
    foldlM_append hminor]
  apply foldlM_numberFields
  · simp [mergeField, Value.number?]
  · intro h
    have : v.patch = 0 := UInt32.toNat_inj.1 h
    rw [← this]

end Version

namespace FileDescriptor

def wireFields (d : FileDescriptor) : List Field :=
  ⟨1, .delimited d.version.encode⟩ ::
    (d.annotations.entries.map (labelAsField 2) ++
      [⟨3, .varint sha1Kind⟩, ⟨4, .varint checksumSize⟩])

def record (d : FileDescriptor) : FileRecord :=
  ⟨some d.version, d.annotations, Int32.ofNat sha1Kind, UInt32.ofNat checksumSize⟩

theorem encode_eq (d : FileDescriptor) : d.encode = d.wireFields.flatMap Field.encode := by
  simp only [encode, wireFields, labelFields_eq, List.flatMap_append, List.flatMap_cons,
    List.flatMap_nil, List.append_nil, Field.encode, List.append_assoc]

theorem plain_wireFields (d : FileDescriptor) : ∀ f ∈ d.wireFields, f.Plain (entriesIn 2) := by
  intro f hf
  simp only [wireFields, List.mem_cons, List.mem_append, List.not_mem_nil, or_false] at hf
  rcases hf with rfl | hf | rfl | rfl
  · exact .delimited (by decide) (by decide)
  · exact plain_labels d.annotations (by decide) (by decide) f hf
  · exact .varint (by decide) (by decide) (by decide) rfl
  · exact .varint (by decide) (by decide) (by decide) rfl

theorem merge_encode {d : FileDescriptor} (limit : Nat) (h : d.encode.length < 2 ^ 64) :
    mergeFields (entriesIn 2) FileRecord.mergeField limit .empty d.encode = some d.record := by
  rw [encode_eq] at h ⊢
  have hlabels : ((d.annotations.entries.map (labelAsField 2)).flatMap Field.encode).length <
      2 ^ 64 := by
    simp only [wireFields, List.flatMap_append, List.flatMap_cons, List.length_append] at h
    omega
  have hbody : d.version.encode.length < 2 ^ 64 := by
    have hmem : (⟨1, .delimited d.version.encode⟩ : Field) ∈ d.wireFields := by simp [wireFields]
    exact Nat.lt_of_le_of_lt (length_body_le_of_mem hmem) h
  have hversion : FileRecord.mergeField (limit - 1) .empty ⟨1, .delimited d.version.encode⟩ =
      some ⟨some d.version, .empty, 0, 0⟩ := by
    simp [FileRecord.mergeField, Value.body?, FileRecord.empty,
      Version.merge_encode (limit - 1) hbody]
  have hannotations := foldlM_labels (limit - 1) (FileRecord.mergeField (limit - 1))
    (fun a => FileRecord.mk (some d.version) a 0 0) hlabels fun _ _ => rfl
  rw [mergeFields_flatMap d.plain_wireFields h, wireFields, List.foldlM_cons, hversion]
  simp only [Option.bind_eq_bind, Option.bind_some]
  rw [foldlM_append hannotations]
  rfl

theorem check_record {d : FileDescriptor} (h : d.version.major = Version.current.major) :
    d.record.check = .ok d := by
  have hkind : (Int32.ofNat sha1Kind).toInt = sha1Kind ∧
      (UInt32.ofNat checksumSize).toNat = checksumSize := by decide
  simp [record, FileRecord.check, h, hkind]

end FileDescriptor

namespace IndexEntry

def wireFields (e : IndexEntry) : List Field :=
  numberFields 1 e.timestamp.toUInt64.toNat ++ numberFields 2 e.offset.toNat

theorem encode_eq (e : IndexEntry) : e.encode = e.wireFields.flatMap Field.encode := by
  simp only [encode, wireFields, varintFieldUnlessZero_eq, List.flatMap_append]

theorem plain_wireFields (e : IndexEntry) : ∀ f ∈ e.wireFields, f.Plain noEntries := by
  have htime := e.timestamp.toUInt64.toNat_lt
  have hoffset := e.offset.toNat_lt
  intro f hf
  rcases List.mem_append.1 hf with hf | hf
  · exact plain_numberFields (by decide) (by decide) htime rfl f hf
  · exact plain_numberFields (by decide) (by decide) hoffset rfl f hf

theorem merge_encode {e : IndexEntry} (limit : Nat) (h : e.encode.length < 2 ^ 64) :
    mergeFields noEntries mergeField limit ⟨0, 0⟩ e.encode = some e := by
  rw [encode_eq] at h ⊢
  have hvalue : (UInt64.ofNat e.timestamp.toUInt64.toNat).toInt64 = e.timestamp := by
    rw [UInt64.ofNat_toNat]
    exact Int64.toInt64_toUInt64 e.timestamp
  have htime : (numberFields 1 e.timestamp.toUInt64.toNat).foldlM (mergeField (limit - 1)) ⟨0, 0⟩ =
      some ⟨e.timestamp, 0⟩ := by
    apply foldlM_numberFields
    · simp only [mergeField, Value.number?, Option.map_some, hvalue]
    · intro h
      rw [h] at hvalue
      rw [← hvalue]
      rfl
  rw [mergeFields_flatMap e.plain_wireFields h, wireFields, foldlM_append htime]
  apply foldlM_numberFields
  · simp [mergeField, Value.number?]
  · intro h
    have : e.offset = 0 := UInt64.toNat_inj.1 h
    rw [← this]

end IndexEntry

namespace SeriesIndex

def wireFields (s : SeriesIndex) : List Field :=
  ⟨1, .delimited s.descriptor.encode⟩ :: s.entries.map fun e => ⟨2, .delimited e.encode⟩

def record (s : SeriesIndex) : SeriesIndexRecord := ⟨some s.descriptor.record, s.entries⟩

theorem encode_eq (s : SeriesIndex) : s.encode = s.wireFields.flatMap Field.encode := by
  simp only [encode, wireFields, List.flatMap_cons, List.flatMap_map, Field.encode]

theorem plain_wireFields (s : SeriesIndex) : ∀ f ∈ s.wireFields, f.Plain noEntries := by
  intro f hf
  rcases List.mem_cons.1 hf with rfl | hf
  · exact .delimited (by decide) (by decide)
  · obtain ⟨e, _, rfl⟩ := List.mem_map.1 hf
    exact .delimited (by decide) (by decide)

theorem merge_encode {s : SeriesIndex} (limit : Nat) (h : s.encode.length < 2 ^ 64) :
    mergeFields noEntries SeriesIndexRecord.mergeField limit .empty s.encode = some s.record := by
  rw [encode_eq] at h ⊢
  have hbody : s.descriptor.encode.length < 2 ^ 64 := by
    have hmem : (⟨1, .delimited s.descriptor.encode⟩ : Field) ∈ s.wireFields := by simp [wireFields]
    exact Nat.lt_of_le_of_lt (length_body_le_of_mem hmem) h
  have hdescriptor : SeriesIndexRecord.mergeField (limit - 1) .empty
      ⟨1, .delimited s.descriptor.encode⟩ = some ⟨some s.descriptor.record, []⟩ := by
    simp [SeriesIndexRecord.mergeField, Value.body?, SeriesIndexRecord.empty,
      SeriesDescriptor.merge_encode (limit - 1) hbody]
  have hentry : ∀ es, ∀ e ∈ s.entries, SeriesIndexRecord.mergeField (limit - 1)
      ⟨some s.descriptor.record, es⟩ ⟨2, .delimited e.encode⟩ =
      some ⟨some s.descriptor.record, es ++ [e]⟩ := by
    intro es e he
    have hmem : (⟨2, .delimited e.encode⟩ : Field) ∈ s.wireFields := by
      simp only [wireFields, List.mem_cons, List.mem_map]
      exact .inr ⟨e, he, rfl⟩
    have hlen := Nat.lt_of_le_of_lt (length_body_le_of_mem hmem) h
    simp [SeriesIndexRecord.mergeField, Value.body?, IndexEntry.merge_encode (limit - 1) hlen]
  have hentries := foldlM_repeated (SeriesIndexRecord.mergeField (limit - 1))
    (fun e : IndexEntry => ⟨2, .delimited e.encode⟩)
    (fun es => SeriesIndexRecord.mk (some s.descriptor.record) es)
    (fun es e => es ++ [e]) [] hentry
  rw [foldl_snoc, List.nil_append] at hentries
  rw [mergeFields_flatMap s.plain_wireFields h, wireFields, List.foldlM_cons, hdescriptor]
  exact hentries

end SeriesIndex

namespace FileIndex

/-- An index whose series are valid and stand at the positions of their numbers. -/
structure Valid (index : FileIndex) : Prop where
  series : ∀ s ∈ index.series, s.descriptor.Valid
  numbered : ∀ (i : Nat) (s : SeriesIndex), index.series[i]? = some s →
    s.descriptor.index.toNat = i

def wireFields (index : FileIndex) : List Field :=
  index.series.map fun s => ⟨1, .delimited s.encode⟩

theorem encode_eq (index : FileIndex) : index.encode = index.wireFields.flatMap Field.encode := by
  simp only [encode, wireFields, List.flatMap_map, Field.encode]

theorem plain_wireFields (index : FileIndex) : ∀ f ∈ index.wireFields, f.Plain noEntries := by
  intro f hf
  obtain ⟨s, _, rfl⟩ := List.mem_map.1 hf
  exact .delimited (by decide) (by decide)

theorem merge_encode {index : FileIndex} (limit : Nat) (h : index.encode.length < 2 ^ 64) :
    mergeFields noEntries mergeIndexField limit [] index.encode =
      some (index.series.map SeriesIndex.record) := by
  rw [encode_eq] at h ⊢
  have hseries : ∀ rs, ∀ s ∈ index.series, mergeIndexField (limit - 1) rs ⟨1, .delimited s.encode⟩ =
      some (rs ++ [s.record]) := by
    intro rs s hs
    have hmem : (⟨1, .delimited s.encode⟩ : Field) ∈ index.wireFields := List.mem_map.2 ⟨s, hs, rfl⟩
    have hlen := Nat.lt_of_le_of_lt (length_body_le_of_mem hmem) h
    simp [mergeIndexField, Value.body?, SeriesIndex.merge_encode (limit - 1) hlen]
  have hall := foldlM_repeated (mergeIndexField (limit - 1))
    (fun s : SeriesIndex => ⟨1, .delimited s.encode⟩)
    (fun rs : List SeriesIndexRecord => rs)
    (fun rs s => rs ++ [s.record]) [] hseries
  have hsnoc : ∀ rs, index.series.foldl (fun rs s => rs ++ [s.record]) rs =
      rs ++ index.series.map SeriesIndex.record := by
    intro rs
    rw [← foldl_snoc, List.foldl_map]
  rw [hsnoc, List.nil_append] at hall
  rw [mergeFields_flatMap index.plain_wireFields h]
  exact hall

theorem check_records (position : Nat) {series : List SeriesIndex}
    (hvalid : ∀ s ∈ series, s.descriptor.Valid)
    (hnumbered : ∀ i s, series[i]? = some s → s.descriptor.index.toNat = position + i) :
    checkSeriesIndexes position (series.map SeriesIndex.record) = .ok series := by
  induction series generalizing position with
  | nil => rfl
  | cons s series ih =>
    have hcheck := SeriesDescriptor.check_record (hvalid s List.mem_cons_self)
    have hindex : s.descriptor.index.toNat = position := hnumbered 0 s rfl
    have hrest := ih (position + 1) (fun t ht => hvalid t (List.mem_cons_of_mem s ht))
      fun i t ht => by
        rw [hnumbered (i + 1) t (by simpa using ht)]
        omega
    simp only [List.map_cons, checkSeriesIndexes, SeriesIndex.record] at hrest ⊢
    simp [hcheck, hindex, hrest, Except.map]

end FileIndex

namespace Descriptor

/-- A descriptor that passes the checks of a reader. -/
def Valid : Descriptor → Prop
  | file d => d.version.major = Version.current.major
  | series d => d.Valid
  | index d => d.Valid

def field : Descriptor → Field
  | file d => ⟨1, .delimited d.encode⟩
  | series d => ⟨2, .delimited d.encode⟩
  | index d => ⟨4, .delimited d.encode⟩

theorem encode_eq (d : Descriptor) : d.encode = [d.field].flatMap Field.encode := by
  cases d <;> simp [encode, field, Field.encode]

theorem plain_field (d : Descriptor) : ∀ f ∈ [d.field], f.Plain noEntries := by
  intro f hf
  rw [List.mem_singleton.1 hf]
  cases d with
  | file _ => exact .delimited (by decide) (by decide)
  | series _ => exact .delimited (by decide) (by decide)
  | index _ => exact .delimited (by decide) (by decide)

def record : Descriptor → DescriptorRecord
  | file d => .file d.record
  | series d => .series d.record
  | index d => .index (d.series.map SeriesIndex.record)

theorem read_encode {d : Descriptor} (h : d.encode.length < 2 ^ 64) :
    DescriptorRecord.read d.encode = some (some d.record) := by
  rw [encode_eq] at h ⊢
  rw [DescriptorRecord.read, mergeFields_flatMap d.plain_field h]
  have hbody : ∀ number body, d.field = ⟨number, .delimited body⟩ → body.length < 2 ^ 64 := by
    intro number body hfield
    exact Nat.lt_of_le_of_lt (length_body_le_of_mem (List.mem_singleton.2 hfield.symm)) h
  cases d with
  | file d =>
    have hmerge := FileDescriptor.merge_encode (d := d) (depthLimit - 1) (hbody 1 d.encode rfl)
    simp [field, DescriptorRecord.mergeField, Value.body?, DescriptorRecord.fileSoFar, hmerge,
      record]
  | series d =>
    have hmerge := SeriesDescriptor.merge_encode (d := d) (depthLimit - 1) (hbody 2 d.encode rfl)
    simp [field, DescriptorRecord.mergeField, Value.body?, DescriptorRecord.seriesSoFar, hmerge,
      record]
  | index d =>
    have hmerge := FileIndex.merge_encode (depthLimit - 1) (hbody 4 d.encode rfl)
    simp [field, DescriptorRecord.mergeField, Value.body?, DescriptorRecord.indexSoFar, hmerge,
      record]

theorem check_record {d : Descriptor} (h : d.Valid) : d.record.check = .ok d := by
  cases d with
  | file d => simp [record, DescriptorRecord.check, FileDescriptor.check_record h, Except.map]
  | series d => simp [record, DescriptorRecord.check, SeriesDescriptor.check_record h, Except.map]
  | index d =>
    have hcheck := FileIndex.check_records 0 h.series fun i s hs => by
      rw [h.numbered i s hs, Nat.zero_add]
    simp [record, DescriptorRecord.check, hcheck, Except.map]

theorem decode_encode {d : Descriptor} (hlen : d.encode.length < 2 ^ 64) (h : d.Valid) :
    decode d.encode = .ok d := by
  simp only [decode, read_encode hlen, check_record h]

end Descriptor

end SeriesLog
