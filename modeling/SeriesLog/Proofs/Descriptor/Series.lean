import SeriesLog.Descriptor.Codec
import SeriesLog.Proofs.Wire.Message

/-! # Series descriptors read back

The message of a series descriptor is merged into the record it was written from, and the record
of a valid descriptor passes the checks. -/
namespace SeriesLog

open Wire

namespace SeriesId

def wireFields (id : SeriesId) : List Field :=
  bodyFields 1 (utf8 id.type) ++ id.spec.entries.map (labelAsField 2)

theorem encode_eq (id : SeriesId) : id.encode = id.wireFields.flatMap Field.encode := by
  simp only [encode, wireFields, delimitedFieldUnlessEmpty_eq, labelFields_eq, List.flatMap_append]

theorem plain_wireFields (id : SeriesId) : ∀ f ∈ id.wireFields, f.Plain (entriesIn 2) := by
  intro f hf
  rcases List.mem_append.1 hf with hf | hf
  · exact plain_bodyFields (by decide) (by decide) f hf
  · exact plain_labels id.spec (by decide) (by decide) f hf

theorem merge_encode {id : SeriesId} (limit : Nat) (h : id.encode.length < 2 ^ 64) :
    merge limit ⟨"", .empty⟩ id.encode = some id := by
  rw [encode_eq] at h ⊢
  have hspec : ((id.spec.entries.map (labelAsField 2)).flatMap Field.encode).length < 2 ^ 64 := by
    simp only [wireFields, List.flatMap_append, List.length_append] at h
    omega
  have htype : (bodyFields 1 (utf8 id.type)).foldlM (mergeField (limit - 1)) ⟨"", .empty⟩ =
      some ⟨id.type, .empty⟩ := by
    apply foldlM_bodyFields
    · simp [mergeField, text?_utf8]
    · intro h
      rw [utf8_eq_nil h]
  rw [merge, mergeFields_flatMap id.plain_wireFields h, wireFields, foldlM_append htype]
  exact foldlM_labels (limit - 1) (mergeField (limit - 1)) (fun spec => SeriesId.mk id.type spec)
    hspec
    fun _ _ => rfl

end SeriesId

namespace MessageType

def wireFields (m : MessageType) : List Field :=
  bodyFields 1 (utf8 m.contentType) ++ bodyFields 2 (utf8 m.typeName) ++
    numberFields 3 m.isMetadata.toNat

theorem encode_eq (m : MessageType) : m.encode = m.wireFields.flatMap Field.encode := by
  simp only [encode, wireFields, delimitedFieldUnlessEmpty_eq, varintFieldUnlessZero_eq,
    List.flatMap_append]

theorem plain_wireFields (m : MessageType) : ∀ f ∈ m.wireFields, f.Plain noEntries := by
  have hbool : m.isMetadata.toNat < 2 ^ 64 := by cases m.isMetadata <;> decide
  intro f hf
  simp only [wireFields, List.mem_append] at hf
  rcases hf with (hf | hf) | hf
  · exact plain_bodyFields (by decide) (by decide) f hf
  · exact plain_bodyFields (by decide) (by decide) f hf
  · exact plain_numberFields (by decide) (by decide) hbool rfl f hf

theorem merge_encode {m : MessageType} (limit : Nat) (h : m.encode.length < 2 ^ 64) :
    mergeFields noEntries mergeField limit ⟨"", "", false⟩ m.encode = some m := by
  rw [encode_eq] at h ⊢
  have hcontent : (bodyFields 1 (utf8 m.contentType)).foldlM (mergeField (limit - 1))
      ⟨"", "", false⟩ = some ⟨m.contentType, "", false⟩ := by
    apply foldlM_bodyFields
    · simp [mergeField, text?_utf8]
    · intro h
      rw [utf8_eq_nil h]
  have hname : (bodyFields 2 (utf8 m.typeName)).foldlM (mergeField (limit - 1))
      ⟨m.contentType, "", false⟩ = some ⟨m.contentType, m.typeName, false⟩ := by
    apply foldlM_bodyFields
    · simp [mergeField, text?_utf8]
    · intro h
      rw [utf8_eq_nil h]
  rw [mergeFields_flatMap m.plain_wireFields h, wireFields, List.append_assoc,
    foldlM_append hcontent, foldlM_append hname]
  obtain ⟨content, name, metadata⟩ := m
  cases metadata <;> rfl

end MessageType

namespace Pod.Shape

def wireFields (s : Shape) : List Field :=
  ⟨1, .varint s.element.code⟩ :: bodyFields 2 ((s.dimensions.map UInt32.toNat).flatMap varint)

def record (s : Shape) : ShapeRecord := ⟨Int32.ofNat s.element.code, s.dimensions⟩

theorem encode_eq (s : Shape) : s.encode = s.wireFields.flatMap Field.encode := by
  simp only [encode, wireFields, packedField, delimitedFieldUnlessEmpty_eq, List.flatMap_cons,
    Field.encode]

theorem plain_wireFields (s : Shape) : ∀ f ∈ s.wireFields, f.Plain noEntries := by
  have hcode : s.element.code < 2 ^ 64 := by cases s.element <;> decide
  intro f hf
  rcases List.mem_cons.1 hf with rfl | hf
  · exact .varint (by decide) (by decide) hcode rfl
  · exact plain_bodyFields (by decide) (by decide) f hf

theorem map_toNat (dimensions : List UInt32) :
    (dimensions.map UInt32.toNat).map UInt32.ofNat = dimensions := by
  rw [List.map_map]
  calc dimensions.map (UInt32.ofNat ∘ UInt32.toNat)
      = dimensions.map id := List.map_congr_left fun d _ => UInt32.ofNat_toNat
    _ = dimensions := List.map_id dimensions

theorem merge_encode {s : Shape} (limit : Nat) (h : s.encode.length < 2 ^ 64) :
    mergeFields noEntries ShapeRecord.mergeField limit .empty s.encode = some s.record := by
  rw [encode_eq] at h ⊢
  have hbound : ∀ n ∈ s.dimensions.map UInt32.toNat, n < 2 ^ 64 := by
    intro n hn
    obtain ⟨d, _, rfl⟩ := List.mem_map.1 hn
    have := d.toNat_lt
    omega
  have helement : ShapeRecord.mergeField (limit - 1) .empty ⟨1, .varint s.element.code⟩ =
      some ⟨Int32.ofNat s.element.code, []⟩ := by
    cases s.element <;> rfl
  rw [mergeFields_flatMap s.plain_wireFields h, wireFields, List.foldlM_cons, helement]
  apply foldlM_bodyFields
  · simp only [ShapeRecord.mergeField, numbers?_packed hbound, Option.map_some, map_toNat,
      List.nil_append, record]
  · intro h
    have : s.dimensions = [] := List.map_eq_nil_iff.1 (flatMap_varint_eq_nil h)
    simp [record, this]

theorem check_record {s : Shape} (h : s.sampleSize.isSome) : s.record.check = .ok s := by
  have hcode : Element.ofCode? (Int32.ofNat s.element.code).toInt.toNat = some s.element := by
    cases s.element <;> rfl
  simp only [record, ShapeRecord.check, hcode]
  obtain ⟨size, hsize⟩ := Option.isSome_iff_exists.1 h
  simp [hsize]

end Pod.Shape

namespace SeriesKind

/-- A kind whose samples, if it has any, have a size. -/
def Bounded : SeriesKind → Prop
  | pod shape => shape.sampleSize.isSome
  | _ => True

def wireFields : SeriesKind → List Field
  | untyped => []
  | message type => [⟨4, .delimited type.encode⟩]
  | pod shape => [⟨5, .delimited shape.encode⟩]

def record : SeriesKind → Option ContentRecord
  | untyped => none
  | message type => some (.message type)
  | pod shape => some (.pod shape.record)

theorem encode_eq (k : SeriesKind) : k.encode = k.wireFields.flatMap Field.encode := by
  cases k <;> simp [encode, wireFields, Field.encode]

theorem check_record {k : SeriesKind} (h : k.Bounded) : ContentRecord.check k.record = .ok k := by
  cases k with
  | untyped => rfl
  | message type => rfl
  | pod shape =>
    simp only [record, ContentRecord.check, Pod.Shape.check_record h]
    rfl

end SeriesKind

namespace SeriesDescriptor

/-- A descriptor that passes the checks of a reader. -/
structure Valid (d : SeriesDescriptor) : Prop where
  typed : d.id.type ≠ ""
  hashed : d.idHash = d.id.hash
  bounded : d.kind.Bounded

def wireFields (d : SeriesDescriptor) : List Field :=
  numberFields 1 d.index.toNat ++ (⟨2, .delimited d.id.encode⟩ ::
    (numberFields 3 d.idHash.toNat ++ d.kind.wireFields ++
      d.annotations.entries.map (labelAsField 9) ++
      d.indexNames.map fun name => ⟨10, .delimited (utf8 name)⟩))

def record (d : SeriesDescriptor) : SeriesRecord :=
  ⟨d.index, some d.id, d.idHash, d.kind.record, d.annotations, d.indexNames⟩

theorem encode_eq (d : SeriesDescriptor) : d.encode = d.wireFields.flatMap Field.encode := by
  simp only [encode, wireFields, varintFieldUnlessZero_eq, labelFields_eq, SeriesKind.encode_eq,
    List.flatMap_append, List.flatMap_cons, List.flatMap_map, Field.encode, List.append_assoc]

theorem plain_wireFields (d : SeriesDescriptor) : ∀ f ∈ d.wireFields, f.Plain (entriesIn 9) := by
  have hindex := d.index.toNat_lt
  have hhash := d.idHash.toNat_lt
  intro f hf
  simp only [wireFields, List.mem_append, List.mem_cons] at hf
  rcases hf with hf | rfl | ((hf | hf) | hf) | hf
  · exact plain_numberFields (by decide) (by decide) (by omega) rfl f hf
  · exact .delimited (by decide) (by decide)
  · exact plain_numberFields (by decide) (by decide) hhash rfl f hf
  · cases hk : d.kind with
    | untyped => simp [hk, SeriesKind.wireFields] at hf
    | message type =>
      rw [hk, SeriesKind.wireFields, List.mem_singleton] at hf
      exact hf ▸ .delimited (by decide) (by decide)
    | pod shape =>
      rw [hk, SeriesKind.wireFields, List.mem_singleton] at hf
      exact hf ▸ .delimited (by decide) (by decide)
  · exact plain_labels d.annotations (by decide) (by decide) f hf
  · obtain ⟨name, _, rfl⟩ := List.mem_map.1 hf
    exact .delimited (by decide) (by decide)

theorem foldlM_kind {d : SeriesDescriptor} (limit : Nat)
    (hlen : (d.wireFields.flatMap Field.encode).length < 2 ^ 64) :
    d.kind.wireFields.foldlM (SeriesRecord.mergeField limit)
      ⟨d.index, some d.id, d.idHash, none, .empty, []⟩ =
      some ⟨d.index, some d.id, d.idHash, d.kind.record, .empty, []⟩ := by
  have hmem : ∀ f ∈ d.kind.wireFields, f ∈ d.wireFields := by
    intro f hf
    simp [wireFields, hf]
  cases hk : d.kind with
  | untyped => rfl
  | message type =>
    have hbody := length_body_le_of_mem (hmem ⟨4, .delimited type.encode⟩ (by
      simp [hk, SeriesKind.wireFields]))
    have hmerge := MessageType.merge_encode (m := type) limit (Nat.lt_of_le_of_lt hbody hlen)
    simp only [SeriesKind.wireFields, List.foldlM_cons, List.foldlM_nil, SeriesRecord.mergeField,
      Value.body?, Option.bind_some, ContentRecord.messageSoFar, hmerge, Option.map_some,
      SeriesKind.record]
    rfl
  | pod shape =>
    have hbody := length_body_le_of_mem (hmem ⟨5, .delimited shape.encode⟩ (by
      simp [hk, SeriesKind.wireFields]))
    have hmerge := Pod.Shape.merge_encode (s := shape) limit (Nat.lt_of_le_of_lt hbody hlen)
    simp only [SeriesKind.wireFields, List.foldlM_cons, List.foldlM_nil, SeriesRecord.mergeField,
      Value.body?, Option.bind_some, ContentRecord.shapeSoFar, hmerge, Option.map_some,
      SeriesKind.record]
    rfl

theorem merge_encode {d : SeriesDescriptor} (limit : Nat) (h : d.encode.length < 2 ^ 64) :
    SeriesRecord.merge limit .empty d.encode = some d.record := by
  rw [encode_eq] at h ⊢
  have hlabels : ((d.annotations.entries.map (labelAsField 9)).flatMap Field.encode).length <
      2 ^ 64 := by
    simp only [wireFields, List.flatMap_append, List.flatMap_cons, List.length_append] at h
    omega
  have hbody : d.id.encode.length < 2 ^ 64 := by
    have hmem : (⟨2, .delimited d.id.encode⟩ : Field) ∈ d.wireFields := by simp [wireFields]
    exact Nat.lt_of_le_of_lt (length_body_le_of_mem hmem) h
  have hindex : (numberFields 1 d.index.toNat).foldlM (SeriesRecord.mergeField (limit - 1)) .empty =
      some ⟨d.index, none, 0, none, .empty, []⟩ := by
    apply foldlM_numberFields
    · simp [SeriesRecord.mergeField, Value.number?, SeriesRecord.empty]
    · intro h
      have : d.index = 0 := UInt32.toNat_inj.1 h
      rw [this]
      rfl
  have hid : SeriesRecord.mergeField (limit - 1) ⟨d.index, none, 0, none, .empty, []⟩
      ⟨2, .delimited d.id.encode⟩ = some ⟨d.index, some d.id, 0, none, .empty, []⟩ := by
    simp [SeriesRecord.mergeField, Value.body?, SeriesId.merge_encode (limit - 1) hbody]
  have hhash : (numberFields 3 d.idHash.toNat).foldlM (SeriesRecord.mergeField (limit - 1))
      ⟨d.index, some d.id, 0, none, .empty, []⟩ =
      some ⟨d.index, some d.id, d.idHash, none, .empty, []⟩ := by
    apply foldlM_numberFields
    · simp [SeriesRecord.mergeField, Value.number?]
    · intro h
      have : d.idHash = 0 := UInt64.toNat_inj.1 h
      rw [this]
  have hname : ∀ names, ∀ name ∈ d.indexNames, SeriesRecord.mergeField (limit - 1)
      ⟨d.index, some d.id, d.idHash, d.kind.record, d.annotations, names⟩
      ⟨10, .delimited (utf8 name)⟩ =
      some ⟨d.index, some d.id, d.idHash, d.kind.record, d.annotations, names ++ [name]⟩ := by
    intro names name _
    simp [SeriesRecord.mergeField, text?_utf8]
  have hannotations := foldlM_labels (limit - 1) (SeriesRecord.mergeField (limit - 1))
    (fun a => ⟨d.index, some d.id, d.idHash, d.kind.record, a, []⟩) hlabels fun _ _ => rfl
  rw [SeriesRecord.merge, mergeFields_flatMap d.plain_wireFields h, wireFields,
    foldlM_append hindex, List.foldlM_cons, hid]
  simp only [Option.bind_eq_bind, Option.bind_some, List.append_assoc]
  rw [foldlM_append hhash, foldlM_append (foldlM_kind (limit - 1) h), foldlM_append hannotations]
  have hnames := foldlM_repeated (SeriesRecord.mergeField (limit - 1))
    (fun name => ⟨10, .delimited (utf8 name)⟩)
    (fun names => ⟨d.index, some d.id, d.idHash, d.kind.record, d.annotations, names⟩)
    (fun names name => names ++ [name]) [] hname
  rw [foldl_snoc, List.nil_append] at hnames
  exact hnames

theorem check_record {d : SeriesDescriptor} (h : d.Valid) : d.record.check = .ok d := by
  simp only [record, SeriesRecord.check, if_neg h.typed, SeriesKind.check_record h.bounded,
    Except.map, make, ← h.hashed]

end SeriesDescriptor

end SeriesLog
