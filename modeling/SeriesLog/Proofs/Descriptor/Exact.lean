import SeriesLog.Proofs.Descriptor.Decoded
import SeriesLog.Proofs.Wire.Lenient

/-! # The codec of descriptors, exactly

The descriptors that are read back as they were written are the valid ones, and no body, whoever
wrote it, decodes to another one. Bodies of other writers are read as the wire format says. -/
namespace SeriesLog

open Wire

theorem Wire.lenient_label : Lenient noEntries mergeLabelField [1, 2] [1, 2] := by
  apply lenient_of_sets
  · intro limit entry f hf
    unfold mergeLabelField
    split <;> simp_all
  · intro number hnumber
    simp only [List.mem_cons, List.not_mem_nil, or_false] at hnumber
    rcases hnumber with rfl | rfl
    case' inl => refine ⟨_, Value.text?, fun key entry => (key, entry.2), fun _ _ _ => rfl,
      fun _ _ _ => rfl, ?_⟩
    case' inr => refine ⟨_, Value.text?, fun value entry => (entry.1, value), fun _ _ _ => rfl,
      fun _ _ _ => rfl, ?_⟩
    all_goals
      rintro limit entry text ⟨number, value⟩ hnumber
      unfold mergeLabelField
      split <;> simp_all [Function.comp_def]

theorem Version.lenient : Lenient noEntries mergeField [1, 2, 3] [1, 2, 3] := by
  apply lenient_of_sets
  · intro limit v f hf
    unfold mergeField
    split <;> simp_all
  · intro number hnumber
    simp only [List.mem_cons, List.not_mem_nil, or_false] at hnumber
    rcases hnumber with rfl | rfl | rfl
    case' inl => refine ⟨_, Value.number?, fun n v => { v with major := UInt32.ofNat n },
      fun _ _ _ => rfl, fun _ _ _ => rfl, ?_⟩
    case' inr.inl => refine ⟨_, Value.number?, fun n v => { v with minor := UInt32.ofNat n },
      fun _ _ _ => rfl, fun _ _ _ => rfl, ?_⟩
    case' inr.inr => refine ⟨_, Value.number?, fun n v => { v with patch := UInt32.ofNat n },
      fun _ _ _ => rfl, fun _ _ _ => rfl, ?_⟩
    all_goals
      rintro limit v n ⟨number, value⟩ hnumber
      unfold mergeField
      split <;> simp_all [Function.comp_def]

theorem FileRecord.lenient : Lenient (entriesIn 2) mergeField [1, 2, 3, 4] [3, 4] := by
  apply lenient_of_sets
  · intro limit r f hf
    unfold mergeField
    split <;> simp_all
  · intro number hnumber
    simp only [List.mem_cons, List.not_mem_nil, or_false] at hnumber
    rcases hnumber with rfl | rfl
    case' inl => refine ⟨_, Value.number?,
      fun n r => { r with checksumKind := (UInt32.ofNat n).toInt32 }, fun _ _ _ => rfl,
      fun _ _ _ => rfl, ?_⟩
    case' inr => refine ⟨_, Value.number?, fun n r => { r with checksumBytes := UInt32.ofNat n },
      fun _ _ _ => rfl, fun _ _ _ => rfl, ?_⟩
    all_goals
      rintro limit r n ⟨number, value⟩ hnumber
      unfold mergeField
      split <;> simp_all [Function.comp_def, Option.map_bind]

theorem SeriesId.lenient : Lenient (entriesIn 2) mergeField [1, 2] [1] := by
  apply lenient_of_sets
  · intro limit id f hf
    unfold mergeField
    split <;> simp_all
  · intro number hnumber
    rw [List.mem_singleton.1 hnumber]
    refine ⟨_, Value.text?, fun type id => { id with type }, fun _ _ _ => rfl, fun _ _ _ => rfl, ?_⟩
    rintro limit id type ⟨number, value⟩ hnumber
    unfold mergeField
    split <;> simp_all [Function.comp_def]

theorem MessageType.lenient : Lenient noEntries mergeField [1, 2, 3] [1, 2, 3] := by
  apply lenient_of_sets
  · intro limit m f hf
    unfold mergeField
    split <;> simp_all
  · intro number hnumber
    simp only [List.mem_cons, List.not_mem_nil, or_false] at hnumber
    rcases hnumber with rfl | rfl | rfl
    case' inl => refine ⟨_, Value.text?, fun s m => { m with contentType := s }, fun _ _ _ => rfl,
      fun _ _ _ => rfl, ?_⟩
    case' inr.inl => refine ⟨_, Value.text?, fun s m => { m with typeName := s }, fun _ _ _ => rfl,
      fun _ _ _ => rfl, ?_⟩
    case' inr.inr => refine ⟨_, Value.number?, fun n m => { m with isMetadata := n != 0 },
      fun _ _ _ => rfl, fun _ _ _ => rfl, ?_⟩
    all_goals
      rintro limit m b ⟨number, value⟩ hnumber
      unfold mergeField
      split <;> simp_all [Function.comp_def]

theorem ShapeRecord.lenient : Lenient noEntries mergeField [1, 2] [1] := by
  apply lenient_of_sets
  · intro limit s f hf
    unfold mergeField
    split <;> simp_all
  · intro number hnumber
    rw [List.mem_singleton.1 hnumber]
    refine ⟨_, Value.number?, fun n s => { s with element := (UInt32.ofNat n).toInt32 },
      fun _ _ _ => rfl, fun _ _ _ => rfl, ?_⟩
    rintro limit s n ⟨number, value⟩ hnumber
    unfold mergeField
    split <;> simp_all [Function.comp_def]

theorem SeriesRecord.lenient : Lenient (entriesIn 9) mergeField [1, 2, 3, 4, 5, 9, 10] [1, 3] := by
  apply lenient_of_sets
  · intro limit r f hf
    unfold mergeField
    split <;> simp_all
  · intro number hnumber
    simp only [List.mem_cons, List.not_mem_nil, or_false] at hnumber
    rcases hnumber with rfl | rfl
    case' inl => refine ⟨_, Value.number?, fun n r => { r with index := UInt32.ofNat n },
      fun _ _ _ => rfl, fun _ _ _ => rfl, ?_⟩
    case' inr => refine ⟨_, Value.number?, fun n r => { r with idHash := UInt64.ofNat n },
      fun _ _ _ => rfl, fun _ _ _ => rfl, ?_⟩
    all_goals
      rintro limit r n ⟨number, value⟩ hnumber
      unfold mergeField
      split <;> simp_all [Function.comp_def, Option.map_bind]

theorem IndexEntry.lenient : Lenient noEntries mergeField [1, 2] [1, 2] := by
  apply lenient_of_sets
  · intro limit e f hf
    unfold mergeField
    split <;> simp_all
  · intro number hnumber
    simp only [List.mem_cons, List.not_mem_nil, or_false] at hnumber
    rcases hnumber with rfl | rfl
    case' inl => refine ⟨_, Value.number?,
      fun n e => { e with timestamp := (UInt64.ofNat n).toInt64 }, fun _ _ _ => rfl,
      fun _ _ _ => rfl, ?_⟩
    case' inr => refine ⟨_, Value.number?, fun n e => { e with offset := UInt64.ofNat n },
      fun _ _ _ => rfl, fun _ _ _ => rfl, ?_⟩
    all_goals
      rintro limit e n ⟨number, value⟩ hnumber
      unfold mergeField
      split <;> simp_all [Function.comp_def]

theorem SeriesIndexRecord.lenient : Lenient noEntries mergeField [1, 2] [] := by
  apply lenient_of_sets
  · intro limit r f hf
    unfold mergeField
    split <;> simp_all
  · intro number hnumber
    cases hnumber

theorem FileIndex.lenient : Lenient noEntries mergeIndexField [1] [] := by
  apply lenient_of_sets
  · intro limit r f hf
    unfold mergeIndexField
    split <;> simp_all
  · intro number hnumber
    cases hnumber

theorem DescriptorRecord.lenient : Lenient noEntries mergeField [1, 2, 4] [] := by
  apply lenient_of_sets
  · intro limit r f hf
    unfold mergeField
    split <;> simp_all
  · intro number hnumber
    cases hnumber

theorem ShapeRecord.appends : Appends mergeField 2 fun s ns =>
    { s with dimensions := s.dimensions ++ ns.map UInt32.ofNat } where
  value _ _ _ := rfl
  nil s := by simp
  append s ms ns := by simp

/-- What a reader accepts of writers that do not write as this one: in every message of a
descriptor, fields of unknown number and single values that are given again, and dimensions and
labels in any of their forms. -/
structure DescriptorRecord.Rules : Prop where
  descriptor : Lenient noEntries mergeField [1, 2, 4] []
  file : Lenient (entriesIn 2) FileRecord.mergeField [1, 2, 3, 4] [3, 4]
  version : Lenient noEntries Version.mergeField [1, 2, 3] [1, 2, 3]
  series : Lenient (entriesIn 9) SeriesRecord.mergeField [1, 2, 3, 4, 5, 9, 10] [1, 3]
  id : Lenient (entriesIn 2) SeriesId.mergeField [1, 2] [1]
  message : Lenient noEntries MessageType.mergeField [1, 2, 3] [1, 2, 3]
  shape : Lenient noEntries ShapeRecord.mergeField [1, 2] [1]
  index : Lenient noEntries mergeIndexField [1] []
  seriesIndex : Lenient noEntries SeriesIndexRecord.mergeField [1, 2] []
  entry : Lenient noEntries IndexEntry.mergeField [1, 2] [1, 2]
  label : Lenient noEntries mergeLabelField [1, 2] [1, 2]
  packed : ∀ {limit : Nat} {start : ShapeRecord} {body other : Bytes} {before after : List Field}
    {ns : List Nat}, (∀ n ∈ ns, n < 2 ^ 64) →
    fields? noEntries limit body =
      some (before ++ ⟨2, .delimited (ns.flatMap varint)⟩ :: after) →
    fields? noEntries limit other =
      some (before ++ ((ns.map fun n => ⟨2, .varint n⟩) ++ after)) →
    mergeFields noEntries ShapeRecord.mergeField limit start body =
      mergeFields noEntries ShapeRecord.mergeField limit start other
  labels : ∀ {limit : Nat} {key value : String} {keys values : List Field} {body : Bytes}
    (labels : Labels), TextFields 1 key keys → TextFields 2 value values →
    fields? noEntries limit body = some (keys ++ values) →
    mergeLabel limit labels (.delimited body) = some (labels.insert key value)

theorem DescriptorRecord.rules : Rules where
  descriptor := DescriptorRecord.lenient
  file := FileRecord.lenient
  version := Version.lenient
  series := SeriesRecord.lenient
  id := SeriesId.lenient
  message := MessageType.lenient
  shape := ShapeRecord.lenient
  index := FileIndex.lenient
  seriesIndex := SeriesIndexRecord.lenient
  entry := IndexEntry.lenient
  label := lenient_label
  packed := ShapeRecord.appends.mergeFields_packed
  labels := mergeLabel_of_textFields

namespace Descriptor

theorem decode_encode_iff {d : Descriptor} (hlen : d.encode.length < 2 ^ 64) :
    decode d.encode = .ok d ↔ d.Valid :=
  ⟨valid_of_decode, decode_encode hlen⟩

/-- A descriptor is read back from its body exactly if it is valid. Whatever decodes, from a body
of any writer, is valid, and its own body decodes to it again. Lengths are numbers of 64 bits, so
the bodies compared here are shorter than that. -/
theorem codec_exact :
    (∀ d : Descriptor, d.encode.length < 2 ^ 64 → (decode d.encode = .ok d ↔ d.Valid)) ∧
      (∀ (body : Bytes) (d : Descriptor), decode body = .ok d →
        d.Valid ∧ (d.encode.length < 2 ^ 64 → decode d.encode = .ok d)) ∧
      DescriptorRecord.Rules := by
  refine ⟨fun d hlen => decode_encode_iff hlen, ?_, DescriptorRecord.rules⟩
  intro body d hdecode
  -- the body need not be the one that is written for it, so only the checks tell what it is
  have hvalid := valid_of_decode hdecode
  exact ⟨hvalid, fun hlen => decode_encode hlen hvalid⟩

def unnamed : Descriptor :=
  .index ⟨[⟨.make 0 ⟨"a", Labels.empty.insert "unit" ""⟩ (.message ⟨"", "", false⟩) ["", "x"]
    (Labels.empty.insert "" ""), [⟨-1, 7⟩, ⟨0, 0⟩]⟩]⟩

theorem codec_exact_unnamed :
    unnamed.encode.length < 2 ^ 64 ∧ decode unnamed.encode = .ok unnamed := by
  have hlen : unnamed.encode.length < 2 ^ 64 := by decide +kernel
  refine ⟨hlen, (codec_exact.1 unnamed hlen).2 ⟨?_, ?_⟩⟩
  · intro s hs
    rw [List.mem_singleton.1 hs]
    exact ⟨by decide, rfl, trivial⟩
  · intro i s hs
    cases i with
    | zero =>
      cases hs
      rfl
    | succ i => cases hs

end Descriptor

end SeriesLog
