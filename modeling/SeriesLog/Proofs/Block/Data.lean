import SeriesLog.Block.Data
import SeriesLog.Proofs.Wire.Message

/-! # Data blocks read back

The body that is written for a descriptor and a payload is cut again into the two, whatever the
payload holds. -/
namespace SeriesLog

open Wire

namespace DataDescriptor

def wireFields (d : DataDescriptor) : List Field :=
  numberFields 1 d.series.toNat ++ numberFields 2 d.timestamp.toUInt64.toNat ++
    numberFields 3 d.position.toNat ++
    bodyFields 4 ((d.indexValues.map fun v => v.toUInt64.toNat).flatMap varint)

theorem encode_eq (d : DataDescriptor) : d.encode = d.wireFields.flatMap Field.encode := by
  simp only [encode, wireFields, packedField, varintFieldUnlessZero_eq,
    delimitedFieldUnlessEmpty_eq, List.flatMap_append]

theorem plain_wireFields (d : DataDescriptor) : ∀ f ∈ d.wireFields, f.Plain noEntries := by
  have hseries := d.series.toNat_lt
  have htime := d.timestamp.toUInt64.toNat_lt
  have hposition := d.position.toNat_lt
  intro f hf
  simp only [wireFields, List.mem_append] at hf
  rcases hf with ((hf | hf) | hf) | hf
  · exact plain_numberFields (by decide) (by decide) (by omega) rfl f hf
  · exact plain_numberFields (by decide) (by decide) htime rfl f hf
  · exact plain_numberFields (by decide) (by decide) hposition rfl f hf
  · exact plain_bodyFields (by decide) (by decide) f hf

theorem ofNat_toUInt64 (v : Int64) : (UInt64.ofNat v.toUInt64.toNat).toInt64 = v := by
  rw [UInt64.ofNat_toNat]
  exact Int64.toInt64_toUInt64 v

theorem map_toUInt64 (values : List Int64) :
    (values.map fun v => v.toUInt64.toNat).map (fun n => (UInt64.ofNat n).toInt64) = values := by
  rw [List.map_map]
  calc values.map ((fun n => (UInt64.ofNat n).toInt64) ∘ fun v => v.toUInt64.toNat)
      = values.map id := List.map_congr_left fun v _ => ofNat_toUInt64 v
    _ = values := List.map_id values

theorem foldlM_wireFields (limit : Nat) (d : DataDescriptor) :
    d.wireFields.foldlM (mergeField limit) empty = some d := by
  have hseries : (numberFields 1 d.series.toNat).foldlM (mergeField limit) empty =
      some ⟨d.series, 0, 0, []⟩ := by
    apply foldlM_numberFields
    · simp [mergeField, Value.number?, empty]
    · intro h
      have : d.series = 0 := UInt32.toNat_inj.1 h
      rw [this]
      rfl
  have htime : (numberFields 2 d.timestamp.toUInt64.toNat).foldlM (mergeField limit)
      ⟨d.series, 0, 0, []⟩ = some ⟨d.series, d.timestamp, 0, []⟩ := by
    apply foldlM_numberFields
    · simp only [mergeField, Value.number?, Option.map_some, ofNat_toUInt64]
    · intro h
      have : d.timestamp = 0 := by
        rw [← ofNat_toUInt64 d.timestamp, h]
        rfl
      rw [this]
  have hposition : (numberFields 3 d.position.toNat).foldlM (mergeField limit)
      ⟨d.series, d.timestamp, 0, []⟩ = some ⟨d.series, d.timestamp, d.position, []⟩ := by
    apply foldlM_numberFields
    · simp [mergeField, Value.number?]
    · intro h
      have : d.position = 0 := UInt64.toNat_inj.1 h
      rw [this]
  have hbound : ∀ n ∈ d.indexValues.map fun v => v.toUInt64.toNat, n < 2 ^ 64 := by
    intro n hn
    obtain ⟨v, _, rfl⟩ := List.mem_map.1 hn
    exact v.toUInt64.toNat_lt
  simp only [wireFields, List.append_assoc]
  rw [foldlM_append hseries, foldlM_append htime, foldlM_append hposition]
  apply foldlM_bodyFields
  · simp only [mergeField, numbers?_packed hbound, Option.map_some, map_toUInt64, List.nil_append]
  · intro h
    have : d.indexValues = [] := List.map_eq_nil_iff.1 (flatMap_varint_eq_nil h)
    cases d
    simp_all

theorem decode?_encode {d : DataDescriptor} (h : d.encode.length < 2 ^ 64) :
    decode? d.encode = some d := by
  rw [encode_eq] at h ⊢
  rw [decode?, mergeFields_flatMap d.plain_wireFields h, foldlM_wireFields]

/-- The size and the bytes of a descriptor, as they stand before a payload. -/
def sized (d : DataDescriptor) : Bytes :=
  Bytes.littleEndian descriptorSizeBytes d.encode.length ++ d.encode

@[simp] theorem length_sized (d : DataDescriptor) :
    d.sized.length = descriptorSizeBytes + d.encode.length := by
  simp [sized]

theorem encodeSized_eq_ok {d : DataDescriptor} {bytes : Bytes} :
    d.encodeSized = .ok bytes ↔ d.encode.length < 2 ^ 32 ∧ bytes = d.sized := by
  unfold encodeSized sized
  constructor
  · intro h
    dsimp only at h
    split at h
    · next hlt => exact ⟨hlt, (Except.ok.inj h).symm⟩
    · cases h
  · rintro ⟨hlt, rfl⟩
    exact if_pos hlt

end DataDescriptor

namespace DataBlock

/-- What a body is: too short for the size of a descriptor, too short for a descriptor of that size,
or the size of a descriptor, its bytes and a payload. -/
inductive Layout : Bytes → Prop where
  | short {body : Bytes} : body.length < descriptorSizeBytes → Layout body
  | overrun {sizeBytes after : Bytes} : sizeBytes.length = descriptorSizeBytes →
      after.length < Bytes.ofLittleEndian sizeBytes → Layout (sizeBytes ++ after)
  | parts {bytes payload : Bytes} : bytes.length < 2 ^ 32 →
      Layout (Bytes.littleEndian descriptorSizeBytes bytes.length ++ bytes ++ payload)

theorem layout (body : Bytes) : Layout body := by
  by_cases hshort : body.length < descriptorSizeBytes
  · exact .short hshort
  have hsize : (body.take descriptorSizeBytes).length = descriptorSizeBytes := by
    rw [List.length_take, Nat.min_eq_left (Nat.le_of_not_lt hshort)]
  rw [← List.take_append_drop descriptorSizeBytes body]
  generalize body.take descriptorSizeBytes = sizeBytes at hsize
  generalize body.drop descriptorSizeBytes = after
  by_cases hfits : Bytes.ofLittleEndian sizeBytes ≤ after.length
  · have hlength : (after.take (Bytes.ofLittleEndian sizeBytes)).length =
        Bytes.ofLittleEndian sizeBytes := by
      rw [List.length_take, Nat.min_eq_left hfits]
    have hlt := Bytes.ofLittleEndian_lt sizeBytes
    rw [hsize, ← hlength] at hlt
    have hlayout : Layout (_ ++ _ ++ after.drop (Bytes.ofLittleEndian sizeBytes)) := .parts hlt
    rwa [hlength, ← hsize, Bytes.littleEndian_ofLittleEndian, List.append_assoc,
      List.take_append_drop] at hlayout
  · exact .overrun hsize (Nat.lt_of_not_le hfits)

theorem splitAt_size {sizeBytes : Bytes} (h : sizeBytes.length = descriptorSizeBytes)
    (after : Bytes) : (sizeBytes ++ after).splitAt descriptorSizeBytes = (sizeBytes, after) := by
  rw [List.splitAt_eq, List.take_left' h, List.drop_left' h]

theorem decode_short {body : Bytes} (h : body.length < descriptorSizeBytes) :
    decode body = .error (.truncated (.noDescriptorSize body.length)) := by
  have htake : (body.splitAt descriptorSizeBytes).1 = body := by
    rw [List.splitAt_eq]
    exact List.take_of_length_le (Nat.le_of_lt h)
  simp only [decode, htake]
  rw [if_pos h]

theorem decode_overrun {sizeBytes after : Bytes} (hsize : sizeBytes.length = descriptorSizeBytes)
    (hlt : after.length < Bytes.ofLittleEndian sizeBytes) :
    decode (sizeBytes ++ after) =
      .error (.truncated (.dataDescriptor (Bytes.ofLittleEndian sizeBytes) after.length)) := by
  have hnone : takeBytes (Bytes.ofLittleEndian sizeBytes) after = none := by
    refine if_neg ?_
    rw [List.splitAt_eq, List.length_take]
    omega
  simp only [decode, splitAt_size hsize]
  rw [if_neg (by omega), hnone]

theorem decode_parts {bytes : Bytes} (h : bytes.length < 2 ^ 32) (payload : Bytes) :
    decode (Bytes.littleEndian descriptorSizeBytes bytes.length ++ bytes ++ payload) =
      (DataDescriptor.decode? bytes).elim (.error .undecodable) fun d => .ok ⟨d, payload⟩ := by
  have hsize : (Bytes.littleEndian descriptorSizeBytes bytes.length).length =
      descriptorSizeBytes := Bytes.length_littleEndian _ _
  have hvalue : Bytes.ofLittleEndian (Bytes.littleEndian descriptorSizeBytes bytes.length) =
      bytes.length := Bytes.ofLittleEndian_littleEndian (by simpa [descriptorSizeBytes] using h)
  simp only [decode, List.append_assoc, splitAt_size hsize]
  rw [if_neg (by omega), hvalue, takeBytes_append]
  cases hdecode : DataDescriptor.decode? bytes <;> simp only [hdecode] <;> rfl

theorem decode_append {bytes : Bytes} {d : DataDescriptor} (h : bytes.length < 2 ^ 32)
    (hdecode : DataDescriptor.decode? bytes = some d) (payload : Bytes) :
    decode (Bytes.littleEndian descriptorSizeBytes bytes.length ++ bytes ++ payload) =
      .ok ⟨d, payload⟩ := by
  rw [decode_parts h, hdecode, Option.elim_some]

theorem decode_sized {d : DataDescriptor} (h : d.encode.length < 2 ^ 32) (payload : Bytes) :
    decode (d.sized ++ payload) = .ok ⟨d, payload⟩ :=
  decode_append h (DataDescriptor.decode?_encode (by omega)) payload

/-- A body that is read has the three parts. -/
theorem decode_eq_ok {body : Bytes} {b : DataBlock} :
    decode body = .ok b ↔ ∃ bytes : Bytes, bytes.length < 2 ^ 32 ∧
      body = Bytes.littleEndian descriptorSizeBytes bytes.length ++ bytes ++ b.payload ∧
      DataDescriptor.decode? bytes = some b.descriptor := by
  constructor
  · intro h
    cases layout body with
    | short hshort =>
      rw [decode_short hshort] at h
      cases h
    | overrun hsize hlt =>
      rw [decode_overrun hsize hlt] at h
      cases h
    | @parts bytes payload hlt =>
      rw [decode_parts hlt] at h
      cases hdecode : DataDescriptor.decode? bytes with
      | none =>
        rw [hdecode] at h
        cases h
      | some d =>
        rw [hdecode] at h
        cases h
        exact ⟨bytes, hlt, rfl, hdecode⟩
  · rintro ⟨bytes, hlt, rfl, hdecode⟩
    exact decode_append hlt hdecode b.payload

end DataBlock

end SeriesLog
