import SeriesLog.Proofs.Block.Data
import SeriesLog.Proofs.Wire.Lenient
import SeriesLog.Proofs.Wire.Shortest

/-! # The codec of data blocks, exactly

A body is cut where the size in front of its descriptor says. The descriptor may have been written
by another writer, with more fields or in more bytes; written anew it fits the size bytes again,
and the payload stays where it is. -/
namespace SeriesLog

open Wire

namespace DataDescriptor

theorem lenient : Lenient noEntries mergeField [1, 2, 3, 4] [1, 2, 3] := by
  apply lenient_of_sets
  · intro limit d f hf
    unfold mergeField
    split <;> simp_all
  · intro number hnumber
    simp only [List.mem_cons, List.not_mem_nil, or_false] at hnumber
    rcases hnumber with rfl | rfl | rfl
    case' inl => refine ⟨_, Value.number?, fun n d => { d with series := UInt32.ofNat n },
      fun _ _ _ => rfl, fun _ _ _ => rfl, ?_⟩
    case' inr.inl => refine ⟨_, Value.number?,
      fun n d => { d with timestamp := (UInt64.ofNat n).toInt64 }, fun _ _ _ => rfl,
      fun _ _ _ => rfl, ?_⟩
    case' inr.inr => refine ⟨_, Value.number?, fun n d => { d with position := UInt64.ofNat n },
      fun _ _ _ => rfl, fun _ _ _ => rfl, ?_⟩
    all_goals
      rintro limit d n ⟨number, value⟩ hnumber
      unfold mergeField
      split <;> simp_all [Function.comp_def]

theorem appends : Appends mergeField 4 fun d ns =>
    { d with indexValues := d.indexValues ++ ns.map fun n => (UInt64.ofNat n).toInt64 } where
  value _ _ _ := rfl
  nil d := by simp
  append d ms ns := by simp

def words (d : DataDescriptor) : List Nat := d.indexValues.map fun v => v.toUInt64.toNat

theorem words_lt {d : DataDescriptor} {n : Nat} (h : n ∈ d.words) : n < 2 ^ 64 := by
  obtain ⟨v, _, rfl⟩ := List.mem_map.1 h
  exact v.toUInt64.toNat_lt

theorem toUInt64_ofNat (n : Nat) : (UInt64.ofNat n).toInt64.toUInt64.toNat = n % 2 ^ 64 := by
  exact UInt64.toNat_ofNat'

theorem length_encode (d : DataDescriptor) :
    d.encode.length = (varintFieldUnlessZero 1 d.series.toNat).length +
      (varintFieldUnlessZero 2 d.timestamp.toUInt64.toNat).length +
      (varintFieldUnlessZero 3 d.position.toNat).length + (packedField 4 d.words).length := by
  simp only [encode, words, List.length_append]

/-- How many bytes numbers may take more when they are packed: a single number gets a length. -/
def surplus (count : Nat) : Nat := if count = 1 then 1 else 0

theorem surplus_le (count : Nat) : surplus count ≤ 1 := by
  unfold surplus
  split <;> omega

theorem surplus_of_two_le {count : Nat} (h : 2 ≤ count) : surplus count = 0 :=
  if_neg (by omega)

theorem packedField_nil (number : Nat) : packedField number [] = [] := rfl

theorem length_varint_word {n : Nat} (h : n < 2 ^ 64) : (varint n).length ≤ 10 :=
  length_varint_le (by omega)

theorem length_packed_one {n : Nat} (h : n < 2 ^ 64) :
    (packedField 4 [n]).length = 2 + (varint n).length := by
  have hword := length_varint_word h
  have hflat : [n].flatMap varint = varint n := by simp
  have hkey : (varint (4 * 8 + 2)).length = 1 := length_varint_of_lt (by decide)
  have hlength : (varint (varint n).length).length = 1 := length_varint_of_lt (by omega)
  rw [length_packedField_of_ne_nil 4 (List.cons_ne_nil n []), hflat, hkey, hlength]

theorem length_packed_concat {ms : List Nat} {n : Nat} (hms : ∀ m ∈ ms, m < 2 ^ 64)
    (hn : n < 2 ^ 64) :
    (packedField 4 (ms ++ [n])).length + surplus ms.length ≤
      (packedField 4 ms).length + (varintField 4 n).length + surplus (ms.length + 1) := by
  have hfield : (varintField 4 n).length = 1 + (varint n).length := by
    rw [varintField, keyBytes, List.length_append, length_varint_of_lt (by decide)]
  cases ms with
  | nil =>
    have hone := length_packed_one hn
    have hsurplus : surplus (0 + 1) = surplus 0 + 1 := rfl
    rw [List.nil_append, List.length_nil, packedField_nil, List.length_nil]
    omega
  | cons m ms =>
    cases ms with
    | nil =>
      -- two numbers take so few bytes that their length is one byte still
      have hfirst := length_varint_word (hms m List.mem_cons_self)
      have hsecond := length_varint_word hn
      have hflat : ([m] ++ [n]).flatMap varint = varint m ++ varint n := by simp
      have hlength : (varint (varint m ++ varint n).length).length = 1 :=
        length_varint_of_lt (by rw [List.length_append]; omega)
      have htwo := length_packedField_of_ne_nil 4 (List.cons_ne_nil m [n])
      have hkey : (varint (4 * 8 + 2)).length = 1 := length_varint_of_lt (by decide)
      rw [← List.singleton_append, hflat, hlength, hkey, List.length_append] at htwo
      have hone := length_packed_one (hms m List.mem_cons_self)
      have hsurplus : surplus [m].length = 1 ∧ surplus ([m].length + 1) = 0 := ⟨rfl, rfl⟩
      omega
    | cons m' ms =>
      have happend := length_packedField_append 4 (List.cons_ne_nil m (m' :: ms))
        (List.cons_ne_nil n [])
      have hone := length_packed_one hn
      have hsurplus : surplus (m :: m' :: ms).length = 0 :=
        surplus_of_two_le (by simp only [List.length_cons]; omega)
      omega

theorem length_packed_append (ms : List Nat) {ns : List Nat} {body : Bytes}
    (h : Value.packed? body = some ns) :
    (packedField 4 (ms ++ ns.map (· % 2 ^ 64))).length + surplus ms.length ≤
      (packedField 4 ms).length + (delimitedField 4 body).length +
        surplus (ms.length + ns.length) := by
  have hbody := length_packed_le h
  have hmod := length_flatMap_mod_le (2 ^ 64) ns
  have hfield := length_delimitedField 4 body
  have hvarint := length_varint_mono (Nat.le_trans hmod hbody)
  cases ns with
  | nil =>
    rw [List.map_nil, List.append_nil, List.length_nil, Nat.add_zero]
    omega
  | cons n ns =>
    have hne : (n :: ns).map (· % 2 ^ 64) ≠ [] := List.cons_ne_nil _ _
    have hown := length_packedField_of_ne_nil 4 hne
    cases ms with
    | nil =>
      rw [List.nil_append, packedField_nil, List.length_nil]
      have hsurplus : surplus 0 = 0 := rfl
      omega
    | cons m ms =>
      have happend := length_packedField_append 4 (List.cons_ne_nil m ms) hne
      have hsurplus := surplus_le (m :: ms).length
      omega

theorem words_append (d : DataDescriptor) (ns : List Nat) :
    ({ d with indexValues := d.indexValues ++ ns.map fun n => (UInt64.ofNat n).toInt64 } :
      DataDescriptor).words = d.words ++ ns.map (· % 2 ^ 64) := by
  simp only [words, List.map_append, List.map_map]
  exact congrArg _ (List.map_congr_left fun n _ => toUInt64_ofNat n)

theorem length_scalar_le (number : Nat) {value : Value} {n word : Nat}
    (h : value.number? = some n) (hword : word ≤ n) :
    (varintFieldUnlessZero number word).length ≤ (Field.encode ⟨number, value⟩).length := by
  rw [Value.eq_of_number? h]
  exact length_varintFieldUnlessZero_mono number hword

theorem length_encode_mergeField {limit : Nat} {d e : DataDescriptor} {f : Field}
    (h : mergeField limit d f = some e) :
    e.encode.length + surplus d.words.length ≤
      d.encode.length + f.encode.length + surplus e.words.length := by
  obtain ⟨number, value⟩ := f
  rw [length_encode, length_encode]
  unfold mergeField at h
  dsimp only at h
  split at h
  · obtain ⟨n, hn, rfl⟩ := Option.map_eq_some_iff.1 h
    have hfield := length_scalar_le 1 hn (show (UInt32.ofNat n).toNat ≤ n from Nat.mod_le n _)
    simp only [words]
    omega
  · obtain ⟨n, hn, rfl⟩ := Option.map_eq_some_iff.1 h
    have hword : (UInt64.ofNat n).toInt64.toUInt64.toNat ≤ n := by
      rw [toUInt64_ofNat]
      exact Nat.mod_le n _
    have hfield := length_scalar_le 2 hn hword
    simp only [words]
    omega
  · obtain ⟨n, hn, rfl⟩ := Option.map_eq_some_iff.1 h
    have hfield := length_scalar_le 3 hn (show (UInt64.ofNat n).toNat ≤ n from Nat.mod_le n _)
    simp only [words]
    omega
  · obtain ⟨ns, hns, rfl⟩ := Option.map_eq_some_iff.1 h
    rw [words_append, List.length_append, List.length_map]
    dsimp only
    rcases Value.eq_of_numbers? hns with ⟨n, rfl, rfl⟩ | ⟨body, rfl, hbody⟩
    · have hword := length_packed_concat (fun m => words_lt (d := d)) (Nat.mod_lt n (by decide))
      have hfield : (varintField 4 (n % 2 ^ 64)).length ≤ (varintField 4 n).length := by
        have hmono := length_varint_mono (Nat.mod_le n (2 ^ 64))
        simp only [varintField, List.length_append]
        omega
      rw [Field.encode, List.map_singleton, List.length_singleton]
      omega
    · have hlist := length_packed_append d.words hbody
      rw [Field.encode]
      omega
  · cases h
    omega

theorem length_encode_foldlM {limit : Nat} {d e : DataDescriptor} {fs : List Field}
    (h : fs.foldlM (mergeField limit) d = some e) :
    e.encode.length + surplus d.words.length ≤
      d.encode.length + (fs.flatMap Field.encode).length + surplus e.words.length := by
  induction fs generalizing d with
  | nil =>
    cases h
    rw [List.flatMap_nil, List.length_nil]
    omega
  | cons f fs ih =>
    rw [List.foldlM_cons] at h
    obtain ⟨next, hfirst, hrest⟩ := Option.bind_eq_some_iff.1 h
    have hstep := length_encode_mergeField hfirst
    have hrun := ih hrest
    rw [List.flatMap_cons, List.length_append]
    omega

/-- A descriptor that was read is written in no more bytes, but for the length that a single index
value gets. -/
theorem length_encode_of_decode? {bytes : Bytes} {d : DataDescriptor} (h : decode? bytes = some d) :
    d.encode.length ≤ bytes.length + surplus d.words.length := by
  obtain ⟨fs, hfields, hmerge⟩ := Option.bind_eq_some_iff.1 h
  have hrun := length_encode_foldlM hmerge
  have hlength := length_fields_le hfields
  have hempty : empty.encode.length = 0 ∧ surplus empty.words.length = 0 := ⟨rfl, rfl⟩
  omega

theorem length_encode_lt {bytes : Bytes} {d : DataDescriptor} (h : decode? bytes = some d)
    (hlt : bytes.length < 2 ^ 32) : d.encode.length < 2 ^ 32 := by
  have hle := length_encode_of_decode? h
  have hseries := d.series.toNat_lt
  have htime := d.timestamp.toUInt64.toNat_lt
  have hposition := d.position.toNat_lt
  rcases Nat.lt_or_ge (surplus d.words.length) 1 with hnone | hone
  · omega
  · -- a descriptor with a single index value is short whatever it was read from
    have hcount : d.words.length = 1 := by
      unfold surplus at hone
      split at hone <;> omega
    obtain ⟨n, hwords⟩ := List.length_eq_one_iff.1 hcount
    have hn : n < 2 ^ 64 := words_lt (d := d) (by rw [hwords]; exact List.mem_singleton_self n)
    have hword := length_varint_word hn
    have hpacked := length_packed_one hn
    have hfirst := length_varintFieldUnlessZero_le 1 (by decide)
      (show d.series.toNat < 2 ^ 64 by omega)
    have hsecond := length_varintFieldUnlessZero_le 2 (by decide) htime
    have hthird := length_varintFieldUnlessZero_le 3 (by decide) hposition
    rw [length_encode, hwords]
    omega

end DataDescriptor

namespace DataBlock

/-- What is promised of the bodies of data blocks: what is written is read back and the size in
front of it is right, what is read can be written anew, and bodies of other writers are read as the
wire format says. -/
structure Codec : Prop where
  fits : ∀ d : DataDescriptor,
    (∃ sized, d.encodeSized = .ok sized) ↔ d.encode.length ≤ 2 ^ 32 - 1
  size : ∀ {d : DataDescriptor} {sized : Bytes}, d.encodeSized = .ok sized →
    sized.take descriptorSizeBytes =
      Bytes.littleEndian descriptorSizeBytes (sized.drop descriptorSizeBytes).length
  read : ∀ {d : DataDescriptor} {sized : Bytes} (payload : Bytes), d.encodeSized = .ok sized →
    decode (sized ++ payload) = .ok ⟨d, payload⟩
  payload : ∀ {body : Bytes} {b : DataBlock}, decode body = .ok b → b.payload <:+ body
  again : ∀ {body : Bytes} {b : DataBlock}, decode body = .ok b →
    ∃ sized, b.descriptor.encodeSized = .ok sized ∧ decode (sized ++ b.payload) = .ok b
  parts : ∀ {body : Bytes} {b : DataBlock}, decode body = .ok b ↔
    ∃ bytes : Bytes, bytes.length < 2 ^ 32 ∧
      body = Bytes.littleEndian descriptorSizeBytes bytes.length ++ bytes ++ b.payload ∧
      DataDescriptor.decode? bytes = some b.descriptor
  lenient : Lenient noEntries DataDescriptor.mergeField [1, 2, 3, 4] [1, 2, 3]
  packed : ∀ {limit : Nat} {start : DataDescriptor} {body other : Bytes}
    {before after : List Field} {ns : List Nat}, (∀ n ∈ ns, n < 2 ^ 64) →
    fields? noEntries limit body =
      some (before ++ ⟨4, .delimited (ns.flatMap varint)⟩ :: after) →
    fields? noEntries limit other =
      some (before ++ ((ns.map fun n => ⟨4, .varint n⟩) ++ after)) →
    mergeFields noEntries DataDescriptor.mergeField limit start body =
      mergeFields noEntries DataDescriptor.mergeField limit start other

/-- Bodies of data blocks are cut where they were put together, whatever the payload holds, and what
was read from any writer's body is read from the body that is written for it. -/
theorem codec : Codec where
  fits d := by
    constructor
    · rintro ⟨sized, hsized⟩
      exact Nat.le_pred_of_lt (DataDescriptor.encodeSized_eq_ok.1 hsized).1
    · intro hle
      exact ⟨d.sized, DataDescriptor.encodeSized_eq_ok.2 ⟨by omega, rfl⟩⟩
  size {d sized} hsized := by
    obtain ⟨_, rfl⟩ := DataDescriptor.encodeSized_eq_ok.1 hsized
    have hsize : (Bytes.littleEndian descriptorSizeBytes d.encode.length).length =
        descriptorSizeBytes := Bytes.length_littleEndian _ _
    rw [DataDescriptor.sized, List.take_left' hsize, List.drop_left' hsize]
  read {d sized} payload hsized := by
    obtain ⟨hlt, rfl⟩ := DataDescriptor.encodeSized_eq_ok.1 hsized
    exact decode_sized hlt payload
  payload {body b} hdecode := by
    obtain ⟨bytes, _, rfl, _⟩ := decode_eq_ok.1 hdecode
    exact List.suffix_append _ b.payload
  again {body b} hdecode := by
    obtain ⟨bytes, hlt, _, hd⟩ := decode_eq_ok.1 hdecode
    -- the bytes that were read may be fewer, but not so few that the size bytes overflow
    have hfits := DataDescriptor.length_encode_lt hd hlt
    exact ⟨b.descriptor.sized, DataDescriptor.encodeSized_eq_ok.2 ⟨hfits, rfl⟩,
      decode_sized hfits b.payload⟩
  parts := decode_eq_ok
  lenient := DataDescriptor.lenient
  packed := DataDescriptor.appends.mergeFields_packed

/-- A body of another writer: the series is given twice, a field has an unknown number, and the
index values lie in two fields of different forms. -/
def foreign : Bytes :=
  [12, 0, 0, 0, 0x08, 1, 0x08, 2, 0x78, 5, 0x20, 7, 0x22, 2, 8, 9, 0xAA, 0xBB]

theorem codec_foreign :
    decode foreign = .ok ⟨⟨2, 0, 0, [7, 8, 9]⟩, [0xAA, 0xBB]⟩ ∧
      ∃ sized, (⟨2, 0, 0, [7, 8, 9]⟩ : DataDescriptor).encodeSized = .ok sized ∧
        decode (sized ++ [0xAA, 0xBB]) = .ok ⟨⟨2, 0, 0, [7, 8, 9]⟩, [0xAA, 0xBB]⟩ := by
  have hdecode : decode foreign = .ok ⟨⟨2, 0, 0, [7, 8, 9]⟩, [0xAA, 0xBB]⟩ := by decide +kernel
  have hagain := codec.again hdecode
  exact ⟨hdecode, hagain⟩

end DataBlock

end SeriesLog
