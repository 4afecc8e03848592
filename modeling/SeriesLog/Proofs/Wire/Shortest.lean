import SeriesLog.Proofs.Wire.Message

/-! # Messages that are written anew

A message that was read may be written in more than one way. What is written for its fields, one by
one, is never longer than the message. Numbers that come to lie in one field take less room than in
many, but a single number takes one byte more than in a field of its own. -/
namespace SeriesLog.Wire

variable {limit : Nat} {bytes rest : Bytes}

theorem Form.code_of_ofCode? {code : Nat} {form : Form} (h : Form.ofCode? code = some form) :
    (form = .varint → code = 0) ∧ (form = .delimited → code = 2) := by
  unfold ofCode? at h
  split at h <;> cases h <;> simp

theorem length_keyBytes_le {number : Nat} {form : Form}
    (h : readKey bytes = some (number, form, rest)) :
    (form = .varint → (keyBytes number 0).length + rest.length ≤ bytes.length) ∧
      (form = .delimited → (keyBytes number 2).length + rest.length ≤ bytes.length) := by
  unfold readKey at h
  split at h
  · cases h
  next key after hkey =>
  have hlength := length_varint_le_of_read hkey
  split at h
  · cases h
  split at h
  · cases h
  next found hform =>
  cases h
  have hcode := Form.code_of_ofCode? hform
  constructor
  · intro hvarint
    rw [keyBytes, show key / 8 * 8 + 0 = key by have := hcode.1 hvarint; omega]
    exact hlength
  · intro hdelimited
    rw [keyBytes, show key / 8 * 8 + 2 = key by have := hcode.2 hdelimited; omega]
    exact hlength

theorem length_readDelimited_le {body : Bytes} (h : readDelimited bytes = some (body, rest)) :
    (varint body.length).length + body.length + rest.length ≤ bytes.length := by
  unfold readDelimited at h
  split at h
  · cases h
  next count after hcount =>
  have hlength := length_varint_le_of_read hcount
  obtain ⟨rfl, rfl⟩ := takeBytes_eq_some_iff.1 h
  rw [List.length_append] at hlength
  omega

theorem Field.length_encode_le {f : Field} (h : Field.read noEntries limit bytes = some (f, rest)) :
    f.encode.length + rest.length ≤ bytes.length := by
  have hshorter := Field.length_of_read h
  unfold Field.read at h
  split at h
  · cases h
  next number form after hkey =>
  have hkeyLength := length_keyBytes_le hkey
  rw [noEntries, if_neg Bool.false_ne_true] at h
  cases form with
  | varint =>
    obtain ⟨p, hread, hpair⟩ := Option.map_eq_some_iff.1 h
    cases hpair
    have hvalue := length_varint_le_of_read hread
    have hkeyBytes := hkeyLength.1 rfl
    simp only [Field.encode, varintField, List.length_append]
    omega
  | delimited =>
    obtain ⟨p, hread, hpair⟩ := Option.map_eq_some_iff.1 h
    cases hpair
    have hvalue := length_readDelimited_le hread
    have hkeyBytes := hkeyLength.2 rfl
    simp only [Field.encode, delimitedField, List.length_append]
    omega
  | groupEnd => cases h
  | _ =>
    obtain ⟨p, _, hpair⟩ := Option.map_eq_some_iff.1 h
    cases hpair
    simp only [Field.encode, List.length_nil]
    omega

theorem length_fields_le {fs : List Field} (h : fields? noEntries limit bytes = some fs) :
    (fs.flatMap Field.encode).length ≤ bytes.length := by
  induction hn : bytes.length using Nat.strongRecOn generalizing bytes fs with
  | ind n ih =>
    subst hn
    rw [fields?] at h
    split at h
    · cases h
      exact Nat.zero_le _
    · split at h
      · cases h
      next f after hread =>
      obtain ⟨later, hlater, rfl⟩ := Option.map_eq_some_iff.1 h
      have hfirst := Field.length_encode_le hread
      have hrest := ih _ (Field.length_of_read hread) hlater rfl
      rw [List.flatMap_cons, List.length_append]
      omega

theorem Value.eq_of_number? {v : Value} {n : Nat} (h : v.number? = some n) : v = .varint n := by
  cases v <;> cases h
  rfl

theorem Value.eq_of_numbers? {v : Value} {ns : List Nat} (h : v.numbers? = some ns) :
    (∃ n, v = .varint n ∧ ns = [n]) ∨ ∃ body, v = .delimited body ∧ packed? body = some ns := by
  cases v with
  | varint n =>
    cases h
    exact .inl ⟨n, rfl, rfl⟩
  | delimited body => exact .inr ⟨body, rfl, h⟩
  | _ => cases h

theorem length_varint_of_lt {n : Nat} (h : n < 128) : (varint n).length = 1 := by
  rw [varint_of_lt h, List.length_singleton]

theorem length_packed_le {body : Bytes} {ns : List Nat} (h : Value.packed? body = some ns) :
    (ns.flatMap varint).length ≤ body.length := by
  induction hn : body.length using Nat.strongRecOn generalizing body ns with
  | ind n ih =>
    subst hn
    rw [Value.packed?] at h
    split at h
    · cases h
      exact Nat.zero_le _
    · split at h
      · cases h
      next m after hread =>
      obtain ⟨later, hlater, rfl⟩ := Option.map_eq_some_iff.1 h
      have hfirst := length_varint_le_of_read hread
      have hrest := ih _ (length_of_readVarint hread) hlater rfl
      rw [List.flatMap_cons, List.length_append]
      omega

theorem length_flatMap_mod_le (m : Nat) (ns : List Nat) :
    ((ns.map (· % m)).flatMap varint).length ≤ (ns.flatMap varint).length := by
  induction ns with
  | nil => exact Nat.le_refl _
  | cons n ns ih =>
    have hfirst := length_varint_mono (Nat.mod_le n m)
    simp only [List.map_cons, List.flatMap_cons, List.length_append]
    omega

theorem length_varintFieldUnlessZero_mono (number : Nat) {m n : Nat} (h : m ≤ n) :
    (varintFieldUnlessZero number m).length ≤ (varintField number n).length := by
  have hvarint := length_varint_mono h
  unfold varintFieldUnlessZero
  split
  · exact Nat.zero_le _
  · simp only [varintField, List.length_append]
    omega

theorem length_packedField_of_ne_nil (number : Nat) {ns : List Nat} (h : ns ≠ []) :
    (packedField number ns).length = (varint (number * 8 + 2)).length +
      (varint (ns.flatMap varint).length).length + (ns.flatMap varint).length := by
  rw [packedField, delimitedFieldUnlessEmpty, if_neg (mt flatMap_varint_eq_nil h),
    length_delimitedField]

theorem length_packedField_append (number : Nat) {ms ns : List Nat} (hm : ms ≠ []) (hn : ns ≠ []) :
    (packedField number (ms ++ ns)).length + 1 ≤
      (packedField number ms).length + (packedField number ns).length := by
  have hne : ms ++ ns ≠ [] := fun h => hm (List.append_eq_nil_iff.1 h).1
  have hkey := length_varint_pos (number * 8 + 2)
  have hsum := length_varint_add (ms.flatMap varint).length (ns.flatMap varint).length
  rw [length_packedField_of_ne_nil number hne, length_packedField_of_ne_nil number hm,
    length_packedField_of_ne_nil number hn, List.flatMap_append, List.length_append]
  omega

end SeriesLog.Wire
