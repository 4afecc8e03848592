import SeriesLog.Proofs.Wire.Varint
import SeriesLog.Wire.Field

/-! # Fields read back

A message that is written is a concatenation of number fields and of delimited fields. Cutting
such a message gives back the fields it was made of. -/
namespace SeriesLog.Wire

variable {entries : Nat → Bool} {limit : Nat}

def Field.encode : Field → Bytes
  | ⟨number, .varint n⟩ => varintField number n
  | ⟨number, .delimited body⟩ => delimitedField number body
  | _ => []

/-- A field whose key and number are in range. Fields that hold labels have to be delimited,
since their form is not looked at. -/
inductive Field.Plain (entries : Nat → Bool) : Field → Prop where
  | varint {number n : Nat} : 0 < number → number < 2 ^ 29 → n < 2 ^ 64 →
      entries number = false → Field.Plain entries ⟨number, .varint n⟩
  | delimited {number : Nat} {body : Bytes} : 0 < number → number < 2 ^ 29 →
      Field.Plain entries ⟨number, .delimited body⟩

def numberFields (number n : Nat) : List Field := if n = 0 then [] else [⟨number, .varint n⟩]

def bodyFields (number : Nat) (body : Bytes) : List Field :=
  if body = [] then [] else [⟨number, .delimited body⟩]

theorem varintFieldUnlessZero_eq (number n : Nat) :
    varintFieldUnlessZero number n = (numberFields number n).flatMap Field.encode := by
  unfold varintFieldUnlessZero numberFields
  split
  · rfl
  · simp [Field.encode]

theorem delimitedFieldUnlessEmpty_eq (number : Nat) (body : Bytes) :
    delimitedFieldUnlessEmpty number body = (bodyFields number body).flatMap Field.encode := by
  unfold delimitedFieldUnlessEmpty bodyFields
  split
  · rfl
  · simp [Field.encode]

theorem plain_numberFields {number n : Nat} (hpos : 0 < number) (hlt : number < 2 ^ 29)
    (hn : n < 2 ^ 64) (hentries : entries number = false) :
    ∀ f ∈ numberFields number n, f.Plain entries := by
  intro f hf
  unfold numberFields at hf
  split at hf
  · cases hf
  · rw [List.mem_singleton.1 hf]
    exact .varint hpos hlt hn hentries

theorem plain_bodyFields {number : Nat} {body : Bytes} (hpos : 0 < number)
    (hlt : number < 2 ^ 29) : ∀ f ∈ bodyFields number body, f.Plain entries := by
  intro f hf
  unfold bodyFields at hf
  split at hf
  · cases hf
  · rw [List.mem_singleton.1 hf]
    exact .delimited hpos hlt

theorem readKey_keyBytes {number code : Nat} (form : Form) (hpos : 0 < number)
    (hlt : number < 2 ^ 29) (hcode : code < 8) (hform : Form.ofCode? code = some form)
    (rest : Bytes) : readKey (keyBytes number code ++ rest) = some (number, form, rest) := by
  have hdiv : (number * 8 + code) / 8 = number := by omega
  have hmod : (number * 8 + code) % 8 = code := by omega
  have hsize : UInt32.size = 2 ^ 32 := rfl
  unfold readKey keyBytes
  rw [readVarint_varint (by omega)]
  simp only [hdiv, hmod, hform]
  rw [if_neg (by omega)]

theorem takeBytes_append (bytes rest : Bytes) :
    takeBytes bytes.length (bytes ++ rest) = some (bytes, rest) :=
  takeBytes_eq_some_iff.2 ⟨rfl, rfl⟩

theorem readDelimited_append {body : Bytes} (h : body.length < 2 ^ 64) (rest : Bytes) :
    readDelimited (varint body.length ++ body ++ rest) = some (body, rest) := by
  unfold readDelimited
  rw [List.append_assoc, readVarint_varint h]
  exact takeBytes_append body rest

theorem length_delimitedField (number : Nat) (body : Bytes) :
    (delimitedField number body).length =
      (varint (number * 8 + 2)).length + (varint body.length).length + body.length := by
  simp only [delimitedField, keyBytes, List.length_append]

theorem length_varintFieldUnlessZero_le (number : Nat) {n : Nat} (h : number * 8 < 128)
    (hn : n < 2 ^ 64) : (varintFieldUnlessZero number n).length ≤ 11 := by
  have hvarint : (varint n).length ≤ 9 + 1 := length_varint_le (by omega)
  unfold varintFieldUnlessZero
  split
  · exact Nat.zero_le _
  · rw [varintField, keyBytes, Nat.add_zero, varint_of_lt h, List.length_append,
      List.length_singleton]
    omega

theorem length_body_le_delimitedField (number : Nat) (body : Bytes) :
    body.length < (delimitedField number body).length := by
  have := length_varint_pos (number * 8 + 2)
  simp only [delimitedField, keyBytes, List.length_append]
  omega

theorem Field.length_encode_pos {f : Field} (h : f.Plain entries) : 0 < f.encode.length := by
  cases h with
  | @varint number n _ _ _ _ =>
    have := length_varint_pos n
    simp only [Field.encode, varintField, List.length_append]
    omega
  | @delimited number body _ _ =>
    have := length_body_le_delimitedField number body
    simp only [Field.encode]
    omega

theorem Field.read_encode (limit : Nat) {f : Field} (h : f.Plain entries)
    (hlen : f.encode.length < 2 ^ 64) (rest : Bytes) :
    Field.read entries limit (f.encode ++ rest) = some (f, rest) := by
  cases h with
  | @varint number n hpos hlt hn hentries =>
    unfold Field.read
    simp only [Field.encode, varintField, List.append_assoc]
    rw [readKey_keyBytes .varint hpos hlt (by decide) rfl]
    simp [hentries, readVarint_varint hn]
  | @delimited number body hpos hlt =>
    have hbody : body.length < 2 ^ 64 :=
      Nat.lt_trans (length_body_le_delimitedField number body) hlen
    have hread := readDelimited_append hbody rest
    rw [List.append_assoc] at hread
    unfold Field.read
    simp only [Field.encode, delimitedField, List.append_assoc]
    rw [readKey_keyBytes .delimited hpos hlt (by decide) rfl]
    simp [hread]

theorem fields?_flatMap {fs : List Field} (hplain : ∀ f ∈ fs, f.Plain entries)
    (hlen : (fs.flatMap Field.encode).length < 2 ^ 64) :
    fields? entries limit (fs.flatMap Field.encode) = some fs := by
  induction fs with
  | nil => simp [fields?]
  | cons f fs ih =>
    have hf := hplain f List.mem_cons_self
    have hpos := Field.length_encode_pos hf
    simp only [List.flatMap_cons, List.length_append] at hlen
    have hne : f.encode ++ fs.flatMap Field.encode ≠ [] :=
      List.ne_nil_of_length_pos (by simp only [List.length_append]; omega)
    have hread := Field.read_encode limit hf (by omega) (fs.flatMap Field.encode)
    have hrest := ih (fun g hg => hplain g (List.mem_cons_of_mem f hg)) (by omega)
    rw [List.flatMap_cons, fields?, if_neg hne]
    split
    · next h => rw [hread] at h; cases h
    · next h =>
      rw [hread] at h
      cases h
      rw [hrest]
      rfl

end SeriesLog.Wire
