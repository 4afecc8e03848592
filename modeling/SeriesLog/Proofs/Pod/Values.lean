import Mathlib.Tactic.NormNum
import SeriesLog.Pod.Values

/-! # Packed values

Values are packed word by word without a gap, so what was packed is cut into the same words again,
whatever the bits of a word stand for. Bytes that are a whole number of words are those of the
values that they are cut into, so packing and unpacking undo each other. -/
namespace SeriesLog.Pod

/-- The numbers that the words of a type stand for. A floating-point value is the number of its
bits. -/
def Element.Holds (e : Element) (n : Int) : Prop :=
  if e.isSigned then -2 ^ (8 * e.size - 1) ≤ n ∧ n < 2 ^ (8 * e.size - 1)
  else 0 ≤ n ∧ n < 2 ^ (8 * e.size)

namespace Values

variable {e : Element}

@[simp] theorem length_wordBytes (word : e.Word) : (wordBytes word).length = e.size :=
  Bytes.length_littleEndian _ _

theorem ofNat_wordBytes (word : e.Word) :
    BitVec.ofNat (8 * e.size) (Bytes.ofLittleEndian (wordBytes word)) = word := by
  have hlt : word.toNat < Nat.pow 256 e.size := by
    have hbits := word.isLt
    rw [Nat.pow_mul] at hbits
    exact hbits
  rw [wordBytes, Bytes.ofLittleEndian_littleEndian hlt, BitVec.ofNat_toNat, BitVec.setWidth_eq]

theorem wordBytes_ofNat {chunk : Bytes} (h : chunk.length = e.size) :
    wordBytes (BitVec.ofNat (8 * e.size) (Bytes.ofLittleEndian chunk) : e.Word) = chunk := by
  have hlt := Bytes.ofLittleEndian_lt chunk
  have hbits : Nat.pow 256 chunk.length = 2 ^ (8 * e.size) := by
    rw [h, Nat.pow_mul]
    rfl
  rw [hbits] at hlt
  rw [wordBytes, BitVec.toNat_ofNat, Nat.mod_eq_of_lt hlt, ← h, Bytes.littleEndian_ofLittleEndian]

theorem holds_number (word : e.Word) : e.Holds (number word) := by
  unfold Element.Holds number
  split
  · exact ⟨BitVec.le_toInt word, BitVec.toInt_lt⟩
  · exact ⟨Int.natCast_nonneg _, by exact_mod_cast word.isLt⟩

theorem number_word {n : Int} (h : e.Holds n) : number (word e n) = n := by
  have hpos := e.size_pos
  unfold Element.Holds at h
  unfold word number
  split at h
  · next hsigned =>
    rw [if_pos hsigned]
    exact BitVec.toInt_ofInt_eq_self (by omega) h.1 h.2
  · next hunsigned =>
    obtain ⟨m, rfl⟩ := Int.eq_ofNat_of_zero_le h.1
    rw [if_neg hunsigned, BitVec.ofInt_natCast, BitVec.toNat_ofNat, Nat.mod_eq_of_lt]
    exact_mod_cast h.2

theorem unpack_nil : unpack e [] = [] := by
  have hpos := e.size_pos
  rw [unpack, if_neg]
  simp only [List.splitAt_eq, List.take_nil, List.length_nil]
  omega

theorem unpack_append {chunk : Bytes} (h : chunk.length = e.size) (rest : Bytes) :
    unpack e (chunk ++ rest) =
      BitVec.ofNat (8 * e.size) (Bytes.ofLittleEndian chunk) :: unpack e rest := by
  have hfirst : (chunk ++ rest).take e.size = chunk := List.take_left' h
  have hrest : (chunk ++ rest).drop e.size = rest := List.drop_left' h
  rw [unpack]
  simp only [List.splitAt_eq, hfirst, hrest, h, if_true]

theorem unpack_wordBytes_append (word : e.Word) (rest : Bytes) :
    unpack e (wordBytes word ++ rest) = word :: unpack e rest := by
  rw [unpack_append (length_wordBytes word), ofNat_wordBytes]

theorem unpack_flatMap (words : List e.Word) : unpack e (words.flatMap wordBytes) = words := by
  induction words with
  | nil => exact unpack_nil
  | cons word rest ih => rw [List.flatMap_cons, unpack_wordBytes_append, ih]

theorem length_flatMap_wordBytes (words : List e.Word) :
    (words.flatMap wordBytes).length = words.length * e.size := by
  induction words with
  | nil => rw [List.flatMap_nil, List.length_nil, List.length_nil, Nat.zero_mul]
  | cons word rest ih =>
    rw [List.flatMap_cons, List.length_append, length_wordBytes, ih, List.length_cons,
      Nat.succ_mul, Nat.add_comm]

theorem unpack_whole {count : Nat} {bytes : Bytes} (h : bytes.length = count * e.size) :
    (unpack e bytes).length = count ∧ (unpack e bytes).flatMap wordBytes = bytes := by
  induction count generalizing bytes with
  | zero =>
    rw [Nat.zero_mul, List.length_eq_zero_iff] at h
    rw [h, unpack_nil]
    exact ⟨rfl, rfl⟩
  | succ count ih =>
    rw [Nat.succ_mul] at h
    have hchunk : (bytes.take e.size).length = e.size := by
      rw [List.length_take]
      omega
    have hrest : (bytes.drop e.size).length = count * e.size := by
      rw [List.length_drop]
      omega
    obtain ⟨hlength, hbytes⟩ := ih hrest
    rw [← List.take_append_drop e.size bytes, unpack_append hchunk, List.length_cons, hlength,
      List.flatMap_cons, hbytes, wordBytes_ofNat hchunk]
    exact ⟨rfl, rfl⟩

theorem unpack_uint8 (bytes : Bytes) :
    (unpack .uint8 bytes).map BitVec.toNat = bytes.map UInt8.toNat := by
  induction bytes with
  | nil => rw [unpack_nil, List.map_nil, List.map_nil]
  | cons b rest ih =>
    have hlength : [b].length = Element.uint8.size := rfl
    have hcut := unpack_append hlength rest
    have hword : (BitVec.ofNat (8 * Element.uint8.size) (Bytes.ofLittleEndian [b])).toNat =
        b.toNat := by
      rw [BitVec.toNat_ofNat]
      exact Nat.mod_eq_of_lt b.toNat_lt
    rw [List.singleton_append] at hcut
    rw [hcut, List.map_cons, List.map_cons, hword, ih]

/-- Values of any type are read back bit by bit. -/
theorem decode?_encode (v : Values) : decode? v.element v.encode = some v := by
  have hwhole : v.encode.length % v.element.size = 0 := by
    rw [encode, length_flatMap_wordBytes]
    exact Nat.mul_mod_left _ _
  rw [decode?, if_pos hwhole, encode, unpack_flatMap]

theorem decode?_eq_some {bytes : Bytes} {v : Values} (h : decode? e bytes = some v) :
    v.element = e ∧ v.words.length = bytes.length / e.size ∧ v.encode = bytes := by
  unfold decode? at h
  split at h
  · next hwhole =>
    cases h
    obtain ⟨hlength, hbytes⟩ :=
      unpack_whole (Nat.div_mul_cancel (Nat.dvd_of_mod_eq_zero hwhole)).symm
    exact ⟨rfl, hlength, hbytes⟩
  · cases h

/-- Packing and unpacking undo each other, for the values of every type and for all bytes. The
second part says so of the numbers that words stand for, and the last one that values of one byte
without a sign are the bytes themselves. -/
theorem packing_exact :
    (∀ v : Values, decode? v.element v.encode = some v) ∧
    (∀ (e : Element) (numbers : List Int), (∀ n ∈ numbers, e.Holds n) →
      (decode? e (Values.encode ⟨e, numbers.map (word e)⟩)).map
        (fun v => v.words.map number) = some numbers) ∧
    (∀ (e : Element) (bytes : Bytes),
      ((∃ v, decode? e bytes = some v) ↔ e.size ∣ bytes.length) ∧
      ∀ v, decode? e bytes = some v →
        v.element = e ∧ v.words.length = bytes.length / e.size ∧ v.encode = bytes ∧
          ∀ n ∈ v.words.map number, e.Holds n) ∧
    ∀ bytes : Bytes, (decode? .uint8 bytes).map (fun v => v.words.map BitVec.toNat) =
      some (bytes.map UInt8.toNat) := by
  refine ⟨decode?_encode, ?_, ?_, ?_⟩
  · intro e numbers hholds
    have hread := decode?_encode ⟨e, numbers.map (word e)⟩
    dsimp only at hread
    rw [hread, Option.map_some, List.map_map]
    refine congrArg some ?_
    calc numbers.map (number ∘ word e)
        = numbers.map id := List.map_congr_left fun n hn => number_word (hholds n hn)
      _ = numbers := List.map_id numbers
  · intro e bytes
    refine ⟨⟨?_, ?_⟩, ?_⟩
    · rintro ⟨v, h⟩
      by_contra hpartial
      rw [decode?, if_neg (mt Nat.dvd_of_mod_eq_zero hpartial)] at h
      cases h
    · intro hwhole
      exact ⟨_, if_pos (Nat.mod_eq_zero_of_dvd hwhole)⟩
    · intro v h
      obtain ⟨rfl, hlength, hbytes⟩ := decode?_eq_some h
      refine ⟨rfl, hlength, hbytes, ?_⟩
      intro n hn
      obtain ⟨w, _, rfl⟩ := List.mem_map.1 hn
      exact holds_number w
  · intro bytes
    have hwhole : bytes.length % Element.uint8.size = 0 := Nat.mod_one _
    rw [decode?, if_pos hwhole, Option.map_some, unpack_uint8]

/-- Two numbers with a sign, lowest byte first. -/
theorem packing_exact_negative : (∀ n ∈ [-2, 300], Element.int16.Holds n) ∧
    Values.encode ⟨.int16, [-2, 300].map (word .int16)⟩ = [0xFE, 0xFF, 0x2C, 0x01] ∧
    (decode? .int16 [0xFE, 0xFF, 0x2C, 0x01]).map (fun v => v.words.map number) =
      some [-2, 300] := by
  have hholds : ∀ n ∈ [-2, 300], Element.int16.Holds n := by
    simp [Element.Holds, Element.isSigned, Element.size]
  have hbytes : Values.encode ⟨.int16, [-2, 300].map (word .int16)⟩ =
      [0xFE, 0xFF, 0x2C, 0x01] := by decide
  refine ⟨hholds, hbytes, ?_⟩
  rw [← hbytes]
  exact packing_exact.2.1 .int16 [-2, 300] hholds

end Values

end SeriesLog.Pod
