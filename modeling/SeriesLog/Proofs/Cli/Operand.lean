import SeriesLog.Cli.Operand
import SeriesLog.Cli.View
import SeriesLog.Proofs.Text.Numeral

/-! # Hashes on a command line

A hash is named by a numeral, hexadecimal behind `0x` and decimal without. Both forms in which a
hash is printed name it. Every numeral of at most 64 bits names the hash of its value, a larger one
is refused for its size, and no other text names a hash. -/
namespace SeriesLog.Cli

variable {chars digits : List Char} {text : String} {hash : UInt64} {mark : Char} {n : Nat}

/-- Hexadecimal numerals behind `0x` or `0X`, and decimal ones. -/
inductive HashNumeral : List Char → Nat → Prop where
  | decimal {digits : List Char} {n : Nat} : Numeral 10 digits n → HashNumeral digits n
  | hexadecimal {mark : Char} {digits : List Char} {n : Nat} : mark = 'x' ∨ mark = 'X' →
      Numeral 16 digits n → HashNumeral ('0' :: mark :: digits) n

theorem not_numeral_marked (hmark : mark = 'x' ∨ mark = 'X') :
    ¬ Numeral 10 ('0' :: mark :: digits) n := by
  rintro (⟨_, hspells⟩ | _)
  obtain ⟨digit, hdigit⟩ := hspells.isDigit_of_mem (List.mem_cons_of_mem _ List.mem_cons_self)
  rw [← digitValue?_eq_some_iff (by decide)] at hdigit
  rcases hmark with rfl | rfl
  · cases hdigit
  · cases hdigit

theorem hashDigits_marked (hmark : mark = 'x' ∨ mark = 'X') (digits : List Char) :
    hashDigits ('0' :: mark :: digits) = (16, digits) := by
  rcases hmark with rfl | rfl
  · rfl
  · rfl

theorem hashDigits_cases (chars : List Char) :
    (∃ mark digits, (mark = 'x' ∨ mark = 'X') ∧ chars = '0' :: mark :: digits) ∨
      hashDigits chars = (10, chars) := by
  unfold hashDigits
  split
  · exact .inl ⟨_, _, .inl rfl, rfl⟩
  · exact .inl ⟨_, _, .inr rfl, rfl⟩
  · exact .inr rfl

theorem hashNumeral_iff :
    HashNumeral chars n ↔ Numeral (hashDigits chars).1 (hashDigits chars).2 n := by
  rcases hashDigits_cases chars with ⟨mark, digits, hmark, rfl⟩ | hdecimal
  · rw [hashDigits_marked hmark]
    constructor
    · rintro (hnumeral | ⟨_, hnumeral⟩)
      · exact absurd hnumeral (not_numeral_marked hmark)
      · exact hnumeral
    · exact .hexadecimal hmark
  · rw [hdecimal]
    constructor
    · rintro (hnumeral | ⟨hmark, hnumeral⟩)
      · exact hnumeral
      · rw [hashDigits_marked hmark] at hdecimal
        cases hdecimal
    · exact .decimal

theorem hashDigits_base (chars : List Char) :
    0 < (hashDigits chars).1 ∧ (hashDigits chars).1 ≤ 16 := by
  rcases hashDigits_cases chars with ⟨mark, digits, hmark, rfl⟩ | hdecimal
  · rw [hashDigits_marked hmark]
    exact ⟨Nat.succ_pos 15, Nat.le_refl 16⟩
  · rw [hdecimal]
    exact ⟨Nat.succ_pos 9, Nat.le_add_right 10 6⟩

theorem seriesHash_of_numeral (h : HashNumeral text.toList n) :
    seriesHash text =
      if n < UInt64.size then .ok (UInt64.ofNat n) else .error (.badHash text .tooLarge) := by
  obtain ⟨hpos, hbase⟩ := hashDigits_base text.toList
  unfold seriesHash
  dsimp only
  rw [readUnsigned_of_numeral hpos hbase (by decide) (hashNumeral_iff.1 h)]
  by_cases hlt : n < UInt64.size
  · rw [if_pos hlt, if_pos hlt]
  · rw [if_neg hlt, if_neg hlt]

theorem hashNumeral_of_seriesHash (h : seriesHash text = .ok hash) :
    HashNumeral text.toList hash.toNat := by
  obtain ⟨hpos, hbase⟩ := hashDigits_base text.toList
  unfold seriesHash at h
  dsimp only at h
  split at h
  · next n hread =>
    obtain ⟨hnumeral, hlt⟩ := numeral_of_readUnsigned hpos hbase (by decide) hread
    cases h
    rw [UInt64.toNat_ofNat_of_lt' hlt]
    exact hashNumeral_iff.2 hnumeral
  · cases h

theorem seriesHash_eq_ok_iff : seriesHash text = .ok hash ↔ HashNumeral text.toList hash.toNat := by
  refine ⟨hashNumeral_of_seriesHash, fun h => ?_⟩
  rw [seriesHash_of_numeral h, if_pos hash.toNat_lt_size, UInt64.ofNat_toNat]

theorem toList_seriesHashText (hash : UInt64) :
    (seriesHashText hash).toList = '0' :: 'x' ::
      (List.replicate (16 - (Nat.toDigits 16 hash.toNat).length) '0' ++
        Nat.toDigits 16 hash.toNat) := by
  simp [seriesHashText, hexPadded]

theorem hashNumeral_seriesHashText (hash : UInt64) :
    HashNumeral (seriesHashText hash).toList hash.toNat := by
  rw [toList_seriesHashText]
  refine .hexadecimal (.inl rfl) (.plain ?_ ?_)
  · exact List.append_ne_nil_of_right_ne_nil _ Nat.toDigits_ne_nil
  · exact (spells_toDigits (by decide) (by decide) _).zeros (by decide) _

theorem hashNumeral_toString (n : Nat) : HashNumeral (toString n).toList n := by
  rw [Nat.toString_eq_ofList_toDigits, String.toList_ofList]
  exact .decimal (.plain Nat.toDigits_ne_nil (spells_toDigits (by decide) (by decide) n))

/-- A hash is read back from each of the texts that are printed of it. A text names a hash exactly
if it is a numeral of its value, and a numeral of more than 64 bits is refused, however many zeros
stand in front. -/
theorem seriesHash_exact :
    (∀ hash : UInt64, seriesHash (seriesHashText hash) = .ok hash ∧
      seriesHash (toString hash.toNat) = .ok hash) ∧
    (∀ (id : SeriesId), ∀ name ∈ ["Hash", "Decimal"],
      ∃ text, (name, text) ∈ (hashDetails id).facts ∧ seriesHash text = .ok id.hash) ∧
    (∀ (text : String) (hash : UInt64),
      seriesHash text = .ok hash ↔ HashNumeral text.toList hash.toNat) ∧
    ∀ (text : String) (n : Nat), HashNumeral text.toList n → 2 ^ 64 ≤ n →
      seriesHash text = .error (.badHash text .tooLarge) := by
  have hprinted : ∀ hash : UInt64, seriesHash (seriesHashText hash) = .ok hash ∧
      seriesHash (toString hash.toNat) = .ok hash := fun hash =>
    ⟨seriesHash_eq_ok_iff.2 (hashNumeral_seriesHashText hash),
      seriesHash_eq_ok_iff.2 (hashNumeral_toString hash.toNat)⟩
  refine ⟨hprinted, ?_, fun _ _ => seriesHash_eq_ok_iff, ?_⟩
  · intro id name hname
    obtain ⟨hhex, hdecimal⟩ := hprinted id.hash
    rcases List.mem_pair.1 hname with rfl | rfl
    · exact ⟨_, List.mem_cons_of_mem _ List.mem_cons_self, hhex⟩
    · exact ⟨_, List.mem_cons_of_mem _ (List.mem_cons_of_mem _ List.mem_cons_self), hdecimal⟩
  · intro text n hnumeral hsize
    rw [seriesHash_of_numeral hnumeral, if_neg (Nat.not_lt.2 (show UInt64.size ≤ n from hsize))]

/-- Digits of either case behind more zeros than a hash has digits, and one more than the largest
hash behind as many. -/
theorem seriesHash_exact_zeros :
    let zeros := String.ofList (List.replicate 20 '0')
    seriesHash ("0X+" ++ zeros ++ "1fF") = .ok 511 ∧
      seriesHash ("0x" ++ zeros ++ "10000000000000000") =
        .error (.badHash ("0x" ++ zeros ++ "10000000000000000") .tooLarge) ∧
      ∃ text, ("Decimal", text) ∈ (hashDetails (.ofType "a")).facts ∧
        seriesHash text = .ok (SeriesId.ofType "a").hash := by
  intro zeros
  obtain ⟨_, hdetails, hread, hrefused⟩ := seriesHash_exact
  refine ⟨(hread _ _).2 ?_, hrefused _ (2 ^ 64) ?_ (Nat.le_refl _),
    hdetails _ _ (List.mem_cons_of_mem _ List.mem_cons_self)⟩
  · have hchars : ("0X+" ++ zeros ++ "1fF").toList =
        '0' :: 'X' :: '+' :: (List.replicate 20 '0' ++ ['1', 'f', 'F']) := by
      simp [zeros]
    have hspells : Spells 16 ['1', 'f', 'F'] 511 := ⟨[1, 15, 15], by decide, by simp [Nat.ofDigits]⟩
    rw [hchars]
    exact .hexadecimal (.inr rfl) (.signed (by simp) (hspells.zeros (by decide) 20))
  · have hchars : ("0x" ++ zeros ++ "10000000000000000").toList =
        '0' :: 'x' :: (List.replicate 20 '0' ++ '1' :: List.replicate 16 '0') := by
      simp [zeros]
    have hspells : Spells 16 ('1' :: List.replicate 16 '0') (2 ^ 64) :=
      ⟨1 :: List.replicate 16 0, by decide, by simp [Nat.ofDigits]⟩
    rw [hchars]
    exact .hexadecimal (.inl rfl) (.plain (by simp) (hspells.zeros (by decide) 20))

end SeriesLog.Cli
