import Mathlib.Data.List.Forall2
import Mathlib.Data.Nat.Digits.Defs
import SeriesLog.Proofs.Text.Digits

/-! # Numerals

Digits of either case spell a number, the highest digit first. A number below a bound is read from a
text exactly if the text spells it, behind a plus sign or not. A number that reaches the bound is
refused: no further digit brings it below the bound again. -/
namespace SeriesLog

variable {base bound n value : Nat} {text : List Char} {digits : List Nat}

def IsDigit (base : Nat) (c : Char) (digit : Nat) : Prop :=
  digit < base ∧ (c = digit.digitChar ∨ c = digit.digitChar.toUpper)

instance (base : Nat) (c : Char) (digit : Nat) : Decidable (IsDigit base c digit) :=
  inferInstanceAs (Decidable (_ < _ ∧ (_ = _ ∨ _ = _)))

theorem hexValue?_toUpper_digitChar (h : n < 16) : hexValue? n.digitChar.toUpper = some n := by
  have hall : ∀ m : Fin 16, hexValue? (Nat.digitChar m).toUpper = some m.val := by decide
  exact hall ⟨n, h⟩

theorem eq_ofNat_of_between {first last c : Char} (h : first ≤ c ∧ c ≤ last) :
    c.toNat - first.toNat ≤ last.toNat - first.toNat ∧
      c = Char.ofNat (c.toNat - first.toNat + first.toNat) := by
  have hfirst : first.toNat ≤ c.toNat := UInt32.le_iff_toNat_le.1 h.1
  have hlast : c.toNat ≤ last.toNat := UInt32.le_iff_toNat_le.1 h.2
  rw [Nat.sub_add_cancel hfirst, Char.ofNat_toNat]
  exact ⟨by omega, rfl⟩

theorem eq_digitChar_of_hexValue? {c : Char} (h : hexValue? c = some n) :
    c = n.digitChar ∨ c = n.digitChar.toUpper := by
  have hdecimal : ∀ m : Fin 10, Char.ofNat (m.val + '0'.toNat) = Nat.digitChar m := by decide
  have hlower : ∀ m : Fin 6, Char.ofNat (m.val + 'a'.toNat) = Nat.digitChar (m.val + 10) := by
    decide
  have hupper : ∀ m : Fin 6, Char.ofNat (m.val + 'A'.toNat) =
      (Nat.digitChar (m.val + 10)).toUpper := by decide
  unfold hexValue? at h
  split at h
  · next hbetween =>
    obtain ⟨hle, hc⟩ := eq_ofNat_of_between hbetween
    rw [Option.some.inj h] at hle hc
    exact .inl (hc.trans (hdecimal ⟨n, Nat.lt_succ_of_le hle⟩))
  split at h
  · next hbetween =>
    obtain ⟨hle, hc⟩ := eq_ofNat_of_between hbetween
    rw [← Option.some.inj h]
    exact .inl (hc.trans (hlower ⟨_, Nat.lt_succ_of_le hle⟩))
  split at h
  · next hbetween =>
    obtain ⟨hle, hc⟩ := eq_ofNat_of_between hbetween
    rw [← Option.some.inj h]
    exact .inr (hc.trans (hupper ⟨_, Nat.lt_succ_of_le hle⟩))
  · cases h

theorem digitValue?_eq_some_iff (hbase : base ≤ 16) {c : Char} {digit : Nat} :
    digitValue? base c = some digit ↔ IsDigit base c digit := by
  constructor
  · intro h
    obtain ⟨m, hm, hlt⟩ := Option.bind_eq_some_iff.1 h
    rw [Option.ite_none_right_eq_some, Option.some.injEq] at hlt
    obtain ⟨hlt, rfl⟩ := hlt
    exact ⟨hlt, eq_digitChar_of_hexValue? hm⟩
  · rintro ⟨hlt, rfl | rfl⟩
    · exact digitValue?_digitChar hbase hlt
    · rw [digitValue?, hexValue?_toUpper_digitChar (Nat.lt_of_lt_of_le hlt hbase),
        Option.bind_some, if_pos hlt]

def extended (base : Nat) : (value : Nat) → (digits : List Nat) → Nat :=
  List.foldl fun value digit => value * base + digit

theorem extended_zero (base : Nat) (digits : List Nat) :
    extended base 0 digits = Nat.ofDigits base digits.reverse := by
  rw [Nat.ofDigits_eq_foldr, List.foldr_reverse, extended]
  congr 1
  funext value digit
  rw [Nat.cast_id, Nat.mul_comm, Nat.add_comm]

theorem le_extended (hbase : 0 < base) (value : Nat) (digits : List Nat) :
    value ≤ extended base value digits := by
  induction digits generalizing value with
  | nil => exact Nat.le_refl value
  | cons digit rest ih =>
    calc value
        ≤ value * base + digit := Nat.le_add_right_of_le (Nat.le_mul_of_pos_right value hbase)
      _ ≤ extended base value (digit :: rest) := ih _

theorem readDigits_eq (hpos : 0 < base) (hbase : base ≤ 16)
    (h : List.Forall₂ (IsDigit base) text digits) (hvalue : value < bound) :
    readDigits base bound value text =
      if extended base value digits < bound then .ok (extended base value digits)
      else .error .tooLarge := by
  -- What is read so far is below the bound; a digit that takes it to the bound decides the whole.
  induction h generalizing value with
  | nil => exact (if_pos hvalue).symm
  | @cons c digit text digits hdigit _ ih =>
    rw [readDigits, (digitValue?_eq_some_iff hbase).2 hdigit]
    dsimp only
    split
    · next hnext => exact ih hnext
    · next hreached =>
      have hle := le_extended hpos (value * base + digit) digits
      exact (if_neg fun hlt => hreached (Nat.lt_of_le_of_lt hle hlt)).symm

theorem exists_digits_of_readDigits (hbase : base ≤ 16)
    (h : readDigits base bound value text = .ok n) :
    ∃ digits, List.Forall₂ (IsDigit base) text digits := by
  induction text generalizing value with
  | nil => exact ⟨[], .nil⟩
  | cons c rest ih =>
    rw [readDigits] at h
    split at h
    · cases h
    next digit hdigit =>
    dsimp only at h
    split at h
    · obtain ⟨digits, hdigits⟩ := ih h
      exact ⟨digit :: digits, .cons ((digitValue?_eq_some_iff hbase).1 hdigit) hdigits⟩
    · cases h

/-- Whether the digits of a text are those of a number, highest first. -/
def Spells (base : Nat) (text : List Char) (n : Nat) : Prop :=
  ∃ digits, List.Forall₂ (IsDigit base) text digits ∧ Nat.ofDigits base digits.reverse = n

theorem readDigits_of_spells (hpos : 0 < base) (hbase : base ≤ 16) (hbound : 0 < bound)
    (h : Spells base text n) :
    readDigits base bound 0 text = if n < bound then .ok n else .error .tooLarge := by
  obtain ⟨digits, hdigits, rfl⟩ := h
  rw [readDigits_eq hpos hbase hdigits hbound, extended_zero]

theorem spells_of_readDigits (hpos : 0 < base) (hbase : base ≤ 16) (hbound : 0 < bound)
    (h : readDigits base bound 0 text = .ok n) : Spells base text n ∧ n < bound := by
  obtain ⟨digits, hdigits⟩ := exists_digits_of_readDigits hbase h
  rw [readDigits_eq hpos hbase hdigits hbound, extended_zero] at h
  split at h
  · next hlt =>
    cases h
    exact ⟨⟨digits, hdigits, rfl⟩, hlt⟩
  · cases h

theorem spells_toDigits (hone : 1 < base) (hbase : base ≤ 16) (n : Nat) :
    Spells base (Nat.toDigits base n) n :=
  (spells_of_readDigits (by omega) hbase (Nat.succ_pos n)
    (readDigits_toDigits hone hbase (Nat.lt_succ_self n))).1

/-- Zeros in front do not change a number. -/
theorem Spells.zeros (hpos : 0 < base) (h : Spells base text n) (count : Nat) :
    Spells base (List.replicate count '0' ++ text) n := by
  induction count with
  | zero => exact h
  | succ count ih =>
    obtain ⟨digits, hdigits, hvalue⟩ := ih
    refine ⟨0 :: digits, .cons ⟨hpos, .inl rfl⟩ hdigits, ?_⟩
    rw [List.reverse_cons, Nat.ofDigits_append, hvalue, Nat.ofDigits_singleton, Nat.mul_zero,
      Nat.add_zero]

/-- Digits, at least one, behind a plus sign or not. -/
inductive Numeral (base : Nat) : List Char → Nat → Prop where
  | plain {text : List Char} {n : Nat} : text ≠ [] → Spells base text n → Numeral base text n
  | signed {text : List Char} {n : Nat} : text ≠ [] → Spells base text n →
      Numeral base ('+' :: text) n

theorem Spells.isDigit_of_mem (h : Spells base text n) {c : Char} (hc : c ∈ text) :
    ∃ digit, IsDigit base c digit := by
  obtain ⟨digits, hdigits, hvalue⟩ := h
  clear hvalue
  induction hdigits with
  | nil => cases hc
  | cons hdigit _ ih =>
    rcases List.mem_cons.1 hc with rfl | hc
    · exact ⟨_, hdigit⟩
    · exact ih hc

theorem not_isDigit_plus (hbase : base ≤ 16) (digit : Nat) : ¬ IsDigit base '+' digit := by
  rw [← digitValue?_eq_some_iff hbase]
  exact nofun

theorem readUnsigned_plus (base bound : Nat) (hne : text ≠ []) :
    readUnsigned base bound ('+' :: text) = readDigits base bound 0 text := by
  cases text with
  | nil => exact absurd rfl hne
  | cons c rest => rfl

theorem readUnsigned_of_spells (hbase : base ≤ 16) (hne : text ≠ []) (h : Spells base text n) :
    readUnsigned base bound text = readDigits base bound 0 text := by
  cases text with
  | nil => exact absurd rfl hne
  | cons c rest =>
    obtain ⟨digit, hdigit⟩ := h.isDigit_of_mem List.mem_cons_self
    unfold readUnsigned
    split
    · next heq => cases heq
    · next heq =>
      cases heq
      exact absurd hdigit (not_isDigit_plus hbase digit)
    · next heq =>
      cases heq
      exact absurd hdigit (not_isDigit_plus hbase digit)
    · rfl

theorem readUnsigned_of_numeral (hpos : 0 < base) (hbase : base ≤ 16) (hbound : 0 < bound)
    (h : Numeral base text n) :
    readUnsigned base bound text = if n < bound then .ok n else .error .tooLarge := by
  cases h with
  | plain hne hspells =>
    rw [readUnsigned_of_spells hbase hne hspells, readDigits_of_spells hpos hbase hbound hspells]
  | signed hne hspells =>
    rw [readUnsigned_plus base bound hne, readDigits_of_spells hpos hbase hbound hspells]

theorem numeral_of_readUnsigned (hpos : 0 < base) (hbase : base ≤ 16) (hbound : 0 < bound)
    (h : readUnsigned base bound text = .ok n) : Numeral base text n ∧ n < bound := by
  unfold readUnsigned at h
  split at h
  · cases h
  · cases h
  · next digits hplus =>
    obtain ⟨hspells, hlt⟩ := spells_of_readDigits hpos hbase hbound h
    exact ⟨.signed (fun hnil => hplus (hnil ▸ rfl)) hspells, hlt⟩
  · next hne _ _ =>
    obtain ⟨hspells, hlt⟩ := spells_of_readDigits hpos hbase hbound h
    exact ⟨.plain hne hspells, hlt⟩

end SeriesLog
