import SeriesLog.Text.Unsigned

/-! # Digits read back

A number is printed in digits of a base up to sixteen and read back digit by digit, so no two
numbers have the same digits. -/
namespace SeriesLog

variable {base bound n : Nat}

theorem hexValue?_digitChar (h : n < 16) : hexValue? n.digitChar = some n := by
  have hall : ∀ m : Fin 16, hexValue? (Nat.digitChar m) = some m.val := by decide
  exact hall ⟨n, h⟩

theorem digitValue?_digitChar (hbase : base ≤ 16) (h : n < base) :
    digitValue? base n.digitChar = some n := by
  rw [digitValue?, hexValue?_digitChar (Nat.lt_of_lt_of_le h hbase), Option.bind_some, if_pos h]

theorem digitValue?_of_mem_toDigits (hone : 1 < base) (hbase : base ≤ 16) {c : Char}
    (h : c ∈ Nat.toDigits base n) : ∃ digit, digitValue? base c = some digit := by
  induction n using Nat.strongRecOn with
  | ind n ih =>
    rw [Nat.toDigits_eq_if hone] at h
    split at h
    · next hlt =>
      rw [List.mem_singleton.1 h]
      exact ⟨n, digitValue?_digitChar hbase hlt⟩
    · next hge =>
      rcases List.mem_append.1 h with h | h
      · exact ih (n / base) (Nat.div_lt_self (by omega) hone) h
      · rw [List.mem_singleton.1 h]
        exact ⟨n % base, digitValue?_digitChar hbase (Nat.mod_lt _ (by omega))⟩

theorem readDigits_append (base bound value : Nat) (front back : List Char) :
    readDigits base bound value (front ++ back) =
      (readDigits base bound value front).bind fun next => readDigits base bound next back := by
  induction front generalizing value with
  | nil => rfl
  | cons c rest ih =>
    rw [List.cons_append, readDigits, readDigits]
    cases digitValue? base c with
    | none => rfl
    | some digit =>
      dsimp only
      split
      · exact ih _
      · rfl

theorem readDigits_singleton {value digit : Nat} {c : Char} (hdigit : digitValue? base c = some digit)
    (h : value * base + digit < bound) :
    readDigits base bound value [c] = .ok (value * base + digit) := by
  rw [readDigits, hdigit]
  dsimp only
  rw [if_pos h, readDigits]

theorem readDigits_toDigits (hone : 1 < base) (hbase : base ≤ 16) (h : n < bound) :
    readDigits base bound 0 (Nat.toDigits base n) = .ok n := by
  induction n using Nat.strongRecOn with
  | ind n ih =>
    rw [Nat.toDigits_eq_if hone]
    split
    · next hlt =>
      have hvalue : 0 * base + n = n := by omega
      rw [readDigits_singleton (digitValue?_digitChar hbase hlt) (hvalue.symm ▸ h), hvalue]
    · next hge =>
      have hless : n / base < n := Nat.div_lt_self (by omega) hone
      have hlast := digitValue?_digitChar hbase (Nat.mod_lt n (by omega : base > 0))
      have hvalue : n / base * base + n % base = n := Nat.div_add_mod' n base
      rw [readDigits_append, ih (n / base) hless (Nat.lt_trans hless h)]
      exact (readDigits_singleton hlast (hvalue.symm ▸ h)).trans (congrArg _ hvalue)

theorem toDigits_inj (hone : 1 < base) (hbase : base ≤ 16) {m : Nat}
    (h : Nat.toDigits base m = Nat.toDigits base n) : m = n := by
  have hm := readDigits_toDigits hone hbase (show m < m + n + 1 by omega)
  rw [h, readDigits_toDigits hone hbase (show n < m + n + 1 by omega)] at hm
  exact (Except.ok.inj hm).symm

end SeriesLog
