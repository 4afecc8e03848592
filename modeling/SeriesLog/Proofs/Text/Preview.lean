import Mathlib.Algebra.Ring.Nat
import SeriesLog.Proofs.Text.Quoted
import SeriesLog.Text.Preview

/-! # What a preview tells of a payload

A preview that is not cut tells the payload: quoted text is told from hexadecimal by its first
character, and neither form shows two payloads alike. A preview that is cut is the beginning of the
whole one and three dots. -/
namespace SeriesLog

theorem hexDigit_inj {m n : Nat} (hm : m < 16) (hn : n < 16) (h : hexDigit m = hexDigit n) :
    m = n := by
  have hvalue := congrArg hexValue? h
  rw [hexDigit, hexDigit, Nat.mod_eq_of_lt hm, Nat.mod_eq_of_lt hn, hexValue?_digitChar hm,
    hexValue?_digitChar hn] at hvalue
  exact Option.some.inj hvalue

theorem hexDigits_prefixCode :
    PrefixCode fun b : UInt8 => [hexDigit (b.toNat / 16), hexDigit b.toNat] where
  ne_nil _ := List.cons_ne_nil _ _
  first := by
    intro a b s t h
    simp only [List.cons_append, List.nil_append, List.cons.injEq] at h
    obtain ⟨hhigh, hlow, _⟩ := h
    have ha := a.toNat_lt
    have hb := b.toNat_lt
    have hhigh := hexDigit_inj (by omega) (by omega) hhigh
    have hlow : a.toNat % 16 = b.toNat % 16 := by
      apply hexDigit_inj (Nat.mod_lt _ (by decide)) (Nat.mod_lt _ (by decide))
      simpa only [hexDigit, Nat.mod_mod] using hlow
    apply UInt8.toNat_inj.1
    omega

theorem hexChars_inj {p q : Bytes} (h : p.hexChars = q.hexChars) : p = q :=
  hexDigits_prefixCode.flatMap_inj h

theorem length_hexChars_le (p : Bytes) : p.hexChars.length ≤ 2 * p.length := by
  unfold Bytes.hexChars
  exact length_flatMap_le (fun _ => Nat.le_refl 2) p

theorem length_le_length_utf8 (s : String) : s.length ≤ (utf8 s).length := by
  have hpos : ∀ c : Char, String.utf8EncodeChar c ≠ [] := by
    intro c
    rw [← List.length_pos_iff, String.length_utf8EncodeChar]
    exact c.utf8Size_pos
  rw [utf8_eq_flatMap, ← String.length_toList]
  exact length_le_length_flatMap hpos _

theorem payloadText_cases (p : Bytes) :
    (∃ s, p = utf8 s ∧ payloadText p = quoted s) ∨ payloadText p = "0x" ++ p.hex := by
  unfold payloadText
  cases htext : ofUtf8? p with
  | none => exact .inr rfl
  | some s =>
    dsimp only
    split
    · exact .inl ⟨s, eq_utf8_of_ofUtf8? htext, rfl⟩
    · exact .inr rfl

theorem quoted_ne_hex (s : String) (p : Bytes) : quoted s ≠ "0x" ++ p.hex := by
  intro h
  have hchars := congrArg String.toList h
  simp [quoted, String.toList_append] at hchars

theorem payloadText_inj {p q : Bytes} (h : payloadText p = payloadText q) : p = q := by
  rcases payloadText_cases p with ⟨s, rfl, hp⟩ | hp
  · rcases payloadText_cases q with ⟨t, rfl, hq⟩ | hq
    · rw [hp, hq] at h
      rw [quoted_inj h]
    · rw [hp, hq] at h
      exact absurd h (quoted_ne_hex s q)
  · rcases payloadText_cases q with ⟨t, rfl, hq⟩ | hq
    · rw [hp, hq] at h
      exact absurd h.symm (quoted_ne_hex t p)
    · rw [hp, hq] at h
      have hchars := congrArg String.toList h
      rw [String.toList_append, String.toList_append] at hchars
      have hhex := List.append_cancel_left hchars
      rw [Bytes.hex, Bytes.hex, String.toList_ofList, String.toList_ofList] at hhex
      exact hexChars_inj hhex

theorem length_payloadText_le (p : Bytes) : (payloadText p).length ≤ 10 * p.length + 2 := by
  rcases payloadText_cases p with ⟨s, rfl, hp⟩ | hp
  · have hquoted := length_quoted_le s
    have hchars := length_le_length_utf8 s
    rw [hp]
    omega
  · have hdigits := length_hexChars_le p
    have hlength : (payloadText p).length = 2 + p.hexChars.length := by
      rw [hp, Bytes.hex, String.length_append, String.length_ofList, String.length_ofList]
      rfl
    omega

theorem shortened_of_le {limit : Nat} {s : String} (h : s.length ≤ limit) :
    shortened limit s = s :=
  if_neg (Nat.not_lt.2 h)

theorem toList_shortened {limit : Nat} {s : String} (h : limit < s.length) :
    (shortened limit s).toList = s.toList.take (limit - 3) ++ ['.', '.', '.'] := by
  rw [shortened, if_pos h, String.toList_append, String.toList_ofList]
  rfl

theorem shortened_shortened {limit wide : Nat} (hthree : 3 ≤ limit) (hle : limit ≤ wide)
    (s : String) : shortened limit (shortened wide s) = shortened limit s := by
  by_cases hfits : s.length ≤ wide
  · rw [shortened_of_le hfits]
  have hlong := Nat.lt_of_not_le hfits
  have hchars := toList_shortened hlong
  have hkept : (s.toList.take (wide - 3)).length = wide - 3 := by
    rw [List.length_take, String.length_toList]
    omega
  have hlength : (shortened wide s).length = wide := by
    rw [← String.length_toList, hchars, List.length_append, hkept]
    simp only [List.length_cons, List.length_nil]
    omega
  rcases Nat.eq_or_lt_of_le hle with rfl | hless
  · exact shortened_of_le (Nat.le_of_eq hlength)
  · rw [← String.toList_inj, toList_shortened (hlength.symm ▸ hless),
      toList_shortened (Nat.lt_trans hless hlong), hchars, List.take_append_of_le_length (by omega),
      List.take_take, Nat.min_eq_left (by omega)]

/-- Previews of two payloads without a cut differ, for the largest limit there is, too. A limit that
is smaller gives what fits into it of the whole preview, with three dots where there is more. -/
theorem preview_exact :
    (∀ p q : Bytes, p.length < 2 ^ 60 → q.length < 2 ^ 60 →
      payloadPreview (some (2 ^ 64 - 1)) p = payloadPreview (some (2 ^ 64 - 1)) q → p = q) ∧
    (∀ p : Bytes, p.length < 2 ^ 60 →
      payloadPreview (some (2 ^ 64 - 1)) p = payloadPreview none p) ∧
    ∀ (p : Bytes) (limit : Nat), 3 ≤ limit → limit ≤ 2 ^ 64 - 1 →
      let whole := payloadPreview (some (2 ^ 64 - 1)) p
      (payloadPreview (some limit) p).length ≤ limit ∧
        (whole.length ≤ limit → payloadPreview (some limit) p = whole) ∧
        (limit < whole.length → (payloadPreview (some limit) p).toList =
          whole.toList.take (limit - 3) ++ ['.', '.', '.']) := by
  have hwhole : ∀ p : Bytes, p.length < 2 ^ 60 →
      payloadPreview (some (2 ^ 64 - 1)) p = payloadPreview none p := by
    intro p hp
    have hlength := length_payloadText_le p
    exact shortened_of_le (by omega)
  refine ⟨?_, hwhole, ?_⟩
  · intro p q hp hq h
    rw [hwhole p hp, hwhole q hq] at h
    exact payloadText_inj h
  · intro p limit hthree hle whole
    have hcut : payloadPreview (some limit) p = shortened limit whole :=
      (shortened_shortened hthree hle (payloadText p)).symm
    rw [hcut]
    exact ⟨length_shortened whole hthree, shortened_of_le, toList_shortened⟩

/-- A quote, a backslash, a character without a printed form and a letter, cut within an escape. -/
theorem preview_exact_escaped :
    let p : Bytes := [0x22, 0x5C, 0xE2, 0x80, 0x8B, 0x61]
    let q : Bytes := [0x22, 0x5C, 0xE2, 0x80, 0x8C, 0x61]
    payloadPreview (some (2 ^ 64 - 1)) p ≠ payloadPreview (some (2 ^ 64 - 1)) q ∧
      (payloadPreview (some (2 ^ 64 - 1)) p).length = 15 ∧
      (payloadPreview (some 10) p).toList =
        ['"', '\\', '"', '\\', '\\', '\\', 'u', '.', '.', '.'] := by
  intro p q
  have hwhole : (payloadPreview (some (2 ^ 64 - 1)) p).length = 15 ∧
      (payloadPreview (some (2 ^ 64 - 1)) p).toList.take 7 =
        ['"', '\\', '"', '\\', '\\', '\\', 'u'] := by decide +kernel
  obtain ⟨hlength, hfront⟩ := hwhole
  obtain ⟨htold, _, hcut⟩ := preview_exact
  refine ⟨?_, hlength, ?_⟩
  · intro h
    have hsame := htold p q (by decide) (by decide) h
    revert hsame
    decide
  · have hdots := (hcut p 10 (by decide) (by decide)).2.2 (by omega)
    rw [hfront] at hdots
    exact hdots

end SeriesLog
