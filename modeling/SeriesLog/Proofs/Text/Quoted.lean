import SeriesLog.Proofs.Text.Digits
import SeriesLog.Text.Quoted

/-! # Escapes are told apart

A quoted text is a sequence of code words, one for each character: the character itself, a letter
behind a backslash, or its code point in braces. No code word begins another one, so the characters
can be read off from the front, and no two texts are quoted alike. -/
namespace SeriesLog

/-- A code whose first word can be told from any text that it begins. -/
structure PrefixCode {α β : Type} (word : α → List β) : Prop where
  ne_nil : ∀ a, word a ≠ []
  first : ∀ {a b : α} {s t : List β}, word a ++ s = word b ++ t → a = b

theorem PrefixCode.flatMap_inj {α β : Type} {word : α → List β} (h : PrefixCode word)
    {as bs : List α} (heq : as.flatMap word = bs.flatMap word) : as = bs := by
  induction as generalizing bs with
  | nil =>
    cases bs with
    | nil => rfl
    | cons b rest =>
      rw [List.flatMap_nil, List.flatMap_cons] at heq
      exact absurd (List.append_eq_nil_iff.1 heq.symm).1 (h.ne_nil b)
  | cons a as ih =>
    cases bs with
    | nil =>
      rw [List.flatMap_nil, List.flatMap_cons] at heq
      exact absurd (List.append_eq_nil_iff.1 heq).1 (h.ne_nil a)
    | cons b bs =>
      rw [List.flatMap_cons, List.flatMap_cons] at heq
      obtain rfl := h.first heq
      rw [ih (List.append_cancel_left heq)]

theorem length_le_length_flatMap {α β : Type} {word : α → List β} (h : ∀ a, word a ≠ [])
    (as : List α) : as.length ≤ (as.flatMap word).length := by
  induction as with
  | nil => exact Nat.zero_le _
  | cons a rest ih =>
    have := List.length_pos_iff.2 (h a)
    rw [List.flatMap_cons, List.length_append, List.length_cons]
    omega

theorem length_flatMap_le {α β : Type} {word : α → List β} {longest : Nat}
    (h : ∀ a, (word a).length ≤ longest) (as : List α) :
    (as.flatMap word).length ≤ longest * as.length := by
  induction as with
  | nil => exact Nat.zero_le _
  | cons a rest ih =>
    have := h a
    rw [List.flatMap_cons, List.length_append, List.length_cons, Nat.mul_succ]
    omega

def letterEscapes : List (Char × Char) :=
  [('\x00', '0'), ('\t', 't'), ('\r', 'r'), ('\n', 'n'), ('"', '"'), ('\\', '\\')]

/-- The forms in which characters are quoted. -/
inductive QuotedAs (c : Char) : List Char → Prop where
  | plain : c ≠ '\\' → QuotedAs c [c]
  | letter {l : Char} : (c, l) ∈ letterEscapes → QuotedAs c ['\\', l]
  | point : QuotedAs c (escapePoint c)

theorem quotedAs_quoteChar (c : Char) : QuotedAs c (quoteChar c) := by
  unfold quoteChar
  split
  · next h => exact .letter (by simp [h, letterEscapes])
  split
  · next h => exact .letter (by simp [h, letterEscapes])
  split
  · next h => exact .letter (by simp [h, letterEscapes])
  split
  · next h => exact .letter (by simp [h, letterEscapes])
  split
  · next h => exact .letter (by simp [h, letterEscapes])
  split
  · next h => exact .letter (by simp [h, letterEscapes])
  next hplain =>
  split
  · exact .point
  · exact .plain hplain

theorem letterEscapes_unique {c d l : Char} (hc : (c, l) ∈ letterEscapes)
    (hd : (d, l) ∈ letterEscapes) : c = d := by
  have hall : ∀ p ∈ letterEscapes, ∀ q ∈ letterEscapes, p.2 = q.2 → p.1 = q.1 := by decide
  exact hall _ hc _ hd rfl

theorem ne_u_of_mem_letterEscapes {c l : Char} (h : (c, l) ∈ letterEscapes) : l ≠ 'u' := by
  have hall : ∀ p ∈ letterEscapes, p.2 ≠ 'u' := by decide
  exact hall _ h

theorem append_cons_inj {front other back rest : List Char} {stop : Char}
    (h : front ++ stop :: back = other ++ stop :: rest) (hfront : stop ∉ front)
    (hother : stop ∉ other) : front = other := by
  induction front generalizing other with
  | nil =>
    cases other with
    | nil => rfl
    | cons c other =>
      obtain ⟨rfl, _⟩ := List.cons.inj h
      exact absurd List.mem_cons_self hother
  | cons c front ih =>
    cases other with
    | nil =>
      obtain ⟨rfl, _⟩ := List.cons.inj h
      exact absurd List.mem_cons_self hfront
    | cons d other =>
      obtain ⟨rfl, htail⟩ := List.cons.inj h
      rw [ih htail (List.not_mem_of_not_mem_cons hfront) (List.not_mem_of_not_mem_cons hother)]

theorem brace_notMem_toDigits (n : Nat) : '\x7d' ∉ Nat.toDigits 16 n := by
  intro h
  obtain ⟨digit, hdigit⟩ := digitValue?_of_mem_toDigits (by decide) (by decide) h
  have hnone : digitValue? 16 '\x7d' = none := by decide
  rw [hnone] at hdigit
  cases hdigit

theorem escapePoint_first {c d : Char} {s t : List Char}
    (h : escapePoint c ++ s = escapePoint d ++ t) : c = d := by
  simp only [escapePoint, List.cons_append, List.append_assoc, List.nil_append, List.cons.injEq,
    true_and] at h
  have hdigits := append_cons_inj h (brace_notMem_toDigits _) (brace_notMem_toDigits _)
  exact Char.toNat_inj.1 (toDigits_inj (by decide) (by decide) hdigits)

/-- The longest code word is that of a code point with six digits. -/
theorem QuotedAs.length_le {c : Char} {word : List Char} (h : QuotedAs c word) :
    word.length ≤ 10 := by
  cases h with
  | plain => simp
  | letter => simp
  | point =>
    have hpoint : c.toNat < 16 ^ 6 := by
      rcases c.valid with h | h <;> simp only [Char.toNat_val] at h <;> omega
    have hdigits := (Nat.length_toDigits_le_iff (by decide) (by decide)).2 hpoint
    simp only [escapePoint, List.length_cons, List.length_append, List.length_nil]
    omega

theorem QuotedAs.ne_nil {c : Char} {word : List Char} (h : QuotedAs c word) : word ≠ [] := by
  cases h <;> exact List.cons_ne_nil _ _

theorem QuotedAs.first {c d : Char} {front other s t : List Char} (hc : QuotedAs c front)
    (hd : QuotedAs d other) (h : front ++ s = other ++ t) : c = d := by
  have hhead : (front ++ s)[0]? = (other ++ t)[0]? := by rw [h]
  have hnext : (front ++ s)[1]? = (other ++ t)[1]? := by rw [h]
  cases hc with
  | plain hplain =>
    cases hd with
    | plain => exact Option.some.inj hhead
    | letter => exact absurd (Option.some.inj hhead) hplain
    | point => exact absurd (Option.some.inj hhead) hplain
  | letter hletter =>
    cases hd with
    | plain hplain => exact absurd (Option.some.inj hhead).symm hplain
    | letter hother =>
      obtain rfl := Option.some.inj hnext
      exact letterEscapes_unique hletter hother
    | point => exact absurd (Option.some.inj hnext) (ne_u_of_mem_letterEscapes hletter)
  | point =>
    cases hd with
    | plain hplain => exact absurd (Option.some.inj hhead).symm hplain
    | letter hletter => exact absurd (Option.some.inj hnext).symm (ne_u_of_mem_letterEscapes hletter)
    | point => exact escapePoint_first h

theorem quoteChar_prefixCode : PrefixCode quoteChar where
  ne_nil c := (quotedAs_quoteChar c).ne_nil
  first h := (quotedAs_quoteChar _).first (quotedAs_quoteChar _) h

theorem length_quoted_le (s : String) : (quoted s).length ≤ 10 * s.length + 2 := by
  have hbody := length_flatMap_le (fun c => (quotedAs_quoteChar c).length_le) s.toList
  rw [String.length_toList] at hbody
  rw [quoted, String.length_ofList, List.length_cons, List.length_append, List.length_singleton]
  omega

theorem quoted_inj {s t : String} (h : quoted s = quoted t) : s = t := by
  have hchars := congrArg String.toList h
  simp only [quoted, String.toList_ofList, List.cons.injEq, true_and] at hchars
  exact String.toList_inj.1 (quoteChar_prefixCode.flatMap_inj (List.append_cancel_right hchars))

end SeriesLog
