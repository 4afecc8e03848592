import Mathlib.Algebra.Ring.Nat
import SeriesLog.Wire.Varint

/-! # Varints read back

The shortest encoding of a number below 2⁶⁴ takes at most ten bytes and reads back as the
number, whatever follows it. Larger numbers never have shorter encodings, and no number is read from
fewer bytes than its shortest encoding has. -/
namespace SeriesLog.Wire

theorem varint_of_lt {n : Nat} (h : n < 128) : varint n = [UInt8.ofNat n] := by
  rw [varint, if_pos h]

theorem varint_of_le {n : Nat} (h : 128 ≤ n) :
    varint n = UInt8.ofNat (n % 128 + 128) :: varint (n / 128) := by
  rw [varint, if_neg (by omega)]

theorem length_varint_pos (n : Nat) : 0 < (varint n).length := by
  by_cases h : n < 128
  · simp [varint_of_lt h]
  · simp [varint_of_le (Nat.not_lt.1 h)]

theorem varint_ne_nil (n : Nat) : varint n ≠ [] :=
  List.ne_nil_of_length_pos (length_varint_pos n)

theorem readVarintWithin_varint {room n : Nat} (h : n < 2 * 128 ^ room) (rest : Bytes) :
    readVarintWithin (room + 1) (varint n ++ rest) = some (n, rest) := by
  induction room generalizing n with
  | zero =>
    have hn : n < 128 := by omega
    have hb : (UInt8.ofNat n).toNat = n := by rw [UInt8.toNat_ofNat']; omega
    rw [varint_of_lt hn]
    simp only [List.cons_append, List.nil_append, readVarintWithin, hb]
    rw [if_pos hn, if_neg (by omega)]
  | succ room ih =>
    by_cases hn : n < 128
    · have hb : (UInt8.ofNat n).toNat = n := by rw [UInt8.toNat_ofNat']; omega
      rw [varint_of_lt hn]
      simp only [List.cons_append, List.nil_append, readVarintWithin, hb]
      rw [if_pos hn, if_neg (by omega)]
    · have hle : 128 ≤ n := Nat.not_lt.1 hn
      have hb : (UInt8.ofNat (n % 128 + 128)).toNat = n % 128 + 128 := by
        rw [UInt8.toNat_ofNat']; omega
      have hhigh : n / 128 < 2 * 128 ^ room := by
        rw [Nat.pow_succ] at h
        exact Nat.div_lt_of_lt_mul (by omega)
      rw [varint_of_le hle]
      simp only [List.cons_append]
      rw [readVarintWithin, hb, if_neg (by omega), ih hhigh]
      simp only [Option.some.injEq, Prod.mk.injEq, and_true]
      omega

theorem readVarint_varint {n : Nat} (h : n < 2 ^ 64) (rest : Bytes) :
    readVarint (varint n ++ rest) = some (n, rest) :=
  readVarintWithin_varint (by omega) rest

theorem length_varint_mono {m n : Nat} (h : m ≤ n) : (varint m).length ≤ (varint n).length := by
  induction n using Nat.strongRecOn generalizing m with
  | ind n ih =>
    by_cases hm : m < 128
    · rw [varint_of_lt hm]
      exact length_varint_pos n
    · have hn : 128 ≤ n := by omega
      have hrec := ih (n / 128) (by omega) (Nat.div_le_div_right (c := 128) h)
      simp only [varint_of_le (Nat.not_lt.1 hm), varint_of_le hn, List.length_cons]
      omega

theorem length_varint_le {room n : Nat} (h : n < 128 ^ (room + 1)) :
    (varint n).length ≤ room + 1 := by
  induction room generalizing n with
  | zero => simp [varint_of_lt (show n < 128 by omega)]
  | succ room ih =>
    by_cases hn : n < 128
    · simp [varint_of_lt hn]
    · have hhigh : n / 128 < 128 ^ (room + 1) := by
        rw [Nat.pow_succ] at h
        exact Nat.div_lt_of_lt_mul (by omega)
      have hrec := ih hhigh
      simp only [varint_of_le (Nat.not_lt.1 hn), List.length_cons]
      omega

theorem length_varint_add_mul {low high : Nat} (h : low < 128) :
    (varint (low + 128 * high)).length ≤ (varint high).length + 1 := by
  have hpos := length_varint_pos high
  by_cases hzero : low + 128 * high < 128
  · rw [varint_of_lt hzero, List.length_singleton]
    omega
  · have hdiv : (low + 128 * high) / 128 = high := by omega
    rw [varint_of_le (Nat.not_lt.1 hzero), List.length_cons, hdiv]

theorem length_varint_add (m n : Nat) :
    (varint (m + n)).length ≤ (varint m).length + (varint n).length := by
  -- the sum is at most twice the larger number, which takes one byte more at most
  have hdouble : ∀ k, (varint (k + k)).length ≤ (varint k).length + 1 := by
    intro k
    have hmono := length_varint_mono (show k + k ≤ 0 + 128 * k by omega)
    exact Nat.le_trans hmono (length_varint_add_mul (by decide))
  have hm := length_varint_pos m
  have hn := length_varint_pos n
  rcases Nat.le_total m n with h | h
  · have hmono := length_varint_mono (Nat.add_le_add_right h n)
    have := hdouble n
    omega
  · have hmono := length_varint_mono (Nat.add_le_add_left h m)
    have := hdouble m
    omega

theorem length_varint_le_of_readWithin {room n : Nat} {bytes rest : Bytes}
    (h : readVarintWithin room bytes = some (n, rest)) :
    (varint n).length + rest.length ≤ bytes.length := by
  induction room generalizing n bytes with
  | zero =>
    rw [readVarintWithin] at h
    cases h
  | succ room ih =>
    cases bytes with
    | nil =>
      rw [readVarintWithin] at h
      cases h
    | cons b tail =>
      rw [readVarintWithin] at h
      rw [List.length_cons]
      by_cases hlast : b.toNat < 128
      · rw [if_pos hlast] at h
        split at h
        · cases h
        · cases h
          rw [varint_of_lt hlast, List.length_singleton]
          omega
      · rw [if_neg hlast] at h
        split at h
        · next high after hhigh =>
          cases h
          have hb := b.toNat_lt
          have hlow := @length_varint_add_mul (b.toNat - 128) high (by omega)
          have hrest := ih hhigh
          omega
        · cases h

theorem length_varint_le_of_read {n : Nat} {bytes rest : Bytes}
    (h : readVarint bytes = some (n, rest)) : (varint n).length + rest.length ≤ bytes.length :=
  length_varint_le_of_readWithin h

end SeriesLog.Wire
