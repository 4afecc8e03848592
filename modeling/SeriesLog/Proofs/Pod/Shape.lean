import Mathlib.Algebra.BigOperators.Group.List.Basic
import Mathlib.Data.List.Infix
import SeriesLog.Pod.Shape

/-! # The size of a sample

The elements of a sample are counted by multiplying up its dimensions, and the first partial product
that does not fit into 64 bits ends the count. Where the whole product fits, so do all partial ones,
unless a dimension of zero comes behind one that does not. -/
namespace SeriesLog.Pod

def volume (dimensions : List UInt32) : Nat := (dimensions.map UInt32.toNat).prod

theorem volume_cons (d : UInt32) (rest : List UInt32) :
    volume (d :: rest) = d.toNat * volume rest := List.prod_cons

theorem volume_append (before after : List UInt32) :
    volume (before ++ after) = volume before * volume after := by
  rw [volume, List.map_append, List.prod_append]
  rfl

theorem volume_perm {dimensions others : List UInt32} (h : dimensions.Perm others) :
    volume dimensions = volume others :=
  (h.map UInt32.toNat).prod_eq

theorem volume_eq_zero_iff {dimensions : List UInt32} :
    volume dimensions = 0 ↔ 0 ∈ dimensions := by
  induction dimensions with
  | nil => simp [volume]
  | cons d rest ih =>
    rw [volume_cons, Nat.mul_eq_zero, ih, List.mem_cons, eq_comm (a := (0 : UInt32)),
      ← UInt32.toNat_inj]
    rfl

theorem Shape.boundedMul_eq_some {m n p : Nat} :
    boundedMul m n = some p ↔ p = m * n ∧ m * n < 2 ^ 64 := by
  unfold boundedMul
  split
  · next hfits =>
    rw [Option.some.injEq, eq_comm]
    exact (and_iff_left hfits).symm
  · next hlarge => exact iff_of_false nofun fun h => hlarge h.2

theorem Shape.foldlM_boundedMul {dimensions : List UInt32} {m p : Nat} (hm : m < 2 ^ 64) :
    dimensions.foldlM (fun product d => boundedMul product d.toNat) m = some p ↔
      p = m * volume dimensions ∧ ∀ before, before <+: dimensions → m * volume before < 2 ^ 64 := by
  induction dimensions generalizing m with
  | nil =>
    have hone : m * volume [] = m := Nat.mul_one m
    rw [List.foldlM_nil, Option.pure_def, Option.some.injEq, hone, eq_comm, iff_self_and]
    intro _ before hbefore
    rw [List.prefix_nil.1 hbefore, hone]
    exact hm
  | cons d rest ih =>
    have hcons : ∀ dimensions, m * d.toNat * volume dimensions = m * volume (d :: dimensions) := by
      intro dimensions
      rw [volume_cons, Nat.mul_assoc]
    rw [List.foldlM_cons, Option.bind_eq_bind, Option.bind_eq_some_iff]
    constructor
    · rintro ⟨product, hproduct, hrest⟩
      obtain ⟨rfl, hfits⟩ := boundedMul_eq_some.1 hproduct
      obtain ⟨rfl, hpartial⟩ := (ih hfits).1 hrest
      refine ⟨hcons rest, ?_⟩
      intro before hbefore
      rcases List.prefix_cons_iff.1 hbefore with rfl | ⟨behind, rfl, hbehind⟩
      · exact (Nat.mul_one m).symm ▸ hm
      · rw [← hcons]
        exact hpartial behind hbehind
    · rintro ⟨rfl, hpartial⟩
      have hfits : m * d.toNat < 2 ^ 64 := by
        have hfirst := hpartial [d] ((List.prefix_cons_inj d).2 List.nil_prefix)
        rwa [← hcons, volume, List.map_nil, List.prod_nil, Nat.mul_one] at hfirst
      refine ⟨m * d.toNat, boundedMul_eq_some.2 ⟨rfl, hfits⟩, (ih hfits).2 ⟨(hcons rest).symm, ?_⟩⟩
      intro before hbefore
      rw [hcons]
      exact hpartial _ ((List.prefix_cons_inj d).2 hbefore)

namespace Shape

variable {s t : Shape}

def elementCount (s : Shape) : Nat := volume s.dimensions

def byteCount (s : Shape) : Nat := s.elementCount * s.element.size

/-- Whether leading dimensions come to more elements than 64 bits can count, though there are none
because a later dimension is zero. -/
def Overshoots (s : Shape) : Prop :=
  0 ∈ s.dimensions ∧ ∃ before, before <+: s.dimensions ∧ 2 ^ 64 ≤ volume before

instance (s : Shape) : Decidable s.Overshoots :=
  decidable_of_iff (0 ∈ s.dimensions ∧ ∃ before ∈ s.dimensions.inits, 2 ^ 64 ≤ volume before)
    (by simp only [Overshoots, List.mem_inits])

theorem elementsPerSample_eq_some {n : Nat} :
    s.elementsPerSample = some n ↔
      n = s.elementCount ∧ ∀ before, before <+: s.dimensions → volume before < 2 ^ 64 := by
  have hfold := @foldlM_boundedMul s.dimensions 1 n (by decide)
  simp only [Nat.one_mul] at hfold
  exact hfold

theorem elementCount_eq_zero_iff : s.elementCount = 0 ↔ 0 ∈ s.dimensions := volume_eq_zero_iff

theorem partial_fits_iff :
    (∀ before, before <+: s.dimensions → volume before < 2 ^ 64) ↔
      s.elementCount < 2 ^ 64 ∧ ¬ s.Overshoots := by
  constructor
  · intro hpartial
    refine ⟨hpartial _ List.prefix_rfl, ?_⟩
    rintro ⟨_, before, hbefore, hlarge⟩
    exact absurd (hpartial before hbefore) (Nat.not_lt.2 hlarge)
  · rintro ⟨hwhole, hlate⟩ before hbefore
    by_contra hlarge
    have hlarge := Nat.le_of_not_lt hlarge
    refine hlate ⟨elementCount_eq_zero_iff.1 ?_, before, hbefore, hlarge⟩
    obtain ⟨after, hafter⟩ := hbefore
    rw [elementCount, ← hafter, volume_append] at hwhole ⊢
    -- a factor other than zero would keep the product as large as its first part
    rcases Nat.eq_zero_or_pos (volume after) with hzero | hpos
    · rw [hzero, Nat.mul_zero]
    · have := Nat.le_mul_of_pos_right (volume before) hpos
      omega

theorem elementsPerSample_eq_some_iff (h : ¬ s.Overshoots) {n : Nat} :
    s.elementsPerSample = some n ↔ n = s.elementCount ∧ s.elementCount < 2 ^ 64 := by
  rw [elementsPerSample_eq_some, partial_fits_iff, and_iff_left h]

theorem sampleSize_eq_some_iff (h : ¬ s.Overshoots) {n : Nat} :
    s.sampleSize = some n ↔ n = s.byteCount ∧ s.byteCount < 2 ^ 64 := by
  rw [sampleSize, Option.bind_eq_some_iff]
  constructor
  · rintro ⟨count, hcount, hsize⟩
    obtain ⟨rfl, _⟩ := (elementsPerSample_eq_some_iff h).1 hcount
    exact boundedMul_eq_some.1 hsize
  · rintro ⟨rfl, hfits⟩
    have hcount := Nat.lt_of_le_of_lt (Nat.le_mul_of_pos_right s.elementCount s.element.size_pos) hfits
    exact ⟨s.elementCount, (elementsPerSample_eq_some_iff h).2 ⟨rfl, hcount⟩,
      boundedMul_eq_some.2 ⟨rfl, hfits⟩⟩

theorem sampleSize_isSome_iff (h : ¬ s.Overshoots) :
    s.sampleSize.isSome ↔ s.byteCount < 2 ^ 64 := by
  rw [Option.isSome_iff_exists]
  constructor
  · rintro ⟨n, hn⟩
    exact ((sampleSize_eq_some_iff h).1 hn).2
  · intro hfits
    exact ⟨_, (sampleSize_eq_some_iff h).2 ⟨rfl, hfits⟩⟩

/-- A zero that comes too late is not seen, though the sample has no bytes. -/
theorem Overshoots.uncounted (h : s.Overshoots) :
    s.elementsPerSample = none ∧ s.sampleSize = none ∧ s.elementCount = 0 ∧ s.byteCount = 0 := by
  have hnone : s.elementsPerSample = none := by
    rw [Option.eq_none_iff_forall_ne_some]
    intro n hn
    exact (partial_fits_iff.1 (elementsPerSample_eq_some.1 hn).2).2 h
  have hzero := elementCount_eq_zero_iff.2 h.1
  refine ⟨hnone, ?_, hzero, ?_⟩
  · rw [sampleSize, hnone, Option.bind_none]
  · rw [byteCount, hzero, Nat.zero_mul]

/-- The same type and dimensions, these in any order. -/
structure Reordered (s t : Shape) : Prop where
  element : t.element = s.element
  dimensions : t.dimensions.Perm s.dimensions

theorem Reordered.sizes (h : Reordered s t) (hs : ¬ s.Overshoots) (ht : ¬ t.Overshoots) :
    t.elementsPerSample = s.elementsPerSample ∧ t.sampleSize = s.sampleSize := by
  have hcount : t.elementCount = s.elementCount := volume_perm h.dimensions
  have hbytes : t.byteCount = s.byteCount := by rw [byteCount, byteCount, hcount, h.element]
  constructor
  · apply Option.ext
    intro n
    rw [elementsPerSample_eq_some_iff ht, elementsPerSample_eq_some_iff hs, hcount]
  · apply Option.ext
    intro n
    rw [sampleSize_eq_some_iff ht, sampleSize_eq_some_iff hs, hbytes]

end Shape

end SeriesLog.Pod
