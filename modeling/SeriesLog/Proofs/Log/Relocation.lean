import SeriesLog.Proofs.Log.Counts

/-! # Relocation of journals

A journal may follow the opening of a log whatever annotations are in it. Other annotations move
the blocks, and so only the offsets in the table of series change. -/
namespace SeriesLog

open Wire

variable {offset other : Nat} {found moved : List SeriesState}

/-- What a table tells of a series, but for where its blocks lie. -/
def SeriesState.unplaced (s : SeriesState) : SeriesDescriptor × Nat × Nat :=
  (s.descriptor, s.nextPosition, s.recorded.length)

def Alike (found moved : List SeriesState) : Prop :=
  found.map SeriesState.unplaced = moved.map SeriesState.unplaced

theorem map_unplaced_record (found : List SeriesState) (i : Nat) (entry : IndexEntry) :
    (found.modify i fun s => s.record entry).map SeriesState.unplaced =
      (found.map SeriesState.unplaced).modify i fun u => (u.1, u.2.1 + 1, u.2.2 + 1) := by
  apply List.ext_getElem?
  intro j
  rw [List.getElem?_map, List.getElem?_modify, List.getElem?_modify, List.getElem?_map]
  cases found[j]? with
  | none => rfl
  | some s => by_cases hij : i = j <;> simp [hij, SeriesState.unplaced, SeriesState.record]

namespace Alike

theorem length_eq (h : Alike found moved) : found.length = moved.length := by
  have hlength := congrArg List.length h
  rwa [List.length_map, List.length_map] at hlength

theorem getElem? (h : Alike found moved) {i : Nat} {s : SeriesState} (hs : found[i]? = some s) :
    ∃ t, moved[i]? = some t ∧ t.descriptor = s.descriptor ∧ t.nextPosition = s.nextPosition := by
  have hi := congrArg (fun l => l[i]?) h
  simp only [List.getElem?_map, hs, Option.map_some] at hi
  obtain ⟨t, ht, hsame⟩ := Option.map_eq_some_iff.1 hi.symm
  rw [SeriesState.unplaced, SeriesState.unplaced, Prod.mk.injEq, Prod.mk.injEq] at hsame
  exact ⟨t, ht, hsame.1, hsame.2.1⟩

theorem mem_descriptor (h : Alike found moved) {t : SeriesState} (ht : t ∈ moved) :
    ∃ s ∈ found, s.descriptor = t.descriptor := by
  obtain ⟨i, hi⟩ := List.mem_iff_getElem?.1 ht
  obtain ⟨s, hs, hdescriptor, _⟩ := getElem? (show Alike moved found from h.symm) hi
  exact ⟨s, List.mem_of_getElem? hs, hdescriptor⟩

theorem admits (h : Alike found moved) {a : Addition} (ha : Admits found a) : Admits moved a := by
  cases ha with
  | series hfresh hrefusal =>
    rw [h.length_eq]
    refine .series ?_ hrefusal
    intro t ht
    obtain ⟨s, hs, hdescriptor⟩ := h.mem_descriptor ht
    rw [← hdescriptor]
    exact hfresh s hs
  | data hs harity hsize =>
    obtain ⟨t, ht, hdescriptor, hposition⟩ := h.getElem? hs
    rw [← hposition] at hsize ⊢
    rw [← hdescriptor] at harity
    exact .data ht harity hsize

theorem enter (h : Alike found moved) (a : Addition) :
    Alike (a.enter offset found) (a.enter other moved) := by
  cases a with
  | series d =>
    rw [Alike, Addition.enter, Addition.enter, List.map_append, List.map_append, h]
  | data d payload =>
    rw [Alike, Addition.enter, Addition.enter, map_unplaced_record, map_unplaced_record, h]

theorem track (h : Alike found moved) (journal : List Addition) :
    Alike (track offset found journal) (SeriesLog.track other moved journal) := by
  induction journal generalizing offset other found moved with
  | nil => exact h
  | cons a rest ih => exact ih (h.enter a)

theorem sound (h : Alike found moved) {journal : List Addition}
    (hsound : Sound offset found journal) : Sound other moved journal := by
  induction journal generalizing offset other found moved with
  | nil => trivial
  | cons a rest ih =>
    obtain ⟨ha, hle, hrest⟩ := hsound
    exact ⟨h.admits ha, hle, ih (h.enter a) hrest⟩

/-- Without data there is no index, wherever the log lies. -/
theorem blockCount (h : Alike found moved) :
    (found.flatMap fun s => s.recorded).length = (moved.flatMap fun s => s.recorded).length := by
  have hcounts := congrArg (List.map fun u => u.2.2) h
  rw [List.map_map, List.map_map] at hcounts
  rw [List.length_flatMap, List.length_flatMap]
  exact congrArg List.sum hcounts

end Alike

theorem indexWeight_le (s : SeriesState) : indexWeight s ≤ 48 * (indexField s).length := by
  have hfield := length_body_le_delimitedField 1 s.toIndex.encode
  have hdescriptor := length_body_le_delimitedField 1 s.descriptor.encode
  have hlength := length_le_entryFields s.entries
  simp only [SeriesIndex.encode, SeriesState.toIndex, List.length_append] at hfield
  simp only [indexField, indexWeight, SeriesIndex.encode, SeriesState.toIndex]
  omega

theorem sum_indexWeight_le (found : List SeriesState) :
    (found.map indexWeight).sum ≤ 48 * (indexBlock found).body.length := by
  have hfields : (found.map indexWeight).sum ≤
      48 * (found.map fun s => (indexField s).length).sum := by
    induction found with
    | nil => exact Nat.le_refl _
    | cons s rest ih =>
      have hs := indexWeight_le s
      rw [List.map_cons, List.map_cons, List.sum_cons, List.sum_cons]
      omega
  have hindex := sum_le_length_indexBlock (fun s => Nat.le_refl (indexField s).length) found
  omega

theorem Alike.sum_indexWeight (h : Alike found moved) :
    (found.map indexWeight).sum = (moved.map indexWeight).sum := by
  have hweight : ∀ s : SeriesState,
      indexWeight s = (fun u => 6 + 4 * u.1.encode.length + 48 * u.2.2) s.unplaced := by
    intro s
    rw [indexWeight, SeriesState.entries, List.length_reverse]
    rfl
  have hweights := congrArg (List.map fun u => 6 + 4 * u.1.encode.length + 48 * u.2.2) h
  rw [List.map_map, List.map_map] at hweights
  rw [List.map_congr_left fun s _ => hweight s, List.map_congr_left fun s _ => hweight s]
  exact congrArg List.sum hweights

theorem Alike.index_le (h : Alike found moved)
    (hle : ∀ b ∈ indexPart found, b.body.length ≤ defaultMaxBlockSize) :
    ∀ b ∈ indexPart moved, b.body.length ≤ maxBodySize := by
  intro b hb
  have hcount := h.blockCount
  by_cases hnone : (moved.flatMap fun s => s.recorded).length = 0
  · rw [indexPart, if_pos hnone] at hb
    cases hb
  · rw [indexPart, if_neg hnone, List.mem_singleton] at hb
    have hindex : indexPart found = [indexBlock found] := if_neg (by rwa [hcount])
    rw [hindex] at hle
    have hfound := hle _ (List.mem_singleton_self _)
    have hweight := sum_indexWeight_le found
    have hmoved := length_indexBlock_le moved
    rw [← h.sum_indexWeight] at hmoved
    rw [defaultMaxBlockSize] at hfound
    rw [hb, maxBodySize]
    omega

theorem SoundIn.relocate {annotations : Labels} {journal : List Addition}
    (h : SoundIn annotations journal) (others : Labels) : SoundIn others journal :=
  Alike.sound (rfl : Alike [] []) h

theorem alike_seriesIn (annotations others : Labels) (journal : List Addition) :
    Alike (seriesIn annotations journal) (seriesIn others journal) :=
  Alike.track (rfl : Alike [] []) journal

end SeriesLog
