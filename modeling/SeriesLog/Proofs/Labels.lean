import SeriesLog.Labels

/-! # Overlaid labels

Labels are determined by their entries, and of labels set over others an entry counts unless one
above it has the same key. Setting labels over others is associative. -/
namespace SeriesLog.Labels

variable {key value : String} {entries : List (String × String)} {p : String × String}

theorem ne_of_less {s t : String} (h : utf8Less s t) : t ≠ s := by
  rintro rfl
  exact utf8Less_irrefl _ h

theorem mem_place_iff (h : KeysAscend entries) :
    p ∈ place key value entries ↔ p = (key, value) ∨ p ∈ entries ∧ p.1 ≠ key := by
  induction entries with
  | nil => simp [place]
  | cons q rest ih =>
    obtain ⟨hq, hrest⟩ := List.pairwise_cons.1 h
    by_cases heq : key = q.1
    · have hother : p ∈ rest → p.1 ≠ key := by
        intro hp
        rw [heq]
        exact ne_of_less (hq p hp)
      rw [place, if_pos heq, List.mem_cons, List.mem_cons]
      constructor
      · rintro (hnew | hp)
        · exact .inl hnew
        · exact .inr ⟨.inr hp, hother hp⟩
      · rintro (hnew | ⟨rfl | hp, hne⟩)
        · exact .inl hnew
        · exact absurd heq.symm hne
        · exact .inr hp
    · rw [place, if_neg heq]
      by_cases hless : utf8Less key q.1
      · have hother : p ∈ q :: rest → p.1 ≠ key := by
          intro hp
          rcases List.mem_cons.1 hp with rfl | hp
          · exact Ne.symm heq
          · exact ne_of_less (utf8Less_trans hless (hq p hp))
        rw [if_pos hless, List.mem_cons]
        constructor
        · rintro (hnew | hp)
          · exact .inl hnew
          · exact .inr ⟨hp, hother hp⟩
        · rintro (hnew | ⟨hp, _⟩)
          · exact .inl hnew
          · exact .inr hp
      · rw [if_neg hless, List.mem_cons, ih hrest, List.mem_cons]
        constructor
        · rintro (rfl | hnew | ⟨hp, hne⟩)
          · exact .inr ⟨.inl rfl, Ne.symm heq⟩
          · exact .inl hnew
          · exact .inr ⟨.inr hp, hne⟩
        · rintro (hnew | ⟨rfl | hp, hne⟩)
          · exact .inr (.inl hnew)
          · exact .inl rfl
          · exact .inr (.inr ⟨hp, hne⟩)

theorem mem_foldl_insert (labels : Labels) (h : KeysAscend entries) :
    p ∈ (entries.foldl (fun l q => l.insert q.1 q.2) labels).entries ↔
      p ∈ entries ∨ p ∈ labels.entries ∧ ∀ q ∈ entries, q.1 ≠ p.1 := by
  induction entries generalizing labels with
  | nil => simp
  | cons q rest ih =>
    obtain ⟨hq, hrest⟩ := List.pairwise_cons.1 h
    have hinsert : p ∈ (labels.insert q.1 q.2).entries ↔
        p = q ∨ p ∈ labels.entries ∧ p.1 ≠ q.1 := mem_place_iff labels.ascending
    rw [List.foldl_cons, ih _ hrest, hinsert, List.mem_cons, List.forall_mem_cons]
    constructor
    · rintro (hp | ⟨rfl | ⟨hp, hne⟩, hall⟩)
      · exact .inl (.inr hp)
      · exact .inl (.inl rfl)
      · exact .inr ⟨hp, Ne.symm hne, hall⟩
    · rintro ((rfl | hp) | ⟨hp, hne, hall⟩)
      · exact .inr ⟨.inl rfl, fun r hr => ne_of_less (hq r hr)⟩
      · exact .inl hp
      · exact .inr ⟨.inr ⟨hp, Ne.symm hne⟩, hall⟩

variable {labels added more : Labels}

theorem mem_overlay :
    p ∈ (labels.overlay added).entries ↔
      p ∈ added.entries ∨ p ∈ labels.entries ∧ ∀ q ∈ added.entries, q.1 ≠ p.1 :=
  mem_foldl_insert labels added.ascending

theorem forall_key_overlay {key : String} :
    (∀ q ∈ (labels.overlay added).entries, q.1 ≠ key) ↔
      (∀ q ∈ labels.entries, q.1 ≠ key) ∧ ∀ q ∈ added.entries, q.1 ≠ key := by
  constructor
  · intro h
    have hadded : ∀ q ∈ added.entries, q.1 ≠ key := fun q hq => h q (mem_overlay.2 (.inl hq))
    refine ⟨?_, hadded⟩
    rintro q hq rfl
    exact h q (mem_overlay.2 (.inr ⟨hq, hadded⟩)) rfl
  · rintro ⟨hlabels, hadded⟩ q hq
    rcases mem_overlay.1 hq with hq | ⟨hq, _⟩
    · exact hadded q hq
    · exact hlabels q hq

theorem nodup_entries (labels : Labels) : labels.entries.Nodup := by
  refine labels.ascending.imp ?_
  rintro a b hless rfl
  exact utf8Less_irrefl _ hless

theorem ext_mem (h : ∀ p, p ∈ labels.entries ↔ p ∈ added.entries) : labels = added := by
  have hperm := (List.perm_ext_iff_of_nodup labels.nodup_entries added.nodup_entries).2 h
  apply ext
  refine hperm.eq_of_pairwise ?_ labels.ascending added.ascending
  intro a b _ _ hab hba
  exact absurd (utf8Less_trans hab hba) (utf8Less_irrefl _)

theorem overlay_assoc (labels added more : Labels) :
    (labels.overlay added).overlay more = labels.overlay (added.overlay more) := by
  apply ext_mem
  intro p
  rw [mem_overlay, mem_overlay, mem_overlay, mem_overlay, forall_key_overlay]
  constructor
  · rintro (hp | ⟨hp | ⟨hp, hadded⟩, hmore⟩)
    · exact .inl (.inl hp)
    · exact .inl (.inr ⟨hp, hmore⟩)
    · exact .inr ⟨hp, hadded, hmore⟩
  · rintro ((hp | ⟨hp, hmore⟩) | ⟨hp, hadded, hmore⟩)
    · exact .inl hp
    · exact .inr ⟨.inl hp, hmore⟩
    · exact .inr ⟨.inr ⟨hp, hadded⟩, hmore⟩

end SeriesLog.Labels
