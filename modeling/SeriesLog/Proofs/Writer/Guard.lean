import SeriesLog.Proofs.Repair.Copy

/-! # The limit of a writer

A writer refuses every data block beyond its limit and never changes the limit, so the data blocks
of a run are all within it. Nothing bounds the other blocks but the size that a header can hold. -/
namespace SeriesLog

variable {limit : Nat} {annotations : Labels} {journal : List Addition}

theorem fits_append {a : Addition} (h : ∀ b ∈ journal, b.Fits limit) (ha : a.Fits limit) :
    ∀ b ∈ journal ++ [a], b.Fits limit := by
  intro b hb
  rcases List.mem_append.1 hb with hb | hb
  · exact h b hb
  · rw [List.mem_singleton.1 hb]
    exact ha

theorem fits_noteSeries (h : ∀ a ∈ journal, a.Fits limit) (id : SeriesId) (kind : SeriesKind)
    (indexNames : List String) (labels : Labels) :
    ∀ a ∈ noteSeries journal id kind indexNames labels, a.Fits limit := by
  unfold noteSeries
  split
  · exact h
  · exact fits_append h trivial

theorem fits_noteName (h : ∀ a ∈ journal, a.Fits limit) (id : SeriesId) :
    ∀ a ∈ noteName journal id, a.Fits limit := by
  unfold noteName
  dsimp only
  split
  · exact fits_noteSeries h id _ _ _
  · exact h

namespace Writer

variable {w : Writer}

theorem Attempt.limit_eq {after : Writer} {added : List Addition} (h : w.Attempt added after) :
    after.maxBlockSize = w.maxBlockSize := by
  cases h with
  | refused => rfl
  | torn _ hextends => exact hextends.limit
  | added _ _ hextends => exact hextends.limit

structure Guards (w : Writer) (limit : Nat) (annotations : Labels) (journal : List Addition) :
    Prop where
  holds : w.Holds annotations journal
  guard : w.maxBlockSize = limit
  fits : ∀ a ∈ journal, a.Fits limit

theorem Guards.start {c : WriterConfig} (h : Writer.start c (.empty none) = .ok w) :
    w.Guards c.maxBlockSize c.annotations [] := by
  obtain ⟨_, _, hextends⟩ := start_eq_ok h
  constructor
  · exact start_holds h
  · exact hextends.limit
  · intro a ha
    cases ha

theorem Guards.declare_limit (h : w.Guards limit annotations journal) (id : SeriesId)
    (kind : SeriesKind) (indexNames : List String) (labels : Labels) :
    (w.declare id kind indexNames labels).2.maxBlockSize = limit := by
  obtain ⟨added, hattempt, _⟩ := declare_attempt h.holds.active id kind indexNames labels
  exact hattempt.limit_eq.trans h.guard

/-- A data block is refused or within the limit. -/
theorem Guards.appendTo (h : w.Guards limit annotations journal) (index : UInt32)
    (timestamp : Int64) (indexValues : List Int64) (payload : Bytes) :
    (∃ e, w.appendTo index timestamp indexValues payload = (.error e, w)) ∨
      ∃ l after, w.appendTo index timestamp indexValues payload = (.ok l, after) ∧
        after.Guards limit annotations (noteData journal index timestamp indexValues payload) := by
  rcases appendTo_cases h.holds.active index timestamp indexValues payload with
    ⟨e, hrefused⟩ | ⟨s, after, hs, happend, hadmits, hle, hfits, hextends⟩ |
      ⟨_, _, _, _, hlimited, _⟩
  · exact .inl ⟨e, hrefused⟩
  · refine .inr ⟨_, _, happend, ?_⟩
    rw [h.guard] at hfits
    unfold noteData
    rw [← h.holds.nextPosition_eq hs]
    constructor
    · exact h.holds.added hadmits hle hextends
    · exact hextends.limit.trans h.guard
    · exact fits_append h.fits hfits
  · exact absurd h.holds.unlimited hlimited

theorem Guards.append (h : w.Guards limit annotations journal) (id : SeriesId) (timestamp : Int64)
    (indexValues : List Int64) (payload : Bytes) :
    (∃ e after, w.append id timestamp indexValues payload = (.error e, after) ∧
        after.Guards limit annotations (noteName journal id)) ∨
      ∃ l after, w.append id timestamp indexValues payload = (.ok l, after) ∧
        after.Guards limit annotations (noteData (noteName journal id)
          (numberOf (noteName journal id) id) timestamp indexValues payload) := by
  unfold Writer.append
  cases hknown : w.indexOf? id with
  | some i =>
    rw [h.holds.indexOf?_eq] at hknown
    have hsame := noteName_known hknown
    rw [hsame, (noteSeries_known hknown .untyped [] .empty).2]
    rcases h.appendTo (UInt32.ofNat i) timestamp indexValues payload with
      ⟨e, hrefused⟩ | ⟨l, after, happend, hguards⟩
    · exact .inl ⟨e, w, hrefused, h⟩
    · exact .inr ⟨l, after, happend, hguards⟩
  | none =>
    have hlimit := h.declare_limit id .untyped [] .empty
    rcases h.holds.declare_name hknown with ⟨e, hdeclare, hname⟩ | ⟨named, hdeclare, hholds⟩
    · rw [hdeclare, hname]
      exact .inl ⟨e, w, rfl, h⟩
    · rw [hdeclare] at hlimit ⊢
      dsimp only
      have hnamed : named.Guards limit annotations (noteName journal id) :=
        ⟨hholds, hlimit, fits_noteName h.fits id⟩
      rcases hnamed.appendTo (numberOf (noteName journal id) id) timestamp indexValues payload with
        ⟨e, hrefused⟩ | ⟨l, after, happend, hguards⟩
      · exact .inl ⟨e, named, hrefused, hnamed⟩
      · exact .inr ⟨l, after, happend, hguards⟩

theorem Guards.answer_appendTo (h : w.Guards limit annotations journal) {call : Call}
    {index : UInt32} {timestamp : Int64} {indexValues : List Int64} {payload : Bytes}
    (hrefused : ∀ e, note journal call (.error e) = journal)
    (hlocated : ∀ l, note journal call (.ok (.located l)) =
      noteData journal index timestamp indexValues payload) :
    (w.appendTo index timestamp indexValues payload).2.Guards limit annotations
      (note journal call ((w.appendTo index timestamp indexValues payload).1.map .located)) := by
  rcases h.appendTo index timestamp indexValues payload with
    ⟨e, hanswer⟩ | ⟨l, after, hanswer, hguards⟩
  · rw [hanswer, Except.map, hrefused]
    exact h
  · rw [hanswer, Except.map, hlocated]
    exact hguards

theorem Guards.answer (h : w.Guards limit annotations journal) {call : Call}
    (hcall : call ≠ .close) :
    (w.answer call).2.Guards limit annotations (note journal call (w.answer call).1) := by
  cases call with
  | declare id kind indexNames labels =>
    have hholds := (h.holds.answer hcall).holds
    have hlimit := h.declare_limit id kind indexNames labels
    refine ⟨hholds, hlimit, ?_⟩
    simp only [Writer.answer]
    cases (w.declare id kind indexNames labels).1 with
    | error e => exact h.fits
    | ok index => exact fits_noteSeries h.fits id kind indexNames labels
  | append id timestamp indexValues payload =>
    simp only [Writer.answer]
    rcases h.append id timestamp indexValues payload with
      ⟨e, after, hanswer, hguards⟩ | ⟨l, after, hanswer, hguards⟩
    · rw [hanswer]
      exact hguards
    · rw [hanswer]
      exact hguards
  | appendTo index timestamp indexValues payload =>
    exact h.answer_appendTo (fun _ => rfl) fun _ => rfl
  | appendSamples index timestamp indexValues values =>
    simp only [Writer.answer]
    rcases appendSamples_cases w index timestamp indexValues values with ⟨e, hrefused⟩ | hsame
    · rw [hrefused]
      exact h
    · rw [hsame]
      exact h.answer_appendTo (fun _ => rfl) fun _ => rfl
  | flush => exact h
  | close => exact absurd rfl hcall

theorem Guards.run (h : w.Guards limit annotations journal) {calls : List Call}
    (hopen : .close ∉ calls) :
    (w.run calls).2.Guards limit annotations
      ((calls.zip (w.run calls).1).foldl (fun journal p => note journal p.1 p.2) journal) := by
  induction calls generalizing w journal with
  | nil => exact h
  | cons call rest ih =>
    rw [List.mem_cons, not_or] at hopen
    exact ih (h.answer (Ne.symm hopen.1)) hopen.2

end Writer

theorem Run.fits {c : WriterConfig} (run : Run c) : ∀ a ∈ run.journal, a.Fits c.maxBlockSize := by
  have hguards := (Writer.Guards.start run.started).run run.unended
  rw [run.answered] at hguards
  exact hguards.fits

end SeriesLog
