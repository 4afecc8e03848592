import Mathlib.Data.List.Forall2
import SeriesLog.Proofs.Writer.FullSink

/-! # Phases of a writer

A writer goes from the header to writing with its first data block, and from either to the end with
its first attempt to seal the log, be that it fails. From there on it declines every call and
changes nothing. -/
namespace SeriesLog

def Phase.rank : Phase → Nat
  | .headerWritten => 0
  | .writing => 1
  | .closed => 2

theorem Phase.rank_le_closed (phase : Phase) : phase.rank ≤ Phase.closed.rank := by
  cases phase <;> decide

/-- What a writer answers that accepts nothing any more. -/
inductive Declines : Call → Except LogError Answer → Prop where
  | declare {id : SeriesId} {kind : SeriesKind} {indexNames : List String} {annotations : Labels} :
      Declines (.declare id kind indexNames annotations) (.error .writerClosed)
  | append {id : SeriesId} {timestamp : Int64} {indexValues : List Int64} {payload : Bytes} :
      Declines (.append id timestamp indexValues payload) (.error .writerClosed)
  | appendTo {index : UInt32} {timestamp : Int64} {indexValues : List Int64} {payload : Bytes} :
      Declines (.appendTo index timestamp indexValues payload) (.error .writerClosed)
  /-- Samples may be refused before they come to an append. -/
  | appendSamples {index : UInt32} {timestamp : Int64} {indexValues : List Int64}
      {values : Pod.Values} {e : LogError} :
      Declines (.appendSamples index timestamp indexValues values) (.error e)
  | flush : Declines .flush (.ok .flushed)
  | close : Declines .close (.error .writerClosed)

namespace Writer

variable {c : WriterConfig} {room : Option Nat} {w after : Writer}

/-- The phase of an open writer tells whether it has recorded a data block. -/
structure Staged (w : Writer) : Prop where
  blank : w.phase = .headerWritten → w.blockCount = 0
  writing : w.phase = .writing → 0 < w.blockCount

structure Proceeds (w after : Writer) : Prop where
  active : after.phase ≠ .closed
  rank : w.phase.rank ≤ after.phase.rank
  staged : w.Staged → after.Staged

theorem Proceeds.refl (hopen : w.phase ≠ .closed) : w.Proceeds w :=
  ⟨hopen, Nat.le_refl _, id⟩

theorem Proceeds.trans {last : Writer} (h : w.Proceeds after) (k : after.Proceeds last) :
    w.Proceeds last :=
  ⟨k.active, Nat.le_trans h.rank k.rank, fun hw => k.staged (h.staged hw)⟩

theorem Staged.of_same (h : w.Staged) (hphase : after.phase = w.phase)
    (hcount : after.blockCount = w.blockCount) : after.Staged := by
  constructor
  · rw [hphase, hcount]
    exact h.blank
  · rw [hphase, hcount]
    exact h.writing

theorem blockCount_pos {s : SeriesState} (hs : s ∈ w.series) (hne : s.recorded ≠ []) :
    0 < w.blockCount := by
  apply List.length_pos_iff.2
  intro hnone
  exact hne (List.flatMap_eq_nil_iff.1 hnone s hs)

theorem blockCount_enter_series (d : SeriesDescriptor) (offset : Nat) :
    (w.enter (.series d) offset).blockCount = w.blockCount := by
  simp [blockCount, enter, Addition.enter, SeriesState.declared]

theorem blockCount_enter_data {d : DataDescriptor} {payload : Bytes}
    (hadmits : Admits w.series (.data d payload)) (offset : Nat) :
    0 < (w.enter (.data d payload) offset).blockCount := by
  cases hadmits with
  | @data index s timestamp indexValues _ hs _ _ =>
    have hlt : index.toNat < w.series.length := (List.getElem?_eq_some_iff.1 hs).1
    refine blockCount_pos (s := s.record ⟨timestamp, UInt64.ofNat offset⟩) ?_ ?_
    · rw [enter, Addition.enter, modify_of_getElem? hs]
      exact List.mem_set hlt _
    · exact List.cons_ne_nil _ _

theorem Attempt.proceeds {added : List Addition} (h : w.Attempt added after)
    (hopen : w.phase ≠ .closed) : w.Proceeds after := by
  have hactive := h.open_of_open hopen
  cases h with
  | refused => exact .refl hopen
  | torn _ hextends =>
    obtain ⟨_, _, hcount, hphase⟩ := hextends.sameBooks
    exact ⟨hactive, Nat.le_of_eq (congrArg _ hphase.symm), fun hw => hw.of_same hphase hcount⟩
  | @added a after hadmits _ hextends =>
    obtain ⟨hseries, _, hcount, hphase⟩ := hextends.sameBooks
    cases a with
    | series d =>
      refine ⟨hactive, Nat.le_of_eq (congrArg _ hphase.symm), ?_⟩
      exact fun hw => hw.of_same hphase ((blockCount_enter_series d _).trans hcount)
    | data d payload =>
      have hpos : 0 < (after.enter (.data d payload) w.position).blockCount :=
        blockCount_enter_data (hseries ▸ hadmits) _
      refine ⟨hactive, ?_, fun _ => ⟨(fun h => by cases h), fun _ => hpos⟩⟩
      show w.phase.rank ≤ Phase.writing.rank
      cases hbefore : w.phase with
      | closed => exact absurd hbefore hopen
      | _ => decide

theorem Attempts.proceeds (h : Attempts w after) (hopen : w.phase ≠ .closed) :
    w.Proceeds after := by
  induction h with
  | none w => exact .refl hopen
  | more hattempt _ ih =>
    have hnext := hattempt.proceeds hopen
    exact hnext.trans (ih hnext.active)

theorem answer_proceeds (hopen : w.phase ≠ .closed) {call : Call} (hcall : call ≠ .close) :
    w.Proceeds (w.answer call).2 :=
  (answer_attempts hopen hcall).proceeds hopen

theorem run_proceeds (hopen : w.phase ≠ .closed) {calls : List Call} (hcalls : .close ∉ calls) :
    w.Proceeds (w.run calls).2 := by
  induction calls generalizing w with
  | nil => exact .refl hopen
  | cons call rest ih =>
    rw [List.mem_cons, not_or] at hcalls
    have hcall := answer_proceeds hopen (Ne.symm hcalls.1)
    exact hcall.trans (ih hcall.active hcalls.2)

theorem start_staged {sink : Sink} (h : start c sink = .ok w) :
    w.phase ≠ .closed ∧ w.Staged := by
  obtain ⟨_, _, hextends⟩ := start_eq_ok h
  have hphase : w.phase = .headerWritten := hextends.phase
  have hseries : w.series = [] := hextends.series
  constructor
  · rw [hphase]
    exact fun h => by cases h
  · constructor
    · intro _
      rw [blockCount, hseries]
      rfl
    · rw [hphase]
      exact fun h => by cases h

theorem closed_declines (h : w.phase = .closed) (call : Call) :
    Declines call (w.answer call).1 := by
  cases call with
  | declare id kind indexNames annotations =>
    rw [answer, declare_closed h]
    exact .declare
  | append id timestamp indexValues payload =>
    rw [answer, append_closed h]
    exact .append
  | appendTo index timestamp indexValues payload =>
    rw [answer, appendTo_closed h]
    exact .appendTo
  | appendSamples index timestamp indexValues values =>
    rcases appendSamples_cases w index timestamp indexValues values with ⟨e, hrefused⟩ | hsame
    · rw [answer, hrefused]
      exact .appendSamples
    · rw [answer, hsame, appendTo_closed h]
      exact .appendSamples
  | flush => exact .flush
  | close =>
    rw [answer, close, if_pos h]
    exact .close

theorem closed_run_declines (h : w.phase = .closed) (calls : List Call) :
    List.Forall₂ Declines calls (w.run calls).1 := by
  induction calls with
  | nil => exact .nil
  | cons call rest ih =>
    have hsame : (w.answer call).2 = w := (closed_answer h call).1
    rw [run_cons, hsame]
    exact .cons (closed_declines h call) ih

theorem closed_ends (h : w.phase = .closed) : w.finish = (.ok (), w) ∧ w.abandon = w := by
  constructor
  · rw [finish, if_pos h]
  · rw [abandon, ← h]

theorem close_closes (w : Writer) : w.close.2.phase = .closed := by
  obtain ⟨_, _, _, _, hphase⟩ := close_adds w
  exact hphase

theorem answer_closed_iff (w : Writer) (call : Call) :
    (w.answer call).2.phase = .closed ↔ w.phase = .closed ∨ call = .close := by
  by_cases hclosed : w.phase = .closed
  · rw [(closed_answer hclosed call).1]
    exact ⟨.inl, fun _ => hclosed⟩
  · by_cases hcall : call = .close
    · rw [hcall]
      exact ⟨fun _ => .inr rfl, fun _ => close_closes w⟩
    · have hactive := (answer_proceeds hclosed hcall).active
      exact ⟨fun h => absurd h hactive, fun h => absurd h (not_or.2 ⟨hclosed, hcall⟩)⟩

theorem run_closed_iff (w : Writer) (calls : List Call) :
    (w.run calls).2.phase = .closed ↔ w.phase = .closed ∨ .close ∈ calls := by
  induction calls generalizing w with
  | nil => simp [run]
  | cons call rest ih =>
    rw [run_cons, ih, answer_closed_iff, List.mem_cons, or_assoc, @eq_comm _ call]

theorem answer_rank_le (w : Writer) (call : Call) :
    w.phase.rank ≤ (w.answer call).2.phase.rank := by
  by_cases hclosed : w.phase = .closed
  · rw [(closed_answer hclosed call).1]
  · by_cases hcall : call = .close
    · rw [hcall, (answer_closed_iff w .close).2 (.inr rfl)]
      exact w.phase.rank_le_closed
    · exact (answer_proceeds hclosed hcall).rank

theorem run_rank_le (w : Writer) (calls : List Call) :
    w.phase.rank ≤ (w.run calls).2.phase.rank := by
  induction calls generalizing w with
  | nil => exact Nat.le_refl _
  | cons call rest ih => exact Nat.le_trans (answer_rank_le w call) (ih _)

variable {annotations : Labels} {journal : List Addition}

def Begins (annotations : Labels) (bytes : Bytes) : Prop :=
  ∃ journal trailer, SoundIn annotations journal ∧ bytes <+:
    sealedBytes annotations journal (indexPart (seriesIn annotations journal)) trailer

theorem Begins.sooner {bytes more : Bytes} (h : Begins annotations more)
    (hfirst : bytes <+: more) : Begins annotations bytes := by
  obtain ⟨journal, trailer, hsound, hmore⟩ := h
  exact ⟨journal, trailer, hsound, hfirst.trans hmore⟩

theorem Holds.close_begins (h : w.Holds annotations journal) :
    Begins annotations w.close.2.sink.bytes := by
  refine ⟨journal, trailerAfter w.beforeTrailer w.indexOffset, h.sound, ?_⟩
  rcases close_cases h.unlimited h.active with ⟨e, hfailed, _⟩ | ⟨_, _, hdone, _, _, hbytes, _⟩
  · rw [hfailed, sealedBytes, List.append_assoc]
    show w.sink.bytes <+: _
    rw [h.bytes]
    exact List.prefix_append _ _
  · refine ⟨[], ?_⟩
    rw [List.append_nil, hdone, hbytes, sealedBytes, beforeTrailer, h.bytes, h.series]

theorem Holds.run_close_begins (h : w.Holds annotations journal) (calls : List Call) :
    Begins annotations (w.run calls).2.close.2.sink.bytes := by
  induction calls generalizing w journal with
  | nil => exact h.close_begins
  | cons call rest ih =>
    rw [run_cons]
    by_cases hcall : call = .close
    · rw [hcall]
      have hclosed := close_closes w
      have hrest : ((w.answer .close).2.run rest).2 = w.close.2 := closed_run hclosed rest
      have hagain : w.close.2.close.2 = w.close.2 := (closed_answer hclosed .close).1
      rw [hrest, hagain]
      exact h.close_begins
    · exact ih (h.answer hcall).holds

theorem start_run_close_begins (h : start c (.empty room) = .ok w) (calls : List Call) :
    Begins c.annotations (w.run calls).2.close.2.sink.bytes := by
  obtain ⟨hfault, hle, _⟩ := start_eq_ok h
  obtain ⟨free, hfree⟩ := start_of_valid hfault hle
  have hbegins := (start_holds hfree).run_close_begins calls
  cases room with
  | none =>
    rw [hfree] at h
    cases h
    exact hbegins
  | some n =>
    rcases start_capped hfree n with ⟨hcapped, hroomy⟩ | ⟨failure, hfailed, _⟩
    · rw [hcapped] at h
      cases h
      -- the sink with little room has the first bytes of the one without limit
      have hcut := (close_capped_of_run (start_holds hfree).unlimited hroomy calls).1
      rw [hcut]
      exact hbegins.sooner (List.take_prefix _ _)
    · rw [hfailed] at h
      cases h

/-- What is true of a writer that has answered some calls, and of what it answers after them. -/
structure Lifecycle (c : WriterConfig) (w : Writer) (calls later : List Call) : Prop where
  /-- The phase never goes back. -/
  ascends : (w.run calls).2.phase.rank ≤ ((w.run calls).2.run later).2.phase.rank
  /-- Until it is closed a writer is writing exactly when it has recorded a data block. -/
  writing : .close ∉ calls →
    ((w.run calls).2.phase = .writing ↔ 0 < (w.run calls).2.blockCount)
  /-- The first attempt to seal the log ends it, and nothing else does. -/
  closed : (w.run calls).2.phase = .closed ↔ .close ∈ calls
  /-- A writer that is closed declines all calls, and neither they nor its end change it. -/
  declines : .close ∈ calls →
    List.Forall₂ Declines later ((w.run calls).2.run later).1 ∧
      ((w.run calls).2.run later).2 = (w.run calls).2 ∧
      (w.run calls).2.finish = (.ok (), (w.run calls).2) ∧
      (w.run calls).2.abandon = (w.run calls).2
  /-- However the writer ends, at most one index and one trailer have been written. -/
  sealedOnce : Begins c.annotations (w.run calls).2.sink.bytes ∧
    Begins c.annotations (w.run calls).2.finish.2.sink.bytes ∧
    Begins c.annotations (w.run calls).2.abandon.sink.bytes

theorem finish_eq_close (w : Writer) : w.finish.2 = w.close.2 := by
  by_cases hclosed : w.phase = .closed
  · rw [finish, close, if_pos hclosed, if_pos hclosed]
  · rw [finish, if_neg hclosed]
    cases w.close with
    | mk result after => cases result <;> rfl

/-- On a sink with room for any number of bytes a writer goes through its phases in order, whatever
it is asked for: it is writing from its first data block, closed from the first attempt to seal the
log, and from there on it accepts nothing and changes nothing. -/
theorem started_lifecycle (hstart : start c (.empty room) = .ok w) (calls later : List Call) :
    Lifecycle c w calls later := by
  obtain ⟨hopen, hstaged⟩ := start_staged hstart
  have hclosed : (w.run calls).2.phase = .closed ↔ .close ∈ calls := by
    rw [run_closed_iff]
    exact or_iff_right hopen
  constructor
  case ascends => exact run_rank_le _ later
  case writing =>
    intro hcalls
    have hproceeds := run_proceeds hopen hcalls
    obtain ⟨hblank, hwriting⟩ := hproceeds.staged hstaged
    refine ⟨hwriting, ?_⟩
    intro hpos
    cases hphase : (w.run calls).2.phase with
    | headerWritten =>
      rw [hblank hphase] at hpos
      cases hpos
    | writing => rfl
    | closed => exact absurd hphase hproceeds.active
  case closed => exact hclosed
  case declines =>
    intro hcalls
    have hphase := hclosed.2 hcalls
    exact ⟨closed_run_declines hphase later, closed_run hphase later, closed_ends hphase⟩
  case sealedOnce =>
    have hbegins := start_run_close_begins hstart calls
    obtain ⟨taken, hbytes, _⟩ := close_adds (w.run calls).2
    have hrun : Begins c.annotations (w.run calls).2.sink.bytes :=
      hbegins.sooner ⟨taken, hbytes.symm⟩
    refine ⟨hrun, ?_, hrun⟩
    rw [finish_eq_close]
    exact hbegins

/-- On a sink of 70 bytes the log cannot be sealed: the index breaks off, and the writer is
closed. -/
theorem started_lifecycle_torn_seal : ∃ w, start .default (.empty (some 70)) = .ok w ∧
    let calls : List Call := [.append (.ofType "a") 5 [] [1, 2], .close]
    let later : List Call := [.appendTo 0 6 [] [3], .flush, .close]
    (w.run calls).1[1]? = some (.error (.format (.device .sinkFull))) ∧
      (w.run calls).2.sink.bytes.length = 70 ∧ Lifecycle .default w calls later := by
  let calls : List Call := [.append (.ofType "a") 5 [] [1, 2], .close]
  have hrun : (start .default (.empty (some 70))).toOption.map (fun w =>
      ((w.run calls).1[1]?, (w.run calls).2.sink.bytes.length)) =
        some (some (.error (.format (.device .sinkFull))), 70) := by decide +kernel
  cases hstart : start .default (.empty (some 70)) with
  | error e =>
    rw [hstart] at hrun
    cases hrun
  | ok w =>
    rw [hstart] at hrun
    obtain ⟨hanswer, hlength⟩ := by
      simpa only [Except.toOption, Option.map_some, Option.some.injEq, Prod.mk.injEq] using hrun
    exact ⟨w, rfl, hanswer, hlength, started_lifecycle hstart calls _⟩

end Writer
end SeriesLog
