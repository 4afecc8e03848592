import SeriesLog.Proofs.Writer.Limits

/-! # Full sinks

Calls that are made against a sink with room for only so many bytes leave the first of the bytes
that they put on a sink without limit. Up to the block that does not fit they are answered alike;
from there on nothing is added, and the log cannot be sealed. -/
namespace SeriesLog

namespace Writer

variable {w : Writer} {n : Nat}

theorem run_cons (u : Writer) (call : Call) (rest : List Call) :
    u.run (call :: rest) = ((u.answer call).1 :: ((u.answer call).2.run rest).1,
      ((u.answer call).2.run rest).2) := rfl

theorem exists_capped_of_full {u : Writer} (hroom : u.sink.room = some 0) :
    ∃ free : Writer, free.sink.room = none ∧ free.sink.bytes = u.sink.bytes ∧
      free.capped free.sink.bytes.length = u := by
  let free : Writer := { u with sink := ⟨u.sink.pieces, none⟩ }
  have hnone : free.sink.bytes.length - free.sink.bytes.length = 0 := Nat.sub_self _
  refine ⟨free, rfl, rfl, ?_⟩
  rw [capped, hnone]
  rcases u with ⟨⟨pieces, room⟩, position, series, phase, limit⟩
  cases hroom
  rfl

theorem answer_full {u : Writer} (hroom : u.sink.room = some 0) (call : Call) :
    (u.answer call).2.sink.bytes = u.sink.bytes ∧ (u.answer call).2.sink.room = some 0 := by
  obtain ⟨free, hfree, hbytes, hcap⟩ := exists_capped_of_full hroom
  have h := answer_capped (n := free.sink.bytes.length) hfree call
  have hfull := h.filled (Nat.le_refl _) h.grows.length_le
  rw [hcap] at hfull
  refine ⟨?_, hfull.room⟩
  rw [hfull.bytes, ← List.prefix_iff_eq_take.1 h.grows, hbytes]

theorem run_full {u : Writer} (hroom : u.sink.room = some 0) (calls : List Call) :
    (u.run calls).2.sink.bytes = u.sink.bytes ∧ (u.run calls).2.sink.room = some 0 := by
  induction calls generalizing u with
  | nil => exact ⟨rfl, hroom⟩
  | cons call rest ih =>
    obtain ⟨hbytes, hstill⟩ := answer_full hroom call
    rw [run_cons, ← hbytes]
    exact ih hstill

theorem run_capped (hroom : w.sink.room = none) (calls : List Call) :
    Capped n (fun _ => True) w fun v => v.run calls := by
  induction calls generalizing w with
  | nil => exact .idle hroom rfl rfl
  | cons call rest ih =>
    have hcall := answer_capped (n := n) hroom call
    have hrest := ih hcall.unlimited
    have hlonger := hrest.grows.length_le
    refine ⟨hrest.unlimited, hcall.grows.trans hrest.grows, ?_, ?_⟩
    · intro hle
      rw [run_cons, hcall.fits (Nat.le_trans hlonger hle), hrest.fits hle]
      rfl
    · intro hle hlt
      refine ⟨trivial, ?_⟩
      by_cases hroomy : (w.answer call).2.sink.bytes.length ≤ n
      · rw [run_cons, hcall.fits hroomy]
        exact (hrest.full hroomy hlt).2
      · -- the call fills the sink, and the rest of them add nothing
        have hfull := (hcall.full hle (Nat.lt_of_not_le hroomy)).2
        obtain ⟨hbytes, hstill⟩ := run_full hfull.room rest
        have hsink := hfull.of_prefix (Nat.le_of_lt (Nat.lt_of_not_le hroomy)) hrest.grows
        exact ⟨hbytes.trans hsink.bytes, hstill⟩

theorem close_longer (hroom : w.sink.room = none) {summary : CloseSummary}
    (h : w.close.1 = .ok summary) : w.sink.bytes.length < w.close.2.sink.bytes.length := by
  have hopen : w.phase ≠ .closed := by
    intro hclosed
    rw [close, if_pos hclosed] at h
    cases h
  rcases close_cases hroom hopen with ⟨e, hfailed, _⟩ | ⟨_, after, hdone, _, _, hbytes, _⟩
  · rw [hfailed] at h
    cases h
  · have htrailer : 0 < trailerSize := by decide
    rw [hdone, hbytes, List.length_append,
      Trailer.length_encode (length_checksum_trailerAfter _ _), beforeTrailer, List.length_append]
    omega

theorem close_full {u : Writer} (hroom : u.sink.room = some 0) : Failed u.close.1 := by
  obtain ⟨free, hfree, _, hcap⟩ := exists_capped_of_full hroom
  have h := close_capped (n := free.sink.bytes.length) hfree
  rw [← hcap]
  by_cases hle : free.close.2.sink.bytes.length ≤ free.sink.bytes.length
  · rw [h.fits hle]
    cases hclose : free.close.1 with
    | error e => exact ⟨e, rfl⟩
    | ok summary =>
      have hlonger := close_longer hfree hclose
      omega
  · exact (h.full (Nat.le_refl _) (Nat.lt_of_not_le hle)).1

def writeOpening (annotations : Labels) : Writer → Except LogError Unit × Writer :=
  andThen (orFail (.device .sinkFull) fun v => v.putAll [openingMagic])
    fun _ v => v.writeBlock .descriptor [Descriptor.encode (.file (.ofAnnotations annotations))]

theorem start_eq_opening {c : WriterConfig} (hfault : Annotations.fault? c.annotations = none)
    (sink : Sink) :
    start c sink =
      match writeOpening c.annotations ⟨sink, 0, [], .headerWritten, c.maxBlockSize⟩ with
      | (.error e, w) => .error ⟨e, w.sink⟩
      | (.ok _, w) => .ok w := by
  rw [start, hfault, writeOpening, andThen, orFail]
  dsimp only
  cases putAll ⟨sink, 0, [], .headerWritten, c.maxBlockSize⟩ [openingMagic] with
  | mk whole begun => cases whole <;> rfl

/-- The sink takes the opening of the log, or the writer does not start. -/
theorem start_capped {c : WriterConfig} (hstart : start c (.empty none) = .ok w) (n : Nat) :
    (start c (.empty (some n)) = .ok (w.capped n) ∧ w.sink.bytes.length ≤ n) ∨
      ∃ failure, start c (.empty (some n)) = .error failure ∧ n < w.sink.bytes.length ∧
        failure.sink.Full n w.sink.bytes := by
  obtain ⟨hfault, _, _⟩ := start_eq_ok hstart
  let blank : Writer := ⟨.empty none, 0, [], .headerWritten, c.maxBlockSize⟩
  have hmagic := (putAll_capped (n := n) (w := blank) rfl [openingMagic]).orFail
    (.device .sinkFull)
  have h : Capped n Failed blank (writeOpening c.annotations) :=
    hmagic.andThen fun _ _ => writeBlock_capped hmagic.unlimited _ _
  have hopening : writeOpening c.annotations blank = (.ok (), w) := by
    rw [start_eq_opening hfault] at hstart
    cases hwrite : writeOpening c.annotations blank with
    | mk result after =>
      rw [hwrite] at hstart
      cases result with
      | error e => cases hstart
      | ok _ =>
        cases hstart
        rfl
  have hlimited : start c (.empty (some n)) =
      match writeOpening c.annotations (blank.capped n) with
      | (.error e, w) => .error ⟨e, w.sink⟩
      | (.ok _, w) => .ok w := start_eq_opening hfault _
  obtain ⟨_, _, hfits, hfull⟩ := h
  rw [hopening] at hfits hfull
  by_cases hle : w.sink.bytes.length ≤ n
  · refine .inl ⟨?_, hle⟩
    rw [hlimited, hfits hle]
  · obtain ⟨⟨e, he⟩, hsink⟩ := hfull (Nat.zero_le n) (Nat.lt_of_not_le hle)
    refine .inr ?_
    cases hwrite : writeOpening c.annotations (blank.capped n) with
    | mk result after =>
      rw [hwrite] at hlimited he hsink
      subst he
      exact ⟨⟨e, after.sink⟩, hlimited, Nat.lt_of_not_le hle, hsink⟩

/-- What a writer knows of its log besides the bytes: the series with their entries and counts, how
they are found by name, and the phase. -/
structure SameBooks (w after : Writer) : Prop where
  series : after.series = w.series
  lookup : ∀ id, after.indexOf? id = w.indexOf? id
  blockCount : after.blockCount = w.blockCount
  phase : after.phase = w.phase

theorem Extends.sameBooks {after : Writer} {taken : Bytes} (h : w.Extends after taken) :
    w.SameBooks after := by
  constructor
  · exact h.series
  · intro id
    rw [indexOf?, indexOf?, h.series]
  · rw [blockCount, blockCount, h.series]
  · exact h.phase

theorem close_capped_of_run (hroom : w.sink.room = none) (hle : w.sink.bytes.length ≤ n)
    (calls : List Call) :
    ((w.capped n).run calls).2.close.2.sink.bytes =
        (w.run calls).2.close.2.sink.bytes.take n ∧
      ∀ summary, ((w.capped n).run calls).2.close.1 = .ok summary ↔
        (w.run calls).2.close.1 = .ok summary ∧
          (w.run calls).2.close.2.sink.bytes.length ≤ n := by
  have hrun := run_capped (n := n) hroom calls
  have hclose := close_capped (n := n) hrun.unlimited
  by_cases hfits : (w.run calls).2.sink.bytes.length ≤ n
  · rw [hrun.fits hfits]
    refine ⟨hclose.cut hfits, ?_⟩
    intro summary
    by_cases hwhole : (w.run calls).2.close.2.sink.bytes.length ≤ n
    · rw [hclose.fits hwhole]
      exact ⟨fun h => ⟨h, hwhole⟩, And.left⟩
    · obtain ⟨⟨e, he⟩, _⟩ := hclose.full hfits (Nat.lt_of_not_le hwhole)
      rw [he]
      constructor
      · intro h
        cases h
      · exact fun h => absurd h.2 hwhole
  · have hover := Nat.lt_of_not_le hfits
    have hfull := (hrun.full hle hover).2
    obtain ⟨hbytes, _⟩ := answer_full hfull.room .close
    obtain ⟨e, he⟩ := close_full hfull.room
    constructor
    · have hsink := hfull.of_prefix (Nat.le_of_lt hover) hclose.grows
      exact hbytes.trans hsink.bytes
    · intro summary
      have hlonger := hclose.grows.length_le
      rw [he]
      constructor
      · intro h
        cases h
      · intro h
        have hwhole := h.2
        omega

end Writer

end SeriesLog
