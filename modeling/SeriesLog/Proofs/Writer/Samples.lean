import SeriesLog.Proofs.Writer.Contents
import SeriesLog.Proofs.Writer.Redeclaration
import SeriesLog.Reader.Samples

/-! # Writing samples

A writer takes values for a numeric series as a data block, and only if they are whole samples of
its shape. A series to which only samples are appended holds, in the order of the calls, what these
calls wrote. -/
namespace SeriesLog

/-- Whether a number of values is one of whole samples, at least one of them. -/
def Pod.Shape.Whole (shape : Shape) (count : Nat) : Prop :=
  ∃ perSample, shape.elementsPerSample = some perSample ∧ perSample ≠ 0 ∧ count ≠ 0 ∧
    perSample ∣ count

namespace Writer

variable {w : Writer} {index : UInt32} {timestamp : Int64} {indexValues : List Int64}
  {values : Pod.Values}

theorem sampleRefusal?_eq_none {d : SeriesDescriptor} : sampleRefusal? d values = none ↔
    ∃ shape, d.kind = .pod shape ∧ values.element = shape.element ∧
      shape.Whole values.words.length := by
  unfold sampleRefusal?
  cases hkind : d.kind with
  | untyped => simp
  | message type => simp
  | pod shape =>
    have hshape : (∃ other, SeriesKind.pod shape = .pod other ∧ values.element = other.element ∧
        other.Whole values.words.length) ↔
        values.element = shape.element ∧ shape.Whole values.words.length := by
      constructor
      · rintro ⟨other, hother, h⟩
        cases hother
        exact h
      · exact fun h => ⟨shape, rfl, h⟩
    rw [hshape]
    dsimp only
    by_cases helement : shape.element = values.element
    · rw [if_neg (not_not_intro helement), and_iff_right helement.symm]
      cases hper : shape.elementsPerSample with
      | none => simp [Pod.Shape.Whole, hper]
      | some perSample =>
        have hwhole : shape.Whole values.words.length ↔
            perSample ≠ 0 ∧ values.words.length ≠ 0 ∧ perSample ∣ values.words.length := by
          simp [Pod.Shape.Whole, hper]
        rw [hwhole, Nat.dvd_iff_mod_eq_zero]
        dsimp only
        split
        · next hpartial =>
          refine iff_of_false nofun ?_
          rintro ⟨hper, hcount, hmod⟩
          omega
        · next hnot =>
          refine iff_of_true rfl ?_
          omega
    · rw [if_pos helement]
      exact iff_of_false nofun fun h => helement h.1.symm

theorem series_of_appendTo {payload : Bytes} {l : BlockLocation}
    (h : (w.appendTo index timestamp indexValues payload).1 = .ok l) : l.series = index := by
  by_cases hclosed : w.phase = .closed
  · rw [appendTo_closed hclosed] at h
    cases h
  · rcases appendTo_cases hclosed index timestamp indexValues payload with
      ⟨e, hrefused⟩ | ⟨s, after, _, hadded, _⟩ | ⟨e, after, taken, htorn, _⟩
    · rw [hrefused] at h
      cases h
    · rw [hadded] at h
      cases h
      rfl
    · rw [htorn] at h
      cases h

theorem appendSamples_eq_ok {l : BlockLocation}
    (h : (w.appendSamples index timestamp indexValues values).1 = .ok l) :
    l.series = index ∧ ∃ d, w.descriptor? index = some d ∧ sampleRefusal? d values = none := by
  unfold appendSamples at h
  split at h
  · cases h
  next d hd =>
  split at h
  · cases h
  next hrefusal =>
  exact ⟨series_of_appendTo h, d, hd, hrefusal⟩

/-- Values are taken if they are whole samples of the series and their block is taken, and only
then. -/
theorem appendSamples_ok_iff (w : Writer) (index : UInt32) (timestamp : Int64)
    (indexValues : List Int64) (values : Pod.Values) :
    (∃ l, (w.appendSamples index timestamp indexValues values).1 = .ok l) ↔
      (∃ d shape, w.descriptor? index = some d ∧ d.kind = .pod shape ∧
        values.element = shape.element ∧ shape.Whole values.words.length) ∧
      ∃ l, (w.appendTo index timestamp indexValues values.encode).1 = .ok l := by
  constructor
  · rintro ⟨l, h⟩
    obtain ⟨_, d, hd, hrefusal⟩ := appendSamples_eq_ok h
    obtain ⟨shape, hshape⟩ := sampleRefusal?_eq_none.1 hrefusal
    rw [appendSamples, hd] at h
    dsimp only at h
    rw [hrefusal] at h
    exact ⟨⟨d, shape, hd, hshape⟩, l, h⟩
  · rintro ⟨⟨d, shape, hd, hshape⟩, haccepted⟩
    rw [appendSamples, hd]
    dsimp only
    rw [sampleRefusal?_eq_none.2 ⟨shape, hshape⟩]
    exact haccepted

end Writer

def Call.isRaw : Call → Bool
  | append _ _ _ _ | appendTo _ _ _ _ => true
  | declare _ _ _ _ | appendSamples _ _ _ _ | flush | close => false

def samples? (index : UInt32) (shape : Pod.Shape) (call : Call) (answer : Except LogError Answer) :
    Option SampleBlock :=
  match call, location? answer with
  | .appendSamples i timestamp indexValues values, some _ =>
    if i = index then some ⟨timestamp, indexValues, shape, values⟩ else none
  | _, _ => none

def SampleBlock.request (b : SampleBlock) : Request :=
  ⟨b.timestamp, b.indexValues, b.values.encode⟩

def requestTo? (index : UInt32) (written : UInt32 × Request) : Option Request :=
  if written.1 = index then some written.2 else none

variable {index : UInt32} {shape : Pod.Shape}

theorem requestTo?_written {w : Writer} {call : Call}
    (hraw : call.isRaw = true → (location? (w.answer call).1).map (·.series) ≠ some index) :
    (written? call (w.answer call).1).bind (requestTo? index) =
      (samples? index shape call (w.answer call).1).map SampleBlock.request := by
  unfold written? samples?
  cases hlocation : location? (w.answer call).1 with
  | none => cases call <;> rfl
  | some l =>
    rw [hlocation] at hraw
    cases call with
    | declare id kind indexNames annotations => rfl
    | flush => rfl
    | close => rfl
    | append id timestamp indexValues payload => exact if_neg fun h => hraw rfl (congrArg some h)
    | appendTo i timestamp indexValues payload =>
      exact if_neg fun h => hraw rfl (congrArg some h)
    | appendSamples i timestamp indexValues values =>
      have hseries : l.series = i := by
        simp only [Writer.answer] at hlocation
        cases happend : (w.appendSamples i timestamp indexValues values).1 with
        | error e =>
          rw [happend] at hlocation
          cases hlocation
        | ok found =>
          rw [happend] at hlocation
          cases hlocation
          exact (Writer.appendSamples_eq_ok happend).1
      simp only [Option.bind_some, Call.request?, Option.map_some, requestTo?, hseries]
      split <;> rfl

theorem filterMap_requestTo? (index : UInt32) (records : List DataRecord) :
    (records.map DataRecord.written).filterMap (requestTo? index) =
      (records.filter fun q => q.series = index).map DataRecord.request := by
  induction records with
  | nil => rfl
  | cons q rest ih =>
    by_cases hseries : q.series = index
    · simp [requestTo?, DataRecord.written, hseries, ih]
    · simp [requestTo?, DataRecord.written, hseries, ih]

namespace Run

variable {c : WriterConfig} (run : Run c)

def samples (index : UInt32) (shape : Pod.Shape) : List SampleBlock :=
  (run.calls.zip run.answers).filterMap fun p => samples? index shape p.1 p.2

/-- Whether no raw payload was placed in a series. -/
def SamplesOnly (index : UInt32) : Prop :=
  ∀ p ∈ run.calls.zip run.answers, p.1.isRaw = true →
    (location? p.2).map (·.series) ≠ some index

theorem exists_answer {p : Call × Except LogError Answer} (hp : p ∈ run.calls.zip run.answers) :
    ∃ (v : Writer) (more : List Call), p.2 = (v.answer p.1).1 ∧ (v.run more).2 = run.last := by
  have hanswers : run.answers = (run.start.run run.calls).1 := by rw [run.answered]
  have hlast : (run.start.run run.calls).2 = run.last := by rw [run.answered]
  rw [hanswers] at hp
  rw [← hlast]
  exact Writer.exists_answer_of_mem_zip hp

theorem requests_eq_samples (h : run.SamplesOnly index) (shape : Pod.Shape) :
    ((recordsIn c.annotations run.journal).filter fun q => q.series = index).map
        DataRecord.request =
      (run.samples index shape).map SampleBlock.request := by
  rw [← filterMap_requestTo?, run.records_written, samples, List.filterMap_filterMap,
    List.map_filterMap]
  apply List.filterMap_congr
  rintro ⟨call, answer⟩ hp
  obtain ⟨v, _, hanswer, _⟩ := run.exists_answer hp
  have hraw := h _ hp
  dsimp only at hanswer hraw ⊢
  rw [hanswer] at hraw ⊢
  exact requestTo?_written hraw

theorem whole_of_mem_samples {d : SeriesDescriptor} (hd : run.last.descriptor? index = some d)
    (hkind : d.kind = .pod shape) {b : SampleBlock} (hb : b ∈ run.samples index shape) :
    b.shape = shape ∧ b.values.element = shape.element ∧
      shape.Whole b.values.words.length := by
  obtain ⟨⟨call, answer⟩, hp, hsample⟩ := List.mem_filterMap.1 hb
  obtain ⟨v, more, hanswer, hlast⟩ := run.exists_answer hp
  dsimp only at hanswer hsample
  unfold samples? at hsample
  split at hsample
  · next i timestamp indexValues values l hlocation =>
    split at hsample
    · next hindex =>
      cases hsample
      subst hindex
      rw [hanswer] at hlocation
      simp only [Writer.answer] at hlocation
      cases happend : (v.appendSamples i timestamp indexValues values).1 with
      | error e =>
        rw [happend] at hlocation
        cases hlocation
      | ok found =>
        obtain ⟨_, first, hfirst, hrefusal⟩ := Writer.appendSamples_eq_ok happend
        -- the descriptor at the time of the call is the one at the end
        have hretains := (Writer.run_retains v more).descriptor? hfirst
        rw [hlast, hd] at hretains
        cases hretains
        obtain ⟨other, hother, hwhole⟩ := Writer.sampleRefusal?_eq_none.1 hrefusal
        rw [hkind] at hother
        cases hother
        exact ⟨rfl, hwhole⟩
    · cases hsample
  · cases hsample

end Run

end SeriesLog
