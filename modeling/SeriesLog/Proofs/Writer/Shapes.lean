import SeriesLog.Proofs.Pod.Shape
import SeriesLog.Proofs.Writer.Consistency
import SeriesLog.Proofs.Writer.Rejection

/-! # Shapes of samples

Readers and writers of a numeric series ask whether the size of a sample fits into 64 bits. They are
told the true size, and take the shapes for which it fits and no others, except where a dimension of
zero comes behind dimensions that are too large without it: such a shape is refused, though its
samples are empty, and in another order of its dimensions it is taken. -/
namespace SeriesLog

namespace Writer

variable {w : Writer} {s : Pod.Shape}

theorem refusal?_pod {annotations : Labels} (h : Annotations.fault? annotations = none)
    (id : SeriesId) :
    refusal? id (.pod s) annotations =
      if s.sampleSize.isSome then none else some (.sampleMismatch id (.overflow s)) := by
  unfold refusal?
  rw [h]
  dsimp only
  cases s.sampleSize <;> rfl

/-- A new numeric series is added if a sample has a size and the sink has room for the descriptor;
a shape without a size is named in the error and changes nothing. -/
theorem declare_pod_new (hopen : w.phase ≠ .closed) {id : SeriesId} (hnew : w.indexOf? id = none)
    (indexNames : List String) {annotations : Labels} (h : Annotations.fault? annotations = none) :
    let body := Descriptor.encode
      (.series (.make (UInt32.ofNat w.series.length) id (.pod s) indexNames annotations))
    ((∃ index, (w.declare id (.pod s) indexNames annotations).1 = .ok index) ↔
      s.sampleSize.isSome ∧ body.length ≤ maxBodySize ∧
        w.sink.HasRoom (headerSize + body.length)) ∧
    (¬ s.sampleSize.isSome → w.declare id (.pod s) indexNames annotations =
      (.error (.sampleMismatch id (.overflow s)), w)) := by
  intro body
  have hwrite := writeBlock_ok_iff w .descriptor [body]
  rw [List.flatten_singleton] at hwrite
  rw [declare_of_new hopen hnew, addSeries, refusal?_pod h]
  by_cases hsize : s.sampleSize.isSome
  · rw [if_pos hsize, and_iff_right hsize, ← hwrite]
    refine ⟨?_, fun hnone => absurd hsize hnone⟩
    dsimp only
    cases w.writeBlock .descriptor [body] with
    | mk result after => cases result <;> simp
  · rw [if_neg hsize]
    exact ⟨iff_of_false (by rintro ⟨_, ⟨⟩⟩) fun hall => hsize hall.1, fun _ => rfl⟩

/-- In every state a numeric series that is accepted, for the first time or again, has samples of a
size. -/
theorem Reached.declare_pod_eq_ok {c : WriterConfig} {located : List BlockLocation}
    (h : Reached c w located) {id : SeriesId} {indexNames : List String} {annotations : Labels}
    {index : UInt32} {after : Writer}
    (hok : w.declare id (.pod s) indexNames annotations = (.ok index, after)) :
    s.sampleSize.isSome := by
  cases hknown : w.indexOf? id with
  | none =>
    obtain ⟨_, _, _, _, hadmits, _⟩ := declare_new_eq_ok hknown hok
    cases hadmits with
    | series _ hrefusal => exact (bounded_of_refusal hrefusal).2
  | some i =>
    have hopen : w.phase ≠ .closed := by
      intro hclosed
      rw [declare_closed hclosed] at hok
      cases hok
    obtain ⟨first, hfirst, _⟩ := indexOf?_eq_some hknown
    rw [declare_again hopen hknown hfirst] at hok
    cases hdifference : redeclaration? first.descriptor (.pod s) indexNames with
    | some difference =>
      rw [hdifference] at hok
      cases hok
    | none =>
      have hkind := ((redeclaration?_eq_none _ _ _).1 hdifference).1
      have hbounded := (reached_kept h).orderly.bounded first (List.mem_of_getElem? hfirst)
      rw [hkind] at hbounded
      exact hbounded

end Writer

namespace Pod.Shape

variable {s : Shape}

theorem check_eq {r : ShapeRecord} (helement : Element.ofCode? r.element.toInt.toNat = some s.element)
    (hdimensions : r.dimensions = s.dimensions) :
    r.check = if s.sampleSize.isSome then .ok s else .error (.invalidPod (.overflow s)) := by
  have hshape : Shape.mk s.element r.dimensions = s := by rw [hdimensions]
  unfold ShapeRecord.check
  rw [helement]
  dsimp only
  rw [hshape]
  cases s.sampleSize <;> rfl

/-- What is told of a shape is its true size, and nothing else decides whether readers and writers
take it. -/
structure Measured (s : Shape) : Prop where
  elements : ∀ n, s.elementsPerSample = some n ↔ n = s.elementCount ∧ s.elementCount ≤ 2 ^ 64 - 1
  bytes : ∀ n, s.sampleSize = some n ↔ n = s.byteCount ∧ s.byteCount ≤ 2 ^ 64 - 1
  reordered : ∀ t, s.Reordered t → ¬ t.Overshoots →
    t.elementsPerSample = s.elementsPerSample ∧ t.sampleSize = s.sampleSize
  read : ∀ r : ShapeRecord, Element.ofCode? r.element.toInt.toNat = some s.element →
    r.dimensions = s.dimensions →
    r.check = if s.byteCount ≤ 2 ^ 64 - 1 then .ok s else .error (.invalidPod (.overflow s))
  declared : ∀ (w : Writer) (id : SeriesId) (indexNames : List String) (annotations : Labels),
    w.phase ≠ .closed → w.indexOf? id = none → Annotations.fault? annotations = none →
    let body := Descriptor.encode
      (.series (.make (UInt32.ofNat w.series.length) id (.pod s) indexNames annotations))
    ((∃ index, (w.declare id (.pod s) indexNames annotations).1 = .ok index) ↔
      s.byteCount ≤ 2 ^ 64 - 1 ∧ body.length ≤ maxBodySize ∧
        w.sink.HasRoom (headerSize + body.length)) ∧
    (¬ s.byteCount ≤ 2 ^ 64 - 1 → w.declare id (.pod s) indexNames annotations =
      (.error (.sampleMismatch id (.overflow s)), w))
  /-- Also when a series is declared again. -/
  accepted : ∀ (c : WriterConfig) (w after : Writer) (located : List BlockLocation) (id : SeriesId)
    (indexNames : List String) (annotations : Labels) (index : UInt32),
    w.Reached c located → w.declare id (.pod s) indexNames annotations = (.ok index, after) →
    s.byteCount ≤ 2 ^ 64 - 1

theorem measured_of_not_overshoots (h : ¬ s.Overshoots) : s.Measured := by
  have hle : ∀ n : Nat, n < 2 ^ 64 ↔ n ≤ 2 ^ 64 - 1 := fun n => by omega
  have hsize : s.sampleSize.isSome ↔ s.byteCount ≤ 2 ^ 64 - 1 := by
    rw [sampleSize_isSome_iff h, hle]
  constructor
  case elements =>
    intro n
    rw [elementsPerSample_eq_some_iff h, hle]
  case bytes =>
    intro n
    rw [sampleSize_eq_some_iff h, hle]
  case reordered => exact fun t horder ht => horder.sizes h ht
  case read =>
    intro r helement hdimensions
    rw [check_eq helement hdimensions]
    simp only [hsize]
  case declared =>
    intro w id indexNames annotations hopen hnew hvalid
    rw [← hsize]
    exact Writer.declare_pod_new hopen hnew indexNames hvalid
  case accepted =>
    intro c w after located id indexNames annotations index hreached hok
    exact hsize.1 (hreached.declare_pod_eq_ok hok)

theorem Overshoots.not_measured (h : s.Overshoots) : ¬ s.Measured := by
  intro hmeasured
  obtain ⟨hnone, _, hzero, _⟩ := h.uncounted
  have hcounted := (hmeasured.elements 0).2 ⟨hzero.symm, hzero ▸ Nat.zero_le _⟩
  rw [hnone] at hcounted
  cases hcounted

/-- The true size of a sample is told of every shape, and decides whether it is taken, unless a
dimension of zero comes too late. Such a shape has no size, although its samples are empty. -/
theorem measured_iff (s : Shape) :
    (s.Measured ↔ ¬ s.Overshoots) ∧
      (s.Overshoots → s.elementsPerSample = none ∧ s.sampleSize = none ∧
        s.elementCount = 0 ∧ s.byteCount = 0) :=
  ⟨⟨fun h hlate => hlate.not_measured h, measured_of_not_overshoots⟩, Overshoots.uncounted⟩

/-- A zero that comes in time: samples are empty, whatever follows. -/
theorem measured_iff_zero_in_time :
    let s : Shape := ⟨.float64, [4294967295, 4294967295, 0, 4294967295]⟩
    ¬ s.Overshoots ∧ s.Measured ∧ s.sampleSize = some 0 := by
  intro s
  have hearly : ¬ s.Overshoots := by decide +kernel
  have hmeasured := (measured_iff s).1.2 hearly
  exact ⟨hearly, hmeasured, (hmeasured.bytes 0).2 ⟨by decide, by decide⟩⟩

/-- A zero that comes too late. With the zero in front the same dimensions have a size. -/
theorem not_measured_late_zero :
    let s : Shape := ⟨.uint8, [4294967295, 4294967295, 4294967295, 0]⟩
    let t : Shape := ⟨.uint8, [0, 4294967295, 4294967295, 4294967295]⟩
    s.elementCount = 0 ∧ s.byteCount = 0 ∧ s.elementsPerSample = none ∧ s.sampleSize = none ∧
      s.Reordered t ∧ t.elementsPerSample = some 0 ∧ t.sampleSize = some 0 ∧
      s.record.check = .error (.invalidPod (.overflow s)) ∧ t.record.check = .ok t ∧
      ¬ s.Measured := by
  intro s t
  refine ⟨by decide +kernel, by decide +kernel, by decide +kernel, by decide +kernel,
    ⟨rfl, by decide⟩, by decide +kernel, by decide +kernel, by decide +kernel, by decide +kernel, ?_⟩
  have hlate : s.Overshoots := by decide +kernel
  exact hlate.not_measured

end Pod.Shape

end SeriesLog
