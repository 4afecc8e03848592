import SeriesLog.Proofs.Writer.Consistency
import SeriesLog.Proofs.Writer.Declaration
import SeriesLog.Proofs.Writer.Phases
import SeriesLog.Proofs.Writer.Rejection

/-! # Declaring a series again

A series is declared once. A later declaration of its name is a question whether the series is of a
kind and has index names; it is answered with the number of the series or with what differs, and
neither the log nor the writer is touched. Annotations are not compared, and those of the first
declaration stay for good. -/
namespace SeriesLog

theorem SeriesDescriptor.isCompatible_iff (d : SeriesDescriptor) (kind : SeriesKind)
    (indexNames : List String) :
    d.isCompatible kind indexNames = true ↔ Writer.redeclaration? d kind indexNames = none := by
  rw [Writer.redeclaration?_eq_none, isCompatible, decide_eq_true_iff]

namespace Writer

variable {w after : Writer} {located : List BlockLocation}

theorem Kept.indexOf?_of_descriptor? (h : Kept w located) {i : UInt32} {d : SeriesDescriptor}
    (hd : w.descriptor? i = some d) : w.indexOf? d.id = some i.toNat := by
  obtain ⟨s, hs, rfl⟩ := Option.map_eq_some_iff.1 hd
  exact (h.orderly.findIdx?_iff i.toNat s.descriptor.id).2 ⟨s, hs, rfl⟩

/-- The series of a writer are still there, with their numbers and descriptors. -/
def Retains (w after : Writer) : Prop :=
  w.series.map (·.descriptor) <+: after.series.map (·.descriptor)

theorem Retains.of_series (h : after.series = w.series) : w.Retains after :=
  ⟨[], by rw [List.append_nil, h]⟩

theorem Retains.trans {last : Writer} (h : w.Retains after) (k : after.Retains last) :
    w.Retains last :=
  List.IsPrefix.trans h k

theorem Retains.descriptor? (h : w.Retains after) {i : UInt32} {d : SeriesDescriptor}
    (hd : w.descriptor? i = some d) : after.descriptor? i = some d := by
  obtain ⟨more, hmore⟩ := h
  rw [Writer.descriptor?, ← List.getElem?_map] at hd ⊢
  rw [← hmore, List.getElem?_append_left (List.getElem?_eq_some_iff.1 hd).1]
  exact hd

theorem Attempt.retains {added : List Addition} (h : w.Attempt added after) : w.Retains after := by
  cases h with
  | refused => exact .of_series rfl
  | torn _ hextends => exact .of_series hextends.series
  | @added a after _ _ hextends =>
    rw [Retains, enter, hextends.series]
    cases a with
    | series d =>
      rw [Addition.enter, List.map_append]
      exact List.prefix_append _ _
    | data d payload =>
      refine ⟨[], ?_⟩
      rw [Addition.enter, map_descriptor_modify, List.append_nil]

theorem Attempts.retains (h : Attempts w after) : w.Retains after := by
  induction h with
  | none w => exact .of_series rfl
  | more hattempt _ ih => exact hattempt.retains.trans ih

theorem answer_retains (w : Writer) (call : Call) : w.Retains (w.answer call).2 := by
  by_cases hclosed : w.phase = .closed
  · rw [(closed_answer hclosed call).1]
    exact .of_series rfl
  · by_cases hcall : call = .close
    · subst hcall
      obtain ⟨_, _, _, hseries, _⟩ := close_adds w
      exact .of_series hseries
    · exact (answer_attempts hclosed hcall).retains

theorem run_retains (w : Writer) (calls : List Call) : w.Retains (w.run calls).2 := by
  induction calls generalizing w with
  | nil => exact .of_series rfl
  | cons call rest ih => exact (answer_retains w call).trans (ih _)

/-- What is left by a declaration that has added a series: the series stands behind all others, and
its descriptor lies on the sink as one block. -/
structure Adds (w after : Writer) (index : UInt32) (d : SeriesDescriptor) : Prop where
  /-- Numbers of series have 32 bits. -/
  number : index = UInt32.ofNat w.seriesCount
  count : after.seriesCount = w.seriesCount + 1
  series : after.series = w.series ++ [.declared d]
  found : w.seriesCount < 2 ^ 32 → index.toNat = w.seriesCount ∧ after.descriptor? index = some d
  framed : (Descriptor.encode (.series d)).length ≤ maxBodySize
  written : after.sink.bytes =
    w.sink.bytes ++ (Block.mk .descriptor (Descriptor.encode (.series d))).encode

theorem adds_of_declare {id : SeriesId} (hnew : w.indexOf? id = none) {kind : SeriesKind}
    {indexNames : List String} {annotations : Labels} {index : UInt32}
    (h : w.declare id kind indexNames annotations = (.ok index, after)) :
    w.Adds after index (.make index id kind indexNames annotations) := by
  obtain ⟨_, rfl, written, rfl, _, hle, hextends⟩ := declare_new_eq_ok hnew h
  let d := SeriesDescriptor.make (UInt32.ofNat w.series.length) id kind indexNames annotations
  have hseries := hextends.series_enter d w.position
  constructor
  case number => rfl
  case count => rw [seriesCount, hseries, List.length_append, List.length_singleton, seriesCount]
  case series => exact hseries
  case found =>
    intro hcount
    refine ⟨?_, (descriptor?_last hseries hnew).2 hcount⟩
    rw [UInt32.toNat_ofNat']
    exact Nat.mod_eq_of_lt hcount
  case framed => exact hle
  case written => exact hextends.bytes

/-- What an open writer does with the names of series. -/
structure DeclaresOnce (w : Writer) : Prop where
  again : ∀ i d, w.descriptor? i = some d → ∀ kind indexNames annotations,
    (w.declare d.id kind indexNames annotations).1 = .ok i ↔ d.isCompatible kind indexNames = true
  mismatch : ∀ i d, w.descriptor? i = some d → ∀ kind indexNames annotations,
    d.isCompatible kind indexNames = false →
      ∃ difference, redeclaration? d kind indexNames = some difference ∧
        (w.declare d.id kind indexNames annotations).1 = .error (.redeclared d.id difference)
  untouched : ∀ i d, w.descriptor? i = some d → ∀ kind indexNames annotations,
    (w.declare d.id kind indexNames annotations).2 = w
  lasting : ∀ i d, w.descriptor? i = some d → ∀ calls, (w.run calls).2.descriptor? i = some d
  first : ∀ id, (∀ s ∈ w.series, s.descriptor.id ≠ id) →
    ∀ kind indexNames annotations index after,
      w.declare id kind indexNames annotations = (.ok index, after) →
        w.Adds after index (.make index id kind indexNames annotations)

/-- In every state that an open writer reaches, whether its series were declared or introduced by
appends, a name that is known is declared again exactly if the series is compatible, without any
effect, and a name that is new adds one series and one block. -/
theorem declares_once {c : WriterConfig} (h : Reached c w located) (hopen : w.phase ≠ .closed) :
    w.DeclaresOnce := by
  have hagain : ∀ i d, w.descriptor? i = some d → ∀ kind indexNames annotations,
      w.declare d.id kind indexNames annotations =
        (((redeclaration? d kind indexNames).elim (.ok i) fun difference =>
          .error (.redeclared d.id difference)), w) := by
    intro i d hd kind indexNames annotations
    have hknown := (reached_kept h).indexOf?_of_descriptor? hd
    obtain ⟨s, hs, rfl⟩ := Option.map_eq_some_iff.1 hd
    rw [declare_again hopen hknown hs, UInt32.ofNat_toNat]
  constructor
  case again =>
    intro i d hd kind indexNames annotations
    rw [hagain i d hd, SeriesDescriptor.isCompatible_iff]
    cases redeclaration? d kind indexNames with
    | none => exact iff_of_true rfl rfl
    | some difference => exact iff_of_false nofun nofun
  case mismatch =>
    intro i d hd kind indexNames annotations hdiffers
    cases hdifference : redeclaration? d kind indexNames with
    | none =>
      rw [(d.isCompatible_iff kind indexNames).2 hdifference] at hdiffers
      cases hdiffers
    | some difference =>
      refine ⟨difference, rfl, ?_⟩
      rw [hagain i d hd, hdifference]
      rfl
  case untouched =>
    intro i d hd kind indexNames annotations
    rw [hagain i d hd]
  case lasting =>
    intro i d hd calls
    exact (run_retains w calls).descriptor? hd
  case first =>
    intro id hnew kind indexNames annotations index after hdeclare
    exact adds_of_declare (indexOf?_eq_none.2 hnew) hdeclare

/-- One series was introduced by an append and is declared again with annotations that no new series
may have; another was declared and is declared again with other index names. -/
theorem declares_once_introduced : ∃ (w : Writer) (located : List BlockLocation),
    Reached .default w located ∧ w.phase ≠ .closed ∧ w.seriesCount = 2 ∧
      w.declare (.ofType "a") .untyped [] (Labels.empty.insert "" "") = (.ok 0, w) ∧
      ∃ difference, w.declare (.ofType "b") (.message (.protobuf "t")) ["y"] .empty =
        (.error (.redeclared (.ofType "b") difference), w) := by
  let first : Call := .append (.ofType "a") 5 [] [1, 2]
  let second : Call := .declare (.ofType "b") (.message (.protobuf "t")) ["x"] .empty
  let a : SeriesDescriptor := .make 0 (.ofType "a") .untyped [] .empty
  let b : SeriesDescriptor := .make 1 (.ofType "b") (.message (.protobuf "t")) ["x"] .empty
  have hrun : (Writer.start .default (.empty none)).toOption.map (fun w =>
      let q := ((w.answer first).2.answer second).2
      (q.phase, q.seriesCount, q.descriptor? 0, q.descriptor? 1)) =
        some (.writing, 2, some a, some b) := by decide +kernel
  obtain ⟨w, hstart, hstate⟩ := exists_of_toOption_map hrun
  obtain ⟨hphase, hcount, ha, hb⟩ := by simpa only [Prod.mk.injEq] using hstate
  have hreached := Reached.call second (.call first (.start (Sink.bytes_empty _) hstart))
  have hopen : ((w.answer first).2.answer second).2.phase ≠ .closed := by
    rw [hphase]
    decide
  have honce := declares_once hreached hopen
  obtain ⟨difference, _, hmismatch⟩ :=
    honce.mismatch 1 b hb (.message (.protobuf "t")) ["y"] .empty rfl
  refine ⟨_, _, hreached, hopen, hcount, ?_, difference, ?_⟩
  · exact Prod.ext ((honce.again 0 a ha .untyped [] _).2 rfl) (honce.untouched 0 a ha _ _ _)
  · exact Prod.ext hmismatch (honce.untouched 1 b hb _ _ _)

end Writer

end SeriesLog
