import SeriesLog.Proofs.Writer.Steps

/-! # Declarations read back

The block that a writer puts on its sink for a new series is read back as the descriptor that the
writer keeps for it, unless the series has no type. Readers refuse such a name, and so do the checks
on names that come in parts, but a writer takes it from whoever built it otherwise. -/
namespace SeriesLog

/-- The descriptor of a series that is not refused for its kind is read back if its name has a
type, and only then. -/
theorem decode_make {id : SeriesId} {kind : SeriesKind} {annotations : Labels}
    (hrefusal : Writer.refusal? id kind annotations = none) (index : UInt32)
    (indexNames : List String)
    (hlen : (Descriptor.encode (.series (.make index id kind indexNames annotations))).length ≤
      maxBodySize) :
    Descriptor.decode (Descriptor.encode (.series (.make index id kind indexNames annotations))) =
      if id.type = "" then .error (.invalidSeries .emptyType)
      else .ok (.series (.make index id kind indexNames annotations)) := by
  have hshort := Nat.lt_of_le_of_lt hlen (show maxBodySize < 2 ^ 64 by decide)
  by_cases htype : id.type = ""
  · rw [if_pos htype]
    have hcheck : (SeriesDescriptor.make index id kind indexNames annotations).record.check =
        .error (.invalidSeries .emptyType) := if_pos htype
    simp only [Descriptor.decode, Descriptor.read_encode hshort, Descriptor.record,
      DescriptorRecord.check, hcheck, Except.map]
  · rw [if_neg htype]
    exact Descriptor.decode_encode hshort ⟨htype, rfl, (bounded_of_refusal hrefusal).2⟩

namespace Writer

variable {w : Writer}

/-- What is known of the block of a new series, written by `w` in front of other bytes. The series
is kept by the writer `after` that, under the number that it was given. -/
structure Describes (w after : Writer) (id : SeriesId) (index : UInt32) (body rest : Bytes) :
    Prop where
  written : after.sink.bytes = w.sink.bytes ++ (Block.mk .descriptor body).encode ++ rest
  framed : body.length ≤ maxBodySize
  /-- The block is read back as the descriptor that is kept. Numbers have 32 bits. -/
  readBack : (∃ d, Descriptor.decode body = .ok (.series d) ∧ after.descriptor? index = some d) ↔
    id.type ≠ "" ∧ w.series.length < 2 ^ 32
  /-- A reader refuses a name without a type. -/
  refused : id.type = "" → Descriptor.decode body = .error (.invalidSeries .emptyType)

/-- The number of the last series leads to it as long as it fits into 32 bits; else it leads to an
earlier series. -/
theorem descriptor?_last {after : Writer} {d : SeriesDescriptor}
    (hseries : after.series = w.series ++ [.declared d]) (hnew : w.indexOf? d.id = none) :
    after.descriptor? (UInt32.ofNat w.series.length) = some d ↔ w.series.length < 2 ^ 32 := by
  rw [descriptor?, hseries, UInt32.toNat_ofNat']
  by_cases hlt : w.series.length < 2 ^ 32
  · rw [Nat.mod_eq_of_lt hlt, List.getElem?_concat_length]
    exact iff_of_true rfl hlt
  · have hearlier : w.series.length % 2 ^ 32 < w.series.length :=
      Nat.lt_of_lt_of_le (Nat.mod_lt _ (by decide)) (Nat.le_of_not_lt hlt)
    rw [List.getElem?_append_left hearlier, List.getElem?_eq_getElem hearlier]
    refine iff_of_false ?_ hlt
    intro hsame
    exact indexOf?_eq_none.1 hnew _ (List.getElem_mem hearlier)
      (congrArg SeriesDescriptor.id (Option.some.inj hsame))

theorem describes_of_declare {id : SeriesId} (hnew : w.indexOf? id = none) {kind : SeriesKind}
    {indexNames : List String} {annotations : Labels} {index : UInt32} {after : Writer}
    (h : w.declare id kind indexNames annotations = (.ok index, after)) :
    ∃ body, w.Describes after id index body [] := by
  obtain ⟨_, rfl, written, rfl, hadmits, hle, hextends⟩ := declare_new_eq_ok hnew h
  cases hadmits with
  | series _ hrefusal =>
    let d := SeriesDescriptor.make (UInt32.ofNat w.series.length) id kind indexNames annotations
    have hdecode : Descriptor.decode (Descriptor.encode (.series d)) = _ :=
      decode_make hrefusal _ indexNames hle
    have hseries := hextends.series_enter d w.position
    refine ⟨Descriptor.encode (.series d), ?_, hle, ?_, fun htype => hdecode.trans (if_pos htype)⟩
    · rw [List.append_nil]
      exact hextends.bytes
    · rw [← descriptor?_last hseries hnew, hdecode]
      by_cases htype : id.type = ""
      · simp [htype]
      · simp [htype, d]

theorem descriptor?_congr {after : Writer}
    (h : after.series.map (·.descriptor) = w.series.map (·.descriptor)) (i : UInt32) :
    after.descriptor? i = w.descriptor? i := by
  rw [descriptor?, descriptor?, ← List.getElem?_map, ← List.getElem?_map, h]

theorem appendTo_keeps (w : Writer) (index : UInt32) (timestamp : Int64)
    (indexValues : List Int64) (payload : Bytes) :
    ∃ taken, (w.appendTo index timestamp indexValues payload).2.sink.bytes =
        w.sink.bytes ++ taken ∧
      (w.appendTo index timestamp indexValues payload).2.series.map (·.descriptor) =
        w.series.map (·.descriptor) := by
  by_cases hclosed : w.phase = .closed
  · rw [appendTo_closed hclosed]
    exact ⟨[], (List.append_nil _).symm, rfl⟩
  · rcases appendTo_cases hclosed index timestamp indexValues payload with
      ⟨e, hrefused⟩ | ⟨s, after, _, hadded, _, _, _, hextends⟩ |
        ⟨e, after, taken, htorn, _, hextends⟩
    · rw [hrefused]
      exact ⟨[], (List.append_nil _).symm, rfl⟩
    · rw [hadded]
      refine ⟨_, hextends.bytes, ?_⟩
      rw [enter, Addition.enter, map_descriptor_modify, hextends.series]
    · rw [htorn]
      exact ⟨taken, hextends.bytes, congrArg _ hextends.series⟩

theorem describes_of_append {id : SeriesId} (hnew : w.indexOf? id = none) {index : UInt32}
    {named : Writer} (h : w.declare id .untyped [] .empty = (.ok index, named)) (timestamp : Int64)
    (indexValues : List Int64) (payload : Bytes) :
    ∃ body rest,
      w.Describes (w.append id timestamp indexValues payload).2 id index body rest := by
  obtain ⟨body, hwritten, hframed, hreadBack, hrefused⟩ := describes_of_declare hnew h
  obtain ⟨taken, hbytes, hkept⟩ := appendTo_keeps named index timestamp indexValues payload
  have happend := append_of_declared hnew h timestamp indexValues payload
  refine ⟨body, taken, ?_, hframed, ?_, hrefused⟩
  · rw [happend, hbytes, hwritten, List.append_nil]
  · rw [happend, descriptor?_congr hkept]
    exact hreadBack

/-- Whenever a new series is declared, or introduced by an append, the block that is written for it
is read back as the descriptor which is kept for it exactly if its name has a type, as long as
numbers of series fit into 32 bits. -/
theorem described_iff_typed {id : SeriesId} (hnew : w.indexOf? id = none) :
    (∀ kind indexNames annotations index after,
      w.declare id kind indexNames annotations = (.ok index, after) →
        ∃ body, w.Describes after id index body []) ∧
    ∀ index named, w.declare id .untyped [] .empty = (.ok index, named) →
      ∀ timestamp indexValues payload, ∃ body rest,
        w.Describes (w.append id timestamp indexValues payload).2 id index body rest :=
  ⟨fun _ _ _ _ _ h => describes_of_declare hnew h, fun _ _ h => describes_of_append hnew h⟩

/-- A numeric series behind an untyped one. -/
theorem described_iff_typed_numeric : ∃ (v after : Writer) (body : Bytes) (d : SeriesDescriptor),
    start .default (.empty none) = .ok v ∧
      let w := (v.declare (.ofType "a") .untyped [] .empty).2
      w.seriesCount = 1 ∧
        w.declare (.ofType "p") (.pod ⟨.int16, [2, 3]⟩) ["seq"] .empty = (.ok 1, after) ∧
        after.sink.bytes = w.sink.bytes ++ (Block.mk .descriptor body).encode ∧
        Descriptor.decode body = .ok (.series d) ∧ after.descriptor? 1 = some d := by
  have hrun : (start .default (.empty none)).toOption.map (fun v =>
      let w := (v.declare (.ofType "a") .untyped [] .empty).2
      (w.seriesCount, w.indexOf? (.ofType "p"),
        (w.declare (.ofType "p") (.pod ⟨.int16, [2, 3]⟩) ["seq"] .empty).1)) =
      some (1, none, .ok 1) := by
    decide +kernel
  obtain ⟨v, hstart, hvalues⟩ := exists_of_toOption_map hrun
  obtain ⟨hcount, hnew, hresult⟩ := by simpa only [Prod.mk.injEq] using hvalues
  obtain ⟨body, hdescribes⟩ := (described_iff_typed hnew).1 _ _ _ _ _ (Prod.ext hresult rfl)
  have hlt : (v.declare (.ofType "a") .untyped [] .empty).2.series.length < 2 ^ 32 := by
    rw [← seriesCount, hcount]
    decide
  obtain ⟨d, hdecode, hkept⟩ := hdescribes.readBack.2 ⟨by decide, hlt⟩
  have hwritten := hdescribes.written
  rw [List.append_nil] at hwritten
  exact ⟨v, _, body, d, hstart, hcount, Prod.ext hresult rfl, hwritten, hdecode, hkept⟩

/-- A writer takes a series without a type, and its block cannot be read. -/
theorem declare_typeless_unreadable : ∃ (w after : Writer) (body : Bytes),
    start .default (.empty none) = .ok w ∧
      w.declare (.ofType "") .untyped [] .empty = (.ok 0, after) ∧
      after.sink.bytes = w.sink.bytes ++ (Block.mk .descriptor body).encode ∧
      Descriptor.decode body = .error (.invalidSeries .emptyType) := by
  let body := Descriptor.encode (.series (.make 0 (.ofType "") .untyped [] .empty))
  have hrun : (start .default (.empty none)).toOption.map (fun w =>
      let declared := w.declare (.ofType "") .untyped [] .empty
      (declared.1, decide (declared.2.sink.bytes =
        w.sink.bytes ++ (Block.mk .descriptor body).encode))) = some (.ok 0, true) := by
    decide +kernel
  have hlen : body.length ≤ maxBodySize := by decide +kernel
  obtain ⟨w, hstart, hvalues⟩ := exists_of_toOption_map hrun
  obtain ⟨hresult, hwritten⟩ := by simpa only [Prod.mk.injEq, decide_eq_true_eq] using hvalues
  exact ⟨w, _, body, hstart, Prod.ext hresult rfl, hwritten, decode_make rfl 0 [] hlen⟩

end Writer

end SeriesLog
