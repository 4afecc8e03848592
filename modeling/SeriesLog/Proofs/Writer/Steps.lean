import SeriesLog.Proofs.Log.Journal

/-! # Steps of a writer

Whatever a call asks for, a writer adds a whole block and enters it into its table, or it leaves
the table alone. What reaches the sink on a failure is part of one block; a call that is refused
reaches nothing. -/
namespace SeriesLog.Writer

variable {w : Writer}

/-- A writer after more bytes on its sink, with nothing else changed. -/
structure Extends (w after : Writer) (taken : Bytes) : Prop where
  bytes : after.sink.bytes = w.sink.bytes ++ taken
  position : after.position = w.position + taken.length
  series : after.series = w.series
  phase : after.phase = w.phase
  limit : after.maxBlockSize = w.maxBlockSize
  room : w.sink.room = none → after.sink.room = none

theorem Extends.refl (w : Writer) : w.Extends w [] := by
  constructor <;> simp

theorem Extends.trans {v u : Writer} {taken more : Bytes} (h : w.Extends v taken)
    (k : v.Extends u more) : w.Extends u (taken ++ more) := by
  constructor
  · rw [k.bytes, h.bytes, List.append_assoc]
  · rw [k.position, h.position, List.length_append, Nat.add_assoc]
  · exact k.series.trans h.series
  · exact k.phase.trans h.phase
  · exact k.limit.trans h.limit
  · exact fun hroom => k.room (h.room hroom)

theorem put_extends (w : Writer) (piece : Bytes) :
    w.Extends (w.put piece) (w.sink.fitting piece) := by
  constructor
  · exact Sink.bytes_write w.sink piece
  · rfl
  · rfl
  · rfl
  · rfl
  · intro hroom
    simp [put, Sink.write, hroom]

theorem fits_of_unlimited (h : w.sink.room = none) (piece : Bytes) : w.fits piece = true := by
  simp [fits, Sink.fitting, h]

theorem putAll_extends (w : Writer) (pieces : List Bytes) :
    ∃ taken, w.Extends (w.putAll pieces).2 taken ∧
      ((w.putAll pieces).1 = true → taken = pieces.flatten) ∧
      (w.sink.room = none → (w.putAll pieces).1 = true) := by
  induction pieces generalizing w with
  | nil => exact ⟨[], Extends.refl w, fun _ => rfl, fun _ => rfl⟩
  | cons piece rest ih =>
    have hput := put_extends w piece
    unfold putAll
    by_cases hfits : w.fits piece = true
    · have hpiece : w.sink.fitting piece = piece := by simpa [fits] using hfits
      obtain ⟨taken, hrest, hwhole, hroom⟩ := ih (w.put piece)
      rw [hpiece] at hput
      rw [if_pos hfits]
      refine ⟨piece ++ taken, hput.trans hrest, ?_, fun h => hroom (hput.room h)⟩
      intro h
      rw [hwhole h, List.flatten_cons]
    · rw [if_neg hfits]
      refine ⟨_, hput, by simp, ?_⟩
      intro h
      exact absurd (fits_of_unlimited h piece) hfits

/-- Writing a block is refused for its size, or puts it whole on the sink, or, on a sink with a
limit, leaves part of it there. -/
theorem writeBlock_cases (w : Writer) (type : BlockType) (parts : List Bytes) :
    (∃ e, w.writeBlock type parts = (.error e, w) ∧ maxBodySize < parts.flatten.length) ∨
      (∃ after, w.writeBlock type parts = (.ok (), after) ∧
        parts.flatten.length ≤ maxBodySize ∧
        w.Extends after (Block.mk type parts.flatten).encode) ∨
      ∃ e after taken, w.writeBlock type parts = (.error e, after) ∧ w.sink.room ≠ none ∧
        w.Extends after taken := by
  unfold writeBlock
  cases hpieces : blockPieces type parts with
  | error e =>
    refine .inl ⟨_, rfl, ?_⟩
    apply Nat.lt_of_not_le
    intro hle
    obtain ⟨pieces, hok⟩ := blockPieces_of_le type hle
    rw [hpieces] at hok
    cases hok
  | ok pieces =>
    obtain ⟨hle, hflatten⟩ := blockPieces_eq_ok hpieces
    obtain ⟨taken, hextends, hwhole, hroom⟩ := putAll_extends w pieces
    cases hput : w.putAll pieces with
    | mk whole after =>
      rw [hput] at hextends hwhole hroom
      simp only [hput]
      cases whole with
      | true =>
        refine .inr (.inl ⟨after, rfl, hle, ?_⟩)
        rw [← hflatten, ← hwhole rfl]
        exact hextends
      | false =>
        refine .inr (.inr ⟨_, after, taken, rfl, ?_, hextends⟩)
        intro h
        cases hroom h

def phaseAfter (phase : Phase) : Addition → Phase
  | .series _ => phase
  | .data _ _ => .writing

def enter (w : Writer) (a : Addition) (offset : Nat) : Writer :=
  { w with series := a.enter offset w.series, phase := phaseAfter w.phase a }

theorem Extends.series_enter {after : Writer} {taken : Bytes} (h : w.Extends after taken)
    (d : SeriesDescriptor) (offset : Nat) :
    (after.enter (.series d) offset).series = w.series ++ [.declared d] := by
  rw [enter, Addition.enter, h.series]

/-- What an attempt to add a block makes of a writer. -/
inductive Attempt (w : Writer) : List Addition → Writer → Prop where
  | refused : Attempt w [] w
  | torn {after : Writer} {taken : Bytes} : w.sink.room ≠ none → w.Extends after taken →
      Attempt w [] after
  | added {a : Addition} {after : Writer} : Admits w.series a →
      a.block.body.length ≤ maxBodySize → w.Extends after a.block.encode →
      Attempt w [a] (after.enter a w.position)

theorem Attempt.open_of_open {after : Writer} {added : List Addition} (h : w.Attempt added after)
    (hopen : w.phase ≠ .closed) : after.phase ≠ .closed := by
  cases h with
  | refused => exact hopen
  | torn _ hextends =>
    rw [hextends.phase]
    exact hopen
  | @added a after _ _ hextends =>
    cases a with
    | series d => simpa [enter, phaseAfter, hextends.phase] using hopen
    | data d payload => simp [enter, phaseAfter]

theorem indexOf?_eq_some {id : SeriesId} {i : Nat} (h : w.indexOf? id = some i) :
    ∃ s, w.series[i]? = some s ∧ s.descriptor.id = id := by
  obtain ⟨hlt, hid, _⟩ := List.findIdx?_eq_some_iff_getElem.1 h
  exact ⟨w.series[i], List.getElem?_eq_getElem hlt, of_decide_eq_true hid⟩

theorem indexOf?_eq_none {id : SeriesId} :
    w.indexOf? id = none ↔ ∀ s ∈ w.series, s.descriptor.id ≠ id := by
  simp [indexOf?, List.findIdx?_eq_none_iff]

/-- A name that is known is not declared again: the answer is the number of the series, or what
differs. -/
theorem declare_again (hopen : w.phase ≠ .closed) {id : SeriesId} {i : Nat} {s : SeriesState}
    (hknown : w.indexOf? id = some i) (hs : w.series[i]? = some s) (kind : SeriesKind)
    (indexNames : List String) (annotations : Labels) :
    w.declare id kind indexNames annotations =
      (((redeclaration? s.descriptor kind indexNames).elim (.ok (UInt32.ofNat i)) fun difference =>
        .error (.redeclared id difference)), w) := by
  unfold declare
  rw [if_neg hopen]
  simp only [hknown, hs]
  cases redeclaration? s.descriptor kind indexNames <;> rfl

theorem declare_known {id : SeriesId} {i : Nat} (hopen : w.phase ≠ .closed)
    (hknown : w.indexOf? id = some i) (kind : SeriesKind) (indexNames : List String)
    (annotations : Labels) :
    ∃ result, w.declare id kind indexNames annotations = (result, w) ∧
      ∀ index, result = .ok index → index = UInt32.ofNat i := by
  obtain ⟨s, hs, _⟩ := indexOf?_eq_some hknown
  refine ⟨_, declare_again hopen hknown hs kind indexNames annotations, ?_⟩
  intro index hresult
  cases hdifference : redeclaration? s.descriptor kind indexNames with
  | none =>
    rw [hdifference] at hresult
    cases hresult
    rfl
  | some difference =>
    rw [hdifference] at hresult
    cases hresult

theorem declare_of_new {id : SeriesId} (hopen : w.phase ≠ .closed) (hnew : w.indexOf? id = none)
    (kind : SeriesKind) (indexNames : List String) (annotations : Labels) :
    w.declare id kind indexNames annotations = w.addSeries id kind indexNames annotations := by
  simp only [declare, if_neg hopen, hnew]

theorem declare_new {id : SeriesId} (hopen : w.phase ≠ .closed) (hnew : w.indexOf? id = none)
    (kind : SeriesKind) (indexNames : List String) (annotations : Labels) :
    let d := SeriesDescriptor.make (UInt32.ofNat w.series.length) id kind indexNames annotations
    (∃ e, w.declare id kind indexNames annotations = (.error e, w) ∧
        (refusal? id kind annotations = some e ∨
          maxBodySize < (Descriptor.encode (.series d)).length)) ∨
      (∃ after, w.declare id kind indexNames annotations =
          (.ok (UInt32.ofNat w.series.length), after.enter (.series d) w.position) ∧
        Admits w.series (.series d) ∧ (Descriptor.encode (.series d)).length ≤ maxBodySize ∧
        w.Extends after (Addition.series d).block.encode) ∨
      ∃ e after taken, w.declare id kind indexNames annotations = (.error e, after) ∧
        w.sink.room ≠ none ∧ w.Extends after taken := by
  intro d
  rw [declare_of_new hopen hnew]
  unfold addSeries
  cases hrefusal : refusal? id kind annotations with
  | some e => exact .inl ⟨e, rfl, .inl rfl⟩
  | none =>
    dsimp only
    have hflatten : [Descriptor.encode (.series d)].flatten = Descriptor.encode (.series d) := by
      simp
    rcases writeBlock_cases w .descriptor [Descriptor.encode (.series d)] with
      ⟨e, hwrite, hlarge⟩ | ⟨after, hwrite, hle, hextends⟩ |
      ⟨e, after, taken, hwrite, hroom, hextends⟩
    · rw [hflatten] at hlarge
      refine .inl ⟨e, ?_, .inr hlarge⟩
      rw [hwrite]
    · rw [hflatten] at hle hextends
      refine .inr (.inl ⟨after, ?_, .series (indexOf?_eq_none.1 hnew) hrefusal, hle, hextends⟩)
      rw [hwrite]
      simp only [enter, Addition.enter, phaseAfter, hextends.series]
      rfl
    · refine .inr (.inr ⟨e, after, taken, ?_, hroom, hextends⟩)
      rw [hwrite]

theorem declare_closed (h : w.phase = .closed) (id : SeriesId) (kind : SeriesKind)
    (indexNames : List String) (annotations : Labels) :
    w.declare id kind indexNames annotations = (.error .writerClosed, w) := by
  rw [declare, if_pos h]

theorem declare_new_eq_ok {id : SeriesId} (hnew : w.indexOf? id = none) {kind : SeriesKind}
    {indexNames : List String} {annotations : Labels} {index : UInt32} {after : Writer}
    (h : w.declare id kind indexNames annotations = (.ok index, after)) :
    let d := SeriesDescriptor.make index id kind indexNames annotations
    w.phase ≠ .closed ∧ index = UInt32.ofNat w.series.length ∧
      ∃ written : Writer, after = written.enter (.series d) w.position ∧
        Admits w.series (.series d) ∧ (Descriptor.encode (.series d)).length ≤ maxBodySize ∧
        w.Extends written (Addition.series d).block.encode := by
  have hopen : w.phase ≠ .closed := by
    intro hclosed
    rw [declare_closed hclosed] at h
    cases h
  rcases declare_new hopen hnew kind indexNames annotations with
    ⟨e, hrefused, _⟩ | ⟨written, hdeclared, hadmits, hle, hextends⟩ | ⟨e, _, _, htorn, _⟩
  · rw [hrefused] at h
    cases h
  · rw [hdeclared] at h
    cases h
    exact ⟨hopen, rfl, written, rfl, hadmits, hle, hextends⟩
  · rw [htorn] at h
    cases h

theorem declare_attempt (hopen : w.phase ≠ .closed) (id : SeriesId) (kind : SeriesKind)
    (indexNames : List String) (annotations : Labels) :
    ∃ added, w.Attempt added (w.declare id kind indexNames annotations).2 ∧
      ∀ a ∈ added, ∃ d, a = .series d ∧ d.id = id := by
  cases hknown : w.indexOf? id with
  | some i =>
    obtain ⟨result, hdeclare, _⟩ := declare_known hopen hknown kind indexNames annotations
    rw [hdeclare]
    exact ⟨[], .refused, by simp⟩
  | none =>
    rcases declare_new hopen hknown kind indexNames annotations with
      ⟨e, hdeclare, _⟩ | ⟨after, hdeclare, hadmits, hle, hextends⟩ |
        ⟨e, after, taken, hdeclare, hroom, hextends⟩
    · rw [hdeclare]
      exact ⟨[], .refused, by simp⟩
    · rw [hdeclare]
      refine ⟨_, .added hadmits hle hextends, ?_⟩
      intro a ha
      exact ⟨_, List.mem_singleton.1 ha, rfl⟩
    · rw [hdeclare]
      exact ⟨[], .torn hroom hextends, by simp⟩

theorem dataParts_eq_ok {d : DataDescriptor} {payload : Bytes} {limit : Nat} {parts : List Bytes}
    (h : dataParts d payload limit = .ok parts) :
    d.encode.length < 2 ^ 32 ∧ (d.sized ++ payload).length ≤ limit ∧
      parts = [d.sized, payload] := by
  unfold dataParts at h
  cases hsized : d.encodeSized with
  | error e =>
    rw [hsized] at h
    cases h
  | ok sized =>
    obtain ⟨hlt, rfl⟩ := DataDescriptor.encodeSized_eq_ok.1 hsized
    rw [hsized] at h
    dsimp only at h
    split at h
    · cases h
    · next hlimit =>
      refine ⟨hlt, ?_, (Except.ok.inj h).symm⟩
      rw [List.length_append]
      omega

theorem dataParts_of_le {d : DataDescriptor} {payload : Bytes} {limit : Nat}
    (hsize : d.encode.length < 2 ^ 32) (hlimit : (d.sized ++ payload).length ≤ limit) :
    dataParts d payload limit = .ok [d.sized, payload] := by
  rw [List.length_append] at hlimit
  unfold dataParts
  rw [DataDescriptor.encodeSized_eq_ok.2 ⟨hsize, rfl⟩]
  simp only
  rw [if_neg (by omega)]

theorem modify_of_getElem? {series : List SeriesState} {i : Nat} {s : SeriesState}
    (h : series[i]? = some s) (f : SeriesState → SeriesState) :
    series.modify i f = series.set i (f s) := by
  apply List.ext_getElem?
  intro j
  rw [List.getElem?_modify, List.getElem?_set]
  by_cases hij : i = j
  · subst hij
    have hlt := (List.getElem?_eq_some_iff.1 h).1
    simp only [h, hlt, if_true]
    rfl
  · simp [hij]

/-- A data block for a series is refused, or added where the writer stands, or torn. -/
theorem appendTo_cases (hopen : w.phase ≠ .closed) (index : UInt32) (timestamp : Int64)
    (indexValues : List Int64) (payload : Bytes) :
    (∃ e, w.appendTo index timestamp indexValues payload = (.error e, w)) ∨
      (∃ s after, w.series[index.toNat]? = some s ∧
        let d : DataDescriptor := ⟨index, timestamp, UInt64.ofNat s.nextPosition, indexValues⟩
        w.appendTo index timestamp indexValues payload =
          (.ok ⟨index, s.nextPosition, w.position⟩, after.enter (.data d payload) w.position) ∧
        Admits w.series (.data d payload) ∧ (d.sized ++ payload).length ≤ maxBodySize ∧
        (d.sized ++ payload).length ≤ w.maxBlockSize ∧
        w.Extends after (Addition.data d payload).block.encode) ∨
      ∃ e after taken, w.appendTo index timestamp indexValues payload = (.error e, after) ∧
        w.sink.room ≠ none ∧ w.Extends after taken := by
  unfold appendTo
  rw [if_neg hopen]
  cases hs : w.series[index.toNat]? with
  | none => exact .inl ⟨_, rfl⟩
  | some s =>
    dsimp only
    by_cases harity : indexValues.length ≠ s.descriptor.indexNames.length
    · rw [if_pos harity]
      exact .inl ⟨_, rfl⟩
    · rw [if_neg harity]
      cases hparts : dataParts ⟨index, timestamp, UInt64.ofNat s.nextPosition, indexValues⟩ payload
          w.maxBlockSize with
      | error e => exact .inl ⟨_, rfl⟩
      | ok parts =>
        obtain ⟨hsize, hlimit, rfl⟩ := dataParts_eq_ok hparts
        have hflatten : ∀ sized : Bytes, [sized, payload].flatten = sized ++ payload := by simp
        dsimp only
        rcases writeBlock_cases w .data
            [DataDescriptor.sized ⟨index, timestamp, UInt64.ofNat s.nextPosition, indexValues⟩,
              payload] with
          ⟨e, hwrite, _⟩ | ⟨after, hwrite, hle, hextends⟩ |
          ⟨e, after, taken, hwrite, hroom, hextends⟩
        · refine .inl ⟨e, ?_⟩
          rw [hwrite]
        · rw [hflatten] at hle hextends
          refine .inr (.inl ⟨s, after, rfl, ?_, .data hs (Decidable.not_not.1 harity) hsize, hle,
            hlimit, hextends⟩)
          rw [hwrite]
          simp only [enter, Addition.enter, phaseAfter, hextends.series, modify_of_getElem? hs]
        · refine .inr (.inr ⟨e, after, taken, ?_, hroom, hextends⟩)
          rw [hwrite]

theorem appendTo_closed (h : w.phase = .closed) (index : UInt32) (timestamp : Int64)
    (indexValues : List Int64) (payload : Bytes) :
    w.appendTo index timestamp indexValues payload = (.error .writerClosed, w) := by
  rw [appendTo, if_pos h]

theorem append_of_declared {id : SeriesId} (hnew : w.indexOf? id = none) {index : UInt32}
    {named : Writer} (h : w.declare id .untyped [] .empty = (.ok index, named)) (timestamp : Int64)
    (indexValues : List Int64) (payload : Bytes) :
    w.append id timestamp indexValues payload =
      named.appendTo index timestamp indexValues payload := by
  rw [append, hnew]
  simp only [h]

theorem append_cases (w : Writer) (id : SeriesId) (timestamp : Int64) (indexValues : List Int64)
    (payload : Bytes) :
    (∃ i, w.indexOf? id = some i ∧ w.append id timestamp indexValues payload =
        w.appendTo (UInt32.ofNat i) timestamp indexValues payload) ∨
      w.indexOf? id = none ∧
        ((∃ e after, w.declare id .untyped [] .empty = (.error e, after) ∧
            w.append id timestamp indexValues payload = (.error e, after)) ∨
          ∃ index named, w.declare id .untyped [] .empty = (.ok index, named) ∧
            w.append id timestamp indexValues payload =
              named.appendTo index timestamp indexValues payload) := by
  cases hindex : w.indexOf? id with
  | some i =>
    refine .inl ⟨i, rfl, ?_⟩
    rw [append, hindex]
  | none =>
    refine .inr ⟨rfl, ?_⟩
    cases hdeclare : w.declare id .untyped [] .empty with
    | mk result named =>
      cases result with
      | error e =>
        refine .inl ⟨e, named, rfl, ?_⟩
        rw [append, hindex]
        simp only [hdeclare]
      | ok index => exact .inr ⟨index, named, rfl, append_of_declared hindex hdeclare _ _ _⟩

theorem append_closed (h : w.phase = .closed) (id : SeriesId) (timestamp : Int64)
    (indexValues : List Int64) (payload : Bytes) :
    w.append id timestamp indexValues payload = (.error .writerClosed, w) := by
  rcases append_cases w id timestamp indexValues payload with
    ⟨i, _, happend⟩ | ⟨_, ⟨e, after, hdeclare, happend⟩ | ⟨_, _, hdeclare, _⟩⟩
  · rw [happend, appendTo_closed h]
  · rw [declare_closed h] at hdeclare
    cases hdeclare
    exact happend
  · rw [declare_closed h] at hdeclare
    cases hdeclare

theorem appendSamples_cases (w : Writer) (index : UInt32) (timestamp : Int64)
    (indexValues : List Int64) (values : Pod.Values) :
    (∃ e, w.appendSamples index timestamp indexValues values = (.error e, w)) ∨
      w.appendSamples index timestamp indexValues values =
        w.appendTo index timestamp indexValues values.encode := by
  unfold appendSamples
  cases w.descriptor? index with
  | none => exact .inl ⟨_, rfl⟩
  | some d =>
    dsimp only
    cases sampleRefusal? d values with
    | some e => exact .inl ⟨_, rfl⟩
    | none => exact .inr rfl

inductive Attempts : Writer → Writer → Prop where
  | none (w : Writer) : Attempts w w
  | more {w next after : Writer} {added : List Addition} : w.Attempt added next →
      Attempts next after → Attempts w after

theorem Attempt.attempts {after : Writer} {added : List Addition} (h : w.Attempt added after) :
    Attempts w after :=
  .more h (.none after)

theorem appendTo_attempt (hopen : w.phase ≠ .closed) (index : UInt32) (timestamp : Int64)
    (indexValues : List Int64) (payload : Bytes) :
    ∃ added, w.Attempt added (w.appendTo index timestamp indexValues payload).2 := by
  rcases appendTo_cases hopen index timestamp indexValues payload with
    ⟨e, hrefused⟩ | ⟨s, after, _, hadded, hadmits, hle, _, hextends⟩ |
      ⟨e, after, taken, htorn, hroom, hextends⟩
  · rw [hrefused]
    exact ⟨_, .refused⟩
  · rw [hadded]
    exact ⟨_, .added hadmits hle hextends⟩
  · rw [htorn]
    exact ⟨_, .torn hroom hextends⟩

theorem append_attempts (hopen : w.phase ≠ .closed) (id : SeriesId) (timestamp : Int64)
    (indexValues : List Int64) (payload : Bytes) :
    Attempts w (w.append id timestamp indexValues payload).2 := by
  obtain ⟨_, hdeclare, _⟩ := declare_attempt hopen id .untyped [] .empty
  rcases append_cases w id timestamp indexValues payload with
    ⟨i, _, happend⟩ | ⟨_, ⟨e, after, hresult, happend⟩ | ⟨index, named, hresult, happend⟩⟩
  · obtain ⟨_, hattempt⟩ :=
      appendTo_attempt hopen (UInt32.ofNat i) timestamp indexValues payload
    rw [happend]
    exact hattempt.attempts
  · rw [hresult] at hdeclare
    rw [happend]
    exact hdeclare.attempts
  · rw [hresult] at hdeclare
    obtain ⟨_, hattempt⟩ :=
      appendTo_attempt (hdeclare.open_of_open hopen) index timestamp indexValues payload
    rw [happend]
    exact .more hdeclare hattempt.attempts

theorem answer_attempts (hopen : w.phase ≠ .closed) {call : Call} (hcall : call ≠ .close) :
    Attempts w (w.answer call).2 := by
  cases call with
  | declare id kind indexNames annotations =>
    obtain ⟨_, hattempt, _⟩ := declare_attempt hopen id kind indexNames annotations
    exact hattempt.attempts
  | append id timestamp indexValues payload =>
    exact append_attempts hopen id timestamp indexValues payload
  | appendTo index timestamp indexValues payload =>
    obtain ⟨_, hattempt⟩ := appendTo_attempt hopen index timestamp indexValues payload
    exact hattempt.attempts
  | appendSamples index timestamp indexValues values =>
    rcases appendSamples_cases w index timestamp indexValues values with ⟨e, hrefused⟩ | hsame
    · rw [answer, hrefused]
      exact .none w
    · obtain ⟨_, hattempt⟩ := appendTo_attempt hopen index timestamp indexValues values.encode
      rw [answer, hsame]
      exact hattempt.attempts
  | flush => exact .none w
  | close => exact absurd rfl hcall

theorem putUncovered_adds (w : Writer) (pieces : List Bytes) :
    ∃ taken, (w.putUncovered pieces).2.sink.bytes = w.sink.bytes ++ taken ∧
      w.position ≤ (w.putUncovered pieces).2.position ∧
      (w.putUncovered pieces).2.series = w.series ∧
      (w.putUncovered pieces).2.phase = w.phase := by
  induction pieces generalizing w with
  | nil => exact ⟨[], by simp [putUncovered]⟩
  | cons piece rest ih =>
    have hput := put_extends w piece
    unfold putUncovered
    split
    · obtain ⟨taken, hbytes, hposition, hseries, hphase⟩ := ih (w.put piece)
      refine ⟨w.sink.fitting piece ++ taken, ?_, ?_, hseries, hphase⟩
      · rw [hbytes, hput.bytes, List.append_assoc]
      · exact Nat.le_trans (Nat.le_add_right _ _) hposition
    · exact ⟨_, hput.bytes, Nat.le_refl _, rfl, rfl⟩

theorem writeIndex_extends (w : Writer) : ∃ taken, w.Extends w.writeIndex.2 taken := by
  unfold writeIndex
  split
  · exact ⟨[], Extends.refl w⟩
  · rcases writeBlock_cases w .descriptor
        [Descriptor.encode (.index ⟨w.series.map SeriesState.toIndex⟩)] with
      ⟨e, hwrite, _⟩ | ⟨after, hwrite, _, hextends⟩ | ⟨e, after, taken, hwrite, _, hextends⟩
    · rw [hwrite]
      exact ⟨[], Extends.refl w⟩
    · rw [hwrite]
      exact ⟨_, hextends⟩
    · rw [hwrite]
      exact ⟨taken, hextends⟩

theorem close_adds (w : Writer) :
    ∃ taken, w.close.2.sink.bytes = w.sink.bytes ++ taken ∧ w.position ≤ w.close.2.position ∧
      w.close.2.series = w.series ∧ w.close.2.phase = .closed := by
  unfold close
  by_cases hclosed : w.phase = .closed
  · rw [if_pos hclosed]
    exact ⟨[], by simp, Nat.le_refl _, rfl, hclosed⟩
  · rw [if_neg hclosed]
    obtain ⟨taken, hindex⟩ := writeIndex_extends { w with phase := .closed }
    cases hwrite : writeIndex { w with phase := .closed } with
    | mk result after =>
      rw [hwrite] at hindex
      cases result with
      | error e =>
        refine ⟨taken, hindex.bytes, ?_, hindex.series, hindex.phase⟩
        rw [hindex.position]
        exact Nat.le_add_right _ _
      | ok offset =>
        obtain ⟨more, hmore, _⟩ := putAll_extends after
          [trailerHeader.encode, Bytes.littleEndian 8 offset]
        dsimp only
        cases hput : after.putAll [trailerHeader.encode, Bytes.littleEndian 8 offset] with
        | mk whole last =>
          rw [hput] at hmore
          have hboth := hindex.trans hmore
          have hgrown : w.position ≤ last.position := by
            rw [hboth.position]
            exact Nat.le_add_right _ _
          cases whole with
          | false => exact ⟨_, hboth.bytes, hgrown, hboth.series, hboth.phase⟩
          | true =>
            obtain ⟨final, hfinal, hposition, hseries, hphase⟩ :=
              putUncovered_adds last [sha1 last.sink.bytes, closingMagic]
            dsimp only
            cases hend : last.putUncovered [sha1 last.sink.bytes, closingMagic] with
            | mk done end' =>
              rw [hend] at hfinal hposition hseries hphase
              have hbytes : end'.sink.bytes = w.sink.bytes ++ (taken ++ more ++ final) := by
                rw [hfinal, hboth.bytes, List.append_assoc]
              cases done <;> exact ⟨_, hbytes, Nat.le_trans hgrown hposition,
                hseries.trans hboth.series, hphase.trans hboth.phase⟩

end SeriesLog.Writer
