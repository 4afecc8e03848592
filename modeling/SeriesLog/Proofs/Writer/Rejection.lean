import Mathlib.Data.List.TakeDrop
import SeriesLog.Proofs.Writer.Limits

/-! # Rejections

A writer checks what it is asked for before it puts anything on its sink, so a call for one block
that it rejects changes nothing, and what it asks of a data block can be listed. An append under a
new name comes to two blocks: when the second one is rejected, the first one stays. -/
namespace SeriesLog

/-- The errors of a device, as against those by which a writer rejects what it is asked for. -/
inductive LogError.OfDevice : LogError → Prop where
  | plain (fault : DeviceFault) : OfDevice (.device fault)
  | inBlock (fault : DeviceFault) : OfDevice (.format (.device fault))

def Sink.HasRoom (s : Sink) (count : Nat) : Prop := ∀ room, s.room = some room → count ≤ room

theorem Sink.hasRoom_add (s : Sink) (piece : Bytes) (count : Nat) :
    s.HasRoom (piece.length + count) ↔
      s.HasRoom piece.length ∧ (s.write piece).HasRoom count := by
  cases hroom : s.room with
  | none => simp [HasRoom, write, hroom]
  | some room =>
    simp only [HasRoom, write, hroom, Option.map_some, Option.some.injEq, forall_eq']
    omega

namespace Writer

variable {w : Writer}

/-- Whether a step gives a writer back as it was, unless it succeeds or the device fails. -/
def Spares {α : Type} (w : Writer) (outcome : Except LogError α × Writer) : Prop :=
  ∀ e, outcome.1 = .error e → ¬ e.OfDevice → outcome.2 = w

theorem spares_same {α : Type} (w : Writer) (result : Except LogError α) : w.Spares (result, w) :=
  fun _ _ _ => rfl

theorem writeBlock_spares (w : Writer) (type : BlockType) (parts : List Bytes) :
    w.Spares (w.writeBlock type parts) := by
  intro e h hrejected
  unfold writeBlock at h ⊢
  cases hpieces : blockPieces type parts with
  | error _ => rfl
  | ok pieces =>
    rw [hpieces] at h
    cases hput : w.putAll pieces with
    | mk whole after =>
      simp only [hput] at h
      cases whole with
      | true => cases h
      | false =>
        cases h
        exact absurd (.inBlock _) hrejected

theorem writeBlock_andThen_spares {α : Type} {type : BlockType} {parts : List Bytes}
    {next : Unit → Writer → Except LogError α × Writer}
    (hnext : ∀ v e, (next () v).1 ≠ .error e) :
    w.Spares (andThen (fun v => v.writeBlock type parts) next w) := by
  intro e h hrejected
  have hblock := writeBlock_spares w type parts
  simp only [andThen] at h ⊢
  cases hwrite : w.writeBlock type parts with
  | mk result after =>
    rw [hwrite] at h hblock
    cases result with
    | error e' =>
      cases h
      exact hblock e rfl hrejected
    | ok _ => exact absurd h (hnext after e)

theorem declare_spares (w : Writer) (id : SeriesId) (kind : SeriesKind) (indexNames : List String)
    (annotations : Labels) : w.Spares (w.declare id kind indexNames annotations) := by
  by_cases hclosed : w.phase = .closed
  · rw [declare_closed hclosed]
    exact spares_same w _
  · cases hindex : w.indexOf? id with
    | some i =>
      obtain ⟨result, hknown, _⟩ := declare_known hclosed hindex kind indexNames annotations
      rw [hknown]
      exact spares_same w result
    | none =>
      rw [declare_of_new hclosed hindex]
      cases hrefusal : refusal? id kind annotations with
      | some e =>
        rw [addSeries, hrefusal]
        exact spares_same w _
      | none =>
        rw [addSeries_blocks hrefusal]
        refine writeBlock_andThen_spares ?_
        intro v e h
        cases h

theorem appendTo_spares (w : Writer) (index : UInt32) (timestamp : Int64)
    (indexValues : List Int64) (payload : Bytes) :
    w.Spares (w.appendTo index timestamp indexValues payload) := by
  rcases appendTo_blocks w index timestamp indexValues payload with
    ⟨e, hrefused⟩ | ⟨s, parts, hwrite⟩
  · rw [hrefused w rfl rfl rfl]
    exact spares_same w _
  · rw [hwrite w rfl rfl rfl rfl]
    refine writeBlock_andThen_spares ?_
    intro v e h
    cases h

theorem appendSamples_spares (w : Writer) (index : UInt32) (timestamp : Int64)
    (indexValues : List Int64) (values : Pod.Values) :
    w.Spares (w.appendSamples index timestamp indexValues values) := by
  rcases appendSamples_cases w index timestamp indexValues values with ⟨e, hrefused⟩ | hwhole
  · rw [hrefused]
    exact spares_same w _
  · rw [hwhole]
    exact appendTo_spares w index timestamp indexValues values.encode

theorem fits_iff (w : Writer) (piece : Bytes) :
    w.fits piece = true ↔ w.sink.HasRoom piece.length := by
  cases hroom : w.sink.room with
  | none => simp [fits, Sink.fitting, Sink.HasRoom, hroom]
  | some room =>
    simp only [fits, Sink.fitting, Sink.HasRoom, hroom, decide_eq_true_eq, Option.some.injEq,
      forall_eq', List.take_eq_self_iff]

theorem putAll_whole_iff (w : Writer) (pieces : List Bytes) :
    (w.putAll pieces).1 = true ↔ w.sink.HasRoom pieces.flatten.length := by
  induction pieces generalizing w with
  | nil => simp [putAll, Sink.HasRoom]
  | cons piece rest ih =>
    rw [List.flatten_cons, List.length_append, Sink.hasRoom_add, ← fits_iff, putAll]
    by_cases hfits : w.fits piece = true
    · rw [if_pos hfits, ih, and_iff_right hfits]
      rfl
    · rw [if_neg hfits]
      simp [hfits]

theorem writeBlock_ok_iff (w : Writer) (type : BlockType) (parts : List Bytes) :
    (w.writeBlock type parts).1 = .ok () ↔
      parts.flatten.length ≤ maxBodySize ∧
        w.sink.HasRoom (headerSize + parts.flatten.length) := by
  unfold writeBlock
  by_cases hle : parts.flatten.length ≤ maxBodySize
  · obtain ⟨pieces, hpieces⟩ := blockPieces_of_le type hle
    have hwhole := putAll_whole_iff w pieces
    rw [(blockPieces_eq_ok hpieces).2, Block.length_encode, Block.size] at hwhole
    rw [hpieces, and_iff_right hle, ← hwhole]
    cases hput : w.putAll pieces with
    | mk whole after => cases whole <;> simp [hput]
  · rw [blockPieces_of_lt type (Nat.lt_of_not_le hle)]
    exact ⟨(fun h => by cases h), fun h => absurd h.1 hle⟩

end Writer

def SeriesState.next (s : SeriesState) (index : UInt32) (timestamp : Int64)
    (indexValues : List Int64) : DataDescriptor :=
  ⟨index, timestamp, UInt64.ofNat s.nextPosition, indexValues⟩

def DataDescriptor.bodySize (d : DataDescriptor) (payload : Bytes) : Nat :=
  4 + d.encode.length + payload.length

namespace Writer

variable {w : Writer}

/-- What a writer asks of a data block for the series of a number. -/
structure Takes (w : Writer) (index : UInt32) (timestamp : Int64) (indexValues : List Int64)
    (payload : Bytes) (s : SeriesState) : Prop where
  active : w.phase ≠ .closed
  declared : w.series[index.toNat]? = some s
  arity : indexValues.length = s.descriptor.indexNames.length
  descriptor : (s.next index timestamp indexValues).encode.length ≤ 2 ^ 32 - 1
  guard : (s.next index timestamp indexValues).bodySize payload ≤ w.maxBlockSize
  framed : (s.next index timestamp indexValues).bodySize payload ≤ 2 ^ 56 - 1

theorem appendTo_ok_iff_parts (w : Writer) (index : UInt32) (timestamp : Int64)
    (indexValues : List Int64) (payload : Bytes) :
    (∃ location, (w.appendTo index timestamp indexValues payload).1 = .ok location) ↔
      w.phase ≠ .closed ∧ ∃ s, w.series[index.toNat]? = some s ∧
        indexValues.length = s.descriptor.indexNames.length ∧
        ∃ parts, dataParts (s.next index timestamp indexValues) payload w.maxBlockSize =
            .ok parts ∧ (w.writeBlock .data parts).1 = .ok () := by
  unfold appendTo
  by_cases hclosed : w.phase = .closed
  · simp [hclosed]
  rw [if_neg hclosed]
  cases hs : w.series[index.toNat]? with
  | none => simp
  | some s =>
    by_cases harity : indexValues.length = s.descriptor.indexNames.length
    · dsimp only
      rw [if_neg (not_not_intro harity), ← SeriesState.next]
      cases hparts : dataParts (s.next index timestamp indexValues) payload w.maxBlockSize with
      | error e => simp [hparts]
      | ok parts =>
        cases hwrite : w.writeBlock .data parts with
        | mk result after => cases result <;> simp [hclosed, harity, hparts, hwrite]
    · simp [harity]

theorem appendTo_ok_iff (w : Writer) (index : UInt32) (timestamp : Int64)
    (indexValues : List Int64) (payload : Bytes) :
    (∃ location, (w.appendTo index timestamp indexValues payload).1 = .ok location) ↔
      ∃ s, w.Takes index timestamp indexValues payload s ∧
        w.sink.HasRoom (8 + (s.next index timestamp indexValues).bodySize payload) := by
  have hbody : ∀ d : DataDescriptor, [d.sized, payload].flatten.length = d.bodySize payload := by
    intro d
    simp [DataDescriptor.bodySize, descriptorSizeBytes]
  rw [appendTo_ok_iff_parts]
  constructor
  · rintro ⟨hopen, s, hs, harity, parts, hparts, hwrite⟩
    obtain ⟨hsize, hlimit, rfl⟩ := dataParts_eq_ok hparts
    obtain ⟨hframed, hroom⟩ := (writeBlock_ok_iff w .data _).1 hwrite
    rw [hbody] at hframed hroom
    refine ⟨s, ⟨hopen, hs, harity, Nat.le_pred_of_lt hsize, ?_, hframed⟩, hroom⟩
    rw [← hbody]
    simpa using hlimit
  · rintro ⟨s, ⟨hopen, hs, harity, hsize, hguard, hframed⟩, hroom⟩
    refine ⟨hopen, s, hs, harity, _, dataParts_of_le ?_ ?_, ?_⟩
    · exact Nat.lt_of_le_pred (by decide) hsize
    · rw [← hbody] at hguard
      simpa using hguard
    · rw [writeBlock_ok_iff, hbody]
      exact ⟨hframed, hroom⟩

/-- How a writer answers calls for one block. -/
structure ChecksFirst (w : Writer) : Prop where
  declare : ∀ id kind indexNames annotations,
    w.Spares (w.declare id kind indexNames annotations)
  declareSamples : ∀ id shape indexNames annotations,
    w.Spares (w.declareSamples id shape indexNames annotations)
  appendTo : ∀ index timestamp indexValues payload,
    w.Spares (w.appendTo index timestamp indexValues payload)
  appendSamples : ∀ index timestamp indexValues values,
    w.Spares (w.appendSamples index timestamp indexValues values)
  /-- A data block is taken if it passes the checks and the sink has room for it. -/
  takes : ∀ index timestamp indexValues payload,
    (∃ location, (w.appendTo index timestamp indexValues payload).1 = .ok location) ↔
      ∃ s, w.Takes index timestamp indexValues payload s ∧
        w.sink.HasRoom (8 + (s.next index timestamp indexValues).bodySize payload)

/-- In every state a writer that rejects a series, a data block or samples is left exactly as it
was, and a data block is rejected for nothing but what is asked of it. -/
theorem checksFirst (w : Writer) : w.ChecksFirst where
  declare := declare_spares w
  declareSamples id shape := declare_spares w id (.pod shape)
  appendTo := appendTo_spares w
  appendSamples := appendSamples_spares w
  takes := appendTo_ok_iff w

/-- Three values are not whole samples of two. -/
theorem checksFirst_partial_sample : ∃ w, start .default (.empty (some 90)) = .ok w ∧
    let declared := (w.declare (.ofType "p") (.pod ⟨.int16, [2]⟩) ["seq"] .empty).2
    let odd : Pod.Values := ⟨.int16, [1, 2, 3]⟩
    declared.seriesCount = 1 ∧
      (declared.appendSamples 0 5 [9] odd).1 =
        .error (.sampleMismatch (.ofType "p") (.partialSample 3 2)) ∧
      (declared.appendSamples 0 5 [9] odd).2 = declared := by
  have hrun : (start .default (.empty (some 90))).toOption.map (fun w =>
      let declared := (w.declare (.ofType "p") (.pod ⟨.int16, [2]⟩) ["seq"] .empty).2
      (declared.seriesCount, (declared.appendSamples 0 5 [9] ⟨.int16, [1, 2, 3]⟩).1)) =
      some (1, .error (.sampleMismatch (.ofType "p") (.partialSample 3 2))) := by
    decide +kernel
  obtain ⟨w, hstart, hvalues⟩ := exists_of_toOption_map hrun
  obtain ⟨hcount, hrejected⟩ := by simpa only [Prod.mk.injEq] using hvalues
  exact ⟨w, hstart, hcount, hrejected,
    (checksFirst _).appendSamples 0 5 [9] _ _ hrejected (fun hdevice => by cases hdevice)⟩

/-- The descriptor of a name that is first used by an append. -/
def untypedSeries (w : Writer) (id : SeriesId) : SeriesDescriptor :=
  .make (UInt32.ofNat w.series.length) id .untyped [] .empty

/-- Whether an append under a name would begin with the descriptor of a new series: no series has
the name yet, and a block can hold the descriptor. -/
def Introduces (w : Writer) (id : SeriesId) : Prop :=
  w.indexOf? id = none ∧ (Addition.series (w.untypedSeries id)).block.body.length ≤ maxBodySize

/-- What is left of an append that introduced a series and was rejected then: the descriptor of the
series on the sink, and the series without data in the table. -/
structure LeavesSeries (w after : Writer) (id : SeriesId) : Prop where
  declared : after = (w.declare id .untyped [] .empty).2
  bytes : after.sink.bytes = w.sink.bytes ++ (Addition.series (w.untypedSeries id)).block.encode
  series : after.series = w.series ++ [.declared (w.untypedSeries id)]
  phase : after.phase = w.phase
  /-- The name can be declared only as what was introduced. -/
  bound : ∀ kind indexNames annotations,
    (after.declare id kind indexNames annotations).2 = after ∧
      ((∃ index, (after.declare id kind indexNames annotations).1 = .ok index) ↔
        kind = .untyped ∧ indexNames = [])

theorem appendTo_rejected (hopen : w.phase ≠ .closed) (hroom : w.sink.room = none) {index : UInt32}
    {timestamp : Int64} {indexValues : List Int64} {payload : Bytes} {e : LogError}
    (h : (w.appendTo index timestamp indexValues payload).1 = .error e) :
    (w.appendTo index timestamp indexValues payload).2 = w := by
  rcases appendTo_cases hopen index timestamp indexValues payload with
    ⟨e', hrefused⟩ | ⟨s, after, _, hadded, _⟩ | ⟨e', after, taken, _, hlimited, _⟩
  · rw [hrefused]
  · rw [hadded] at h
    cases h
  · exact absurd hroom hlimited

theorem redeclaration?_eq_none (d : SeriesDescriptor) (kind : SeriesKind)
    (indexNames : List String) :
    redeclaration? d kind indexNames = none ↔ d.kind = kind ∧ d.indexNames = indexNames := by
  unfold redeclaration?
  by_cases hkind : d.kind = kind
  · by_cases hnames : d.indexNames = indexNames <;> simp [hkind, hnames]
  · simp [hkind]

theorem declare_known_iff {id : SeriesId} {i : Nat} {s : SeriesState} (hopen : w.phase ≠ .closed)
    (hknown : w.indexOf? id = some i) (hs : w.series[i]? = some s) (kind : SeriesKind)
    (indexNames : List String) (annotations : Labels) :
    (w.declare id kind indexNames annotations).2 = w ∧
      ((∃ index, (w.declare id kind indexNames annotations).1 = .ok index) ↔
        s.descriptor.kind = kind ∧ s.descriptor.indexNames = indexNames) := by
  rw [← redeclaration?_eq_none, declare_again hopen hknown hs]
  cases redeclaration? s.descriptor kind indexNames with
  | some difference => simp
  | none => simp

theorem indexOf?_enter_series {after : Writer} (hseries : after.series = w.series)
    {d : SeriesDescriptor} (hnew : w.indexOf? d.id = none) (offset : Nat) :
    (after.enter (.series d) offset).indexOf? d.id = some w.series.length := by
  rw [indexOf?] at hnew ⊢
  rw [enter, Addition.enter, hseries, List.findIdx?_append, hnew]
  simp [SeriesState.declared]

theorem not_introduces_of_refused {id : SeriesId} (hopen : w.phase ≠ .closed)
    (hroom : w.sink.room = none) (hnew : w.indexOf? id = none) {e : LogError} {after : Writer}
    (h : w.declare id .untyped [] .empty = (.error e, after)) :
    ¬ w.Introduces id ∧ after = w := by
  rcases declare_new hopen hnew .untyped [] .empty with
    ⟨e', hrefused, hrefusal | hlarge⟩ | ⟨_, hdeclared, _⟩ | ⟨_, _, _, _, hlimited, _⟩
  · cases hrefusal
  · rw [hrefused] at h
    cases h
    exact ⟨fun hintroduces => Nat.not_lt.2 hintroduces.2 hlarge, rfl⟩
  · rw [hdeclared] at h
    cases h
  · exact absurd hroom hlimited

theorem leavesSeries_of_declared {id : SeriesId} (hroom : w.sink.room = none)
    (hnew : w.indexOf? id = none) {index : UInt32} {named : Writer}
    (h : w.declare id .untyped [] .empty = (.ok index, named)) :
    w.Introduces id ∧ named.sink.room = none ∧ w.LeavesSeries named id := by
  obtain ⟨hopen, rfl, after, rfl, _, hle, hextends⟩ := declare_new_eq_ok hnew h
  refine ⟨⟨hnew, hle⟩, hextends.room hroom, ?_⟩
  have hseries := hextends.series_enter (w.untypedSeries id) w.position
  constructor
  case declared => exact (congrArg Prod.snd h).symm
  case bytes => exact hextends.bytes
  case series => exact hseries
  case phase => exact hextends.phase
  case bound =>
    intro kind indexNames annotations
    have hknown := indexOf?_enter_series hextends.series (d := w.untypedSeries id) hnew w.position
    have hlast := congrArg (fun table => table[w.series.length]?) hseries
    rw [List.getElem?_concat_length] at hlast
    have hstill : (after.enter (.series (w.untypedSeries id)) w.position).phase ≠ .closed := by
      rw [enter, phaseAfter, hextends.phase]
      exact hopen
    have hagain := declare_known_iff hstill hknown hlast kind indexNames annotations
    exact ⟨hagain.1, hagain.2.trans (and_congr eq_comm eq_comm)⟩

/-- On a sink without limit an append that fails leaves the writer as it was exactly unless it
introduced a series; then the series stays, and its name cannot be declared otherwise. -/
theorem append_failed_iff (hopen : w.phase ≠ .closed) (hroom : w.sink.room = none) {id : SeriesId}
    {timestamp : Int64} {indexValues : List Int64} {payload : Bytes} {e : LogError}
    (h : (w.append id timestamp indexValues payload).1 = .error e) :
    ((w.append id timestamp indexValues payload).2 = w ↔ ¬ w.Introduces id) ∧
      (w.Introduces id →
        w.LeavesSeries (w.append id timestamp indexValues payload).2 id) := by
  rcases append_cases w id timestamp indexValues payload with
    ⟨i, hknown, happend⟩ | ⟨hnew, ⟨e', after, hdeclare, happend⟩ | ⟨index, named, hdeclare, happend⟩⟩
  · have hnot : ¬ w.Introduces id := by
      rintro ⟨hnew, _⟩
      rw [hknown] at hnew
      cases hnew
    rw [happend] at h ⊢
    exact ⟨iff_of_true (appendTo_rejected hopen hroom h) hnot, fun hyes => absurd hyes hnot⟩
  · obtain ⟨hnot, hsame⟩ := not_introduces_of_refused hopen hroom hnew hdeclare
    rw [happend]
    exact ⟨iff_of_true hsame hnot, fun hyes => absurd hyes hnot⟩
  · obtain ⟨hintroduces, hfree, hleaves⟩ := leavesSeries_of_declared hroom hnew hdeclare
    have hactive : named.phase ≠ .closed := by rwa [hleaves.phase]
    rw [happend] at h ⊢
    rw [appendTo_rejected hactive hfree h]
    refine ⟨iff_of_false ?_ (not_not_intro hintroduces), fun _ => hleaves⟩
    intro hsame
    have hlonger := congrArg List.length hleaves.series
    rw [hsame, List.length_append, List.length_singleton] at hlonger
    omega

/-- A body of 7 bytes is too large for a writer with a limit of 6, but its series is not. -/
theorem append_failed_iff_too_large : ∃ w,
    start { WriterConfig.default with maxBlockSize := 6 } (.empty none) = .ok w ∧
      (w.append (.ofType "a") 1 [] [1]).1 = .error (.format (.tooLarge 7 6)) ∧
      w.LeavesSeries (w.append (.ofType "a") 1 [] [1]).2 (.ofType "a") := by
  have hrun : (start { WriterConfig.default with maxBlockSize := 6 } (.empty none)).toOption.map
      (fun w => (decide (w.phase ≠ .closed ∧ w.sink.room = none ∧ w.indexOf? (.ofType "a") = none ∧
          (Addition.series (w.untypedSeries (.ofType "a"))).block.body.length ≤ maxBodySize),
        (w.append (.ofType "a") 1 [] [1]).1)) =
      some (true, .error (.format (.tooLarge 7 6))) := by
    decide +kernel
  obtain ⟨w, hstart, hvalues⟩ := exists_of_toOption_map hrun
  obtain ⟨⟨hopen, hroom, hnew⟩, hfailed⟩ := by
    simpa only [Prod.mk.injEq, decide_eq_true_eq] using hvalues
  exact ⟨w, hstart, hfailed, (append_failed_iff hopen hroom hfailed).2 hnew⟩

/-- An append with an index value fails, for a new name has no index names, and from then on the
name cannot be declared with one. -/
theorem append_failed_binds_name : ∃ w, start .default (.empty none) = .ok w ∧
    let after := (w.append (.ofType "a") 1 [7] [1]).2
    (w.append (.ofType "a") 1 [7] [1]).1 = .error (.indexArity (.ofType "a") 0 1) ∧ after ≠ w ∧
      (w.declare (.ofType "a") .untyped ["seq"] .empty).1 = .ok 0 ∧
      (after.declare (.ofType "a") .untyped ["seq"] .empty).1 =
        .error (.redeclared (.ofType "a") (.indexNames [] ["seq"])) := by
  have hrun : (start .default (.empty none)).toOption.map (fun w =>
      let after := (w.append (.ofType "a") 1 [7] [1]).2
      ((w.append (.ofType "a") 1 [7] [1]).1, decide (after ≠ w),
        (w.declare (.ofType "a") .untyped ["seq"] .empty).1,
        (after.declare (.ofType "a") .untyped ["seq"] .empty).1)) =
      some (.error (.indexArity (.ofType "a") 0 1), true, .ok 0,
        .error (.redeclared (.ofType "a") (.indexNames [] ["seq"]))) := by
    decide +kernel
  obtain ⟨w, hstart, hvalues⟩ := exists_of_toOption_map hrun
  exact ⟨w, hstart, by simpa only [Prod.mk.injEq, decide_eq_true_eq] using hvalues⟩

end Writer

end SeriesLog
