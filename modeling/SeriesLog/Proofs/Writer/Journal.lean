import SeriesLog.Proofs.Log.Layout
import SeriesLog.Proofs.Writer.Steps

/-! # Journals of runs

The calls of a writer and the answers to them tell the journal of the log. On a sink without limit
the writer holds at every moment the log of that journal. -/
namespace SeriesLog

def noteSeries (journal : List Addition) (id : SeriesId) (kind : SeriesKind)
    (indexNames : List String) (annotations : Labels) : List Addition :=
  if (declared journal).any fun d => d.id = id then journal
  else
    journal ++ [.series (.make (UInt32.ofNat (declared journal).length) id kind indexNames
      annotations)]

/-- The journal after a declaration without content, which is left out when its descriptor is too
large for a block. -/
def noteName (journal : List Addition) (id : SeriesId) : List Addition :=
  let index := UInt32.ofNat (declared journal).length
  if (Descriptor.encode (.series (.make index id .untyped [] .empty))).length ≤ maxBodySize then
    noteSeries journal id .untyped [] .empty
  else journal

def noteData (journal : List Addition) (index : UInt32) (timestamp : Int64)
    (indexValues : List Int64) (payload : Bytes) : List Addition :=
  journal ++ [.data ⟨index, timestamp, UInt64.ofNat (journal.countP (Addition.isFor index)),
    indexValues⟩ payload]

def numberOf (journal : List Addition) (id : SeriesId) : UInt32 :=
  UInt32.ofNat ((declared journal).findIdx fun d => d.id = id)

/-- The journal after a call and its answer. A call that fails adds nothing, but for an append to
a new name, which declares the name before the block can be refused. -/
def note (journal : List Addition) : Call → Except LogError Answer → List Addition
  | .declare id kind indexNames annotations, .ok _ =>
    noteSeries journal id kind indexNames annotations
  | .append id timestamp indexValues payload, .ok _ =>
    let journal := noteName journal id
    noteData journal (numberOf journal id) timestamp indexValues payload
  | .append id _ _ _, .error _ => noteName journal id
  | .appendTo index timestamp indexValues payload, .ok _ =>
    noteData journal index timestamp indexValues payload
  | .appendSamples index timestamp indexValues values, .ok _ =>
    noteData journal index timestamp indexValues values.encode
  | _, _ => journal

def journalOf (calls : List Call) (answers : List (Except LogError Answer)) : List Addition :=
  (calls.zip answers).foldl (fun journal p => note journal p.1 p.2) []

def Call.Typed : Call → Prop
  | .declare id _ _ _ | .append id _ _ _ => id.type ≠ ""
  | _ => True

instance : DecidablePred Call.Typed
  | .declare id _ _ _ | .append id _ _ _ => inferInstanceAs (Decidable (id.type ≠ ""))
  | .appendTo _ _ _ _ | .appendSamples _ _ _ _ | .flush | .close => isTrue trivial

theorem typed_noteSeries {journal : List Addition} (h : ∀ a ∈ journal, a.Typed) {id : SeriesId}
    (hid : id.type ≠ "") (kind : SeriesKind) (indexNames : List String) (annotations : Labels) :
    ∀ a ∈ noteSeries journal id kind indexNames annotations, a.Typed := by
  intro a ha
  unfold noteSeries at ha
  split at ha
  · exact h a ha
  · rcases List.mem_append.1 ha with ha | ha
    · exact h a ha
    · rw [List.mem_singleton.1 ha]
      exact hid

theorem typed_noteName {journal : List Addition} (h : ∀ a ∈ journal, a.Typed) {id : SeriesId}
    (hid : id.type ≠ "") : ∀ a ∈ noteName journal id, a.Typed := by
  unfold noteName
  dsimp only
  split
  · exact typed_noteSeries h hid _ _ _
  · exact h

theorem typed_noteData {journal : List Addition} (h : ∀ a ∈ journal, a.Typed) (index : UInt32)
    (timestamp : Int64) (indexValues : List Int64) (payload : Bytes) :
    ∀ a ∈ noteData journal index timestamp indexValues payload, a.Typed := by
  intro a ha
  rcases List.mem_append.1 ha with ha | ha
  · exact h a ha
  · rw [List.mem_singleton.1 ha]
    trivial

theorem typed_note {journal : List Addition} (h : ∀ a ∈ journal, a.Typed) {call : Call}
    (hcall : call.Typed) (answer : Except LogError Answer) :
    ∀ a ∈ note journal call answer, a.Typed := by
  cases call with
  | declare id kind indexNames annotations =>
    cases answer with
    | ok _ => exact typed_noteSeries h hcall _ _ _
    | error _ => exact h
  | append id timestamp indexValues payload =>
    cases answer with
    | ok _ => exact typed_noteData (typed_noteName h hcall) _ _ _ _
    | error _ => exact typed_noteName h hcall
  | appendTo index timestamp indexValues payload =>
    cases answer with
    | ok _ => exact typed_noteData h _ _ _ _
    | error _ => exact h
  | appendSamples index timestamp indexValues values =>
    cases answer with
    | ok _ => exact typed_noteData h _ _ _ _
    | error _ => exact h
  | flush => cases answer <;> exact h
  | close => cases answer <;> exact h

theorem typed_journalOf {calls : List Call} (h : ∀ call ∈ calls, call.Typed)
    (answers : List (Except LogError Answer)) : ∀ a ∈ journalOf calls answers, a.Typed := by
  have hfold : ∀ (journal : List Addition), (∀ a ∈ journal, a.Typed) →
      ∀ a ∈ (calls.zip answers).foldl (fun journal p => note journal p.1 p.2) journal, a.Typed := by
    induction calls generalizing answers with
    | nil => exact fun journal hjournal => hjournal
    | cons call calls ih =>
      intro journal hjournal
      cases answers with
      | nil => exact hjournal
      | cons answer answers =>
        exact ih (fun c hc => h c (List.mem_cons_of_mem call hc)) answers _
          (typed_note hjournal (h call List.mem_cons_self) answer)
  exact hfold [] fun a ha => by cases ha

def location? : Except LogError Answer → Option BlockLocation
  | .ok (.located l) => some l
  | _ => none

def BlockLocation.place (l : BlockLocation) : UInt32 × UInt64 × UInt64 :=
  (l.series, UInt64.ofNat l.position, UInt64.ofNat l.offset)

def DataRecord.place (r : DataRecord) : UInt32 × UInt64 × UInt64 := (r.series, r.position, r.offset)

theorem recordsIn_noteSeries (annotations : Labels) (journal : List Addition) (id : SeriesId)
    (kind : SeriesKind) (indexNames : List String) (labels : Labels) :
    recordsIn annotations (noteSeries journal id kind indexNames labels) =
      recordsIn annotations journal := by
  unfold noteSeries
  split
  · rfl
  · rw [recordsIn, recordsOf_append]
    simp [recordsOf, Addition.record?, recordsIn]

theorem recordsIn_noteName (annotations : Labels) (journal : List Addition) (id : SeriesId) :
    recordsIn annotations (noteName journal id) = recordsIn annotations journal := by
  unfold noteName
  dsimp only
  split
  · exact recordsIn_noteSeries _ _ _ _ _ _
  · rfl

namespace Writer

/-- A writer whose sink, without limit, holds the log of a journal. -/
structure Holds (w : Writer) (annotations : Labels) (journal : List Addition) : Prop where
  unlimited : w.sink.room = none
  bytes : w.sink.bytes = logBytes annotations journal
  position : w.position = (logBytes annotations journal).length
  series : w.series = seriesIn annotations journal
  sound : SoundIn annotations journal
  active : w.phase ≠ .closed

variable {w : Writer} {annotations : Labels} {journal : List Addition}

theorem start_eq_ok {c : WriterConfig} {sink : Sink} (h : start c sink = .ok w) :
    Annotations.fault? c.annotations = none ∧
      (fileBlock c.annotations).body.length ≤ maxBodySize ∧
      Extends ⟨sink, 0, [], .headerWritten, c.maxBlockSize⟩ w (opening c.annotations) := by
  unfold start at h
  split at h
  · cases h
  · next hfault =>
    refine ⟨hfault, ?_⟩
    dsimp only at h
    obtain ⟨taken, hmagic, hwhole, _⟩ :=
      putAll_extends ⟨sink, 0, [], .headerWritten, c.maxBlockSize⟩ [openingMagic]
    split at h
    · cases h
    · next begun hput =>
      rw [hput] at hmagic hwhole
      have htaken : taken = openingMagic := by simpa using hwhole rfl
      rw [htaken] at hmagic
      have hflatten : [Descriptor.encode (.file (.ofAnnotations c.annotations))].flatten =
          (fileBlock c.annotations).body := by simp [fileBlock]
      rcases writeBlock_cases begun .descriptor
          [Descriptor.encode (.file (.ofAnnotations c.annotations))] with
        ⟨e, hwrite, _⟩ | ⟨after, hwrite, hle, hextends⟩ | ⟨e, after, taken, hwrite, _⟩
      · rw [hwrite] at h
        cases h
      · rw [hwrite] at h
        cases h
        rw [hflatten] at hle hextends
        exact ⟨hle, hmagic.trans hextends⟩
      · rw [hwrite] at h
        cases h

theorem start_of_valid {c : WriterConfig} (hfault : Annotations.fault? c.annotations = none)
    (hle : (fileBlock c.annotations).body.length ≤ maxBodySize) :
    ∃ w, start c (.empty none) = .ok w := by
  unfold start
  rw [hfault]
  dsimp only
  obtain ⟨taken, hmagic, _, hroom⟩ :=
    putAll_extends ⟨.empty none, 0, [], .headerWritten, c.maxBlockSize⟩ [openingMagic]
  have hwhole := hroom rfl
  cases hput : putAll ⟨.empty none, 0, [], .headerWritten, c.maxBlockSize⟩ [openingMagic] with
  | mk whole begun =>
    rw [hput] at hmagic hwhole
    cases hwhole
    dsimp only
    have hflatten : [Descriptor.encode (.file (.ofAnnotations c.annotations))].flatten =
        (fileBlock c.annotations).body := by simp [fileBlock]
    rcases writeBlock_cases begun .descriptor
        [Descriptor.encode (.file (.ofAnnotations c.annotations))] with
      ⟨e, _, hlarge⟩ | ⟨after, hwrite, _, _⟩ | ⟨e, after, taken, _, hlimited, _⟩
    · rw [hflatten] at hlarge
      omega
    · rw [hwrite]
      exact ⟨after, rfl⟩
    · exact absurd (hmagic.room rfl) hlimited

theorem start_of_large {c : WriterConfig} (hfault : Annotations.fault? c.annotations = none)
    (hlt : maxBodySize < (fileBlock c.annotations).body.length) :
    start c (.empty none) = .error
      ⟨.format (.tooLarge (fileBlock c.annotations).body.length maxBodySize),
        (Sink.empty none).write openingMagic⟩ := by
  have hflatten : [Descriptor.encode (.file (.ofAnnotations c.annotations))].flatten =
      (fileBlock c.annotations).body := by simp [fileBlock]
  have hpieces := blockPieces_of_lt .descriptor (hflatten ▸ hlt)
  rw [hflatten] at hpieces
  rw [start, hfault]
  dsimp only
  rw [putAll, if_pos (fits_of_unlimited rfl openingMagic), putAll]
  dsimp only
  rw [writeBlock, hpieces]
  rfl

theorem start_holds {c : WriterConfig} (h : start c (.empty none) = .ok w) :
    w.Holds c.annotations [] := by
  obtain ⟨_, _, hextends⟩ := start_eq_ok h
  have hbytes : w.sink.bytes = logBytes c.annotations [] := by
    rw [hextends.bytes, Sink.bytes_empty, List.nil_append, logBytes, List.flatMap_nil,
      List.append_nil]
  constructor
  · exact hextends.room rfl
  · exact hbytes
  · rw [hextends.position, logBytes, List.flatMap_nil, List.append_nil, Nat.zero_add]
  · exact hextends.series
  · trivial
  · rw [hextends.phase]
    exact fun hclosed => by cases hclosed

theorem Holds.added (h : w.Holds annotations journal) {a : Addition} {after : Writer}
    (hadmits : Admits w.series a) (hle : a.block.body.length ≤ maxBodySize)
    (hextends : w.Extends after a.block.encode) :
    (after.enter a w.position).Holds annotations (journal ++ [a]) := by
  have hoffset : w.position = (opening annotations).length + span Addition.size journal := by
    rw [h.position, length_logBytes]
  constructor
  · exact hextends.room h.unlimited
  · rw [logBytes_append, ← h.bytes]
    exact hextends.bytes
  · rw [logBytes_append, List.length_append, ← h.position]
    exact hextends.position
  · rw [seriesIn, track_append, ← hoffset]
    show a.enter w.position after.series = a.enter w.position (seriesIn annotations journal)
    rw [hextends.series, h.series]
  · rw [SoundIn, sound_append, ← hoffset]
    have hseries : track (opening annotations).length [] journal = w.series := h.series.symm
    rw [hseries]
    exact ⟨h.sound, hadmits, hle, trivial⟩
  · cases a with
    | series d =>
      show after.phase ≠ .closed
      rw [hextends.phase]
      exact h.active
    | data d payload => exact fun hclosed => by cases hclosed

theorem Holds.declared_eq (h : w.Holds annotations journal) :
    declared journal = w.series.map fun s => s.descriptor := by
  rw [h.series, seriesIn, map_descriptor_track, List.map_nil, List.nil_append]

theorem Holds.length_declared (h : w.Holds annotations journal) :
    (declared journal).length = w.series.length := by
  rw [h.declared_eq, List.length_map]

theorem Holds.indexOf?_eq (h : w.Holds annotations journal) (id : SeriesId) :
    w.indexOf? id = (declared journal).findIdx? fun d => d.id = id := by
  rw [h.declared_eq, List.findIdx?_map]
  rfl

theorem Holds.nextPosition_eq (h : w.Holds annotations journal) {index : UInt32} {s : SeriesState}
    (hs : w.series[index.toNat]? = some s) :
    s.nextPosition = journal.countP (Addition.isFor index) := by
  rw [h.series] at hs
  exact nextPosition_track h.sound hs

theorem noteSeries_known {id : SeriesId} {i : Nat}
    (hknown : ((declared journal).findIdx? fun d => d.id = id) = some i) (kind : SeriesKind)
    (indexNames : List String) (annotations : Labels) :
    noteSeries journal id kind indexNames annotations = journal ∧
      numberOf journal id = UInt32.ofNat i := by
  obtain ⟨hlt, hid, _⟩ := List.findIdx?_eq_some_iff_getElem.1 hknown
  constructor
  · rw [noteSeries, if_pos]
    rw [List.any_eq_true]
    exact ⟨_, List.getElem_mem hlt, hid⟩
  · rw [numberOf, (List.findIdx?_eq_some_iff_findIdx_eq.1 hknown).2]

theorem noteSeries_new {id : SeriesId}
    (hnew : ((declared journal).findIdx? fun d => d.id = id) = none) (kind : SeriesKind)
    (indexNames : List String) (annotations : Labels) :
    noteSeries journal id kind indexNames annotations =
        journal ++ [.series (.make (UInt32.ofNat (declared journal).length) id kind indexNames
          annotations)] ∧
      numberOf (noteSeries journal id kind indexNames annotations) id =
        UInt32.ofNat (declared journal).length := by
  have hother : ∀ d ∈ declared journal, ¬ d.id = id := by
    simpa [List.findIdx?_eq_none_iff] using hnew
  have hnote : noteSeries journal id kind indexNames annotations =
      journal ++ [.series (.make (UInt32.ofNat (declared journal).length) id kind indexNames
        annotations)] := by
    rw [noteSeries, if_neg]
    simpa using hother
  refine ⟨hnote, ?_⟩
  have hnone : ((declared journal).findIdx fun d => d.id = id) = (declared journal).length :=
    List.findIdx_eq_length_of_false (by simpa using hother)
  have hdeclared : ∀ d, declared (journal ++ [.series d]) = declared journal ++ [d] := by
    intro d
    simp [declared, Addition.descriptor?]
  rw [hnote, numberOf, hdeclared, List.findIdx_append, hnone, if_neg (Nat.lt_irrefl _)]
  simp [SeriesDescriptor.make, List.findIdx_cons]

theorem Holds.declare (h : w.Holds annotations journal) (id : SeriesId) (kind : SeriesKind)
    (indexNames : List String) (labels : Labels) :
    (∃ e, w.declare id kind indexNames labels = (.error e, w) ∧
        (w.indexOf? id = none → refusal? id kind labels = none →
          maxBodySize < (Descriptor.encode (.series (.make (UInt32.ofNat (declared journal).length)
            id kind indexNames labels))).length)) ∨
      ∃ after, w.declare id kind indexNames labels =
          (.ok (numberOf (noteSeries journal id kind indexNames labels) id), after) ∧
        after.Holds annotations (noteSeries journal id kind indexNames labels) ∧
        (w.indexOf? id = none →
          (Descriptor.encode (.series (.make (UInt32.ofNat (declared journal).length)
            id kind indexNames labels))).length ≤ maxBodySize) ∧
        after.maxBlockSize = w.maxBlockSize := by
  cases hknown : w.indexOf? id with
  | some i =>
    obtain ⟨result, hdeclare, hindex⟩ := declare_known h.active hknown kind indexNames labels
    rw [h.indexOf?_eq] at hknown
    obtain ⟨hnote, hnumber⟩ := noteSeries_known hknown kind indexNames labels
    cases result with
    | error e => exact .inl ⟨e, hdeclare, fun hnone => by cases hnone⟩
    | ok index =>
      refine .inr ⟨w, ?_, ?_, (fun hnone => by cases hnone), rfl⟩
      · rw [hdeclare, hnote, hnumber, hindex index rfl]
      · rw [hnote]
        exact h
  | none =>
    have hlength := h.length_declared
    have hcases := declare_new h.active hknown kind indexNames labels
    rw [h.indexOf?_eq] at hknown
    obtain ⟨hnote, hnumber⟩ := noteSeries_new hknown kind indexNames labels
    rw [hlength] at hnote hnumber ⊢
    rcases hcases with ⟨e, hdeclare, hwhy⟩ | ⟨after, hdeclare, hadmits, hle, hextends⟩ |
      ⟨_, _, _, _, hlimited, _⟩
    · refine .inl ⟨e, hdeclare, fun _ haccepted => ?_⟩
      rcases hwhy with hrefusal | hlarge
      · rw [haccepted] at hrefusal
        cases hrefusal
      · exact hlarge
    · rw [hnumber, hdeclare]
      refine .inr ⟨_, rfl, ?_, fun _ => hle, hextends.limit⟩
      · rw [hnote]
        exact h.added hadmits hle hextends
    · exact absurd h.unlimited hlimited

theorem Holds.declare_name (h : w.Holds annotations journal) {id : SeriesId}
    (hnew : w.indexOf? id = none) :
    (∃ e, w.declare id .untyped [] .empty = (.error e, w) ∧ noteName journal id = journal) ∨
      ∃ after, w.declare id .untyped [] .empty =
          (.ok (numberOf (noteName journal id) id), after) ∧
        after.Holds annotations (noteName journal id) := by
  have hrefusal : refusal? id .untyped .empty = none := rfl
  rcases h.declare id .untyped [] .empty with
    ⟨e, hdeclare, hlarge⟩ | ⟨after, hdeclare, hholds, hle, _⟩
  · refine .inl ⟨e, hdeclare, ?_⟩
    have := hlarge hnew hrefusal
    rw [noteName, if_neg (by omega)]
  · have hname : noteName journal id = noteSeries journal id .untyped [] .empty := by
      rw [noteName, if_pos (hle hnew)]
    rw [hname]
    exact .inr ⟨after, hdeclare, hholds⟩

theorem noteName_known {id : SeriesId} {i : Nat}
    (hknown : ((declared journal).findIdx? fun d => d.id = id) = some i) :
    noteName journal id = journal := by
  unfold noteName
  dsimp only
  split
  · exact (noteSeries_known hknown _ _ _).1
  · rfl

/-- On a sink without limit a data block is refused or noted. -/
theorem Holds.appendTo (h : w.Holds annotations journal) (index : UInt32) (timestamp : Int64)
    (indexValues : List Int64) (payload : Bytes) :
    (∃ e, w.appendTo index timestamp indexValues payload = (.error e, w)) ∨
      ∃ l after, w.appendTo index timestamp indexValues payload = (.ok l, after) ∧
        after.Holds annotations (noteData journal index timestamp indexValues payload) ∧
        recordsIn annotations (noteData journal index timestamp indexValues payload) =
          recordsIn annotations journal ++ [⟨l.series, timestamp, UInt64.ofNat l.position,
            indexValues, payload, UInt64.ofNat l.offset⟩] := by
  rcases appendTo_cases h.active index timestamp indexValues payload with
    ⟨e, hrefused⟩ | ⟨s, after, hs, happend, hadmits, hle, _, hextends⟩ | ⟨_, _, _, _, hlimited, _⟩
  · exact .inl ⟨e, hrefused⟩
  · have hposition := h.nextPosition_eq hs
    have hoffset : w.position = (opening annotations).length + span Addition.size journal := by
      rw [h.position, length_logBytes]
    refine .inr ⟨_, _, happend, ?_, ?_⟩
    · rw [noteData, ← hposition]
      exact h.added hadmits hle hextends
    · rw [noteData, ← hposition, recordsIn, recordsOf_append, ← hoffset]
      rfl
  · exact absurd h.unlimited hlimited

/-- What an answered call makes of the journal and of the places of the blocks. -/
structure Noted (annotations : Labels) (journal : List Addition) (call : Call)
    (answer : Except LogError Answer) (after : Writer) : Prop where
  holds : after.Holds annotations (note journal call answer)
  places : (recordsIn annotations (note journal call answer)).map DataRecord.place =
    (recordsIn annotations journal).map DataRecord.place ++
      (location? answer).toList.map BlockLocation.place

theorem Holds.append (h : w.Holds annotations journal) (id : SeriesId) (timestamp : Int64)
    (indexValues : List Int64) (payload : Bytes) :
    (∃ e after, w.append id timestamp indexValues payload = (.error e, after) ∧
        after.Holds annotations (noteName journal id)) ∨
      ∃ l after, w.append id timestamp indexValues payload = (.ok l, after) ∧
        after.Holds annotations
          (noteData (noteName journal id) (numberOf (noteName journal id) id) timestamp
            indexValues payload) ∧
        recordsIn annotations
            (noteData (noteName journal id) (numberOf (noteName journal id) id) timestamp
              indexValues payload) =
          recordsIn annotations journal ++ [⟨l.series, timestamp, UInt64.ofNat l.position,
            indexValues, payload, UInt64.ofNat l.offset⟩] := by
  unfold Writer.append
  rw [← recordsIn_noteName annotations journal id]
  cases hknown : w.indexOf? id with
  | some i =>
    rw [h.indexOf?_eq] at hknown
    rw [noteName_known hknown, (noteSeries_known hknown .untyped [] .empty).2]
    rcases h.appendTo (UInt32.ofNat i) timestamp indexValues payload with
      ⟨e, hrefused⟩ | ⟨l, after, happend, hnoted⟩
    · exact .inl ⟨e, w, hrefused, h⟩
    · exact .inr ⟨l, after, happend, hnoted⟩
  | none =>
    rcases h.declare_name hknown with ⟨e, hdeclare, hname⟩ | ⟨after, hdeclare, hholds⟩
    · rw [hdeclare, hname]
      exact .inl ⟨e, w, rfl, h⟩
    · rw [hdeclare]
      dsimp only
      rcases hholds.appendTo (numberOf (noteName journal id) id) timestamp indexValues payload with
        ⟨e, hrefused⟩ | ⟨l, last, happend, hnoted⟩
      · exact .inl ⟨e, after, hrefused, hholds⟩
      · exact .inr ⟨l, last, happend, hnoted⟩

theorem Holds.answer_appendTo (h : w.Holds annotations journal) {call : Call} {index : UInt32}
    {timestamp : Int64} {indexValues : List Int64} {payload : Bytes}
    (hrefused : ∀ e, note journal call (.error e) = journal)
    (hlocated : ∀ l, note journal call (.ok (.located l)) =
      noteData journal index timestamp indexValues payload) :
    Noted annotations journal call
      ((w.appendTo index timestamp indexValues payload).1.map .located)
      (w.appendTo index timestamp indexValues payload).2 := by
  rcases h.appendTo index timestamp indexValues payload with
    ⟨e, hanswer⟩ | ⟨l, after, hanswer, hholds, hrecords⟩
  · rw [hanswer]
    constructor
    · rw [Except.map, hrefused]
      exact h
    · simp [Except.map, hrefused, location?]
  · rw [hanswer]
    constructor
    · rw [Except.map, hlocated]
      exact hholds
    · simp [Except.map, hlocated, location?, hrecords, DataRecord.place, BlockLocation.place]

theorem Holds.answer (h : w.Holds annotations journal) {call : Call} (hcall : call ≠ .close) :
    Noted annotations journal call (w.answer call).1 (w.answer call).2 := by
  cases call with
  | declare id kind indexNames labels =>
    simp only [Writer.answer]
    rcases h.declare id kind indexNames labels with ⟨e, hrefused, _⟩ | ⟨after, hdeclare, hholds, _⟩
    · rw [hrefused]
      exact ⟨h, by simp [Except.map, note, location?]⟩
    · rw [hdeclare]
      refine ⟨hholds, ?_⟩
      simp [Except.map, note, location?, recordsIn_noteSeries]
  | append id timestamp indexValues payload =>
    simp only [Writer.answer]
    rcases h.append id timestamp indexValues payload with
      ⟨e, after, hrefused, hholds⟩ | ⟨l, after, happend, hholds, hrecords⟩
    · rw [hrefused]
      refine ⟨hholds, ?_⟩
      simp [Except.map, note, location?, recordsIn_noteName]
    · rw [happend]
      refine ⟨hholds, ?_⟩
      simp [Except.map, note, location?, hrecords, DataRecord.place, BlockLocation.place]
  | appendTo index timestamp indexValues payload =>
    exact h.answer_appendTo (fun _ => rfl) fun _ => rfl
  | appendSamples index timestamp indexValues values =>
    simp only [Writer.answer]
    rcases appendSamples_cases w index timestamp indexValues values with ⟨e, hrefused⟩ | hsame
    · rw [hrefused]
      exact ⟨h, by simp [Except.map, note, location?]⟩
    · rw [hsame]
      exact h.answer_appendTo (fun _ => rfl) fun _ => rfl
  | flush => exact ⟨h, by simp [Writer.answer, note, location?]⟩
  | close => exact absurd rfl hcall

theorem Holds.run (h : w.Holds annotations journal) {calls : List Call}
    (hopen : .close ∉ calls) :
    (w.run calls).2.Holds annotations
        ((calls.zip (w.run calls).1).foldl (fun journal p => note journal p.1 p.2) journal) ∧
      (recordsIn annotations ((calls.zip (w.run calls).1).foldl
          (fun journal p => note journal p.1 p.2) journal)).map DataRecord.place =
        (recordsIn annotations journal).map DataRecord.place ++
          ((w.run calls).1.filterMap location?).map BlockLocation.place := by
  induction calls generalizing w journal with
  | nil => exact ⟨h, by simp [Writer.run]⟩
  | cons call rest ih =>
    rw [List.mem_cons, not_or] at hopen
    obtain ⟨hholds, hplaces⟩ := h.answer (Ne.symm hopen.1)
    obtain ⟨hlast, hmore⟩ := ih hholds hopen.2
    refine ⟨hlast, ?_⟩
    rw [hplaces] at hmore
    refine hmore.trans ?_
    cases hanswer : location? (w.answer call).1 <;> simp [Writer.run, hanswer]

theorem closed_answer (h : w.phase = .closed) (call : Call) :
    (w.answer call).2 = w ∧ location? (w.answer call).1 = none := by
  have happendTo : ∀ index timestamp indexValues payload,
      w.appendTo index timestamp indexValues payload = (.error .writerClosed, w) :=
    appendTo_closed h
  cases call with
  | declare id kind indexNames labels =>
    simp only [Writer.answer, declare_closed h]
    exact ⟨trivial, rfl⟩
  | append id timestamp indexValues payload =>
    simp only [Writer.answer, append_closed h]
    exact ⟨trivial, rfl⟩
  | appendTo index timestamp indexValues payload =>
    simp only [Writer.answer, happendTo]
    exact ⟨trivial, rfl⟩
  | appendSamples index timestamp indexValues values =>
    simp only [Writer.answer]
    rcases appendSamples_cases w index timestamp indexValues values with ⟨e, hrefused⟩ | hsame
    · rw [hrefused]
      exact ⟨rfl, rfl⟩
    · rw [hsame, happendTo]
      exact ⟨rfl, rfl⟩
  | flush => exact ⟨rfl, rfl⟩
  | close =>
    simp only [Writer.answer, Writer.close, if_pos h]
    exact ⟨trivial, rfl⟩

theorem closed_run (h : w.phase = .closed) (calls : List Call) : (w.run calls).2 = w := by
  induction calls generalizing w with
  | nil => rfl
  | cons call rest ih =>
    have hsame := (closed_answer h call).1
    have hrest := ih (w := (w.answer call).2) (by rw [hsame]; exact h)
    exact hrest.trans hsame

theorem close_not_mem {calls : List Call} {summary : CloseSummary} {last : Writer}
    (h : (w.run calls).2.close = (.ok summary, last)) : .close ∉ calls := by
  induction calls generalizing w with
  | nil => exact List.not_mem_nil
  | cons call rest ih =>
    rw [List.mem_cons, not_or]
    refine ⟨?_, ih h⟩
    rintro rfl
    have hclosed : (w.answer .close).2.phase = .closed := by
      obtain ⟨_, _, _, _, hphase⟩ := close_adds w
      exact hphase
    have hsame := closed_run hclosed rest
    have hrun : (w.run (.close :: rest)).2 = (w.answer .close).2 := hsame
    rw [hrun, Writer.close, if_pos hclosed] at h
    cases h

end Writer

end SeriesLog
