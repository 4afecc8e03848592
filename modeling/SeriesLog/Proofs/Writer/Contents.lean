import SeriesLog.Proofs.Writer.Runs

/-! # What calls write

The data blocks of a log are those that were asked for by the calls that were answered with a place,
in the order of the calls, each in the series of its place. -/
namespace SeriesLog

/-- A data block as a call asks for it. -/
structure Request where
  timestamp : Int64
  indexValues : List Int64
  payload : Bytes
  deriving DecidableEq

def Call.request? : Call → Option Request
  | append _ timestamp indexValues payload => some ⟨timestamp, indexValues, payload⟩
  | appendTo _ timestamp indexValues payload => some ⟨timestamp, indexValues, payload⟩
  | appendSamples _ timestamp indexValues values => some ⟨timestamp, indexValues, values.encode⟩
  | declare _ _ _ _ | flush | close => none

def written? (call : Call) (answer : Except LogError Answer) : Option (UInt32 × Request) :=
  (location? answer).bind fun l => call.request?.map fun request => (l.series, request)

def DataRecord.request (q : DataRecord) : Request := ⟨q.timestamp, q.indexValues, q.payload⟩

def DataRecord.written (q : DataRecord) : UInt32 × Request := (q.series, q.request)

namespace Writer

variable {w after : Writer} {annotations : Labels} {journal : List Addition} {call : Call}
  {answer : Except LogError Answer}

theorem recordsIn_noteData (annotations : Labels) (journal : List Addition) (index : UInt32)
    (timestamp : Int64) (indexValues : List Int64) (payload : Bytes) :
    ∃ q : DataRecord, q.request = ⟨timestamp, indexValues, payload⟩ ∧
      recordsIn annotations (noteData journal index timestamp indexValues payload) =
        recordsIn annotations journal ++ [q] := by
  rw [noteData, recordsIn, recordsOf_append]
  exact ⟨_, rfl, rfl⟩

theorem Noted.written_of_block (h : Noted annotations journal call answer after) {q : DataRecord}
    (hrequest : call.request? = some q.request)
    (hrecords : recordsIn annotations (note journal call answer) =
      recordsIn annotations journal ++ [q]) : written? call answer = some q.written := by
  have hplaces := h.places
  rw [hrecords, List.map_append, List.append_cancel_left_eq] at hplaces
  cases hlocation : location? answer with
  | none =>
    rw [hlocation] at hplaces
    cases hplaces
  | some l =>
    rw [hlocation] at hplaces
    have hplace : q.place = l.place := (List.cons.inj hplaces).1
    have hseries : q.series = l.series := congrArg Prod.fst hplace
    rw [written?, hlocation, Option.bind_some, hrequest, Option.map_some, DataRecord.written,
      hseries]

theorem Noted.written_of_none (h : Noted annotations journal call answer after)
    (hrecords : recordsIn annotations (note journal call answer) =
      recordsIn annotations journal) : written? call answer = none := by
  have hplaces := h.places
  rw [hrecords, List.self_eq_append_right, List.map_eq_nil_iff,
    Option.toList_eq_nil_iff] at hplaces
  rw [written?, hplaces, Option.bind_none]

theorem recordsIn_note (annotations : Labels) (journal : List Addition) (call : Call)
    (answer : Except LogError Answer) :
    recordsIn annotations (note journal call answer) = recordsIn annotations journal ∨
      ∃ q : DataRecord, call.request? = some q.request ∧
        recordsIn annotations (note journal call answer) =
          recordsIn annotations journal ++ [q] := by
  have hdata : ∀ (journal : List Addition) index timestamp indexValues payload,
      call.request? = some ⟨timestamp, indexValues, payload⟩ →
      ∃ q : DataRecord, call.request? = some q.request ∧
        recordsIn annotations (noteData journal index timestamp indexValues payload) =
          recordsIn annotations journal ++ [q] := by
    intro journal index timestamp indexValues payload hrequest
    obtain ⟨q, hq, hrecords⟩ :=
      recordsIn_noteData annotations journal index timestamp indexValues payload
    exact ⟨q, hq ▸ hrequest, hrecords⟩
  cases answer with
  | error _ =>
    cases call with
    | append id timestamp indexValues payload => exact .inl (recordsIn_noteName _ _ _)
    | declare | appendTo | appendSamples | flush | close => exact .inl rfl
  | ok _ =>
    cases call with
    | declare id kind indexNames labels => exact .inl (recordsIn_noteSeries _ _ _ _ _ _)
    | append id timestamp indexValues payload =>
      have hblock := hdata (noteName journal id) (numberOf (noteName journal id) id) timestamp
        indexValues payload rfl
      rw [recordsIn_noteName] at hblock
      exact .inr hblock
    | appendTo index timestamp indexValues payload => exact .inr (hdata _ _ _ _ _ rfl)
    | appendSamples index timestamp indexValues values => exact .inr (hdata _ _ _ _ _ rfl)
    | flush | close => exact .inl rfl

theorem Noted.written (h : Noted annotations journal call answer after) :
    (recordsIn annotations (note journal call answer)).map DataRecord.written =
      (recordsIn annotations journal).map DataRecord.written ++
        (written? call answer).toList := by
  obtain hrecords | ⟨q, hrequest, hrecords⟩ := recordsIn_note annotations journal call answer
  · rw [h.written_of_none hrecords, hrecords, Option.toList_none, List.append_nil]
  · rw [h.written_of_block hrequest hrecords, hrecords, List.map_append, List.map_singleton]
    rfl

theorem Holds.run_written (h : w.Holds annotations journal) {calls : List Call}
    (hopen : .close ∉ calls) :
    (recordsIn annotations ((calls.zip (w.run calls).1).foldl
        (fun journal p => note journal p.1 p.2) journal)).map DataRecord.written =
      (recordsIn annotations journal).map DataRecord.written ++
        (calls.zip (w.run calls).1).filterMap fun p => written? p.1 p.2 := by
  induction calls generalizing w journal with
  | nil => simp [Writer.run]
  | cons call rest ih =>
    rw [List.mem_cons, not_or] at hopen
    have hnoted := h.answer (Ne.symm hopen.1)
    have hrest := ih hnoted.holds hopen.2
    rw [hnoted.written] at hrest
    refine hrest.trans ?_
    cases hfirst : written? call (w.answer call).1 <;> simp [Writer.run, hfirst]

theorem exists_answer_of_mem_zip {calls : List Call} {p : Call × Except LogError Answer}
    (hp : p ∈ calls.zip (w.run calls).1) :
    ∃ (v : Writer) (more : List Call),
      p.2 = (v.answer p.1).1 ∧ (v.run more).2 = (w.run calls).2 := by
  induction calls generalizing w with
  | nil => cases hp
  | cons call rest ih =>
    rcases List.mem_cons.1 hp with rfl | hrest
    · exact ⟨w, call :: rest, rfl, rfl⟩
    · exact ih hrest

end Writer

namespace Run

variable {c : WriterConfig} (run : Run c)

theorem records_written : (recordsIn c.annotations run.journal).map DataRecord.written =
    (run.calls.zip run.answers).filterMap fun p => written? p.1 p.2 := by
  have hwritten := (Writer.start_holds run.started).run_written run.unended
  rw [run.answered] at hwritten
  exact hwritten

end Run

end SeriesLog
