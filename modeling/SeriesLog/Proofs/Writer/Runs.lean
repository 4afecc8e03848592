import SeriesLog.Proofs.Scan.Logs
import SeriesLog.Proofs.Writer.Seal

/-! # Runs

A run starts a log on a sink without limit and answers calls. Then the log is sealed, or it is left
as it is. -/
namespace SeriesLog

/-- A run of a writer that does not end its log. -/
structure Run (c : WriterConfig) where
  calls : List Call
  answers : List (Except LogError Answer)
  start : Writer
  /-- The writer when all calls are answered. -/
  last : Writer
  started : Writer.start c (.empty none) = .ok start
  answered : start.run calls = (answers, last)
  unended : .close ∉ calls
  typed : ∀ call ∈ calls, call.Typed

/-- A run whose log is sealed at the end. -/
structure SealedRun (c : WriterConfig) extends Run c where
  final : Writer
  summary : CloseSummary
  closed : last.close = (.ok summary, final)

namespace Run

variable {c : WriterConfig}

/-- What a run adds to its log, as its calls and answers tell it. -/
def journal (run : Run c) : List Addition := journalOf run.calls run.answers

def blocks (run : Run c) : List Block :=
  fileBlock c.annotations :: run.journal.map Addition.block

def tail (run : Run c) : List Block := indexPart (seriesIn c.annotations run.journal)

variable (run : Run c)

theorem noted :
    run.last.Holds c.annotations run.journal ∧
      (recordsIn c.annotations run.journal).map DataRecord.place =
        (run.answers.filterMap location?).map BlockLocation.place := by
  have hholds := (Writer.start_holds run.started).run run.unended
  rw [run.answered] at hholds
  exact hholds

theorem holds : run.last.Holds c.annotations run.journal := run.noted.1

theorem length_seriesIn :
    (seriesIn c.annotations run.journal).length = (declared run.journal).length := by
  rw [← run.holds.series, run.holds.length_declared]

theorem readable {limit : Nat} (h : ∀ b ∈ run.blocks, b.body.length ≤ limit) :
    Readable c.annotations run.journal limit := by
  constructor
  · exact run.holds.sound
  · exact typed_journalOf run.typed run.answers
  · exact (Writer.start_eq_ok run.started).2.1
  · exact h _ List.mem_cons_self
  · intro a ha
    apply h
    exact List.mem_cons_of_mem _ (List.mem_map_of_mem ha)

end Run

def sealedBy? (c : WriterConfig) (calls : List Call) :
    Option (List (Except LogError Answer) × CloseSummary × Bytes) :=
  match Writer.start c (.empty none) with
  | .error _ => none
  | .ok w =>
    match (w.run calls).2.close with
    | (.error _, _) => none
    | (.ok summary, final) => some ((w.run calls).1, summary, final.sink.bytes)

namespace SealedRun

variable {c : WriterConfig}

def bytes (run : SealedRun c) : Bytes := run.final.sink.bytes

def trailer (run : SealedRun c) : Trailer :=
  trailerAfter run.last.beforeTrailer run.summary.indexOffset

/-- Calls that can be answered and sealed are those of a run. -/
theorem exists_of_sealedBy? {calls : List Call} (htyped : ∀ call ∈ calls, call.Typed)
    {answers : List (Except LogError Answer)} {summary : CloseSummary} {bytes : Bytes}
    (h : sealedBy? c calls = some (answers, summary, bytes)) :
    ∃ run : SealedRun c, run.calls = calls ∧ run.answers = answers ∧ run.summary = summary ∧
      run.bytes = bytes := by
  unfold sealedBy? at h
  cases hstart : Writer.start c (.empty none) with
  | error e =>
    rw [hstart] at h
    cases h
  | ok w =>
    rw [hstart] at h
    dsimp only at h
    cases hclose : (w.run calls).2.close with
    | mk result final =>
      rw [hclose] at h
      cases result with
      | error e => cases h
      | ok s =>
        cases h
        exact ⟨⟨⟨calls, _, w, _, hstart, rfl, Writer.close_not_mem hclose, htyped⟩, final, summary,
          hclose⟩, rfl, rfl, rfl, rfl⟩

variable (run : SealedRun c)

theorem bytes_eq : run.bytes = sealedBytes c.annotations run.journal run.tail run.trailer :=
  (run.holds.sealed_bytes run.closed).2.2

theorem bytes_eq_blocks :
    run.bytes = openingMagic ++ (run.blocks ++ run.tail).flatMap Block.encode ++
      run.trailer.encode := by
  rw [run.bytes_eq, sealedBytes, logBytes, opening, Run.blocks, List.cons_append,
    List.flatMap_cons, List.flatMap_append, List.flatMap_map]
  simp only [List.append_assoc]

theorem length_checksum : run.trailer.checksum.length = checksumSize :=
  length_checksum_trailerAfter _ _

theorem length_logBytes_lt : (logBytes c.annotations run.journal).length < run.bytes.length := by
  have htrailer : 0 < trailerSize := by decide
  rw [run.bytes_eq, length_sealedBytes _ _ _ run.length_checksum]
  omega

theorem tail_le : ∀ b ∈ run.tail, b.body.length ≤ maxBodySize :=
  (run.holds.sealed_bytes run.closed).1

theorem readable_of_limit {limit : Nat} (h : ∀ b ∈ run.blocks ++ run.tail, b.body.length ≤ limit) :
    Readable c.annotations run.journal limit :=
  run.readable fun b hb => h b (List.mem_append_left _ hb)

theorem tail_of_data (h : run.last.blockCount ≠ 0) :
    run.tail = [indexBlock (seriesIn c.annotations run.journal)] ∧
      run.summary.indexOffset = (logBytes c.annotations run.journal).length := by
  obtain ⟨_, hoffset, _⟩ := run.holds.sealed_bytes run.closed
  constructor
  · have hcount := h
    rw [Writer.blockCount, run.holds.series] at hcount
    exact if_neg hcount
  · rw [hoffset, Writer.indexOffset, if_neg h, run.holds.position]

theorem tail_of_no_data (h : run.last.blockCount = 0) :
    run.tail = [] ∧ run.summary.indexOffset = 0 := by
  obtain ⟨_, hoffset, _⟩ := run.holds.sealed_bytes run.closed
  constructor
  · have hcount := h
    rw [Writer.blockCount, run.holds.series] at hcount
    exact if_pos hcount
  · rw [hoffset, Writer.indexOffset, if_pos h]

/-- What is known of a sealed log with data that a reader with some limit can read. -/
structure Indexed (limit : Nat) : Prop where
  readable : Readable c.annotations run.journal limit
  count : (seriesIn c.annotations run.journal).length ≤ 2 ^ 32
  size : (logBytes c.annotations run.journal).length < 2 ^ 64
  max : (indexBlock (seriesIn c.annotations run.journal)).body.length ≤ maxBodySize
  limit : (indexBlock (seriesIn c.annotations run.journal)).body.length ≤ limit
  offset : run.summary.indexOffset = (logBytes c.annotations run.journal).length
  bytes : run.bytes = sealedBytes c.annotations run.journal
    [indexBlock (seriesIn c.annotations run.journal)] run.trailer

theorem indexed {limit : Nat} (hdata : run.last.blockCount ≠ 0)
    (hcount : (declared run.journal).length ≤ 2 ^ 32) (hsize : run.bytes.length < 2 ^ 64)
    (hlimit : ∀ b ∈ run.blocks ++ run.tail, b.body.length ≤ limit) : run.Indexed limit := by
  obtain ⟨htail, hoffset⟩ := run.tail_of_data hdata
  have hmem : indexBlock (seriesIn c.annotations run.journal) ∈ run.tail := by
    rw [htail]
    exact List.mem_cons_self
  constructor
  · exact run.readable_of_limit hlimit
  · rw [run.length_seriesIn]
    exact hcount
  · exact Nat.lt_trans run.length_logBytes_lt hsize
  · exact run.tail_le _ hmem
  · exact hlimit _ (List.mem_append_right _ hmem)
  · exact hoffset
  · rw [run.bytes_eq, htail]

theorem Indexed.trailer_offset {limit : Nat} {run : SealedRun c} (h : run.Indexed limit) :
    run.trailer.indexOffset = UInt64.ofNat (logBytes c.annotations run.journal).length := by
  rw [trailer, h.offset]
  rfl

end SealedRun

end SeriesLog
