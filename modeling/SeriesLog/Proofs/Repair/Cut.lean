import SeriesLog.Proofs.Log.IndexSize
import SeriesLog.Proofs.Repair.Copy
import SeriesLog.Proofs.Scan.Cuts

/-! # Repair of cut logs

The repair of a log that is cut anywhere behind its file descriptor yields the log that a writer
seals after the additions whose blocks are whole. -/
namespace SeriesLog

/-- The settings under which a log with some annotations is written anew. -/
def WriterConfig.fresh (annotations : Labels) : WriterConfig :=
  { WriterConfig.default with annotations }

namespace Run

variable {c : WriterConfig}

/-- The file that a run leaves, sealed or abandoned. -/
inductive Leaves (run : Run c) : Bytes → Bool → Prop where
  | sealed {summary : CloseSummary} {final : Writer} :
      run.last.close = (.ok summary, final) → Leaves run final.sink.bytes true
  | abandoned : Leaves run run.last.abandon.sink.bytes false

def written (run : Run c) (sealed : Bool) : List Block :=
  run.blocks ++ if sealed = true then run.tail else []

def before (run : Run c) (cut : Nat) : List Addition :=
  within Addition.size (opening c.annotations).length cut run.journal

def TornAt (run : Run c) (file : Bytes) (sealed : Bool) (cut : Nat) : Prop :=
  Inside Block.size openingMagic.length cut (run.written sealed) ∨
    sealed = true ∧ file.length < cut + trailerSize ∧ cut < file.length

def indexRead (run : Run c) (sealed : Bool) : List (Block × BlockContent) :=
  if sealed = true then
    run.tail.map fun b =>
      (b, .descriptor (.index ⟨(seriesIn c.annotations run.journal).map SeriesState.toIndex⟩))
  else []

def stream (run : Run c) (closing : Option Trailer) : Stream :=
  ⟨logBlocks c.annotations true run.journal ++ run.indexRead closing.isSome, closing⟩

variable {run : Run c}

theorem map_indexRead (run : Run c) (sealed : Bool) :
    (run.indexRead sealed).map (·.1) = if sealed = true then run.tail else [] := by
  unfold indexRead
  split
  · rw [List.map_map]
    exact List.map_id _
  · rfl

theorem map_blocks_stream (closing : Option Trailer) :
    (run.stream closing).blocks.map (·.1) = run.written closing.isSome := by
  rw [stream, written, List.map_append, map_logBlocks, map_indexRead, blocks]

theorem bytes_stream (closing : Option Trailer) :
    (run.stream closing).bytes =
      openingMagic ++ (run.written closing.isSome).flatMap Block.encode ++
        closing.toList.flatMap Trailer.encode := by
  rw [← map_blocks_stream, List.flatMap_map]
  rfl

/-- The file is its blocks between the magic and the trailer. -/
theorem Leaves.bytes_eq {file : Bytes} {sealed : Bool} (h : run.Leaves file sealed) :
    ∃ closing : Option Trailer, closing.isSome = sealed ∧
      (∀ t ∈ closing, t.checksum.length = checksumSize) ∧ file = (run.stream closing).bytes := by
  cases h with
  | @sealed summary final hclose =>
    let whole : SealedRun c := ⟨run, final, summary, hclose⟩
    refine ⟨some whole.trailer, rfl, ?_, ?_⟩
    · intro t ht
      cases ht
      exact whole.length_checksum
    · rw [bytes_stream, Option.toList_some, List.flatMap_singleton]
      exact whole.bytes_eq_blocks
  | abandoned =>
    refine ⟨none, rfl, fun t ht => (by cases ht), ?_⟩
    have hbytes : run.last.abandon.sink.bytes = logBytes c.annotations run.journal :=
      run.holds.bytes
    rw [hbytes, bytes_stream, written, Option.isSome_none, logBytes, opening, blocks]
    simp [List.flatMap_map]

theorem readsAll_indexRead {sc : ScanConfig} {limit : Nat}
    (h : Readable c.annotations run.journal limit)
    (hcount : run.tail ≠ [] → (seriesIn c.annotations run.journal).length ≤ 2 ^ 32)
    (hmax : ∀ b ∈ run.tail, b.body.length ≤ maxBodySize)
    (hlimit : ∀ b ∈ run.tail, b.body.length ≤ sc.maxBlockSize) :
    Scan.ReadsAll sc (run.indexRead true) := by
  intro p hp
  rw [indexRead, if_pos rfl] at hp
  obtain ⟨b, hb, rfl⟩ := List.mem_map.1 hp
  have hindex := eq_of_mem_indexPart hb
  have hlarge := hmax b hb
  have hfits := hlimit b hb
  rw [hindex] at hlarge hfits ⊢
  exact ⟨.descriptor hfits (h.decode_indexBlock (hcount (List.ne_nil_of_mem hb)) hlarge), hlarge⟩

theorem readsAll_stream {closing : Option Trailer}
    (hlimit : ∀ b ∈ run.written closing.isSome, b.body.length ≤ defaultMaxBlockSize) :
    Scan.ReadsAll Repair.scanConfig (run.stream closing).blocks := by
  have hreadable : Readable c.annotations run.journal Repair.scanConfig.maxBlockSize :=
    run.readable fun b hb => hlimit b (List.mem_append_left _ hb)
  refine readsAll_append hreadable.readsAll ?_
  cases closing with
  | none =>
    intro p hp
    cases hp
  | some t =>
    rw [written, Option.isSome_some, if_pos rfl] at hlimit
    have htail : ∀ b ∈ run.tail, b.body.length ≤ defaultMaxBlockSize :=
      fun b hb => hlimit b (List.mem_append_right _ hb)
    have hmax : ∀ b ∈ run.tail, b.body.length ≤ maxBodySize :=
      fun b hb => Nat.le_trans (htail b hb) (by decide)
    apply readsAll_indexRead hreadable _ hmax htail
    intro hne
    obtain ⟨b, hb⟩ := List.exists_mem_of_ne_nil _ hne
    have hle := htail b hb
    have hcount := length_series_le (seriesIn c.annotations run.journal)
    rw [← eq_of_mem_indexPart hb] at hcount
    rw [defaultMaxBlockSize] at hle
    omega

theorem before_isPrefix (run : Run c) (cut : Nat) : run.before cut <+: run.journal :=
  within_isPrefix run.journal

theorem indexRead_eq_index {sealed : Bool} {p : Block × BlockContent}
    (h : p ∈ run.indexRead sealed) : ∃ index, p.2 = .descriptor (.index index) := by
  unfold indexRead at h
  split at h
  · obtain ⟨b, _, rfl⟩ := List.mem_map.1 h
    exact ⟨_, rfl⟩
  · cases h

/-- In front of a cut behind the file descriptor are that descriptor, the additions whose blocks
are whole, and maybe the index. -/
theorem within_stream (closing : Option Trailer) {cut : Nat}
    (hopening : (opening c.annotations).length ≤ cut) :
    ∃ more : List (Block × BlockContent), (∀ p ∈ more, ∃ index, p.2 = .descriptor (.index index)) ∧
      within (fun p => p.1.size) openingMagic.length cut (run.stream closing).blocks =
        (fileBlock c.annotations, .descriptor (.file (.ofAnnotations c.annotations))) ::
          (blocksOf true (run.before cut) ++ more) := by
  refine ⟨within (fun p => p.1.size)
    ((opening c.annotations).length + span Addition.size run.journal) cut
    (run.indexRead closing.isSome), ?_, within_logBlocks true _ hopening⟩
  intro p hp
  exact indexRead_eq_index ((within_isPrefix (run.indexRead closing.isSome)).subset hp)

theorem itemsBefore_stream (closing : Option Trailer) {cut : Nat}
    (hopening : (opening c.annotations).length ≤ cut) :
    ∃ (offset : Nat) (more : List (Block × BlockContent)),
      (∀ p ∈ more, ∃ index, p.2 = .descriptor (.index index)) ∧
      (run.stream closing).itemsBefore cut =
        .block openingMagic.length (fileBlock c.annotations).body.length
            (.descriptor (.file (.ofAnnotations c.annotations))) ::
          (Scan.placed (opening c.annotations).length (blocksOf true (run.before cut)) ++
            (Scan.placed offset more ++ (run.stream closing).trailerBefore cut)) := by
  obtain ⟨more, hmore, hwithin⟩ := @within_stream c run closing cut hopening
  let behind := span (fun p => p.1.size) (blocksOf true (run.before cut))
  refine ⟨(opening c.annotations).length + behind, more, hmore, ?_⟩
  rw [Stream.itemsBefore, hwithin, Scan.placed, Scan.placed_append, List.cons_append,
    List.append_assoc, length_opening]

theorem sound_before (run : Run c) (cut : Nat) : SoundIn c.annotations (run.before cut) := by
  obtain ⟨more, hmore⟩ := run.before_isPrefix cut
  have hsound := run.holds.sound
  rw [← hmore] at hsound
  exact (sound_append.1 hsound).1

/-- What a repair makes of the items in front of a cut. -/
structure Repaired (run : Run c) (w : Writer) (cut : Nat) (answers : List Answer)
    (r : Repair) : Prop where
  answered : w.run ((run.before cut).map Addition.call) = (answers.map .ok, r.writer)
  holds : r.writer.Holds c.annotations (run.before cut)
  dropped : r.report.blocksDropped = 0
  undecodable : r.report.undecodableSkipped = 0

theorem repaired_before {closing : Option Trailer} {cut : Nat}
    (hopening : (opening c.annotations).length ≤ cut)
    (hfits : ∀ b ∈ run.blocks, b.body.length ≤ defaultMaxBlockSize) {w : Writer}
    (hstart : Writer.start (WriterConfig.fresh c.annotations) (.empty none) = .ok w) :
    ∃ items r answers,
      (run.stream closing).itemsBefore cut =
        .block openingMagic.length (fileBlock c.annotations).body.length
          (.descriptor (.file (.ofAnnotations c.annotations))) :: items ∧
      (Repair.mk w [] Repair.noReport).copyItems items = (none, r) ∧
      run.Repaired w cut answers r ∧
      (r.report.sourceSealed = true ↔
        closing.isSome = true ∧ cut = (run.stream closing).stop + trailerSize) := by
  obtain ⟨offset, more, hmore, hitems⟩ := @itemsBefore_stream c run closing cut hopening
  have hbefore : ∀ a ∈ run.before cut, a.Fits defaultMaxBlockSize := by
    intro a ha
    have hmem := (run.before_isPrefix cut).subset ha
    exact a.fits_of_le (hfits _ (List.mem_cons_of_mem _ (List.mem_map_of_mem hmem)))
  have hsound : SoundIn (WriterConfig.fresh c.annotations).annotations ([] ++ run.before cut) :=
    run.sound_before cut
  obtain ⟨copied, answers, hcopy, hrun, hcopied⟩ :=
    (Repair.Copied.start hstart).copyItems hsound hbefore (opening c.annotations).length
  obtain ⟨r, hindex, hwriter, hr⟩ := hcopied.copy_index hmore offset
  obtain ⟨after, htrailer, hsame, hdropped, hundecodable, hsealed⟩ :=
    Repair.copyItems_trailerBefore (run.stream closing) cut hr.unsealed
  refine ⟨_, after, answers, hitems, ?_, ?_, hsealed⟩
  · rw [Repair.copyItems_append _ _ _ hcopy, Repair.copyItems_append _ _ _ hindex, htrailer]
  · constructor
    · rw [hsame, hwriter]
      exact hrun
    · rw [hsame]
      exact hr.holds
    · rw [hdropped]
      exact hr.dropped
    · rw [hundecodable]
      exact hr.undecodable

theorem tornAt_stream {file : Bytes} {closing : Option Trailer}
    (hchecksum : ∀ t ∈ closing, t.checksum.length = checksumSize)
    (hfile : file = (run.stream closing).bytes) (cut : Nat) :
    (run.stream closing).TornAt cut ↔ run.TornAt file closing.isSome cut := by
  have hlength := @Stream.length_bytes (run.stream closing) hchecksum
  rw [← hfile] at hlength
  have hblocks := @inside_map _ _ Block.size openingMagic.length cut
    (fun p : Block × BlockContent => p.1) (run.stream closing).blocks
  rw [map_blocks_stream] at hblocks
  rw [Stream.TornAt, TornAt, hblocks]
  apply or_congr Iff.rfl
  cases closing with
  | none => simp [stream]
  | some t =>
    simp only [stream, Option.isSome_some, if_true, true_and] at hlength ⊢
    rw [hlength]
    omega

theorem Leaves.sealed_again {file : Bytes} (h : run.Leaves file true) {w : Writer}
    (hw : w.Holds c.annotations (run.before file.length)) {summary : CloseSummary} {final : Writer}
    (hclose : w.close = (.ok summary, final)) : final.sink.bytes = file := by
  cases h with
  | @sealed first last hlast =>
    let whole : SealedRun c := ⟨run, last, first, hlast⟩
    have hlt : (logBytes c.annotations run.journal).length < last.sink.bytes.length :=
      whole.length_logBytes_lt
    rw [length_logBytes] at hlt
    have hbefore : run.before last.sink.bytes.length = run.journal :=
      within_eq_self (Nat.le_of_lt hlt)
    rw [hbefore] at hw
    exact hw.sealed_alike run.holds hclose hlast

theorem index_before_le {sealed : Bool}
    (hlimit : ∀ b ∈ run.written sealed, b.body.length ≤ defaultMaxBlockSize)
    (hindex : sealed = false → ∀ b ∈ run.tail, b.body.length ≤ maxBodySize) (cut : Nat) :
    ∀ b ∈ indexPart (seriesIn c.annotations (run.before cut)), b.body.length ≤ maxBodySize := by
  apply length_indexPart_of_isPrefix c.annotations (run.before_isPrefix cut)
  cases sealed with
  | false => exact hindex rfl
  | true =>
    intro b hb
    have hle := hlimit b (List.mem_append_right _ hb)
    rw [defaultMaxBlockSize] at hle
    rw [maxBodySize]
    omega

theorem tail_le_of_lt (run : Run c) (h : run.last.sink.bytes.length < 2 ^ 53) :
    ∀ b ∈ run.tail, b.body.length ≤ maxBodySize := by
  rw [run.holds.bytes] at h
  have hindex := length_indexBlock_of_log c.annotations h
  intro b hb
  rw [eq_of_mem_indexPart hb]
  exact hindex

theorem repair_start (run : Run c) :
    ∃ w, Writer.start (WriterConfig.fresh c.annotations) (.empty none) = .ok w := by
  obtain ⟨hfault, hle, _⟩ := Writer.start_eq_ok run.started
  exact Writer.start_of_valid hfault hle

end Run

/-- A log that is cut anywhere behind its file descriptor is repaired, and the repaired log is the
one that a new writer seals when it is asked for the additions whose blocks are whole. All of them
are accepted, nothing is dropped, and a whole sealed log is repaired to itself. The report says
whether the cut is inside a block or the trailer, and whether the log was sealed. The index of an
abandoned log has to fit in a block, as it has for the log to be sealed. -/
theorem reindex_cut {c : WriterConfig} (run : Run c) {file : Bytes} {sealed : Bool}
    (hfile : run.Leaves file sealed)
    (hlimit : ∀ b ∈ run.written sealed, b.body.length ≤ 2 ^ 30)
    (hindex : sealed = false → ∀ b ∈ run.tail, b.body.length ≤ maxBodySize) {cut : Nat}
    (hopening : (opening c.annotations).length ≤ cut) (hcut : cut ≤ file.length) :
    ∃ report answers summary bytes,
      reindex (.ofBytes (file.take cut)) .default = ⟨.ok report, bytes⟩ ∧
      sealedBy? (.fresh c.annotations) ((run.before cut).map Addition.call) =
        some (List.map .ok answers, summary, bytes) ∧
      (sealed = true → cut = file.length → bytes = file) ∧
      report.blocksDropped = 0 ∧ report.undecodableSkipped = 0 ∧
      (report.tornTail = true ↔ run.TornAt file sealed cut) ∧
      (report.sourceSealed = true ↔ sealed = true ∧ cut = file.length) := by
  obtain ⟨closing, rfl, hchecksum, hbytes⟩ := hfile.bytes_eq
  have hmagic : openingMagic.length ≤ cut := by
    rw [length_opening] at hopening
    omega
  have hlength := @Stream.length_bytes (run.stream closing) hchecksum
  have hend : closing.isSome = true ∧ cut = (run.stream closing).stop + trailerSize ↔
      closing.isSome = true ∧ cut = file.length := by
    rw [hbytes, hlength]
    refine and_congr_right fun hsome => ?_
    have hclosing : (run.stream closing).closing.isSome = true := hsome
    rw [if_pos hclosing]
  obtain ⟨stop, hscan⟩ := @Stream.scan_cut Repair.scanConfig (run.stream closing) cut
    (Run.readsAll_stream hlimit) hchecksum hmagic (hbytes ▸ hcut)
  obtain ⟨w, hstart⟩ := run.repair_start
  obtain ⟨items, r, answers, hitems, hcopy, hr, hsealed⟩ :=
    @Run.repaired_before c run closing cut hopening
      (fun b hb => hlimit b (List.mem_append_left _ hb)) w hstart
  obtain ⟨summary, final, hclose⟩ := hr.holds.can_close (Run.index_before_le hlimit hindex cut)
  obtain ⟨report, hreport, hdropped, hundecodable, hsource, htorn⟩ :=
    Repair.copyScan_eq_ok hcopy (Stream.endingAt_ne_failed (run.stream closing) cut) hclose
  refine ⟨report, answers, summary, final.sink.bytes, ?_, ?_, ?_, ?_, ?_, ?_, ?_⟩
  · rw [hbytes]
    rw [hitems] at hscan
    exact (Repair.reindex_of_scan .default hscan rfl hstart).trans hreport
  · rw [sealedBy?, hstart]
    simp only [hr.answered, hclose]
  · intro hsome hall
    rw [hsome] at hfile
    have hholds := hr.holds
    rw [hall] at hholds
    exact hfile.sealed_again hholds hclose
  · rw [hdropped, hr.dropped]
  · rw [hundecodable, hr.undecodable]
  · rw [htorn, Stream.endingAt_eq_torn]
    exact Run.tornAt_stream hchecksum hbytes cut
  · rw [hsource, hsealed]
    exact hend

/-- An abandoned log of two series is cut inside its last block. -/
theorem reindex_cut_torn :
    ∃ run : Run .default,
      run.calls = [.append (.ofType "a") 5 [] [1], .append (.ofType "b") 6 [] [2, 3]] ∧
      ∃ report answers summary bytes,
        reindex (.ofBytes (run.last.abandon.sink.bytes.take 100)) .default =
          ⟨.ok report, bytes⟩ ∧
        sealedBy? .default [.declare (.ofType "a") .untyped [] .empty, .appendTo 0 5 [] [1],
          .declare (.ofType "b") .untyped [] .empty] =
          some (List.map .ok answers, summary, bytes) ∧
        report.tornTail = true ∧ report.sourceSealed = false := by
  let calls : List Call := [.append (.ofType "a") 5 [] [1], .append (.ofType "b") 6 [] [2, 3]]
  have hfacts : (Writer.start .default (.empty none)).toOption.map (fun w =>
      let journal := journalOf calls (w.run calls).1
      ((within Addition.size (opening .empty).length 100 journal).map Addition.call,
        decide (Inside Block.size openingMagic.length 100
          (fileBlock .empty :: journal.map Addition.block)),
        (w.run calls).2.sink.bytes.length,
        (fileBlock .empty :: journal.map Addition.block).all
          fun b => decide (b.body.length ≤ 2 ^ 30))) =
      some ([.declare (.ofType "a") .untyped [] .empty, .appendTo 0 5 [] [1],
        .declare (.ofType "b") .untyped [] .empty], true, 108, true) := by decide +kernel
  cases hstart : Writer.start .default (.empty none) with
  | error failure =>
    rw [hstart] at hfacts
    cases hfacts
  | ok w =>
    rw [hstart] at hfacts
    simp only [Except.toOption, Option.map_some, Option.some.injEq, Prod.mk.injEq] at hfacts
    obtain ⟨hbefore, hinside, hlength, hblocks⟩ := hfacts
    let run : Run .default := ⟨calls, _, w, _, hstart, rfl, by decide, by decide⟩
    have hlimit : ∀ b ∈ run.written false, b.body.length ≤ 2 ^ 30 := by
      intro b hb
      rw [Run.written, if_neg Bool.false_ne_true, List.append_nil] at hb
      exact of_decide_eq_true (List.all_eq_true.1 hblocks b hb)
    have hlast : run.last.abandon.sink.bytes.length = 108 := hlength
    have hindex : ∀ b ∈ run.tail, b.body.length ≤ maxBodySize :=
      run.tail_le_of_lt (Nat.lt_of_le_of_lt (Nat.le_of_eq hlast) (by decide))
    obtain ⟨report, answers, summary, bytes, hreindex, hsealed, _, _, _, htorn, hsource⟩ :=
      @reindex_cut _ run _ _ .abandoned hlimit (fun _ => hindex) 100 (by decide +kernel)
        (by rw [hlast]; decide)
    have hcalls : (run.before 100).map Addition.call = [.declare (.ofType "a") .untyped [] .empty,
        .appendTo 0 5 [] [1], .declare (.ofType "b") .untyped [] .empty] := hbefore
    have htornAt : run.TornAt run.last.abandon.sink.bytes false 100 := by
      left
      rw [Run.written, if_neg Bool.false_ne_true, List.append_nil]
      exact of_decide_eq_true hinside
    rw [hcalls] at hsealed
    refine ⟨run, rfl, report, answers, summary, bytes, hreindex, hsealed, htorn.2 htornAt, ?_⟩
    cases hreported : report.sourceSealed with
    | false => rfl
    | true => cases (hsource.1 hreported).1

end SeriesLog
