import SeriesLog.Proofs.Reader.Verify
import SeriesLog.Proofs.Repair.Runs

/-! # What a repair leaves

The log that a repair writes opens, and its checksum and its index hold, whatever the source was. -/
namespace SeriesLog

def ScanItem.bodySize? : ScanItem → Option Nat
  | block _ size _ => some size
  | trailer _ _ => none

def ScanItem.dataSize? : ScanItem → Option Nat
  | block _ size (.data _ _) => some size
  | _ => none

def ScanConfig.unlimited : ScanConfig := ⟨false, maxBodySize, false, true⟩

/-- The sizes of the bodies of the blocks in a file. -/
def bodySizes (file : Bytes) : List Nat :=
  ((Source.ofBytes file).scan .unlimited).items.filterMap ScanItem.bodySize?

def dataSizes (file : Bytes) : List Nat :=
  ((Source.ofBytes file).scan .unlimited).items.filterMap ScanItem.dataSize?

theorem mem_bodySizes_of_mem_dataSizes {file : Bytes} {size : Nat} (h : size ∈ dataSizes file) :
    size ∈ bodySizes file := by
  obtain ⟨item, hitem, hsize⟩ := List.mem_filterMap.1 h
  refine List.mem_filterMap.2 ⟨item, hitem, ?_⟩
  unfold ScanItem.dataSize? at hsize
  split at hsize
  · exact hsize
  · cases hsize

theorem Scan.mem_placed {offset : Nat} {bs : List (Block × BlockContent)}
    {p : Block × BlockContent} (h : p ∈ bs) :
    ∃ place, .block place p.1.body.length p.2 ∈ placed offset bs := by
  induction bs generalizing offset with
  | nil => cases h
  | cons q rest ih =>
    rcases List.mem_cons.1 h with rfl | h
    · exact ⟨offset, List.mem_cons_self⟩
    · obtain ⟨place, hplace⟩ := @ih (offset + q.1.size) h
      exact ⟨place, List.mem_cons_of_mem _ hplace⟩

theorem Scan.filterMap_bodySize? (offset : Nat) (bs : List (Block × BlockContent)) :
    (placed offset bs).filterMap ScanItem.bodySize? = bs.map fun p => p.1.body.length := by
  induction bs generalizing offset with
  | nil => rfl
  | cons p rest ih => rw [placed, List.filterMap_cons, ScanItem.bodySize?, ih, List.map_cons]

theorem Scan.exists_reads_unlimited {body : Bytes} (h : body.length ≤ maxBodySize) :
    ∃ content, Reads .unlimited ⟨.descriptor, body⟩ content := by
  cases hdecode : Descriptor.decode body with
  | ok d => exact ⟨_, .descriptor h hdecode⟩
  | error e => exact ⟨_, .undecodable h hdecode rfl⟩

theorem Scan.exists_readsAll {sc : ScanConfig} {bs : List Block}
    (h : ∀ b ∈ bs, b.body.length ≤ maxBodySize ∧ ∃ content, Reads sc b content) :
    ∃ ps : List (Block × BlockContent), ps.map (·.1) = bs ∧ ReadsAll sc ps := by
  induction bs with
  | nil => exact ⟨[], rfl, fun p hp => by cases hp⟩
  | cons b rest ih =>
    obtain ⟨hle, content, hreads⟩ := h b List.mem_cons_self
    obtain ⟨ps, rfl, hps⟩ := ih fun d hd => h d (List.mem_cons_of_mem b hd)
    refine ⟨(b, content) :: ps, rfl, ?_⟩
    intro p hp
    rcases List.mem_cons.1 hp with rfl | hp
    · exact ⟨hreads, hle⟩
    · exact hps p hp

namespace SealedRun

variable {c : WriterConfig} (run : SealedRun c)

theorem block_le {b : Block} (hb : b ∈ run.blocks) : b.body.length ≤ maxBodySize := by
  rcases List.mem_cons.1 hb with rfl | hb
  · exact (Writer.start_eq_ok run.started).2.1
  · obtain ⟨a, ha, rfl⟩ := List.mem_map.1 hb
    exact run.holds.sound.body_le ha

theorem exists_scan_unlimited :
    ∃ (offset stop : Nat) (tail : List (Block × BlockContent)),
      tail.map (·.1) = run.tail ∧
      ((Source.ofBytes run.bytes).scan .unlimited).items =
        Scan.placed openingMagic.length (logBlocks c.annotations false run.journal) ++
          Scan.placed offset tail ++ [.trailer stop run.trailer] := by
  have hreadable : Readable c.annotations run.journal ScanConfig.unlimited.maxBlockSize :=
    run.readable fun b hb => run.block_le hb
  obtain ⟨tail, htail, hreads⟩ : ∃ ps : List (Block × BlockContent),
      ps.map (·.1) = run.tail ∧ Scan.ReadsAll .unlimited ps := by
    apply Scan.exists_readsAll
    intro b hb
    have hle := run.tail_le b hb
    refine ⟨hle, ?_⟩
    rw [eq_of_mem_indexPart hb] at hle ⊢
    exact Scan.exists_reads_unlimited hle
  obtain ⟨stop, hscan⟩ := scan_sealed hreadable hreads run.length_checksum
  rw [htail, ← run.bytes_eq] at hscan
  exact ⟨_, stop, tail, htail, by rw [hscan]; rfl⟩

theorem bodySizes_eq :
    bodySizes run.bytes = (run.blocks ++ run.tail).map fun b => b.body.length := by
  obtain ⟨offset, stop, tail, htail, hscan⟩ := run.exists_scan_unlimited
  rw [bodySizes, hscan, List.filterMap_append, List.filterMap_append, Scan.filterMap_bodySize?,
    Scan.filterMap_bodySize?, Run.blocks, ← htail, ← map_logBlocks c.annotations false,
    List.map_append, List.map_map, List.map_map]
  exact List.append_nil _

theorem mem_bodySizes {b : Block} (hb : b ∈ run.blocks ++ run.tail) :
    b.body.length ∈ bodySizes run.bytes := by
  rw [run.bodySizes_eq]
  exact List.mem_map_of_mem hb

theorem mem_dataSizes {d : DataDescriptor} {payload : Bytes}
    (hmem : .data d payload ∈ run.journal) :
    (d.sized ++ payload).length ∈ dataSizes run.bytes := by
  obtain ⟨offset, stop, tail, _, hscan⟩ := run.exists_scan_unlimited
  have hblock : ((Addition.data d payload).block, BlockContent.data d none) ∈
      logBlocks c.annotations false run.journal :=
    List.mem_cons_of_mem _ (List.mem_map_of_mem (f := fun a => (a.block, a.content false)) hmem)
  obtain ⟨place, hplace⟩ := Scan.mem_placed hblock
  refine List.mem_filterMap.2 ⟨.block place _ (.data d none), ?_, rfl⟩
  rw [hscan]
  exact List.mem_append_left _ (List.mem_append_left _ hplace)

theorem indexed_of_limit (hdata : run.last.blockCount ≠ 0)
    (hlimit : ∀ b ∈ run.blocks ++ run.tail, b.body.length ≤ defaultMaxBlockSize) :
    run.Indexed defaultMaxBlockSize := by
  obtain ⟨htail, -⟩ := run.tail_of_data hdata
  have hindex : (indexBlock (seriesIn c.annotations run.journal)).body.length ≤
      defaultMaxBlockSize := by
    apply hlimit
    rw [htail]
    exact List.mem_append_right _ List.mem_cons_self
  have hlog : (logBytes c.annotations run.journal).length < 2 ^ 63 := by
    apply length_logBytes_lt_of_limit c.annotations run.holds.sound
    · exact hlimit _ List.mem_cons_self
    · intro a ha
      apply hlimit
      exact List.mem_append_left _ (List.mem_cons_of_mem _ (List.mem_map_of_mem ha))
    · exact hindex
  have hseries := length_series_le (seriesIn c.annotations run.journal)
  rw [run.length_seriesIn] at hseries
  refine run.indexed hdata ?_ ?_ hlimit
  · rw [defaultMaxBlockSize] at hindex
    omega
  · rw [run.bytes_eq, length_sealedBytes _ _ _ run.length_checksum, htail]
    simp only [span_cons, span_nil, Block.size, trailerSize, headerSize]
    rw [defaultMaxBlockSize] at hindex
    omega

end SealedRun

/-- A log that opens and passes all checks, as a report tells of it. -/
structure Healthy (output : Bytes) (report : RepairReport) (r : Reader) : Prop where
  opened : Reader.ofFile output .default = .ok r
  checksum : r.verifyChecksum = .valid
  index : r.verifyIndex = .ok report.blocksCopied
  series : report.seriesCount ≤ 2 ^ 32 → r.series.length = report.seriesCount
  /-- Numbers of series have 32 bits. Only a log without data, which has no index that would be too
  large, may hold more series than can be numbered. -/
  surplus : 2 ^ 32 < report.seriesCount →
    report.blocksCopied = 0 ∧ r.series.length = 2 ^ 32
  written : report.bytesWritten = output.length
  indexed : report.blocksCopied ≠ 0 →
    ∃ offset : UInt64, offset.toNat = report.indexOffset ∧ r.source = .fileIndex offset
  unindexed : report.blocksCopied = 0 →
    r.source = .scan .noIndex ∧ report.indexOffset = 0

section

variable {c : WriterConfig} {run : SealedRun c} {report : RepairReport}

theorem RepairReport.Tells.blockCount (h : report.Tells run) :
    run.last.blockCount = report.blocksCopied := by
  rw [run.blockCount_eq, h.copied]

theorem RepairReport.Tells.recordsIn (h : report.Tells run) :
    (recordsIn c.annotations run.journal).length = report.blocksCopied := by
  rw [run.length_recordsIn, h.copied]

theorem SealedRun.healthy_of_no_data (htells : report.Tells run) (hnone : report.blocksCopied = 0)
    (hlimit : ∀ b ∈ run.blocks ++ run.tail, b.body.length ≤ defaultMaxBlockSize) :
    ∃ r, Healthy run.bytes report r := by
  have hdata : run.last.blockCount = 0 := by rw [htells.blockCount, hnone]
  have hopened := @SealedRun.opened _ run .default hlimit (.scan .noIndex)
  have hrecords : recordsIn c.annotations run.journal = [] := by
    rw [← List.length_eq_zero_iff, htells.recordsIn, hnone]
  have hcount : (Reader.openedByScan run.bytes .default c.annotations run.journal run.trailer
      .noIndex).series.length = min (2 ^ 32) report.seriesCount := by
    rw [Reader.length_openedByScan, run.length_seriesIn, htells.series]
  refine ⟨_, run.ofFile_byScan hdata hlimit, ?_, ?_, ?_, ?_, ?_, ?_, ?_⟩
  · exact run.verifyChecksum rfl rfl
  · rw [hnone]
    apply Reader.verifyIndex_of_no_entries
    intro t ht
    refine hopened.no_entries run.holds.sound hrecords t ?_
    exact ((List.take_sublist _ _).map _).subset ht
  · exact fun hle => hcount.trans (Nat.min_eq_right hle)
  · exact fun hlt => ⟨hnone, hcount.trans (Nat.min_eq_left (Nat.le_of_lt hlt))⟩
  · exact htells.written
  · exact fun hsome => absurd hnone hsome
  · intro _
    rw [htells.offset]
    exact ⟨rfl, (run.tail_of_no_data hdata).2⟩

theorem SealedRun.healthy_of_data (htells : report.Tells run) (hsome : report.blocksCopied ≠ 0)
    (hlimit : ∀ b ∈ run.blocks ++ run.tail, b.body.length ≤ defaultMaxBlockSize) :
    ∃ r, Healthy run.bytes report r := by
  have hdata : run.last.blockCount ≠ 0 := by
    rw [htells.blockCount]
    exact hsome
  have hindexed : run.Indexed ReaderConfig.default.maxBlockSize := run.indexed_of_limit hdata hlimit
  have hopened := @SealedRun.opened _ run .default hlimit
    (.fileIndex (UInt64.ofNat run.summary.indexOffset))
  have hoffset := Reader.offset_ne_zero c.annotations run.journal hindexed.size
  have hcount : report.seriesCount ≤ 2 ^ 32 := by
    rw [htells.series, ← run.length_seriesIn]
    exact hindexed.count
  refine ⟨_, hindexed.ofFile, ?_, ?_, ?_, ?_, ?_, ?_, ?_⟩
  · exact run.verifyChecksum rfl rfl
  · rw [hopened.verifyIndex run.holds.sound hindexed.count hindexed.size, htells.recordsIn]
  · intro _
    rw [hopened.length_series, run.length_seriesIn, htells.series]
  · exact fun hlt => absurd hcount (Nat.not_le.2 hlt)
  · exact htells.written
  · intro _
    refine ⟨_, ?_, rfl⟩
    rw [htells.offset, hindexed.offset]
    exact hoffset.1
  · exact fun hnone => absurd hnone hsome

end

/-- Whatever the source holds, a repair that succeeds leaves a log that opens and passes all checks,
and its report accounts for every block of the source. -/
theorem reindex_healthy {source : Source} {c : WriterConfig} {report : RepairReport}
    {output : Bytes} (h : reindex source c = ⟨.ok report, output⟩)
    (hlimit : ∀ size ∈ bodySizes output, size ≤ 2 ^ 30) :
    (∃ r, Healthy output report r) ∧
      report.Tallies (source.scan Repair.scanConfig).items := by
  obtain ⟨htallies, labels, run, rfl, htells⟩ := exists_run_of_reindex h
  have hblocks : ∀ b ∈ run.blocks ++ run.tail, b.body.length ≤ defaultMaxBlockSize :=
    fun b hb => hlimit _ (run.mem_bodySizes hb)
  refine ⟨?_, htallies⟩
  by_cases hnone : report.blocksCopied = 0
  · exact run.healthy_of_no_data htells hnone hblocks
  · exact run.healthy_of_data htells hnone hblocks

/-- Blocks of a series with another number and of one that is not declared, blocks that mean nothing
here, and a block that is cut short. -/
theorem reindex_healthy_foreign :
    let blocks : List Block := [
      ⟨.descriptor, Descriptor.encode (.series (.make 7 (.ofType "a") .untyped [] .empty))⟩,
      ⟨.data, (DataDescriptor.mk 7 5 3 []).sized ++ [1, 2]⟩, ⟨.reserved 9 (by decide), [0]⟩,
      ⟨.data, (DataDescriptor.mk 8 5 0 []).sized ++ [3]⟩, ⟨.descriptor, [255]⟩]
    let source : Source := .ofBytes (opening .empty ++ blocks.flatMap Block.encode ++ [2, 0, 0])
    ∃ report output, reindex source .default = ⟨.ok report, output⟩ ∧
      (∃ r, Healthy output report r) ∧ report.Tallies (source.scan Repair.scanConfig).items ∧
      report = ⟨1, 1, 1, 1, 1, false, false, true, 64, 140⟩ := by
  intro blocks source
  have hfacts : (match reindex source .default with
      | ⟨.ok report, output⟩ =>
        some (report, (bodySizes output).all fun size => decide (size ≤ 2 ^ 30))
      | ⟨.error _, _⟩ => none) = some (⟨1, 1, 1, 1, 1, false, false, true, 64, 140⟩, true) := by
    decide +kernel
  split at hfacts
  · next report output hreindex =>
    simp only [Option.some.injEq, Prod.mk.injEq] at hfacts
    obtain ⟨hreport, hsizes⟩ := hfacts
    obtain ⟨hhealthy, htallies⟩ := reindex_healthy hreindex
      (fun size hsize => of_decide_eq_true (List.all_eq_true.1 hsizes size hsize))
    exact ⟨report, output, hreindex, hhealthy, htallies, hreport⟩
  · cases hfacts

end SeriesLog
