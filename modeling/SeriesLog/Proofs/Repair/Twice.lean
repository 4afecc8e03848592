import SeriesLog.Proofs.Labels
import SeriesLog.Proofs.Repair.Cut
import SeriesLog.Proofs.Repair.Outcome

/-! # Repairing twice

A repair leaves a log that the next one copies block by block. Two repairs come to one that sets the
annotations of both over those of the source, and a repair that sets none changes nothing. -/
namespace SeriesLog

namespace Scan

theorem exists_of_mem_placed {offset : Nat} {bs : List (Block × BlockContent)} {item : ScanItem}
    (h : item ∈ placed offset bs) : ∃ p ∈ bs, ∃ place, item = .block place p.1.body.length p.2 := by
  induction bs generalizing offset with
  | nil => cases h
  | cons q rest ih =>
    rcases List.mem_cons.1 h with rfl | h
    · exact ⟨q, List.mem_cons_self, offset, rfl⟩
    · obtain ⟨p, hp, hitem⟩ := ih h
      exact ⟨p, List.mem_cons_of_mem q hp, hitem⟩

end Scan

namespace SealedRun

variable {c : WriterConfig} (run : SealedRun c)

def repairItems (stop : Nat) : List ScanItem :=
  Scan.placed (opening c.annotations).length (blocksOf true run.journal) ++
    (Scan.placed (logBytes c.annotations run.journal).length (run.indexRead true) ++
      [.trailer stop run.trailer])

/-- A repair scans a sealed log whose blocks are not too large to its end: the file descriptor, the
journal, the index and the trailer. -/
theorem exists_scan_repair
    (hlimit : ∀ b ∈ run.blocks ++ run.tail, b.body.length ≤ defaultMaxBlockSize) :
    ∃ stop : Nat, (Source.ofBytes run.bytes).scan Repair.scanConfig =
      ⟨.block openingMagic.length (fileBlock c.annotations).body.length
          (.descriptor (.file (.ofAnnotations c.annotations))) :: run.repairItems stop,
        .sealed, stop + trailerSize⟩ := by
  have hall : Scan.ReadsAll Repair.scanConfig (run.stream (some run.trailer)).blocks :=
    @Run.readsAll_stream _ _ (some run.trailer) hlimit
  have hreadable : Readable c.annotations run.journal Repair.scanConfig.maxBlockSize :=
    run.readable_of_limit hlimit
  have htail : Scan.ReadsAll Repair.scanConfig (run.indexRead true) :=
    fun p hp => hall p (List.mem_append_right _ hp)
  have hmap : (run.indexRead true).map (·.1) = run.tail := by
    rw [Run.map_indexRead, if_pos rfl]
  obtain ⟨stop, hscan⟩ := scan_sealed hreadable htail run.length_checksum
  rw [hmap, ← run.bytes_eq] at hscan
  refine ⟨stop, ?_⟩
  rw [hscan, logBlocks, Scan.placed, repairItems, length_opening, List.append_assoc]
  rfl

theorem exists_openScan
    (hlimit : ∀ b ∈ run.blocks ++ run.tail, b.body.length ≤ defaultMaxBlockSize) :
    ∃ items, Repair.openScan ((Source.ofBytes run.bytes).scan Repair.scanConfig) =
      .ok (c.annotations, items) := by
  obtain ⟨stop, hscan⟩ := run.exists_scan_repair hlimit
  refine ⟨run.repairItems stop, ?_⟩
  rw [hscan]
  rfl

theorem not_reserved_of_mem {stop : Nat} {item : ScanItem} (h : item ∈ run.repairItems stop) :
    item.isReserved = false := by
  rcases List.mem_append.1 h with h | h
  · obtain ⟨p, hp, place, rfl⟩ := Scan.exists_of_mem_placed h
    obtain ⟨a, _, rfl⟩ := List.mem_map.1 hp
    cases a <;> rfl
  · rcases List.mem_append.1 h with h | h
    · obtain ⟨p, hp, place, rfl⟩ := Scan.exists_of_mem_placed h
      obtain ⟨index, hindex⟩ := Run.indexRead_eq_index hp
      rw [hindex]
      rfl
    · rw [List.mem_singleton.1 h]
      rfl

theorem copies_journal {others : WriterConfig} {w : Writer}
    (hstart : Writer.start others (.empty none) = .ok w)
    (hfits : ∀ a ∈ run.journal, a.Fits others.maxBlockSize) (stop : Nat) :
    ∃ r, (Repair.mk w [] Repair.noReport).copyItems (run.repairItems stop) = (none, r) ∧
      r.writer.Holds others.annotations run.journal ∧
      r.report.blocksDropped = 0 ∧ r.report.undecodableSkipped = 0 := by
  have hsound : SoundIn others.annotations ([] ++ run.journal) :=
    run.holds.sound.relocate others.annotations
  obtain ⟨copied, _, hcopy, _, hcopied⟩ :=
    (Repair.Copied.start hstart).copyItems hsound hfits (opening c.annotations).length
  obtain ⟨r, hindex, _, hr⟩ := hcopied.copy_index (fun p hp => Run.indexRead_eq_index hp)
    (logBytes c.annotations run.journal).length
  refine ⟨r.note fun p => { p with sourceSealed := true }, ?_, hr.holds, hr.dropped,
    hr.undecodable⟩
  rw [repairItems, Repair.copyItems_append _ _ _ hcopy, Repair.copyItems_append _ _ _ hindex]
  rfl

/-- What the repair of a sealed log comes to: it succeeds, nothing is left out, and the new log is
the one that any writer seals that holds the journal under the annotations of both. -/
structure RepairedAgain (others : WriterConfig) (report : RepairReport) (output : Bytes) : Prop
    where
  reindexed : reindex (.ofBytes run.bytes) others = ⟨.ok report, output⟩
  dropped : report.blocksDropped = 0
  reserved : report.reservedSkipped = 0
  undecodable : report.undecodableSkipped = 0
  whole : report.tornTail = false
  sealed : ∀ {w after : Writer} {summary : CloseSummary},
    w.Holds (c.annotations.overlay others.annotations) run.journal →
      w.close = (.ok summary, after) → after.sink.bytes = output

theorem index_relocated_le
    (hlimit : ∀ b ∈ run.blocks ++ run.tail, b.body.length ≤ defaultMaxBlockSize)
    (annotations : Labels) :
    ∀ b ∈ indexPart (seriesIn annotations run.journal), b.body.length ≤ maxBodySize :=
  (alike_seriesIn c.annotations annotations run.journal).index_le
    fun b hb => hlimit b (List.mem_append_right _ hb)

theorem exists_repairedAgain
    (hlimit : ∀ b ∈ run.blocks ++ run.tail, b.body.length ≤ defaultMaxBlockSize)
    {others : WriterConfig} (hfits : ∀ a ∈ run.journal, a.Fits others.maxBlockSize)
    (hvalid : Annotations.fault? (c.annotations.overlay others.annotations) = none)
    (hfile : (fileBlock (c.annotations.overlay others.annotations)).body.length ≤ maxBodySize) :
    ∃ report output, run.RepairedAgain others report output := by
  obtain ⟨stop, hscan⟩ := run.exists_scan_repair hlimit
  obtain ⟨w, hstart⟩ : ∃ w, Writer.start (others.withSource c.annotations) (.empty none) = .ok w :=
    Writer.start_of_valid hvalid hfile
  obtain ⟨r, hcopy, hholds, hdropped, hundecodable⟩ := run.copies_journal hstart hfits stop
  obtain ⟨summary, final, hclose⟩ := hholds.can_close (run.index_relocated_le hlimit _)
  have hending : ∀ e, ScanEnding.sealed ≠ .failed e := by
    intro e he
    cases he
  obtain ⟨report, hreport, hreportDropped, hreportUndecodable, _, htorn⟩ :=
    Repair.copyScan_eq_ok hcopy hending hclose
  have hreindex : reindex (.ofBytes run.bytes) others = ⟨.ok report, final.sink.bytes⟩ :=
    (Repair.reindex_of_scan others hscan rfl hstart).trans hreport
  have htallies := (exists_run_of_reindex hreindex).1
  refine ⟨report, final.sink.bytes, hreindex, ?_, ?_, ?_, ?_, ?_⟩
  · rw [hreportDropped, hdropped]
  · rw [htallies.reserved, hscan, List.countP_eq_zero]
    intro item hitem
    rcases List.mem_cons.1 hitem with rfl | hitem
    · exact Bool.false_ne_true
    · rw [run.not_reserved_of_mem hitem]
      exact Bool.false_ne_true
  · rw [hreportUndecodable, hundecodable]
  · cases htail : report.tornTail with
    | false => rfl
    | true => cases htorn.1 htail
  · intro v after other hv hclosed
    exact hv.sealed_alike hholds hclosed hclose

theorem exists_reindex_default
    (hlimit : ∀ b ∈ run.blocks ++ run.tail, b.body.length ≤ defaultMaxBlockSize) :
    ∃ report, reindex (.ofBytes run.bytes) .default = ⟨.ok report, run.bytes⟩ := by
  obtain ⟨hvalid, hfile, _⟩ := Writer.start_eq_ok run.started
  have hfits : ∀ a ∈ run.journal, a.Fits WriterConfig.default.maxBlockSize := by
    intro a ha
    have hmem : a.block ∈ run.blocks := List.mem_cons_of_mem _ (List.mem_map_of_mem ha)
    exact a.fits_of_le (hlimit _ (List.mem_append_left _ hmem))
  obtain ⟨report, output, hagain⟩ := run.exists_repairedAgain hlimit hfits hvalid hfile
  have hsame : run.bytes = output := hagain.sealed run.holds run.closed
  refine ⟨report, ?_⟩
  rw [hagain.reindexed, hsame]

theorem readFileDescriptor
    (hlimit : ∀ b ∈ run.blocks ++ run.tail, b.body.length ≤ defaultMaxBlockSize) :
    Reader.readFileDescriptor run.bytes (2 ^ 30) = .ok (.ofAnnotations c.annotations) := by
  obtain ⟨_, hmax, _⟩ := Writer.start_eq_ok run.started
  have hfile := hlimit _ List.mem_cons_self
  rw [run.bytes_eq, sealedBytes, logBytes, List.append_assoc, List.append_assoc]
  exact Reader.readFileDescriptor_opening hmax hfile _

end SealedRun

theorem WriterConfig.overlay_withSource (c : WriterConfig) (source others : Labels) :
    (c.withSource source).annotations.overlay others =
      source.overlay (c.annotations.overlay others) := Labels.overlay_assoc _ _ _

theorem Repair.reindex_of_large {source : Source} {c : WriterConfig} {annotations : Labels}
    {items : List ScanItem} (hopen : openScan (source.scan scanConfig) = .ok (annotations, items))
    (hvalid : Annotations.fault? (annotations.overlay c.annotations) = none)
    (hlarge : maxBodySize < (fileBlock (annotations.overlay c.annotations)).body.length) :
    reindex source c = ⟨.error (.format (.tooLarge
      (fileBlock (annotations.overlay c.annotations)).body.length maxBodySize)), openingMagic⟩ := by
  have hstart := @Writer.start_of_large (c.withSource annotations) hvalid hlarge
  rw [reindex, hopen]
  dsimp only
  rw [hstart]
  rfl

namespace Repair.Steps

variable {source : Source} {c : WriterConfig} {report : RepairReport} {output : Bytes}

theorem exists_under (s : Steps source c report output) {others : Labels}
    (hvalid : Annotations.fault? (s.labels.overlay others) = none)
    (hfile : (fileBlock (s.labels.overlay others)).body.length ≤ maxBodySize)
    (hindex : ∀ b ∈ indexPart (seriesIn (s.labels.overlay others) s.carried.journal),
      b.body.length ≤ maxBodySize) :
    ∃ (again : RepairReport) (w after : Writer) (summary : CloseSummary),
      reindex source { c with annotations := others } = ⟨.ok again, after.sink.bytes⟩ ∧
      w.Holds (s.labels.overlay others) s.carried.journal ∧ w.close = (.ok summary, after) := by
  let altered : WriterConfig := { c with annotations := others }
  obtain ⟨w, hstart⟩ : ∃ w, Writer.start (altered.withSource s.labels) (.empty none) = .ok w :=
    Writer.start_of_valid hvalid hfile
  have hbegun : (Repair.mk w [] noReport).Carries c.maxBlockSize (s.labels.overlay others) .empty :=
    Carries.start hstart
  obtain ⟨r, hcopy, hcarries⟩ := (Carries.start s.started).copyItems_again hbegun s.copied
  have hholds : r.writer.Holds (s.labels.overlay others) s.carried.journal := hcarries.holds
  obtain ⟨summary, after, hclose⟩ := hholds.can_close hindex
  obtain ⟨again, hagain, _⟩ := copyScan_eq_ok hcopy s.unfailed hclose
  refine ⟨again, r.writer, after, summary, ?_, hholds, hclose⟩
  rw [reindex, s.opened]
  dsimp only
  rw [hstart]
  exact hagain

theorem exists_both (s : Steps source c report output) {run : SealedRun (c.withSource s.labels)}
    (hjournal : run.journal = s.carried.journal)
    (hlimit : ∀ b ∈ run.blocks ++ run.tail, b.body.length ≤ defaultMaxBlockSize)
    {others : WriterConfig} {again : RepairReport} {twice : Bytes}
    (hagain : run.RepairedAgain others again twice)
    (hvalid : Annotations.fault?
      (s.labels.overlay (c.annotations.overlay others.annotations)) = none)
    (hfile : (fileBlock (s.labels.overlay (c.annotations.overlay others.annotations))).body.length ≤
      maxBodySize) :
    ∃ both, reindex source { c with annotations := c.annotations.overlay others.annotations } =
      ⟨.ok both, twice⟩ := by
  have hindex := run.index_relocated_le hlimit
    (s.labels.overlay (c.annotations.overlay others.annotations))
  rw [hjournal] at hindex
  obtain ⟨both, w, after, summary, hboth, hholds, hclose⟩ := s.exists_under hvalid hfile hindex
  have hoverlaid : w.Holds ((c.withSource s.labels).annotations.overlay others.annotations)
      run.journal := by
    rw [WriterConfig.overlay_withSource, hjournal]
    exact hholds
  rw [hagain.sealed hoverlaid hclose] at hboth
  exact ⟨both, hboth⟩

/-- The new log starts with the annotations of the plan. -/
theorem readFileDescriptor (s : Steps source c report output)
    (hlimit : ∀ size ∈ bodySizes output, size ≤ 2 ^ 30) :
    Reader.readFileDescriptor output (2 ^ 30) =
      .ok (.ofAnnotations (c.withSource s.labels).annotations) := by
  obtain ⟨_, run, hbytes, _⟩ := s.exists_run
  rw [← hbytes] at hlimit
  have hread := run.readFileDescriptor fun b hb => hlimit _ (run.mem_bodySizes hb)
  rwa [hbytes] at hread

end Repair.Steps

/-- What is left by a repair under `c₁` is repaired again under `c₂`: nothing is left out, and the
log is the one that a single repair leaves which sets the annotations of both. A block beyond the
limits or annotations that may not be written stand in the way; annotations that no block can hold
are refused by the single repair as well. The repair that sets no annotations leaves the log as it
is. -/
theorem reindex_twice {source : Source} {c₁ c₂ : WriterConfig} {report : RepairReport}
    {once : Bytes} (h : reindex source c₁ = ⟨.ok report, once⟩)
    (hlimit : ∀ size ∈ bodySizes once, size ≤ 2 ^ 30) :
    (∃ same, reindex (.ofBytes once) .default = ⟨.ok same, once⟩) ∧
    ∃ file : FileDescriptor, Reader.readFileDescriptor once (2 ^ 30) = .ok file ∧
      ((∀ size ∈ dataSizes once, size ≤ c₂.maxBlockSize) →
        Annotations.fault? (file.annotations.overlay c₂.annotations) = none →
        (∃ (again both : RepairReport) (twice : Bytes),
          reindex (.ofBytes once) c₂ = ⟨.ok again, twice⟩ ∧
          again.blocksDropped = 0 ∧ again.reservedSkipped = 0 ∧ again.undecodableSkipped = 0 ∧
          again.tornTail = false ∧
          reindex source { c₁ with annotations := c₁.annotations.overlay c₂.annotations } =
            ⟨.ok both, twice⟩) ∨
        maxBodySize < (fileBlock (file.annotations.overlay c₂.annotations)).body.length ∧
          ∃ e, reindex (.ofBytes once) c₂ = ⟨.error e, openingMagic⟩ ∧
            reindex source { c₁ with annotations := c₁.annotations.overlay c₂.annotations } =
              ⟨.error e, openingMagic⟩) := by
  obtain ⟨s⟩ := Repair.exists_steps h
  obtain ⟨_, run, hbytes, _, hlast⟩ := s.exists_run
  rw [← hbytes] at hlimit ⊢
  have hblocks : ∀ b ∈ run.blocks ++ run.tail, b.body.length ≤ defaultMaxBlockSize :=
    fun b hb => hlimit _ (run.mem_bodySizes hb)
  refine ⟨run.exists_reindex_default hblocks, _, run.readFileDescriptor hblocks, ?_⟩
  intro hdata hvalid
  have hmerged := c₁.overlay_withSource s.labels c₂.annotations
  have hread : (FileDescriptor.ofAnnotations (c₁.withSource s.labels).annotations).annotations =
      (c₁.withSource s.labels).annotations := rfl
  rw [hread] at hvalid ⊢
  by_cases hsize : (fileBlock ((c₁.withSource s.labels).annotations.overlay
      c₂.annotations)).body.length ≤ maxBodySize
  · left
    have hfits : ∀ a ∈ run.journal, a.Fits c₂.maxBlockSize := by
      intro a ha
      cases a with
      | series d => trivial
      | data d payload => exact hdata _ (run.mem_dataSizes ha)
    obtain ⟨again, twice, hagain⟩ := run.exists_repairedAgain hblocks hfits hvalid hsize
    rw [hmerged] at hvalid hsize
    obtain ⟨both, hboth⟩ := s.exists_both (s.journal_eq hlast) hblocks hagain hvalid hsize
    exact ⟨again, both, twice, hagain.reindexed, hagain.dropped, hagain.reserved,
      hagain.undecodable, hagain.whole, hboth⟩
  · right
    have hlarge := Nat.lt_of_not_le hsize
    obtain ⟨items, hopen⟩ := run.exists_openScan hblocks
    have hagain := Repair.reindex_of_large hopen hvalid hlarge
    refine ⟨hlarge, _, hagain, ?_⟩
    rw [hmerged] at hvalid hlarge ⊢
    exact @Repair.reindex_of_large source
      { c₁ with annotations := c₁.annotations.overlay c₂.annotations } _ _ s.opened hvalid hlarge

/-- A series with another number, a block of a series that is not described, and annotations of which
the second repair replaces one. -/
theorem reindex_twice_annotated :
    let blocks : List Block := [
      ⟨.descriptor, Descriptor.encode (.series (.make 7 (.ofType "a") .untyped [] .empty))⟩,
      ⟨.data, (DataDescriptor.mk 8 5 0 []).sized ++ [3]⟩,
      ⟨.data, (DataDescriptor.mk 7 5 3 []).sized ++ [1, 2]⟩]
    let source : Source := .ofBytes (opening .empty ++ blocks.flatMap Block.encode ++ [2, 0, 0])
    let c₁ : WriterConfig := { WriterConfig.default with annotations := .ofList [("x:k", "1")] }
    let c₂ : WriterConfig :=
      { WriterConfig.default with annotations := .ofList [("x:k", "2"), ("x:l", "3")] }
    ∃ report again both once twice,
      reindex source c₁ = ⟨.ok report, once⟩ ∧ report.blocksDropped = 1 ∧
      reindex (.ofBytes once) c₂ = ⟨.ok again, twice⟩ ∧ again.blocksDropped = 0 ∧
      reindex source { c₁ with annotations := c₁.annotations.overlay c₂.annotations } =
        ⟨.ok both, twice⟩ := by
  intro blocks source c₁ c₂
  have hplanned : (Repair.plan? source c₁).map (fun plan =>
      let merged := plan.1.overlay c₂.annotations
      ((recordsIn plan.1 plan.2).length, (Annotations.fault? merged).isNone,
        (fileBlock merged).body.length,
        (fileBlock plan.1 :: plan.2.map Addition.block ++ indexPart (seriesIn plan.1 plan.2)).all
          fun b => decide (b.body.length ≤ 2 ^ 30))) = some (1, true, 30, true) := by
    decide +kernel
  have hscanned : (source.scan Repair.scanConfig).items.countP ScanItem.isData = 2 := by
    decide +kernel
  obtain ⟨⟨annotations, journal⟩, hplan, hfacts⟩ := Option.map_eq_some_iff.1 hplanned
  simp only [Prod.mk.injEq] at hfacts
  obtain ⟨hrecords, hvalid, hmerged, hsizes⟩ := hfacts
  obtain ⟨report, once, hreindex, hlimit⟩ := Repair.exists_reindex_of_sizes hplan hsizes
  obtain ⟨hcopied, hcounted⟩ := Repair.blocksCopied_of_plan hreindex hplan
  obtain ⟨s⟩ := Repair.exists_steps hreindex
  have hread := s.readFileDescriptor hlimit
  rw [s.plan?_eq] at hplan
  cases hplan
  obtain ⟨_, file, hfile, htwice⟩ := @reindex_twice source c₁ c₂ report once hreindex hlimit
  rw [hread] at hfile
  cases hfile
  rcases htwice (fun size hsize => hlimit size (mem_bodySizes_of_mem_dataSizes hsize))
      (Option.isNone_iff_eq_none.1 hvalid) with
    ⟨again, both, twice, hagain, hnone, _, _, _, hboth⟩ | ⟨hlarge, _⟩
  · exact ⟨report, again, both, once, twice, hreindex, by omega, hagain, hnone, hboth⟩
  · exact absurd hlarge (Nat.not_lt_of_le (Nat.le_trans (Nat.le_of_eq hmerged) (by decide)))

end SeriesLog
