import SeriesLog.Proofs.Repair.Carry
import SeriesLog.Proofs.Repair.Healthy
import SeriesLog.Proofs.Scan.Unsealed

/-! # The outcome of a repair

The items of a source tell the journal of the new log before it is sealed. A repair succeeds exactly
when all items can be carried over and the index of that journal fits in a block. -/
namespace SeriesLog

variable {source : Source} {c : WriterConfig} {report : RepairReport} {output : Bytes}
  {annotations : Labels} {journal : List Addition}

namespace Repair

namespace Steps

def carried (s : Steps source c report output) : Carried := Carried.empty.items s.items

theorem carries (s : Steps source c report output) :
    s.last.Carries c.maxBlockSize (s.labels.overlay c.annotations) s.carried :=
  (Carries.start s.started).copyItems s.copied

theorem journal_eq (s : Steps source c report output) {run : SealedRun (c.withSource s.labels)}
    (hlast : run.last = s.last.writer) : run.journal = s.carried.journal := by
  have hcarries := s.carries.holds
  have htyped : ∀ a ∈ s.carried.journal, a.Typed :=
    Carried.typed_items (fun a ha => by cases ha) s.typed
  have hfile := (Writer.start_eq_ok run.started).2.1
  have hread : Readable (c.withSource s.labels).annotations run.journal maxBodySize :=
    run.readable fun b hb => run.block_le hb
  have hother : Readable (c.withSource s.labels).annotations s.carried.journal maxBodySize :=
    ⟨hcarries.sound, htyped, hfile, hfile, fun a ha => hcarries.sound.body_le ha⟩
  apply hread.journal_unique hother
  rw [← run.holds.bytes, hlast]
  exact hcarries.bytes

end Steps

/-- The annotations and the journal of the new log, if all items of the source can be carried
over. -/
def plan? (source : Source) (c : WriterConfig) : Option (Labels × List Addition) :=
  let scan := source.scan scanConfig
  match openScan scan with
  | .error _ => none
  | .ok (labels, items) =>
    match Writer.start (c.withSource labels) (.empty none) with
    | .error _ => none
    | .ok w =>
      match (Repair.mk w [] noReport).copyItems items with
      | (some _, _) => none
      | (none, _) =>
        match scan.ending with
        | .failed _ => none
        | _ => some ((c.withSource labels).annotations, (Carried.empty.items items).journal)

theorem Steps.plan?_eq (s : Steps source c report output) :
    plan? source c = some ((c.withSource s.labels).annotations, s.carried.journal) := by
  unfold plan?
  dsimp only
  rw [s.opened]
  dsimp only
  rw [s.started]
  dsimp only
  rw [s.copied]
  dsimp only
  split
  · next e hfailed => exact absurd hfailed (s.unfailed e)
  · rfl

theorem exists_reindex_of_plan (h : plan? source c = some (annotations, journal))
    (hindex : ∀ b ∈ indexPart (seriesIn annotations journal), b.body.length ≤ maxBodySize) :
    ∃ report output, reindex source c = ⟨.ok report, output⟩ := by
  unfold plan? at h
  dsimp only at h
  split at h
  · cases h
  next labels items hopen =>
  split at h
  · cases h
  next w hstart =>
  split at h
  · cases h
  next r hcopy =>
  split at h
  · cases h
  next hunfailed =>
  cases h
  have hcarries := (Carries.start hstart).copyItems hcopy
  obtain ⟨summary, final, hclose⟩ := hcarries.holds.can_close hindex
  obtain ⟨report, hreport, _⟩ := copyScan_eq_ok hcopy hunfailed hclose
  refine ⟨report, final.sink.bytes, ?_⟩
  rw [reindex, hopen]
  dsimp only
  rw [hstart]
  exact hreport

theorem reindex_ok_iff :
    (∃ report output, reindex source c = ⟨.ok report, output⟩) ↔
      ∃ annotations journal, plan? source c = some (annotations, journal) ∧
        ∀ b ∈ indexPart (seriesIn annotations journal), b.body.length ≤ maxBodySize := by
  constructor
  · rintro ⟨report, output, h⟩
    obtain ⟨s⟩ := exists_steps h
    obtain ⟨_, run, _, _, hlast⟩ := s.exists_run
    refine ⟨_, _, s.plan?_eq, ?_⟩
    rw [← s.journal_eq hlast]
    exact run.tail_le
  · rintro ⟨annotations, journal, hplan, hindex⟩
    exact exists_reindex_of_plan hplan hindex

theorem bodySizes_of_plan (h : reindex source c = ⟨.ok report, output⟩)
    (hplan : plan? source c = some (annotations, journal)) :
    bodySizes output = (fileBlock annotations :: journal.map Addition.block ++
      indexPart (seriesIn annotations journal)).map fun b => b.body.length := by
  obtain ⟨s⟩ := exists_steps h
  obtain ⟨_, run, hbytes, _, hlast⟩ := s.exists_run
  have hsizes := run.bodySizes_eq
  rw [hbytes, Run.blocks, s.journal_eq hlast] at hsizes
  rw [s.plan?_eq] at hplan
  cases hplan
  rw [hsizes, ← s.journal_eq hlast]
  rfl

theorem blocksCopied_of_plan (h : reindex source c = ⟨.ok report, output⟩)
    (hplan : plan? source c = some (annotations, journal)) :
    report.blocksCopied = (recordsIn annotations journal).length ∧
      report.blocksCopied + report.blocksDropped =
        (source.scan scanConfig).items.countP ScanItem.isData := by
  obtain ⟨s⟩ := exists_steps h
  obtain ⟨htallies, run, _, htells, hlast⟩ := s.exists_run
  refine ⟨?_, htallies.data⟩
  rw [s.plan?_eq, ← s.journal_eq hlast] at hplan
  cases hplan
  rw [htells.copied, run.length_recordsIn]

/-- A plan whose blocks are not too large is carried out, and its blocks can be computed. -/
theorem exists_reindex_of_sizes (hplan : plan? source c = some (annotations, journal))
    (hsizes : ((fileBlock annotations :: journal.map Addition.block ++
      indexPart (seriesIn annotations journal)).all
        fun b => decide (b.body.length ≤ 2 ^ 30)) = true) :
    ∃ report output, reindex source c = ⟨.ok report, output⟩ ∧
      ∀ size ∈ bodySizes output, size ≤ 2 ^ 30 := by
  have hle := List.all_eq_true.1 hsizes
  obtain ⟨report, output, hreindex⟩ := exists_reindex_of_plan hplan fun b hb =>
    Nat.le_trans (of_decide_eq_true (hle b (List.mem_append_right _ hb))) (by decide)
  refine ⟨report, output, hreindex, ?_⟩
  rw [bodySizes_of_plan hreindex hplan]
  intro size hsize
  obtain ⟨b, hb, rfl⟩ := List.mem_map.1 hsize
  exact of_decide_eq_true (hle b hb)

end Repair

end SeriesLog
