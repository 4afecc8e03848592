import SeriesLog.Proofs.Repair.Copy
import SeriesLog.Proofs.Scan.Described

/-! # Repairs as runs

Whatever its source holds, a repair that succeeds is a run of a writer that is sealed at the end.
Every block of the source is copied by a call, or it is counted among those that are left out. -/
namespace SeriesLog

namespace ScanItem

def isData : ScanItem → Bool
  | block _ _ (.data _ _) => true
  | _ => false

def isReserved : ScanItem → Bool
  | block _ _ (.reserved _) => true
  | _ => false

def isUndecodable : ScanItem → Bool
  | block _ _ (.undecodable _) => true
  | _ => false

def Typed : ScanItem → Prop
  | block _ _ (.descriptor (.series d)) => d.id.type ≠ ""
  | _ => True

theorem typed_of_mem_scan {c : ScanConfig} {s : Source} {item : ScanItem}
    (h : item ∈ (s.scan c).items) : item.Typed := by
  have hdescribed := described_of_mem_scan h
  unfold Typed
  split
  · have hvalid : SeriesDescriptor.Valid _ := hdescribed
    exact hvalid.typed
  · trivial

end ScanItem

theorem Writer.run_append (w : Writer) (calls more : List Call) :
    w.run (calls ++ more) =
      ((w.run calls).1 ++ ((w.run calls).2.run more).1, ((w.run calls).2.run more).2) := by
  induction calls generalizing w with
  | nil => rfl
  | cons call rest ih => simp only [List.cons_append, Writer.run, ih]

namespace Repair

structure Advances (r : Repair) (items : List ScanItem) (calls : List Call)
    (answers : List (Except LogError Answer)) (after : Repair) : Prop where
  answered : r.writer.run calls = (answers, after.writer)
  unended : .close ∉ calls
  typed : ∀ call ∈ calls, call.Typed
  copied : after.report.blocksCopied =
    r.report.blocksCopied + (answers.filterMap location?).length
  data : after.report.blocksCopied + after.report.blocksDropped =
    r.report.blocksCopied + r.report.blocksDropped + items.countP ScanItem.isData
  reserved : after.report.reservedSkipped =
    r.report.reservedSkipped + items.countP ScanItem.isReserved
  undecodable : after.report.undecodableSkipped =
    r.report.undecodableSkipped + items.countP ScanItem.isUndecodable

variable {r next after : Repair} {items more : List ScanItem} {calls later : List Call}
  {answers others : List (Except LogError Answer)}

theorem Advances.refl (r : Repair) : r.Advances [] [] [] r := by
  constructor <;> first | rfl | simp

theorem Advances.trans (h : r.Advances items calls answers next)
    (k : next.Advances more later others after) :
    r.Advances (items ++ more) (calls ++ later) (answers ++ others) after := by
  constructor
  · rw [Writer.run_append, h.answered, k.answered]
  · rw [List.mem_append, not_or]
    exact ⟨h.unended, k.unended⟩
  · intro call hcall
    rcases List.mem_append.1 hcall with hcall | hcall
    · exact h.typed call hcall
    · exact k.typed call hcall
  · rw [k.copied, h.copied, List.filterMap_append, List.length_append, Nat.add_assoc]
  · rw [k.data, h.data, List.countP_append, Nat.add_assoc]
  · rw [k.reserved, h.reserved, List.countP_append, Nat.add_assoc]
  · rw [k.undecodable, h.undecodable, List.countP_append, Nat.add_assoc]

theorem copySeries_advances {d : SeriesDescriptor} (hd : d.id.type ≠ "") (offset size : Nat)
    (h : r.copySeries d = (none, after)) :
    ∃ calls answers, r.Advances [.block offset size (.descriptor (.series d))] calls answers
      after := by
  unfold copySeries at h
  split at h
  · cases h
  next index writer hdeclare =>
  cases h
  refine ⟨[.declare d.id d.kind d.indexNames d.annotations], [.ok (.series index)], ?_⟩
  constructor
  · simp only [Writer.run, Writer.answer, hdeclare, Except.map]
  · simp
  · intro call hcall
    rw [List.mem_singleton.1 hcall]
    exact hd
  · rfl
  · rfl
  · rfl
  · rfl

theorem copyData_advances {d : DataDescriptor} {payload : Bytes} (offset size : Nat)
    (kept : Option Bytes) (h : r.copyData d payload = (none, after)) :
    ∃ calls answers, r.Advances [.block offset size (.data d kept)] calls answers after := by
  unfold copyData at h
  split at h
  · cases h
    refine ⟨[], [], ?_⟩
    constructor
    · rfl
    · simp
    · simp
    · rfl
    · simp only [note, List.countP_singleton, ScanItem.isData, if_true]
      omega
    · rfl
    · rfl
  next index _ =>
  split at h
  · cases h
  next l writer happend =>
  cases h
  refine ⟨[.appendTo index d.timestamp d.indexValues payload], [.ok (.located l)], ?_⟩
  constructor
  · simp only [Writer.run, Writer.answer, happend, Except.map, note]
  · simp
  · intro call hcall
    rw [List.mem_singleton.1 hcall]
    trivial
  · rfl
  · simp only [note, List.countP_singleton, ScanItem.isData, if_true]
    omega
  · rfl
  · rfl

theorem note_advances (r : Repair) {item : ScanItem} {change : RepairReport → RepairReport}
    (hcopied : (change r.report).blocksCopied = r.report.blocksCopied)
    (hdata : (change r.report).blocksDropped = r.report.blocksDropped ∧ item.isData = false)
    (hreserved : (change r.report).reservedSkipped =
      r.report.reservedSkipped + [item].countP ScanItem.isReserved)
    (hundecodable : (change r.report).undecodableSkipped =
      r.report.undecodableSkipped + [item].countP ScanItem.isUndecodable) :
    r.Advances [item] [] [] (r.note change) := by
  constructor
  · rfl
  · simp
  · simp
  · simpa [note] using hcopied
  · simp [note, hcopied, hdata]
  · exact hreserved
  · exact hundecodable

theorem copyItem_advances {item : ScanItem} (hitem : item.Typed)
    (h : r.copyItem item = (none, after)) :
    ∃ calls answers, r.Advances [item] calls answers after := by
  cases item with
  | trailer offset t =>
    cases h
    exact ⟨[], [], note_advances r rfl ⟨rfl, rfl⟩ rfl rfl⟩
  | block offset size content =>
    cases content with
    | descriptor d =>
      cases d with
      | file d =>
        cases h
        have hsame : r.Advances [.block offset size (.descriptor (.file d))] [] [] (r.note id) :=
          note_advances r rfl ⟨rfl, rfl⟩ rfl rfl
        exact ⟨[], [], hsame⟩
      | series d => exact copySeries_advances hitem offset size h
      | index d =>
        cases h
        exact ⟨[], [], note_advances r rfl ⟨rfl, rfl⟩ rfl rfl⟩
    | data d payload => exact copyData_advances offset size payload h
    | reserved code =>
      cases h
      exact ⟨[], [], note_advances r rfl ⟨rfl, rfl⟩ rfl rfl⟩
    | undecodable reason =>
      cases h
      exact ⟨[], [], note_advances r rfl ⟨rfl, rfl⟩ rfl rfl⟩

theorem copyItems_advances (hitems : ∀ item ∈ items, item.Typed)
    (h : r.copyItems items = (none, after)) :
    ∃ calls answers, r.Advances items calls answers after := by
  induction items generalizing r with
  | nil =>
    cases h
    exact ⟨[], [], .refl _⟩
  | cons item rest ih =>
    unfold copyItems at h
    split at h
    · cases h
    next next hcopy =>
    obtain ⟨calls, answers, hfirst⟩ := copyItem_advances (hitems item List.mem_cons_self) hcopy
    obtain ⟨later, others, hrest⟩ := ih (fun i hi => hitems i (List.mem_cons_of_mem item hi)) h
    exact ⟨_, _, hfirst.trans hrest⟩

theorem copyScan_ok {w : Writer} {ending : ScanEnding} {report : RepairReport} {output : Bytes}
    (h : copyScan w items ending = ⟨.ok report, output⟩) :
    ∃ r summary final, (Repair.mk w [] noReport).copyItems items = (none, r) ∧
      (∀ e, ending ≠ .failed e) ∧ r.writer.close = (.ok summary, final) ∧
      output = final.sink.bytes ∧
      report = { r.report with
        tornTail := ending = .torn
        seriesCount := summary.seriesCount
        indexOffset := summary.indexOffset
        bytesWritten := summary.size } := by
  unfold copyScan at h
  split at h
  · cases h
  next r hcopy =>
  split at h
  · cases h
  next hending =>
  split at h
  · cases h
  next summary final hclose =>
  cases h
  exact ⟨r, summary, final, hcopy, hending, hclose, rfl, rfl⟩

theorem openScan_ok {scan : Scan} {labels : Labels} (h : openScan scan = .ok (labels, items)) :
    ∃ offset size file, scan.items = .block offset size (.descriptor (.file file)) :: items := by
  unfold openScan at h
  split at h
  · next first rest hitems =>
    obtain ⟨found, hfirst, hpair⟩ := exists_of_map_eq_ok h
    cases hpair
    unfold sourceAnnotations at hfirst
    split at hfirst
    · exact ⟨_, _, _, hitems⟩
    · cases hfirst
    · cases hfirst
    · cases hfirst
  · split at h
    · cases h
    · cases h

theorem typed_of_openScan {source : Source} {labels : Labels}
    (h : openScan (source.scan scanConfig) = .ok (labels, items)) :
    ∀ item ∈ items, item.Typed := by
  obtain ⟨_, _, _, hitems⟩ := openScan_ok h
  intro item hitem
  apply @ScanItem.typed_of_mem_scan scanConfig source
  rw [hitems]
  exact List.mem_cons_of_mem _ hitem

end Repair

/-- Every block of a source is copied, dropped or counted as left out. -/
structure RepairReport.Tallies (report : RepairReport) (items : List ScanItem) : Prop where
  data : report.blocksCopied + report.blocksDropped = items.countP ScanItem.isData
  reserved : report.reservedSkipped = items.countP ScanItem.isReserved
  undecodable : report.undecodableSkipped = items.countP ScanItem.isUndecodable

/-- What a report tells of the run that wrote the new log. -/
structure RepairReport.Tells {c : WriterConfig} (report : RepairReport) (run : SealedRun c) :
    Prop where
  copied : report.blocksCopied = (run.answers.filterMap location?).length
  series : report.seriesCount = (declared run.journal).length
  offset : report.indexOffset = run.summary.indexOffset
  written : report.bytesWritten = run.bytes.length

namespace Repair

/-- The steps of a repair that succeeds: the annotations and items of its source, the writer that it
starts, the repair when all items are copied, and the sealed log. -/
structure Steps (source : Source) (c : WriterConfig) (report : RepairReport) (output : Bytes)
    where
  labels : Labels
  items : List ScanItem
  start : Writer
  last : Repair
  summary : CloseSummary
  final : Writer
  opened : openScan (source.scan scanConfig) = .ok (labels, items)
  started : Writer.start (c.withSource labels) (.empty none) = .ok start
  copied : (Repair.mk start [] noReport).copyItems items = (none, last)
  unfailed : ∀ e, (source.scan scanConfig).ending ≠ .failed e
  closed : last.writer.close = (.ok summary, final)
  output_eq : output = final.sink.bytes
  report_eq : report = { last.report with
    tornTail := (source.scan scanConfig).ending = .torn
    seriesCount := summary.seriesCount
    indexOffset := summary.indexOffset
    bytesWritten := summary.size }

variable {source : Source} {c : WriterConfig} {report : RepairReport} {output : Bytes}

theorem exists_steps (h : reindex source c = ⟨.ok report, output⟩) :
    Nonempty (Steps source c report output) := by
  unfold reindex at h
  dsimp only at h
  split at h
  · cases h
  next labels items hopen =>
  split at h
  · cases h
  next w hstart =>
  obtain ⟨r, summary, final, hcopy, hending, hclose, houtput, hreport⟩ := copyScan_ok h
  exact ⟨⟨labels, items, w, r, summary, final, hopen, hstart, hcopy, hending, hclose, houtput,
    hreport⟩⟩

theorem Steps.typed (s : Steps source c report output) : ∀ item ∈ s.items, item.Typed :=
  typed_of_openScan s.opened

/-- A repair that succeeds is a run, and its report accounts for all items. -/
theorem Steps.exists_run (s : Steps source c report output) :
    report.Tallies (source.scan scanConfig).items ∧
      ∃ run : SealedRun (c.withSource s.labels),
        run.bytes = output ∧ report.Tells run ∧ run.last = s.last.writer := by
  have htyped := s.typed
  obtain ⟨labels, items, w, r, summary, final, hopen, hstart, hcopy, _, hclose, rfl, rfl⟩ := s
  obtain ⟨_, _, _, hitems⟩ := openScan_ok hopen
  obtain ⟨calls, answers, hadvances⟩ := copyItems_advances htyped hcopy
  let run : SealedRun (c.withSource labels) :=
    ⟨⟨calls, answers, w, r.writer, hstart, hadvances.answered, hadvances.unended,
      hadvances.typed⟩, final, summary, hclose⟩
  obtain ⟨hsize, hseries, _⟩ := run.holds.close_summary run.closed
  constructor
  · rw [hitems]
    constructor
    · simpa [ScanItem.isData, noReport] using hadvances.data
    · simpa [ScanItem.isReserved, noReport] using hadvances.reserved
    · simpa [ScanItem.isUndecodable, noReport] using hadvances.undecodable
  · refine ⟨run, rfl, ?_, rfl⟩
    constructor
    · simpa [noReport] using hadvances.copied
    · exact hseries
    · rfl
    · exact hsize

end Repair

theorem exists_run_of_reindex {source : Source} {c : WriterConfig} {report : RepairReport}
    {output : Bytes} (h : reindex source c = ⟨.ok report, output⟩) :
    report.Tallies (source.scan Repair.scanConfig).items ∧
      ∃ (labels : Labels) (run : SealedRun (c.withSource labels)),
        run.bytes = output ∧ report.Tells run := by
  obtain ⟨s⟩ := Repair.exists_steps h
  obtain ⟨htallies, run, hbytes, htells, _⟩ := s.exists_run
  exact ⟨htallies, s.labels, run, hbytes, htells⟩

end SeriesLog
