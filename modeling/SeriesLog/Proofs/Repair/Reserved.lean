import SeriesLog.Proofs.Repair.Agreement
import SeriesLog.Proofs.Scan.Insertion

/-! # Reserved blocks in a repair

A repair passes over reserved blocks and counts them. Where they stand, how many they are and what
is in them has no part in the new log. -/
namespace SeriesLog

/-- A log, and the same log with so many reserved blocks put in behind its first block. -/
inductive Enlarges (count : Nat) : Bytes → Bytes → Prop where
  | behind {first : Block} {rest padded : Bytes} : first.type ≠ .trailer →
      first.body.length ≤ maxBodySize → Padded count rest padded →
      Enlarges count (openingMagic ++ (first.encode ++ rest))
        (openingMagic ++ (first.encode ++ padded))

namespace Repair

variable {r last : Repair} {count : Nat}

def skipped (r : Repair) (count : Nat) : Repair :=
  r.note fun p => { p with reservedSkipped := p.reservedSkipped + count }

@[simp] theorem writer_skipped (r : Repair) (count : Nat) : (r.skipped count).writer = r.writer :=
  rfl

theorem copyItem_content (r : Repair) {item other : ScanItem}
    (h : other.content? = item.content?) : r.copyItem other = r.copyItem item := by
  cases item with
  | trailer offset trailer =>
    cases other with
    | trailer => rfl
    | block => cases h
  | block offset size content =>
    cases other with
    | trailer => cases h
    | block place length said =>
      obtain rfl : said = content := Option.some.inj h
      cases said with
      | descriptor d => cases d <;> rfl
      | _ => rfl

theorem copyItem_skipped (r : Repair) (count : Nat) (item : ScanItem) :
    (r.skipped count).copyItem item =
      ((r.copyItem item).1, (r.copyItem item).2.skipped count) := by
  cases item with
  | trailer => rfl
  | block offset size content =>
    cases content with
    | descriptor d =>
      cases d with
      | file => rfl
      | index => rfl
      | series d =>
        simp only [copyItem, copySeries, writer_skipped]
        cases r.writer.declare d.id d.kind d.indexNames d.annotations with
        | mk result writer => cases result <;> rfl
    | data d payload =>
      have htarget : (r.skipped count).target? d.series = r.target? d.series := rfl
      simp only [copyItem, copyData, htarget]
      cases r.target? d.series with
      | none => rfl
      | some index =>
        simp only [writer_skipped]
        cases r.writer.appendTo index d.timestamp d.indexValues (payload.getD []) with
        | mk result writer => cases result <;> rfl
    | reserved code =>
      simp only [copyItem, skipped, note, Nat.add_right_comm]
    | undecodable reason => rfl

theorem copyItems_woven {items others : List ScanItem} (h : Woven count items others)
    (hcopy : r.copyItems items = (none, last)) (before : Nat) :
    (r.skipped before).copyItems others = (none, last.skipped (before + count)) := by
  induction h generalizing r before with
  | nil =>
    cases hcopy
    rfl
  | @keep count item other items others hcontent _ ih =>
    cases hitem : r.copyItem item with
    | mk result next =>
      cases result with
      | some e =>
        rw [copyItems, hitem] at hcopy
        cases hcopy
      | none =>
        rw [copyItems_cons hitem] at hcopy
        have hother : (r.skipped before).copyItem other = (none, next.skipped before) := by
          rw [copyItem_content _ hcontent, copyItem_skipped, hitem]
        rw [copyItems_cons hother]
        exact ih hcopy before
  | @insert count offset size code items others _ ih =>
    have hother : (r.skipped before).copyItem (.block offset size (.reserved code)) =
        (none, r.skipped (before + 1)) := rfl
    rw [copyItems_cons hother, ih hcopy (before + 1), Nat.add_assoc, Nat.add_comm 1]

/-- The steps of a repair are what it comes to. -/
theorem Steps.result {source : Source} {c : WriterConfig} {report : RepairReport} {output : Bytes}
    (s : Steps source c report output) : reindex source c = ⟨.ok report, output⟩ := by
  obtain ⟨labels, items, start, last, summary, final, hopen, hstart, hcopy, hunfailed, hclose,
    rfl, rfl⟩ := s
  unfold reindex
  dsimp only
  rw [hopen]
  dsimp only
  rw [hstart]
  dsimp only
  rw [copyScan, hcopy]
  dsimp only
  cases hending : (source.scan scanConfig).ending with
  | failed e => exact absurd hending (hunfailed e)
  | _ =>
    dsimp only
    rw [hclose]

/-- A scan of an enlarged log finds the first block of the log, and behind it the other items with
reserved blocks among them. -/
theorem scan_enlarged {fault : Option DeviceFault} {bytes enlarged : Bytes}
    (h : Enlarges count bytes enlarged)
    (hunfailed : ∀ e, ((Source.mk bytes fault).scan scanConfig).ending ≠ .failed e) :
    ∃ item items others, ((Source.mk bytes fault).scan scanConfig).items = item :: items ∧
      ((Source.mk enlarged fault).scan scanConfig).items = item :: others ∧
      Woven count items others ∧
      ((Source.mk enlarged fault).scan scanConfig).ending =
        ((Source.mk bytes fault).scan scanConfig).ending := by
  obtain @⟨first, rest, padded, htype, hmax, hpadded⟩ := h
  rw [scan_magic_append] at hunfailed ⊢
  rw [scan_magic_append]
  rcases Scan.whole_block (c := scanConfig) rfl rfl htype hmax with ⟨content, hreads⟩ | hfails
  · rw [Scan.blocks_of_block (Scan.step_block_append hreads hmax rest)] at hunfailed ⊢
    rw [Scan.blocks_of_block (Scan.step_block_append hreads hmax padded)]
    obtain ⟨hitems, hending⟩ := Scan.blocks_padded (c := scanConfig) rfl rfl hpadded hunfailed
      (openingMagic.length + headerSize + first.body.length)
    exact ⟨_, _, _, rfl, rfl, hitems, hending⟩
  · obtain ⟨e, he⟩ := hfails openingMagic.length rest fault
    rw [Scan.blocks_of_stop he] at hunfailed
    exact absurd rfl (hunfailed e)

theorem openScan_cons {scan : Scan} {item : ScanItem} {items found : List ScanItem}
    {labels : Labels} (hitems : scan.items = item :: items)
    (hopen : openScan scan = .ok (labels, found)) :
    sourceAnnotations item = .ok labels ∧ found = items := by
  unfold openScan at hopen
  rw [hitems] at hopen
  obtain ⟨read, hread, hpair⟩ := exists_of_map_eq_ok hopen
  cases hpair
  exact ⟨hread, rfl⟩

theorem openScan_of_cons {scan : Scan} {item : ScanItem} {items : List ScanItem} {labels : Labels}
    (hitems : scan.items = item :: items) (hread : sourceAnnotations item = .ok labels) :
    openScan scan = .ok (labels, items) := by
  unfold openScan
  rw [hitems]
  simp only [hread, Except.map]

end Repair

/-- Reserved blocks, put in anywhere behind the first block of a log and in front of its trailer and
with any content, change nothing in the outcome of a repair that succeeds, but that they are counted
as passed over. -/
theorem reindex_reserved {bytes enlarged : Bytes} {fault : Option DeviceFault} {c : WriterConfig}
    {report : RepairReport} {output : Bytes} {count : Nat}
    (h : reindex ⟨bytes, fault⟩ c = ⟨.ok report, output⟩) (henlarges : Enlarges count bytes enlarged) :
    reindex ⟨enlarged, fault⟩ c =
      ⟨.ok { report with reservedSkipped := report.reservedSkipped + count }, output⟩ := by
  obtain ⟨s⟩ := Repair.exists_steps h
  obtain ⟨item, items, others, hitems, hothers, hwoven, hending⟩ :=
    Repair.scan_enlarged henlarges s.unfailed
  obtain ⟨hread, hfound⟩ := Repair.openScan_cons hitems s.opened
  have hcopied := Repair.copyItems_woven hwoven (hfound ▸ s.copied) 0
  rw [Nat.zero_add] at hcopied
  apply Repair.Steps.result
  constructor
  case labels => exact s.labels
  case items => exact others
  case start => exact s.start
  case last => exact s.last.skipped count
  case summary => exact s.summary
  case final => exact s.final
  case opened => exact Repair.openScan_of_cons hothers hread
  case started => exact s.started
  case copied => exact hcopied
  case unfailed =>
    rw [hending]
    exact s.unfailed
  case closed => exact s.closed
  case output_eq => exact s.output_eq
  case report_eq =>
    rw [hending]
    exact congrArg (fun p : RepairReport => { p with reservedSkipped := p.reservedSkipped + count })
      s.report_eq

/-- A torn log with blocks in front of its data and behind it. The data are a block of a described
series, one of a series without a descriptor, and a descriptor that says nothing. -/
def scattered (before behind : List Block) : Bytes :=
  openingMagic ++ ((fileBlock .empty).encode ++
    (describedAs 0 (.ofType "a") 18205702512766678918 :: (before ++
      dataAt 0 5 [1, 2] :: dataAt 9 6 [3] :: ⟨.descriptor, []⟩ :: behind)).foldr
        (fun b rest => b.encode ++ rest) [1, 7, 0])

/-- Reserved blocks that hold a trailer, and one that holds a whole log. -/
def lookalikes : List Block :=
  [⟨.reserved 0x03 (by decide), (Trailer.mk 0 (List.replicate 20 0)).encode⟩,
    ⟨.reserved 0xFF (by decide), scattered [] []⟩]

theorem enlarges_scattered : Enlarges 3 (scattered [] [])
    (scattered lookalikes [⟨.reserved 0x10 (by decide), []⟩]) := by
  apply Enlarges.behind (by decide) (by decide +kernel)
  apply Padded.keep (by decide) (by decide +kernel)
  apply Padded.insert (by decide +kernel)
  apply Padded.insert (by decide +kernel)
  apply Padded.keep (by decide) (by decide +kernel)
  apply Padded.keep (by decide) (by decide +kernel)
  apply Padded.keep (by decide) (by decide +kernel)
  apply Padded.insert (by decide +kernel)
  exact .rest _

/-- Blocks that hold a trailer or a whole log are passed over whole. -/
theorem reindex_reserved_lookalikes :
    ∃ report output, reindex (.ofBytes (scattered [] [])) .default = ⟨.ok report, output⟩ ∧
      reindex (.ofBytes (scattered lookalikes [⟨.reserved 0x10 (by decide), []⟩])) .default =
        ⟨.ok { report with reservedSkipped := report.reservedSkipped + 3 }, output⟩ := by
  have hplanned : (Repair.plan? (.ofBytes (scattered [] [])) .default).map (fun plan =>
      (fileBlock plan.1 :: plan.2.map Addition.block ++ indexPart (seriesIn plan.1 plan.2)).all
        fun b => decide (b.body.length ≤ 2 ^ 30)) = some true := by decide +kernel
  obtain ⟨⟨annotations, journal⟩, hplan, hsizes⟩ := Option.map_eq_some_iff.1 hplanned
  obtain ⟨report, output, hreindex, _⟩ := Repair.exists_reindex_of_sizes hplan hsizes
  exact ⟨report, output, hreindex, reindex_reserved hreindex enlarges_scattered⟩

end SeriesLog
