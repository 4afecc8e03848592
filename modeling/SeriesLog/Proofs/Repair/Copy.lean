import SeriesLog.Proofs.Scan.Cuts
import SeriesLog.Proofs.Writer.Replay
import SeriesLog.Repair

/-! # Copying a journal

A repair gives its writer, for each addition that a scan yields, the call that makes the addition.
The writer answers them all, and so the journal of the new log is the one that was scanned. -/
namespace SeriesLog

def Addition.Fits (limit : Nat) : Addition → Prop
  | series _ => True
  | data d payload => (d.sized ++ payload).length ≤ limit

theorem Addition.fits_of_le {limit : Nat} {a : Addition} (h : a.block.body.length ≤ limit) :
    a.Fits limit := by
  cases a with
  | series d => trivial
  | data d payload => exact h

namespace Repair

structure Copied (r : Repair) (limit : Nat) (annotations : Labels) (journal : List Addition) :
    Prop where
  holds : r.writer.Holds annotations journal
  limit : r.writer.maxBlockSize = limit
  /-- Series keep their numbers. -/
  renumbered : ∀ d ∈ declared journal, r.target? d.index = some d.index
  dropped : r.report.blocksDropped = 0
  undecodable : r.report.undecodableSkipped = 0
  unsealed : r.report.sourceSealed = false

variable {r : Repair} {limit : Nat} {annotations : Labels} {journal : List Addition}

theorem Copied.start {c : WriterConfig} {w : Writer} (h : Writer.start c (.empty none) = .ok w) :
    (Repair.mk w [] noReport).Copied c.maxBlockSize c.annotations [] := by
  obtain ⟨_, _, hextends⟩ := Writer.start_eq_ok h
  constructor
  · exact Writer.start_holds h
  · exact hextends.limit
  · intro d hd
    cases hd
  · rfl
  · rfl
  · rfl

theorem Copied.target?_eq (h : r.Copied limit annotations journal) {index : UInt32} {s : SeriesState}
    (hs : r.writer.series[index.toNat]? = some s) : r.target? index = some index := by
  have horderly : Orderly r.writer.series := by
    rw [h.holds.series]
    exact Orderly.nil.track h.holds.sound
  have hindex : s.descriptor.index = index := by
    rw [horderly.numbered _ s hs, UInt32.ofNat_toNat]
  have hdeclared : s.descriptor ∈ declared journal := by
    rw [h.holds.declared_eq]
    exact List.mem_map_of_mem (List.mem_of_getElem? hs)
  rw [← hindex]
  exact h.renumbered _ hdeclared

theorem Copied.copySeries (h : r.Copied limit annotations journal) {d : SeriesDescriptor}
    (ha : Admits r.writer.series (.series d))
    (hle : (Addition.series d).block.body.length ≤ maxBodySize) :
    ∃ after, r.copySeries d = (none, after) ∧
      r.writer.answer (Addition.series d).call = (.ok (.series d.index), after.writer) ∧
      after.Copied limit annotations (journal ++ [.series d]) := by
  obtain ⟨w, hdeclare, hholds, hlimit⟩ := h.holds.declare_admitted ha hle
  refine ⟨{ r with writer := w, renumbered := (d.index, d.index) :: r.renumbered }, ?_, ?_, ?_⟩
  · rw [Repair.copySeries, hdeclare]
  · simp only [Writer.answer, Addition.call, hdeclare, Except.map]
  · constructor
    · exact hholds
    · exact hlimit.trans h.limit
    · intro e he
      simp only [declared, List.filterMap_append, List.mem_append] at he
      by_cases heq : d.index = e.index
      · simp [target?, heq]
      · rcases he with he | he
        · have hold := h.renumbered e he
          simpa [target?, heq] using hold
        · simp only [List.filterMap_cons, Addition.descriptor?, List.filterMap_nil,
            List.mem_singleton] at he
          exact absurd (he ▸ rfl) heq
    · exact h.dropped
    · exact h.undecodable
    · exact h.unsealed

theorem Copied.copyData (h : r.Copied limit annotations journal) {d : DataDescriptor} {payload : Bytes}
    (ha : Admits r.writer.series (.data d payload))
    (hle : (Addition.data d payload).block.body.length ≤ maxBodySize)
    (hfits : (Addition.data d payload).Fits limit) :
    ∃ after l, r.copyData d payload = (none, after) ∧
      r.writer.answer (Addition.data d payload).call = (.ok (.located l), after.writer) ∧
      after.Copied limit annotations (journal ++ [.data d payload]) := by
  have htarget : r.target? d.series = some d.series := by
    cases ha with
    | data hs _ _ => exact h.target?_eq hs
  rw [← h.limit] at hfits
  obtain ⟨l, w, happend, hholds, hlimit⟩ := h.holds.append_admitted ha hle hfits
  refine ⟨{ r with writer := w }.note fun p => { p with blocksCopied := p.blocksCopied + 1 }, l,
    ?_, ?_, ?_⟩
  · simp only [Repair.copyData, htarget, happend]
  · simp only [Writer.answer, Addition.call, happend, Except.map]
    rfl
  · constructor
    · exact hholds
    · exact hlimit.trans h.limit
    · intro e he
      have hsame : declared (journal ++ [.data d payload]) = declared journal := by
        simp [declared, Addition.descriptor?]
      rw [hsame] at he
      exact h.renumbered e he
    · exact h.dropped
    · exact h.undecodable
    · exact h.unsealed

theorem Copied.copyItem (h : r.Copied limit annotations journal) {a : Addition} {rest : List Addition}
    (hsound : SoundIn annotations (journal ++ a :: rest))
    (hfits : a.Fits limit) (offset size : Nat) :
    ∃ after answer, r.copyItem (.block offset size (a.content true)) = (none, after) ∧
      r.writer.answer a.call = (.ok answer, after.writer) ∧
      after.Copied limit annotations (journal ++ [a]) := by
  obtain ⟨hadmits, hle⟩ := h.holds.admits hsound
  cases a with
  | series d =>
    obtain ⟨after, hcopy, hanswer, hcopied⟩ := h.copySeries hadmits hle
    exact ⟨after, _, hcopy, hanswer, hcopied⟩
  | data d payload =>
    obtain ⟨after, l, hcopy, hanswer, hcopied⟩ := h.copyData hadmits hle hfits
    exact ⟨after, _, hcopy, hanswer, hcopied⟩

theorem copyItems_cons {item : ScanItem} {next : Repair} (h : r.copyItem item = (none, next))
    (rest : List ScanItem) : r.copyItems (item :: rest) = next.copyItems rest := by
  simp only [Repair.copyItems, h]

/-- Copying a journal is a run of the calls that make it, all of them answered. -/
theorem Copied.copyItems (h : r.Copied limit annotations journal) {more : List Addition}
    (hsound : SoundIn annotations (journal ++ more))
    (hfits : ∀ a ∈ more, a.Fits limit) (offset : Nat) :
    ∃ (after : Repair) (answers : List Answer),
      r.copyItems (Scan.placed offset (blocksOf true more)) = (none, after) ∧
      r.writer.run (more.map Addition.call) = (answers.map .ok, after.writer) ∧
      after.Copied limit annotations (journal ++ more) := by
  induction more generalizing r journal offset with
  | nil =>
    rw [List.append_nil]
    exact ⟨r, [], rfl, rfl, h⟩
  | cons a rest ih =>
    obtain ⟨next, answer, hcopy, hanswer, hnext⟩ :=
      h.copyItem hsound (hfits a List.mem_cons_self) offset a.block.body.length
    have happend : journal ++ a :: rest = (journal ++ [a]) ++ rest := by simp
    rw [happend] at hsound ⊢
    obtain ⟨after, answers, hitems, hrun, hafter⟩ :=
      ih hnext hsound (fun b hb => hfits b (List.mem_cons_of_mem a hb)) (offset + a.block.size)
    refine ⟨after, answer :: answers, ?_, ?_, hafter⟩
    · exact (copyItems_cons hcopy _).trans hitems
    · simp only [List.map_cons, Writer.run, hanswer, hrun]

theorem Copied.copy_index (h : r.Copied limit annotations journal) {bs : List (Block × BlockContent)}
    (hindex : ∀ p ∈ bs, ∃ index, p.2 = .descriptor (.index index)) (offset : Nat) :
    ∃ after : Repair, r.copyItems (Scan.placed offset bs) = (none, after) ∧
      after.writer = r.writer ∧ after.Copied limit annotations journal := by
  induction bs generalizing r offset with
  | nil => exact ⟨r, rfl, rfl, h⟩
  | cons p rest ih =>
    obtain ⟨b, content⟩ := p
    obtain ⟨index, hcontent⟩ := hindex _ List.mem_cons_self
    have hnext : (r.note fun p => { p with sourceHadIndex := true }).Copied limit annotations journal :=
      ⟨h.holds, h.limit, h.renumbered, h.dropped, h.undecodable, h.unsealed⟩
    obtain ⟨after, hitems, hwriter, hafter⟩ :=
      ih hnext (fun q hq => hindex q (List.mem_cons_of_mem _ hq)) (offset + b.size)
    refine ⟨after, ?_, hwriter, hafter⟩
    rw [show content = .descriptor (.index index) from hcontent]
    exact hitems

theorem copyItems_trailerBefore (s : Stream) (cut : Nat) (h : r.report.sourceSealed = false) :
    ∃ after, r.copyItems (s.trailerBefore cut) = (none, after) ∧ after.writer = r.writer ∧
      after.report.blocksDropped = r.report.blocksDropped ∧
      after.report.undecodableSkipped = r.report.undecodableSkipped ∧
      (after.report.sourceSealed = true ↔
        s.closing.isSome = true ∧ cut = s.stop + trailerSize) := by
  unfold Stream.trailerBefore
  by_cases hcut : cut = s.stop + trailerSize
  · rw [if_pos hcut]
    cases s.closing with
    | none => exact ⟨r, rfl, rfl, rfl, rfl, by simp [h]⟩
    | some t =>
      exact ⟨r.note fun p => { p with sourceSealed := true }, rfl, rfl, rfl, rfl,
        fun _ => ⟨rfl, hcut⟩, fun _ => rfl⟩
  · rw [if_neg hcut]
    exact ⟨r, rfl, rfl, rfl, rfl, by simp [h, hcut]⟩

theorem copyItems_append (r : Repair) (items more : List ScanItem) {next : Repair}
    (h : r.copyItems items = (none, next)) : r.copyItems (items ++ more) = next.copyItems more := by
  induction items generalizing r with
  | nil =>
    cases h
    rfl
  | cons item rest ih =>
    simp only [List.cons_append, Repair.copyItems] at h ⊢
    split at h
    · cases h
    · exact ih _ h

theorem reindex_of_scan {source : Source} (c : WriterConfig) {first : ScanItem}
    {items : List ScanItem} {ending : ScanEnding} {stop : Nat} {w : Writer}
    (hscan : source.scan scanConfig = ⟨first :: items, ending, stop⟩)
    (hfirst : sourceAnnotations first = .ok annotations)
    (hstart : Writer.start (c.withSource annotations) (.empty none) = .ok w) :
    reindex source c = copyScan w items ending := by
  simp only [reindex, hscan, openScan, hfirst, Except.map, hstart]

/-- A repair whose items are copied and whose log can be sealed succeeds, unless the scan
failed. -/
theorem copyScan_eq_ok {w : Writer} {items : List ScanItem} {ending : ScanEnding}
    {summary : CloseSummary} {final : Writer}
    (hcopy : (Repair.mk w [] noReport).copyItems items = (none, r))
    (hending : ∀ e, ending ≠ .failed e) (hclose : r.writer.close = (.ok summary, final)) :
    ∃ report, copyScan w items ending = ⟨.ok report, final.sink.bytes⟩ ∧
      report.blocksDropped = r.report.blocksDropped ∧
      report.undecodableSkipped = r.report.undecodableSkipped ∧
      report.sourceSealed = r.report.sourceSealed ∧
      (report.tornTail = true ↔ ending = .torn) := by
  unfold copyScan
  rw [hcopy]
  cases ending with
  | failed e => exact absurd rfl (hending e)
  | boundary =>
    simp only [hclose]
    exact ⟨_, rfl, rfl, rfl, rfl, by simp⟩
  | torn =>
    simp only [hclose]
    exact ⟨_, rfl, rfl, rfl, rfl, by simp⟩
  | sealed =>
    simp only [hclose]
    exact ⟨_, rfl, rfl, rfl, rfl, by simp⟩

end Repair

end SeriesLog
