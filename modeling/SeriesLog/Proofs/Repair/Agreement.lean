import Mathlib.Data.List.Forall2
import SeriesLog.Proofs.Reader.Scanned
import SeriesLog.Proofs.Repair.Lockstep
import SeriesLog.Proofs.Repair.Outcome

/-! # Queries before and after a repair

A file that opens by a scan answers a query as the log does that a repair makes of it, as long as no
number is described under two names and no name under two numbers. -/
namespace SeriesLog

namespace Reader

variable {r : Reader}

theorem records_all {selector : Selector} {i : Nat} {s : SeriesIndex}
    (hposition : r.position? selector = some i) (hs : r.series[i]? = some s.timeline)
    (hi : i < 2 ^ 32) :
    r.records selector .all =
      .ok ((s.entries.mergeSort fun a b => decide (a.timestamp ≤ b.timestamp)).map
        (r.record (UInt32.ofNat i))) := by
  have hall : TimeRange.all.select s.timeline.entries =
      s.entries.mergeSort fun a b => decide (a.timestamp ≤ b.timestamp) := by
    simp only [TimeRange.select, TimeRange.all, TimeRange.firstPosition, TimeRange.endPosition,
      Array.extract_size]
    rfl
  rw [records_at hposition hs hi, hall]

end Reader

theorem Reader.Opened.position?_declared {r : Reader} {annotations : Labels}
    {journal : List Addition} (h : r.Opened annotations journal) (id : SeriesId) :
    r.position? (.named id) = (declared journal).findIdx? fun d => d.id = id := by
  rw [← h.descriptors, List.findIdx?_map]
  rfl

/-- What a query yields of a block of a file and of the same block in the new log. Only a block of
the file that is too large to be read makes a difference: the new log has it with a shorter
descriptor. -/
inductive SameItem (file : Bytes) (limit : Nat) :
    Except LogError DataRecord → Except LogError DataRecord → Prop where
  | read {p q : DataRecord} : SameBlock p q → SameItem file limit (.ok p) (.ok q)
  | tooLarge {p q : DataRecord} {body : Bytes} : p.StandsIn file →
      BodyAt file p.offset.toNat body → limit < body.length → SameBlock p q →
      SameItem file limit (.error (.format (.tooLarge body.length limit))) (.ok q)

namespace Mirrors

variable {described : List SeriesDescriptor} {annotations : Labels} {found : List SeriesState}
  {k : Repair.Carried} {pairs : List (DataRecord × DataRecord)} {r q : Reader}

theorem length_le {file : Bytes} {offset : Nat}
    (h : Mirrors file described offset found k pairs) : found.length ≤ 2 ^ 32 := by
  by_contra hgt
  have hs := List.getElem?_eq_getElem (Nat.lt_of_not_le hgt)
  have hnumber := h.numbered _ _ hs
  have hlt := found[2 ^ 32].descriptor.index.toNat_lt
  omega

theorem position?_eq
    (h : Mirrors r.file described (opening annotations).length found k pairs)
    (hr : r.series = found.map fun s => s.toIndex.timeline) (hq : q.Opened annotations k.journal)
    (id : SeriesId) : r.position? (.named id) = q.position? (.named id) := by
  rw [hq.position?_declared, h.findIdx?_declared, Reader.position?, hr, List.findIdx?_map]
  rfl

theorem entries_new {file : Bytes}
    (h : Mirrors file described (opening annotations).length found k pairs)
    (hsound : SoundIn annotations k.journal) {i : Nat} {t : SeriesState}
    (ht : (seriesIn annotations k.journal)[i]? = some t) :
    t.entries = (pairs.filter fun p => p.1.series.toNat = i).map fun p => p.2.entry := by
  have hrecords : recordsIn annotations k.journal = pairs.map Prod.snd := h.records
  have hfilter : pairs.filter ((fun q : DataRecord => decide (q.series.toNat = i)) ∘ Prod.snd) =
      pairs.filter fun p => p.1.series.toNat = i := by
    apply List.filter_congr
    intro p hp
    simp only [Function.comp_apply, (h.same p hp).2.series]
  have hentries := entries_seriesIn hsound ht
  rw [hrecords, List.filter_map, hfilter, List.map_map] at hentries
  exact hentries

theorem mergeSort_entries {mine : List (DataRecord × DataRecord)}
    (block : DataRecord × DataRecord → DataRecord)
    (htime : ∀ p ∈ mine, (block p).timestamp = p.1.timestamp) :
    ((mine.map fun p => (block p).entry).mergeSort
        fun a b => decide (a.timestamp ≤ b.timestamp)) =
      (mine.mergeSort fun a b => decide (a.1.timestamp ≤ b.1.timestamp)).map
        fun p => (block p).entry := by
  refine (List.map_mergeSort ?_).symm
  intro a ha b hb
  rw [← htime a ha, ← htime b hb]
  rfl

theorem record_same
    (h : Mirrors r.file described (opening annotations).length found k pairs)
    (hread : ∀ p ∈ recordsIn annotations k.journal, q.record p.series p.entry = .ok p)
    {p : DataRecord × DataRecord} (hp : p ∈ pairs) :
    SameItem r.file r.config.maxBlockSize (r.record p.1.series p.1.entry)
      (q.record p.1.series p.2.entry) := by
  obtain ⟨hstands, hsame⟩ := h.same p hp
  have hrecords : recordsIn annotations k.journal = pairs.map Prod.snd := h.records
  have hnew : q.record p.1.series p.2.entry = .ok p.2 := by
    rw [hsame.series]
    apply hread
    rw [hrecords]
    exact List.mem_map_of_mem hp
  rw [hnew, Reader.record]
  obtain ⟨body, hbody, hold⟩ := hstands.readBlock r.config.maxBlockSize
  rw [hold]
  by_cases hlarge : r.config.maxBlockSize < body.length
  · rw [if_pos hlarge]
    exact .tooLarge hstands hbody hlarge hsame
  · rw [if_neg hlarge]
    exact .read hsame

theorem records_same
    (h : Mirrors r.file described (opening annotations).length found k pairs)
    (hr : r.series = found.map fun s => s.toIndex.timeline) (hq : q.Opened annotations k.journal)
    (hsound : SoundIn annotations k.journal)
    (hread : ∀ p ∈ recordsIn annotations k.journal, q.record p.series p.entry = .ok p)
    {id : SeriesId} {i : Nat} (hposition : r.position? (.named id) = some i) :
    ∃ items others, r.records (.named id) .all = .ok items ∧
      q.records (.named id) .all = .ok others ∧
      List.Forall₂ (SameItem r.file r.config.maxBlockSize) items others := by
  have hother : q.position? (.named id) = some i := (h.position?_eq hr hq id).symm.trans hposition
  have hi := Reader.position?_lt hposition
  have hlt := Reader.position?_lt hother
  rw [hr, List.length_map] at hi
  rw [hq.length_series] at hlt
  have hcount := h.length_le
  have hs := List.getElem?_eq_getElem hi
  have ht := List.getElem?_eq_getElem hlt
  have hrs : r.series[i]? = some found[i].toIndex.timeline := by
    rw [hr, List.getElem?_map, hs]
    rfl
  have hqs : q.series[i]? = some (seriesIn annotations k.journal)[i].toIndex.timeline := by
    rw [hq.series, List.getElem?_map, ht]
    rfl
  have hold : found[i].toIndex.entries =
      (pairs.filter fun p => p.1.series.toNat = i).map fun p => p.1.entry := h.entries i _ hs
  have hnew : (seriesIn annotations k.journal)[i].toIndex.entries =
      (pairs.filter fun p => p.1.series.toNat = i).map fun p => p.2.entry :=
    h.entries_new hsound ht
  refine ⟨_, _, Reader.records_all hposition hrs (by omega),
    Reader.records_all hother hqs (by omega), ?_⟩
  rw [hold, hnew, mergeSort_entries Prod.fst (fun p _ => rfl),
    mergeSort_entries Prod.snd
      (fun p hp => (h.same p (List.mem_of_mem_filter hp)).2.timestamp.symm),
    List.map_map, List.map_map, List.forall₂_map_left_iff, List.forall₂_map_right_iff,
    List.forall₂_same]
  intro p hp
  obtain ⟨hmem, hseries⟩ := List.mem_filter.1 (List.mem_mergeSort.1 hp)
  have hnumber : UInt32.ofNat i = p.1.series := by
    rw [← of_decide_eq_true hseries, UInt32.ofNat_toNat]
  dsimp only [Function.comp_apply]
  rw [hnumber]
  exact h.record_same hread hmem

end Mirrors

/-- The series that are described in a file. -/
def describedIn (file : Bytes) : List SeriesDescriptor :=
  ((Source.ofBytes file).scan Repair.scanConfig).items.filterMap ScanItem.series?

theorem SealedRun.exists_reader {c : WriterConfig} (run : SealedRun c)
    (hcount : (declared run.journal).length ≤ 2 ^ 32)
    (hlimit : ∀ b ∈ run.blocks ++ run.tail, b.body.length ≤ defaultMaxBlockSize) :
    ∃ q, Reader.ofFile run.bytes .default = .ok q ∧ q.Opened c.annotations run.journal ∧
      ∀ p ∈ recordsIn c.annotations run.journal, q.record p.series p.entry = .ok p := by
  by_cases hdata : run.last.blockCount = 0
  · refine ⟨_, run.ofFile_noIndex hdata hcount hlimit, run.opened hlimit _, ?_⟩
    have hnone : recordsIn c.annotations run.journal = [] := by
      rw [← List.length_eq_zero_iff, run.length_recordsIn, ← run.blockCount_eq, hdata]
    intro p hp
    rw [hnone] at hp
    cases hp
  · have hindexed : run.Indexed ReaderConfig.default.maxBlockSize :=
      run.indexed_of_limit hdata hlimit
    have hopened := @SealedRun.opened _ run .default hlimit
      (.fileIndex (UInt64.ofNat run.summary.indexOffset))
    refine ⟨_, hindexed.ofFile, hopened, ?_⟩
    intro p hp
    obtain ⟨rest, hfile⟩ := hopened.file
    rw [Reader.record, hfile]
    exact Reader.readBlock_journal run.holds.sound hopened.limit hindexed.size rest hp

theorem Repair.exists_reader_of_plan {source : Source} {c : WriterConfig} {report : RepairReport}
    {output : Bytes} {annotations : Labels} {journal : List Addition}
    (h : reindex source c = ⟨.ok report, output⟩)
    (hplan : plan? source c = some (annotations, journal))
    (hcount : (declared journal).length ≤ 2 ^ 32)
    (hlimit : ∀ size ∈ bodySizes output, size ≤ 2 ^ 30) :
    ∃ q, Reader.ofFile output .default = .ok q ∧ q.Opened annotations journal ∧
      SoundIn annotations journal ∧
      ∀ p ∈ recordsIn annotations journal, q.record p.series p.entry = .ok p := by
  obtain ⟨s⟩ := exists_steps h
  obtain ⟨_, run, hbytes, _, hlast⟩ := s.exists_run
  have hjournal := s.journal_eq hlast
  rw [s.plan?_eq, ← hjournal] at hplan
  cases hplan
  rw [← hbytes] at hlimit
  obtain ⟨q, hq, hopened, hread⟩ := run.exists_reader hcount
    fun b hb => hlimit _ (run.mem_bodySizes hb)
  rw [hbytes] at hq
  exact ⟨q, hq, hopened, run.holds.sound, hread⟩

theorem Repair.Steps.exists_mirrors {file output : Bytes} {c : WriterConfig}
    {report : RepairReport} (s : Repair.Steps (.ofBytes file) c report output) {r : Reader}
    (hopen : Reader.ofFile file .default = .ok r) {reason : ScanReason}
    (hsource : r.source = .scan reason) (hclear : Unambiguous (describedIn file))
    (hsize : file.length < 2 ^ 64) (offset : Nat) :
    ∃ found pairs, Mirrors r.file (describedIn file) offset found s.carried pairs ∧
      r.series = found.map fun s => s.toIndex.timeline := by
  obtain ⟨hfile, _, skip, found, hcollect, hbare, hseries⟩ := Reader.ofFile_scan hopen hsource
  obtain ⟨place, size, d, hitems⟩ := openScan_ok s.opened
  have hkept : ∀ e, ((Source.ofBytes file).scan (ReaderConfig.default.scan true true)).ending ≠
      .failed e := s.unfailed
  rw [Source.scan_bare hkept hbare] at hcollect
  have hscan : ((Source.ofBytes file).scan (ReaderConfig.default.scan true true)).items =
      .block place size (.descriptor (.file d)) :: s.items := hitems
  rw [hscan] at hcollect
  have hrest : Reader.collect [] (s.items.map ScanItem.bare) = .ok found := hcollect
  have hmem : ∀ item ∈ s.items, item ∈ ((Source.ofBytes file).scan Repair.scanConfig).items := by
    intro item hitem
    rw [hitems]
    exact List.mem_cons_of_mem _ hitem
  obtain ⟨pairs, hmirrors⟩ := @Mirrors.items file (describedIn file) offset _ _ _ _ .empty hclear _
    (fun item hitem d hd => List.mem_filterMap.2 ⟨item, hmem item hitem, hd⟩)
    (fun item hitem => ScanItem.stands_of_mem_scan rfl hsize (hmem item hitem)) hrest
  rw [hfile]
  exact ⟨found, pairs, hmirrors, hseries⟩

/-- A file that opens by a scan and the log that a repair makes of it have the same series under the
same names and numbers, and a query of a series yields the same blocks of both. Numbers and names
that are described more than once have to belong together. -/
theorem reindex_agrees {file output : Bytes} {c : WriterConfig} {report : RepairReport}
    {r : Reader} {reason : ScanReason} (hopen : Reader.ofFile file .default = .ok r)
    (hsource : r.source = .scan reason) (h : reindex (.ofBytes file) c = ⟨.ok report, output⟩)
    (hclear : Unambiguous (describedIn file)) (hsize : file.length < 2 ^ 64)
    (hlimit : ∀ size ∈ bodySizes output, size ≤ 2 ^ 30) :
    ∃ q, Reader.ofFile output .default = .ok q ∧ ∀ id : SeriesId,
      r.find (.named id) = q.find (.named id) ∧
      ∀ items, r.records (.named id) .all = .ok items →
        ∃ others, q.records (.named id) .all = .ok others ∧
          List.Forall₂ (SameItem file (2 ^ 30)) items others := by
  obtain ⟨s⟩ := Repair.exists_steps h
  obtain ⟨found, pairs, hmirrors, hseries⟩ := s.exists_mirrors hopen hsource hclear hsize
    (opening (c.withSource s.labels).annotations).length
  have hcount : (declared s.carried.journal).length ≤ 2 ^ 32 := by
    rw [hmirrors.length_declared]
    exact hmirrors.length_le
  obtain ⟨q, hq, hopened, hsound, hread⟩ :=
    Repair.exists_reader_of_plan h s.plan?_eq hcount hlimit
  obtain ⟨hfile, hconfig, _⟩ := Reader.ofFile_scan hopen hsource
  refine ⟨q, hq, ?_⟩
  intro id
  constructor
  · rw [Reader.find, Reader.find, hmirrors.position?_eq hseries hopened]
  · intro items hitems
    cases hposition : r.position? (.named id) with
    | none =>
      rw [Reader.records, Reader.select, Reader.find, hposition] at hitems
      cases hitems
    | some i =>
      obtain ⟨same, others, hsame, hothers, hall⟩ :=
        hmirrors.records_same hseries hopened hsound hread hposition
      rw [hsame] at hitems
      cases hitems
      rw [hfile, hconfig] at hall
      exact ⟨others, hothers, hall⟩

def describedAs (index : UInt32) (id : SeriesId) (hash : UInt64) : Block :=
  ⟨.descriptor, Descriptor.encode (.series ⟨index, id, hash, .untyped, [], .empty⟩)⟩

def dataAt (index : UInt32) (timestamp : Int64) (payload : Bytes) : Block :=
  ⟨.data, (DataDescriptor.mk index timestamp 0 []).sized ++ payload⟩

/-- A torn log of two series, of which one is described twice, with a block of a third series. -/
def describedTwice : Bytes :=
  opening .empty ++ [describedAs 0 (.ofType "a") 18205702512766678918, dataAt 0 6 [1],
    describedAs 1 (.ofType "b") 7867166119639898089, describedAs 0 (.ofType "a") 0,
    dataAt 9 1 [2], dataAt 0 5 [3], dataAt 1 7 [4]].flatMap Block.encode ++ [1, 0]

/-- The blocks behind the repeated descriptor are found under the same name. -/
theorem reindex_agrees_described_twice :
    ∃ r report output q items others, Reader.ofFile describedTwice .default = .ok r ∧
      r.source = .scan .unsealed ∧
      reindex (.ofBytes describedTwice) .default = ⟨.ok report, output⟩ ∧
      Reader.ofFile output .default = .ok q ∧
      r.find (.named (.ofType "b")) = .ok 1 ∧ q.find (.named (.ofType "b")) = .ok 1 ∧
      r.records (.named (.ofType "a")) .all = .ok items ∧
      q.records (.named (.ofType "a")) .all = .ok others ∧
      List.Forall₂ (SameItem describedTwice (2 ^ 30)) items others := by
  have hreader : (Reader.ofFile describedTwice .default).toOption.map (fun r =>
      (r.source, r.position? (.named (.ofType "b")),
        (r.records (.named (.ofType "a")) .all).toOption.isSome)) =
      some (.scan .unsealed, some 1, true) := by decide +kernel
  have hplanned : (Repair.plan? (.ofBytes describedTwice) .default).map (fun plan =>
      (fileBlock plan.1 :: plan.2.map Addition.block ++ indexPart (seriesIn plan.1 plan.2)).all
        fun b => decide (b.body.length ≤ 2 ^ 30)) = some true := by decide +kernel
  obtain ⟨⟨annotations, journal⟩, hplan, hsizes⟩ := Option.map_eq_some_iff.1 hplanned
  obtain ⟨report, output, hreindex, hlimit⟩ := Repair.exists_reindex_of_sizes hplan hsizes
  cases hopen : Reader.ofFile describedTwice .default with
  | error e =>
    rw [hopen] at hreader
    cases hreader
  | ok r =>
    rw [hopen] at hreader
    simp only [Except.toOption, Option.map_some, Option.some.injEq, Prod.mk.injEq] at hreader
    obtain ⟨hsource, hposition, hsome⟩ := hreader
    obtain ⟨q, hq, hsame⟩ := reindex_agrees hopen hsource hreindex (by decide +kernel)
      (by decide +kernel) hlimit
    have hfind : r.find (.named (.ofType "b")) = .ok 1 := by
      rw [Reader.find, hposition]
      rfl
    cases hitems : r.records (.named (.ofType "a")) .all with
    | error e =>
      rw [hitems] at hsome
      cases hsome
    | ok items =>
      obtain ⟨others, hothers, hall⟩ := (hsame (.ofType "a")).2 items hitems
      exact ⟨r, report, output, q, items, others, rfl, hsource, hreindex, hq, hfind,
        (hsame (.ofType "b")).1 ▸ hfind, hitems, hothers, hall⟩

/-- A log in which number 0 is described as `a` and, behind the first block, as `b`. -/
def redescribed : Bytes :=
  opening .empty ++ [describedAs 0 (.ofType "a") 18205702512766678918, dataAt 0 5 [1],
    describedAs 0 (.ofType "b") 7867166119639898089, dataAt 0 6 [2]].flatMap Block.encode

/-- A reader passes over the second name of a number, but a repair declares a series of that name. -/
theorem reindex_declares_redescribed :
    ∃ r report output q, Reader.ofFile redescribed .default = .ok r ∧
      r.source = .scan .unsealed ∧
      reindex (.ofBytes redescribed) .default = ⟨.ok report, output⟩ ∧
      Reader.ofFile output .default = .ok q ∧
      r.find (.named (.ofType "b")) = .error (.unknownSeries (.named (.ofType "b"))) ∧
      q.find (.named (.ofType "b")) = .ok 1 := by
  have hreader : (Reader.ofFile redescribed .default).toOption.map (fun r =>
      (r.source, r.position? (.named (.ofType "b")))) = some (.scan .unsealed, none) := by
    decide +kernel
  have hplanned : (Repair.plan? (.ofBytes redescribed) .default).map (fun plan =>
      ((declared plan.2).length, (declared plan.2).findIdx? fun d => d.id = .ofType "b",
        (fileBlock plan.1 :: plan.2.map Addition.block ++ indexPart (seriesIn plan.1 plan.2)).all
          fun b => decide (b.body.length ≤ 2 ^ 30))) = some (2, some 1, true) := by
    decide +kernel
  obtain ⟨⟨annotations, journal⟩, hplan, hfacts⟩ := Option.map_eq_some_iff.1 hplanned
  simp only [Prod.mk.injEq] at hfacts
  obtain ⟨hcount, hnumber, hsizes⟩ := hfacts
  obtain ⟨report, output, hreindex, hlimit⟩ := Repair.exists_reindex_of_sizes hplan hsizes
  obtain ⟨q, hq, hopened, _⟩ := Repair.exists_reader_of_plan hreindex hplan
    (by rw [hcount]; decide) hlimit
  cases hopen : Reader.ofFile redescribed .default with
  | error e =>
    rw [hopen] at hreader
    cases hreader
  | ok r =>
    rw [hopen] at hreader
    simp only [Except.toOption, Option.map_some, Option.some.injEq, Prod.mk.injEq] at hreader
    obtain ⟨hsource, hposition⟩ := hreader
    refine ⟨r, report, output, q, rfl, hsource, hreindex, hq, ?_, ?_⟩
    · rw [Reader.find, hposition]
    · rw [Reader.find, hopened.position?_declared, hnumber]
      rfl

end SeriesLog
