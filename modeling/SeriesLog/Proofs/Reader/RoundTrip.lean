import SeriesLog.Proofs.Reader.IndexSource

/-! # Round trip

A log that a writer seals opens again, and a query of a series yields what was appended to it. -/
namespace SeriesLog

variable {c : WriterConfig}

theorem SealedRun.ofFile_byScan (run : SealedRun c) {rc : ReaderConfig}
    (hdata : run.last.blockCount = 0)
    (hlimit : ∀ b ∈ run.blocks ++ run.tail, b.body.length ≤ rc.maxBlockSize) :
    Reader.ofFile run.bytes rc = .ok (Reader.openedByScan run.bytes rc c.annotations run.journal
      run.trailer .noIndex) := by
  obtain ⟨htail, hoffset⟩ := run.tail_of_no_data hdata
  rw [run.bytes_eq, htail]
  exact Reader.ofFile_noIndex (run.readable_of_limit hlimit) []
    (fun p hp => by cases hp) (fun p hp => by cases hp) run.length_checksum
    (by rw [SealedRun.trailer, hoffset]; rfl)

theorem SealedRun.ofFile_noIndex (run : SealedRun c) {rc : ReaderConfig}
    (hdata : run.last.blockCount = 0) (hcount : (declared run.journal).length ≤ 2 ^ 32)
    (hlimit : ∀ b ∈ run.blocks ++ run.tail, b.body.length ≤ rc.maxBlockSize) :
    Reader.ofFile run.bytes rc = .ok (Reader.opened run.bytes rc c.annotations run.journal
      run.trailer (.scan .noIndex)) := by
  rw [← run.length_seriesIn] at hcount
  rw [run.ofFile_byScan hdata hlimit, Reader.openedByScan_eq_opened hcount]

theorem SealedRun.opened (run : SealedRun c) {rc : ReaderConfig}
    (hlimit : ∀ b ∈ run.blocks ++ run.tail, b.body.length ≤ rc.maxBlockSize)
    (source : IndexSource) :
    (Reader.opened run.bytes rc c.annotations run.journal run.trailer source).Opened
      c.annotations run.journal := by
  rw [run.bytes_eq]
  exact Reader.opened_sealed (run.readable_of_limit hlimit) _ _ _

/-- A sealed log opens, by its index or, without data, by a scan, with the series of its run. -/
theorem SealedRun.ofFile (run : SealedRun c) {rc : ReaderConfig}
    (hcount : (declared run.journal).length ≤ 2 ^ 32) (hsize : run.bytes.length < 2 ^ 64)
    (hlimit : ∀ b ∈ run.blocks ++ run.tail, b.body.length ≤ rc.maxBlockSize) :
    ∃ source, Reader.ofFile run.bytes rc =
      .ok (Reader.opened run.bytes rc c.annotations run.journal run.trailer source) := by
  by_cases hdata : run.last.blockCount = 0
  · exact ⟨_, run.ofFile_noIndex hdata hcount hlimit⟩
  · exact ⟨_, (run.indexed hdata hcount hsize hlimit).ofFile⟩

theorem Reader.Opened.position?_named {r : Reader} {annotations : Labels}
    {journal : List Addition} (h : r.Opened annotations journal)
    (hsound : SoundIn annotations journal) {d : SeriesDescriptor} (hd : d ∈ declared journal) :
    ∃ i, r.position? (.named d.id) = some i ∧ i < (seriesIn annotations journal).length ∧
      d.index = UInt32.ofNat i := by
  have horderly : Orderly (seriesIn annotations journal) := Orderly.nil.track hsound
  have hmap := map_descriptor_track (opening annotations).length [] journal
  rw [List.map_nil, List.nil_append] at hmap
  rw [← hmap] at hd
  obtain ⟨s, hs, rfl⟩ := List.mem_map.1 hd
  obtain ⟨i, hi⟩ := List.mem_iff_getElem?.1 hs
  refine ⟨i, ?_, (List.getElem?_eq_some_iff.1 hi).1, horderly.numbered i s hi⟩
  have hfound := (horderly.findIdx?_iff i s.descriptor.id).2 ⟨s, hi, rfl⟩
  rw [Reader.position?, h.series, List.findIdx?_map]
  exact hfound

theorem Reader.Opened.records_named {r : Reader} {annotations : Labels} {journal : List Addition}
    (h : r.Opened annotations journal) (hsound : SoundIn annotations journal)
    (hcount : (seriesIn annotations journal).length ≤ 2 ^ 32)
    (hsize : (logBytes annotations journal).length < 2 ^ 64) {d : SeriesDescriptor}
    (hd : d ∈ declared journal) (range : TimeRange) :
    ∃ ordered, r.records (.named d.id) range = .ok (ordered.map .ok) ∧
      TimeOrdered ((recordsIn annotations journal).filter fun q =>
        q.series = d.index ∧ range.contains q.timestamp) ordered := by
  obtain ⟨i, hposition, hi, hindex⟩ := h.position?_named hsound hd
  obtain ⟨ordered, hordered, hrecords⟩ :=
    Reader.records_of_position hsound hcount hsize hi range
  refine ⟨ordered, hrecords _ _ h hposition, ?_⟩
  have hnumber : d.index.toNat = i := by
    rw [hindex, UInt32.toNat_ofNat']
    exact Nat.mod_eq_of_lt (by omega)
  rw [List.filter_filter] at hordered
  have hsame : ∀ q : DataRecord, (range.contains q.timestamp && decide (q.series.toNat = i)) =
      decide (q.series = d.index ∧ range.contains q.timestamp = true) := by
    intro q
    rw [Bool.and_comm, Bool.decide_and, Bool.decide_eq_true, ← hnumber,
      decide_eq_decide.2 UInt32.toNat_inj]
  simpa only [hsame] using hordered

/-- Whatever is declared and appended, in whatever order and with whatever refusals in between, the
sealed log opens with the same annotations and the declared series, and a query of a series yields
exactly the blocks of that series in the range, in time order. The places of the blocks are those
that the calls were answered. -/
theorem sealed_round_trip (run : SealedRun c) (rc : ReaderConfig)
    (hcount : (declared run.journal).length < 2 ^ 32) (hsize : run.bytes.length < 2 ^ 64)
    (hlimit : ∀ b ∈ run.blocks ++ run.tail, b.body.length ≤ rc.maxBlockSize) :
    ∃ r, Reader.ofFile run.bytes rc = .ok r ∧
      r.descriptor = .ofAnnotations c.annotations ∧
      (r.series.map fun t => t.descriptor) = declared run.journal ∧
      (recordsIn c.annotations run.journal).map DataRecord.place =
        (run.answers.filterMap location?).map BlockLocation.place ∧
      ∀ d ∈ declared run.journal, ∀ range : TimeRange,
        ∃ ordered, r.records (.named d.id) range = .ok (ordered.map .ok) ∧
          TimeOrdered ((recordsIn c.annotations run.journal).filter fun q =>
            q.series = d.index ∧ range.contains q.timestamp) ordered := by
  obtain ⟨source, hopen⟩ := run.ofFile (Nat.le_of_lt hcount) hsize hlimit
  have hopened := run.opened hlimit source
  have hseries : (seriesIn c.annotations run.journal).length ≤ 2 ^ 32 := by
    rw [run.length_seriesIn]
    exact Nat.le_of_lt hcount
  refine ⟨_, hopen, rfl, hopened.descriptors, run.noted.2, ?_⟩
  intro d hd range
  exact hopened.records_named run.holds.sound hseries
    (Nat.lt_trans run.length_logBytes_lt hsize) hd range

/-- Blocks of two series, out of order, and an append to a series that does not exist. -/
theorem sealed_round_trip_interleaved :
    ∃ run : SealedRun .default,
      run.calls = [.append (.ofType "a") 5 [] [1], .append (.ofType "b") 5 [] [2],
        .append (.ofType "a") (-3) [] [3], .appendTo 7 0 [] [4]] ∧
      (run.answers.filterMap location?).length = 3 ∧
      ∃ r, Reader.ofFile run.bytes .default = .ok r ∧
        (r.series.map fun t => t.descriptor.id) = [.ofType "a", .ofType "b"] := by
  let calls : List Call := [.append (.ofType "a") 5 [] [1], .append (.ofType "b") 5 [] [2],
    .append (.ofType "a") (-3) [] [3], .appendTo 7 0 [] [4]]
  have hfacts : (sealedBy? .default calls).map (fun o =>
      let journal := journalOf calls o.1
      ((o.1.filterMap location?).length, (declared journal).map (·.id), o.2.2.length,
        (fileBlock .empty :: journal.map Addition.block ++ indexPart (seriesIn .empty journal)).all
          fun b => decide (b.body.length ≤ 2 ^ 30))) =
      some (3, [.ofType "a", .ofType "b"], 251, true) := by decide +kernel
  rw [Option.map_eq_some_iff] at hfacts
  obtain ⟨⟨answers, summary, bytes⟩, hsealed, hfacts⟩ := hfacts
  simp only [Prod.mk.injEq] at hfacts
  obtain ⟨hlocated, hdeclared, hsize, hblocks⟩ := hfacts
  obtain ⟨run, hcalls, rfl, rfl, rfl⟩ := SealedRun.exists_of_sealedBy? (by decide) hsealed
  have hjournal : run.journal = journalOf calls run.answers := by rw [Run.journal, hcalls]
  rw [← hjournal] at hdeclared hblocks
  have hcount : (declared run.journal).length < 2 ^ 32 := by
    have hlength := congrArg List.length hdeclared
    rw [List.length_map] at hlength
    rw [hlength]
    decide
  obtain ⟨r, hopen, _, hseries, _⟩ := sealed_round_trip run .default hcount (by omega)
    (fun b hb => of_decide_eq_true (List.all_eq_true.1 hblocks b hb))
  refine ⟨run, hcalls, hlocated, r, hopen, ?_⟩
  have hids := congrArg (List.map fun d => d.id) hseries
  rw [List.map_map] at hids
  exact hids.trans hdeclared

end SeriesLog
