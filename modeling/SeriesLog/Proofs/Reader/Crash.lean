import SeriesLog.Proofs.Reader.RoundTrip
import SeriesLog.Proofs.Repair.Cut

/-! # Logs that lost their end

A sealed log that is cut anywhere behind its file descriptor opens by a scan, with the series and
the blocks that are whole in front of the cut. The one exception is a cut behind bytes that look
like a trailer: payloads are arbitrary, and a reader takes such a log for a sealed one. -/
namespace SeriesLog

/-- Whether the last bytes of a file are those of some trailer. -/
def EndsInTrailer (file : Bytes) : Prop :=
  ∃ (before : Bytes) (t : Trailer), openingMagic.length ≤ before.length ∧
    t.checksum.length = checksumSize ∧ file = before ++ t.encode

namespace Reader

theorem endsInTrailer_of_readTrailer? {file : Bytes} {t : Trailer}
    (h : readTrailer? file = some t) : EndsInTrailer file := by
  unfold readTrailer? at h
  split at h
  · cases h
  next hlong =>
  dsimp only at h
  split at h
  · next header hheader =>
    split at h
    · next hend =>
      split at h
      · next trailer hread =>
        cases h
        obtain ⟨hchecksum, rest, hbytes⟩ := Scan.readTrailer_ok hread
        have hcode : (Header.mk .trailer trailerDeclaredSize (by decide)).encode =
            (file.drop (file.length - trailerSize)).take headerSize := by
          rw [← Header.encode_of_ofBytes? hheader, Header.encode, Header.encode, hend.1, hend.2]
        have hraw : file.drop (file.length - trailerSize) = t.encode ++ rest := by
          rw [Trailer.encode, hcode, List.append_assoc, ← hbytes]
          exact (List.take_append_drop _ _).symm
        -- the last bytes are exactly as many as a trailer has
        have hrest : rest = [] := by
          have hlength := congrArg List.length hraw
          rw [List.length_drop, List.length_append, Trailer.length_encode hchecksum] at hlength
          exact List.length_eq_zero_iff.1 (by omega)
        refine ⟨file.take (file.length - trailerSize), t, ?_, hchecksum, ?_⟩
        · rw [List.length_take]
          omega
        · rw [hrest, List.append_nil] at hraw
          rw [← hraw]
          exact (List.take_append_drop _ _).symm
      · cases h
    · cases h
  · cases h

theorem readTrailer?_eq_none_iff {file : Bytes} :
    readTrailer? file = none ↔ ¬ EndsInTrailer file := by
  constructor
  · rintro hnone ⟨before, t, hbefore, hchecksum, rfl⟩
    rw [readTrailer?_append hchecksum hbefore] at hnone
    cases hnone
  · intro hends
    cases hread : readTrailer? file with
    | none => rfl
    | some t => exact (hends (endsInTrailer_of_readTrailer? hread)).elim

theorem source_of_locate {file : Bytes} {c : ReaderConfig} {t : Trailer}
    {found : IndexSource × List SeriesIndex × Bool} (h : locate file c (some t) = .ok found) :
    found.1 ≠ .scan .unsealed := by
  intro heq
  unfold locate at h
  dsimp only at h
  split at h
  · obtain ⟨_, _, rfl⟩ := exists_of_map_eq_ok h
    cases heq
  · split at h
    · cases h
      cases heq
    · obtain ⟨_, _, rfl⟩ := exists_of_map_eq_ok h
      cases heq
    · cases h

theorem readTrailer?_of_unsealed {file : Bytes} {c : ReaderConfig} {r : Reader}
    (h : ofFile file c = .ok r) (hsource : r.source = .scan .unsealed) :
    readTrailer? file = none := by
  cases hread : readTrailer? file with
  | none => rfl
  | some t =>
    unfold ofFile at h
    split at h
    · cases h
    obtain ⟨found, hfound, rfl⟩ := exists_of_map_eq_ok h
    rw [hread] at hfound
    exact (source_of_locate hfound hsource).elim

end Reader

namespace SealedRun

variable {c : WriterConfig} {rc : ReaderConfig} {cut : Nat} (run : SealedRun c)

def scanned : Stream :=
  ⟨logBlocks c.annotations false run.journal ++ run.indexRead true, some run.trailer⟩

theorem map_blocks_scanned : run.scanned.blocks.map (·.1) = run.blocks ++ run.tail := by
  rw [scanned, List.map_append, map_logBlocks, Run.map_indexRead, if_pos rfl, Run.blocks]

theorem bytes_scanned : run.scanned.bytes = run.bytes := by
  rw [run.bytes_eq_blocks, ← map_blocks_scanned, List.flatMap_map, Stream.bytes, scanned,
    Option.toList_some, List.flatMap_singleton]

theorem readsAll_scanned (hcount : (declared run.journal).length ≤ 2 ^ 32)
    (hlimit : ∀ b ∈ run.blocks ++ run.tail, b.body.length ≤ rc.maxBlockSize) :
    Scan.ReadsAll (rc.scan false false) run.scanned.blocks := by
  have hreadable : Readable c.annotations run.journal (rc.scan false false).maxBlockSize :=
    run.readable_of_limit hlimit
  refine readsAll_append hreadable.readsAll (Run.readsAll_indexRead hreadable ?_ run.tail_le ?_)
  · intro _
    rw [run.length_seriesIn]
    exact hcount
  · exact fun b hb => hlimit b (List.mem_append_right _ hb)

theorem length_before_le (hopening : (opening c.annotations).length ≤ cut) :
    (logBytes c.annotations (run.before cut)).length ≤ cut := by
  rw [length_logBytes]
  exact span_within_le hopening

theorem take_eq_append (hopening : (opening c.annotations).length ≤ cut) :
    ∃ rest, run.bytes.take cut = logBytes c.annotations (run.before cut) ++ rest := by
  obtain ⟨more, hmore⟩ := run.before_isPrefix cut
  have hbytes : run.bytes = logBytes c.annotations (run.before cut) ++
      ((more.flatMap fun a => a.block.encode) ++ run.tail.flatMap Block.encode ++
        run.trailer.encode) := by
    rw [run.bytes_eq, sealedBytes, ← hmore]
    simp only [logBytes, List.flatMap_append, List.append_assoc]
  rw [hbytes, List.take_append, List.take_of_length_le (run.length_before_le hopening)]
  exact ⟨_, rfl⟩

theorem length_series_before (hcount : (declared run.journal).length ≤ 2 ^ 32) :
    (seriesIn c.annotations (run.before cut)).length ≤ 2 ^ 32 := by
  have hle := (List.IsPrefix.filterMap Addition.descriptor? (run.before_isPrefix cut)).length_le
  rw [SeriesLog.length_seriesIn]
  exact Nat.le_trans hle hcount

/-- The series that a scan of the log in front of a cut finds, and whether it ends inside a
block. -/
theorem scanSeries_take (hcount : (declared run.journal).length ≤ 2 ^ 32)
    (hlimit : ∀ b ∈ run.blocks ++ run.tail, b.body.length ≤ rc.maxBlockSize)
    (hopening : (opening c.annotations).length ≤ cut) (hcut : cut < run.bytes.length) :
    Reader.scanSeries (run.bytes.take cut) rc false =
      .ok ((seriesIn c.annotations (run.before cut)).map SeriesState.toIndex,
        decide (run.scanned.TornAt cut)) := by
  have hmagic : openingMagic.length ≤ cut := by
    rw [length_opening] at hopening
    omega
  have hchecksum : ∀ t ∈ run.scanned.closing, t.checksum.length = checksumSize := by
    intro t ht
    cases ht
    exact run.length_checksum
  have hlength := Stream.length_bytes hchecksum
  have hunsealed : cut ≠ run.scanned.stop + trailerSize := by
    have hsome : run.scanned.closing.isSome = true := rfl
    rw [bytes_scanned, if_pos hsome] at hlength
    omega
  obtain ⟨stop, hscan⟩ := Stream.scan_cut (run.readsAll_scanned hcount hlimit) hchecksum hmagic
    (bytes_scanned run ▸ Nat.le_of_lt hcut)
  rw [bytes_scanned] at hscan
  have hending : run.scanned.endingAt cut =
      if run.scanned.TornAt cut then .torn else .boundary := by
    have hend : ¬ (run.scanned.closing.isSome = true ∧ cut = run.scanned.stop + trailerSize) :=
      fun h => hunsealed h.2
    rw [Stream.endingAt, if_neg hend]
  have hitems : Reader.collect [] (run.scanned.itemsBefore cut) =
      .ok (seriesIn c.annotations (run.before cut)) := by
    have hcollect := Reader.collect_journal false (run.sound_before cut)
    rw [List.take_nil, ← seriesIn,
      List.take_of_length_le (run.length_series_before hcount)] at hcollect
    have hblocks := @within_logBlocks c.annotations run.journal false (run.indexRead true) cut
      hopening
    have hinert : ∀ p ∈ within (fun p => p.1.size)
        ((opening c.annotations).length + span Addition.size run.journal) cut
        (run.indexRead true), p.2.Inert := by
      intro p hp
      obtain ⟨index, hindex⟩ := Run.indexRead_eq_index ((within_isPrefix _).subset hp)
      rw [hindex]
      trivial
    rw [Stream.itemsBefore, Stream.trailerBefore, if_neg hunsealed, List.append_nil, scanned,
      hblocks, Scan.placed, Reader.collect, ← length_opening, Scan.placed_append]
    exact (Reader.collect_append _ _ hcollect).trans (Reader.collect_inert hinert)
  unfold Reader.scanSeries
  simp only [hscan, hitems, hending]
  by_cases htorn : run.scanned.TornAt cut
  · simp only [htorn, if_true, decide_true]
  · simp [htorn]

/-- What the log in front of a cut opens to. -/
def salvaged (rc : ReaderConfig) (cut : Nat) : Reader :=
  ⟨run.bytes.take cut, rc, .ofAnnotations c.annotations, none, .scan .unsealed,
    (seriesIn c.annotations (run.before cut)).map fun s => s.toIndex.timeline,
    decide (run.scanned.TornAt cut)⟩

theorem ofFile_take (hallow : rc.allowUnsealed = true)
    (hcount : (declared run.journal).length ≤ 2 ^ 32)
    (hlimit : ∀ b ∈ run.blocks ++ run.tail, b.body.length ≤ rc.maxBlockSize)
    (hopening : (opening c.annotations).length ≤ cut) (hcut : cut < run.bytes.length)
    (hends : ¬ EndsInTrailer (run.bytes.take cut)) :
    Reader.ofFile (run.bytes.take cut) rc = .ok (run.salvaged rc cut) := by
  have hreadable := run.readable_of_limit hlimit
  have hdescriptor : Reader.readFileDescriptor (run.bytes.take cut) rc.maxBlockSize =
      .ok (.ofAnnotations c.annotations) := by
    obtain ⟨rest, hrest⟩ := run.take_eq_append hopening
    rw [hrest, logBytes, List.append_assoc]
    exact Reader.readFileDescriptor_opening hreadable.file_le hreadable.file_limit _
  have hscan := run.scanSeries_take hcount hlimit hopening hcut
  have hskip : decide (ScanReason.unsealed = ScanReason.unreadableIndex) = false := rfl
  unfold Reader.ofFile Reader.locate
  simp only [hdescriptor, Reader.readTrailer?_eq_none_iff.2 hends, hallow, if_true, hskip, hscan,
    Reader.lift, Except.map, salvaged, List.map_map]
  rfl

theorem opened_salvaged
    (hlimit : ∀ b ∈ run.blocks ++ run.tail, b.body.length ≤ rc.maxBlockSize)
    (hopening : (opening c.annotations).length ≤ cut) :
    (run.salvaged rc cut).Opened c.annotations (run.before cut) := by
  constructor
  · rfl
  · exact run.take_eq_append hopening
  · intro a ha
    exact (run.readable_of_limit hlimit).limit a ((run.before_isPrefix cut).subset ha)

theorem tornAt_scanned_iff (hopening : (opening c.annotations).length ≤ cut)
    (hcut : cut < run.bytes.length) :
    run.scanned.TornAt cut ↔ cut ∉ stops Block.size openingMagic.length (run.blocks ++ run.tail) := by
  have hmagic : openingMagic.length < cut := by
    have := (fileBlock c.annotations).size_pos
    rw [length_opening] at hopening
    omega
  have hinside := @inside_map _ _ Block.size openingMagic.length cut
    (fun p : Block × BlockContent => p.1) run.scanned.blocks
  have hstop : openingMagic.length + span Block.size (run.blocks ++ run.tail) =
      run.scanned.stop := by
    rw [← map_blocks_scanned, span_map]
    rfl
  have hlength : run.bytes.length = run.scanned.stop + trailerSize := by
    rw [← bytes_scanned]
    refine (Stream.length_bytes ?_).trans (by rw [scanned]; rfl)
    intro t ht
    cases ht
    exact run.length_checksum
  rw [map_blocks_scanned] at hinside
  rw [Stream.TornAt, ← hinside]
  by_cases hamong : cut ≤ run.scanned.stop
  · rw [inside_iff_not_mem_stops hmagic (hstop ▸ hamong)]
    constructor
    · rintro (hin | ⟨_, hlt, _⟩)
      · exact hin
      · omega
    · exact .inl
  · constructor
    · intro _ hmem
      have := (le_of_mem_stops hmem).2
      omega
    · exact fun _ => .inr ⟨rfl, by omega, by omega⟩

/-- What a crash must not take away: a log cut short opens by a scan, with the series and the
blocks that are whole in front of the cut. -/
structure Salvages (rc : ReaderConfig) (cut : Nat) (r : Reader) : Prop where
  opened : Reader.ofFile (run.bytes.take cut) rc = .ok r
  source : r.source = .scan .unsealed
  annotations : r.descriptor = .ofAnnotations c.annotations
  series : (r.series.map fun t => t.descriptor) = declared (run.before cut)
  entries : ∀ (i : Nat) (t : Timeline), r.series[i]? = some t → t.entries.toList.Perm
    (((recordsIn c.annotations (run.before cut)).filter fun q => q.series.toNat = i).map
      DataRecord.entry)
  records : ∀ d ∈ declared (run.before cut), ∀ range : TimeRange,
    ∃ ordered, r.records (.named d.id) range = .ok (ordered.map .ok) ∧
      TimeOrdered ((recordsIn c.annotations (run.before cut)).filter fun q =>
        q.series = d.index ∧ range.contains q.timestamp) ordered
  torn : r.torn = true ↔ cut ∉ stops Block.size openingMagic.length (run.blocks ++ run.tail)

/-- A log that lost its end is salvaged unless what is left ends in the bytes of a trailer, as it
may when a payload does. -/
theorem salvages_iff (hallow : rc.allowUnsealed = true)
    (hcount : (declared run.journal).length ≤ 2 ^ 32) (hsize : run.bytes.length < 2 ^ 64)
    (hlimit : ∀ b ∈ run.blocks ++ run.tail, b.body.length ≤ rc.maxBlockSize)
    (hopening : (opening c.annotations).length ≤ cut) (hcut : cut < run.bytes.length) :
    (∃ r, run.Salvages rc cut r) ↔ ¬ EndsInTrailer (run.bytes.take cut) := by
  constructor
  · rintro ⟨r, hr⟩
    rw [← Reader.readTrailer?_eq_none_iff]
    exact Reader.readTrailer?_of_unsealed hr.opened hr.source
  · intro hends
    have hopened := run.opened_salvaged hlimit hopening
    have hsound := run.sound_before cut
    have hlength : (logBytes c.annotations (run.before cut)).length < 2 ^ 64 := by
      have := run.length_before_le hopening
      omega
    have hseries : (seriesIn c.annotations (run.before cut)).length ≤ 2 ^ 32 :=
      run.length_series_before hcount
    refine ⟨run.salvaged rc cut, ?_, rfl, rfl, ?_, ?_, ?_, ?_⟩
    · exact run.ofFile_take hallow hcount hlimit hopening hcut hends
    · exact hopened.descriptors
    · exact fun i t ht => hopened.entries_perm hsound ht
    · exact fun d hd range => hopened.records_named hsound hseries hlength hd range
    · rw [← run.tornAt_scanned_iff hopening hcut]
      exact decide_eq_true_iff

/-- A log of two series is cut inside its last block. -/
theorem salvages_torn :
    ∃ run : SealedRun .default,
      run.calls = [.append (.ofType "a") 5 [] [1], .append (.ofType "b") 6 [] [2, 3]] ∧
      ∃ r, run.Salvages .default 100 r ∧
        (r.series.map fun t => t.descriptor.id) = [.ofType "a", .ofType "b"] := by
  let calls : List Call := [.append (.ofType "a") 5 [] [1], .append (.ofType "b") 6 [] [2, 3]]
  have hfacts : (sealedBy? .default calls).map (fun o =>
      let journal := journalOf calls o.1
      ((declared journal).length,
        (declared (within Addition.size (opening .empty).length 100 journal)).map (·.id),
        o.2.2.length, Reader.readTrailer? (o.2.2.take 100),
        (fileBlock .empty :: journal.map Addition.block ++ indexPart (seriesIn .empty journal)).all
          fun b => decide (b.body.length ≤ 2 ^ 30))) =
      some (2, [.ofType "a", .ofType "b"], 211, none, true) := by decide +kernel
  rw [Option.map_eq_some_iff] at hfacts
  obtain ⟨⟨answers, summary, bytes⟩, hsealed, hfacts⟩ := hfacts
  simp only [Prod.mk.injEq] at hfacts
  obtain ⟨hdeclared, hbefore, hsize, htrailer, hblocks⟩ := hfacts
  obtain ⟨run, hcalls, rfl, rfl, rfl⟩ := SealedRun.exists_of_sealedBy? (by decide) hsealed
  have hjournal : run.journal = journalOf calls run.answers := by rw [Run.journal, hcalls]
  rw [← hjournal] at hdeclared hbefore hblocks
  obtain ⟨r, hr⟩ := (@salvages_iff _ .default 100 run rfl (by omega) (by omega)
    (fun b hb => of_decide_eq_true (List.all_eq_true.1 hblocks b hb)) (by decide +kernel)
    (by omega)).2 (Reader.readTrailer?_eq_none_iff.1 htrailer)
  refine ⟨run, hcalls, r, hr, ?_⟩
  have hids := congrArg (List.map fun d => d.id) hr.series
  rw [List.map_map] at hids
  exact hids.trans hbefore

/-- A payload that is the bytes of a trailer, and a cut right behind it. -/
theorem not_salvages_trailer_payload :
    ∃ run : SealedRun .default,
      run.calls = [.append (.ofType "a") 5 [] (Trailer.encode ⟨1, List.replicate 20 0⟩)] ∧
      (∀ b ∈ run.blocks ++ run.tail, b.body.length ≤ ReaderConfig.default.maxBlockSize) ∧
      (opening .empty).length ≤ 102 ∧ 102 < run.bytes.length ∧
      Reader.ofFile (run.bytes.take 102) .default =
        .error (.corruptIndex (.outside 1 102)) ∧
      ¬ ∃ r, run.Salvages .default 102 r := by
  let calls : List Call :=
    [.append (.ofType "a") 5 [] (Trailer.encode ⟨1, List.replicate 20 0⟩)]
  have hfacts : (sealedBy? .default calls).map (fun o =>
      let journal := journalOf calls o.1
      (decide (102 < o.2.2.length),
        (match Reader.ofFile (o.2.2.take 102) .default with
          | .error e => some e
          | .ok _ => none),
        (fileBlock .empty :: journal.map Addition.block ++ indexPart (seriesIn .empty journal)).all
          fun b => decide (b.body.length ≤ 2 ^ 30))) =
      some (true, some (.corruptIndex (.outside 1 102)), true) := by decide +kernel
  rw [Option.map_eq_some_iff] at hfacts
  obtain ⟨⟨answers, summary, bytes⟩, hsealed, hfacts⟩ := hfacts
  simp only [Prod.mk.injEq, decide_eq_true_eq] at hfacts
  obtain ⟨hlength, hopen, hblocks⟩ := hfacts
  obtain ⟨run, hcalls, rfl, rfl, rfl⟩ := SealedRun.exists_of_sealedBy? (by decide) hsealed
  have hjournal : run.journal = journalOf calls run.answers := by rw [Run.journal, hcalls]
  rw [← hjournal] at hblocks
  have herror : Reader.ofFile (run.bytes.take 102) .default =
      .error (.corruptIndex (.outside 1 102)) := by
    cases hfile : Reader.ofFile (run.bytes.take 102) .default with
    | error e =>
      rw [hfile] at hopen
      rw [Option.some.inj hopen]
    | ok r =>
      rw [hfile] at hopen
      cases hopen
  refine ⟨run, hcalls, fun b hb => of_decide_eq_true (List.all_eq_true.1 hblocks b hb),
    by decide +kernel, hlength, herror, ?_⟩
  rintro ⟨r, hr⟩
  have hopened := hr.opened
  rw [herror] at hopened
  cases hopened

end SealedRun

end SeriesLog
