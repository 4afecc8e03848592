import SeriesLog.Proofs.Reader.RoundTrip
import SeriesLog.Proofs.Writer.Guard

/-! # Limits of writers and readers

A writer holds its data blocks to a limit, a reader holds every block to one. Under one limit for
both a sealed log is read back as long as its index is within the limit, too. A larger index is
refused where the trailer says that it is, and the scan that should do without it is refused at the
same block. -/
namespace SeriesLog

variable {annotations : Labels} {journal : List Addition}

theorem Reader.scanSeries_large {c : ReaderConfig} (skip : Bool)
    (h : Readable annotations journal c.maxBlockSize) {body : Bytes}
    (hmax : body.length ≤ maxBodySize) (hlarge : c.maxBlockSize < body.length) (trailer : Trailer) :
    scanSeries (sealedBytes annotations journal [⟨.descriptor, body⟩] trailer) c skip =
      .error (.tooLarge body.length c.maxBlockSize) := by
  have hreads : Scan.ReadsAll (c.scan false skip) (logBlocks annotations false journal) :=
    Readable.readsAll (c := c.scan false skip) h
  have hbytes : sealedBytes annotations journal [⟨.descriptor, body⟩] trailer =
      openingMagic ++ ((logBlocks annotations false journal).flatMap (fun p => p.1.encode) ++
        ((Block.mk .descriptor body).encode ++ trailer.encode)) := by
    rw [sealedBytes, logBytes_eq annotations false, List.flatMap_singleton]
    simp only [List.append_assoc]
  have hstep : ∀ offset, Scan.step (c.scan false skip) offset
      ⟨(Block.mk .descriptor body).encode ++ trailer.encode, none⟩ =
        .stop (.failed (.tooLarge body.length c.maxBlockSize)) :=
    fun offset => Scan.step_descriptor_large hmax hlarge trailer.encode
  have hcollect := collect_log false h.sound
  unfold scanSeries
  rw [hbytes, Source.ofBytes, scan_magic_append, Scan.blocks_append hreads,
    Scan.blocks_of_stop (hstep _)]
  simp only [Scan.after, List.append_nil, hcollect]

theorem Reader.ofFile_large {c : ReaderConfig} (h : Readable annotations journal c.maxBlockSize)
    (hsize : (logBytes annotations journal).length < 2 ^ 64) {body : Bytes}
    (hmax : body.length ≤ maxBodySize) (hlarge : c.maxBlockSize < body.length) {trailer : Trailer}
    (hchecksum : trailer.checksum.length = checksumSize)
    (hoffset : trailer.indexOffset = UInt64.ofNat (logBytes annotations journal).length) :
    ofFile (sealedBytes annotations journal [⟨.descriptor, body⟩] trailer) c =
      .error (.format (.tooLarge body.length c.maxBlockSize)) := by
  obtain ⟨hvalue, hne⟩ := offset_ne_zero annotations journal hsize
  have hmagic : openingMagic.length ≤ (logBytes annotations journal).length := by
    rw [length_logBytes, length_opening]
    omega
  have hload : loadIndex (sealedBytes annotations journal [⟨.descriptor, body⟩] trailer)
      (logBytes annotations journal).length c.maxBlockSize =
        .error (.format (.tooLarge body.length c.maxBlockSize)) := by
    rw [sealedBytes, List.flatMap_singleton]
    exact loadIndex_large hmagic hmax hlarge hchecksum
  have hscan := scanSeries_large true h hmax hlarge trailer
  rw [ofFile_sealed h.file_le h.file_limit hchecksum]
  unfold locate
  dsimp only
  rw [hoffset, if_neg hne, hvalue, hload]
  dsimp only
  rw [show decide (ScanReason.unreadableIndex = ScanReason.unreadableIndex) = true from rfl, hscan]
  rfl

namespace SealedRun

variable {c : WriterConfig}

/-- A sealed log opens with the series of its run, the blocks lie where the calls were answered that
they do, and a query of a series yields its blocks in the range, in time order. -/
structure ReadBy (run : SealedRun c) (rc : ReaderConfig) (r : Reader) : Prop where
  opens : Reader.ofFile run.bytes rc = .ok r
  descriptors : (r.series.map fun t => t.descriptor) = declared run.journal
  places : (recordsIn c.annotations run.journal).map DataRecord.place =
    (run.answers.filterMap location?).map BlockLocation.place
  records : ∀ d ∈ declared run.journal, ∀ range : TimeRange,
    ∃ ordered, r.records (.named d.id) range = .ok (ordered.map .ok) ∧
      TimeOrdered ((recordsIn c.annotations run.journal).filter fun q =>
        q.series = d.index ∧ range.contains q.timestamp) ordered

variable (run : SealedRun c) {rc : ReaderConfig}

/-- Where the file descriptor and the series are within the limit of the writer, so is every block
before the index. -/
theorem blocks_within (hfile : (fileBlock c.annotations).body.length ≤ c.maxBlockSize)
    (hseries : ∀ d ∈ declared run.journal,
      (Addition.series d).block.body.length ≤ c.maxBlockSize) :
    ∀ b ∈ run.blocks, b.body.length ≤ c.maxBlockSize := by
  intro b hb
  rcases List.mem_cons.1 hb with rfl | hb
  · exact hfile
  · obtain ⟨a, ha, rfl⟩ := List.mem_map.1 hb
    cases a with
    | series d => exact hseries d (List.mem_filterMap.2 ⟨_, ha, rfl⟩)
    | data d payload => exact run.fits _ ha

theorem readBy_of_within (hcount : (declared run.journal).length ≤ 2 ^ 32)
    (hsize : run.bytes.length < 2 ^ 64)
    (hlimit : ∀ b ∈ run.blocks ++ run.tail, b.body.length ≤ rc.maxBlockSize) :
    ∃ r, run.ReadBy rc r := by
  obtain ⟨source, hopen⟩ := run.ofFile hcount hsize hlimit
  have hopened := run.opened hlimit source
  have hseries : (seriesIn c.annotations run.journal).length ≤ 2 ^ 32 := by
    rw [run.length_seriesIn]
    exact hcount
  refine ⟨_, hopen, hopened.descriptors, run.noted.2, ?_⟩
  intro d hd range
  exact hopened.records_named run.holds.sound hseries
    (Nat.lt_trans run.length_logBytes_lt hsize) hd range

/-- An index beyond the limit of the reader is an error of opening, although all blocks before it
are within the limit. -/
theorem ofFile_index_large (hsize : run.bytes.length < 2 ^ 64)
    (hlimit : ∀ b ∈ run.blocks, b.body.length ≤ rc.maxBlockSize) {index : Block}
    (hindex : index ∈ run.tail) (hlarge : rc.maxBlockSize < index.body.length) :
    Reader.ofFile run.bytes rc =
      .error (.format (.tooLarge index.body.length rc.maxBlockSize)) := by
  by_cases hdata : run.last.blockCount = 0
  · rw [(run.tail_of_no_data hdata).1] at hindex
    cases hindex
  · obtain ⟨htail, hoffset⟩ := run.tail_of_data hdata
    have hle := run.tail_le index hindex
    rw [htail, List.mem_singleton] at hindex
    subst hindex
    have htrailer : run.trailer.indexOffset =
        UInt64.ofNat (logBytes c.annotations run.journal).length := by
      rw [trailer, hoffset]
      rfl
    rw [run.bytes_eq, htail]
    exact Reader.ofFile_large (run.readable hlimit)
      (Nat.lt_trans run.length_logBytes_lt hsize) hle hlarge run.length_checksum htrailer

/-- Under one limit for writer and reader a sealed log whose file descriptor and series are within
the limit is read back if and only if its index, where it has one, is within the limit, too.
Otherwise opening it fails at the index. The bounds are those of the numbers of series, which have
32 bits, and of offsets, which have 64. -/
theorem readBy_iff_index_within (hsame : rc.maxBlockSize = c.maxBlockSize)
    (hfile : (fileBlock c.annotations).body.length ≤ c.maxBlockSize)
    (hseries : ∀ d ∈ declared run.journal,
      (Addition.series d).block.body.length ≤ c.maxBlockSize)
    (hcount : (declared run.journal).length ≤ 2 ^ 32) (hsize : run.bytes.length < 2 ^ 64) :
    ((∃ r, run.ReadBy rc r) ↔ ∀ index ∈ run.tail, index.body.length ≤ c.maxBlockSize) ∧
      ∀ index ∈ run.tail, c.maxBlockSize < index.body.length →
        Reader.ofFile run.bytes rc =
          .error (.format (.tooLarge index.body.length c.maxBlockSize)) := by
  have hblocks : ∀ b ∈ run.blocks, b.body.length ≤ rc.maxBlockSize := by
    rw [hsame]
    exact run.blocks_within hfile hseries
  have hrefused : ∀ index ∈ run.tail, c.maxBlockSize < index.body.length →
      Reader.ofFile run.bytes rc =
        .error (.format (.tooLarge index.body.length c.maxBlockSize)) := by
    intro index hindex hlarge
    rw [← hsame] at hlarge ⊢
    exact run.ofFile_index_large hsize hblocks hindex hlarge
  refine ⟨⟨?_, ?_⟩, hrefused⟩
  · rintro ⟨r, hr⟩ index hindex
    by_contra hlarge
    have hopens := hr.opens
    rw [hrefused index hindex (Nat.lt_of_not_le hlarge)] at hopens
    cases hopens
  · intro hindex
    apply run.readBy_of_within hcount hsize
    intro b hb
    rcases List.mem_append.1 hb with hb | hb
    · exact hblocks b hb
    · rw [hsame]
      exact hindex b hb

/-- A block whose index has as many bytes as the limit allows. -/
theorem readBy_index_at_limit :
    ∃ run : SealedRun { WriterConfig.default with maxBlockSize := 28 },
      run.calls = [.append (.ofType "a") 5 [] [1]] ∧
      (run.tail.map fun b => b.body.length) = [28] ∧
      ∃ r, run.ReadBy { ReaderConfig.default with maxBlockSize := 28 } r := by
  let c : WriterConfig := { WriterConfig.default with maxBlockSize := 28 }
  let calls : List Call := [.append (.ofType "a") 5 [] [1]]
  have hfacts : (sealedBy? c calls).map (fun o =>
      let journal := journalOf calls o.1
      ((declared journal).length, o.2.2.length,
        (declared journal).all fun d => decide ((Addition.series d).block.body.length ≤ 28),
        (indexPart (seriesIn .empty journal)).map fun b => b.body.length)) =
      some (1, 139, true, [28]) := by decide +kernel
  rw [Option.map_eq_some_iff] at hfacts
  obtain ⟨⟨answers, summary, bytes⟩, hsealed, hfacts⟩ := hfacts
  simp only [Prod.mk.injEq] at hfacts
  obtain ⟨hdeclared, hsize, hseries, hindex⟩ := hfacts
  obtain ⟨run, hcalls, rfl, rfl, rfl⟩ := SealedRun.exists_of_sealedBy? (by decide) hsealed
  have hjournal : run.journal = journalOf calls run.answers := by rw [Run.journal, hcalls]
  rw [← hjournal] at hdeclared hseries hindex
  have htail : (run.tail.map fun b => b.body.length) = [28] := hindex
  have hwithin : ∀ b ∈ run.tail, b.body.length ≤ 28 := by
    intro b hb
    have hmem : b.body.length ∈ run.tail.map fun b => b.body.length := List.mem_map_of_mem hb
    rw [htail, List.mem_singleton] at hmem
    exact Nat.le_of_eq hmem
  obtain ⟨hiff, _⟩ := @readBy_iff_index_within _ run { ReaderConfig.default with maxBlockSize := 28 }
    rfl (by decide +kernel) (fun d hd => of_decide_eq_true (List.all_eq_true.1 hseries d hd))
    (by omega) (by omega)
  exact ⟨run, hcalls, htail, hiff.2 hwithin⟩

/-- Both limits are 18 bytes, as many as the one series descriptor has, and the index has 28. -/
theorem not_readBy_index_beyond_limit :
    ∃ run : SealedRun { WriterConfig.default with maxBlockSize := 18 },
      run.calls = [.append (.ofType "a") 5 [] [1]] ∧
      (∀ b ∈ run.blocks, b.body.length ≤ 18) ∧
      Reader.ofFile run.bytes { ReaderConfig.default with maxBlockSize := 18 } =
        .error (.format (.tooLarge 28 18)) ∧
      ¬ ∃ r, run.ReadBy { ReaderConfig.default with maxBlockSize := 18 } r := by
  let c : WriterConfig := { WriterConfig.default with maxBlockSize := 18 }
  let calls : List Call := [.append (.ofType "a") 5 [] [1]]
  have hfacts : (sealedBy? c calls).map (fun o =>
      ((match Reader.ofFile o.2.2 { ReaderConfig.default with maxBlockSize := 18 } with
          | .error e => some e
          | .ok _ => none),
        (fileBlock .empty :: (journalOf calls o.1).map Addition.block).all
          fun b => decide (b.body.length ≤ 18))) =
      some (some (.format (.tooLarge 28 18)), true) := by decide +kernel
  rw [Option.map_eq_some_iff] at hfacts
  obtain ⟨⟨answers, summary, bytes⟩, hsealed, hfacts⟩ := hfacts
  simp only [Prod.mk.injEq] at hfacts
  obtain ⟨hopen, hblocks⟩ := hfacts
  obtain ⟨run, hcalls, rfl, rfl, rfl⟩ := SealedRun.exists_of_sealedBy? (by decide) hsealed
  have hjournal : run.journal = journalOf calls run.answers := by rw [Run.journal, hcalls]
  rw [← hjournal] at hblocks
  have herror : Reader.ofFile run.bytes { ReaderConfig.default with maxBlockSize := 18 } =
      .error (.format (.tooLarge 28 18)) := by
    cases hfile : Reader.ofFile run.bytes { ReaderConfig.default with maxBlockSize := 18 } with
    | error e =>
      rw [hfile] at hopen
      rw [Option.some.inj hopen]
    | ok r =>
      rw [hfile] at hopen
      cases hopen
  refine ⟨run, hcalls, fun b hb => of_decide_eq_true (List.all_eq_true.1 hblocks b hb), herror, ?_⟩
  rintro ⟨r, hr⟩
  have hopens := hr.opens
  rw [herror] at hopens
  cases hopens

end SealedRun

end SeriesLog
