import SeriesLog.Proofs.Reader.Query
import SeriesLog.Proofs.Writer.Runs

/-! # The index as an optimization

A sealed log with data whose index is not referred to, or does not decode, is read by a scan. It
answers every query as the log with its index does. -/
namespace SeriesLog

def overwrite (bytes : Bytes) (offset : Nat) (patch : Bytes) : Bytes :=
  bytes.take offset ++ patch ++ bytes.drop (offset + patch.length)

/-- A sealed log with 0 for the offset of its index, which follows the header of the trailer. -/
def withoutIndexOffset (file : Bytes) : Bytes :=
  overwrite file (file.length - (trailerSize - headerSize)) (Bytes.littleEndian 8 0)

/-- A sealed log with other bytes for the body of its index. -/
def withIndexBody (file : Bytes) (indexOffset : Nat) (body : Bytes) : Bytes :=
  overwrite file (indexOffset + headerSize) body

theorem overwrite_append (before after : Bytes) {middle patch : Bytes}
    (h : patch.length = middle.length) :
    overwrite (before ++ middle ++ after) before.length patch = before ++ patch ++ after := by
  have hend : before.length + patch.length = (before ++ middle).length := by
    rw [List.length_append, h]
  rw [overwrite, hend, List.drop_left, List.append_assoc before middle after, List.take_left]

variable {annotations : Labels} {journal : List Addition} {trailer : Trailer}

theorem withoutIndexOffset_sealed (hchecksum : trailer.checksum.length = checksumSize)
    (tail : List Block) :
    withoutIndexOffset (sealedBytes annotations journal tail trailer) =
      sealedBytes annotations journal tail { trailer with indexOffset := 0 } := by
  have hsplit : ∀ offset : UInt64,
      sealedBytes annotations journal tail { trailer with indexOffset := offset } =
        (logBytes annotations journal ++ tail.flatMap Block.encode ++
          (Header.mk .trailer trailerDeclaredSize (by decide)).encode) ++
        Bytes.littleEndian 8 offset.toNat ++ (trailer.checksum ++ closingMagic) := by
    intro offset
    simp only [sealedBytes, Trailer.encode, List.append_assoc]
  have hlength := length_sealedBytes annotations journal tail hchecksum
  have hbefore : (logBytes annotations journal ++ tail.flatMap Block.encode ++
      (Header.mk .trailer trailerDeclaredSize (by decide)).encode).length =
        (sealedBytes annotations journal tail trailer).length - (trailerSize - headerSize) := by
    have hspan : (tail.flatMap Block.encode).length = span Block.size tail :=
      length_flatMap_encode (fun b => b) tail
    rw [hlength, List.length_append, List.length_append, Header.length_encode, hspan]
    simp only [trailerSize, headerSize]
    omega
  have hpatch : (Bytes.littleEndian 8 0).length =
      (Bytes.littleEndian 8 trailer.indexOffset.toNat).length := by
    rw [Bytes.length_littleEndian, Bytes.length_littleEndian]
  rw [withoutIndexOffset, ← hbefore, hsplit trailer.indexOffset, overwrite_append _ _ hpatch,
    hsplit 0]
  rfl

theorem withIndexBody_sealed {body damaged : Bytes} (h : damaged.length = body.length) :
    withIndexBody (sealedBytes annotations journal [⟨.descriptor, body⟩] trailer)
        (logBytes annotations journal).length damaged =
      sealedBytes annotations journal [⟨.descriptor, damaged⟩] trailer := by
  have hsplit : ∀ part : Bytes, part.length = body.length →
      sealedBytes annotations journal [⟨.descriptor, part⟩] trailer =
        (logBytes annotations journal ++
          (BlockType.descriptor.code :: Bytes.littleEndian 7 body.length)) ++ part ++
          trailer.encode := by
    intro part hpart
    simp only [sealedBytes, List.flatMap_singleton, Block.encode, hpart, List.append_assoc]
  have hbefore : (logBytes annotations journal ++
      (BlockType.descriptor.code :: Bytes.littleEndian 7 body.length)).length =
        (logBytes annotations journal).length + headerSize := by
    rw [List.length_append, List.length_cons, Bytes.length_littleEndian]
    rfl
  rw [withIndexBody, ← hbefore, hsplit body rfl, overwrite_append _ _ h, hsplit damaged h]

namespace SealedRun

variable {c : WriterConfig} (run : SealedRun c)

theorem blockCount_ne_zero (h : run.answers.filterMap location? ≠ []) :
    run.last.blockCount ≠ 0 := by
  have hplaces := run.noted.2
  have hrecords : recordsIn c.annotations run.journal ≠ [] := by
    intro hnil
    rw [hnil, List.map_nil] at hplaces
    exact h (List.map_eq_nil_iff.1 hplaces.symm)
  obtain ⟨r, hr⟩ := List.exists_mem_of_ne_nil _ hrecords
  have hlt : r.series.toNat < (seriesIn c.annotations run.journal).length :=
    series_lt_of_mem_recordsOf run.holds.sound hr
  have hs := List.getElem?_eq_getElem hlt
  have hentries := entries_seriesIn run.holds.sound hs
  have hmem : r.entry ∈ (seriesIn c.annotations run.journal)[r.series.toNat].entries := by
    rw [hentries]
    exact List.mem_map_of_mem (List.mem_filter.2 ⟨hr, decide_eq_true rfl⟩)
  intro hzero
  rw [Writer.blockCount, run.holds.series, List.length_eq_zero_iff,
    List.flatMap_eq_nil_iff] at hzero
  have hnone := hzero _ (List.mem_of_getElem? hs)
  rw [SeriesState.entries, hnone] at hmem
  cases hmem

variable {run : SealedRun c} {rc : ReaderConfig}

theorem Indexed.ofFile (h : run.Indexed rc.maxBlockSize) :
    Reader.ofFile run.bytes rc = .ok (Reader.opened run.bytes rc c.annotations run.journal
      run.trailer (.fileIndex (UInt64.ofNat run.summary.indexOffset))) := by
  rw [h.bytes, h.offset]
  exact Reader.ofFile_index h.readable h.count h.size h.max h.limit run.length_checksum
    h.trailer_offset

theorem Indexed.ofFile_withoutIndexOffset (h : run.Indexed rc.maxBlockSize) :
    Reader.ofFile (withoutIndexOffset run.bytes) rc =
      .ok (Reader.opened (withoutIndexOffset run.bytes) rc c.annotations run.journal
        { run.trailer with indexOffset := 0 } (.scan .noIndex)) := by
  have hdecode := h.readable.decode_indexBlock h.count h.max
  let content : BlockContent :=
    .descriptor (.index ⟨(seriesIn c.annotations run.journal).map SeriesState.toIndex⟩)
  have hreads : Scan.ReadsAll (rc.scan false false)
      [(indexBlock (seriesIn c.annotations run.journal), content)] := by
    intro p hp
    rw [List.mem_singleton.1 hp]
    exact ⟨.descriptor h.limit hdecode, h.max⟩
  have hinert : ∀ p ∈ [(indexBlock (seriesIn c.annotations run.journal), content)],
      p.2.Inert := by
    intro p hp
    rw [List.mem_singleton.1 hp]
    trivial
  have hchecksum : ({ run.trailer with indexOffset := 0 } : Trailer).checksum.length =
      checksumSize := run.length_checksum
  have hopen := Reader.ofFile_noIndex h.readable _ hreads hinert hchecksum rfl
  rw [List.map_singleton, Reader.openedByScan_eq_opened h.count] at hopen
  rw [h.bytes, withoutIndexOffset_sealed run.length_checksum]
  exact hopen

theorem Indexed.ofFile_withIndexBody (h : run.Indexed rc.maxBlockSize) {damaged : Bytes}
    (hlength : damaged.length = (indexBlock (seriesIn c.annotations run.journal)).body.length)
    {e : FormatError} (hdamaged : Descriptor.decode damaged = .error e) :
    Reader.ofFile (withIndexBody run.bytes run.summary.indexOffset damaged) rc =
      .ok (Reader.opened (withIndexBody run.bytes run.summary.indexOffset damaged) rc
        c.annotations run.journal run.trailer (.scan .unreadableIndex)) := by
  have hmax := h.max
  have hlimit := h.limit
  have hpatched : withIndexBody run.bytes run.summary.indexOffset damaged =
      sealedBytes c.annotations run.journal [⟨.descriptor, damaged⟩] run.trailer := by
    rw [h.bytes, h.offset]
    exact withIndexBody_sealed hlength
  rw [hpatched]
  exact Reader.ofFile_unreadable h.readable h.count h.size hdamaged (by omega) (by omega)
    run.length_checksum h.trailer_offset

end SealedRun

/-- What the readers of a log and of its two versions without a usable index have in common. -/
structure Agree (r scanned salvaged : Reader) : Prop where
  whole : r.torn = false ∧ scanned.torn = false ∧ salvaged.torn = false
  scanned_series : scanned.series = r.series
  salvaged_series : salvaged.series = r.series
  scanned_records : ∀ (selector : Selector) (range : TimeRange),
    scanned.records selector range = r.records selector range
  salvaged_records : ∀ (selector : Selector) (range : TimeRange),
    salvaged.records selector range = r.records selector range

/-- A sealed log with data, the same log whose trailer refers to no index, and the same log with
other bytes, which do not decode, in the place of the index all open. They know their series from
different sources and agree in all that they answer. The bounds are those of the numbers of series,
which have 32 bits, and of offsets, which have 64. -/
theorem index_only_optimizes {c : WriterConfig} (run : SealedRun c) (rc : ReaderConfig)
    (hdata : run.answers.filterMap location? ≠ [])
    (hcount : (declared run.journal).length ≤ 2 ^ 32) (hsize : run.bytes.length < 2 ^ 64)
    (hlimit : ∀ b ∈ run.blocks ++ run.tail, b.body.length ≤ rc.maxBlockSize) (damaged : Bytes)
    (hlength : run.summary.indexOffset + headerSize + damaged.length + trailerSize =
      run.bytes.length)
    (hdamaged : ∀ d, Descriptor.decode damaged ≠ .ok d) :
    ∃ r scanned salvaged,
      Reader.ofFile run.bytes rc = .ok r ∧
        r.source = .fileIndex (UInt64.ofNat run.summary.indexOffset) ∧
      Reader.ofFile (withoutIndexOffset run.bytes) rc = .ok scanned ∧
        scanned.source = .scan .noIndex ∧
      Reader.ofFile (withIndexBody run.bytes run.summary.indexOffset damaged) rc = .ok salvaged ∧
        salvaged.source = .scan .unreadableIndex ∧
      Agree r scanned salvaged := by
  have h := run.indexed (run.blockCount_ne_zero hdata) hcount hsize hlimit
  have hbody : damaged.length =
      (indexBlock (seriesIn c.annotations run.journal)).body.length := by
    rw [h.bytes, length_sealedBytes _ _ _ run.length_checksum, h.offset] at hlength
    simp only [span_cons, span_nil, Block.size] at hlength
    omega
  obtain ⟨e, herror⟩ : ∃ e, Descriptor.decode damaged = .error e := by
    cases hdecode : Descriptor.decode damaged with
    | error e => exact ⟨e, rfl⟩
    | ok d => exact absurd hdecode (hdamaged d)
  refine ⟨_, _, _, h.ofFile, rfl, h.ofFile_withoutIndexOffset, rfl,
    h.ofFile_withIndexBody hbody herror, rfl, ?_⟩
  -- the files have the same journal and differ behind it
  have hopened : ∀ tail trailer source file,
      file = sealedBytes c.annotations run.journal tail trailer →
      (Reader.opened file rc c.annotations run.journal trailer source).Opened c.annotations
        run.journal := by
    intro tail trailer source file hfile
    rw [hfile]
    exact Reader.opened_sealed h.readable tail trailer source
  have hfirst := hopened _ _ (.fileIndex (UInt64.ofNat run.summary.indexOffset)) _ h.bytes
  constructor
  · exact ⟨rfl, rfl, rfl⟩
  · rfl
  · rfl
  · intro selector range
    refine Reader.records_agree h.readable.sound h.count h.size
      (hopened [indexBlock (seriesIn c.annotations run.journal)] _ _ _ ?_) hfirst selector range
    rw [h.bytes]
    exact withoutIndexOffset_sealed run.length_checksum _
  · intro selector range
    refine Reader.records_agree h.readable.sound h.count h.size
      (hopened [⟨.descriptor, damaged⟩] _ _ _ ?_) hfirst selector range
    rw [h.bytes, h.offset]
    exact withIndexBody_sealed hbody

/-- Two series, and an index overwritten with bytes that begin no message. -/
theorem index_only_optimizes_two_series :
    ∃ run : SealedRun .default,
      run.calls = [.append (.ofType "a") 5 [] [1], .append (.ofType "b") 5 [] [2]] ∧
      ∃ r scanned salvaged,
        Reader.ofFile run.bytes .default = .ok r ∧
        Reader.ofFile (withoutIndexOffset run.bytes) .default = .ok scanned ∧
        Reader.ofFile (withIndexBody run.bytes run.summary.indexOffset (List.replicate 55 255))
          .default = .ok salvaged ∧
        Agree r scanned salvaged := by
  let calls : List Call := [.append (.ofType "a") 5 [] [1], .append (.ofType "b") 5 [] [2]]
  have hfacts : (sealedBy? .default calls).map (fun o =>
      let journal := journalOf calls o.1
      ((o.1.filterMap location?).length, (declared journal).length, o.2.1.indexOffset, o.2.2.length,
        (fileBlock .empty :: journal.map Addition.block ++ indexPart (seriesIn .empty journal)).all
          fun b => decide (b.body.length ≤ 2 ^ 30))) =
      some (2, 2, 107, 210, true) := by decide +kernel
  have hdamaged : (Descriptor.decode (List.replicate 55 255)).toOption = none := by decide +kernel
  rw [Option.map_eq_some_iff] at hfacts
  obtain ⟨⟨answers, summary, bytes⟩, hsealed, hfacts⟩ := hfacts
  simp only [Prod.mk.injEq] at hfacts
  obtain ⟨hlocated, hdeclared, hoffset, hsize, hblocks⟩ := hfacts
  obtain ⟨run, hcalls, rfl, rfl, rfl⟩ := SealedRun.exists_of_sealedBy? (by decide) hsealed
  have hjournal : run.journal = journalOf calls run.answers := by rw [Run.journal, hcalls]
  rw [← hjournal] at hdeclared hblocks
  have hdata : run.answers.filterMap location? ≠ [] := by
    intro hnil
    rw [hnil] at hlocated
    cases hlocated
  obtain ⟨r, scanned, salvaged, hopen, _, hscan, _, hsalvage, _, hagree⟩ :=
    index_only_optimizes run .default hdata (by omega) (by omega)
      (fun b hb => of_decide_eq_true (List.all_eq_true.1 hblocks b hb)) (List.replicate 55 255)
      (by rw [hoffset, hsize]; decide)
      (fun d hd => by rw [hd] at hdamaged; cases hdamaged)
  exact ⟨run, hcalls, r, scanned, salvaged, hopen, hscan, hsalvage, hagree⟩

end SeriesLog
