import SeriesLog.Proofs.Reader.Open
import SeriesLog.Proofs.Reader.TimeRange

/-! # Reading a sealed log

What a sealed log opens to does not depend on where the places of its blocks are known from, and
every block of the journal is read back as it was written. -/
namespace SeriesLog

variable {annotations : Labels} {journal : List Addition}

theorem mem_recordsOf {offset : Nat} {r : DataRecord} (h : r ∈ recordsOf offset journal) :
    ∃ (before rest : List Addition) (d : DataDescriptor) (payload : Bytes),
      journal = before ++ .data d payload :: rest ∧
        r = ⟨d.series, d.timestamp, d.position, d.indexValues, payload,
          UInt64.ofNat (offset + span Addition.size before)⟩ := by
  induction journal generalizing offset with
  | nil => cases h
  | cons a journal ih =>
    rcases List.mem_append.1 h with h | h
    · cases a with
      | series d => cases h
      | data d payload =>
        simp only [Addition.record?, Option.toList_some, List.mem_singleton] at h
        exact ⟨[], journal, d, payload, rfl, h⟩
    · obtain ⟨before, rest, d, payload, rfl, hr⟩ := ih h
      refine ⟨a :: before, rest, d, payload, rfl, ?_⟩
      rw [span_cons, ← Nat.add_assoc]
      exact hr

theorem mem_recordsIn {r : DataRecord} (h : r ∈ recordsIn annotations journal) :
    ∃ (before rest : Bytes) (d : DataDescriptor) (payload : Bytes),
      Addition.data d payload ∈ journal ∧
        logBytes annotations journal = before ++ (Addition.data d payload).block.encode ++ rest ∧
        (opening annotations).length ≤ before.length ∧
        r = ⟨d.series, d.timestamp, d.position, d.indexValues, payload,
          UInt64.ofNat before.length⟩ := by
  obtain ⟨before, rest, d, payload, rfl, hr⟩ := mem_recordsOf h
  refine ⟨logBytes annotations before, rest.flatMap fun a => a.block.encode, d, payload,
    by simp, by simp [logBytes], ?_, ?_⟩
  · rw [length_logBytes]
    exact Nat.le_add_right _ _
  · rw [length_logBytes]
    exact hr

/-- The entries of a series are those of its blocks. -/
theorem entries_seriesIn (h : SoundIn annotations journal) {i : Nat} {s : SeriesState}
    (hs : (seriesIn annotations journal)[i]? = some s) :
    s.entries = ((recordsIn annotations journal).filter fun r => r.series.toNat = i).map
      DataRecord.entry := by
  have hentries := getElem?_entries_track h i
  rw [seriesIn] at hs
  rw [hs] at hentries
  simpa [recordsIn] using hentries

theorem length_descriptor_lt {offset : Nat} {found : List SeriesState}
    (h : Sound offset found journal) {d : DataDescriptor} {payload : Bytes}
    (hmem : Addition.data d payload ∈ journal) : d.encode.length < 2 ^ 32 := by
  induction journal generalizing offset found with
  | nil => cases hmem
  | cons a rest ih =>
    rcases List.mem_cons.1 hmem with rfl | hmem
    · have ha := h.1
      cases ha with
      | data hfound harity hsize => exact hsize
    · exact ih h.2.2 hmem

namespace Reader

theorem readBlock_append {before body rest : Bytes} {limit : Nat} {index : UInt32}
    {entry : IndexEntry} {block : DataBlock} (hmax : body.length ≤ maxBodySize)
    (hdecode : DataBlock.decode body = .ok block) (hoffset : entry.offset.toNat = before.length)
    (hindex : block.descriptor.series = index)
    (htime : block.descriptor.timestamp = entry.timestamp) :
    readBlock (before ++ (Block.mk .data body).encode ++ rest) limit index entry =
      if limit < body.length then .error (.format (.tooLarge body.length limit))
      else .ok ⟨index, entry.timestamp, block.descriptor.position, block.descriptor.indexValues,
        block.payload, entry.offset⟩ := by
  have hfile : (before ++ (Block.mk .data body).encode ++ rest).drop before.length =
      ((Block.mk .data body).header hmax).encode ++ (body ++ rest) := by
    rw [List.append_assoc, List.drop_left, Block.encode_eq _ hmax, List.append_assoc]
  have htotal : (before ++ (Block.mk .data body).encode ++ rest).length =
      before.length + headerSize + body.length + rest.length := by
    rw [List.length_append, List.length_append, Block.length_encode, Block.size, Nat.add_assoc,
      Nat.add_assoc, Nat.add_assoc, Nat.add_assoc]
  have hheader : ((Block.mk .data body).header hmax).totalSize = headerSize + body.length := rfl
  unfold readBlock
  simp only [hoffset, htotal]
  rw [if_neg (by omega), hfile, Source.ofBytes, Source.readHeader_append]
  dsimp only
  rw [if_neg (fun hne => hne rfl), hheader, if_neg (by omega)]
  by_cases hlarge : limit < body.length
  · have hread : (Source.mk (body ++ rest) none).readBody ((Block.mk .data body).header hmax).type
        ((Block.mk .data body).header hmax).size limit = .error (.tooLarge body.length limit) :=
      if_pos hlarge
    rw [hread, if_pos hlarge]
  · have hread : (Source.mk (body ++ rest) none).readBody ((Block.mk .data body).header hmax).type
        ((Block.mk .data body).header hmax).size limit = .ok (body, ⟨rest, none⟩) :=
      Source.readBody_header ⟨.data, body⟩ hmax (Nat.le_of_not_lt hlarge) rest
    rw [hread, if_neg hlarge]
    dsimp only
    rw [hdecode]
    dsimp only
    rw [if_neg (fun hne => hne.elim (fun h => h hindex) fun h => h htime), htime]

theorem readBlock_journal {limit : Nat} (hsound : SoundIn annotations journal)
    (hlimit : ∀ a ∈ journal, a.block.body.length ≤ limit)
    (hsize : (logBytes annotations journal).length < 2 ^ 64) (rest : Bytes) {r : DataRecord}
    (h : r ∈ recordsIn annotations journal) :
    readBlock (logBytes annotations journal ++ rest) limit r.series r.entry = .ok r := by
  obtain ⟨before, behind, d, payload, hmem, hbytes, _, rfl⟩ := mem_recordsIn h
  have hmax := hsound.body_le hmem
  have hbody := hlimit _ hmem
  have hdecode : DataBlock.decode (Addition.data d payload).block.body = .ok ⟨d, payload⟩ :=
    DataBlock.decode_sized (length_descriptor_lt hsound hmem) payload
  have hlength := congrArg List.length hbytes
  rw [List.length_append, List.length_append] at hlength
  have hoffset : (UInt64.ofNat before.length).toNat = before.length := by
    rw [UInt64.toNat_ofNat']
    exact Nat.mod_eq_of_lt (by omega)
  rw [hbytes, List.append_assoc]
  refine (readBlock_append hmax hdecode hoffset rfl rfl).trans ?_
  exact if_neg (Nat.not_lt.2 hbody)

theorem entryFault?_journal (hsound : SoundIn annotations journal)
    (hsize : (logBytes annotations journal).length < 2 ^ 64) :
    entryFault? (logBytes annotations journal).length
      ((seriesIn annotations journal).map SeriesState.toIndex) = none := by
  unfold entryFault?
  rw [List.findSome?_eq_none_iff]
  intro t ht
  obtain ⟨s, hs, rfl⟩ := List.mem_map.1 ht
  obtain ⟨i, hi⟩ := List.mem_iff_getElem?.1 hs
  rw [Option.map_eq_none_iff, List.find?_eq_none]
  intro e he
  simp only [SeriesState.toIndex, entries_seriesIn hsound hi] at he
  obtain ⟨r, hr, rfl⟩ := List.mem_map.1 he
  obtain ⟨before, behind, d, payload, _, hbytes, hopening, hrecord⟩ :=
    mem_recordsIn (List.mem_filter.1 hr).1
  have hlength := congrArg List.length hbytes
  rw [List.length_append, List.length_append, Block.length_encode] at hlength
  have hpos := (Addition.data d payload).size_pos
  have hmagic := length_opening annotations
  have hoffset : r.entry.offset.toNat = before.length := by
    rw [DataRecord.entry, hrecord, UInt64.toNat_ofNat']
    exact Nat.mod_eq_of_lt (by omega)
  rw [hoffset]
  simp only [Addition.size] at hpos
  simp only [decide_eq_true_eq]
  omega

theorem loadIndex_block {before body : Bytes} {trailer : Trailer} (limit : Nat)
    (hbefore : openingMagic.length ≤ before.length) (hmax : body.length ≤ maxBodySize)
    (hchecksum : trailer.checksum.length = checksumSize) :
    loadIndex (before ++ (Block.mk .descriptor body).encode ++ trailer.encode) before.length limit =
      match (Source.mk (body ++ trailer.encode) none).readBody .descriptor body.length limit with
      | .error e => .error (.format e)
      | .ok (body, _) =>
        match Descriptor.decode body with
        | .error e => .error (.format e)
        | .ok (.index index) =>
          match entryFault? before.length index.series with
          | some fault => .error (.corruptIndex fault)
          | none => .ok index.series
        | .ok d => .error (.corruptIndex (.notIndex before.length d.name)) := by
  have htrailer := Trailer.length_encode hchecksum
  have hlength : (before ++ (Block.mk .descriptor body).encode ++ trailer.encode).length -
      trailerSize = before.length + (headerSize + body.length) := by
    rw [List.length_append, List.length_append, htrailer, Block.length_encode, Nat.add_sub_cancel]
    rfl
  have hdrop : (before ++ (Block.mk .descriptor body).encode ++ trailer.encode).drop before.length =
      ((Block.mk .descriptor body).header hmax).encode ++ (body ++ trailer.encode) := by
    rw [List.append_assoc, List.drop_left, Block.encode_eq _ hmax, List.append_assoc]
  have htotal : ((Block.mk .descriptor body).header hmax).totalSize = headerSize + body.length :=
    rfl
  unfold loadIndex
  simp only [hlength]
  rw [if_neg (by omega), hdrop, Source.ofBytes, Source.readHeader_append]
  dsimp only
  rw [if_neg (fun hne => hne rfl), htotal, if_neg (Nat.lt_irrefl _)]
  rfl

theorem loadIndex_append {before body : Bytes} {trailer : Trailer} {limit : Nat}
    (hbefore : openingMagic.length ≤ before.length) (hmax : body.length ≤ maxBodySize)
    (hlimit : body.length ≤ limit) (hchecksum : trailer.checksum.length = checksumSize) :
    loadIndex (before ++ (Block.mk .descriptor body).encode ++ trailer.encode) before.length limit =
      match Descriptor.decode body with
      | .error e => .error (.format e)
      | .ok (.index index) =>
        match entryFault? before.length index.series with
        | some fault => .error (.corruptIndex fault)
        | none => .ok index.series
      | .ok d => .error (.corruptIndex (.notIndex before.length d.name)) := by
  have hread : (Source.mk (body ++ trailer.encode) none).readBody .descriptor body.length limit =
      .ok (body, ⟨trailer.encode, none⟩) :=
    Source.readBody_header ⟨.descriptor, body⟩ hmax hlimit trailer.encode
  rw [loadIndex_block limit hbefore hmax hchecksum, hread]

theorem loadIndex_large {before body : Bytes} {trailer : Trailer} {limit : Nat}
    (hbefore : openingMagic.length ≤ before.length) (hmax : body.length ≤ maxBodySize)
    (hlarge : limit < body.length) (hchecksum : trailer.checksum.length = checksumSize) :
    loadIndex (before ++ (Block.mk .descriptor body).encode ++ trailer.encode) before.length limit =
      .error (.format (.tooLarge body.length limit)) := by
  have hread : (Source.mk (body ++ trailer.encode) none).readBody .descriptor body.length limit =
      .error (.tooLarge body.length limit) := if_pos hlarge
  rw [loadIndex_block limit hbefore hmax hchecksum, hread]

def opened (file : Bytes) (c : ReaderConfig) (annotations : Labels) (journal : List Addition)
    (trailer : Trailer) (source : IndexSource) : Reader :=
  ⟨file, c, .ofAnnotations annotations, some trailer, source,
    (seriesIn annotations journal).map fun s => s.toIndex.timeline, false⟩

/-- A scan of a log takes the first series of every number. -/
def openedByScan (file : Bytes) (c : ReaderConfig) (annotations : Labels)
    (journal : List Addition) (trailer : Trailer) (reason : ScanReason) : Reader :=
  { opened file c annotations journal trailer (.scan reason) with
    series := ((seriesIn annotations journal).take (2 ^ 32)).map fun s => s.toIndex.timeline }

theorem openedByScan_eq_opened (hcount : (seriesIn annotations journal).length ≤ 2 ^ 32)
    (file : Bytes) (c : ReaderConfig) (trailer : Trailer) (reason : ScanReason) :
    openedByScan file c annotations journal trailer reason =
      opened file c annotations journal trailer (.scan reason) := by
  rw [openedByScan, List.take_of_length_le hcount]
  rfl

theorem length_openedByScan (file : Bytes) (c : ReaderConfig) (annotations : Labels)
    (journal : List Addition) (trailer : Trailer) (reason : ScanReason) :
    (openedByScan file c annotations journal trailer reason).series.length =
      min (2 ^ 32) (seriesIn annotations journal).length := by
  simp [openedByScan]

variable {c : ReaderConfig} {trailer : Trailer}

theorem ofFile_sealed (hle : (fileBlock annotations).body.length ≤ maxBodySize)
    (hlimit : (fileBlock annotations).body.length ≤ c.maxBlockSize) {tail : List Block}
    (hchecksum : trailer.checksum.length = checksumSize) :
    ofFile (sealedBytes annotations journal tail trailer) c =
      (locate (sealedBytes annotations journal tail trailer) c (some trailer)).map
        fun (source, series, torn) => ⟨sealedBytes annotations journal tail trailer, c,
          .ofAnnotations annotations, some trailer, source, series.map SeriesIndex.timeline,
          torn⟩ := by
  have hopening := length_opening annotations
  have hdescriptor : readFileDescriptor (sealedBytes annotations journal tail trailer)
      c.maxBlockSize = .ok (.ofAnnotations annotations) := by
    rw [sealedBytes, logBytes]
    simp only [List.append_assoc]
    exact readFileDescriptor_opening hle hlimit _
  have htrailer : readTrailer? (sealedBytes annotations journal tail trailer) = some trailer := by
    rw [sealedBytes]
    apply readTrailer?_append hchecksum
    rw [List.length_append, length_logBytes]
    omega
  unfold ofFile
  simp only [hdescriptor, htrailer]

theorem ofFile_of_locate (h : Readable annotations journal c.maxBlockSize) {tail : List Block}
    (hchecksum : trailer.checksum.length = checksumSize) {source : IndexSource}
    {found : List SeriesState}
    (hlocate : locate (sealedBytes annotations journal tail trailer) c (some trailer) =
      .ok (source, found.map SeriesState.toIndex, false)) :
    ofFile (sealedBytes annotations journal tail trailer) c =
      .ok { opened (sealedBytes annotations journal tail trailer) c annotations journal trailer
        source with series := found.map fun s => s.toIndex.timeline } := by
  rw [ofFile_sealed h.file_le h.file_limit hchecksum, hlocate]
  simp only [Except.map, opened, List.map_map]
  rfl

theorem ofFile_noIndex (h : Readable annotations journal c.maxBlockSize)
    (tail : List (Block × BlockContent)) (htail : Scan.ReadsAll (c.scan false false) tail)
    (hinert : ∀ p ∈ tail, p.2.Inert)
    (hchecksum : trailer.checksum.length = checksumSize) (hoffset : trailer.indexOffset = 0) :
    ofFile (sealedBytes annotations journal (tail.map (·.1)) trailer) c =
      .ok (openedByScan (sealedBytes annotations journal (tail.map (·.1)) trailer) c annotations
        journal trailer .noIndex) := by
  apply ofFile_of_locate h hchecksum
  have hscan := scanSeries_sealed false h htail hinert hchecksum
  unfold locate
  dsimp only
  rw [if_pos hoffset]
  have hskip : decide (ScanReason.noIndex = ScanReason.unreadableIndex) = false := rfl
  rw [hskip, hscan]
  rfl

theorem loadIndex_sealed (annotations : Labels) (journal : List Addition) {body : Bytes}
    (hmax : body.length ≤ maxBodySize)
    (hlimit : body.length ≤ c.maxBlockSize) (hchecksum : trailer.checksum.length = checksumSize) :
    loadIndex (sealedBytes annotations journal [⟨.descriptor, body⟩] trailer)
        (logBytes annotations journal).length c.maxBlockSize =
      match Descriptor.decode body with
      | .error e => .error (.format e)
      | .ok (.index index) =>
        match entryFault? (logBytes annotations journal).length index.series with
        | some fault => .error (.corruptIndex fault)
        | none => .ok index.series
      | .ok d =>
        .error (.corruptIndex (.notIndex (logBytes annotations journal).length d.name)) := by
  rw [sealedBytes, List.flatMap_singleton]
  apply loadIndex_append _ hmax hlimit hchecksum
  rw [length_logBytes, length_opening]
  omega

theorem offset_ne_zero (annotations : Labels) (journal : List Addition)
    (hsize : (logBytes annotations journal).length < 2 ^ 64) :
    (UInt64.ofNat (logBytes annotations journal).length).toNat =
        (logBytes annotations journal).length ∧
      UInt64.ofNat (logBytes annotations journal).length ≠ 0 := by
  have hvalue : (UInt64.ofNat (logBytes annotations journal).length).toNat =
      (logBytes annotations journal).length := by
    rw [UInt64.toNat_ofNat']
    exact Nat.mod_eq_of_lt (by omega)
  refine ⟨hvalue, ?_⟩
  intro hzero
  rw [hzero, length_logBytes, length_opening] at hvalue
  have hpos := (fileBlock annotations).size_pos
  simp only [UInt64.toNat_zero] at hvalue
  omega

theorem ofFile_index (h : Readable annotations journal c.maxBlockSize)
    (hcount : (seriesIn annotations journal).length ≤ 2 ^ 32)
    (hsize : (logBytes annotations journal).length < 2 ^ 64)
    (hmax : (indexBlock (seriesIn annotations journal)).body.length ≤ maxBodySize)
    (hlimit : (indexBlock (seriesIn annotations journal)).body.length ≤ c.maxBlockSize)
    (hchecksum : trailer.checksum.length = checksumSize)
    (hoffset : trailer.indexOffset = UInt64.ofNat (logBytes annotations journal).length) :
    ofFile (sealedBytes annotations journal [indexBlock (seriesIn annotations journal)] trailer) c =
      .ok (opened (sealedBytes annotations journal [indexBlock (seriesIn annotations journal)]
        trailer) c annotations journal trailer
        (.fileIndex (UInt64.ofNat (logBytes annotations journal).length))) := by
  apply ofFile_of_locate h hchecksum
  obtain ⟨hvalue, hne⟩ := offset_ne_zero annotations journal hsize
  have hdecode := h.decode_indexBlock hcount hmax
  have hload := loadIndex_sealed annotations journal hmax hlimit hchecksum
  simp only [hdecode, entryFault?_journal h.sound hsize] at hload
  unfold locate
  dsimp only
  rw [hoffset, if_neg hne, hvalue]
  simp only [indexBlock] at hload ⊢
  rw [hload]

theorem ofFile_unreadable (h : Readable annotations journal c.maxBlockSize)
    (hcount : (seriesIn annotations journal).length ≤ 2 ^ 32)
    (hsize : (logBytes annotations journal).length < 2 ^ 64) {damaged : Bytes} {e : FormatError}
    (hdamaged : Descriptor.decode damaged = .error e) (hmax : damaged.length ≤ maxBodySize)
    (hlimit : damaged.length ≤ c.maxBlockSize)
    (hchecksum : trailer.checksum.length = checksumSize)
    (hoffset : trailer.indexOffset = UInt64.ofNat (logBytes annotations journal).length) :
    ofFile (sealedBytes annotations journal [⟨.descriptor, damaged⟩] trailer) c =
      .ok (opened (sealedBytes annotations journal [⟨.descriptor, damaged⟩] trailer) c annotations
        journal trailer (.scan .unreadableIndex)) := by
  rw [← openedByScan_eq_opened hcount]
  apply ofFile_of_locate h hchecksum
  obtain ⟨hvalue, hne⟩ := offset_ne_zero annotations journal hsize
  have hload := loadIndex_sealed annotations journal hmax hlimit hchecksum
  simp only [hdamaged] at hload
  have htail : Scan.ReadsAll (c.scan false true)
      [(⟨.descriptor, damaged⟩, .undecodable e)] := by
    intro p hp
    rw [List.mem_singleton.1 hp]
    exact ⟨.undecodable hlimit hdamaged rfl, hmax⟩
  have hinert : ∀ p ∈ [((⟨.descriptor, damaged⟩ : Block), BlockContent.undecodable e)],
      p.2.Inert := by
    intro p hp
    rw [List.mem_singleton.1 hp]
    trivial
  have hscan := scanSeries_sealed true h htail hinert hchecksum
  unfold locate
  dsimp only
  rw [hoffset, if_neg hne, hvalue, hload]
  have hskip : decide (ScanReason.unreadableIndex = ScanReason.unreadableIndex) = true := rfl
  dsimp only
  rw [hskip]
  simp only [List.map_cons, List.map_nil] at hscan
  rw [hscan]
  rfl

end Reader

end SeriesLog
