import SeriesLog.Proofs.Log.Layout

/-! # Scans of logs

A scan of a sealed log yields its file descriptor, its journal, the blocks before the trailer and
the trailer. -/
namespace SeriesLog

def logBlocks (annotations : Labels) (keep : Bool) (journal : List Addition) :
    List (Block × BlockContent) :=
  (fileBlock annotations, .descriptor (.file (.ofAnnotations annotations))) ::
    blocksOf keep journal

/-- Blocks that describe no series and hold no data. -/
def BlockContent.Inert : BlockContent → Prop
  | .descriptor (.series _) | .data _ _ => False
  | _ => True

variable {c : ScanConfig} {annotations : Labels} {journal : List Addition}

/-- A log whose blocks a reader with some limit reads. -/
structure Readable (annotations : Labels) (journal : List Addition) (limit : Nat) : Prop where
  sound : SoundIn annotations journal
  typed : ∀ a ∈ journal, a.Typed
  file_le : (fileBlock annotations).body.length ≤ maxBodySize
  file_limit : (fileBlock annotations).body.length ≤ limit
  limit : ∀ a ∈ journal, a.block.body.length ≤ limit

theorem decode_fileBlock (h : (fileBlock annotations).body.length ≤ maxBodySize) :
    Descriptor.decode (fileBlock annotations).body = .ok (.file (.ofAnnotations annotations)) := by
  apply Descriptor.decode_encode _ (valid_fileBlock annotations)
  simp only [fileBlock, maxBodySize] at h
  omega

theorem Readable.decode_indexBlock {limit : Nat} (h : Readable annotations journal limit)
    (hcount : (seriesIn annotations journal).length ≤ 2 ^ 32)
    (hmax : (indexBlock (seriesIn annotations journal)).body.length ≤ maxBodySize) :
    Descriptor.decode (indexBlock (seriesIn annotations journal)).body =
      .ok (.index ⟨(seriesIn annotations journal).map SeriesState.toIndex⟩) := by
  have hvalid : (Descriptor.index ⟨(seriesIn annotations journal).map SeriesState.toIndex⟩).Valid :=
    (Orderly.nil.track h.sound).valid_index (typed_track h.typed) hcount
  apply Descriptor.decode_encode _ hvalid
  simp only [indexBlock, maxBodySize] at hmax
  omega

theorem Readable.readsAll (h : Readable annotations journal c.maxBlockSize) :
    Scan.ReadsAll c (logBlocks annotations c.payloads journal) := by
  intro p hp
  rcases List.mem_cons.1 hp with rfl | hp
  · exact ⟨.descriptor h.file_limit (decode_fileBlock h.file_le), h.file_le⟩
  · exact readsAll_blocksOf h.sound h.typed h.limit p hp

theorem logBytes_eq (annotations : Labels) (keep : Bool) (journal : List Addition) :
    logBytes annotations journal =
      openingMagic ++ (logBlocks annotations keep journal).flatMap fun p => p.1.encode := by
  rw [logBytes, opening, logBlocks, List.flatMap_cons, flatMap_blocksOf, List.append_assoc]

theorem map_logBlocks (annotations : Labels) (keep : Bool) (journal : List Addition) :
    (logBlocks annotations keep journal).map (·.1) =
      fileBlock annotations :: journal.map Addition.block := by
  rw [logBlocks, List.map_cons, blocksOf, List.map_map]
  rfl

theorem span_logBlocks (annotations : Labels) (keep : Bool) (journal : List Addition) :
    openingMagic.length + span (fun p => p.1.size) (logBlocks annotations keep journal) =
      (logBytes annotations journal).length := by
  rw [length_logBytes, length_opening, logBlocks, span_cons, span_blocksOf, Nat.add_assoc]

/-- In front of a cut behind the file descriptor are that descriptor, the additions whose blocks are
whole, and maybe some of what follows the journal. -/
theorem within_logBlocks (keep : Bool) (more : List (Block × BlockContent)) {cut : Nat}
    (hopening : (opening annotations).length ≤ cut) :
    within (fun p => p.1.size) openingMagic.length cut (logBlocks annotations keep journal ++ more) =
      (fileBlock annotations, .descriptor (.file (.ofAnnotations annotations))) ::
        (blocksOf keep (within Addition.size (opening annotations).length cut journal) ++
          within (fun p => p.1.size) ((opening annotations).length + span Addition.size journal) cut
            more) := by
  have hfile : openingMagic.length + (fileBlock annotations).size =
      (opening annotations).length := (length_opening annotations).symm
  have hjournal : within (fun p => p.1.size) (opening annotations).length cut
      (blocksOf keep journal) =
        blocksOf keep (within Addition.size (opening annotations).length cut journal) :=
    within_map _ _
  rw [logBlocks, List.cons_append, within_cons_of_le _ (hfile ▸ hopening), hfile, within_append,
    hjournal, span_blocksOf]

theorem readsAll_append {bs more : List (Block × BlockContent)} (h : Scan.ReadsAll c bs)
    (k : Scan.ReadsAll c more) : Scan.ReadsAll c (bs ++ more) := by
  intro p hp
  rcases List.mem_append.1 hp with hp | hp
  · exact h p hp
  · exact k p hp

theorem Scan.placed_append (offset : Nat) (bs more : List (Block × BlockContent)) :
    placed offset (bs ++ more) =
      placed offset bs ++ placed (offset + span (fun p => p.1.size) bs) more := by
  induction bs generalizing offset with
  | nil => rfl
  | cons p bs ih => simp only [List.cons_append, placed, ih, span_cons, Nat.add_assoc]

theorem scan_sealed (h : Readable annotations journal c.maxBlockSize)
    {tail : List (Block × BlockContent)} (htail : Scan.ReadsAll c tail) {trailer : Trailer}
    (hchecksum : trailer.checksum.length = checksumSize) :
    ∃ stop, (Source.ofBytes (sealedBytes annotations journal (tail.map (·.1)) trailer)).scan c =
      ⟨Scan.placed openingMagic.length (logBlocks annotations c.payloads journal) ++
          Scan.placed (logBytes annotations journal).length tail ++ [.trailer stop trailer],
        .sealed, stop + trailerSize⟩ := by
  refine ⟨(logBytes annotations journal).length + span (fun p => p.1.size) tail, ?_⟩
  have hbytes : sealedBytes annotations journal (tail.map (·.1)) trailer =
      openingMagic ++ (((logBlocks annotations c.payloads journal ++ tail).flatMap
        fun p => p.1.encode) ++ (trailer.encode ++ [])) := by
    rw [sealedBytes, logBytes_eq annotations c.payloads, List.flatMap_map, List.flatMap_append]
    simp only [List.append_assoc, List.append_nil]
  rw [hbytes, Source.ofBytes, scan_magic_append,
    Scan.blocks_append (readsAll_append h.readsAll htail),
    Scan.blocks_of_trailer (Scan.step_trailer_append hchecksum []), Scan.placed_append,
    span_append, ← Nat.add_assoc, span_logBlocks]
  rfl

end SeriesLog
