import SeriesLog.Proofs.Log.Journal

/-! # Layout of a log

A log is its opening and the blocks of its journal. Sealing it adds the index, if there is data,
and the trailer. -/
namespace SeriesLog

def fileBlock (annotations : Labels) : Block :=
  ⟨.descriptor, Descriptor.encode (.file (.ofAnnotations annotations))⟩

def opening (annotations : Labels) : Bytes := openingMagic ++ (fileBlock annotations).encode

def indexBlock (series : List SeriesState) : Block :=
  ⟨.descriptor, Descriptor.encode (.index ⟨series.map SeriesState.toIndex⟩)⟩

def logBytes (annotations : Labels) (journal : List Addition) : Bytes :=
  opening annotations ++ journal.flatMap fun a => a.block.encode

def sealedBytes (annotations : Labels) (journal : List Addition) (tail : List Block)
    (trailer : Trailer) : Bytes :=
  logBytes annotations journal ++ tail.flatMap Block.encode ++ trailer.encode

def seriesIn (annotations : Labels) (journal : List Addition) : List SeriesState :=
  track (opening annotations).length [] journal

def recordsIn (annotations : Labels) (journal : List Addition) : List DataRecord :=
  recordsOf (opening annotations).length journal

def SoundIn (annotations : Labels) (journal : List Addition) : Prop :=
  Sound (opening annotations).length [] journal

def indexPart (series : List SeriesState) : List Block :=
  if (series.flatMap fun s => s.recorded).length = 0 then [] else [indexBlock series]

def trailerAfter (before : Bytes) (indexOffset : Nat) : Trailer :=
  ⟨UInt64.ofNat indexOffset,
    sha1 (before ++ Writer.trailerHeader.encode ++ Bytes.littleEndian 8 indexOffset)⟩

theorem eq_of_mem_indexPart {series : List SeriesState} {b : Block} (h : b ∈ indexPart series) :
    b = indexBlock series := by
  unfold indexPart at h
  split at h
  · cases h
  · exact List.mem_singleton.1 h

theorem length_opening (annotations : Labels) :
    (opening annotations).length = openingMagic.length + (fileBlock annotations).size := by
  rw [opening, List.length_append, Block.length_encode]

theorem length_logBytes (annotations : Labels) (journal : List Addition) :
    (logBytes annotations journal).length =
      (opening annotations).length + span Addition.size journal := by
  rw [logBytes, List.length_append, length_flatMap_encode]
  rfl

theorem logBytes_append (annotations : Labels) (journal : List Addition) (a : Addition) :
    logBytes annotations (journal ++ [a]) = logBytes annotations journal ++ a.block.encode := by
  simp [logBytes]

theorem length_sealedBytes (annotations : Labels) (journal : List Addition) (tail : List Block)
    {trailer : Trailer} (h : trailer.checksum.length = checksumSize) :
    (sealedBytes annotations journal tail trailer).length =
      (logBytes annotations journal).length + span Block.size tail + trailerSize := by
  rw [sealedBytes, List.length_append, List.length_append, length_flatMap_encode fun b => b,
    Trailer.length_encode h]

theorem littleEndian_mod (width n : Nat) :
    Bytes.littleEndian width (n % 256 ^ width) = Bytes.littleEndian width n := by
  induction width generalizing n with
  | zero => rfl
  | succ width ih =>
    have hhead : UInt8.ofNat (n % 256 ^ (width + 1)) = UInt8.ofNat n := by
      apply UInt8.toNat_inj.1
      rw [UInt8.toNat_ofNat', UInt8.toNat_ofNat', Nat.pow_succ, Nat.mul_comm]
      exact Nat.mod_mul_right_mod n 256 (256 ^ width)
    have htail : n % 256 ^ (width + 1) / 256 = n / 256 % 256 ^ width := by
      rw [Nat.pow_succ, Nat.mul_comm]
      exact Nat.mod_mul_right_div_self n 256 (256 ^ width)
    simp only [Bytes.littleEndian, hhead, htail, ih]

theorem encode_trailerAfter (before : Bytes) (indexOffset : Nat) :
    (trailerAfter before indexOffset).encode =
      Writer.trailerHeader.encode ++ Bytes.littleEndian 8 indexOffset ++
        (sha1 (before ++ Writer.trailerHeader.encode ++ Bytes.littleEndian 8 indexOffset) ++
          closingMagic) := by
  have hoffset : Bytes.littleEndian 8 (UInt64.ofNat indexOffset).toNat =
      Bytes.littleEndian 8 indexOffset := by
    rw [UInt64.toNat_ofNat']
    exact littleEndian_mod 8 indexOffset
  simp only [Trailer.encode, trailerAfter, hoffset, Writer.trailerHeader, List.append_assoc]

theorem length_checksum_trailerAfter (before : Bytes) (indexOffset : Nat) :
    (trailerAfter before indexOffset).checksum.length = checksumSize :=
  length_sha1 _

theorem valid_fileBlock (annotations : Labels) :
    (Descriptor.file (.ofAnnotations annotations)).Valid := rfl

def Addition.descriptor? : Addition → Option SeriesDescriptor
  | series d => some d
  | data _ _ => none

def Addition.isFor (index : UInt32) : Addition → Bool
  | series _ => false
  | data d _ => d.series = index

def declared (journal : List Addition) : List SeriesDescriptor :=
  journal.filterMap Addition.descriptor?

variable {offset : Nat} {found : List SeriesState}

theorem map_descriptor_track (offset : Nat) (found : List SeriesState)
    (journal : List Addition) :
    (track offset found journal).map (·.descriptor) =
      found.map (·.descriptor) ++ declared journal := by
  induction journal generalizing offset found with
  | nil => simp [track, declared]
  | cons a rest ih =>
    rw [track, ih]
    cases a with
    | series d => simp [Addition.enter, declared, Addition.descriptor?, SeriesState.declared]
    | data d payload =>
      simp only [Addition.enter, map_descriptor_modify]
      rfl

theorem length_seriesIn (annotations : Labels) (journal : List Addition) :
    (seriesIn annotations journal).length = (declared journal).length := by
  have hmap := congrArg List.length (map_descriptor_track (opening annotations).length [] journal)
  rw [List.map_nil, List.nil_append, List.length_map] at hmap
  exact hmap

theorem typed_track {journal : List Addition} (htyped : ∀ a ∈ journal, a.Typed) :
    ∀ s ∈ track offset [] journal, s.descriptor.id.type ≠ "" := by
  intro s hs
  have hmem : s.descriptor ∈ declared journal := by
    have hmap := map_descriptor_track offset [] journal
    rw [List.map_nil, List.nil_append] at hmap
    rw [← hmap]
    exact List.mem_map_of_mem hs
  obtain ⟨a, ha, hdescriptor⟩ := List.mem_filterMap.1 hmem
  cases a with
  | series d =>
    cases hdescriptor
    exact htyped _ ha
  | data d payload => cases hdescriptor

/-- The index that is written passes the checks of a reader. -/
theorem Orderly.valid_index (h : Orderly found) (htyped : ∀ s ∈ found, s.descriptor.id.type ≠ "")
    (hcount : found.length ≤ 2 ^ 32) :
    (Descriptor.index ⟨found.map SeriesState.toIndex⟩).Valid := by
  constructor
  · intro t ht
    obtain ⟨s, hs, rfl⟩ := List.mem_map.1 ht
    exact ⟨htyped s hs, h.hashed s hs, h.bounded s hs⟩
  · intro i t ht
    simp only [List.getElem?_map, Option.map_eq_some_iff] at ht
    obtain ⟨s, hs, rfl⟩ := ht
    have hlt := (List.getElem?_eq_some_iff.1 hs).1
    simp only [SeriesState.toIndex, h.numbered i s hs, UInt32.toNat_ofNat']
    exact Nat.mod_eq_of_lt (by omega)

theorem length_filter_recordsOf (journal : List Addition) (index : UInt32) :
    ((recordsOf offset journal).filter fun r => r.series.toNat = index.toNat).length =
      journal.countP (Addition.isFor index) := by
  induction journal generalizing offset with
  | nil => rfl
  | cons a rest ih =>
    rw [recordsOf, List.filter_append, List.length_append, ih, List.countP_cons, Nat.add_comm]
    cases a with
    | series d => rfl
    | data d payload =>
      by_cases h : d.series = index
      · simp [Addition.record?, Addition.isFor, h]
      · have hne : d.series.toNat ≠ index.toNat := fun heq => h (UInt32.toNat_inj.1 heq)
        simp [Addition.record?, Addition.isFor, h, hne]

theorem nextPosition_track {journal : List Addition} (h : Sound offset [] journal)
    {index : UInt32} {s : SeriesState}
    (hs : (track offset [] journal)[index.toNat]? = some s) :
    s.nextPosition = journal.countP (Addition.isFor index) := by
  have hcount := (Orderly.nil.track h).counted s (List.mem_of_getElem? hs)
  have hentries := getElem?_entries_track h index.toNat
  rw [hs] at hentries
  simp only [Option.map_some, Option.getD_some, List.getElem?_nil, Option.map_none,
    Option.getD_none, List.nil_append] at hentries
  rw [hcount, hentries, List.length_map, length_filter_recordsOf]

end SeriesLog
