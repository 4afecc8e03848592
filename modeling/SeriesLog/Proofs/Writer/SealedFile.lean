import SeriesLog.Proofs.Reader.Faithful
import SeriesLog.Proofs.Reader.Verify

/-! # Files of sealed logs

What a writer leaves on its sink when it seals a log: the magic, the file descriptor, one block for
every series and every append in their order, the index, and a trailer that points to it and has the
checksum of all before it. -/
namespace SeriesLog

variable {annotations : Labels} {journal : List Addition}

theorem standsIn_logBytes (hsound : SoundIn annotations journal)
    (hsize : (logBytes annotations journal).length < 2 ^ 64) (rest : Bytes) {q : DataRecord}
    (hq : q ∈ recordsIn annotations journal) : q.StandsIn (logBytes annotations journal ++ rest) := by
  obtain ⟨before, behind, d, payload, hmem, hbytes, _, rfl⟩ := mem_recordsIn hq
  have hlength := congrArg List.length hbytes
  rw [List.length_append, List.length_append] at hlength
  refine ⟨before, d.sized ++ payload, behind ++ rest, ?_, ?_, hsound.body_le hmem, ?_⟩
  · rw [hbytes, List.append_assoc]
    rfl
  · rw [UInt64.toNat_ofNat']
    exact (Nat.mod_eq_of_lt (by omega)).symm
  · exact DataBlock.decode_sized (length_descriptor_lt hsound hmem) payload

theorem described_before {before after : List Addition} {d : DataDescriptor} {payload : Bytes}
    (hsound : SoundIn annotations (before ++ .data d payload :: after)) :
    ∃ s, (declared before)[d.series.toNat]? = some s ∧
      s.indexNames.length = d.indexValues.length := by
  rw [SoundIn, sound_append] at hsound
  obtain ⟨_, hadmits, _⟩ := hsound
  cases hadmits with
  | data hs harity _ =>
    have hmap := map_descriptor_track (opening annotations).length [] before
    rw [List.map_nil, List.nil_append] at hmap
    refine ⟨_, ?_, harity.symm⟩
    rw [← hmap, List.getElem?_map, hs, Option.map_some]

def indexOf (annotations : Labels) (journal : List Addition) : FileIndex :=
  ⟨(declared journal).map fun d =>
    ⟨d, ((recordsIn annotations journal).filter fun q => q.series = d.index).map
      DataRecord.entry⟩⟩

theorem toIndex_seriesIn (hsound : SoundIn annotations journal)
    (hcount : (declared journal).length ≤ 2 ^ 32) :
    (⟨(seriesIn annotations journal).map SeriesState.toIndex⟩ : FileIndex) =
      indexOf annotations journal := by
  have hmap := map_descriptor_track (opening annotations).length [] journal
  rw [List.map_nil, List.nil_append] at hmap
  rw [indexOf, ← hmap, List.map_map]
  congr 1
  apply List.map_congr_left
  intro s hs
  obtain ⟨i, hi⟩ := List.mem_iff_getElem?.1 hs
  have hlt := (List.getElem?_eq_some_iff.1 hi).1
  rw [length_seriesIn] at hlt
  have hnumber := (Orderly.nil.track hsound).numbered i s hi
  have hsame : ∀ q : DataRecord, decide (q.series.toNat = i) =
      decide (q.series = s.descriptor.index) := by
    intro q
    rw [decide_eq_decide, hnumber, ← UInt32.toNat_inj, UInt32.toNat_ofNat',
      Nat.mod_eq_of_lt (by omega)]
  rw [SeriesState.toIndex, entries_seriesIn hsound hi]
  simp only [hsame]
  rfl

namespace SealedRun

variable {c : WriterConfig} (run : SealedRun c)

def located : List BlockLocation := run.answers.filterMap location?

def covered : Bytes :=
  openingMagic ++ (run.blocks ++ run.tail).flatMap Block.encode ++
    [0x02, 0x14, 0, 0, 0, 0, 0, 0] ++ Bytes.littleEndian 8 run.summary.indexOffset

/-- The grammar of the file of a run, and what its parts say. -/
structure FileLayout : Prop where
  bytes : run.bytes = run.covered ++ sha1 run.covered ++ closingMagic
  fileDescriptor : Descriptor.decode (fileBlock c.annotations).body =
    .ok (.file (.ofAnnotations c.annotations))
  seriesDescriptors : ∀ d ∈ declared run.journal,
    Descriptor.decode (Addition.series d).block.body = .ok (.series d)
  /-- Every series is described once, and numbered in order. -/
  distinct : ((declared run.journal).map fun d => d.id).Nodup
  numbered : ∀ (i : Nat) (d : SeriesDescriptor), (declared run.journal)[i]? = some d →
    d.index = UInt32.ofNat i
  /-- A data block comes after the descriptor of its series. -/
  described : ∀ (before after : List Addition) (d : DataDescriptor) (payload : Bytes),
    run.journal = before ++ .data d payload :: after →
      ∃ s, (declared before)[d.series.toNat]? = some s ∧
        s.indexNames.length = d.indexValues.length
  /-- The data blocks are those of the appends that succeeded, where their answers say. -/
  placed : (recordsIn c.annotations run.journal).map DataRecord.place =
    run.located.map BlockLocation.place
  stands : ∀ q ∈ recordsIn c.annotations run.journal, q.StandsIn run.bytes
  /-- Without data there is no index, else it lies at its offset and lists all data. -/
  index : run.located = [] ∧ run.tail = [] ∧ run.summary.indexOffset = 0 ∨
    run.located ≠ [] ∧ ∃ body, run.tail = [⟨.descriptor, body⟩] ∧
      run.summary.indexOffset = (openingMagic ++ run.blocks.flatMap Block.encode).length ∧
      Descriptor.decode body = .ok (.index (indexOf c.annotations run.journal))
  checksum : run.summary.checksum = sha1 run.covered
  size : run.summary.size = run.bytes.length
  seriesCount : run.summary.seriesCount = (declared run.journal).length
  blockCount : run.summary.blockCount = run.located.length

theorem bytes_blocks : openingMagic ++ run.blocks.flatMap Block.encode =
    logBytes c.annotations run.journal := by
  rw [logBytes, opening, Run.blocks, List.flatMap_cons, List.flatMap_map, List.append_assoc]

theorem covered_eq : run.covered =
    run.last.beforeTrailer ++ Writer.trailerHeader.encode ++
      Bytes.littleEndian 8 run.summary.indexOffset := by
  rw [covered, List.flatMap_append, ← List.append_assoc openingMagic, bytes_blocks,
    Writer.beforeTrailer, run.holds.bytes, run.holds.series]
  rfl

theorem bytes_eq_covered : run.bytes = run.covered ++ sha1 run.covered ++ closingMagic := by
  rw [bytes_eq_append, trailer, encode_trailerAfter, covered_eq]
  simp only [List.append_assoc]

theorem decode_fileBlock (run : SealedRun c) : Descriptor.decode (fileBlock c.annotations).body =
    .ok (.file (.ofAnnotations c.annotations)) := by
  obtain ⟨_, hmax, _⟩ := Writer.start_eq_ok run.started
  refine Descriptor.decode_encode ?_ (valid_fileBlock _)
  simp only [fileBlock, maxBodySize] at hmax
  omega

theorem decode_series {d : SeriesDescriptor} (hd : d ∈ declared run.journal) :
    Descriptor.decode (Addition.series d).block.body = .ok (.series d) := by
  have hsound : SoundIn c.annotations run.journal := run.holds.sound
  have horderly : Orderly (seriesIn c.annotations run.journal) := Orderly.nil.track hsound
  have htyped : ∀ s ∈ seriesIn c.annotations run.journal, s.descriptor.id.type ≠ "" :=
    typed_track (typed_journalOf run.typed run.answers)
  obtain ⟨a, ha, hdescriptor⟩ := List.mem_filterMap.1 hd
  cases a with
  | data _ _ => cases hdescriptor
  | series e =>
    cases hdescriptor
    have hmax := hsound.body_le ha
    rw [run.holds.declared_eq, run.holds.series] at hd
    obtain ⟨s, hs, rfl⟩ := List.mem_map.1 hd
    have hvalid : (Descriptor.series s.descriptor).Valid :=
      ⟨htyped s hs, horderly.hashed s hs, horderly.bounded s hs⟩
    refine Descriptor.decode_encode ?_ hvalid
    simp only [Addition.block, maxBodySize] at hmax
    omega

theorem decode_index (hcount : (declared run.journal).length ≤ 2 ^ 32)
    (hdata : run.last.blockCount ≠ 0) :
    Descriptor.decode (indexBlock (seriesIn c.annotations run.journal)).body =
      .ok (.index (indexOf c.annotations run.journal)) := by
  have hsound : SoundIn c.annotations run.journal := run.holds.sound
  obtain ⟨htail, _⟩ := run.tail_of_data hdata
  have hmax := run.tail_le _ (htail ▸ List.mem_singleton_self _)
  rw [← toIndex_seriesIn hsound hcount, indexBlock]
  dsimp only
  refine Descriptor.decode_encode ?_ ?_
  · simp only [indexBlock, maxBodySize] at hmax
    omega
  · refine (Orderly.nil.track hsound).valid_index
      (typed_track (typed_journalOf run.typed run.answers)) ?_
    rw [← run.length_seriesIn] at hcount
    exact hcount

/-- The file of a sealed log is what its calls and their answers tell, block by block. -/
theorem fileLayout (hcount : (declared run.journal).length < 2 ^ 32)
    (hsize : run.bytes.length < 2 ^ 64) : run.FileLayout := by
  have hsound : SoundIn c.annotations run.journal := run.holds.sound
  have horderly : Orderly (seriesIn c.annotations run.journal) := Orderly.nil.track hsound
  have hdeclared : declared run.journal =
      (seriesIn c.annotations run.journal).map fun s => s.descriptor := by
    rw [run.holds.declared_eq, run.holds.series]
  have hlocated : run.last.blockCount = run.located.length := run.blockCount_eq
  obtain ⟨hwhole, hseries, hblocks, hchecksum⟩ := run.holds.close_summary run.closed
  constructor
  case bytes => exact run.bytes_eq_covered
  case fileDescriptor => exact run.decode_fileBlock
  case seriesDescriptors => exact fun d hd => run.decode_series hd
  case distinct =>
    rw [hdeclared, List.map_map]
    exact horderly.distinct
  case numbered =>
    intro i d hd
    rw [hdeclared, List.getElem?_map, Option.map_eq_some_iff] at hd
    obtain ⟨s, hs, rfl⟩ := hd
    exact horderly.numbered i s hs
  case described =>
    intro before after d payload hjournal
    rw [hjournal] at hsound
    exact described_before hsound
  case placed => exact run.noted.2
  case stands =>
    intro q hq
    rw [run.bytes_eq, sealedBytes, List.append_assoc]
    exact standsIn_logBytes hsound (Nat.lt_trans run.length_logBytes_lt hsize) _ hq
  case index =>
    by_cases hdata : run.last.blockCount = 0
    · obtain ⟨htail, hoffset⟩ := run.tail_of_no_data hdata
      rw [hlocated, List.length_eq_zero_iff] at hdata
      exact .inl ⟨hdata, htail, hoffset⟩
    · obtain ⟨htail, hoffset⟩ := run.tail_of_data hdata
      refine .inr ⟨?_, _, htail, ?_, run.decode_index (Nat.le_of_lt hcount) hdata⟩
      · rw [hlocated, List.length_eq_zero_iff] at hdata
        exact hdata
      · rw [run.bytes_blocks, hoffset]
  case checksum =>
    rw [hchecksum, covered_eq]
    rfl
  case size => exact hwhole
  case seriesCount => exact hseries
  case blockCount => rw [hblocks, hlocated]

theorem exists_of_answered {w : Writer} (hstart : Writer.start c (.empty none) = .ok w)
    {calls : List Call} (hopen : .close ∉ calls) (htyped : ∀ call ∈ calls, call.Typed)
    (hindex : ∀ b ∈ indexPart (seriesIn c.annotations (journalOf calls (w.run calls).1)),
      b.body.length ≤ maxBodySize) :
    ∃ run : SealedRun c, run.calls = calls ∧ run.answers = (w.run calls).1 := by
  have hholds := ((Writer.start_holds hstart).run hopen).1
  obtain ⟨summary, final, hclose⟩ := hholds.can_close hindex
  exact ⟨⟨⟨calls, _, w, _, hstart, rfl, hopen, htyped⟩, final, summary, hclose⟩, rfl, rfl⟩

/-- A refused append between those to two series. -/
theorem fileLayout_interleaved : ∃ run : SealedRun .default,
    run.calls = [.append (.ofType "a") 5 [] [1], .appendTo 7 0 [] [4],
      .append (.ofType "b") 5 [] [2], .append (.ofType "a") (-3) [] [3]] ∧
      run.located.length = 3 ∧ run.FileLayout := by
  let calls : List Call := [.append (.ofType "a") 5 [] [1], .appendTo 7 0 [] [4],
    .append (.ofType "b") 5 [] [2], .append (.ofType "a") (-3) [] [3]]
  have hfacts : (Writer.start .default (.empty none)).toOption.map (fun w =>
      let answers := (w.run calls).1
      let journal := journalOf calls answers
      ((answers.filterMap location?).length, (declared journal).length,
        (logBytes .empty journal).length,
        (indexPart (seriesIn .empty journal)).map fun b => b.body.length)) =
      some (3, 2, 133, [70]) := by decide +kernel
  cases hstart : Writer.start .default (.empty none) with
  | error e =>
    rw [hstart] at hfacts
    cases hfacts
  | ok w =>
    rw [hstart] at hfacts
    obtain ⟨hlocated, hcount, hlog, hindex⟩ := by
      simpa only [Except.toOption, Option.map_some, Option.some.injEq, Prod.mk.injEq] using hfacts
    obtain ⟨b, hpart, hbody⟩ := List.map_eq_singleton_iff.1 hindex
    have hmax : ∀ other ∈ indexPart (seriesIn .empty (journalOf calls (w.run calls).1)),
        other.body.length ≤ maxBodySize := by
      intro other hother
      rw [hpart, List.mem_singleton] at hother
      rw [hother, hbody]
      decide
    obtain ⟨run, hcalls, hanswers⟩ :=
      @exists_of_answered .default w hstart calls (by decide) (by decide) hmax
    have hjournal : run.journal = journalOf calls (w.run calls).1 := by
      rw [Run.journal, hcalls, hanswers]
    have htail : run.tail = [b] := by
      rw [Run.tail, hjournal]
      exact hpart
    have hsize : run.bytes.length = 133 + (headerSize + 70) + trailerSize := by
      rw [run.bytes_eq, length_sealedBytes _ _ _ run.length_checksum, htail, hjournal, ← hbody]
      exact congrArg (· + (headerSize + b.body.length) + trailerSize) hlog
    refine ⟨run, hcalls, ?_, run.fileLayout ?_ ?_⟩
    · rw [located, hanswers, hlocated]
    · rw [hjournal, hcount]
      decide
    · rw [hsize]
      decide

end SealedRun

end SeriesLog
