import SeriesLog.Proofs.Log.Counts
import SeriesLog.Proofs.Reader.RoundTrip

/-! # Verification of logs

A log that a writer sealed passes both checks of a reader: its checksum is the one in the trailer,
and every entry of its index is that of a block. -/
namespace SeriesLog

theorem mapM_cases {ε α β : Type} (f : α → Except ε β) (items : List α) :
    (∃ found, items.mapM f = .ok found ∧ found.length = items.length) ∨
      ∃ x ∈ items, ∃ e, f x = .error e ∧ items.mapM f = .error e := by
  induction items with
  | nil => exact .inl ⟨[], rfl, rfl⟩
  | cons x rest ih =>
    rw [List.mapM_cons]
    cases hx : f x with
    | error e => exact .inr ⟨x, List.mem_cons_self, e, hx, rfl⟩
    | ok y =>
      rcases ih with ⟨found, hrest, hlength⟩ | ⟨z, hz, e, herror, hrest⟩
      · rw [hrest]
        exact .inl ⟨y :: found, rfl, congrArg (· + 1) hlength⟩
      · rw [hrest]
        exact .inr ⟨z, List.mem_cons_of_mem x hz, e, herror, rfl⟩

theorem exists_of_forall_ok {ε α β : Type} {f : α → Except ε β} {items : List α}
    (h : ∀ x ∈ items, ∃ y, f x = .ok y) :
    ∃ found, items.mapM f = .ok found ∧ found.length = items.length := by
  rcases mapM_cases f items with hread | ⟨x, hx, e, herror, _⟩
  · exact hread
  · obtain ⟨y, hy⟩ := h x hx
    rw [herror] at hy
    cases hy

namespace Reader

variable {annotations : Labels} {journal : List Addition} {r : Reader}

theorem length_allEntries (r : Reader) :
    r.allEntries.length = (r.series.map fun t => t.entries.size).sum := by
  have hfirst : r.series.zipIdx.map Prod.fst = r.series := List.zipIdx_map_fst 0 r.series
  rw [allEntries, List.length_flatMap]
  simp only [List.length_map, Array.length_toList]
  calc (r.series.zipIdx.map fun p => p.1.entries.size).sum
      = ((r.series.zipIdx.map Prod.fst).map fun t => t.entries.size).sum := by
        rw [List.map_map]
        rfl
    _ = (r.series.map fun t => t.entries.size).sum := by rw [hfirst]

theorem Opened.length_allEntries (h : r.Opened annotations journal)
    (hsound : SoundIn annotations journal) :
    r.allEntries.length = (recordsIn annotations journal).length := by
  rw [Reader.length_allEntries, h.series, List.map_map, ← entryCount_seriesIn hsound, entryCount,
    List.length_flatMap]
  refine congrArg List.sum (List.map_congr_left fun s _ => ?_)
  simp [SeriesState.toIndex, SeriesIndex.timeline, SeriesState.entries]

theorem Opened.record_of_mem (h : r.Opened annotations journal)
    (hsound : SoundIn annotations journal)
    (hcount : (seriesIn annotations journal).length ≤ 2 ^ 32)
    (hsize : (logBytes annotations journal).length < 2 ^ 64) {p : UInt32 × IndexEntry}
    (hp : p ∈ r.allEntries) : ∃ q, r.record p.1 p.2 = .ok q := by
  obtain ⟨⟨t, i⟩, hseries, hin⟩ := List.mem_flatMap.1 hp
  obtain ⟨entry, hentry, rfl⟩ := List.mem_map.1 hin
  have ht : r.series[i]? = some t := List.mem_zipIdx_iff_getElem?.1 hseries
  have hi : i < (seriesIn annotations journal).length := by
    rw [← h.length_series]
    exact (List.getElem?_eq_some_iff.1 ht).1
  have hmem := (h.entries_perm hsound ht).mem_iff.1 hentry
  obtain ⟨q, hq, rfl⟩ := List.mem_map.1 hmem
  obtain ⟨hq, hnumber⟩ := List.mem_filter.1 hq
  have hindex : UInt32.ofNat i = q.series := by
    apply UInt32.toNat_inj.1
    rw [UInt32.toNat_ofNat', Nat.mod_eq_of_lt (by omega)]
    exact (of_decide_eq_true hnumber).symm
  obtain ⟨rest, hfile⟩ := h.file
  refine ⟨q, ?_⟩
  rw [record, hfile, hindex]
  exact readBlock_journal hsound h.limit hsize rest hq

theorem Opened.verifyIndex (h : r.Opened annotations journal)
    (hsound : SoundIn annotations journal)
    (hcount : (seriesIn annotations journal).length ≤ 2 ^ 32)
    (hsize : (logBytes annotations journal).length < 2 ^ 64) :
    r.verifyIndex = .ok (recordsIn annotations journal).length := by
  obtain ⟨found, hfound, hlength⟩ := exists_of_forall_ok fun (p : UInt32 × IndexEntry) hp =>
    h.record_of_mem hsound hcount hsize hp
  have hall : (r.allEntries.mapM fun (index, entry) => r.record index entry) = .ok found := hfound
  rw [Reader.verifyIndex, hall, Except.map, hlength, h.length_allEntries hsound]

theorem Opened.no_entries (h : r.Opened annotations journal)
    (hsound : SoundIn annotations journal) (hnone : recordsIn annotations journal = []) :
    ∀ t ∈ r.series, t.entries.size = 0 := by
  intro t ht
  obtain ⟨i, hi⟩ := List.mem_iff_getElem?.1 ht
  have hperm := h.entries_perm hsound hi
  rw [hnone, List.filter_nil, List.map_nil, List.perm_nil] at hperm
  rw [← Array.length_toList, hperm, List.length_nil]

theorem verifyIndex_of_no_entries (h : ∀ t ∈ r.series, t.entries.size = 0) :
    r.verifyIndex = .ok 0 := by
  have hall : r.allEntries = [] := by
    refine List.flatMap_eq_nil_iff.2 ?_
    rintro ⟨t, i⟩ hseries
    rw [List.map_eq_nil_iff, ← List.length_eq_zero_iff, Array.length_toList]
    exact h t (List.fst_mem_of_mem_zipIdx hseries)
  rw [Reader.verifyIndex, hall]
  rfl

end Reader

namespace SealedRun

variable {c : WriterConfig} (run : SealedRun c)

theorem bytes_eq_append :
    run.bytes = run.last.beforeTrailer ++ run.trailer.encode := by
  rw [run.bytes_eq, sealedBytes, Writer.beforeTrailer, run.holds.bytes, run.holds.series]
  rfl

/-- The checksum in the trailer is that of the bytes before it. -/
theorem verifyChecksum {r : Reader} (hfile : r.file = run.bytes)
    (htrailer : r.trailer = some run.trailer) : r.verifyChecksum = .valid := by
  obtain ⟨covered, hcovered⟩ : ∃ covered, covered = run.last.beforeTrailer ++
      Writer.trailerHeader.encode ++ Bytes.littleEndian 8 run.summary.indexOffset := ⟨_, rfl⟩
  have hchecksum : run.trailer.checksum = sha1 covered := by
    rw [hcovered]
    rfl
  have hbytes : run.bytes = covered ++ (sha1 covered ++ closingMagic) := by
    rw [bytes_eq_append, trailer, encode_trailerAfter, hcovered]
    simp only [List.append_assoc]
  have htake : run.bytes.take (run.bytes.length - (checksumSize + closingMagic.length)) =
      covered := by
    have hlength : (sha1 covered).length = checksumSize := length_sha1 covered
    rw [hbytes, List.length_append, List.length_append, hlength, Nat.add_sub_cancel,
      List.take_left]
  simp only [Reader.verifyChecksum, htrailer, hfile, htake, hchecksum, if_true]

theorem length_recordsIn :
    (recordsIn c.annotations run.journal).length = (run.answers.filterMap location?).length := by
  have hplaces := congrArg List.length run.noted.2
  rw [List.length_map, List.length_map] at hplaces
  exact hplaces

theorem blockCount_eq : run.last.blockCount = (run.answers.filterMap location?).length := by
  rw [← run.length_recordsIn, ← entryCount_seriesIn run.holds.sound, ← run.holds.series]
  rfl

end SealedRun

end SeriesLog
