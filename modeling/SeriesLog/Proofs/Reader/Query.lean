import SeriesLog.Proofs.Reader.Sealed

/-! # Queries of a log

Whatever a reader of a log knows the places of the blocks from, a query yields the blocks of the
series in the range, as they were written and in time order. -/
namespace SeriesLog

variable {annotations : Labels} {journal : List Addition}

/-- A reader that knows the series of a journal and has the log before it. -/
structure Reader.Opened (r : Reader) (annotations : Labels) (journal : List Addition) : Prop where
  series : r.series = (seriesIn annotations journal).map fun s => s.toIndex.timeline
  file : ∃ rest, r.file = logBytes annotations journal ++ rest
  limit : ∀ a ∈ journal, a.block.body.length ≤ r.config.maxBlockSize

namespace Reader

variable {r : Reader}

theorem opened_sealed {c : ReaderConfig} (h : Readable annotations journal c.maxBlockSize)
    (tail : List Block) (trailer : Trailer) (source : IndexSource) :
    (opened (sealedBytes annotations journal tail trailer) c annotations journal trailer
      source).Opened annotations journal := by
  constructor
  · rfl
  · refine ⟨tail.flatMap Block.encode ++ trailer.encode, ?_⟩
    rw [← List.append_assoc]
    rfl
  · exact h.limit

theorem Opened.descriptors (h : r.Opened annotations journal) :
    (r.series.map fun t => t.descriptor) = declared journal := by
  have hmap := map_descriptor_track (opening annotations).length [] journal
  rw [List.map_nil, List.nil_append] at hmap
  rw [h.series, List.map_map, ← hmap]
  rfl

theorem Opened.length_series (h : r.Opened annotations journal) :
    r.series.length = (seriesIn annotations journal).length := by
  rw [h.series, List.length_map]

/-- The entries of a series are those of its blocks, in another order. -/
theorem Opened.entries_perm (h : r.Opened annotations journal)
    (hsound : SoundIn annotations journal) {i : Nat} {t : Timeline}
    (ht : r.series[i]? = some t) :
    t.entries.toList.Perm
      (((recordsIn annotations journal).filter fun q => q.series.toNat = i).map
        DataRecord.entry) := by
  rw [h.series, List.getElem?_map, Option.map_eq_some_iff] at ht
  obtain ⟨s, hs, rfl⟩ := ht
  rw [← entries_seriesIn hsound hs]
  exact List.mergeSort_perm s.entries _

theorem position?_lt {selector : Selector} {i : Nat} (h : r.position? selector = some i) :
    i < r.series.length := by
  cases selector with
  | named id =>
    obtain ⟨hlt, _⟩ := List.findIdx?_eq_some_iff_getElem.1 h
    exact hlt
  | hashed hash =>
    obtain ⟨hlt, _⟩ := List.findIdx?_eq_some_iff_getElem.1 h
    exact hlt
  | numbered index =>
    simp only [position?] at h
    split at h
    · next hlt =>
      cases h
      exact hlt
    · cases h

def timelineIn (annotations : Labels) (journal : List Addition) (i : Nat) (range : TimeRange) :
    List DataRecord :=
  (((recordsIn annotations journal).filter fun q => q.series.toNat = i).mergeSort
    DataRecord.notAfter).filter fun q => range.contains q.timestamp

theorem Opened.records_eq_timelineIn (h : r.Opened annotations journal)
    (hsound : SoundIn annotations journal)
    (hcount : (seriesIn annotations journal).length ≤ 2 ^ 32)
    (hsize : (logBytes annotations journal).length < 2 ^ 64) {i : Nat}
    (hi : i < (seriesIn annotations journal).length) {selector : Selector}
    (hposition : r.position? selector = some i) (range : TimeRange) :
    r.records selector range = .ok ((timelineIn annotations journal i range).map .ok) := by
  have hs : (seriesIn annotations journal)[i]? = some (seriesIn annotations journal)[i] :=
    List.getElem?_eq_getElem hi
  have hselect := SeriesIndex.select_timeline_eq
    (s := (seriesIn annotations journal)[i].toIndex) (entries_seriesIn hsound hs) range
  obtain ⟨rest, hfile⟩ := h.file
  have hindex : (UInt32.ofNat i).toNat = i :=
    UInt32.toNat_ofNat_of_lt' (Nat.lt_of_lt_of_le hi hcount)
  have hread : ∀ q ∈ timelineIn annotations journal i range,
      r.record (UInt32.ofNat i) q.entry = .ok q := by
    intro q hq
    have hmem := List.mem_mergeSort.1 (List.mem_filter.1 hq).1
    obtain ⟨hmem, hseries⟩ := List.mem_filter.1 hmem
    have hnumber : UInt32.ofNat i = q.series := by
      apply UInt32.toNat_inj.1
      rw [hindex]
      exact (of_decide_eq_true hseries).symm
    rw [record, hfile, hnumber]
    exact readBlock_journal hsound h.limit hsize rest hmem
  have hentries : r.series[i]? = some (seriesIn annotations journal)[i].toIndex.timeline := by
    rw [h.series, List.getElem?_map, hs]
    rfl
  unfold records select find
  simp only [hposition, Except.map, hindex, hentries, Option.map_some, Option.getD_some, hselect,
    List.map_map]
  rw [Except.ok.injEq]
  exact List.map_congr_left hread

theorem records_of_position (hsound : SoundIn annotations journal)
    (hcount : (seriesIn annotations journal).length ≤ 2 ^ 32)
    (hsize : (logBytes annotations journal).length < 2 ^ 64) {i : Nat}
    (hi : i < (seriesIn annotations journal).length) (range : TimeRange) :
    ∃ ordered, TimeOrdered (((recordsIn annotations journal).filter fun q =>
        q.series.toNat = i).filter fun q => range.contains q.timestamp) ordered ∧
      ∀ (r : Reader) (selector : Selector), r.Opened annotations journal →
        r.position? selector = some i →
        r.records selector range = .ok (ordered.map .ok) :=
  ⟨timelineIn annotations journal i range, (timeOrdered_mergeSort _).filter _,
    fun _ _ hopened hposition =>
      hopened.records_eq_timelineIn hsound hcount hsize hi hposition range⟩

theorem records_agree (hsound : SoundIn annotations journal)
    (hcount : (seriesIn annotations journal).length ≤ 2 ^ 32)
    (hsize : (logBytes annotations journal).length < 2 ^ 64) {q : Reader}
    (hr : r.Opened annotations journal) (hq : q.Opened annotations journal) (selector : Selector)
    (range : TimeRange) : r.records selector range = q.records selector range := by
  have hseries : r.series = q.series := hr.series.trans hq.series.symm
  have hsame : r.position? selector = q.position? selector := by
    cases selector <;> simp only [position?, hseries]
  cases hposition : r.position? selector with
  | none =>
    rw [hposition] at hsame
    unfold records select find
    simp only [hposition, ← hsame, Except.map]
  | some i =>
    have hi := position?_lt hposition
    rw [hr.length_series] at hi
    rw [hr.records_eq_timelineIn hsound hcount hsize hi hposition,
      hq.records_eq_timelineIn hsound hcount hsize hi (hsame ▸ hposition)]

end Reader

end SeriesLog
