import SeriesLog.Proofs.Reader.Query

/-! # What a query can return

Whatever the bytes of a file are, and whatever its index says: a block that a query yields stands in
the file, belongs to the series that was asked for and lies in the range. A reader brings the entries
of a series into time order, and from these a range selects all that lie in it. -/
namespace SeriesLog

variable {file : Bytes} {c : ReaderConfig} {r : Reader} {index : UInt32} {range : TimeRange}

/-- Whether a data block of a file, at the offset of a record, decodes to the record. -/
def DataRecord.StandsIn (q : DataRecord) (file : Bytes) : Prop :=
  ∃ before body rest : Bytes, file = before ++ (Block.mk .data body).encode ++ rest ∧
    before.length = q.offset.toNat ∧ body.length ≤ maxBodySize ∧
    DataBlock.decode body = .ok ⟨⟨q.series, q.timestamp, q.position, q.indexValues⟩, q.payload⟩

namespace Reader

theorem readBlock_eq_ok {limit : Nat} {entry : IndexEntry} {q : DataRecord}
    (h : readBlock file limit index entry = .ok q) :
    q.series = index ∧ q.timestamp = entry.timestamp ∧ q.StandsIn file := by
  unfold readBlock at h
  dsimp only at h
  split at h
  · cases h
  next hinside =>
  split at h
  · cases h
  next header s hheader =>
  split at h
  · cases h
  next htype =>
  split at h
  · cases h
  split at h
  · cases h
  next body rest hbody =>
  split at h
  · cases h
  next block hdecode =>
  split at h
  · cases h
  next hsame =>
  rw [not_or, not_not, not_not] at hsame
  obtain ⟨hindex, htime⟩ := hsame
  obtain ⟨hbytes, _⟩ := Source.readHeader_ok hheader
  obtain ⟨hlength, hrest, _⟩ := Source.readBody_ok hbody
  cases h
  refine ⟨rfl, htime, file.take entry.offset.toNat, body, rest.bytes, ?_, ?_, ?_, ?_⟩
  · have hencode : (Block.mk .data body).encode = header.encode ++ body := by
      rw [Block.encode, hlength, ← not_not.1 htype]
      rfl
    rw [hencode, List.append_assoc, List.append_assoc, ← hrest, ← hbytes]
    exact (List.take_append_drop _ _).symm
  · rw [List.length_take]
    dsimp only
    omega
  · rw [hlength]
    exact header.size_le
  · rw [hdecode, ← hindex]

theorem timeSorted_timeline (s : SeriesIndex) : TimeSorted s.timeline.entries.toList := by
  have htrans : ∀ a b d : IndexEntry, decide (a.timestamp ≤ b.timestamp) = true →
      decide (b.timestamp ≤ d.timestamp) = true → decide (a.timestamp ≤ d.timestamp) = true := by
    intro a b d hab hbd
    exact decide_eq_true (Int64.le_trans (of_decide_eq_true hab) (of_decide_eq_true hbd))
  have htotal : ∀ a b : IndexEntry,
      (decide (a.timestamp ≤ b.timestamp) || decide (b.timestamp ≤ a.timestamp)) = true := by
    intro a b
    rw [Bool.or_eq_true]
    exact (Int64.le_total a.timestamp b.timestamp).imp decide_eq_true decide_eq_true
  refine (List.pairwise_mergeSort htrans htotal s.entries).imp ?_
  intro a b hab
  exact of_decide_eq_true hab

/-- However the series of a file were found, their entries are in time order. -/
theorem ofFile_eq_ok (h : ofFile file c = .ok r) :
    r.file = file ∧ ∀ t ∈ r.series, TimeSorted t.entries.toList := by
  unfold ofFile at h
  split at h
  · cases h
  obtain ⟨found, _, rfl⟩ := exists_of_map_eq_ok h
  refine ⟨rfl, ?_⟩
  intro t ht
  obtain ⟨s, _, rfl⟩ := List.mem_map.1 ht
  exact timeSorted_timeline s

theorem find_eq_ok {selector : Selector} (h : r.find selector = .ok index) :
    ∃ t, r.series[index.toNat]? = some t := by
  unfold find at h
  split at h
  · next position hposition =>
    cases h
    have hlt := position?_lt hposition
    refine ⟨_, List.getElem?_eq_getElem (Nat.lt_of_le_of_lt ?_ hlt)⟩
    rw [UInt32.toNat_ofNat']
    exact Nat.mod_le _ _
  · cases h

theorem records_eq_ok {selector : Selector} {items : List (Except LogError DataRecord)}
    (h : r.records selector range = .ok items) :
    ∃ index t, r.find selector = .ok index ∧ r.series[index.toNat]? = some t ∧
      items = (range.select t.entries).map (r.record index) := by
  obtain ⟨found, hselect, rfl⟩ := exists_of_map_eq_ok h
  obtain ⟨index, hfind, rfl⟩ := exists_of_map_eq_ok hselect
  obtain ⟨t, ht⟩ := find_eq_ok hfind
  refine ⟨index, t, hfind, ht, ?_⟩
  simp [ht]

/-- Items that a query of a timeline may yield, one for each entry in the range. -/
structure Faithful (file : Bytes) (index : UInt32) (t : Timeline) (range : TimeRange)
    (items : List (Except LogError DataRecord)) : Prop where
  count : items.length =
    (t.entries.toList.filter fun entry => range.contains entry.timestamp).length
  series : ∀ q, .ok q ∈ items → q.series = index
  inRange : ∀ q, .ok q ∈ items → range.contains q.timestamp = true
  ascending : (items.filterMap Except.toOption).Pairwise fun a b => a.timestamp ≤ b.timestamp
  stands : ∀ q, .ok q ∈ items → q.StandsIn file

theorem ascending_records {entries : List IndexEntry} (h : TimeSorted entries)
    (r : Reader) (index : UInt32) :
    ((entries.map (r.record index)).filterMap Except.toOption).Pairwise
      fun a b => a.timestamp ≤ b.timestamp := by
  rw [List.filterMap_map, List.pairwise_filterMap]
  refine h.imp ?_
  intro a b hab p hp q hq
  have htime : ∀ {entry : IndexEntry} {q : DataRecord},
      ((r.record index entry).toOption = some q) → q.timestamp = entry.timestamp := by
    intro entry q hq
    cases hread : r.record index entry with
    | error e =>
      rw [hread] at hq
      cases hq
    | ok p =>
      rw [hread] at hq
      cases hq
      exact (readBlock_eq_ok hread).2.1
  rw [htime hp, htime hq]
  exact hab

/-- However a file came to be, an opened reader yields blocks that stand in the file. -/
theorem records_faithful (hopen : ofFile file c = .ok r) {selector : Selector}
    {items : List (Except LogError DataRecord)} (h : r.records selector range = .ok items) :
    ∃ index t, r.find selector = .ok index ∧ r.series[index.toNat]? = some t ∧
      Faithful file index t range items := by
  obtain ⟨hfile, hsorted⟩ := ofFile_eq_ok hopen
  obtain ⟨index, t, hfind, ht, rfl⟩ := records_eq_ok h
  have htime := hsorted t (List.mem_of_getElem? ht)
  have hselect := TimeRange.select_eq_filter htime range
  have hread : ∀ q, .ok q ∈ (range.select t.entries).map (r.record index) →
      ∃ entry, range.contains entry.timestamp = true ∧ r.record index entry = .ok q := by
    intro q hq
    obtain ⟨entry, hentry, hok⟩ := List.mem_map.1 hq
    rw [hselect] at hentry
    exact ⟨entry, (List.mem_filter.1 hentry).2, hok⟩
  refine ⟨index, t, hfind, ht, ?_, ?_, ?_, ?_, ?_⟩
  · rw [List.length_map, hselect]
  · intro q hq
    obtain ⟨entry, _, hok⟩ := hread q hq
    exact (readBlock_eq_ok hok).1
  · intro q hq
    obtain ⟨entry, hcontains, hok⟩ := hread q hq
    rw [(readBlock_eq_ok hok).2.1]
    exact hcontains
  · rw [hselect]
    exact ascending_records (htime.filter _) r index
  · intro q hq
    obtain ⟨entry, _, hok⟩ := hread q hq
    rw [← hfile]
    exact (readBlock_eq_ok hok).2.2

/-- A sealed log of two blocks, the first at offset 48. The entries of its index are out of order;
one has another timestamp, one points into the block, and one stands twice. -/
def forged : Bytes :=
  let d : SeriesDescriptor := .make 0 (.ofType "a") .untyped [] .empty
  let journal : List Addition := [.series d, .data ⟨0, 5, 0, []⟩ [1], .data ⟨0, 3, 1, []⟩ [2]]
  let entries : List IndexEntry := [⟨9, 48⟩, ⟨5, 48⟩, ⟨4, 50⟩, ⟨3, 63⟩, ⟨5, 48⟩]
  sealedBytes .empty journal [⟨.descriptor, Descriptor.encode (.index ⟨[⟨d, entries⟩]⟩)⟩]
    ⟨UInt64.ofNat (logBytes .empty journal).length, List.replicate checksumSize 0⟩

theorem ofFile_forged : ∃ r, ofFile forged .default = .ok r ∧ r.file = forged ∧
    r.config = .default ∧ r.series = [⟨.make 0 (.ofType "a") .untyped [] .empty,
      #[⟨3, 63⟩, ⟨4, 50⟩, ⟨5, 48⟩, ⟨5, 48⟩, ⟨9, 48⟩]⟩] := by
  have hdescriptor : readFileDescriptor forged ReaderConfig.default.maxBlockSize =
      .ok ⟨.current, .empty⟩ := by decide +kernel
  have hlocate : locate forged .default (readTrailer? forged) = .ok (.fileIndex 80,
      [⟨.make 0 (.ofType "a") .untyped [] .empty,
        [⟨9, 48⟩, ⟨5, 48⟩, ⟨4, 50⟩, ⟨3, 63⟩, ⟨5, 48⟩]⟩], false) := by decide +kernel
  refine ⟨_, by rw [ofFile, hdescriptor]; dsimp only; rw [hlocate, Except.map], rfl, rfl, ?_⟩
  simp [SeriesIndex.timeline, List.mergeSort]

/-- A forged index is believed when the log is opened, and its blocks are checked when they are
read. -/
theorem records_faithful_forged :
    readBlock forged 100 0 ⟨9, 48⟩ = .error (.corruptIndex (.otherBlock 48 0 5 0 9)) ∧
    ∃ r items index t, ofFile forged .default = .ok r ∧ r.source = .fileIndex 80 ∧
      r.records (.named (.ofType "a")) ⟨some 4, none⟩ = .ok items ∧
      r.find (.named (.ofType "a")) = .ok index ∧ r.series[index.toNat]? = some t ∧
      Faithful forged index t ⟨some 4, none⟩ items := by
  refine ⟨by decide +kernel, ?_⟩
  have hfacts : (ofFile forged .default).toOption.map (fun r =>
      (r.source, (r.records (.named (.ofType "a")) ⟨some 4, none⟩).toOption.isSome)) =
      some (.fileIndex 80, true) := by decide +kernel
  cases hopen : ofFile forged .default with
  | error e =>
    rw [hopen] at hfacts
    cases hfacts
  | ok r =>
    rw [hopen] at hfacts
    simp only [Except.toOption, Option.map_some, Option.some.injEq, Prod.mk.injEq] at hfacts
    obtain ⟨hsource, hsome⟩ := hfacts
    cases hrecords : r.records (.named (.ofType "a")) ⟨some 4, none⟩ with
    | error e =>
      rw [hrecords] at hsome
      cases hsome
    | ok items =>
      obtain ⟨index, t, hfind, ht, hfaithful⟩ := records_faithful hopen hrecords
      exact ⟨r, items, index, t, rfl, hsource, hrecords, hfind, ht, hfaithful⟩

/-- In entries in time order, a range selects those whose timestamps it contains, in their order.
Whatever the index of a file says, an opened reader has the entries of each series in time order. -/
theorem select_exact (range : TimeRange) :
    (∀ entries : Array IndexEntry, TimeSorted entries.toList →
      range.select entries = entries.toList.filter fun e => range.contains e.timestamp) ∧
    ∀ (file : Bytes) (c : ReaderConfig) (r : Reader), ofFile file c = .ok r → ∀ t ∈ r.series,
      range.select t.entries = t.entries.toList.filter fun e => range.contains e.timestamp := by
  have hselect : ∀ entries : Array IndexEntry, TimeSorted entries.toList →
      range.select entries = entries.toList.filter fun e => range.contains e.timestamp :=
    fun _ hsorted => TimeRange.select_eq_filter hsorted range
  refine ⟨hselect, ?_⟩
  intro file c r hopen t ht
  exact hselect t.entries ((ofFile_eq_ok hopen).2 t ht)

/-- Runs of equal timestamps at both ends of time, a range that ends before it starts, and a file
with an index that is out of order. -/
theorem select_exact_extremes :
    let entries : Array IndexEntry :=
      #[⟨.minValue, 48⟩, ⟨.minValue, 80⟩, ⟨-1, 60⟩, ⟨3, 99⟩, ⟨.maxValue, 70⟩, ⟨.maxValue, 50⟩]
    TimeSorted entries.toList ∧
      TimeRange.select ⟨some .minValue, some .minValue⟩ entries = [⟨.minValue, 48⟩, ⟨.minValue, 80⟩] ∧
      TimeRange.select ⟨some .maxValue, none⟩ entries = [⟨.maxValue, 70⟩, ⟨.maxValue, 50⟩] ∧
      TimeRange.select ⟨some .maxValue, some .minValue⟩ entries = [] ∧
      ∃ r t, ofFile forged .default = .ok r ∧ t ∈ r.series ∧
        TimeRange.select ⟨some 4, some 5⟩ t.entries = [⟨4, 50⟩, ⟨5, 48⟩, ⟨5, 48⟩] := by
  intro entries
  have hsorted : TimeSorted entries.toList := by unfold TimeSorted; decide
  refine ⟨hsorted, ?_, ?_, ?_, ?_⟩
  · rw [(select_exact _).1 entries hsorted]
    decide
  · rw [(select_exact _).1 entries hsorted]
    decide
  · rw [(select_exact _).1 entries hsorted]
    decide
  · obtain ⟨r, hopen, _, _, hseries⟩ := ofFile_forged
    refine ⟨r, _, hopen, hseries ▸ List.mem_singleton_self _, ?_⟩
    rw [(select_exact _).2 forged .default r hopen _ (hseries ▸ List.mem_singleton_self _)]
    decide

end Reader

end SeriesLog
