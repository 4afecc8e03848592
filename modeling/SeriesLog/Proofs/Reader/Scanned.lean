import Mathlib.Data.List.Forall2
import SeriesLog.Proofs.Reader.Faithful
import SeriesLog.Proofs.Reader.Verify
import SeriesLog.Proofs.Scan.Bare

/-! # Reading a scanned file

Where a reader knows the places of the blocks from a scan, every entry is that of a data block that
stands in the file, whatever else the file holds. Reading it yields the block, or tells that the
block is beyond the limit of the reader, which the scan did not look at. -/
namespace SeriesLog

/-- Whether a data block with some body stands in a file at an offset. -/
def BodyAt (file : Bytes) (offset : Nat) (body : Bytes) : Prop :=
  ∃ before rest : Bytes, file = before ++ (Block.mk .data body).encode ++ rest ∧
    before.length = offset

theorem DataRecord.StandsIn.readBlock {p : DataRecord} {file : Bytes} (h : p.StandsIn file)
    (limit : Nat) :
    ∃ body, BodyAt file p.offset.toNat body ∧
      Reader.readBlock file limit p.series p.entry =
        if limit < body.length then .error (.format (.tooLarge body.length limit)) else .ok p := by
  obtain ⟨before, body, rest, hfile, hplace, hmax, hdecode⟩ := h
  refine ⟨body, ⟨before, rest, hfile, hplace⟩, ?_⟩
  rw [hfile]
  exact Reader.readBlock_append hmax hdecode hplace.symm rfl rfl

def ScanItem.LiesIn (file : Bytes) : ScanItem → Prop
  | block place _ (.data d _) =>
    ∃ payload, DataRecord.StandsIn
      ⟨d.series, d.timestamp, d.position, d.indexValues, payload, UInt64.ofNat place⟩ file
  | _ => True

theorem ScanItem.liesIn_of_mem_scan {c : ScanConfig} {file : Bytes} (hsize : file.length < 2 ^ 64)
    {item : ScanItem} (h : item ∈ ((Source.ofBytes file).scan c).items) : item.LiesIn file := by
  unfold LiesIn
  split
  · obtain ⟨before, body, behind, payload, _, hbytes, rfl, hmax, hdecode⟩ := Scan.data_of_mem_scan h
    refine ⟨payload, before, body, behind, hbytes, ?_, hmax, hdecode⟩
    have hlength := congrArg List.length hbytes
    rw [List.length_append, List.length_append] at hlength
    change file.length = _ at hlength
    rw [UInt64.toNat_ofNat']
    exact (Nat.mod_eq_of_lt (by omega)).symm
  · trivial

namespace Reader

variable {file : Bytes} {c : ReaderConfig} {r : Reader}

/-- A table whose series have the numbers of their positions, and whose entries are those of data
blocks of the series that stand in the file. -/
structure Located (file : Bytes) (found : List SeriesState) : Prop where
  numbered : ∀ (i : Nat) (s : SeriesState), found[i]? = some s → s.descriptor.index.toNat = i
  stands : ∀ (i : Nat) (s : SeriesState), found[i]? = some s → ∀ e ∈ s.entries,
    ∃ q : DataRecord, q.series.toNat = i ∧ q.entry = e ∧ q.StandsIn file

theorem Located.nil : Located file [] := by
  constructor
  · intro i s hs
    cases hs
  · intro i s hs
    cases hs

theorem Located.declare {found : List SeriesState} (h : Located file found) {d : SeriesDescriptor}
    (hnext : d.index.toNat = found.length) : Located file (found ++ [.declared d]) := by
  constructor
  · intro i s hs
    rcases getElem?_concat_cases hs with hold | ⟨rfl, rfl⟩
    · exact h.numbered i s hold
    · exact hnext
  · intro i s hs e he
    rcases getElem?_concat_cases hs with hold | ⟨rfl, rfl⟩
    · exact h.stands i s hold e he
    · cases he

theorem Located.record {found : List SeriesState} (h : Located file found) {q : DataRecord}
    (hq : q.StandsIn file) :
    Located file (found.modify q.series.toNat fun s => s.record q.entry) := by
  constructor
  · intro i s hs
    obtain ⟨t, ht, ⟨_, rfl⟩ | ⟨_, rfl⟩⟩ := getElem?_modify_record hs
    · exact h.numbered i _ ht
    · exact h.numbered i t ht
  · intro i s hs e he
    obtain ⟨t, ht, ⟨_, rfl⟩ | ⟨rfl, rfl⟩⟩ := getElem?_modify_record hs
    · exact h.stands i _ ht e he
    · rw [SeriesState.entries_record] at he
      rcases List.mem_append.1 he with hold | hnew
      · exact h.stands _ t ht e hold
      · exact ⟨q, rfl, (List.mem_singleton.1 hnew).symm, hq⟩

/-- An item adds nothing to the table, the next series, or an entry for a block that stands in the
file. -/
theorem Located.collectItem {found next : List SeriesState} (h : Located file found)
    {item : ScanItem} (hitem : item.LiesIn file) (hnext : collectItem found item = .ok next) :
    Located file next := by
  cases item with
  | trailer offset t =>
    cases hnext
    exact h
  | block offset size content =>
    cases content with
    | data d payload =>
      cases hnext
      obtain ⟨kept, hstands⟩ := hitem
      exact h.record hstands
    | reserved code =>
      cases hnext
      exact h
    | undecodable reason =>
      cases hnext
      exact h
    | descriptor d =>
      cases d with
      | file d =>
        cases hnext
        exact h
      | index d =>
        cases hnext
        exact h
      | series d =>
        simp only [Reader.collectItem] at hnext
        split at hnext
        · cases hnext
          exact h
        split at hnext
        · next hlast =>
          cases hnext
          exact h.declare hlast
        · cases hnext

theorem Located.collect {found after : List SeriesState} {items : List ScanItem}
    (h : Located file found) (hitems : ∀ item ∈ items, item.LiesIn file)
    (hafter : collect found items = .ok after) : Located file after := by
  induction items generalizing found with
  | nil =>
    cases hafter
    exact h
  | cons item rest ih =>
    unfold Reader.collect at hafter
    split at hafter
    · cases hafter
    next next hnext =>
    have hfirst := h.collectItem (hitems item List.mem_cons_self) hnext
    exact ih hfirst (fun other hother => hitems other (List.mem_cons_of_mem item hother)) hafter

/-- The numbers of series have 32 bits. -/
theorem Located.length_le {found : List SeriesState} (h : Located file found) :
    found.length ≤ 2 ^ 32 := by
  by_contra hgt
  have hs := List.getElem?_eq_getElem (Nat.lt_of_not_le hgt)
  have hnumber := h.numbered _ _ hs
  have hlt := found[2 ^ 32].descriptor.index.toNat_lt
  omega

theorem lift_eq_ok {α : Type} {x : Except FormatError α} {a : α} (h : lift x = .ok a) :
    x = .ok a := by
  cases x with
  | error e => cases h
  | ok b => exact congrArg Except.ok (Except.ok.inj h)

theorem locate_eq_ok {trailer : Option Trailer} {source : IndexSource}
    {found : List SeriesIndex × Bool} (h : locate file c trailer = .ok (source, found)) :
    (∃ reason skip, source = .scan reason ∧ scanSeries file c skip = .ok found) ∨
      ∃ offset : UInt64, source = .fileIndex offset ∧
        loadIndex file offset.toNat c.maxBlockSize = .ok found.1 := by
  have hscan : ∀ reason, (lift (scanSeries file c (decide (reason = .unreadableIndex)))).map
      (fun found => (IndexSource.scan reason, found)) = .ok (source, found) →
      ∃ reason skip, source = .scan reason ∧ scanSeries file c skip = .ok found := by
    intro reason hmap
    obtain ⟨_, hlift, hpair⟩ := exists_of_map_eq_ok hmap
    cases hpair
    exact ⟨reason, _, rfl, lift_eq_ok hlift⟩
  unfold locate at h
  cases trailer with
  | none =>
    dsimp only at h
    split at h
    · exact .inl (hscan _ h)
    · cases h
  | some t =>
    dsimp only at h
    split at h
    · exact .inl (hscan _ h)
    split at h
    · next hload =>
      cases h
      exact .inr ⟨_, rfl, hload⟩
    · exact .inl (hscan _ h)
    · cases h

theorem ofFile_scan {reason : ScanReason} (h : ofFile file c = .ok r)
    (hsource : r.source = .scan reason) :
    r.file = file ∧ r.config = c ∧ ∃ skip found,
      collect [] ((Source.ofBytes file).scan (c.scan false skip)).items = .ok found ∧
      (∀ e, ((Source.ofBytes file).scan (c.scan false skip)).ending ≠ .failed e) ∧
      r.series = found.map fun s => s.toIndex.timeline := by
  unfold ofFile at h
  split at h
  · cases h
  obtain ⟨⟨source, series, torn⟩, hlocate, rfl⟩ := exists_of_map_eq_ok h
  obtain ⟨_, skip, _, hscan⟩ | ⟨_, hindex, _⟩ := locate_eq_ok hlocate
  case inr => cases hindex.symm.trans hsource
  unfold scanSeries at hscan
  dsimp only at hscan
  split at hscan
  · cases hscan
  next found hcollect =>
  split at hscan
  · cases hscan
  next hunfailed =>
  cases hscan
  exact ⟨rfl, rfl, skip, found, hcollect, hunfailed, List.map_map⟩

theorem ofFile_located {reason : ScanReason} (hopen : ofFile file c = .ok r)
    (hsource : r.source = .scan reason) (hsize : file.length < 2 ^ 64) :
    r.file = file ∧ r.config = c ∧ ∃ found, Located file found ∧
      r.series = found.map fun s => s.toIndex.timeline := by
  obtain ⟨hfile, hconfig, skip, found, hcollect, _, hseries⟩ := ofFile_scan hopen hsource
  refine ⟨hfile, hconfig, found, ?_, hseries⟩
  exact Located.nil.collect (fun item hitem => ScanItem.liesIn_of_mem_scan hsize hitem) hcollect

/-- What reading an entry comes to where a block of its series and time stands at its offset: that
block, or the error that its body is beyond the limit. -/
inductive EntryRead (file : Bytes) (limit : Nat) (index : UInt32) (entry : IndexEntry) :
    Except LogError DataRecord → Prop where
  | block {q : DataRecord} : q.series = index → q.timestamp = entry.timestamp →
      q.offset = entry.offset → q.StandsIn file → EntryRead file limit index entry (.ok q)
  | tooLarge {body : Bytes} : BodyAt file entry.offset.toNat body → limit < body.length →
      EntryRead file limit index entry (.error (.format (.tooLarge body.length limit)))

theorem Located.entryRead {found : List SeriesState} (h : Located file found) {i : Nat}
    {s : SeriesState} (hs : found[i]? = some s) {entry : IndexEntry} (hentry : entry ∈ s.entries)
    (limit : Nat) :
    EntryRead file limit (UInt32.ofNat i) entry
      (readBlock file limit (UInt32.ofNat i) entry) := by
  obtain ⟨q, rfl, rfl, hstands⟩ := h.stands i s hs entry hentry
  obtain ⟨body, hbody, hread⟩ := hstands.readBlock limit
  rw [UInt32.ofNat_toNat, hread]
  by_cases hlarge : limit < body.length
  · rw [if_pos hlarge]
    exact .tooLarge hbody hlarge
  · rw [if_neg hlarge]
    exact .block rfl rfl rfl hstands

/-- A reader whose entries are all those of data blocks that stand in its file. No entry, no query
and no verification can tell that the index is corrupt. -/
structure Grounded (file : Bytes) (limit : Nat) (r : Reader) : Prop where
  entry : ∀ (i : Nat) (t : Timeline), r.series[i]? = some t → ∀ entry ∈ t.entries.toList,
    EntryRead file limit (UInt32.ofNat i) entry (r.record (UInt32.ofNat i) entry)
  numbered : ∀ i < r.series.length, r.position? (.numbered (UInt32.ofNat i)) = some i
  query : ∀ (selector : Selector) (i : Nat), r.position? selector = some i → ∀ range : TimeRange,
    ∃ t items, r.series[i]? = some t ∧ r.records selector range = .ok items ∧
      List.Forall₂ (EntryRead file limit (UInt32.ofNat i))
        (t.entries.toList.filter fun entry => range.contains entry.timestamp) items
  verified : r.verifyIndex = .ok r.allEntries.length ∨
    ∃ p ∈ r.allEntries, ∃ body, BodyAt file p.2.offset.toNat body ∧ limit < body.length ∧
      r.verifyIndex = .error (.format (.tooLarge body.length limit))

theorem records_at {selector : Selector} {i : Nat} {t : Timeline}
    (hposition : r.position? selector = some i) (ht : r.series[i]? = some t) (hi : i < 2 ^ 32)
    (range : TimeRange) :
    r.records selector range =
      .ok ((range.select t.entries).map (r.record (UInt32.ofNat i))) := by
  have hindex : (UInt32.ofNat i).toNat = i := by
    rw [UInt32.toNat_ofNat']
    exact Nat.mod_eq_of_lt hi
  unfold records select find
  simp only [hposition, Except.map, hindex, ht, Option.map_some, Option.getD_some]

theorem query_of_entries {limit : Nat} (hcount : r.series.length ≤ 2 ^ 32)
    (hsorted : ∀ t ∈ r.series, TimeSorted t.entries.toList)
    (hentry : ∀ (i : Nat) (t : Timeline), r.series[i]? = some t → ∀ entry ∈ t.entries.toList,
      EntryRead file limit (UInt32.ofNat i) entry (r.record (UInt32.ofNat i) entry))
    {selector : Selector} {i : Nat} (hposition : r.position? selector = some i)
    (range : TimeRange) :
    ∃ t items, r.series[i]? = some t ∧ r.records selector range = .ok items ∧
      List.Forall₂ (EntryRead file limit (UInt32.ofNat i))
        (t.entries.toList.filter fun entry => range.contains entry.timestamp) items := by
  have hi := position?_lt hposition
  have ht := List.getElem?_eq_getElem hi
  have hselect := TimeRange.select_eq_filter (hsorted _ (List.mem_of_getElem? ht)) range
  refine ⟨_, _, ht, records_at hposition ht (by omega) range, ?_⟩
  rw [hselect, List.forall₂_map_right_iff, List.forall₂_same]
  intro entry hmem
  exact hentry i _ ht entry (List.mem_filter.1 hmem).1

theorem verify_of_entries {limit : Nat}
    (hentry : ∀ (i : Nat) (t : Timeline), r.series[i]? = some t → ∀ entry ∈ t.entries.toList,
      EntryRead file limit (UInt32.ofNat i) entry (r.record (UInt32.ofNat i) entry)) :
    r.verifyIndex = .ok r.allEntries.length ∨
      ∃ p ∈ r.allEntries, ∃ body, BodyAt file p.2.offset.toNat body ∧ limit < body.length ∧
        r.verifyIndex = .error (.format (.tooLarge body.length limit)) := by
  rcases mapM_cases (fun (index, entry) => r.record index entry) r.allEntries with
    ⟨found, hfound, hlength⟩ | ⟨⟨index, entry⟩, hmem, e, herror, hall⟩
  · left
    rw [verifyIndex, hfound, Except.map, hlength]
  · right
    -- an entry that fails is one of a series, and of an entry only its size can fail
    obtain ⟨⟨t, i⟩, hseries, hin⟩ := List.mem_flatMap.1 hmem
    obtain ⟨_, hread, hpair⟩ := List.mem_map.1 hin
    cases hpair
    have houtcome := hentry i t (List.mem_zipIdx_iff_getElem?.1 hseries) entry hread
    dsimp only at herror
    rw [herror] at houtcome
    cases houtcome with
    | @tooLarge body hbody hlarge =>
      refine ⟨_, hmem, body, hbody, hlarge, ?_⟩
      rw [verifyIndex, hall]
      rfl

/-- Whatever the bytes of a file are: if it opens by a scan, every entry is read as the block of its
series and time that stands in the file, unless the body of that block is beyond the limit. -/
theorem scanned_grounded {reason : ScanReason} (hopen : ofFile file c = .ok r)
    (hsource : r.source = .scan reason) (hsize : file.length < 2 ^ 64) :
    r.Grounded file c.maxBlockSize := by
  obtain ⟨hfile, hconfig, found, hlocated, hseries⟩ := ofFile_located hopen hsource hsize
  have hcount : r.series.length ≤ 2 ^ 32 := by
    rw [hseries, List.length_map]
    exact hlocated.length_le
  have hentry : ∀ (i : Nat) (t : Timeline), r.series[i]? = some t → ∀ entry ∈ t.entries.toList,
      EntryRead file c.maxBlockSize (UInt32.ofNat i) entry (r.record (UInt32.ofNat i) entry) := by
    intro i t ht entry hmem
    rw [hseries, List.getElem?_map, Option.map_eq_some_iff] at ht
    obtain ⟨s, hs, rfl⟩ := ht
    have hmem : entry ∈ s.entries := List.mem_mergeSort.1 hmem
    rw [record, hfile, hconfig]
    exact hlocated.entryRead hs hmem c.maxBlockSize
  constructor
  · exact hentry
  · intro i hi
    have hindex : (UInt32.ofNat i).toNat = i := by
      rw [UInt32.toNat_ofNat']
      exact Nat.mod_eq_of_lt (by omega)
    rw [position?, hindex, if_pos hi]
  · intro selector i hposition range
    exact query_of_entries hcount (ofFile_eq_ok hopen).2 hentry hposition range
  · exact verify_of_entries hentry

/-- A log without a trailer that ends inside a header. The second of its two data blocks has a body
of 34 bytes. -/
def overlong : Bytes :=
  logBytes .empty [.series (.make 0 (.ofType "a") .untyped [] .empty), .data ⟨0, 5, 0, []⟩ [1],
    .data ⟨0, 3, 1, []⟩ (List.replicate 26 2)] ++ [2, 0, 0]

/-- The scan passes over the payloads, so the limit of 18 bytes shows only when they are read. -/
theorem scanned_grounded_overlong :
    (scanSeries overlong { ReaderConfig.default with maxBlockSize := 18 } false).toOption.map
        (fun found => found.1.map fun s => s.entries) = some [[⟨5, 48⟩, ⟨3, 63⟩]] ∧
    readBlock overlong 18 0 ⟨5, 48⟩ = .ok ⟨0, 5, 0, [], [1], 48⟩ ∧
    readBlock overlong 18 0 ⟨3, 63⟩ = .error (.format (.tooLarge 34 18)) ∧
    ∃ r, ofFile overlong { ReaderConfig.default with maxBlockSize := 18 } = .ok r ∧
      r.source = .scan .unsealed ∧ r.torn = true ∧ overlong.length < 2 ^ 64 ∧
      r.Grounded overlong 18 := by
  refine ⟨by decide +kernel, by decide +kernel, by decide +kernel, ?_⟩
  have hfacts : (ofFile overlong { ReaderConfig.default with maxBlockSize := 18 }).toOption.map
      (fun r => (r.source, r.torn)) = some (.scan .unsealed, true) := by decide +kernel
  have hsize : overlong.length < 2 ^ 64 := by decide +kernel
  cases hopen : ofFile overlong { ReaderConfig.default with maxBlockSize := 18 } with
  | error e =>
    rw [hopen] at hfacts
    cases hfacts
  | ok r =>
    rw [hopen] at hfacts
    simp only [Except.toOption, Option.map_some, Option.some.injEq, Prod.mk.injEq] at hfacts
    obtain ⟨hsource, htorn⟩ := hfacts
    exact ⟨r, rfl, hsource, htorn, hsize, scanned_grounded hopen hsource hsize⟩

end Reader

end SeriesLog
