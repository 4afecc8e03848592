import SeriesLog.Proofs.Reader.Faithful
import SeriesLog.Proofs.Reader.Lookup
import SeriesLog.Reader.Session

/-! # Answers of a session

A reader answers alike wherever its stream is, so no answer depends on what was asked before. The
check of the index finds what the queries of all series find, one after another. -/
namespace SeriesLog

def tally {ε α : Type} : List (Except ε α) → Except ε Nat
  | [] => .ok 0
  | .error e :: _ => .error e
  | .ok _ :: rest => (tally rest).map (1 + ·)

section Tally

variable {ε α β : Type}

theorem map_add_map_add (count : Except ε Nat) (m n : Nat) :
    (count.map (n + ·)).map (m + ·) = count.map (m + n + ·) := by
  cases count with
  | error e => rfl
  | ok k => simp only [Except.map, Nat.add_assoc]

theorem map_zero_add (count : Except ε Nat) : count.map (0 + ·) = count := by
  cases count with
  | error e => rfl
  | ok k => simp only [Except.map, Nat.zero_add]

theorem tally_append (first second : List (Except ε α)) :
    tally (first ++ second) = match tally first with
      | .error e => .error e
      | .ok n => (tally second).map (n + ·) := by
  induction first with
  | nil =>
    rw [List.nil_append, tally]
    exact (map_zero_add _).symm
  | cons item rest ih =>
    cases item with
    | error e => rfl
    | ok a =>
      rw [List.cons_append, tally, tally, ih]
      cases tally rest with
      | error e => rfl
      | ok n => exact map_add_map_add _ _ _

theorem map_length_mapM (f : β → Except ε α) (xs : List β) :
    (xs.mapM f).map List.length = tally (xs.map f) := by
  induction xs with
  | nil => rfl
  | cons x rest ih =>
    rw [List.mapM_cons, List.map_cons]
    cases f x with
    | error e => rfl
    | ok a =>
      rw [tally, ← ih]
      cases rest.mapM f with
      | error e => rfl
      | ok found => exact congrArg Except.ok (Nat.add_comm _ _)

theorem tally_eq_ok_iff {items : List (Except ε α)} {n : Nat} :
    tally items = .ok n ↔ (∀ item ∈ items, ∃ a, item = .ok a) ∧ n = items.length := by
  induction items generalizing n with
  | nil => simp [tally, eq_comm]
  | cons item rest ih =>
    cases item with
    | error e => simp [tally]
    | ok a =>
      constructor
      · intro h
        obtain ⟨m, hm, rfl⟩ := exists_of_map_eq_ok h
        obtain ⟨hrest, rfl⟩ := ih.1 hm
        exact ⟨List.forall_mem_cons.2 ⟨⟨a, rfl⟩, hrest⟩, Nat.add_comm _ _⟩
      · rintro ⟨hall, rfl⟩
        rw [tally, ih.2 ⟨(List.forall_mem_cons.1 hall).2, rfl⟩]
        exact congrArg Except.ok (Nat.add_comm _ _)

theorem tally_eq_error_iff {items : List (Except ε α)} {e : ε} :
    tally items = .error e ↔ ∃ before after, items = before ++ .error e :: after ∧
      ∀ item ∈ before, ∃ a, item = .ok a := by
  constructor
  · intro h
    induction items with
    | nil => cases h
    | cons item rest ih =>
      cases item with
      | error other =>
        cases h
        exact ⟨[], rest, rfl, fun item hitem => absurd hitem List.not_mem_nil⟩
      | ok a =>
        have hrest : tally rest = .error e := by
          rw [tally] at h
          cases hrest : tally rest with
          | error other =>
            rw [hrest] at h
            cases h
            rfl
          | ok n =>
            rw [hrest] at h
            cases h
        obtain ⟨before, after, rfl, hbefore⟩ := ih hrest
        exact ⟨.ok a :: before, after, rfl, List.forall_mem_cons.2 ⟨⟨a, rfl⟩, hbefore⟩⟩
  · rintro ⟨before, after, rfl, hbefore⟩
    rw [tally_append, tally_eq_ok_iff.2 ⟨hbefore, rfl⟩]
    rfl

end Tally

namespace Reader.Session

variable {r : Reader} (s : Session r)

theorem ahead_take (count : Nat) (error : Shortfall → FormatError) :
    s.ahead.take count error = (s.take count error).1.map fun bytes =>
      (bytes, (s.take count error).2.ahead) := by
  unfold take
  cases h : s.ahead.take count error with
  | error e => rfl
  | ok cut =>
    obtain ⟨bytes, rest⟩ := cut
    obtain ⟨hlength, hbytes, hfault⟩ := Source.take_ok h
    have hrest : rest.bytes = r.file.drop (s.position + count) := by
      rw [← List.drop_drop, ← hlength]
      exact List.drop_left.symm.trans (congrArg (List.drop bytes.length) hbytes.symm)
    have hsource : rest = (s.seek (s.position + count)).ahead := by
      obtain ⟨restBytes, restFault⟩ := rest
      dsimp only at hrest hfault
      rw [hrest, hfault]
      rfl
    rw [hsource]
    rfl

theorem ahead_readHeader : s.ahead.readHeader = s.readHeader.1.map fun header =>
    (header, s.readHeader.2.ahead) := by
  unfold Source.readHeader readHeader
  rw [ahead_take]
  rcases s.take headerSize (Source.exactErrorOf .header) with ⟨e | bytes, after⟩
  · rfl
  · rfl

theorem ahead_readBody (header : Header) :
    s.ahead.readBody header.type header.size r.config.maxBlockSize =
      (s.readBody header).1.map fun body => (body, (s.readBody header).2.ahead) := by
  unfold Source.readBody readBody
  dsimp only
  split
  · rfl
  · rw [ahead_take]

theorem readBlock_fst (index : UInt32) (entry : IndexEntry) :
    (s.readBlock index entry).1 = r.record index entry := by
  unfold readBlock record Reader.readBlock
  dsimp only
  split
  · rfl
  have hahead : Source.ofBytes (r.file.drop entry.offset.toNat) =
      (s.seek entry.offset.toNat).ahead := rfl
  rw [hahead, ahead_readHeader]
  rcases (s.seek entry.offset.toNat).readHeader with ⟨e | header, s⟩
  · rfl
  simp only [Except.map]
  split
  · rfl
  split
  · rfl
  rw [ahead_readBody]
  rcases s.readBody header with ⟨e | body, s⟩
  · rfl
  · rfl

theorem consume_eq (q : Query) (count : Nat) :
    (s.consume q count).1 =
        ((q.entries.drop q.taken).take count).map (r.record q.index) ∧
      (s.consume q count).2.1.remaining = q.remaining - count := by
  induction count generalizing s q with
  | zero => exact ⟨rfl, rfl⟩
  | succ count ih =>
    unfold consume next
    cases hentry : q.entries[q.taken]? with
    | none =>
      have hend := List.getElem?_eq_none_iff.1 hentry
      simp only [Query.remaining]
      rw [List.drop_eq_nil_of_le hend, List.take_nil, List.map_nil]
      exact ⟨rfl, by omega⟩
    | some entry =>
      obtain ⟨hlt, hget⟩ := List.getElem?_eq_some_iff.1 hentry
      obtain ⟨hitems, hremaining⟩ := ih (s.readBlock q.index entry).2 { q with taken := q.taken + 1 }
      dsimp only
      rw [hitems, hremaining, List.drop_eq_getElem_cons hlt, hget, List.take_succ_cons,
        List.map_cons, readBlock_fst]
      refine ⟨rfl, ?_⟩
      simp only [Query.remaining]
      omega

theorem answer_records (selector : Selector) (range : TimeRange) (count : Nat) :
    (s.answer (.records selector range count)).1 =
      .records ((r.records selector range).map fun items =>
        (items.take count, items.length - count)) := by
  cases hselect : r.select selector range with
  | error e => simp only [answer, query, records, hselect, Except.map]
  | ok found =>
    obtain ⟨index, entries⟩ := found
    obtain ⟨hitems, hremaining⟩ := s.consume_eq ⟨index, entries, 0⟩ count
    simp only [answer, query, records, hselect, Except.map, hitems, hremaining]
    simp only [List.drop_zero, Query.remaining, Nat.sub_zero, List.map_take, List.length_map]

end Session

def sweep (r : Reader) (series : List (Timeline × Nat)) :
    List (List (Except LogError DataRecord)) :=
  series.map fun (t, place) => t.entries.toList.map (r.record (UInt32.ofNat place))

namespace Session

variable {r : Reader} (s : Session r)

theorem checkEntries_fst (index : UInt32) (checked : Nat) (entries : List IndexEntry) :
    (s.checkEntries index checked entries).1 =
      (tally (entries.map (r.record index))).map (checked + ·) := by
  induction entries generalizing s checked with
  | nil => rfl
  | cons entry rest ih =>
    have hread := s.readBlock_fst index entry
    unfold checkEntries
    rw [List.map_cons, ← hread]
    rcases s.readBlock index entry with ⟨e | q, after⟩
    · rfl
    · dsimp only
      rw [ih, tally, map_add_map_add]

theorem checkSeries_fst (checked : Nat) (series : List (Timeline × Nat)) :
    (s.checkSeries checked series).1 = (tally (r.sweep series).flatten).map (checked + ·) := by
  induction series generalizing s checked with
  | nil => rfl
  | cons head rest ih =>
    obtain ⟨t, place⟩ := head
    have hhead := s.checkEntries_fst (UInt32.ofNat place) checked t.entries.toList
    unfold checkSeries
    rw [sweep, List.map_cons, List.flatten_cons, tally_append]
    cases hread : s.checkEntries (UInt32.ofNat place) checked t.entries.toList with
    | mk result after =>
      rw [hread] at hhead
      dsimp only at hhead ⊢
      rw [hhead]
      cases tally (t.entries.toList.map (r.record (UInt32.ofNat place))) with
      | error e => rfl
      | ok n =>
        dsimp only [Except.map]
        rw [ih, sweep]
        exact (map_add_map_add _ _ _).symm

end Session

theorem verifyIndex_eq_tally (r : Reader) :
    r.verifyIndex = tally (r.sweep r.series.zipIdx).flatten := by
  rw [verifyIndex, map_length_mapM, allEntries, List.map_flatMap, sweep, List.flatMap_def]
  simp only [List.map_map, Function.comp_def]

namespace Session

variable {r : Reader} (s : Session r)

theorem verifyIndex_fst : s.verifyIndex.1 = r.verifyIndex := by
  rw [verifyIndex, checkSeries_fst, verifyIndex_eq_tally, map_zero_add]

theorem drain_fst (left : Nat) (read : Bytes) :
    (s.drain left read).1 = read ++ (r.file.drop s.position).take left := by
  fun_induction drain s left read with
  | case1 s left read bytes hmore ih =>
    have hlength : bytes.length ≤ left :=
      Nat.le_trans (List.length_take_le _ _) (Nat.min_le_right _ _)
    obtain ⟨rest, hrest⟩ : bytes <+: r.file.drop s.position := List.take_prefix _ _
    rw [ih, seek, List.append_assoc, ← List.drop_drop, ← hrest, List.drop_left, List.take_append,
      List.take_of_length_le hlength]
  | case2 s left read bytes hend =>
    have hnone : left = 0 ∨ r.file.drop s.position = [] := by
      rcases List.take_eq_nil_iff.1 (not_not.1 hend) with hzero | hnil
      · unfold bufferSize at hzero
        exact .inl (by omega)
      · exact .inr hnil
    rcases hnone with rfl | hnil
    · rw [List.take_zero, List.append_nil]
    · rw [hnil, List.take_nil, List.append_nil]

theorem verifyChecksum_fst : s.verifyChecksum.1 = r.verifyChecksum := by
  unfold verifyChecksum Reader.verifyChecksum
  cases r.trailer with
  | none => rfl
  | some trailer =>
    dsimp only
    rw [drain_fst]
    rfl

end Session

def reply (r : Reader) : Inquiry → Reply
  | .records selector range count =>
    .records ((r.records selector range).map fun items =>
      (items.take count, items.length - count))
  | .index => .index r.verifyIndex
  | .checksum => .checksum r.verifyChecksum

theorem Session.answer_fst {r : Reader} (s : Session r) (inquiry : Inquiry) :
    (s.answer inquiry).1 = r.reply inquiry := by
  cases inquiry with
  | records selector range count => exact s.answer_records selector range count
  | index => exact congrArg Reply.index s.verifyIndex_fst
  | checksum => exact congrArg Reply.checksum s.verifyChecksum_fst

theorem Session.run_fst {r : Reader} (s : Session r) (inquiries : List Inquiry) :
    (s.run inquiries).1 = inquiries.map r.reply := by
  induction inquiries generalizing s with
  | nil => rfl
  | cons inquiry rest ih =>
    rw [List.map_cons, ← s.answer_fst, ← ih (s.answer inquiry).2]
    rfl

variable {file : Bytes} {c : ReaderConfig} {r : Reader}

/-- The check of the index against the queries of all series without bounds, one after another. -/
structure Complete (r : Reader) (yielded : List (List (Except LogError DataRecord))) : Prop where
  count : yielded.length = r.series.length
  queried : ∀ (i : Nat) (items : List (Except LogError DataRecord)), yielded[i]? = some items →
    r.records (.numbered (UInt32.ofNat i)) .all = .ok items
  /-- A query reads the entries of its series in time order. -/
  ordered : ∀ (i : Nat) (t : Timeline), r.series[i]? = some t → TimeSorted t.entries.toList ∧
    yielded[i]? = some (t.entries.toList.map (r.record (UInt32.ofNat i)))
  /-- A series can be queried in every range. -/
  answered : ∀ i < r.series.length, ∀ range : TimeRange, ∃ items,
    r.records (.numbered (UInt32.ofNat i)) range = .ok items
  passes : ∀ n, r.verifyIndex = .ok n ↔
    (∀ (selector : Selector) (range : TimeRange) (items : List (Except LogError DataRecord)),
      r.records selector range = .ok items → ∀ item ∈ items, ∃ q, item = .ok q) ∧
    n = (yielded.map List.length).sum
  fails : ∀ e, r.verifyIndex = .error e ↔ ∃ before after,
    yielded.flatten = before ++ .error e :: after ∧ ∀ item ∈ before, ∃ q, item = .ok q
  unaffected : ∀ (s : Session r) (inquiries : List Inquiry),
    (s.run inquiries).1 = inquiries.map r.reply

theorem select_all (entries : Array IndexEntry) : TimeRange.all.select entries = entries.toList := by
  simp [TimeRange.select, TimeRange.all, TimeRange.firstPosition, TimeRange.endPosition]

theorem records_numbered (hcount : r.series.length ≤ 2 ^ 32) {i : Nat} {t : Timeline}
    (ht : r.series[i]? = some t) (range : TimeRange) :
    r.records (.numbered (UInt32.ofNat i)) range =
      .ok ((range.select t.entries).map (r.record (UInt32.ofNat i))) := by
  obtain ⟨hlt, _⟩ := List.getElem?_eq_some_iff.1 ht
  have hindex : (UInt32.ofNat i).toNat = i :=
    UInt32.toNat_ofNat_of_lt' (Nat.lt_of_lt_of_le hlt hcount)
  unfold records select find position?
  simp only [hindex, hlt, if_true, Except.map, ht, Option.map_some, Option.getD_some]

theorem getElem?_sweep (r : Reader) (i : Nat) :
    (r.sweep r.series.zipIdx)[i]? =
      r.series[i]?.map fun t => t.entries.toList.map (r.record (UInt32.ofNat i)) := by
  rw [sweep, List.getElem?_map, List.getElem?_zipIdx, Option.map_map]
  simp only [Function.comp_def, Nat.zero_add]

theorem length_sweep (r : Reader) : (r.sweep r.series.zipIdx).length = r.series.length := by
  rw [sweep, List.length_map, List.length_zipIdx]

theorem records_of_sweep (hcount : r.series.length ≤ 2 ^ 32) {i : Nat}
    {items : List (Except LogError DataRecord)}
    (hitems : (r.sweep r.series.zipIdx)[i]? = some items) :
    r.records (.numbered (UInt32.ofNat i)) .all = .ok items := by
  rw [getElem?_sweep, Option.map_eq_some_iff] at hitems
  obtain ⟨t, ht, rfl⟩ := hitems
  rw [records_numbered hcount ht, select_all]

theorem mem_sweep_of_records (hsorted : ∀ t ∈ r.series, TimeSorted t.entries.toList)
    {selector : Selector} {range : TimeRange} {items : List (Except LogError DataRecord)}
    (h : r.records selector range = .ok items) {item : Except LogError DataRecord}
    (hitem : item ∈ items) : item ∈ (r.sweep r.series.zipIdx).flatten := by
  obtain ⟨index, t, _, ht, rfl⟩ := records_eq_ok h
  obtain ⟨entry, hentry, rfl⟩ := List.mem_map.1 hitem
  rw [TimeRange.select_eq_filter (hsorted t (List.mem_of_getElem? ht))] at hentry
  have hlist := r.getElem?_sweep index.toNat
  rw [ht, Option.map_some, UInt32.ofNat_toNat] at hlist
  exact List.mem_flatten_of_mem (List.mem_of_getElem? hlist)
    (List.mem_map_of_mem (List.mem_filter.1 hentry).1)

theorem queries_ok_iff (hcount : r.series.length ≤ 2 ^ 32)
    (hsorted : ∀ t ∈ r.series, TimeSorted t.entries.toList) :
    (∀ (selector : Selector) (range : TimeRange) (items : List (Except LogError DataRecord)),
      r.records selector range = .ok items → ∀ item ∈ items, ∃ q, item = .ok q) ↔
    ∀ item ∈ (r.sweep r.series.zipIdx).flatten, ∃ q, item = .ok q := by
  constructor
  · intro h item hitem
    obtain ⟨items, hitems, hin⟩ := List.mem_flatten.1 hitem
    obtain ⟨i, hi⟩ := List.mem_iff_getElem?.1 hitems
    exact h _ _ items (records_of_sweep hcount hi) item hin
  · intro h selector range items hitems item hitem
    exact h item (mem_sweep_of_records hsorted hitems hitem)

/-- In every file that opens, the index passes its check exactly if no query finds an error, and
otherwise the check finds the error that the queries of the series find first. -/
theorem verification_complete (hopen : ofFile file c = .ok r) :
    ∃ yielded, r.Complete yielded := by
  have hcount := length_series_le hopen
  have hsorted := (ofFile_eq_ok hopen).2
  refine ⟨r.sweep r.series.zipIdx, ?_, ?_, ?_, ?_, ?_, ?_, ?_⟩
  · exact r.length_sweep
  · exact fun i items hitems => records_of_sweep hcount hitems
  · intro i t ht
    rw [getElem?_sweep, ht]
    exact ⟨hsorted t (List.mem_of_getElem? ht), rfl⟩
  · intro i hi range
    exact ⟨_, records_numbered hcount (List.getElem?_eq_getElem hi) range⟩
  · intro n
    rw [verifyIndex_eq_tally, tally_eq_ok_iff, queries_ok_iff hcount hsorted, List.length_flatten]
  · intro e
    rw [verifyIndex_eq_tally, tally_eq_error_iff]
  · exact fun s inquiries => s.run_fst inquiries

/-- The check stops at the entry that points into a block, with the error that the query of the
series yields behind the first block. Reading a part of a query before it changes nothing. -/
theorem verification_complete_forged :
    ∃ r yielded, ofFile forged .default = .ok r ∧ r.Complete yielded ∧
      (r.records (.numbered 0) .all).toOption.map
        (fun items => items.map fun item => item.toOption.map (·.offset)) =
        some [some 63, none, some 48, some 48, none] ∧
      r.verifyIndex = .error (.corruptIndex (.notDataBlock 50 .descriptor)) ∧
      ((Session.mk (r := r) 7).run [.records (.numbered 0) .all 2, .index, .index]).1 =
        [r.reply (.records (.numbered 0) .all 2), .index r.verifyIndex,
          .index r.verifyIndex] := by
  obtain ⟨r, hopen, hfile, hconfig, hseries⟩ := ofFile_forged
  obtain ⟨yielded, hcomplete⟩ := verification_complete hopen
  have hrecord : ∀ index, r.record index = readBlock forged defaultMaxBlockSize index := by
    intro index
    funext entry
    rw [record, hfile, hconfig]
    rfl
  refine ⟨r, yielded, hopen, hcomplete, ?_, ?_, hcomplete.unaffected _ _⟩
  · have hat : r.series[0]? = some ⟨.make 0 (.ofType "a") .untyped [] .empty,
        #[⟨3, 63⟩, ⟨4, 50⟩, ⟨5, 48⟩, ⟨5, 48⟩, ⟨9, 48⟩]⟩ := by rw [hseries]; rfl
    have hquery := records_numbered (by rw [hseries]; decide) hat .all
    rw [select_all, hrecord] at hquery
    rw [show Selector.numbered 0 = .numbered (UInt32.ofNat 0) from rfl, hquery]
    decide +kernel
  · rw [verifyIndex_eq_tally, hseries, sweep]
    simp only [hrecord]
    decide +kernel

end Reader

end SeriesLog
