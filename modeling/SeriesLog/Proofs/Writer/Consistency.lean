import SeriesLog.Proofs.Writer.Journal

/-! # Consistency of a writer

A writer keeps a table of series beside the bytes that it has put on its sink. Whatever is asked of
it, and wherever the sink runs full, the table describes the blocks that lie on the sink. -/
namespace SeriesLog.Writer

/-- The states of a writer and the locations it has answered, in order. Between two calls the room
on the sink may change, so that any write may fail. -/
inductive Reached (c : WriterConfig) : Writer → List BlockLocation → Prop where
  | start {sink : Sink} {w : Writer} : sink.bytes = [] → Writer.start c sink = .ok w →
      Reached c w []
  | call {w : Writer} {located : List BlockLocation} (call : Call) : Reached c w located →
      Reached c (w.answer call).2 (located ++ (location? (w.answer call).1).toList)
  | room {w : Writer} {located : List BlockLocation} (room : Option Nat) : Reached c w located →
      Reached c { w with sink := { w.sink with room } } located

/-- A whole data block of a series lies at an offset: the block that is number `k` of series `i`,
with one index value for each of `names` names. -/
structure BlockAt (bytes : Bytes) (offset i k names : Nat) (timestamp : Int64) (b : DataBlock) :
    Prop where
  lies : ∃ before body rest, bytes = before ++ (Block.mk .data body).encode ++ rest ∧
    before.length = offset ∧ DataBlock.decode body = .ok b
  series : b.descriptor.series.toNat = i
  timestamp : b.descriptor.timestamp = timestamp
  position : b.descriptor.position.toNat = k
  arity : b.descriptor.indexValues.length = names

/-- The table of a writer describes the blocks on its sink. -/
structure Consistent (w : Writer) (located : List BlockLocation) : Prop where
  numbered : ∀ (i : Nat) (s : SeriesState), w.series[i]? = some s → s.descriptor.index.toNat = i
  looked_up : ∀ (i : Nat) (id : SeriesId), w.indexOf? id = some i ↔
    ∃ s, w.series[i]? = some s ∧ s.descriptor.id = id
  distinct : (w.series.map fun s => s.descriptor.id).Nodup
  hashed : ∀ s ∈ w.series, s.descriptor.idHash = s.descriptor.id.hash
  annotated : ∀ s ∈ w.series, Annotations.fault? s.descriptor.annotations = none
  bounded : ∀ s ∈ w.series, ∀ shape, s.descriptor.kind = .pod shape → shape.sampleSize.isSome
  counted : ∀ s ∈ w.series, s.nextPosition = s.entries.length
  placed : ∀ (i : Nat) (s : SeriesState) (k : Nat) (e : IndexEntry),
    w.series[i]? = some s → s.entries[k]? = some e →
    ∃ b, BlockAt w.sink.bytes e.offset.toNat i k s.descriptor.indexNames.length e.timestamp b
  listed : ∀ (i : Nat) (s : SeriesState), w.series[i]? = some s →
    (s.entries.map fun e => e.offset.toNat) =
      (located.filter fun l => l.series.toNat = i).map fun l => l.offset
  owned : ∀ l ∈ located, l.series.toNat < w.series.length
  ascending : located.Pairwise fun l m => l.offset < m.offset
  below : ∀ l ∈ located, l.offset < w.position

/-- What every call preserves. Numbers are reduced to their width here, so that no bound on the
length of the log is needed. -/
structure Kept (w : Writer) (located : List BlockLocation) : Prop where
  orderly : Orderly w.series
  aligned : w.phase ≠ .closed → w.position = w.sink.bytes.length
  placed : ∀ (i : Nat) (s : SeriesState) (k : Nat) (e : IndexEntry),
    w.series[i]? = some s → s.entries[k]? = some e →
    ∃ (before rest : Bytes) (values : List Int64) (payload : Bytes),
      let d : DataDescriptor := ⟨s.descriptor.index, e.timestamp, UInt64.ofNat k, values⟩
      w.sink.bytes = before ++ (Addition.data d payload).block.encode ++ rest ∧
        e.offset = UInt64.ofNat before.length ∧ before.length < w.position ∧
        d.encode.length < 2 ^ 32 ∧ values.length = s.descriptor.indexNames.length
  listed : ∀ (i : Nat) (s : SeriesState), w.series[i]? = some s →
    s.entries.map IndexEntry.offset =
      (located.filter fun l => l.series.toNat = i).map fun l => UInt64.ofNat l.offset
  owned : ∀ l ∈ located, l.series.toNat < w.series.length
  ascending : located.Pairwise fun l m => l.offset < m.offset
  below : ∀ l ∈ located, l.offset < w.position

variable {w : Writer} {located : List BlockLocation}

/-- More bytes on the sink change nothing for a table that stays. -/
theorem Kept.extend (h : Kept w located) {after : Writer} {taken : Bytes}
    (hbytes : after.sink.bytes = w.sink.bytes ++ taken) (hposition : w.position ≤ after.position)
    (hseries : after.series = w.series)
    (haligned : after.phase ≠ .closed → after.position = after.sink.bytes.length) :
    Kept after located := by
  constructor
  · rw [hseries]
    exact h.orderly
  · exact haligned
  · intro i s k e hs he
    rw [hseries] at hs
    obtain ⟨before, rest, values, payload, hlies, hoffset, hlt, hsize, harity⟩ :=
      h.placed i s k e hs he
    refine ⟨before, rest ++ taken, values, payload, ?_, hoffset, by omega, hsize, harity⟩
    rw [hbytes, hlies, List.append_assoc]
  · intro i s hs
    rw [hseries] at hs
    exact h.listed i s hs
  · rw [hseries]
    exact h.owned
  · exact h.ascending
  · intro l hl
    have := h.below l hl
    omega

theorem Kept.extends (h : Kept w located) {after : Writer} {taken : Bytes}
    (hextends : w.Extends after taken) : Kept after located := by
  apply h.extend hextends.bytes
  · rw [hextends.position]
    exact Nat.le_add_right _ _
  · exact hextends.series
  · intro hopen
    rw [hextends.phase] at hopen
    rw [hextends.position, hextends.bytes, List.length_append, h.aligned hopen]

theorem Kept.series_added (h : Kept w located) {found : List SeriesState} {d : SeriesDescriptor}
    {offset : Nat} (hfound : w.series = found) (hadmits : Admits found (.series d)) :
    Kept (w.enter (.series d) offset) located := by
  subst hfound
  constructor
  · exact h.orderly.declare hadmits
  · exact h.aligned
  · intro i s k e hs he
    rcases getElem?_concat_cases hs with hold | ⟨_, rfl⟩
    · exact h.placed i s k e hold he
    · cases he
  · intro i s hs
    rcases getElem?_concat_cases hs with hold | ⟨rfl, rfl⟩
    · exact h.listed i s hold
    · -- no location belongs to a series that was not there
      symm
      simp only [SeriesState.entries_declared, List.map_nil, List.map_eq_nil_iff,
        List.filter_eq_nil_iff, decide_eq_true_eq]
      intro l hl
      have := h.owned l hl
      omega
  · intro l hl
    have := h.owned l hl
    simp only [enter, Addition.enter, List.length_append, List.length_singleton]
    omega
  · exact h.ascending
  · exact h.below

theorem Kept.data_added (h : Kept w located) {d : DataDescriptor} {payload : Bytes}
    {after : Writer} (hopen : w.phase ≠ .closed) (hadmits : Admits w.series (.data d payload))
    (hextends : w.Extends after (Addition.data d payload).block.encode) {position : Nat} :
    Kept (after.enter (.data d payload) w.position)
      (located ++ [⟨d.series, position, w.position⟩]) := by
  have hkept := h.extends hextends
  have haligned := h.aligned hopen
  have hgrown : w.position < after.position := by
    have := (Addition.data d payload).size_pos
    rw [hextends.position, Block.length_encode]
    exact Nat.lt_add_of_pos_right this
  cases hadmits with
  | @data index t timestamp values payload ht harity hsize =>
    have hlt : index.toNat < w.series.length := (List.getElem?_eq_some_iff.1 ht).1
    have hindex : t.descriptor.index = index := by
      rw [h.orderly.numbered _ t ht, UInt32.ofNat_toNat]
    have hcount := h.orderly.counted t (List.mem_of_getElem? ht)
    have htable : after.series = w.series := hextends.series
    constructor
    · rw [enter, htable]
      exact h.orderly.record _ _
    · exact fun _ => hkept.aligned (by rw [hextends.phase]; exact hopen)
    · intro i s k e hs he
      simp only [enter, Addition.enter, htable] at hs
      obtain ⟨u, hu, ⟨_, rfl⟩ | ⟨rfl, rfl⟩⟩ := getElem?_modify_record hs
      · rw [← htable] at hu
        exact hkept.placed i _ k e hu he
      · cases ht.symm.trans hu
        rw [SeriesState.entries_record] at he
        rcases getElem?_concat_cases he with hold | ⟨rfl, rfl⟩
        · rw [← htable] at ht
          exact hkept.placed _ t k e ht hold
        · refine ⟨w.sink.bytes, [], values, payload, ?_, ?_, ?_, ?_, harity⟩
          · rw [List.append_nil, ← hcount]
            show after.sink.bytes = _
            rw [hextends.bytes]
            simp only [SeriesState.record, hindex]
          · rw [haligned]
          · rw [← haligned]
            exact hgrown
          · rw [← hcount]
            simp only [SeriesState.record, hindex]
            exact hsize
    · intro i s hs
      simp only [enter, Addition.enter, htable] at hs
      rw [List.filter_append, List.map_append]
      obtain ⟨u, hu, ⟨hne, rfl⟩ | ⟨rfl, rfl⟩⟩ := getElem?_modify_record hs
      · rw [h.listed i _ hu]
        have hother : ¬ index.toNat = i := Ne.symm hne
        simp [hother]
      · simp [h.listed _ u hu]
    · intro l hl
      simp only [enter, Addition.enter, htable, List.length_modify]
      rcases List.mem_append.1 hl with hl | hl
      · exact h.owned l hl
      · rw [List.mem_singleton.1 hl]
        exact hlt
    · rw [List.pairwise_append]
      refine ⟨h.ascending, List.pairwise_singleton _ _, ?_⟩
      intro l hl m hm
      rw [List.mem_singleton.1 hm]
      exact h.below l hl
    · intro l hl
      rcases List.mem_append.1 hl with hl | hl
      · exact Nat.lt_trans (h.below l hl) hgrown
      · rw [List.mem_singleton.1 hl]
        exact hgrown

theorem start_kept {c : WriterConfig} {sink : Sink} (hblank : sink.bytes = [])
    (h : Writer.start c sink = .ok w) : Kept w [] := by
  obtain ⟨_, _, hextends⟩ := start_eq_ok h
  have hseries : w.series = [] := hextends.series
  constructor
  · rw [hseries]
    exact .nil
  · intro _
    rw [hextends.position, hextends.bytes, hblank, List.nil_append, Nat.zero_add]
  · intro i s k e hs
    rw [hseries] at hs
    cases hs
  · intro i s hs
    rw [hseries] at hs
    cases hs
  · exact fun l hl => by cases hl
  · exact List.Pairwise.nil
  · exact fun l hl => by cases hl

theorem Kept.declare (h : Kept w located) (hopen : w.phase ≠ .closed) (id : SeriesId)
    (kind : SeriesKind) (indexNames : List String) (labels : Labels) :
    Kept (w.declare id kind indexNames labels).2 located := by
  cases hknown : w.indexOf? id with
  | some i =>
    obtain ⟨result, hdeclare, _⟩ := declare_known hopen hknown kind indexNames labels
    rw [hdeclare]
    exact h
  | none =>
    rcases declare_new hopen hknown kind indexNames labels with
      ⟨e, hdeclare, _⟩ | ⟨after, hdeclare, hadmits, _, hextends⟩ |
        ⟨e, after, taken, hdeclare, _, hextends⟩
    · rw [hdeclare]
      exact h
    · rw [hdeclare]
      exact (h.extends hextends).series_added hextends.series hadmits
    · rw [hdeclare]
      exact h.extends hextends

theorem Kept.appendTo (h : Kept w located) (hopen : w.phase ≠ .closed) (index : UInt32)
    (timestamp : Int64) (indexValues : List Int64) (payload : Bytes) :
    Kept (w.appendTo index timestamp indexValues payload).2
      (located ++ (location?
        ((w.appendTo index timestamp indexValues payload).1.map .located)).toList) := by
  have hnone : ∀ (e : LogError) (after : Writer), Kept after located →
      Kept after (located ++ (location? ((Except.error e : Except LogError BlockLocation).map
        .located)).toList) := by
    intro e after hafter
    simpa [Except.map, location?] using hafter
  rcases appendTo_cases hopen index timestamp indexValues payload with
    ⟨e, hrefused⟩ | ⟨s, after, _, happend, hadmits, _, _, hextends⟩ |
      ⟨e, after, taken, htorn, _, hextends⟩
  · rw [hrefused]
    exact hnone e w h
  · rw [happend]
    exact h.data_added hopen hadmits hextends
  · rw [htorn]
    exact hnone e after (h.extends hextends)

theorem Kept.append (h : Kept w located) (hopen : w.phase ≠ .closed) (id : SeriesId)
    (timestamp : Int64) (indexValues : List Int64) (payload : Bytes) :
    Kept (w.append id timestamp indexValues payload).2
      (located ++ (location?
        ((w.append id timestamp indexValues payload).1.map .located)).toList) := by
  have hkept := h.declare hopen id .untyped [] .empty
  obtain ⟨_, hattempt, _⟩ := declare_attempt hopen id .untyped [] .empty
  have hstill := hattempt.open_of_open hopen
  rcases append_cases w id timestamp indexValues payload with
    ⟨i, _, happend⟩ | ⟨_, ⟨e, after, hdeclare, happend⟩ | ⟨index, named, hdeclare, happend⟩⟩
  · rw [happend]
    exact h.appendTo hopen _ timestamp indexValues payload
  · rw [hdeclare] at hkept
    rw [happend]
    simpa [Except.map, location?] using hkept
  · rw [hdeclare] at hkept hstill
    rw [happend]
    exact hkept.appendTo hstill index timestamp indexValues payload

theorem Kept.answer (h : Kept w located) (call : Call) :
    Kept (w.answer call).2 (located ++ (location? (w.answer call).1).toList) := by
  by_cases hclosed : w.phase = .closed
  · obtain ⟨hsame, hnone⟩ := closed_answer hclosed call
    rw [hsame, hnone]
    simpa using h
  · cases call with
    | declare id kind indexNames labels =>
      have hkept := h.declare hclosed id kind indexNames labels
      simp only [Writer.answer]
      cases hdeclare : w.declare id kind indexNames labels with
      | mk result after =>
        rw [hdeclare] at hkept
        cases result <;> simpa [Except.map, location?] using hkept
    | append id timestamp indexValues payload => exact h.append hclosed _ _ _ _
    | appendTo index timestamp indexValues payload => exact h.appendTo hclosed _ _ _ _
    | appendSamples index timestamp indexValues values =>
      simp only [Writer.answer]
      rcases appendSamples_cases w index timestamp indexValues values with ⟨e, hrefused⟩ | hsame
      · rw [hrefused]
        simpa [Except.map, location?] using h
      · rw [hsame]
        exact h.appendTo hclosed _ _ _ _
    | flush => simpa [Writer.answer, location?] using h
    | close =>
      obtain ⟨taken, hbytes, hposition, hseries, hphase⟩ := close_adds w
      have hkept : Kept w.close.2 located :=
        h.extend hbytes hposition hseries fun hopen => absurd hphase hopen
      simp only [Writer.answer]
      cases hclose : w.close with
      | mk result after =>
        rw [hclose] at hkept
        cases result <;> simpa [Except.map, location?] using hkept

theorem reached_kept {c : WriterConfig} (h : Reached c w located) : Kept w located := by
  induction h with
  | start hblank hstart => exact start_kept hblank hstart
  | call call _ ih => exact ih.answer call
  | room room _ ih =>
    exact ⟨ih.orderly, ih.aligned, ih.placed, ih.listed, ih.owned, ih.ascending, ih.below⟩

theorem length_le_of_ascending {offsets : List Nat} {lo hi : Nat} (hle : lo ≤ hi)
    (hlo : ∀ x ∈ offsets, lo ≤ x) (hhi : ∀ x ∈ offsets, x < hi)
    (h : offsets.Pairwise fun x y => x < y) : lo + offsets.length ≤ hi := by
  induction offsets generalizing lo with
  | nil => exact hle
  | cons x rest ih =>
    obtain ⟨hx, hrest⟩ := List.pairwise_cons.1 h
    have hxlo := hlo x List.mem_cons_self
    have hxhi := hhi x List.mem_cons_self
    have hbound := @ih (lo + 1) (by omega)
      (fun y hy => by have := hx y hy; omega)
      (fun y hy => hhi y (List.mem_cons_of_mem x hy)) hrest
    rw [List.length_cons]
    omega

theorem Kept.length_entries_le (h : Kept w located) {i : Nat} {s : SeriesState}
    (hs : w.series[i]? = some s) : s.entries.length ≤ w.position := by
  have hlisted := congrArg List.length (h.listed i s hs)
  rw [List.length_map, List.length_map] at hlisted
  have hfilter := List.length_filter_le (fun l => decide (l.series.toNat = i)) located
  have hall : 0 + (located.map fun l => l.offset).length ≤ w.position := by
    apply length_le_of_ascending (Nat.zero_le _)
    · exact fun x _ => Nat.zero_le x
    · intro x hx
      obtain ⟨l, hl, rfl⟩ := List.mem_map.1 hx
      exact h.below l hl
    · rw [List.pairwise_map]
      exact h.ascending
  rw [List.length_map] at hall
  omega

theorem Kept.consistent (h : Kept w located) (hcount : w.series.length ≤ 2 ^ 32)
    (hsize : w.position < 2 ^ 64) : Consistent w located := by
  have hnumbered : ∀ (i : Nat) (s : SeriesState), w.series[i]? = some s →
      s.descriptor.index.toNat = i := by
    intro i s hs
    have hlt := (List.getElem?_eq_some_iff.1 hs).1
    rw [h.orderly.numbered i s hs, UInt32.toNat_ofNat']
    exact Nat.mod_eq_of_lt (by omega)
  have hwidth : ∀ n, n ≤ w.position → (UInt64.ofNat n).toNat = n := by
    intro n hn
    rw [UInt64.toNat_ofNat']
    exact Nat.mod_eq_of_lt (by omega)
  constructor
  · exact hnumbered
  · exact fun i id => h.orderly.findIdx?_iff i id
  · exact h.orderly.distinct
  · exact h.orderly.hashed
  · exact h.orderly.annotated
  · intro s hs shape hkind
    have hbounded := h.orderly.bounded s hs
    rw [hkind] at hbounded
    exact hbounded
  · exact h.orderly.counted
  · intro i s k e hs he
    obtain ⟨before, rest, values, payload, hlies, hoffset, hlt, hlength, harity⟩ :=
      h.placed i s k e hs he
    have hk : k < s.entries.length := (List.getElem?_eq_some_iff.1 he).1
    have hentries := h.length_entries_le hs
    refine ⟨⟨⟨s.descriptor.index, e.timestamp, UInt64.ofNat k, values⟩, payload⟩, ?_⟩
    constructor
    · refine ⟨before, _, rest, hlies, ?_, DataBlock.decode_sized hlength payload⟩
      rw [hoffset, hwidth _ (Nat.le_of_lt hlt)]
    · exact hnumbered i s hs
    · rfl
    · exact hwidth k (by omega)
    · exact harity
  · intro i s hs
    have hlisted := congrArg (List.map UInt64.toNat) (h.listed i s hs)
    rw [List.map_map, List.map_map] at hlisted
    refine hlisted.trans (List.map_congr_left ?_)
    intro l hl
    exact hwidth _ (Nat.le_of_lt (h.below l (List.mem_filter.1 hl).1))
  · exact h.owned
  · exact h.ascending
  · exact h.below

/-- In every state that a writer reaches with fewer than 2^32 series and fewer than 2^64 bytes,
its table describes the log: series are numbered and found by their names, and the entries of all
series point, in the order of writing, at whole blocks that lie on the sink. -/
theorem reached_consistent {c : WriterConfig} (h : Reached c w located)
    (hcount : w.series.length < 2 ^ 32) (hsize : w.position < 2 ^ 64) : Consistent w located :=
  (reached_kept h).consistent (Nat.le_of_lt hcount) hsize

/-- A sink of 70 bytes takes one block and breaks off in the next series. -/
theorem reached_consistent_torn : ∃ (w : Writer) (located : List BlockLocation),
    Reached .default w located ∧ w.series.length = 1 ∧ w.position = 70 ∧ located.length = 1 ∧
      Consistent w located := by
  let first : Call := .append (.ofType "a") 5 [] [1, 2]
  let second : Call := .append (.ofType "b") 6 [] [3]
  have hrun : (Writer.start .default (.empty (some 70))).toOption.map (fun w =>
      let r := w.answer first
      let q := r.2.answer second
      (q.2.series.length, q.2.position, (location? r.1).toList ++ (location? q.1).toList)) =
        some (1, 70, [⟨0, 0, 48⟩]) := by decide +kernel
  cases hstart : Writer.start .default (.empty (some 70)) with
  | error e =>
    rw [hstart] at hrun
    cases hrun
  | ok w =>
    rw [hstart] at hrun
    obtain ⟨hcount, hsize, hlocated⟩ := by
      simpa only [Except.toOption, Option.map_some, Option.some.injEq, Prod.mk.injEq] using hrun
    have hreached : Reached .default ((w.answer first).2.answer second).2 _ :=
      .call second (.call first (.start (Sink.bytes_empty _) hstart))
    rw [List.nil_append, hlocated] at hreached
    exact ⟨_, _, hreached, hcount, hsize, rfl,
      reached_consistent hreached (by omega) (by omega)⟩

end SeriesLog.Writer
