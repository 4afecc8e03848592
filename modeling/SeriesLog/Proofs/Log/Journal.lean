import SeriesLog.Proofs.Descriptor.Codec
import SeriesLog.Proofs.Scan.Blocks
import SeriesLog.Reader.Basic
import SeriesLog.Writer.Run

/-! # Journals

A journal lists what a writer adds to a log after the file descriptor: the descriptors of new
series and the data blocks. It determines the bytes of the log, the series and their entries. -/
namespace SeriesLog

/-- A block that is added to a log. -/
inductive Addition where
  | series (d : SeriesDescriptor)
  | data (d : DataDescriptor) (payload : Bytes)
  deriving DecidableEq

namespace Addition

def block : Addition → Block
  | series d => ⟨.descriptor, Descriptor.encode (.series d)⟩
  | data d payload => ⟨.data, d.sized ++ payload⟩

def size (a : Addition) : Nat := a.block.size

def content (keep : Bool) : Addition → BlockContent
  | series d => .descriptor (.series d)
  | data d payload => .data d (if keep then some payload else none)

def call : Addition → Call
  | series d => .declare d.id d.kind d.indexNames d.annotations
  | data d payload => .appendTo d.series d.timestamp d.indexValues payload

def enter (offset : Nat) (found : List SeriesState) : Addition → List SeriesState
  | series d => found ++ [.declared d]
  | data d _ => found.modify d.series.toNat fun s => s.record ⟨d.timestamp, UInt64.ofNat offset⟩

def record? (offset : Nat) : Addition → Option DataRecord
  | series _ => none
  | data d payload =>
    some ⟨d.series, d.timestamp, d.position, d.indexValues, payload, UInt64.ofNat offset⟩

def Typed : Addition → Prop
  | series d => d.id.type ≠ ""
  | data _ _ => True

theorem size_pos (a : Addition) : 0 < a.size := a.block.size_pos

end Addition

/-- What may be added to a log with the series found so far. -/
inductive Admits (found : List SeriesState) : Addition → Prop where
  | series {id : SeriesId} {kind : SeriesKind} {indexNames : List String} {annotations : Labels} :
      (∀ s ∈ found, s.descriptor.id ≠ id) → Writer.refusal? id kind annotations = none →
      Admits found (.series (.make (UInt32.ofNat found.length) id kind indexNames annotations))
  | data {index : UInt32} {s : SeriesState} {timestamp : Int64} {indexValues : List Int64}
      {payload : Bytes} :
      found[index.toNat]? = some s → indexValues.length = s.descriptor.indexNames.length →
      (DataDescriptor.mk index timestamp (UInt64.ofNat s.nextPosition) indexValues).encode.length <
        2 ^ 32 →
      Admits found (.data ⟨index, timestamp, UInt64.ofNat s.nextPosition, indexValues⟩ payload)

/-- The series after additions that lie one after another. -/
def track (offset : Nat) (found : List SeriesState) : List Addition → List SeriesState
  | [] => found
  | a :: rest => track (offset + a.size) (a.enter offset found) rest

/-- Additions of which each may be made after the ones before it. -/
def Sound (offset : Nat) (found : List SeriesState) : List Addition → Prop
  | [] => True
  | a :: rest =>
    Admits found a ∧ a.block.body.length ≤ maxBodySize ∧
      Sound (offset + a.size) (a.enter offset found) rest

def recordsOf (offset : Nat) : List Addition → List DataRecord
  | [] => []
  | a :: rest => (a.record? offset).toList ++ recordsOf (offset + a.size) rest

def DataRecord.entry (r : DataRecord) : IndexEntry := ⟨r.timestamp, r.offset⟩

variable {offset : Nat} {found : List SeriesState}

theorem track_append (journal more : List Addition) :
    track offset found (journal ++ more) =
      track (offset + span Addition.size journal) (track offset found journal) more := by
  induction journal generalizing offset found with
  | nil => rfl
  | cons a rest ih => simp only [List.cons_append, track, ih, span_cons, Nat.add_assoc]

theorem sound_append {journal more : List Addition} :
    Sound offset found (journal ++ more) ↔
      Sound offset found journal ∧
        Sound (offset + span Addition.size journal) (track offset found journal) more := by
  induction journal generalizing offset found with
  | nil => simp [Sound, track]
  | cons a rest ih =>
    simp only [List.cons_append, Sound, track, ih, span_cons, Nat.add_assoc, and_assoc]

theorem Sound.body_le {journal : List Addition} (h : Sound offset found journal) {a : Addition}
    (ha : a ∈ journal) : a.block.body.length ≤ maxBodySize := by
  induction journal generalizing offset found with
  | nil => cases ha
  | cons first rest ih =>
    rcases List.mem_cons.1 ha with rfl | ha
    · exact h.2.1
    · exact ih h.2.2 ha

theorem recordsOf_append (journal more : List Addition) :
    recordsOf offset (journal ++ more) =
      recordsOf offset journal ++ recordsOf (offset + span Addition.size journal) more := by
  induction journal generalizing offset with
  | nil => rfl
  | cons a rest ih =>
    simp only [List.cons_append, recordsOf, ih, span_cons, Nat.add_assoc, List.append_assoc]

theorem length_le_enter (a : Addition) : found.length ≤ (a.enter offset found).length := by
  cases a <;> simp [Addition.enter]

theorem length_le_track (offset : Nat) (found : List SeriesState) (journal : List Addition) :
    found.length ≤ (track offset found journal).length := by
  induction journal generalizing offset found with
  | nil => exact Nat.le_refl _
  | cons a rest ih => exact Nat.le_trans (length_le_enter a) (ih _ _)

/-- The accepted declarations of a table of series, numbered in order and under distinct names,
each with the number of its entries. -/
structure Orderly (found : List SeriesState) : Prop where
  numbered : ∀ (i : Nat) (s : SeriesState), found[i]? = some s →
    s.descriptor.index = UInt32.ofNat i
  distinct : (found.map fun s => s.descriptor.id).Nodup
  hashed : ∀ s ∈ found, s.descriptor.idHash = s.descriptor.id.hash
  annotated : ∀ s ∈ found, Annotations.fault? s.descriptor.annotations = none
  bounded : ∀ s ∈ found, s.descriptor.kind.Bounded
  counted : ∀ s ∈ found, s.nextPosition = s.entries.length

theorem Orderly.nil : Orderly [] := by
  constructor <;> simp

theorem bounded_of_refusal {id : SeriesId} {kind : SeriesKind} {annotations : Labels}
    (h : Writer.refusal? id kind annotations = none) :
    Annotations.fault? annotations = none ∧ kind.Bounded := by
  unfold Writer.refusal? at h
  split at h
  · cases h
  · next hfault =>
    refine ⟨hfault, ?_⟩
    cases kind with
    | untyped => trivial
    | message type => trivial
    | pod shape =>
      dsimp only at h
      split at h
      · cases h
      · next hsize =>
        cases hs : shape.sampleSize with
        | none => simp [hs] at hsize
        | some size => simp [SeriesKind.Bounded, hs]

theorem getElem?_concat_cases {α : Type} {items : List α} {x y : α} {i : Nat}
    (h : (items ++ [x])[i]? = some y) : items[i]? = some y ∨ i = items.length ∧ y = x := by
  rcases Nat.lt_trichotomy i items.length with hi | hi | hi
  · rw [List.getElem?_append_left hi] at h
    exact .inl h
  · subst hi
    rw [List.getElem?_concat_length] at h
    exact .inr ⟨rfl, (Option.some.inj h).symm⟩
  · rw [List.getElem?_eq_none (by rw [List.length_append, List.length_singleton]; omega)] at h
    cases h

/-- A series of a table in which an entry was recorded is an old one, or the one of the entry. -/
theorem getElem?_modify_record {i j : Nat} {entry : IndexEntry} {s : SeriesState}
    (h : (found.modify i fun s => s.record entry)[j]? = some s) :
    ∃ t, found[j]? = some t ∧ (j ≠ i ∧ s = t ∨ j = i ∧ s = t.record entry) := by
  rw [List.getElem?_modify] at h
  cases hf : found[j]? with
  | none => simp [hf] at h
  | some t =>
    refine ⟨t, rfl, ?_⟩
    by_cases hij : i = j
    · simp only [hf, hij, if_true, Option.map_eq_map, Option.map_some, Option.some.injEq] at h
      exact .inr ⟨hij.symm, h.symm⟩
    · simp only [hf, hij, if_false, Option.map_eq_map, Option.map_some, Option.some.injEq] at h
      exact .inl ⟨Ne.symm hij, h.symm⟩

theorem mem_modify_record {i : Nat} {entry : IndexEntry} {s : SeriesState}
    (h : s ∈ found.modify i fun s => s.record entry) :
    ∃ t ∈ found, s.descriptor = t.descriptor ∧ (s = t ∨ s = t.record entry) := by
  obtain ⟨j, hj⟩ := List.mem_iff_getElem?.1 h
  obtain ⟨t, ht, ⟨_, rfl⟩ | ⟨_, rfl⟩⟩ := getElem?_modify_record hj
  · exact ⟨_, List.mem_of_getElem? ht, rfl, .inl rfl⟩
  · exact ⟨t, List.mem_of_getElem? ht, rfl, .inr rfl⟩

theorem map_descriptor_modify (found : List SeriesState) (i : Nat) (entry : IndexEntry) :
    (found.modify i fun s => s.record entry).map (·.descriptor) = found.map (·.descriptor) := by
  apply List.ext_getElem?
  intro j
  rw [List.getElem?_map, List.getElem?_map, List.getElem?_modify]
  cases found[j]? with
  | none => rfl
  | some t => by_cases hij : i = j <;> simp [hij, SeriesState.record]

theorem Orderly.declare {d : SeriesDescriptor} (h : Orderly found)
    (ha : Admits found (.series d)) : Orderly (found ++ [.declared d]) := by
  cases ha with
  | series hfresh hrefusal =>
    obtain ⟨hfault, hbounded⟩ := bounded_of_refusal hrefusal
    constructor
    · intro i s hs
      rcases getElem?_concat_cases hs with hold | ⟨rfl, rfl⟩
      · exact h.numbered i s hold
      · rfl
    · rw [List.map_append, List.nodup_append]
      refine ⟨h.distinct, List.pairwise_singleton _ _, ?_⟩
      intro i hi j hj
      obtain ⟨s, hs, rfl⟩ := List.mem_map.1 hi
      rw [List.map_singleton, List.mem_singleton] at hj
      rw [hj]
      exact hfresh s hs
    · intro s hs
      rcases List.mem_append.1 hs with hs | hs
      · exact h.hashed s hs
      · rw [List.mem_singleton.1 hs]
        rfl
    · intro s hs
      rcases List.mem_append.1 hs with hs | hs
      · exact h.annotated s hs
      · rw [List.mem_singleton.1 hs]
        exact hfault
    · intro s hs
      rcases List.mem_append.1 hs with hs | hs
      · exact h.bounded s hs
      · rw [List.mem_singleton.1 hs]
        exact hbounded
    · intro s hs
      rcases List.mem_append.1 hs with hs | hs
      · exact h.counted s hs
      · rw [List.mem_singleton.1 hs]
        rfl

theorem Orderly.record (h : Orderly found) (i : Nat) (entry : IndexEntry) :
    Orderly (found.modify i fun s => s.record entry) := by
  have hmap := map_descriptor_modify found i entry
  constructor
  · intro j s hs
    obtain ⟨t, ht, ⟨_, rfl⟩ | ⟨_, rfl⟩⟩ := getElem?_modify_record hs
    · exact h.numbered j _ ht
    · exact h.numbered j t ht
  · have hids := congrArg (List.map fun d => d.id) hmap
    simp only [List.map_map, Function.comp_def] at hids
    rw [hids]
    exact h.distinct
  · intro s hs
    obtain ⟨t, ht, hdescriptor, _⟩ := mem_modify_record hs
    rw [hdescriptor]
    exact h.hashed t ht
  · intro s hs
    obtain ⟨t, ht, hdescriptor, _⟩ := mem_modify_record hs
    rw [hdescriptor]
    exact h.annotated t ht
  · intro s hs
    obtain ⟨t, ht, hdescriptor, _⟩ := mem_modify_record hs
    rw [hdescriptor]
    exact h.bounded t ht
  · intro s hs
    obtain ⟨t, ht, _, rfl | rfl⟩ := mem_modify_record hs
    · exact h.counted s ht
    · have hcount := h.counted t ht
      simp only [SeriesState.entries_record, List.length_append, List.length_singleton, ← hcount]
      rfl

theorem Orderly.enter {a : Addition} (h : Orderly found) (ha : Admits found a) :
    Orderly (a.enter offset found) := by
  cases a with
  | series d => exact h.declare ha
  | data d payload => exact h.record _ _

theorem Orderly.track {journal : List Addition} (h : Orderly found)
    (hsound : Sound offset found journal) : Orderly (track offset found journal) := by
  induction journal generalizing offset found with
  | nil => exact h
  | cons a rest ih => exact ih (h.enter hsound.1) hsound.2.2

theorem Orderly.findIdx?_iff (h : Orderly found) (i : Nat) (id : SeriesId) :
    (found.findIdx? fun s => s.descriptor.id = id) = some i ↔
      ∃ s, found[i]? = some s ∧ s.descriptor.id = id := by
  constructor
  · intro hi
    obtain ⟨hlt, hid, _⟩ := List.findIdx?_eq_some_iff_getElem.1 hi
    exact ⟨found[i], List.getElem?_eq_getElem hlt, of_decide_eq_true hid⟩
  · rintro ⟨s, hs, hid⟩
    cases hindex : found.findIdx? fun s => s.descriptor.id = id with
    | none =>
      rw [List.findIdx?_eq_none_iff] at hindex
      have hother := hindex s (List.mem_of_getElem? hs)
      exact absurd hid (of_decide_eq_false hother)
    | some j =>
      obtain ⟨hlt, htid, _⟩ := List.findIdx?_eq_some_iff_getElem.1 hindex
      have hi : (found.map fun s => s.descriptor.id)[i]? = some id := by
        rw [List.getElem?_map, hs, Option.map_some, hid]
      have hj : (found.map fun s => s.descriptor.id)[j]? = some id := by
        rw [List.getElem?_map, List.getElem?_eq_getElem hlt, Option.map_some,
          of_decide_eq_true htid]
      have hlen : j < (found.map fun s => s.descriptor.id).length := by
        rw [List.length_map]
        exact hlt
      rw [(List.getElem?_inj hlen h.distinct).1 (hj.trans hi.symm)]

theorem getElem?_entries_enter {a : Addition} (ha : Admits found a) (i : Nat) :
    (((a.enter offset found)[i]?.map SeriesState.entries).getD []) =
      ((found[i]?.map SeriesState.entries).getD []) ++
        ((a.record? offset).toList.filter fun r => r.series.toNat = i).map DataRecord.entry := by
  cases ha with
  | series hfresh hrefusal =>
    simp only [Addition.enter, Addition.record?, Option.toList_none, List.filter_nil, List.map_nil,
      List.append_nil]
    rcases Nat.lt_trichotomy i found.length with hi | hi | hi
    · rw [List.getElem?_append_left hi]
    · subst hi
      rw [List.getElem?_concat_length, List.getElem?_eq_none (Nat.le_refl _)]
      rfl
    · rw [List.getElem?_eq_none (by simp; omega), List.getElem?_eq_none (by omega)]
  | @data index s timestamp indexValues payload hfound harity hsize =>
    simp only [Addition.enter, Addition.record?, Option.toList_some, List.getElem?_modify]
    by_cases hi : index.toNat = i
    · subst hi
      simp [hfound, DataRecord.entry]
    · cases found[i]? <;> simp [hi]

theorem getElem?_entries_track {journal : List Addition} (h : Sound offset found journal)
    (i : Nat) :
    (((track offset found journal)[i]?.map SeriesState.entries).getD []) =
      ((found[i]?.map SeriesState.entries).getD []) ++
        ((recordsOf offset journal).filter fun r => r.series.toNat = i).map DataRecord.entry := by
  induction journal generalizing offset found with
  | nil => simp [SeriesLog.track, recordsOf]
  | cons a rest ih =>
    rw [SeriesLog.track, ih h.2.2, getElem?_entries_enter h.1, recordsOf, List.filter_append,
      List.map_append, List.append_assoc]

theorem series_lt_of_mem_recordsOf {journal : List Addition} (h : Sound offset found journal)
    {r : DataRecord} (hr : r ∈ recordsOf offset journal) :
    r.series.toNat < (track offset found journal).length := by
  induction journal generalizing offset found with
  | nil => cases hr
  | cons a rest ih =>
    rcases List.mem_append.1 hr with hr | hr
    · have ha := h.1
      cases ha with
      | series hfresh hrefusal => simp [Addition.record?] at hr
      | @data index s timestamp indexValues payload hfound harity hsize =>
        have hlt : index.toNat < found.length := (List.getElem?_eq_some_iff.1 hfound).1
        have hle := length_le_track offset found
          (.data ⟨index, timestamp, UInt64.ofNat s.nextPosition, indexValues⟩ payload :: rest)
        simp only [Addition.record?, Option.toList_some, List.mem_singleton] at hr
        subst hr
        exact Nat.lt_of_lt_of_le hlt hle
    · exact ih h.2.2 hr

def blocksOf (keep : Bool) (journal : List Addition) : List (Block × BlockContent) :=
  journal.map fun a => (a.block, a.content keep)

theorem valid_of_admits {d : SeriesDescriptor} (h : Admits found (.series d))
    (htyped : d.id.type ≠ "") : d.Valid := by
  cases h with
  | series hfresh hrefusal => exact ⟨htyped, rfl, (bounded_of_refusal hrefusal).2⟩

theorem readsAll_blocksOf {c : ScanConfig} {journal : List Addition}
    (hsound : Sound offset found journal) (htyped : ∀ a ∈ journal, a.Typed)
    (hlimit : ∀ a ∈ journal, a.block.body.length ≤ c.maxBlockSize) :
    Scan.ReadsAll c (blocksOf c.payloads journal) := by
  induction journal generalizing offset found with
  | nil =>
    intro p hp
    cases hp
  | cons a rest ih =>
    intro p hp
    rcases List.mem_cons.1 hp with rfl | hp
    · refine ⟨?_, hsound.2.1⟩
      have ha := hsound.1
      have hbody := hlimit a List.mem_cons_self
      have htype := htyped a List.mem_cons_self
      have hmax := hsound.2.1
      cases a with
      | series d =>
        have hvalid : (Descriptor.series d).Valid := valid_of_admits ha htype
        have hsize : (Descriptor.encode (.series d)).length < 2 ^ 64 := by
          simp only [Addition.block, maxBodySize] at hmax
          omega
        exact .descriptor hbody (Descriptor.decode_encode hsize hvalid)
      | data d payload =>
        cases ha with
        | data hfound harity hsize => exact Scan.reads_sized hsize hbody
    · exact ih hsound.2.2 (fun b hb => htyped b (List.mem_cons_of_mem a hb))
        (fun b hb => hlimit b (List.mem_cons_of_mem a hb)) p hp

theorem span_blocksOf (keep : Bool) (journal : List Addition) :
    span (fun p => p.1.size) (blocksOf keep journal) = span Addition.size journal :=
  span_map _ _

theorem flatMap_blocksOf (keep : Bool) (journal : List Addition) :
    ((blocksOf keep journal).flatMap fun p => p.1.encode) =
      journal.flatMap fun a => a.block.encode := by
  rw [blocksOf, List.flatMap_map]

end SeriesLog
