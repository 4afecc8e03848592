import SeriesLog.Proofs.Reader.Scanned
import SeriesLog.Proofs.Scan.Described
import SeriesLog.Reader.Lookup

/-! # Lookup of series

A selector is looked up in tables that are filled in one pass over the series. A table keeps the
first series of a key, and the tables answer as a search from the front does. Whatever the bytes of
a file are, its series are numbered by their places and hashed by their identifiers once it is open,
so the answer is the first series that the selector names. -/
namespace SeriesLog

/-- An index is valid for the descriptors of its series alone. -/
theorem FileIndex.Valid.congr {index other : FileIndex} (h : index.Valid)
    (hsame : (other.series.map fun s => s.descriptor) = index.series.map fun s => s.descriptor) :
    other.Valid := by
  have hat : ∀ (i : Nat) (s : SeriesIndex), other.series[i]? = some s →
      ∃ t, index.series[i]? = some t ∧ t.descriptor = s.descriptor := by
    intro i s hs
    have hi := congrArg (fun descriptors => descriptors[i]?) hsame
    rw [List.getElem?_map, List.getElem?_map, hs, Option.map_some] at hi
    exact Option.map_eq_some_iff.1 hi.symm
  constructor
  · intro s hs
    obtain ⟨i, hi⟩ := List.mem_iff_getElem?.1 hs
    obtain ⟨t, ht, hdescriptor⟩ := hat i s hi
    exact hdescriptor ▸ h.series t (List.mem_of_getElem? ht)
  · intro i s hs
    obtain ⟨t, ht, hdescriptor⟩ := hat i s hs
    exact hdescriptor ▸ h.numbered i t ht

theorem FileIndex.Valid.concat {series : List SeriesIndex} (h : FileIndex.Valid ⟨series⟩)
    {s : SeriesIndex} (hs : s.descriptor.Valid)
    (hnext : s.descriptor.index.toNat = series.length) : FileIndex.Valid ⟨series ++ [s]⟩ := by
  constructor
  · intro t ht
    rcases List.mem_append.1 ht with ht | ht
    · exact h.series t ht
    · rw [List.mem_singleton.1 ht]
      exact hs
  · intro i t ht
    rcases getElem?_concat_cases ht with hold | ⟨rfl, rfl⟩
    · exact h.numbered i t hold
    · exact hnext

namespace Reader

variable {file : Bytes} {c : ReaderConfig} {r : Reader} {found next : List SeriesState}

theorem valid_collectItem (h : FileIndex.Valid ⟨found.map SeriesState.toIndex⟩) {item : ScanItem}
    (hitem : item.Described) (hnext : collectItem found item = .ok next) :
    FileIndex.Valid ⟨next.map SeriesState.toIndex⟩ := by
  cases item with
  | trailer offset t =>
    cases hnext
    exact h
  | block offset size content =>
    cases content with
    | data d payload =>
      cases hnext
      refine h.congr ?_
      rw [List.map_map, List.map_map]
      exact map_descriptor_modify found _ _
    | reserved code =>
      cases hnext
      exact h
    | undecodable reason =>
      cases hnext
      exact h
    | descriptor d =>
      cases d with
      | file d =>
        cases hnext
        exact h
      | index d =>
        cases hnext
        exact h
      | series d =>
        simp only [collectItem] at hnext
        split at hnext
        · cases hnext
          exact h
        split at hnext
        · next hlast =>
          cases hnext
          rw [List.map_append]
          refine h.concat hitem ?_
          rw [List.length_map]
          exact hlast
        · cases hnext

theorem valid_collect (h : FileIndex.Valid ⟨found.map SeriesState.toIndex⟩)
    {items : List ScanItem} (hitems : ∀ item ∈ items, item.Described)
    (hnext : collect found items = .ok next) :
    FileIndex.Valid ⟨next.map SeriesState.toIndex⟩ := by
  induction items generalizing found with
  | nil =>
    cases hnext
    exact h
  | cons item rest ih =>
    unfold collect at hnext
    split at hnext
    · cases hnext
    next after hitem =>
    have hfirst := valid_collectItem h (hitems item List.mem_cons_self) hitem
    exact ih hfirst (fun other hother => hitems other (List.mem_cons_of_mem item hother)) hnext

theorem valid_of_loadIndex {offset limit : Nat} {series : List SeriesIndex}
    (h : loadIndex file offset limit = .ok series) : FileIndex.Valid ⟨series⟩ := by
  unfold loadIndex at h
  dsimp only at h
  split at h
  · cases h
  split at h
  · cases h
  split at h
  · cases h
  split at h
  · cases h
  split at h
  · cases h
  split at h
  · cases h
  · next hdecode =>
    split at h
    · cases h
    · cases h
      exact Descriptor.valid_of_decode hdecode
  · cases h

theorem valid_of_ofFile (h : ofFile file c = .ok r) :
    ∃ index : FileIndex, index.Valid ∧ r.series = index.series.map SeriesIndex.timeline := by
  cases hsource : r.source with
  | scan reason =>
    obtain ⟨_, _, skip, found, hcollect, _, hseries⟩ := ofFile_scan h hsource
    refine ⟨⟨found.map SeriesState.toIndex⟩, ?_, ?_⟩
    · refine valid_collect ?_ (fun item hitem => ScanItem.described_of_mem_scan hitem) hcollect
      exact ⟨fun s hs => (by cases hs), fun i s hs => (by cases hs)⟩
    · rw [hseries, List.map_map]
      rfl
  | fileIndex offset =>
    unfold ofFile at h
    split at h
    · cases h
    obtain ⟨⟨source, series, torn⟩, hlocate, rfl⟩ := exists_of_map_eq_ok h
    obtain ⟨_, _, hscan, _⟩ | ⟨_, _, hload⟩ := locate_eq_ok hlocate
    case inl => cases hscan.symm.trans hsource
    exact ⟨⟨series⟩, valid_of_loadIndex hload, rfl⟩

/-- The descriptors of an open file pass the checks of a reader, and each has its place as its
number. -/
theorem descriptor_of_ofFile (h : ofFile file c = .ok r) {i : Nat} {t : Timeline}
    (ht : r.series[i]? = some t) : t.descriptor.Valid ∧ t.descriptor.index.toNat = i := by
  obtain ⟨index, hvalid, hseries⟩ := valid_of_ofFile h
  rw [hseries, List.getElem?_map, Option.map_eq_some_iff] at ht
  obtain ⟨s, hs, rfl⟩ := ht
  exact ⟨hvalid.series s (List.mem_of_getElem? hs), hvalid.numbered i s hs⟩

theorem length_series_le (h : ofFile file c = .ok r) : r.series.length ≤ 2 ^ 32 := by
  by_contra hgt
  have ht := List.getElem?_eq_getElem (Nat.lt_of_not_le hgt)
  have hnumber := (descriptor_of_ofFile h ht).2
  have hlt := r.series[2 ^ 32].descriptor.index.toNat_lt
  omega

end Reader

namespace LookupTables

variable (tables : LookupTables) (place : Nat) (d : SeriesDescriptor)

theorem hashed_enter (hash : UInt64) : (tables.enter place d).hashed[hash]? =
    tables.hashed[hash]?.or (if d.idHash = hash then some (UInt32.ofNat place) else none) := by
  unfold enter
  dsimp only
  split
  · next other hother =>
    by_cases hkey : d.idHash = hash
    · rw [← hkey, hother, Option.some_or]
    · rw [if_neg hkey, Option.or_none]
  · next hnone =>
    rw [Std.HashMap.getElem?_insert]
    by_cases hkey : d.idHash = hash
    · rw [← hkey, hnone, Option.none_or, if_pos (beq_self_eq_true _), if_pos rfl]
    · rw [if_neg (fun heq => hkey (eq_of_beq heq)), if_neg hkey, Option.or_none]

theorem named_enter (id : SeriesId) : (tables.enter place d).named[id]? =
    tables.named[id]?.or (if d.id = id then some (UInt32.ofNat place) else none) := by
  unfold enter
  dsimp only
  rw [Std.HashMap.getElem?_insertIfNew]
  by_cases hkey : d.id = id
  · subst hkey
    by_cases hin : d.id ∈ tables.named
    · obtain ⟨other, hother⟩ := Option.isSome_iff_exists.1
        (Std.HashMap.isSome_getElem?_iff_mem.2 hin)
      rw [if_neg (fun h => h.2 hin), hother, Option.some_or]
    · rw [if_pos ⟨beq_self_eq_true _, hin⟩, if_pos rfl,
        Std.HashMap.getElem?_eq_none hin, Option.none_or]
  · rw [if_neg (fun h => hkey (eq_of_beq h.1)), if_neg hkey, Option.or_none]

/-- A table that keeps what it has and takes a new key once answers with the first place of a key,
whichever of the two rules it is filled by. -/
theorem fill_first {κ : Type} [DecidableEq κ] (key : SeriesDescriptor → κ)
    (get? : LookupTables → κ → Option UInt32)
    (henter : ∀ (tables : LookupTables) (place : Nat) (d : SeriesDescriptor) (k : κ),
      get? (tables.enter place d) k =
        (get? tables k).or (if key d = k then some (UInt32.ofNat place) else none))
    (tables : LookupTables) (place : Nat) (descriptors : List SeriesDescriptor) (k : κ) :
    get? (tables.fill place descriptors) k = (get? tables k).or
      ((descriptors.findIdx? fun d => key d = k).map fun i => UInt32.ofNat (place + i)) := by
  induction descriptors generalizing tables place with
  | nil => rw [fill, List.findIdx?_nil, Option.map_none, Option.or_none]
  | cons d rest ih =>
    rw [fill, ih, henter, Option.or_assoc, List.findIdx?_cons]
    by_cases hkey : key d = k
    · rw [if_pos hkey, if_pos (decide_eq_true hkey), Option.some_or, Option.map_some, Nat.add_zero]
    · rw [if_neg hkey, if_neg (fun h => hkey (of_decide_eq_true h)), Option.none_or,
        Option.map_map]
      simp only [Function.comp_def, Nat.add_assoc, Nat.add_comm 1]

end LookupTables

namespace Reader

variable {file : Bytes} {c : ReaderConfig} {r : Reader}

theorem lookupTables_first {κ : Type} [DecidableEq κ] (key : SeriesDescriptor → κ)
    (get? : LookupTables → κ → Option UInt32) (hempty : ∀ k, get? ⟨∅, ∅⟩ k = none)
    (henter : ∀ (tables : LookupTables) (place : Nat) (d : SeriesDescriptor) (k : κ),
      get? (tables.enter place d) k =
        (get? tables k).or (if key d = k then some (UInt32.ofNat place) else none))
    (r : Reader) (k : κ) : get? r.lookupTables k =
      (r.series.findIdx? fun t => key t.descriptor = k).map UInt32.ofNat := by
  rw [lookupTables, LookupTables.fill_first key get? henter, hempty, Option.none_or,
    List.findIdx?_map]
  simp only [Function.comp_def, Nat.zero_add]

theorem lookup_eq_find (r : Reader) (selector : Selector) :
    r.lookup selector = r.find selector := by
  unfold lookup find
  cases selector with
  | named id =>
    have hfirst := lookupTables_first (·.id) (fun tables id => tables.named[id]?)
      (fun _ => Std.HashMap.getElem?_empty) LookupTables.named_enter r id
    simp only [hfirst, position?]
    cases r.series.findIdx? fun t => decide (t.descriptor.id = id) with
    | none => rfl
    | some i => rfl
  | hashed hash =>
    have hfirst := lookupTables_first (·.idHash) (fun tables hash => tables.hashed[hash]?)
      (fun _ => Std.HashMap.getElem?_empty) LookupTables.hashed_enter r hash
    simp only [hfirst, position?]
    cases r.series.findIdx? fun t => decide (t.descriptor.idHash = hash) with
    | none => rfl
    | some i => rfl
  | numbered index =>
    dsimp only [position?]
    by_cases hlt : index.toNat < r.series.length
    · rw [if_pos hlt, if_pos hlt]
      exact congrArg Except.ok UInt32.ofNat_toNat.symm
    · rw [if_neg hlt, if_neg hlt]

/-- Whether the series at a place is one that a selector names. The hash of a series is that of its
identifier, whatever hash its file keeps. -/
def Names (r : Reader) : Selector → Nat → Prop
  | .named id, i => ∃ t, r.series[i]? = some t ∧ t.descriptor.id = id
  | .hashed hash, i => ∃ t, r.series[i]? = some t ∧ t.descriptor.id.hash = hash
  | .numbered index, i => i = index.toNat ∧ i < r.series.length

theorem findIdx?_eq_some_iff_first {α : Type} {p : α → Bool} {items : List α} {i : Nat} :
    items.findIdx? p = some i ↔
      (∃ x, items[i]? = some x ∧ p x = true) ∧ ∀ j < i, ¬ ∃ x, items[j]? = some x ∧ p x = true := by
  rw [List.findIdx?_eq_some_iff_getElem]
  constructor
  · rintro ⟨hi, hp, hfirst⟩
    refine ⟨⟨_, List.getElem?_eq_getElem hi, hp⟩, ?_⟩
    rintro j hj ⟨x, hx, hpx⟩
    rw [List.getElem?_eq_getElem (by omega), Option.some.injEq] at hx
    exact hfirst j hj (hx ▸ hpx)
  · rintro ⟨⟨x, hx, hpx⟩, hfirst⟩
    obtain ⟨hi, rfl⟩ := List.getElem?_eq_some_iff.1 hx
    refine ⟨hi, hpx, ?_⟩
    intro j hj hpj
    exact hfirst j hj ⟨_, List.getElem?_eq_getElem (by omega), hpj⟩

theorem position?_eq_some_iff (hhashed : ∀ t ∈ r.series, t.descriptor.idHash = t.descriptor.id.hash)
    {selector : Selector} {i : Nat} :
    r.position? selector = some i ↔ r.Names selector i ∧ ∀ j < i, ¬ r.Names selector j := by
  cases selector with
  | named id =>
    simp only [position?, findIdx?_eq_some_iff_first, decide_eq_true_eq, Names]
  | hashed hash =>
    have hkey : ∀ j, (∃ t, r.series[j]? = some t ∧ decide (t.descriptor.idHash = hash) = true) ↔
        r.Names (.hashed hash) j := by
      intro j
      refine exists_congr fun t => and_congr_right fun ht => ?_
      rw [decide_eq_true_eq, hhashed t (List.mem_of_getElem? ht)]
    rw [position?, findIdx?_eq_some_iff_first]
    simp only [hkey]
  | numbered index =>
    simp only [position?, Names]
    split
    · next hlt =>
      rw [Option.some.injEq]
      constructor
      · rintro rfl
        exact ⟨⟨rfl, hlt⟩, fun j hj hname => by omega⟩
      · exact fun h => h.1.1.symm
    · next hge =>
      constructor
      · exact fun h => by cases h
      · rintro ⟨⟨rfl, hlt⟩, _⟩
        exact (hge hlt).elim

theorem position?_eq_none_iff
    (hhashed : ∀ t ∈ r.series, t.descriptor.idHash = t.descriptor.id.hash) {selector : Selector} :
    r.position? selector = none ↔ ∀ i, ¬ r.Names selector i := by
  constructor
  · intro hnone i
    -- without a first series that is named there is none at all
    induction i using Nat.strongRecOn with
    | ind i ih =>
      intro hname
      have hfound := (position?_eq_some_iff hhashed).2 ⟨hname, ih⟩
      rw [hnone] at hfound
      cases hfound
  · intro hall
    cases hposition : r.position? selector with
    | none => rfl
    | some i => exact (hall i ((position?_eq_some_iff hhashed).1 hposition).1).elim

/-- A reader whose selectors find the first series that they name, by either way of lookup. -/
structure FirstMatch (r : Reader) : Prop where
  found : ∀ (selector : Selector) (index : UInt32), r.find selector = .ok index ↔
    r.Names selector index.toNat ∧ ∀ j < index.toNat, ¬ r.Names selector j
  unknown : ∀ (selector : Selector) (e : LogError), r.find selector = .error e ↔
    e = .unknownSeries selector ∧ ∀ i, ¬ r.Names selector i
  described : ∀ (selector : Selector) (index : UInt32), r.find selector = .ok index →
    ∃ d, r.descriptor? index = some d ∧ d.index = index
  tables : ∀ selector : Selector, r.lookup selector = r.find selector

/-- However a file came to be, a selector finds the first series that it names once the file is
open, and every series has its place as its number. -/
theorem first_match (h : ofFile file c = .ok r) : r.FirstMatch := by
  have hhashed : ∀ t ∈ r.series, t.descriptor.idHash = t.descriptor.id.hash := by
    intro t ht
    obtain ⟨i, hi⟩ := List.mem_iff_getElem?.1 ht
    exact (descriptor_of_ofFile h hi).1.hashed
  have hcount := length_series_le h
  have hfound : ∀ (selector : Selector) (index : UInt32), r.find selector = .ok index ↔
      r.position? selector = some index.toNat := by
    intro selector index
    unfold find
    cases hposition : r.position? selector with
    | none => simp
    | some i =>
      have hlt := position?_lt hposition
      have hindex : (UInt32.ofNat i).toNat = i :=
        UInt32.toNat_ofNat_of_lt' (Nat.lt_of_lt_of_le hlt hcount)
      rw [Except.ok.injEq, Option.some.injEq, ← UInt32.toNat_inj, hindex]
  constructor
  · intro selector index
    rw [hfound, position?_eq_some_iff hhashed]
  · intro selector e
    rw [← position?_eq_none_iff hhashed]
    unfold find
    cases r.position? selector with
    | none => simp [eq_comm]
    | some i => simp
  · intro selector index hfind
    have hlt := position?_lt ((hfound selector index).1 hfind)
    have ht := List.getElem?_eq_getElem hlt
    refine ⟨_, by rw [descriptor?, ht, Option.map_some], ?_⟩
    exact UInt32.toNat_inj.1 (descriptor_of_ofFile h ht).2
  · exact r.lookup_eq_find

def splitId : SeriesId := (SeriesId.ofType "a").withSpec "b" "c"

/-- A sealed log without data. Its index holds the type `abc` twice, the second time with another
hash, and between the two an identifier of the same hash. -/
def ambiguous : Bytes :=
  let descriptors : List SeriesDescriptor :=
    [.make 0 (.ofType "abc") .untyped [] .empty, .make 1 splitId .untyped [] .empty,
      ⟨2, .ofType "abc", 7, .untyped, [], .empty⟩]
  sealedBytes .empty [] [⟨.descriptor,
      Descriptor.encode (.index ⟨descriptors.map fun d => ⟨d, []⟩⟩)⟩]
    ⟨UInt64.ofNat (logBytes .empty []).length, List.replicate checksumSize 0⟩

/-- The hash that the file keeps is not looked at, and a series that is hidden by an earlier one is
found by its number alone. -/
theorem first_match_ambiguous :
    ∃ r, ofFile ambiguous .default = .ok r ∧ r.source = .fileIndex 22 ∧ r.FirstMatch ∧
      [.named (.ofType "abc"), .named splitId, .hashed splitId.hash, .hashed 7, .numbered 2,
        .numbered 3].map (fun selector => (r.find selector).toOption) =
      [some 0, some 1, some 0, none, some 2, none] := by
  have hfacts : (ofFile ambiguous .default).toOption.map (fun r =>
      (r.source, [.named (.ofType "abc"), .named splitId, .hashed splitId.hash, .hashed 7,
        .numbered 2, .numbered 3].map fun selector => (r.find selector).toOption)) =
      some (.fileIndex 22, [some 0, some 1, some 0, none, some 2, none]) := by decide +kernel
  obtain ⟨r, hopen, hvalues⟩ := exists_of_toOption_map hfacts
  rw [Prod.mk.injEq] at hvalues
  exact ⟨r, hopen, hvalues.1, first_match hopen, hvalues.2⟩

end Reader

end SeriesLog
