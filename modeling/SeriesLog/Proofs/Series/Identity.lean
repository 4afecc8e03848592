import Mathlib.Data.List.Nodup
import SeriesLog.Proofs.Block.Framing
import SeriesLog.Proofs.Labels

/-! # Canonical identity

A specification may be given in any order: what counts is which value stands under which key. So the
identifier and its hash are the same for every order, and of entries that are made one after another
under a key the last one is kept. -/
namespace SeriesLog

def lastValue (entries : List (String × String)) (key : String) : Option String :=
  entries.reverse.lookup key

variable {entries other : List (String × String)} {key value : String} {p : String × String}

theorem lastValue_cons (q : String × String) (rest : List (String × String)) (key : String) :
    lastValue (q :: rest) key =
      (lastValue rest key).or (if key = q.1 then some q.2 else none) := by
  rw [lastValue, List.reverse_cons, List.lookup_append, lastValue, List.lookup_cons,
    List.lookup_nil]
  by_cases h : key = q.1
  · simp [h]
  · rw [if_neg h, beq_eq_false_iff_ne.2 h]

theorem lookup_eq_some_iff_mem (h : (entries.map (·.1)).Nodup) :
    entries.lookup key = some value ↔ (key, value) ∈ entries := by
  induction entries with
  | nil => simp
  | cons q rest ih =>
    obtain ⟨k, v⟩ := q
    rw [List.map_cons, List.nodup_cons] at h
    rw [List.lookup_cons, List.mem_cons]
    by_cases hkey : key = k
    · subst hkey
      have hfresh : (key, value) ∉ rest := fun hmem =>
        h.1 (List.mem_map_of_mem (f := (·.1)) hmem)
      simp [hfresh, eq_comm]
    · rw [beq_eq_false_iff_ne.2 hkey]
      simp [hkey, ih h.2]

theorem lastValue_eq_some_iff (h : (entries.map (·.1)).Nodup) :
    lastValue entries key = some value ↔ (key, value) ∈ entries := by
  rw [lastValue, lookup_eq_some_iff_mem, List.mem_reverse]
  rw [List.map_reverse]
  exact List.nodup_reverse.2 h

namespace Labels

variable {labels : Labels}

theorem contains_iff : labels.contains key = true ↔ key ∈ labels.entries.map (·.1) := by
  simp [contains]

theorem mem_keys_insert {q : String × String} :
    key ∈ (labels.insert q.1 q.2).entries.map (·.1) ↔
      key = q.1 ∨ key ∈ labels.entries.map (·.1) := by
  have hinsert : ∀ p, p ∈ (labels.insert q.1 q.2).entries ↔
      p = q ∨ p ∈ labels.entries ∧ p.1 ≠ q.1 := fun p => mem_place_iff labels.ascending
  simp only [List.mem_map, hinsert]
  constructor
  · rintro ⟨p, rfl | ⟨hp, _⟩, rfl⟩
    · exact .inl rfl
    · exact .inr ⟨p, hp, rfl⟩
  · rintro (rfl | ⟨p, hp, rfl⟩)
    · exact ⟨q, .inl rfl, rfl⟩
    · by_cases hkey : p.1 = q.1
      · exact ⟨q, .inl rfl, hkey.symm⟩
      · exact ⟨p, .inr ⟨hp, hkey⟩, rfl⟩

/-- Entries that are made one after another leave the last value of every key, over the labels
before them. -/
theorem mem_foldl_insert_iff :
    p ∈ (entries.foldl (fun l q => l.insert q.1 q.2) labels).entries ↔
      lastValue entries p.1 = some p.2 ∨ lastValue entries p.1 = none ∧ p ∈ labels.entries := by
  induction entries generalizing labels with
  | nil => simp [lastValue]
  | cons q rest ih =>
    have hinsert : p ∈ (labels.insert q.1 q.2).entries ↔
        p = q ∨ p ∈ labels.entries ∧ p.1 ≠ q.1 := mem_place_iff labels.ascending
    rw [List.foldl_cons, ih, hinsert, lastValue_cons]
    cases lastValue rest p.1 with
    | some value => simp
    | none =>
      by_cases hkey : p.1 = q.1
      · simp [hkey, Prod.ext_iff, eq_comm]
      · have hne : p ≠ q := fun h => hkey (h ▸ rfl)
        simp [hkey, hne]

theorem mem_foldl_insert_of_nodup (h : (entries.map (·.1)).Nodup) :
    p ∈ (entries.foldl (fun l q => l.insert q.1 q.2) Labels.empty).entries ↔ p ∈ entries := by
  rw [mem_foldl_insert_iff, lastValue_eq_some_iff h]
  constructor
  · rintro (hmem | ⟨_, hnone⟩)
    · exact hmem
    · cases hnone
  · exact .inl

end Labels

namespace SeriesId

variable {type : String} {id : SeriesId}

def withSpecs (id : SeriesId) (entries : List (String × String)) : SeriesId :=
  entries.foldl (fun id p => id.withSpec p.1 p.2) id

theorem withSpecs_eq (id : SeriesId) (entries : List (String × String)) :
    id.withSpecs entries =
      ⟨id.type, entries.foldl (fun l p => l.insert p.1 p.2) id.spec⟩ := by
  induction entries generalizing id with
  | nil => rfl
  | cons p rest ih =>
    rw [withSpecs, List.foldl_cons]
    exact ih (id.withSpec p.1 p.2)

theorem distinctSpec_eq_ok_iff {spec made : Labels} :
    distinctSpec type spec entries = .ok made ↔
      (entries.map (·.1)).Nodup ∧ (∀ p ∈ entries, p.1 ∉ spec.entries.map (·.1)) ∧
        made = entries.foldl (fun l p => l.insert p.1 p.2) spec := by
  induction entries generalizing spec with
  | nil => simp [distinctSpec, eq_comm]
  | cons q rest ih =>
    unfold distinctSpec
    by_cases hcontains : spec.contains q.1 = true
    · rw [if_pos hcontains]
      rw [Labels.contains_iff] at hcontains
      constructor
      · intro h
        cases h
      · rintro ⟨_, hfresh, _⟩
        exact absurd hcontains (hfresh q List.mem_cons_self)
    · rw [if_neg hcontains, ih, List.map_cons, List.nodup_cons, List.forall_mem_cons,
        List.foldl_cons]
      rw [Labels.contains_iff] at hcontains
      have hsplit : (∀ p ∈ rest, p.1 ∉ (spec.insert q.1 q.2).entries.map (·.1)) ↔
          q.1 ∉ rest.map (·.1) ∧ ∀ p ∈ rest, p.1 ∉ spec.entries.map (·.1) := by
        constructor
        · intro h
          refine ⟨fun hmem => ?_, fun p hp hold => h p hp (Labels.mem_keys_insert.2 (.inr hold))⟩
          obtain ⟨p, hp, hkey⟩ := List.mem_map.1 hmem
          exact h p hp (Labels.mem_keys_insert.2 (.inl hkey))
        · rintro ⟨hnew, hfresh⟩ p hp hmem
          rcases Labels.mem_keys_insert.1 hmem with hkey | hold
          · exact hnew (hkey ▸ List.mem_map_of_mem hp)
          · exact hfresh p hp hold
      rw [hsplit]
      constructor
      · rintro ⟨hdistinct, ⟨hnew, hfresh⟩, hmade⟩
        exact ⟨⟨hnew, hdistinct⟩, ⟨hcontains, hfresh⟩, hmade⟩
      · rintro ⟨⟨hnew, hdistinct⟩, ⟨_, hfresh⟩, hmade⟩
        exact ⟨hdistinct, ⟨hnew, hfresh⟩, hmade⟩

theorem ofParts_eq_ok_iff :
    ofParts type entries = .ok id ↔
      type ≠ "" ∧ (entries.map (·.1)).Nodup ∧ id = (ofType type).withSpecs entries := by
  rw [withSpecs_eq, ofParts]
  by_cases htype : type = ""
  · rw [if_pos htype]
    constructor
    · intro h
      cases h
    · exact fun h => absurd htype h.1
  · rw [if_neg htype]
    constructor
    · intro h
      obtain ⟨spec, hspec, rfl⟩ := exists_of_map_eq_ok h
      obtain ⟨hdistinct, _, rfl⟩ := distinctSpec_eq_ok_iff.1 hspec
      exact ⟨htype, hdistinct, rfl⟩
    · rintro ⟨_, hdistinct, rfl⟩
      have hspec : distinctSpec type .empty entries =
          .ok (entries.foldl (fun l p => l.insert p.1 p.2) .empty) :=
        distinctSpec_eq_ok_iff.2 ⟨hdistinct, fun p _ hp => (by cases hp), rfl⟩
      rw [hspec]
      rfl

theorem withSpecs_perm (type : String) (h : (entries.map (·.1)).Nodup)
    (hperm : other.Perm entries) :
    (ofType type).withSpecs other = (ofType type).withSpecs entries := by
  have hother : (other.map (·.1)).Nodup := (hperm.map _).nodup_iff.2 h
  rw [withSpecs_eq, withSpecs_eq]
  congr 1
  apply Labels.ext_mem
  intro p
  show p ∈ (other.foldl _ Labels.empty).entries ↔ p ∈ (entries.foldl _ Labels.empty).entries
  rw [Labels.mem_foldl_insert_of_nodup hother, Labels.mem_foldl_insert_of_nodup h,
    hperm.mem_iff]

theorem spec_perm (h : (entries.map (·.1)).Nodup) :
    ((ofType type).withSpecs entries).spec.entries.Perm entries := by
  rw [withSpecs_eq]
  exact (List.perm_ext_iff_of_nodup (Labels.nodup_entries _) h.of_map).2 fun p =>
    Labels.mem_foldl_insert_of_nodup h

theorem littleEndian_hash (id : SeriesId) :
    Bytes.littleEndian 8 id.hash.toNat = (sha1 id.hashedBytes).take 8 := by
  have hlength : ((sha1 id.hashedBytes).take 8).length = 8 := by
    rw [List.length_take, length_sha1]
    rfl
  have hlt := Bytes.ofLittleEndian_lt ((sha1 id.hashedBytes).take 8)
  have hbytes := Bytes.littleEndian_ofLittleEndian ((sha1 id.hashedBytes).take 8)
  rw [hlength] at hlt hbytes
  rw [hash, UInt64.toNat_ofNat', Nat.mod_eq_of_lt hlt, hbytes]

/-- How an identifier depends on the entries it is made of. -/
structure Canonical (type : String) (entries : List (String × String)) : Prop where
  accepted : (∃ id, ofParts type entries = .ok id) ↔ type ≠ "" ∧ (entries.map (·.1)).Nodup
  unordered : ∀ id, ofParts type entries = .ok id → ∀ other, other.Perm entries →
    ofParts type other = .ok id ∧ (ofType type).withSpecs other = id
  /-- The hash is taken over the keys in the order of their bytes. -/
  hashed : ∀ id, ofParts type entries = .ok id →
    ∃ sorted : List (String × String), sorted.Perm entries ∧
    (sorted.Pairwise fun p q => utf8 p.1 < utf8 q.1) ∧
    Bytes.littleEndian 8 id.hash.toNat =
      (sha1 (utf8 type ++ sorted.flatMap fun p => utf8 p.1 ++ utf8 p.2)).take 8
  /-- Entered one after another, the entries of a key leave the last one. -/
  replaced : ∀ p, p ∈ ((ofType type).withSpecs entries).spec.entries ↔
    lastValue entries p.1 = some p.2

/-- Whatever the type and the entries, an identifier is made of them exactly if the type is not
empty and no key comes twice. It is the same for all orders of the entries and both ways of entering
them, and its hash is taken over the entries in the order of the bytes of their keys. -/
theorem canonical (type : String) (entries : List (String × String)) :
    Canonical type entries := by
  constructor
  · constructor
    · rintro ⟨id, hid⟩
      obtain ⟨htype, hdistinct, _⟩ := ofParts_eq_ok_iff.1 hid
      exact ⟨htype, hdistinct⟩
    · rintro ⟨htype, hdistinct⟩
      exact ⟨_, ofParts_eq_ok_iff.2 ⟨htype, hdistinct, rfl⟩⟩
  · intro id hid other hperm
    obtain ⟨htype, hdistinct, rfl⟩ := ofParts_eq_ok_iff.1 hid
    have hother : (other.map (·.1)).Nodup := (hperm.map _).nodup_iff.2 hdistinct
    have hsame := withSpecs_perm type hdistinct hperm
    exact ⟨ofParts_eq_ok_iff.2 ⟨htype, hother, hsame.symm⟩, hsame⟩
  · intro id hid
    obtain ⟨_, hdistinct, rfl⟩ := ofParts_eq_ok_iff.1 hid
    have htype : ((ofType type).withSpecs entries).type = type := by rw [withSpecs_eq]; rfl
    refine ⟨_, spec_perm hdistinct, ((ofType type).withSpecs entries).spec.ascending, ?_⟩
    rw [littleEndian_hash, hashedBytes, htype]
  · intro p
    rw [withSpecs_eq, Labels.mem_foldl_insert_iff]
    constructor
    · rintro (hlast | ⟨_, hnone⟩)
      · exact hlast
      · cases hnone
    · exact .inl

end SeriesId

end SeriesLog
