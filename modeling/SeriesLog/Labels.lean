import SeriesLog.Text.Utf8

/-! # Labels

Texts under distinct text keys, kept in the byte order of the keys, so that two label sets
with the same entries are equal. Annotations and the specification of a series are labels. -/
namespace SeriesLog

theorem utf8Less_irrefl (s : String) : ¬ utf8Less s s := List.lt_irrefl (utf8 s)

theorem utf8Less_trans {s t u : String} (h : utf8Less s t) (k : utf8Less t u) : utf8Less s u :=
  List.lt_trans h k

theorem utf8Less_of_not {s t : String} (hne : s ≠ t) (h : ¬ utf8Less s t) : utf8Less t s := by
  rcases List.le_iff_lt_or_eq.1 (List.not_lt.1 h) with hlt | heq
  · exact hlt
  · exact absurd (utf8_inj heq).symm hne

def KeysAscend (entries : List (String × String)) : Prop :=
  entries.Pairwise fun p q => utf8Less p.1 q.1

/-- Values under distinct keys, in key order. -/
structure Labels where
  entries : List (String × String)
  ascending : KeysAscend entries

namespace Labels

theorem ext {a b : Labels} (h : a.entries = b.entries) : a = b := by
  cases a; cases b; cases h; rfl

instance : DecidableEq Labels := fun a b =>
  if h : a.entries = b.entries then isTrue (ext h) else isFalse fun heq => h (heq ▸ rfl)

def empty : Labels := ⟨[], List.Pairwise.nil⟩

instance : Inhabited Labels := ⟨empty⟩

/-- Puts an entry in its place, over an entry of the same key. -/
def place (key value : String) : List (String × String) → List (String × String)
  | [] => [(key, value)]
  | (k, v) :: rest =>
    if key = k then (key, value) :: rest
    else if utf8Less key k then (key, value) :: (k, v) :: rest
    else (k, v) :: place key value rest

theorem mem_place {key value : String} {p : String × String} {entries : List (String × String)}
    (h : p ∈ place key value entries) : p = (key, value) ∨ p ∈ entries := by
  induction entries with
  | nil => simpa [place] using h
  | cons q rest ih =>
    unfold place at h
    split at h
    · rcases List.mem_cons.1 h with h | h
      · exact .inl h
      · exact .inr (List.mem_cons_of_mem _ h)
    · split at h
      · rcases List.mem_cons.1 h with h | h
        · exact .inl h
        · exact .inr h
      · rcases List.mem_cons.1 h with h | h
        · exact .inr (h ▸ List.mem_cons_self)
        · exact (ih h).imp_right (List.mem_cons_of_mem _)

theorem keysAscend_place (key value : String) {entries : List (String × String)}
    (h : KeysAscend entries) : KeysAscend (place key value entries) := by
  induction entries with
  | nil => exact List.pairwise_singleton _ _
  | cons q rest ih =>
    obtain ⟨hq, hrest⟩ := List.pairwise_cons.1 h
    unfold place
    split
    · next heq =>
      refine List.pairwise_cons.2 ⟨fun p hp => ?_, hrest⟩
      subst heq
      exact hq p hp
    · next hne =>
      split
      · next hlt =>
        refine List.pairwise_cons.2 ⟨fun p hp => ?_, h⟩
        rcases List.mem_cons.1 hp with rfl | hp
        · exact hlt
        · exact utf8Less_trans hlt (hq p hp)
      · next hnlt =>
        refine List.pairwise_cons.2 ⟨fun p hp => ?_, ih hrest⟩
        rcases mem_place hp with rfl | hp
        · exact utf8Less_of_not hne hnlt
        · exact hq p hp

def insert (labels : Labels) (key value : String) : Labels :=
  ⟨place key value labels.entries, keysAscend_place key value labels.ascending⟩

def get? (labels : Labels) (key : String) : Option String :=
  (labels.entries.find? fun p => p.1 == key).map (·.2)

def contains (labels : Labels) (key : String) : Bool := labels.entries.any fun p => p.1 == key

/-- The labels of a list of entries; of equal keys the last counts. -/
def ofList (entries : List (String × String)) : Labels :=
  entries.foldl (fun labels p => labels.insert p.1 p.2) empty

def overlay (labels added : Labels) : Labels :=
  added.entries.foldl (fun labels p => labels.insert p.1 p.2) labels

end Labels

end SeriesLog
