import SeriesLog.Proofs.Log.IndexSize

/-! # Numbers of series and blocks

A journal is its series and its data blocks. The index of a log bounds the numbers of both, and so,
when blocks are not too large, it bounds the log. -/
namespace SeriesLog

variable {offset : Nat} {found : List SeriesState}

def entryCount (found : List SeriesState) : Nat := (found.flatMap fun s => s.recorded).length

theorem entryCount_modify_record {i : Nat} {s : SeriesState} (h : found[i]? = some s)
    (entry : IndexEntry) :
    entryCount (found.modify i fun s => s.record entry) = entryCount found + 1 := by
  induction found generalizing i with
  | nil => cases h
  | cons first rest ih =>
    cases i with
    | zero =>
      simp only [List.modify_zero_cons, entryCount, List.flatMap_cons, List.length_append,
        SeriesState.record, List.length_cons]
      omega
    | succ i =>
      have hrest := ih (i := i) (by simpa using h)
      simp only [entryCount] at hrest
      simp only [List.modify_succ_cons, entryCount, List.flatMap_cons, List.length_append, hrest]
      omega

theorem entryCount_track {journal : List Addition} (h : Sound offset found journal) :
    entryCount (track offset found journal) =
      entryCount found + (recordsOf offset journal).length := by
  induction journal generalizing offset found with
  | nil => rfl
  | cons a rest ih =>
    obtain ⟨hadmits, _, hrest⟩ := h
    rw [track, ih hrest, recordsOf, List.length_append]
    cases hadmits with
    | series _ _ =>
      simp [entryCount, Addition.enter, Addition.record?, SeriesState.declared]
    | data hs _ _ =>
      simp only [Addition.enter, entryCount_modify_record hs, Addition.record?,
        Option.toList_some, List.length_singleton]
      omega

theorem entryCount_seriesIn {annotations : Labels} {journal : List Addition}
    (h : SoundIn annotations journal) :
    entryCount (seriesIn annotations journal) = (recordsIn annotations journal).length := by
  have hcount := entryCount_track h
  have hnone : entryCount [] = 0 := rfl
  rw [hnone, Nat.zero_add] at hcount
  exact hcount

theorem length_journal (offset : Nat) (journal : List Addition) :
    journal.length = (declared journal).length + (recordsOf offset journal).length := by
  induction journal generalizing offset with
  | nil => rfl
  | cons a rest ih =>
    have hrest := ih (offset + a.size)
    rw [recordsOf, List.length_append, List.length_cons, hrest]
    cases a with
    | series d =>
      simp only [declared, List.filterMap_cons, Addition.descriptor?, List.length_cons,
        Addition.record?, Option.toList_none, List.length_nil]
      omega
    | data d payload =>
      simp only [declared, List.filterMap_cons, Addition.descriptor?, Addition.record?,
        Option.toList_some, List.length_singleton]
      omega

theorem span_le {α : Type} {size : α → Nat} {limit : Nat} {items : List α}
    (h : ∀ x ∈ items, size x ≤ limit) : span size items ≤ items.length * limit := by
  induction items with
  | nil => exact Nat.zero_le _
  | cons x rest ih =>
    have hx := h x List.mem_cons_self
    have hrest := ih fun y hy => h y (List.mem_cons_of_mem x hy)
    rw [span_cons, List.length_cons, Nat.succ_mul]
    omega

theorem length_logBytes_lt_of_limit (annotations : Labels) {journal : List Addition}
    (h : SoundIn annotations journal)
    (hfile : (fileBlock annotations).body.length ≤ defaultMaxBlockSize)
    (hlimit : ∀ a ∈ journal, a.block.body.length ≤ defaultMaxBlockSize)
    (hindex : (indexBlock (seriesIn annotations journal)).body.length ≤ defaultMaxBlockSize) :
    (logBytes annotations journal).length < 2 ^ 63 := by
  have hentries := length_entries_le (seriesIn annotations journal)
  have hseries := length_series_le (seriesIn annotations journal)
  have hrecords := entryCount_seriesIn h
  have hdeclared := length_seriesIn annotations journal
  have hjournal := length_journal (opening annotations).length journal
  rw [entryCount, recordsIn] at hrecords
  have hspan := @span_le _ Addition.size (headerSize + defaultMaxBlockSize) journal fun a ha =>
    Nat.add_le_add_left (hlimit a ha) headerSize
  have hcount : journal.length ≤ 2 * defaultMaxBlockSize := by omega
  have hmul := Nat.mul_le_mul_right (headerSize + defaultMaxBlockSize) hcount
  have hopening : (opening annotations).length =
      openingMagic.length + (headerSize + (fileBlock annotations).body.length) :=
    length_opening annotations
  have hmagic : openingMagic.length = 4 := rfl
  rw [length_logBytes, hopening, hmagic]
  simp only [defaultMaxBlockSize, headerSize] at hfile hspan hmul ⊢
  omega

end SeriesLog
