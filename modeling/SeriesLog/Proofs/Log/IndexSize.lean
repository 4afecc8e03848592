import SeriesLog.Proofs.Log.Layout

/-! # The size of an index

The index of a log grows with the journal, and it is never larger than eight times the log. -/
namespace SeriesLog

open Wire

theorem length_delimitedField_mono (number : Nat) {body more : Bytes}
    (h : body.length ≤ more.length) :
    (delimitedField number body).length ≤ (delimitedField number more).length := by
  have hvarint := length_varint_mono h
  rw [length_delimitedField, length_delimitedField]
  omega

theorem length_varint_le_succ (n : Nat) : (varint n).length ≤ n + 1 := by
  induction n using Nat.strongRecOn with
  | ind n ih =>
    by_cases hn : n < 128
    · rw [varint_of_lt hn, List.length_singleton]
      omega
    · have hrec := ih (n / 128) (by omega)
      rw [varint_of_le (Nat.not_lt.1 hn), List.length_cons]
      omega

theorem length_delimitedField_le {number : Nat} (h : number * 8 + 2 < 128) (body : Bytes) :
    (delimitedField number body).length ≤ 2 + 2 * body.length := by
  have hlength := length_varint_le_succ body.length
  rw [length_delimitedField, varint_of_lt h, List.length_singleton]
  omega

theorem length_entryField_le (e : IndexEntry) : (delimitedField 2 e.encode).length ≤ 24 := by
  have htime := length_varintFieldUnlessZero_le 1 (by decide)
    e.timestamp.toUInt64.toNat_lt
  have hoffset := length_varintFieldUnlessZero_le 2 (by decide) e.offset.toNat_lt
  have hentry : e.encode.length ≤ 22 := by
    rw [IndexEntry.encode, List.length_append]
    omega
  rw [length_delimitedField, varint_of_lt (by decide), varint_of_lt (by omega),
    List.length_singleton, List.length_singleton]
  omega

def indexField (s : SeriesState) : Bytes := delimitedField 1 s.toIndex.encode

theorem encode_index (found : List SeriesState) :
    (FileIndex.mk (found.map SeriesState.toIndex)).encode = found.flatMap indexField := by
  rw [FileIndex.encode, List.flatMap_map]
  rfl

theorem length_indexBlock (found : List SeriesState) :
    (indexBlock found).body.length = (delimitedField 4 (found.flatMap indexField)).length := by
  rw [indexBlock, Descriptor.encode, encode_index]

theorem length_indexField_record (s : SeriesState) (entry : IndexEntry) :
    (indexField s).length ≤ (indexField (s.record entry)).length := by
  apply length_delimitedField_mono
  simp only [SeriesIndex.encode, SeriesState.toIndex, SeriesState.entries_record,
    List.flatMap_append, List.length_append]
  exact Nat.add_le_add_left (Nat.le_add_right _ _) _

theorem sum_modify_le {α : Type} {size : α → Nat} {f : α → α} {extra : Nat} (i : Nat)
    (items : List α) (h : ∀ x ∈ items, size (f x) ≤ size x + extra) :
    ((items.modify i f).map size).sum ≤ (items.map size).sum + extra := by
  induction items generalizing i with
  | nil => simp
  | cons x rest ih =>
    cases i with
    | zero =>
      have hx := h x List.mem_cons_self
      simp only [List.modify_zero_cons, List.map_cons, List.sum_cons]
      omega
    | succ i =>
      have hrest := ih i fun y hy => h y (List.mem_cons_of_mem x hy)
      simp only [List.modify_succ_cons, List.map_cons, List.sum_cons]
      omega

theorem le_sum_modify {α : Type} {size : α → Nat} {f : α → α} (i : Nat) (items : List α)
    (h : ∀ x ∈ items, size x ≤ size (f x)) :
    (items.map size).sum ≤ ((items.modify i f).map size).sum := by
  induction items generalizing i with
  | nil => simp
  | cons x rest ih =>
    cases i with
    | zero =>
      have hx := h x List.mem_cons_self
      simp only [List.modify_zero_cons, List.map_cons, List.sum_cons]
      omega
    | succ i =>
      have hrest := ih i fun y hy => h y (List.mem_cons_of_mem x hy)
      simp only [List.modify_succ_cons, List.map_cons, List.sum_cons]
      omega

theorem sum_le_enter {size : SeriesState → Nat}
    (hrecord : ∀ s entry, size s ≤ size (s.record entry)) (offset : Nat)
    (found : List SeriesState) (a : Addition) :
    (found.map size).sum ≤ ((a.enter offset found).map size).sum := by
  cases a with
  | series d =>
    rw [Addition.enter, List.map_append, List.sum_append]
    exact Nat.le_add_right _ _
  | data d payload => exact le_sum_modify _ _ fun s _ => hrecord s _

theorem sum_le_track {size : SeriesState → Nat}
    (hrecord : ∀ s entry, size s ≤ size (s.record entry)) (offset : Nat)
    (found : List SeriesState) (journal : List Addition) :
    (found.map size).sum ≤ ((track offset found journal).map size).sum := by
  induction journal generalizing offset found with
  | nil => exact Nat.le_refl _
  | cons a rest ih => exact Nat.le_trans (sum_le_enter hrecord offset found a) (ih _ _)

theorem sum_le_of_isPrefix {size : SeriesState → Nat}
    (hrecord : ∀ s entry, size s ≤ size (s.record entry)) (annotations : Labels)
    {kept journal : List Addition} (h : kept <+: journal) :
    ((seriesIn annotations kept).map size).sum ≤ ((seriesIn annotations journal).map size).sum := by
  obtain ⟨more, rfl⟩ := h
  rw [seriesIn, seriesIn, track_append]
  exact sum_le_track hrecord _ _ more

theorem length_indexBlock_of_isPrefix (annotations : Labels) {kept journal : List Addition}
    (h : kept <+: journal) :
    (indexBlock (seriesIn annotations kept)).body.length ≤
      (indexBlock (seriesIn annotations journal)).body.length := by
  have hfields := sum_le_of_isPrefix length_indexField_record annotations h
  rw [length_indexBlock, length_indexBlock]
  apply length_delimitedField_mono
  rw [List.length_flatMap, List.length_flatMap]
  exact hfields

theorem length_indexPart_of_isPrefix (annotations : Labels) {kept journal : List Addition}
    (h : kept <+: journal) {limit : Nat}
    (hle : ∀ b ∈ indexPart (seriesIn annotations journal), b.body.length ≤ limit) :
    ∀ b ∈ indexPart (seriesIn annotations kept), b.body.length ≤ limit := by
  intro b hb
  have hentries := @sum_le_of_isPrefix (fun s => s.recorded.length) (fun s entry => Nat.le_succ _)
    annotations _ _ h
  have hindex := length_indexBlock_of_isPrefix annotations h
  unfold indexPart at hb hle
  rw [List.length_flatMap] at hb hle
  split at hb
  · cases hb
  · next hsome =>
    rw [List.mem_singleton.1 hb]
    rw [if_neg (by omega)] at hle
    exact Nat.le_trans hindex (hle _ List.mem_cons_self)

theorem sum_le_length_indexBlock {size : SeriesState → Nat}
    (h : ∀ s, size s ≤ (indexField s).length) (found : List SeriesState) :
    (found.map size).sum ≤ (indexBlock found).body.length := by
  have hfields : (found.map size).sum ≤ (found.flatMap indexField).length := by
    rw [List.length_flatMap]
    induction found with
    | nil => exact Nat.le_refl _
    | cons s rest ih =>
      have hs := h s
      simp only [List.map_cons, List.sum_cons]
      omega
  have hbody := length_body_le_delimitedField 4 (found.flatMap indexField)
  rw [length_indexBlock]
  omega

/-- An index has at least a byte for every series. -/
theorem length_series_le (found : List SeriesState) :
    found.length ≤ (indexBlock found).body.length := by
  have hsum := @sum_le_length_indexBlock (fun _ => 1) (fun s => by
    have hs := length_body_le_delimitedField 1 s.toIndex.encode
    rw [indexField]
    omega) found
  rw [List.map_const', List.sum_replicate_nat, Nat.mul_one] at hsum
  exact hsum

theorem length_le_entryFields (entries : List IndexEntry) :
    entries.length ≤ (entries.flatMap fun e => delimitedField 2 e.encode).length := by
  induction entries with
  | nil => exact Nat.le_refl _
  | cons e rest ih =>
    have he := length_body_le_delimitedField 2 e.encode
    simp only [List.flatMap_cons, List.length_append, List.length_cons]
    omega

theorem length_entries_le (found : List SeriesState) :
    (found.flatMap fun s => s.recorded).length ≤ (indexBlock found).body.length := by
  rw [List.length_flatMap]
  apply sum_le_length_indexBlock
  intro s
  have hs := length_body_le_delimitedField 1 s.toIndex.encode
  have hsize := length_le_entryFields s.entries
  rw [SeriesState.entries, List.length_reverse] at hsize
  simp only [SeriesIndex.encode, SeriesState.toIndex, SeriesState.entries, List.length_append]
    at hs
  simp only [indexField, SeriesIndex.encode, SeriesState.toIndex, SeriesState.entries]
  omega

def indexWeight (s : SeriesState) : Nat :=
  6 + 4 * s.descriptor.encode.length + 48 * s.entries.length

theorem length_indexField_le (s : SeriesState) : (indexField s).length ≤ indexWeight s := by
  have hdescriptor := length_delimitedField_le (by decide : 1 * 8 + 2 < 128) s.descriptor.encode
  have hentries : ∀ entries : List IndexEntry,
      (entries.flatMap fun e => delimitedField 2 e.encode).length ≤ 24 * entries.length := by
    intro entries
    induction entries with
    | nil => exact Nat.zero_le _
    | cons e rest ih =>
      have he := length_entryField_le e
      simp only [List.flatMap_cons, List.length_append, List.length_cons]
      omega
  have hentries := hentries s.entries
  have hfield := length_delimitedField_le (by decide : 1 * 8 + 2 < 128) s.toIndex.encode
  simp only [SeriesIndex.encode, SeriesState.toIndex, List.length_append] at hfield
  simp only [indexField, indexWeight, SeriesIndex.encode, SeriesState.toIndex]
  omega

theorem length_indexBlock_le (found : List SeriesState) :
    (indexBlock found).body.length ≤ 2 + 2 * (found.map indexWeight).sum := by
  have hfields : (found.flatMap indexField).length ≤ (found.map indexWeight).sum := by
    rw [List.length_flatMap]
    induction found with
    | nil => exact Nat.le_refl _
    | cons s rest ih =>
      have hs := length_indexField_le s
      simp only [List.map_cons, List.sum_cons]
      omega
  have hbody := length_delimitedField_le (by decide : 4 * 8 + 2 < 128) (found.flatMap indexField)
  rw [length_indexBlock]
  omega

theorem sum_indexWeight_enter (offset : Nat) (found : List SeriesState) (a : Addition) :
    ((a.enter offset found).map indexWeight).sum ≤ (found.map indexWeight).sum + 4 * a.size := by
  cases a with
  | series d =>
    have hbody := length_body_le_delimitedField 2 d.encode
    have hweight : indexWeight (.declared d) = 6 + 4 * d.encode.length := by
      simp [indexWeight, SeriesState.declared, SeriesState.entries]
    have hsize : (Addition.series d).size = 8 + (delimitedField 2 d.encode).length := rfl
    rw [Addition.enter, List.map_append, List.sum_append, List.map_singleton, List.sum_singleton,
      hweight, hsize]
    omega
  | data d payload =>
    refine sum_modify_le _ _ fun s _ => ?_
    have hsize : (Addition.data d payload).size = 8 + (d.sized ++ payload).length := rfl
    have hsized := DataDescriptor.length_sized d
    rw [descriptorSizeBytes] at hsized
    rw [List.length_append] at hsize
    have hweight : indexWeight (s.record ⟨d.timestamp, UInt64.ofNat offset⟩) =
        indexWeight s + 48 := by
      rw [indexWeight, SeriesState.entries_record, List.length_append, List.length_singleton,
        Nat.mul_add, ← Nat.add_assoc]
      rfl
    rw [hweight, hsize, hsized]
    omega

theorem sum_indexWeight_track (offset : Nat) (found : List SeriesState) (journal : List Addition) :
    ((track offset found journal).map indexWeight).sum ≤
      (found.map indexWeight).sum + 4 * span Addition.size journal := by
  induction journal generalizing offset found with
  | nil => exact Nat.le_refl _
  | cons a rest ih =>
    have hrest := ih (offset + a.size) (a.enter offset found)
    have ha := sum_indexWeight_enter offset found a
    rw [track, span_cons]
    omega

theorem length_indexBlock_of_log (annotations : Labels) {journal : List Addition}
    (h : (logBytes annotations journal).length < 2 ^ 53) :
    (indexBlock (seriesIn annotations journal)).body.length ≤ maxBodySize := by
  have hweight := sum_indexWeight_track (opening annotations).length [] journal
  have hindex := length_indexBlock_le (seriesIn annotations journal)
  have hopening := length_opening annotations
  have hpos := (fileBlock annotations).size_pos
  rw [length_logBytes] at h
  rw [List.map_nil, List.sum_nil] at hweight
  simp only [seriesIn, maxBodySize] at hindex ⊢
  omega

end SeriesLog
