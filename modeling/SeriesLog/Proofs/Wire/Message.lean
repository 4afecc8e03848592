import SeriesLog.Proofs.Wire.Field
import SeriesLog.Wire.Message

/-! # Messages read back

Reading a written message merges its fields one after another. A group of fields of one number
rebuilds one component of the record: a number, a text, a list, or labels. -/
namespace SeriesLog.Wire

variable {entries : Nat → Bool} {limit : Nat} {α β γ : Type}

theorem mergeFields_flatMap {step : Nat → α → Field → Option α} {start : α} {fs : List Field}
    (hplain : ∀ f ∈ fs, f.Plain entries) (hlen : (fs.flatMap Field.encode).length < 2 ^ 64) :
    mergeFields entries step limit start (fs.flatMap Field.encode) =
      fs.foldlM (step (limit - 1)) start := by
  simp [mergeFields, fields?_flatMap hplain hlen]

theorem foldlM_append {step : α → Field → Option α} {s t : α} {fs : List Field}
    (h : fs.foldlM step s = some t) (gs : List Field) :
    (fs ++ gs).foldlM step s = gs.foldlM step t := by
  rw [List.foldlM_append, h]
  rfl

/-- The absent number 0 is the number that the record starts with. -/
theorem foldlM_numberFields {step : α → Field → Option α} {s t : α} {number n : Nat}
    (hset : step s ⟨number, .varint n⟩ = some t) (hzero : n = 0 → s = t) :
    (numberFields number n).foldlM step s = some t := by
  unfold numberFields
  split
  · next h => rw [hzero h]; rfl
  · simp [hset]

theorem foldlM_bodyFields {step : α → Field → Option α} {s t : α} {number : Nat} {body : Bytes}
    (hset : step s ⟨number, .delimited body⟩ = some t) (hnil : body = [] → s = t) :
    (bodyFields number body).foldlM step s = some t := by
  unfold bodyFields
  split
  · next h => rw [hnil h]; rfl
  · simp [hset]

theorem foldlM_repeated (step : α → Field → Option α) (field : β → Field) (set : γ → α)
    (add : γ → β → γ) {items : List β} (start : γ)
    (h : ∀ c, ∀ x ∈ items, step (set c) (field x) = some (set (add c x))) :
    (items.map field).foldlM step (set start) = some (set (items.foldl add start)) := by
  induction items generalizing start with
  | nil => rfl
  | cons x items ih =>
    have hrest := ih (add start x) fun c y hy => h c y (List.mem_cons_of_mem x hy)
    simp only [List.map_cons, List.foldlM_cons, h start x List.mem_cons_self, List.foldl_cons]
    exact hrest

theorem foldl_snoc (start items : List β) :
    items.foldl (fun l x => l ++ [x]) start = start ++ items := by
  induction items generalizing start with
  | nil => simp
  | cons x items ih => simp [ih]

theorem text?_utf8 (s : String) : (Value.delimited (utf8 s)).text? = some s :=
  ofUtf8?_utf8 s

theorem utf8_eq_nil {s : String} (h : utf8 s = []) : s = "" :=
  utf8_inj (h.trans rfl)

theorem packed?_flatMap {ns : List Nat} (h : ∀ n ∈ ns, n < 2 ^ 64) :
    Value.packed? (ns.flatMap varint) = some ns := by
  induction ns with
  | nil => simp [Value.packed?]
  | cons n ns ih =>
    have hne : varint n ++ ns.flatMap varint ≠ [] := by simp [varint_ne_nil]
    have hread := readVarint_varint (h n List.mem_cons_self) (ns.flatMap varint)
    have hrest := ih fun m hm => h m (List.mem_cons_of_mem n hm)
    rw [List.flatMap_cons, Value.packed?, if_neg hne]
    split
    · next hr => rw [hread] at hr; cases hr
    · next hr =>
      rw [hread] at hr
      cases hr
      rw [hrest]
      rfl

theorem numbers?_packed {ns : List Nat} (h : ∀ n ∈ ns, n < 2 ^ 64) :
    (Value.delimited (ns.flatMap varint)).numbers? = some ns :=
  packed?_flatMap h

theorem flatMap_varint_eq_nil {ns : List Nat} (h : ns.flatMap varint = []) : ns = [] := by
  cases ns with
  | nil => rfl
  | cons n ns =>
    rw [List.flatMap_cons] at h
    exact absurd (List.append_eq_nil_iff.1 h).1 (varint_ne_nil n)

def labelParts (entry : String × String) : List Field :=
  bodyFields 1 (utf8 entry.1) ++ bodyFields 2 (utf8 entry.2)

def labelAsField (number : Nat) (entry : String × String) : Field :=
  ⟨number, .delimited ((labelParts entry).flatMap Field.encode)⟩

theorem labelFields_eq (number : Nat) (labels : Labels) :
    labelFields number labels =
      (labels.entries.map (labelAsField number)).flatMap Field.encode := by
  unfold labelFields
  rw [List.flatMap_map]
  congr 1
  funext entry
  simp only [labelField, labelAsField, labelParts, Field.encode, delimitedFieldUnlessEmpty_eq,
    List.flatMap_append]

theorem plain_labels {number : Nat} (labels : Labels) (hpos : 0 < number)
    (hlt : number < 2 ^ 29) :
    ∀ f ∈ labels.entries.map (labelAsField number), f.Plain entries := by
  intro f hf
  obtain ⟨entry, _, rfl⟩ := List.mem_map.1 hf
  exact .delimited hpos hlt

theorem mergeFields_label (limit : Nat) {entry : String × String}
    (hlen : ((labelParts entry).flatMap Field.encode).length < 2 ^ 64) :
    mergeFields noEntries mergeLabelField limit ("", "") ((labelParts entry).flatMap Field.encode) =
      some entry := by
  have hplain : ∀ f ∈ labelParts entry, f.Plain noEntries := by
    intro f hf
    rcases List.mem_append.1 hf with hf | hf
    · exact plain_bodyFields (by decide) (by decide) f hf
    · exact plain_bodyFields (by decide) (by decide) f hf
  have hkey : (bodyFields 1 (utf8 entry.1)).foldlM (mergeLabelField (limit - 1)) ("", "") =
      some (entry.1, "") := by
    apply foldlM_bodyFields
    · simp [mergeLabelField, text?_utf8]
    · intro h
      rw [utf8_eq_nil h]
  rw [mergeFields_flatMap hplain hlen, labelParts, foldlM_append hkey]
  apply foldlM_bodyFields
  · simp [mergeLabelField, text?_utf8]
  · intro h
    rw [← utf8_eq_nil h]

theorem place_of_above {key value : String} {before : List (String × String)}
    (h : ∀ p ∈ before, utf8Less p.1 key) :
    Labels.place key value before = before ++ [(key, value)] := by
  induction before with
  | nil => rfl
  | cons p before ih =>
    have hp := h p List.mem_cons_self
    have hne : key ≠ p.1 := by
      intro heq
      rw [heq] at hp
      exact utf8Less_irrefl _ hp
    have hnlt : ¬ utf8Less key p.1 := fun hlt => utf8Less_irrefl _ (utf8Less_trans hlt hp)
    have hrest := ih fun q hq => h q (List.mem_cons_of_mem p hq)
    simp only [Labels.place, if_neg hne, if_neg hnlt, hrest, List.cons_append]

theorem entries_foldl_insert (labels : Labels) (rest : List (String × String))
    (h : KeysAscend (labels.entries ++ rest)) :
    (rest.foldl (fun l p => l.insert p.1 p.2) labels).entries = labels.entries ++ rest := by
  induction rest generalizing labels with
  | nil => simp
  | cons p rest ih =>
    have habove : ∀ q ∈ labels.entries, utf8Less q.1 p.1 := by
      intro q hq
      exact (List.pairwise_append.1 h).2.2 q hq p List.mem_cons_self
    have hinsert : (labels.insert p.1 p.2).entries = labels.entries ++ [p] := place_of_above habove
    have hnext : KeysAscend ((labels.insert p.1 p.2).entries ++ rest) := by
      rw [hinsert]
      simpa using h
    rw [List.foldl_cons, ih _ hnext, hinsert]
    simp

theorem foldl_insert (labels : Labels) :
    labels.entries.foldl (fun l p => l.insert p.1 p.2) .empty = labels := by
  apply Labels.ext
  simpa [Labels.empty] using entries_foldl_insert .empty labels.entries
    (by simpa [Labels.empty] using labels.ascending)

theorem length_le_of_mem {fs : List Field} {f : Field} (h : f ∈ fs) :
    f.encode.length ≤ (fs.flatMap Field.encode).length := by
  induction fs with
  | nil => cases h
  | cons g fs ih =>
    simp only [List.flatMap_cons, List.length_append]
    rcases List.mem_cons.1 h with rfl | h
    · omega
    · have := ih h
      omega

theorem length_body_le_of_mem {fs : List Field} {number : Nat} {body : Bytes}
    (h : (⟨number, .delimited body⟩ : Field) ∈ fs) :
    body.length ≤ (fs.flatMap Field.encode).length := by
  have hle := length_le_of_mem h
  have hbody := length_body_le_delimitedField number body
  simp only [Field.encode] at hle
  omega

theorem foldlM_labels (limit : Nat) (step : α → Field → Option α) (set : Labels → α)
    {number : Nat} {labels : Labels}
    (hlen : ((labels.entries.map (labelAsField number)).flatMap Field.encode).length < 2 ^ 64)
    (h : ∀ l v, step (set l) ⟨number, v⟩ = (mergeLabel limit l v).map set) :
    (labels.entries.map (labelAsField number)).foldlM step (set .empty) = some (set labels) := by
  have hstep : ∀ l, ∀ p ∈ labels.entries,
      step (set l) (labelAsField number p) = some (set (l.insert p.1 p.2)) := by
    intro l p hp
    have hbody := length_body_le_of_mem (List.mem_map_of_mem (f := labelAsField number) hp)
    rw [labelAsField, h]
    simp [mergeLabel, Value.body?, mergeFields_label limit (Nat.lt_of_le_of_lt hbody hlen)]
  have hall := foldlM_repeated step (labelAsField number) set (fun l p => l.insert p.1 p.2)
    Labels.empty hstep
  rw [foldl_insert] at hall
  exact hall

end SeriesLog.Wire
