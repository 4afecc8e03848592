import SeriesLog.Proofs.Scan.Steps

/-! # Scans of whole blocks

A scan of blocks that lie one after another yields them in order and goes on behind them. -/
namespace SeriesLog

section Rows

variable {α β : Type} {size : α → Nat} {offset cut : Nat}

/-- The bytes that a row of items takes. -/
def span (size : α → Nat) (items : List α) : Nat := (items.map size).sum

def stops (size : α → Nat) (offset : Nat) : List α → List Nat
  | [] => []
  | x :: rest => (offset + size x) :: stops size (offset + size x) rest

def within (size : α → Nat) (offset cut : Nat) (items : List α) : List α :=
  ((items.zip (stops size offset items)).filter fun p => p.2 ≤ cut).map (·.1)

/-- Whether some item of a row starts before an offset and ends behind it. -/
def Inside (size : α → Nat) (offset cut : Nat) (items : List α) : Prop :=
  ∃ p ∈ items.zip (stops size offset items), p.2 < cut + size p.1 ∧ cut < p.2

instance (size : α → Nat) (offset cut : Nat) (items : List α) :
    Decidable (Inside size offset cut items) :=
  inferInstanceAs (Decidable (∃ p ∈ items.zip _, _ ∧ _))

@[simp] theorem span_nil : span size [] = 0 := rfl

@[simp] theorem span_cons (x : α) (rest : List α) :
    span size (x :: rest) = size x + span size rest := rfl

@[simp] theorem span_append (items more : List α) :
    span size (items ++ more) = span size items + span size more := by
  simp [span]

theorem le_of_mem_stops {items : List α} {stop : Nat} (h : stop ∈ stops size offset items) :
    offset ≤ stop ∧ stop ≤ offset + span size items := by
  induction items generalizing offset with
  | nil => cases h
  | cons x rest ih =>
    rcases List.mem_cons.1 h with rfl | h
    · rw [span_cons]
      omega
    · have := ih h
      rw [span_cons]
      omega

theorem span_map (f : β → α) (items : List β) :
    span size (items.map f) = span (fun x => size (f x)) items := by
  simp [span, Function.comp_def]

theorem within_cons_of_le (size : α → Nat) {x : α} {rest : List α} (h : offset + size x ≤ cut) :
    within size offset cut (x :: rest) = x :: within size (offset + size x) cut rest := by
  simp [within, stops, h]

theorem within_eq_nil {items : List α} (h : ∀ stop ∈ stops size offset items, cut < stop) :
    within size offset cut items = [] := by
  simp only [within, List.map_eq_nil_iff, List.filter_eq_nil_iff, decide_eq_true_eq]
  intro p hp
  have := h p.2 (List.of_mem_zip hp).2
  omega

theorem within_cons_of_lt (size : α → Nat) {x : α} {rest : List α} (h : cut < offset + size x) :
    within size offset cut (x :: rest) = [] := by
  apply within_eq_nil
  intro stop hstop
  rcases List.mem_cons.1 hstop with rfl | hstop
  · exact h
  · have := le_of_mem_stops hstop
    omega

theorem within_eq_self {items : List α} (h : offset + span size items ≤ cut) :
    within size offset cut items = items := by
  induction items generalizing offset with
  | nil => rfl
  | cons x rest ih =>
    rw [span_cons] at h
    rw [within_cons_of_le size (by omega), ih (by omega)]

theorem within_map (f : β → α) (items : List β) :
    within size offset cut (items.map f) =
      (within (fun x => size (f x)) offset cut items).map f := by
  induction items generalizing offset with
  | nil => rfl
  | cons x rest ih =>
    by_cases h : offset + size (f x) ≤ cut
    · rw [List.map_cons, within_cons_of_le size h, within_cons_of_le (fun x => size (f x)) h,
        ih, List.map_cons]
    · rw [List.map_cons, within_cons_of_lt size (by omega),
        within_cons_of_lt (fun x => size (f x)) (by omega), List.map_nil]

theorem within_append (items more : List α) :
    within size offset cut (items ++ more) =
      within size offset cut items ++ within size (offset + span size items) cut more := by
  induction items generalizing offset with
  | nil => rfl
  | cons x rest ih =>
    rw [List.cons_append, span_cons, ← Nat.add_assoc]
    by_cases h : offset + size x ≤ cut
    · rw [within_cons_of_le size h, within_cons_of_le size h, ih, List.cons_append]
    · have hmore : within size (offset + size x + span size rest) cut more = [] := by
        apply within_eq_nil
        intro stop hstop
        have := (le_of_mem_stops hstop).1
        omega
      rw [within_cons_of_lt size (by omega), within_cons_of_lt size (by omega), hmore]
      rfl

theorem span_within_le {items : List α} (h : offset ≤ cut) :
    offset + span size (within size offset cut items) ≤ cut := by
  induction items generalizing offset with
  | nil => exact h
  | cons x rest ih =>
    by_cases hwhole : offset + size x ≤ cut
    · have := ih hwhole
      rw [within_cons_of_le size hwhole, span_cons]
      omega
    · rw [within_cons_of_lt size (by omega)]
      exact h

theorem within_isPrefix (items : List α) : within size offset cut items <+: items := by
  induction items generalizing offset with
  | nil => exact List.prefix_refl _
  | cons x rest ih =>
    by_cases h : offset + size x ≤ cut
    · rw [within_cons_of_le size h, List.prefix_cons_inj]
      exact ih
    · rw [within_cons_of_lt size (by omega)]
      exact List.nil_prefix

theorem not_inside_nil : ¬ Inside size offset cut [] := by
  rintro ⟨p, hp, _⟩
  cases hp

theorem inside_cons (x : α) (rest : List α) :
    Inside size offset cut (x :: rest) ↔
      (offset < cut ∧ cut < offset + size x) ∨ Inside size (offset + size x) cut rest := by
  simp [Inside, stops]

theorem inside_map (f : β → α) (items : List β) :
    Inside size offset cut (items.map f) ↔ Inside (fun x => size (f x)) offset cut items := by
  induction items generalizing offset with
  | nil => exact ⟨fun h => (not_inside_nil h).elim, fun h => (not_inside_nil h).elim⟩
  | cons x rest ih => rw [List.map_cons, inside_cons, inside_cons, ih]

theorem Inside.lt {items : List α} (h : Inside size offset cut items) :
    offset < cut ∧ cut < offset + span size items := by
  induction items generalizing offset with
  | nil => exact (not_inside_nil h).elim
  | cons x rest ih =>
    rw [span_cons]
    rcases (inside_cons x rest).1 h with ⟨hstart, hstop⟩ | hrest
    · omega
    · have := ih hrest
      omega

theorem inside_iff_not_mem_stops {items : List α} (h : offset < cut)
    (hcut : cut ≤ offset + span size items) :
    Inside size offset cut items ↔ cut ∉ stops size offset items := by
  induction items generalizing offset with
  | nil =>
    rw [span_nil] at hcut
    omega
  | cons x rest ih =>
    rw [span_cons, ← Nat.add_assoc] at hcut
    rw [inside_cons, stops, List.mem_cons, not_or]
    by_cases hbehind : offset + size x < cut
    · rw [ih hbehind hcut]
      constructor
      · rintro (hin | hrest)
        · omega
        · exact ⟨by omega, hrest⟩
      · exact fun hrest => .inr hrest.2
    · have hrest : ¬ Inside size (offset + size x) cut rest := by
        intro hin
        have := hin.lt
        omega
      constructor
      · rintro (hin | hin)
        · refine ⟨by omega, ?_⟩
          intro hmem
          have := le_of_mem_stops hmem
          omega
        · exact (hrest hin).elim
      · exact fun hstop => .inl (by omega)

end Rows

theorem length_flatMap_encode {α : Type} (block : α → Block) (items : List α) :
    (items.flatMap fun x => (block x).encode).length = span (fun x => (block x).size) items := by
  simp [List.length_flatMap, span]

namespace Scan

variable {c : ScanConfig} {offset : Nat} {fault : Option DeviceFault}

def after (scan : Scan) (items : List ScanItem) : Scan := { scan with items := items ++ scan.items }

def placed (offset : Nat) : List (Block × BlockContent) → List ScanItem
  | [] => []
  | (b, content) :: rest =>
    .block offset b.body.length content :: placed (offset + b.size) rest

theorem blocks_of_block {s rest : Source} {size : Nat} {content : BlockContent}
    (h : step c offset s = .block size content rest) :
    blocks c offset s =
      (blocks c (offset + headerSize + size) rest).after [.block offset size content] := by
  rw [blocks]
  split
  · next hs => rw [h] at hs; cases hs; rfl
  · next hs => rw [h] at hs; cases hs
  · next hs => rw [h] at hs; cases hs

theorem blocks_of_trailer {s : Source} {trailer : Trailer}
    (h : step c offset s = .trailer trailer) :
    blocks c offset s = ⟨[.trailer offset trailer], .sealed, offset + trailerSize⟩ := by
  rw [blocks]
  split
  · next hs => rw [h] at hs; cases hs
  · next hs => rw [h] at hs; cases hs; rfl
  · next hs => rw [h] at hs; cases hs

theorem blocks_of_stop {s : Source} {ending : ScanEnding} (h : step c offset s = .stop ending) :
    blocks c offset s = ⟨[], ending, offset⟩ := by
  rw [blocks]
  split
  · next hs => rw [h] at hs; cases hs
  · next hs => rw [h] at hs; cases hs
  · next hs => rw [h] at hs; cases hs; rfl

/-- Blocks that a scan reads and that are not too large. -/
def ReadsAll (c : ScanConfig) (bs : List (Block × BlockContent)) : Prop :=
  ∀ p ∈ bs, Reads c p.1 p.2 ∧ p.1.body.length ≤ maxBodySize

theorem blocks_append {bs : List (Block × BlockContent)} (h : ReadsAll c bs) (rest : Bytes) :
    blocks c offset ⟨(bs.flatMap fun p => p.1.encode) ++ rest, fault⟩ =
      (blocks c (offset + span (fun p => p.1.size) bs) ⟨rest, fault⟩).after (placed offset bs) := by
  induction bs generalizing offset with
  | nil => rfl
  | cons p bs ih =>
    obtain ⟨hreads, hsize⟩ := h p List.mem_cons_self
    have hrest := @ih (offset + p.1.size) fun q hq => h q (List.mem_cons_of_mem p hq)
    have hoffset : offset + headerSize + p.1.body.length = offset + p.1.size := by
      simp only [Block.size]
      omega
    rw [List.flatMap_cons, List.append_assoc,
      blocks_of_block (step_block_append hreads hsize _), hoffset, hrest, span_cons, Nat.add_assoc]
    rfl

end Scan

theorem scan_magic_append (c : ScanConfig) (bytes : Bytes) (fault : Option DeviceFault) :
    (Source.mk (openingMagic ++ bytes) fault).scan c =
      Scan.blocks c openingMagic.length ⟨bytes, fault⟩ := by
  unfold Source.scan
  rw [Scan.readMagic_append]

end SeriesLog
