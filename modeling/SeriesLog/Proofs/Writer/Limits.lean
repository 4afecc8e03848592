import SeriesLog.Proofs.Writer.Seal

/-! # Limited sinks

What room for only so many bytes does to a step of the writer: nothing, as long as what the step
writes fits; else the step fails, and the sink holds the first of the bytes. This is shown for the
pieces of a block, carried over to steps one after another, and so to every call. -/
namespace SeriesLog

structure Sink.Full (s : Sink) (n : Nat) (meant : Bytes) : Prop where
  bytes : s.bytes = meant.take n
  room : s.room = some 0

theorem Sink.Full.of_prefix {s : Sink} {n : Nat} {meant more : Bytes} (h : s.Full n meant)
    (hle : n ≤ meant.length) (hmore : meant <+: more) : s.Full n more := by
  obtain ⟨rest, rfl⟩ := hmore
  refine ⟨?_, h.room⟩
  rw [h.bytes, List.take_append_of_le_length hle]

namespace Writer

/-- A writer whose sink takes only `n` bytes in all, those that it has included. -/
def capped (w : Writer) (n : Nat) : Writer :=
  { w with sink := ⟨w.sink.pieces, some (n - w.sink.bytes.length)⟩ }

def Failed {α : Type} (result : Except LogError α) : Prop := ∃ e, result = .error e

/-- What a limit of `n` bytes does to a step of a writer on a sink without limit: nothing, as long
as everything fits that the step puts on the sink; else the step fails, and the sink is full. -/
structure Capped {ρ : Type} (n : Nat) (failed : ρ → Prop) (w : Writer)
    (step : Writer → ρ × Writer) : Prop where
  unlimited : (step w).2.sink.room = none
  grows : w.sink.bytes <+: (step w).2.sink.bytes
  fits : (step w).2.sink.bytes.length ≤ n →
    step (w.capped n) = ((step w).1, (step w).2.capped n)
  full : w.sink.bytes.length ≤ n → n < (step w).2.sink.bytes.length →
    failed (step (w.capped n)).1 ∧ (step (w.capped n)).2.sink.Full n (step w).2.sink.bytes

variable {w : Writer} {n : Nat} {ρ : Type} {failed : ρ → Prop} {step other : Writer → ρ × Writer}

/-- Whatever the step puts on the sink, the limited one has the first `n` bytes of it. -/
theorem Capped.cut (h : Capped n failed w step) (hle : w.sink.bytes.length ≤ n) :
    (step (w.capped n)).2.sink.bytes = (step w).2.sink.bytes.take n := by
  by_cases hfits : (step w).2.sink.bytes.length ≤ n
  · rw [h.fits hfits, List.take_of_length_le hfits]
    rfl
  · exact (h.full hle (Nat.lt_of_not_le hfits)).2.bytes

theorem Capped.filled (h : Capped n failed w step) (hle : w.sink.bytes.length ≤ n)
    (hmore : n ≤ (step w).2.sink.bytes.length) :
    (step (w.capped n)).2.sink.Full n (step w).2.sink.bytes := by
  refine ⟨h.cut hle, ?_⟩
  by_cases hfits : (step w).2.sink.bytes.length ≤ n
  · rw [h.fits hfits]
    exact congrArg some (Nat.sub_eq_zero_of_le hmore)
  · exact (h.full hle (Nat.lt_of_not_le hfits)).2.room

theorem Capped.still (hroom : w.sink.room = none) (hsink : (step w).2.sink = w.sink)
    (hsame : step (w.capped n) = ((step w).1, (step w).2.capped n)) : Capped n failed w step := by
  constructor
  case unlimited =>
    rw [hsink]
    exact hroom
  case grows => exact hsink ▸ List.prefix_refl _
  case fits => exact fun _ => hsame
  case full =>
    intro hle hlt
    rw [hsink] at hlt
    omega

theorem Capped.idle (hroom : w.sink.room = none) {result : ρ} (hw : step w = (result, w))
    (hcapped : step (w.capped n) = (result, w.capped n)) : Capped n failed w step := by
  refine .still hroom ?_ ?_
  · rw [hw]
  · rw [hcapped, hw]

theorem Capped.congr (h : Capped n failed w step) (hw : other w = step w)
    (hcapped : other (w.capped n) = step (w.capped n)) : Capped n failed w other := by
  constructor
  case unlimited =>
    rw [hw]
    exact h.unlimited
  case grows =>
    rw [hw]
    exact h.grows
  case fits =>
    rw [hw, hcapped]
    exact h.fits
  case full =>
    rw [hw, hcapped]
    exact h.full

def andThen {α β : Type} (first : Writer → Except LogError α × Writer)
    (next : α → Writer → Except LogError β × Writer) (w : Writer) : Except LogError β × Writer :=
  match first w with
  | (.error e, w) => (.error e, w)
  | (.ok a, w) => next a w

theorem andThen_of_failed {α β : Type} {first : Writer → Except LogError α × Writer}
    (next : α → Writer → Except LogError β × Writer) {v : Writer} (h : Failed (first v).1) :
    Failed (Writer.andThen first next v).1 ∧
      (Writer.andThen first next v).2 = (first v).2 := by
  obtain ⟨e, he⟩ := h
  cases hfirst : first v with
  | mk result after =>
    rw [hfirst] at he
    cases he
    rw [Writer.andThen, hfirst]
    exact ⟨⟨e, rfl⟩, rfl⟩

theorem Capped.andThen {α β : Type} {first : Writer → Except LogError α × Writer}
    {next : α → Writer → Except LogError β × Writer} (h : Capped n Failed w first)
    (hnext : ∀ a, (first w).1 = .ok a → Capped n Failed (first w).2 (next a)) :
    Capped n Failed w (Writer.andThen first next) := by
  cases hfirst : first w with
  | mk result after =>
    obtain ⟨hroom, hgrows, hfits, hfull⟩ := h
    rw [hfirst] at hroom hgrows hfits hfull hnext
    cases result with
    | error e =>
      have hstop : Writer.andThen first next w = (.error e, after) := by
        rw [Writer.andThen, hfirst]
      constructor
      case unlimited =>
        rw [hstop]
        exact hroom
      case grows =>
        rw [hstop]
        exact hgrows
      case fits =>
        intro hle
        rw [hstop] at hle ⊢
        rw [Writer.andThen, hfits hle]
      case full =>
        intro hle hlt
        rw [hstop] at hlt ⊢
        obtain ⟨hfailed, hsink⟩ := hfull hle hlt
        obtain ⟨hstopped, hsame⟩ := andThen_of_failed next hfailed
        rw [hsame]
        exact ⟨hstopped, hsink⟩
    | ok a =>
      have hmore := hnext a rfl
      have hgo : Writer.andThen first next w = next a after := by
        rw [Writer.andThen, hfirst]
      have hlonger := hmore.grows.length_le
      constructor
      case unlimited =>
        rw [hgo]
        exact hmore.unlimited
      case grows =>
        rw [hgo]
        exact hgrows.trans hmore.grows
      case fits =>
        intro hle
        rw [hgo] at hle ⊢
        rw [Writer.andThen, hfits (Nat.le_trans hlonger hle)]
        exact hmore.fits hle
      case full =>
        intro hle hlt
        rw [hgo] at hlt ⊢
        by_cases hroomy : after.sink.bytes.length ≤ n
        · rw [Writer.andThen, hfits hroomy]
          exact hmore.full hroomy hlt
        · have hover := Nat.lt_of_not_le hroomy
          obtain ⟨hfailed, hsink⟩ := hfull hle hover
          obtain ⟨hstopped, hsame⟩ := andThen_of_failed next hfailed
          rw [hsame]
          exact ⟨hstopped, hsink.of_prefix (Nat.le_of_lt hover) hmore.grows⟩

theorem put_capped (hroom : w.sink.room = none) {piece : Bytes}
    (hle : w.sink.bytes.length + piece.length ≤ n) :
    (w.capped n).fits piece = true ∧ (w.capped n).put piece = (w.put piece).capped n := by
  have hfree : w.sink.fitting piece = piece := by simp [Sink.fitting, hroom]
  have hcut : (w.capped n).sink.fitting piece = piece := by
    simp only [capped, Sink.fitting]
    exact List.take_of_length_le (by omega)
  have hroomLeft : n - w.sink.bytes.length - piece.length = n - (w.put piece).sink.bytes.length := by
    rw [put, Sink.bytes_write, hfree, List.length_append]
    omega
  have hpieces : (w.put piece).sink.pieces = piece :: w.sink.pieces := by
    rw [put, Sink.write, hfree]
  have hwrite : (w.capped n).sink.write piece = ((w.put piece).capped n).sink :=
    calc (w.capped n).sink.write piece
        = ⟨piece :: w.sink.pieces, some (n - w.sink.bytes.length - piece.length)⟩ := by
          rw [Sink.write, hcut]
          rfl
      _ = ((w.put piece).capped n).sink := by
          rw [hroomLeft, ← hpieces]
          rfl
  refine ⟨decide_eq_true hcut, ?_⟩
  rw [put, hwrite, hcut, put, hfree]
  rfl

theorem put_full (hle : w.sink.bytes.length ≤ n) {piece : Bytes}
    (hlt : n < w.sink.bytes.length + piece.length) :
    (w.capped n).fits piece = false ∧
      ((w.capped n).sink.write piece).Full n (w.sink.bytes ++ piece) := by
  have hcut : (w.capped n).sink.fitting piece = piece.take (n - w.sink.bytes.length) := rfl
  have hbytes : (w.capped n).sink.bytes = w.sink.bytes := rfl
  refine ⟨?_, ?_, ?_⟩
  · apply decide_eq_false
    intro heq
    have hlength := congrArg List.length (hcut.symm.trans heq)
    rw [List.length_take] at hlength
    omega
  · rw [Sink.bytes_write, hbytes, hcut, List.take_append, List.take_of_length_le hle]
  · have hnone : n - w.sink.bytes.length - piece.length = 0 := by omega
    simp only [Sink.write, capped, Option.map_some, hnone]

theorem Capped.piece (hroom : w.sink.room = none) {piece : Bytes} {rest : Writer → Bool × Writer}
    {broken : Writer → Writer} (hbroken : ∀ v, (broken v).sink = v.sink.write piece)
    (h : Capped n (fun whole => whole = false) (w.put piece) rest) :
    Capped n (fun whole => whole = false) w
      fun v => if v.fits piece then rest (v.put piece) else (false, broken v) := by
  have hput := put_extends w piece
  have hfree : w.sink.fitting piece = piece := by simp [Sink.fitting, hroom]
  rw [hfree] at hput
  obtain ⟨hlast, hgrows, hfits, hfull⟩ := h
  have hlength : (w.put piece).sink.bytes.length = w.sink.bytes.length + piece.length := by
    rw [hput.bytes, List.length_append]
  have hlonger := hgrows.length_le
  have hgo : w.fits piece = true := fits_of_unlimited hroom piece
  constructor
  case unlimited =>
    rw [if_pos hgo]
    exact hlast
  case grows =>
    rw [if_pos hgo]
    refine List.IsPrefix.trans ?_ hgrows
    rw [hput.bytes]
    exact List.prefix_append _ _
  case fits =>
    intro hle
    rw [if_pos hgo] at hle ⊢
    obtain ⟨hpiece, hsame⟩ := put_capped hroom (show w.sink.bytes.length + piece.length ≤ n by omega)
    rw [if_pos hpiece, hsame]
    exact hfits hle
  case full =>
    intro hle hlt
    rw [if_pos hgo] at hlt ⊢
    by_cases hroomy : w.sink.bytes.length + piece.length ≤ n
    · obtain ⟨hpiece, hsame⟩ := put_capped (n := n) hroom hroomy
      rw [if_pos hpiece, hsame]
      exact hfull (by omega) hlt
    · obtain ⟨hpiece, hsink⟩ := put_full hle (Nat.lt_of_not_le hroomy)
      rw [← hput.bytes] at hsink
      rw [if_neg (Bool.eq_false_iff.1 hpiece)]
      refine ⟨rfl, ?_⟩
      rw [hbroken]
      exact hsink.of_prefix (by omega) hgrows

theorem put_unlimited (hroom : w.sink.room = none) (piece : Bytes) :
    (w.put piece).sink.room = none := (put_extends w piece).room hroom

theorem putAll_capped (hroom : w.sink.room = none) (pieces : List Bytes) :
    Capped n (fun whole => whole = false) w fun v => v.putAll pieces := by
  induction pieces generalizing w with
  | nil => exact .still hroom rfl rfl
  | cons piece rest ih => exact .piece hroom (fun _ => rfl) (ih (put_unlimited hroom piece))

theorem putUncovered_capped (hroom : w.sink.room = none) (pieces : List Bytes) :
    Capped n (fun whole => whole = false) w fun v => v.putUncovered pieces := by
  induction pieces generalizing w with
  | nil => exact .still hroom rfl rfl
  | cons piece rest ih => exact .piece hroom (fun _ => rfl) (ih (put_unlimited hroom piece))

def orFail (e : LogError) (step : Writer → Bool × Writer) (w : Writer) :
    Except LogError Unit × Writer :=
  match step w with
  | (true, w) => (.ok (), w)
  | (false, w) => (.error e, w)

theorem Capped.orFail {step : Writer → Bool × Writer}
    (h : Capped n (fun whole => whole = false) w step) (e : LogError) :
    Capped n Failed w (Writer.orFail e step) := by
  have hsink : ∀ v, (Writer.orFail e step v).2 = (step v).2 := by
    intro v
    rw [Writer.orFail]
    rcases step v with ⟨whole, after⟩
    cases whole <;> rfl
  have hresult : ∀ v, (Writer.orFail e step v).1 = if (step v).1 then .ok () else .error e := by
    intro v
    rw [Writer.orFail]
    rcases step v with ⟨whole, after⟩
    cases whole <;> rfl
  constructor
  case unlimited =>
    rw [hsink]
    exact h.unlimited
  case grows =>
    rw [hsink]
    exact h.grows
  case fits =>
    intro hle
    rw [hsink] at hle
    apply Prod.ext
    · rw [hresult, h.fits hle, hresult]
    · rw [hsink, h.fits hle, hsink]
  case full =>
    intro hle hlt
    rw [hsink] at hlt
    obtain ⟨hfailed, hfull⟩ := h.full hle hlt
    rw [hsink, hsink, hresult, hfailed]
    exact ⟨⟨e, rfl⟩, hfull⟩

theorem writeBlock_capped (hroom : w.sink.room = none) (type : BlockType) (parts : List Bytes) :
    Capped n Failed w fun v => v.writeBlock type parts := by
  cases hpieces : blockPieces type parts with
  | error e =>
    have hrefused : ∀ v : Writer, v.writeBlock type parts = (.error (.format e), v) := by
      intro v
      rw [writeBlock, hpieces]
    exact .idle hroom (hrefused w) (hrefused (w.capped n))
  | ok pieces =>
    have hwrite : ∀ v : Writer, v.writeBlock type parts =
        Writer.orFail (.format (.device .sinkFull)) (fun u => u.putAll pieces) v := by
      intro v
      rw [writeBlock, hpieces]
      rfl
    exact ((putAll_capped hroom pieces).orFail _).congr (hwrite _) (hwrite _)

theorem Capped.map {α β : Type} {step : Writer → Except LogError α × Writer}
    (h : Capped n Failed w step) (f : α → β) :
    Capped n Failed w fun v => ((step v).1.map f, (step v).2) := by
  refine ⟨h.unlimited, h.grows, ?_, ?_⟩
  · intro hle
    dsimp only
    rw [h.fits hle]
  · intro hle hlt
    obtain ⟨⟨e, he⟩, hsink⟩ := h.full hle hlt
    dsimp only
    rw [he]
    exact ⟨⟨e, rfl⟩, hsink⟩

theorem Capped.ended (h : Capped n failed w.abandon step) :
    Capped n failed w fun v => step v.abandon :=
  ⟨h.unlimited, h.grows, h.fits, h.full⟩

theorem addSeries_blocks {id : SeriesId} {kind : SeriesKind} {annotations : Labels}
    (hrefusal : refusal? id kind annotations = none) (indexNames : List String) (w : Writer) :
    let d := SeriesDescriptor.make (UInt32.ofNat w.series.length) id kind indexNames annotations
    w.addSeries id kind indexNames annotations =
      andThen (fun u => u.writeBlock .descriptor [Descriptor.encode (.series d)])
        (fun _ u => (.ok d.index, { u with series := u.series ++ [.declared d] })) w := by
  intro d
  rw [addSeries, hrefusal, andThen]
  dsimp only
  cases hblock : w.writeBlock .descriptor [Descriptor.encode (.series d)] with
  | mk result after => cases result <;> rfl

theorem addSeries_capped (hroom : w.sink.room = none) (id : SeriesId) (kind : SeriesKind)
    (indexNames : List String) (annotations : Labels) :
    Capped n Failed w fun v => v.addSeries id kind indexNames annotations := by
  cases hrefusal : refusal? id kind annotations with
  | some e =>
    have hrefused : ∀ v : Writer, v.addSeries id kind indexNames annotations = (.error e, v) := by
      intro v
      rw [addSeries, hrefusal]
    exact .idle hroom (hrefused w) (hrefused (w.capped n))
  | none =>
    have hwrite := addSeries_blocks hrefusal indexNames
    have hblock := writeBlock_capped (n := n) hroom .descriptor
      [Descriptor.encode (.series (.make (UInt32.ofNat w.series.length) id kind indexNames
        annotations))]
    refine (hblock.andThen fun _ _ => ?_).congr (hwrite w) (hwrite (w.capped n))
    exact .still hblock.unlimited rfl rfl

theorem declare_capped (hroom : w.sink.room = none) (id : SeriesId) (kind : SeriesKind)
    (indexNames : List String) (annotations : Labels) :
    Capped n Failed w fun v => v.declare id kind indexNames annotations := by
  by_cases hclosed : w.phase = .closed
  · have hrefused : ∀ v : Writer, v.phase = w.phase →
        v.declare id kind indexNames annotations = (.error .writerClosed, v) := by
      intro v hphase
      rw [declare, if_pos (hphase.trans hclosed)]
    exact .idle hroom (hrefused w rfl) (hrefused (w.capped n) rfl)
  · cases hindex : w.indexOf? id with
    | none =>
      have hnew : ∀ v : Writer, v.phase = w.phase → v.indexOf? id = w.indexOf? id →
          v.declare id kind indexNames annotations =
            v.addSeries id kind indexNames annotations := by
        intro v hphase hsame
        exact declare_of_new (by rwa [hphase]) (hsame.trans hindex) kind indexNames annotations
      exact (addSeries_capped hroom id kind indexNames annotations).congr (hnew w rfl rfl)
        (hnew (w.capped n) rfl rfl)
    | some index =>
      have hknown : ∀ v : Writer, v.phase = w.phase → v.series = w.series →
          v.declare id kind indexNames annotations =
            ((w.declare id kind indexNames annotations).1, v) := by
        intro v hphase hseries
        have hsame : v.indexOf? id = some index := by rw [indexOf?, hseries, ← indexOf?, hindex]
        rw [declare, declare, if_neg (by rwa [hphase]), if_neg hclosed, hsame, hindex, hseries]
        dsimp only
        cases w.series[index]? with
        | none => rfl
        | some first =>
          dsimp only
          cases redeclaration? first.descriptor kind indexNames <;> rfl
      exact .idle hroom (hknown w rfl rfl) (hknown (w.capped n) rfl rfl)

theorem appendTo_blocks (w : Writer) (index : UInt32) (timestamp : Int64)
    (indexValues : List Int64) (payload : Bytes) :
    (∃ e, ∀ v : Writer, v.phase = w.phase → v.series = w.series →
        v.maxBlockSize = w.maxBlockSize →
        v.appendTo index timestamp indexValues payload = (.error e, v)) ∨
      ∃ (s : SeriesState) (parts : List Bytes), ∀ v : Writer, v.phase = w.phase →
        v.series = w.series → v.maxBlockSize = w.maxBlockSize → v.position = w.position →
        v.appendTo index timestamp indexValues payload =
          andThen (fun u => u.writeBlock .data parts) (fun _ u =>
            (.ok ⟨index, s.nextPosition, w.position⟩,
              { u with
                series := u.series.set index.toNat (s.record ⟨timestamp, UInt64.ofNat w.position⟩)
                phase := .writing })) v := by
  by_cases hclosed : w.phase = .closed
  · refine .inl ⟨.writerClosed, ?_⟩
    intro v hphase _ _
    rw [appendTo, if_pos (hphase.trans hclosed)]
  cases hs : w.series[index.toNat]? with
  | none =>
    refine .inl ⟨.unknownSeries (.numbered index), ?_⟩
    intro v hphase hseries _
    rw [appendTo, if_neg (by rwa [hphase]), hseries, hs]
  | some s =>
    by_cases harity : indexValues.length = s.descriptor.indexNames.length
    · cases hparts : dataParts ⟨index, timestamp, UInt64.ofNat s.nextPosition, indexValues⟩ payload
          w.maxBlockSize with
      | error e =>
        refine .inl ⟨.format e, ?_⟩
        intro v hphase hseries hlimit
        rw [appendTo, if_neg (by rwa [hphase]), hseries, hs]
        dsimp only
        rw [if_neg (not_not_intro harity), hlimit, hparts]
      | ok parts =>
        refine .inr ⟨s, parts, ?_⟩
        intro v hphase hseries hlimit hposition
        rw [appendTo, if_neg (by rwa [hphase]), hseries, hs]
        dsimp only
        rw [if_neg (not_not_intro harity), hlimit, hparts, hposition, andThen]
        dsimp only
        cases v.writeBlock .data parts with
        | mk result after => cases result <;> rfl
    · refine .inl ⟨.indexArity s.descriptor.id s.descriptor.indexNames.length
        indexValues.length, ?_⟩
      intro v hphase hseries _
      rw [appendTo, if_neg (by rwa [hphase]), hseries, hs]
      dsimp only
      rw [if_pos harity]

theorem appendTo_capped (hroom : w.sink.room = none) (index : UInt32) (timestamp : Int64)
    (indexValues : List Int64) (payload : Bytes) :
    Capped n Failed w fun v => v.appendTo index timestamp indexValues payload := by
  rcases appendTo_blocks w index timestamp indexValues payload with
    ⟨e, hrefused⟩ | ⟨s, parts, hwrite⟩
  · exact .idle hroom (hrefused w rfl rfl rfl) (hrefused (w.capped n) rfl rfl rfl)
  · have hblock := writeBlock_capped (n := n) hroom .data parts
    refine (hblock.andThen fun _ _ => ?_).congr (hwrite w rfl rfl rfl rfl)
      (hwrite (w.capped n) rfl rfl rfl rfl)
    exact .still hblock.unlimited rfl rfl

theorem append_capped (hroom : w.sink.room = none) (id : SeriesId) (timestamp : Int64)
    (indexValues : List Int64) (payload : Bytes) :
    Capped n Failed w fun v => v.append id timestamp indexValues payload := by
  cases hindex : w.indexOf? id with
  | some index =>
    have hknown : ∀ v : Writer, v.indexOf? id = w.indexOf? id →
        v.append id timestamp indexValues payload =
          v.appendTo (UInt32.ofNat index) timestamp indexValues payload := by
      intro v hsame
      rw [append, hsame, hindex]
    exact (appendTo_capped hroom _ timestamp indexValues payload).congr (hknown w rfl)
      (hknown (w.capped n) rfl)
  | none =>
    have hnew : ∀ v : Writer, v.indexOf? id = w.indexOf? id →
        v.append id timestamp indexValues payload =
          andThen (fun u => u.declare id .untyped [] .empty)
            (fun index u => u.appendTo index timestamp indexValues payload) v := by
      intro v hsame
      rw [append, hsame, hindex, andThen]
      dsimp only
      cases v.declare id .untyped [] .empty with
      | mk result after => cases result <;> rfl
    have hdeclare := declare_capped (n := n) hroom id .untyped [] .empty
    refine (hdeclare.andThen fun _ _ => ?_).congr (hnew w rfl) (hnew (w.capped n) rfl)
    exact appendTo_capped hdeclare.unlimited _ timestamp indexValues payload

theorem appendSamples_capped (hroom : w.sink.room = none) (index : UInt32) (timestamp : Int64)
    (indexValues : List Int64) (values : Pod.Values) :
    Capped n Failed w fun v => v.appendSamples index timestamp indexValues values := by
  cases hfound : w.descriptor? index with
  | none =>
    have hrefused : ∀ v : Writer, v.descriptor? index = w.descriptor? index →
        v.appendSamples index timestamp indexValues values =
          (.error (.unknownSeries (.numbered index)), v) := by
      intro v hsame
      rw [appendSamples, hsame, hfound]
    exact .idle hroom (hrefused w rfl) (hrefused (w.capped n) rfl)
  | some d =>
    cases hrefusal : sampleRefusal? d values with
    | some e =>
      have hrefused : ∀ v : Writer, v.descriptor? index = w.descriptor? index →
          v.appendSamples index timestamp indexValues values = (.error e, v) := by
        intro v hsame
        rw [appendSamples, hsame, hfound]
        dsimp only
        rw [hrefusal]
      exact .idle hroom (hrefused w rfl) (hrefused (w.capped n) rfl)
    | none =>
      have hwhole : ∀ v : Writer, v.descriptor? index = w.descriptor? index →
          v.appendSamples index timestamp indexValues values =
            v.appendTo index timestamp indexValues values.encode := by
        intro v hsame
        rw [appendSamples, hsame, hfound]
        dsimp only
        rw [hrefusal]
      exact (appendTo_capped hroom index timestamp indexValues _).congr (hwhole w rfl)
        (hwhole (w.capped n) rfl)

theorem writeIndex_capped (hroom : w.sink.room = none) :
    Capped n Failed w Writer.writeIndex := by
  by_cases hcount : w.blockCount = 0
  · have hnothing : ∀ v : Writer, v.blockCount = w.blockCount → v.writeIndex = (.ok 0, v) := by
      intro v hsame
      rw [writeIndex, if_pos (hsame.trans hcount)]
    exact .idle hroom (hnothing w rfl) (hnothing (w.capped n) rfl)
  · have hwrite : ∀ v : Writer, v.series = w.series → v.position = w.position →
        v.writeIndex = andThen
          (fun u => u.writeBlock .descriptor
            [Descriptor.encode (.index ⟨w.series.map SeriesState.toIndex⟩)])
          (fun _ u => (.ok w.position, u)) v := by
      intro v hseries hposition
      rw [writeIndex, if_neg (by rwa [blockCount, hseries]), andThen, hseries, hposition]
      cases v.writeBlock .descriptor
          [Descriptor.encode (.index ⟨w.series.map SeriesState.toIndex⟩)] with
      | mk result after => cases result <;> rfl
    have hblock := writeBlock_capped (n := n) hroom .descriptor
      [Descriptor.encode (.index ⟨w.series.map SeriesState.toIndex⟩)]
    refine (hblock.andThen fun _ _ => ?_).congr (hwrite w rfl rfl) (hwrite (w.capped n) rfl rfl)
    exact .still hblock.unlimited rfl rfl

def writeChecksum (indexOffset : Nat) (checksum : Bytes) :
    Writer → Except LogError CloseSummary × Writer :=
  andThen (orFail (.device .sinkFull) fun v => v.putUncovered [checksum, closingMagic])
    fun _ v => (.ok ⟨indexOffset, checksum, v.position, v.seriesCount, v.blockCount⟩, v)

def writeTrailer (indexOffset : Nat) : Writer → Except LogError CloseSummary × Writer :=
  andThen
    (orFail (.device .sinkFull) fun v =>
      v.putAll [trailerHeader.encode, Bytes.littleEndian 8 indexOffset])
    fun _ v => writeChecksum indexOffset (sha1 v.sink.bytes) v

theorem writeChecksum_capped (hroom : w.sink.room = none) (indexOffset : Nat) (checksum : Bytes) :
    Capped n Failed w (writeChecksum indexOffset checksum) := by
  have hend := (putUncovered_capped (n := n) hroom [checksum, closingMagic]).orFail
    (.device .sinkFull)
  exact hend.andThen fun _ _ => .still hend.unlimited rfl rfl

theorem writeTrailer_capped (hroom : w.sink.room = none) (indexOffset : Nat) :
    Capped n Failed w (writeTrailer indexOffset) := by
  have hhead := (putAll_capped (n := n) hroom
    [trailerHeader.encode, Bytes.littleEndian 8 indexOffset]).orFail (.device .sinkFull)
  refine hhead.andThen fun _ _ => ?_
  -- the checksum is of the bytes on the sink, which a limit leaves as they are
  exact (writeChecksum_capped hhead.unlimited indexOffset _).congr rfl rfl

theorem close_open (hopen : w.phase ≠ .closed) :
    w.close = andThen Writer.writeIndex writeTrailer w.abandon := by
  rw [close, if_neg hopen, andThen, ← abandon]
  cases w.abandon.writeIndex with
  | mk result indexed =>
    cases result with
    | error e => rfl
    | ok indexOffset =>
      dsimp only
      rw [writeTrailer, andThen, orFail]
      cases indexed.putAll [trailerHeader.encode, Bytes.littleEndian 8 indexOffset] with
      | mk whole headed =>
        cases whole with
        | false => rfl
        | true =>
          dsimp only
          rw [writeChecksum, andThen, orFail]
          cases headed.putUncovered [sha1 headed.sink.bytes, closingMagic] with
          | mk whole ended => cases whole <;> rfl

theorem close_capped (hroom : w.sink.room = none) : Capped n Failed w Writer.close := by
  by_cases hclosed : w.phase = .closed
  · have hrefused : ∀ v : Writer, v.phase = w.phase → v.close = (.error .writerClosed, v) := by
      intro v hphase
      rw [close, if_pos (hphase.trans hclosed)]
    exact .idle hroom (hrefused w rfl) (hrefused (w.capped n) rfl)
  · have hindex : Capped n Failed w.abandon Writer.writeIndex := writeIndex_capped hroom
    have hseal := hindex.andThen fun indexOffset _ =>
      writeTrailer_capped hindex.unlimited indexOffset
    exact hseal.ended.congr (close_open hclosed) (close_open hclosed)

theorem answer_capped (hroom : w.sink.room = none) (call : Call) :
    Capped n Failed w fun v => v.answer call := by
  cases call with
  | declare id kind indexNames annotations =>
    exact (declare_capped hroom id kind indexNames annotations).map Answer.series
  | append id timestamp indexValues payload =>
    exact (append_capped hroom id timestamp indexValues payload).map Answer.located
  | appendTo index timestamp indexValues payload =>
    exact (appendTo_capped hroom index timestamp indexValues payload).map Answer.located
  | appendSamples index timestamp indexValues values =>
    exact (appendSamples_capped hroom index timestamp indexValues values).map Answer.located
  | flush => exact .idle hroom rfl rfl
  | close => exact (close_capped hroom).map Answer.sealed

end Writer

end SeriesLog
