import SeriesLog.Proofs.Scan.Bare
import SeriesLog.Proofs.Scan.Scanner

/-! # Blocks that lie one after another

A scanner counts its offset from the sizes in the headers, while it takes the bytes of a block in
several reads. The two agree: every block begins where the last one ended, none reaches behind the
end of the stream, and a scan that is not torn has taken the stream to its end. -/
namespace SeriesLog

namespace Scan

variable {c : ScanConfig} {offset : Nat} {s : Source}

theorem step_stop {ending : ScanEnding} (hfault : s.fault = none)
    (h : step c offset s = .stop ending) :
    (ending = .boundary ∧ s.bytes = []) ∨ (ending = .torn ∧ s.bytes ≠ []) ∨
      ∃ e, ending = .failed e := by
  cases hheader : s.readHeader? with
  | error e =>
    have hbytes : s.bytes ≠ [] := by
      intro hnil
      rw [Source.readHeader?_eq_none_iff.2 ⟨hnil, hfault⟩] at hheader
      cases hheader
    rw [step, hheader] at h
    rcases Step.ofError_eq_stop h with rfl | hfailed
    · exact .inr (.inl ⟨rfl, hbytes⟩)
    · exact .inr (.inr hfailed)
  | ok found =>
    cases found with
    | none =>
      rw [step, hheader] at h
      cases h
      exact .inl ⟨rfl, (Source.readHeader?_eq_none_iff.1 hheader).1⟩
    | some found =>
      obtain ⟨header, rest⟩ := found
      have hbytes : s.bytes ≠ [] := by
        rw [(Source.readHeader?_ok hheader).1]
        exact List.cons_ne_nil _ _
      have hstop : ending = .torn ∨ ∃ e, ending = .failed e := by
        rw [step_of_header hheader] at h
        split at h
        · exact Step.ofRead_eq_stop h
        · exact Step.ofRead_eq_stop h
        · exact Step.ofRead_eq_stop h
        · exact Step.ofTrailer_eq_stop h
      rcases hstop with rfl | hfailed
      · exact .inr (.inl ⟨rfl, hbytes⟩)
      · exact .inr (.inr hfailed)

theorem length_of_step_trailer {t : Trailer} (h : step c offset s = .trailer t) :
    trailerSize ≤ s.bytes.length := by
  obtain ⟨header, rest, _, hchecksum, hbytes⟩ := step_eq_trailer h
  have hsizes : trailerSize = headerSize + (8 + checksumSize + closingMagic.length) := rfl
  rw [hbytes, List.length_append, Header.length_encode, List.length_append, List.length_append,
    List.length_append, Bytes.length_littleEndian, hchecksum]
  omega

end Scan

namespace Scanner

variable {c : ScanConfig} {bytes : Bytes} {place : Nat} {r : Scanner}
  {result : Option (Except FormatError ScanItem)}

/-- A scanner of a stream: it has read a part of it that begins with the magic and the rest is still
in its source, or it has not begun, or it has ended. -/
inductive Stands (bytes : Bytes) : Scanner → Prop where
  | fresh : Stands bytes (.fresh (.ofBytes bytes))
  | among {before rest : Bytes} : openingMagic <+: before → bytes = before ++ rest →
      Stands bytes (.among (.ofBytes rest) before.length)
  | finished {offset : Nat} {torn : Bool} : offset ≤ bytes.length →
      Stands bytes (.finished offset torn)

/-- What a call comes to at a place of the stream where a block has to begin. -/
inductive Outcome (bytes : Bytes) (place : Nat) :
    Option (Except FormatError ScanItem) → Scanner → Prop where
  | block {before rest : Bytes} {b : Block} {content : BlockContent} : openingMagic <+: before →
      bytes = before ++ (b.encode ++ rest) → before.length = place →
      Outcome bytes place (some (.ok (.block place b.body.length content)))
        (.among (.ofBytes rest) (place + (headerSize + b.body.length)))
  | trailer {t : Trailer} : place + trailerSize ≤ bytes.length →
      Outcome bytes place (some (.ok (.trailer place t))) (.finished (place + trailerSize) false)
  | failed {e : FormatError} {offset : Nat} : offset ≤ bytes.length →
      Outcome bytes place (some (.error e)) (.finished offset false)
  | ended : place = bytes.length → Outcome bytes place none (.finished place false)
  | torn : place < bytes.length → Outcome bytes place none (.finished place true)

def boundary : Scanner → Nat
  | fresh _ => openingMagic.length
  | among _ offset => offset
  | finished offset _ => offset

theorem advance_outcome (c : ScanConfig) {before rest : Bytes} (hmagic : openingMagic <+: before) :
    Outcome (before ++ rest) before.length (advance c (.ofBytes rest) before.length).1
      (advance c (.ofBytes rest) before.length).2 := by
  unfold advance
  cases hstep : Scan.step c before.length (.ofBytes rest) with
  | block size content left =>
    obtain ⟨b, rfl, _, hbytes, _⟩ := Scan.data_of_step hstep
    have hfault := (Scan.step_block hstep).2
    obtain ⟨after, fault⟩ := left
    cases hfault
    exact .block hmagic (congrArg (before ++ ·) hbytes) rfl
  | trailer t =>
    have hlength := Scan.length_of_step_trailer hstep
    refine .trailer ?_
    rw [List.length_append]
    exact Nat.add_le_add_left hlength _
  | stop ending =>
    rcases Scan.step_stop rfl hstep with ⟨rfl, hnil⟩ | ⟨rfl, hleft⟩ | ⟨e, rfl⟩
    · refine .ended ?_
      rw [show rest = [] from hnil, List.append_nil]
    · refine .torn ?_
      have hpos := List.length_pos_iff.2 hleft
      rw [List.length_append]
      exact Nat.lt_add_of_pos_right hpos
    · refine .failed ?_
      rw [List.length_append]
      exact Nat.le_add_right _ _

theorem next_outcome (h : Stands bytes r) :
    (∃ offset torn, r = finished offset torn) ∨
      Outcome bytes r.boundary (r.next c).1 (r.next c).2 := by
  cases h with
  | fresh =>
    right
    simp only [next]
    cases hmagic : Scan.readMagic (.ofBytes bytes) .magic with
    | error e => exact .failed (Nat.zero_le _)
    | ok rest =>
      obtain ⟨left, fault⟩ := rest
      obtain ⟨hbytes, hfault⟩ := Scan.readMagic_ok hmagic
      cases hfault
      rw [show bytes = openingMagic ++ left from hbytes]
      exact advance_outcome c List.prefix_rfl
  | among hmagic hbytes =>
    subst hbytes
    exact .inr (advance_outcome c hmagic)
  | finished hle => exact .inl ⟨_, _, rfl⟩

theorem Outcome.stands (h : Outcome bytes place result r) : Stands bytes r := by
  cases h with
  | @block before rest b content hmagic hbytes hbefore =>
    subst hbefore
    have hlength : before.length + (headerSize + b.body.length) = (before ++ b.encode).length := by
      rw [List.length_append, Block.length_encode, Block.size]
    rw [hlength]
    refine .among (hmagic.trans (List.prefix_append before b.encode)) ?_
    rw [hbytes, List.append_assoc]
  | trailer hle => exact .finished hle
  | failed hle => exact .finished hle
  | ended hend => exact .finished (Nat.le_of_eq hend)
  | torn hlt => exact .finished (Nat.le_of_lt hlt)

theorem stands_next (h : Stands bytes r) : Stands bytes (r.next c).2 := by
  rcases next_outcome (c := c) h with ⟨offset, torn, rfl⟩ | houtcome
  · exact h
  · exact houtcome.stands

theorem stands_after (h : Stands bytes r) (calls : Nat) : Stands bytes (r.after c calls) := by
  induction calls with
  | zero => exact h
  | succ calls ih => exact stands_next ih

theorem Stands.offset_le (h : Stands bytes r) : r.offset ≤ bytes.length := by
  cases h with
  | fresh => exact Nat.zero_le _
  | among _ hbytes =>
    rw [hbytes, List.length_append]
    exact Nat.le_add_right _ _
  | finished hle => exact hle

theorem after_finished {offset : Nat} {torn : Bool} {calls : Nat}
    (h : r.after c calls = finished offset torn) (more : Nat) :
    r.after c (calls + more) = finished offset torn := by
  induction more with
  | zero => exact h
  | succ more ih => rw [← Nat.add_assoc, after, ih, next]

theorem call_finished {offset : Nat} {torn : Bool} {calls later : Nat}
    (h : r.after c calls = finished offset torn) (hlater : calls ≤ later) :
    r.call c later = none := by
  obtain ⟨more, rfl⟩ := Nat.exists_eq_add_of_le hlater
  rw [call, after_finished h more, next]

theorem outcome_of_call {calls : Nat} {given : Except FormatError ScanItem} (hr : Stands bytes r)
    (h : r.call c calls = some given) :
    Outcome bytes (r.after c calls).boundary (some given) (r.after c (calls + 1)) := by
  rcases next_outcome (c := c) (stands_after (c := c) hr calls) with
    ⟨offset, torn, hfinished⟩ | houtcome
  · rw [call_finished hfinished (Nat.le_refl calls)] at h
    cases h
  · rw [← h]
    exact houtcome

theorem Outcome.offset_eq {item : ScanItem} (h : Outcome bytes place (some (.ok item)) r) :
    item.offset = place := by
  cases h <;> rfl

theorem Outcome.block_eq {start size : Nat} {content : BlockContent}
    (h : Outcome bytes place (some (.ok (.block start size content))) r) :
    ∃ (rest : Bytes) (b : Block), b.body.length = size ∧ bytes.drop start = b.encode ++ rest ∧
      r = .among (.ofBytes rest) (start + (headerSize + size)) := by
  cases h with
  | @block before rest b content hmagic hbytes hbefore =>
    refine ⟨rest, b, rfl, ?_, rfl⟩
    rw [hbytes, List.drop_left' hbefore]

theorem Outcome.trailer_eq {start : Nat} {t : Trailer}
    (h : Outcome bytes place (some (.ok (.trailer start t))) r) :
    r = .finished (start + trailerSize) false := by
  cases h
  rfl

theorem Outcome.failed_eq {e : FormatError} (h : Outcome bytes place (some (.error e)) r) :
    ∃ offset, r = .finished offset false := by
  cases h
  exact ⟨_, rfl⟩

theorem Outcome.isTorn_iff (h : Outcome bytes place none r) :
    r.isTorn = false ↔ r.offset = bytes.length := by
  cases h with
  | ended hend => exact ⟨fun _ => hend, fun _ => rfl⟩
  | torn hlt =>
    constructor
    · nofun
    · intro hend
      exact absurd hend (Nat.ne_of_lt hlt)

/-- What is promised of the calls of a scanner: where the items lie, where the scanner stands behind
each of them, and where it has come to in the end. -/
structure Tiles (c : ScanConfig) (bytes : Bytes) (r : Scanner) : Prop where
  items : ∀ calls, r.call c calls = ((Source.ofBytes bytes).scan c).results[calls]?
  first : ∀ item, r.call c 0 = some (.ok item) → item.offset = openingMagic.length
  next : ∀ calls place size content item,
    r.call c calls = some (.ok (.block place size content)) →
    r.call c (calls + 1) = some (.ok item) → item.offset = (r.after c (calls + 1)).offset
  block : ∀ calls place size content, r.call c calls = some (.ok (.block place size content)) →
    (r.after c (calls + 1)).offset = place + headerSize + size ∧
      (r.after c (calls + 1)).offset ≤ bytes.length
  stands : ∀ calls place size content, r.call c calls = some (.ok (.block place size content)) →
    ∃ b : Block, b.body.length = size ∧ b.encode <+: bytes.drop place
  trailer : ∀ calls place t, r.call c calls = some (.ok (.trailer place t)) →
    (r.after c (calls + 1)).offset = place + trailerSize ∧
      (r.after c (calls + 1)).offset ≤ bytes.length ∧
      ∀ later, calls < later → r.call c later = none
  error : ∀ calls e, r.call c calls = some (.error e) →
    ∀ later, calls < later → r.call c later = none
  ends : ∃ calls, r.call c calls = none
  settled : ∀ calls, r.call c calls = none →
    (r.after c (calls + 1)).offset = ((Source.ofBytes bytes).scan c).offset ∧
      ((r.after c (calls + 1)).isTorn = true ↔ ((Source.ofBytes bytes).scan c).ending = .torn)
  boundary : ∀ calls, r.call c calls = none →
    (∀ earlier < calls, ∃ place size content,
      r.call c earlier = some (.ok (.block place size content))) →
    ((r.after c (calls + 1)).isTorn = false ↔ (r.after c (calls + 1)).offset = bytes.length)
  counted : ∀ calls, (r.after c calls).offset ≤ bytes.length
  fits : bytes.length < 2 ^ 64 → ∀ calls, (r.after c calls).offset < 2 ^ 64
  sizes : ∀ header : Header, header.totalSize < 2 ^ 64

/-- The blocks that a scanner gives lie one after another from the magic on, and its count of the
bytes is exact. -/
theorem tiles (c : ScanConfig) (bytes : Bytes) : Tiles c bytes (fresh (.ofBytes bytes)) := by
  have hfresh : Stands bytes (fresh (.ofBytes bytes)) := .fresh
  have hcounted := fun calls => (stands_after (c := c) hfresh calls).offset_le
  have houtcome : ∀ {calls : Nat} {given : Except FormatError ScanItem},
      (fresh (.ofBytes bytes)).call c calls = some given →
        Outcome bytes ((fresh (.ofBytes bytes)).after c calls).boundary (some given)
          ((fresh (.ofBytes bytes)).after c (calls + 1)) :=
    outcome_of_call hfresh
  constructor
  case items => exact call_eq c (.ofBytes bytes)
  case first =>
    intro item hitem
    exact (houtcome hitem).offset_eq
  case next =>
    intro calls place size content item hblock hitem
    obtain ⟨rest, b, _, _, hafter⟩ := (houtcome hblock).block_eq
    have hoffset := (houtcome hitem).offset_eq
    rw [hafter] at hoffset ⊢
    exact hoffset
  case block =>
    intro calls place size content hblock
    obtain ⟨rest, b, _, _, hafter⟩ := (houtcome hblock).block_eq
    refine ⟨?_, hcounted _⟩
    rw [hafter, Nat.add_assoc]
    rfl
  case stands =>
    intro calls place size content hblock
    obtain ⟨rest, b, hsize, hbytes, _⟩ := (houtcome hblock).block_eq
    exact ⟨b, hsize, rest, hbytes.symm⟩
  case trailer =>
    intro calls place t htrailer
    have hafter := (houtcome htrailer).trailer_eq
    refine ⟨?_, hcounted _, fun later hlater => call_finished hafter hlater⟩
    rw [hafter]
    rfl
  case error =>
    intro calls e herror later hlater
    obtain ⟨offset, hafter⟩ := (houtcome herror).failed_eq
    exact call_finished hafter hlater
  case ends =>
    refine ⟨((Source.ofBytes bytes).scan c).results.length, ?_⟩
    rw [call_eq]
    exact List.getElem?_eq_none (Nat.le_refl _)
  case settled => exact fun _ => settled_of_call_eq_none
  case boundary =>
    intro calls hnone hblocks
    rcases next_outcome (c := c) (stands_after (c := c) hfresh calls) with
      ⟨offset, torn, hfinished⟩ | hended
    · -- behind blocks alone a scanner is at a boundary
      cases calls with
      | zero => cases hfinished
      | succ calls =>
        obtain ⟨place, size, content, hblock⟩ := hblocks calls (Nat.lt_succ_self calls)
        obtain ⟨rest, b, _, _, hafter⟩ := (houtcome hblock).block_eq
        rw [hafter] at hfinished
        cases hfinished
    · rw [← call, hnone] at hended
      exact hended.isTorn_iff
  case counted => exact hcounted
  case fits =>
    intro hlength calls
    exact Nat.lt_of_le_of_lt (hcounted calls) hlength
  case sizes =>
    intro header
    have hsize := header.size_le
    simp only [maxBodySize] at hsize
    simp only [Header.totalSize, headerSize]
    omega

/-- A reserved block is passed over, and the two bytes behind it are no header. -/
example :
    let c : ScanConfig := ⟨false, 0, true, false⟩
    let r := fresh (.ofBytes (openingMagic ++ [7, 1, 0, 0, 0, 0, 0, 0, 9] ++ [0, 0]))
    r.call c 0 = some (.ok (.block 4 1 (.reserved 7))) ∧ r.call c 1 = none ∧
      (r.after c 2).offset = 13 ∧ (r.after c 2).isTorn = true := by
  decide +kernel

end Scanner

end SeriesLog
