import SeriesLog.Proofs.Scan.Blocks
import SeriesLog.Scan.Scanner

/-! # The calls of a scan

One after another the calls of a scanner give what the scan of the whole stream yields. Then they
give nothing, and the scanner stands where the scan ends. -/
namespace SeriesLog

def ScanEnding.error? : ScanEnding → Option FormatError
  | failed e => some e
  | _ => none

/-- What calls give before they give nothing. -/
def Scan.results (scan : Scan) : List (Except FormatError ScanItem) :=
  scan.items.map .ok ++ scan.ending.error?.toList.map .error

namespace Scanner

variable {c : ScanConfig} {r : Scanner}

/-- The scan that is still to come. -/
def pending (c : ScanConfig) : Scanner → Scan
  | fresh s => s.scan c
  | among s offset => Scan.blocks c offset s
  | finished offset torn => ⟨[], if torn then .torn else .boundary, offset⟩

/-- A call takes the first result of a scan and leaves the others, where it ends, and whether it is
torn there. -/
structure Takes (scan : Scan) (result : Option (Except FormatError ScanItem)) (rest : Scan) :
    Prop where
  result : result = scan.results.head?
  results : rest.results = scan.results.tail
  offset : rest.offset = scan.offset
  torn : rest.ending = .torn ↔ scan.ending = .torn

theorem advance_takes (c : ScanConfig) (s : Source) (offset : Nat) :
    Takes (Scan.blocks c offset s) (advance c s offset).1 ((advance c s offset).2.pending c) := by
  unfold advance
  cases hstep : Scan.step c offset s with
  | block size content rest =>
    rw [Scan.blocks_of_block hstep, Nat.add_assoc]
    exact ⟨rfl, rfl, rfl, Iff.rfl⟩
  | trailer trailer =>
    rw [Scan.blocks_of_trailer hstep]
    exact ⟨rfl, rfl, rfl, by simp [pending]⟩
  | stop ending =>
    rw [Scan.blocks_of_stop hstep]
    cases ending with
    | torn => exact ⟨rfl, rfl, rfl, Iff.rfl⟩
    | _ => exact ⟨rfl, rfl, rfl, by simp [pending]⟩

theorem next_takes (c : ScanConfig) (r : Scanner) :
    Takes (r.pending c) (r.next c).1 ((r.next c).2.pending c) := by
  cases r with
  | fresh s =>
    simp only [next, pending, Source.scan]
    cases Scan.readMagic s .magic with
    | ok rest => exact advance_takes c rest openingMagic.length
    | error e => exact ⟨rfl, rfl, rfl, by simp⟩
  | among s offset => exact advance_takes c s offset
  | finished offset torn => cases torn <;> exact ⟨rfl, rfl, rfl, Iff.rfl⟩

theorem results_after (c : ScanConfig) (r : Scanner) (calls : Nat) :
    ((r.after c calls).pending c).results = (r.pending c).results.drop calls ∧
      ((r.after c calls).pending c).offset = (r.pending c).offset ∧
      (((r.after c calls).pending c).ending = .torn ↔ (r.pending c).ending = .torn) := by
  induction calls with
  | zero => exact ⟨rfl, rfl, Iff.rfl⟩
  | succ calls ih =>
    have hstep := next_takes c (r.after c calls)
    refine ⟨?_, hstep.offset.trans ih.2.1, hstep.torn.trans ih.2.2⟩
    rw [after, hstep.results, ih.1, List.tail_drop]

theorem call_eq (c : ScanConfig) (s : Source) (calls : Nat) :
    (fresh s).call c calls = (s.scan c).results[calls]? := by
  rw [call, (next_takes c _).result, (results_after c (fresh s) calls).1, List.head?_drop]
  rfl

theorem finished_of_next_eq_none (h : (r.next c).1 = none) :
    ∃ offset torn, (r.next c).2 = finished offset torn := by
  have hadvance : ∀ s offset, (advance c s offset).1 = none →
      ∃ stop torn, (advance c s offset).2 = finished stop torn := by
    intro s offset
    unfold advance
    split
    · nofun
    · nofun
    · nofun
    · exact fun _ => ⟨_, _, rfl⟩
    · exact fun _ => ⟨_, _, rfl⟩
  cases r with
  | fresh s =>
    simp only [next] at h ⊢
    cases hmagic : Scan.readMagic s .magic with
    | error e => simp only [hmagic, reduceCtorEq] at h
    | ok rest =>
      rw [hmagic] at h
      exact hadvance rest _ h
  | among s offset => exact hadvance s offset h
  | finished offset torn => exact ⟨offset, torn, rfl⟩

theorem settled_of_call_eq_none {s : Source} {calls : Nat} (h : (fresh s).call c calls = none) :
    ((fresh s).after c (calls + 1)).offset = (s.scan c).offset ∧
      (((fresh s).after c (calls + 1)).isTorn = true ↔ (s.scan c).ending = .torn) := by
  obtain ⟨_, hoffset, htorn⟩ := results_after c (fresh s) (calls + 1)
  obtain ⟨offset, torn, hfinished⟩ := finished_of_next_eq_none h
  rw [← after] at hfinished
  rw [hfinished] at hoffset htorn ⊢
  refine ⟨hoffset, Iff.trans ?_ htorn⟩
  cases torn <;> simp [isTorn, pending]

end Scanner

end SeriesLog
