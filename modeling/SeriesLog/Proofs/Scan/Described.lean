import SeriesLog.Proofs.Descriptor.Decoded
import SeriesLog.Proofs.Scan.Blocks

/-! # Descriptors of a scan

A descriptor that a scan yields was decoded from a body, so it passed the checks of a reader. -/
namespace SeriesLog

namespace Scan

variable {c : ScanConfig} {offset size : Nat} {s rest : Source} {d : Descriptor}

theorem decode_of_readDescriptor (h : readDescriptor c size s = .ok (.descriptor d, rest)) :
    ∃ body, Descriptor.decode body = .ok d := by
  unfold readDescriptor at h
  split at h
  · cases h
  next body after _ =>
  split at h
  · next hdecode =>
    cases h
    exact ⟨body, hdecode⟩
  · split at h
    · cases h
    · cases h

theorem readData_ne_descriptor : readData c offset size s ≠ .ok (.descriptor d, rest) := by
  intro h
  unfold readData at h
  split at h
  · cases h
  split at h
  · cases h
  dsimp only at h
  split at h
  · cases h
  split at h
  · cases h
  split at h
  · cases h
  obtain ⟨found, _, hfound⟩ := exists_of_map_eq_ok h
  cases hfound

theorem decode_of_step (h : step c offset s = .block size (.descriptor d) rest) :
    ∃ body, Descriptor.decode body = .ok d := by
  obtain ⟨header, s₁, _, _, ⟨_, hbody⟩ | ⟨_, hbody⟩ | ⟨code, above, _, hbody⟩⟩ := step_eq_block h
  · exact decode_of_readDescriptor hbody
  · exact (readData_ne_descriptor hbody).elim
  · unfold readReserved at hbody
    split at hbody
    · cases hbody
    · obtain ⟨_, _, hfound⟩ := exists_of_map_eq_ok hbody
      cases hfound

theorem decode_of_mem_blocks {place : Nat}
    (h : .block place size (.descriptor d) ∈ (blocks c offset s).items) :
    ∃ body, Descriptor.decode body = .ok d := by
  induction offset, s using blocks.induct c with
  | case1 offset s size content rest hstep _ ih =>
    rw [blocks_of_block hstep] at h
    rcases List.mem_cons.1 h with hfirst | hrest
    · cases hfirst
      exact decode_of_step hstep
    · exact ih hrest
  | case2 offset s trailer hstep =>
    rw [blocks_of_trailer hstep] at h
    cases List.mem_singleton.1 h
  | case3 offset s ending hstep =>
    rw [blocks_of_stop hstep] at h
    cases h

theorem decode_of_mem_scan {place : Nat}
    (h : .block place size (.descriptor d) ∈ (s.scan c).items) :
    ∃ body, Descriptor.decode body = .ok d := by
  unfold Source.scan at h
  split at h
  · cases h
  · exact decode_of_mem_blocks h

end Scan

namespace ScanItem

def Described : ScanItem → Prop
  | block _ _ (.descriptor d) => d.Valid
  | _ => True

theorem described_of_mem_scan {c : ScanConfig} {s : Source} {item : ScanItem}
    (h : item ∈ (s.scan c).items) : item.Described := by
  unfold Described
  split
  · obtain ⟨body, hdecode⟩ := Scan.decode_of_mem_scan h
    exact Descriptor.valid_of_decode hdecode
  · trivial

end ScanItem

end SeriesLog
