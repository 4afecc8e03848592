import SeriesLog.Proofs.Descriptor.Decoded
import SeriesLog.Proofs.Repair.Runs
import SeriesLog.Proofs.Scan.Bare
import SeriesLog.Proofs.Scan.Blocks

/-! # Sources that fail

A source that fails is read like one that ends at the same place, up to the first read that lacks
bytes. Where that read finds the end of a stream, or a torn one, the source that fails reports its
fault: a scan of it never ends at a boundary or as torn, and a repair succeeds only if it has seen
the trailer. Only a fault that itself says that the bytes ended too early is taken for the end, and
only by the reads that are exact. -/
namespace SeriesLog

/-- Whether the bytes were missing to an exact read. -/
def Truncation.exact : Truncation → Bool
  | magic | fileMagic | header | dataBlock | trailer => true
  | _ => false

/-- The error at a source that fails, where there is this one at a source that ends. -/
def FormatError.atFault (fault : DeviceFault) : FormatError → FormatError
  | .truncated place =>
    if fault.kind = .unexpectedEnd ∧ place.exact then .truncated place else .device fault
  | e => e

def ScanEnding.lacksBytes : ScanEnding → Bool
  | .boundary | .torn | .failed (.truncated _) => true
  | .sealed | .failed _ => false

/-- How a scan ends at a source that fails, where it ends so at a source that ends. The read that
lacks bytes may be an exact one. -/
def ScanEnding.atFault (fault : DeviceFault) (exact : Bool) (ending : ScanEnding) : ScanEnding :=
  if ending.lacksBytes ∧ ¬ (fault.kind = .unexpectedEnd ∧ exact) then .failed (.device fault)
  else ending

def Source.failing (s : Source) (fault : DeviceFault) : Source := { s with fault := some fault }

theorem FormatError.atFault_of_ne {e : FormatError} (h : ∀ place, e ≠ .truncated place)
    (fault : DeviceFault) : e.atFault fault = e := by
  cases e with
  | truncated place => exact absurd rfl (h place)
  | _ => rfl

namespace Scan

variable {α β : Type} {fault : DeviceFault}

def relayed (fault : DeviceFault) : Except FormatError (α × Source) → Except FormatError (α × Source)
  | .ok (a, rest) => .ok (a, rest.failing fault)
  | .error e => .error (e.atFault fault)

/-- A way of reading that takes the fault of a source for what it is. -/
structure Relays (fault : DeviceFault) (read : Source → Except FormatError (α × Source)) : Prop where
  kept : ∀ {s rest : Source} {a : α}, read s = .ok (a, rest) → rest.fault = s.fault
  relays : ∀ {s : Source}, s.fault = none → read (s.failing fault) = relayed fault (read s)

namespace Relays

variable {read : Source → Except FormatError (α × Source)}

/-- An error that is not for lack of bytes is one at either source. -/
theorem refused {e : FormatError} (h : ∀ place, e ≠ .truncated place) :
    Relays fault fun _ => (.error e : Except FormatError (α × Source)) := by
  constructor
  · intro s rest a hread
    cases hread
  · intro s _
    exact congrArg Except.error (e.atFault_of_ne h fault).symm

theorem settled {result : Except FormatError α} (h : ∀ place, result ≠ .error (.truncated place)) :
    Relays fault fun s => result.map (·, s) := by
  cases result with
  | ok a =>
    constructor
    · intro s rest b hread
      cases hread
      rfl
    · exact fun _ => rfl
  | error e => exact refused fun place heq => h place (congrArg _ heq)

theorem andThen (h : Relays fault read) {next : α × Source → Except FormatError (β × Source)}
    (hnext : ∀ a, Relays fault fun s => next (a, s)) :
    Relays fault fun s => (read s).bind next := by
  constructor
  · intro s rest b hread
    cases hfirst : read s with
    | error e =>
      rw [hfirst] at hread
      cases hread
    | ok p =>
      rw [hfirst] at hread
      rw [(hnext p.1).kept hread, h.kept hfirst]
  · intro s hs
    rw [h.relays hs]
    cases hfirst : read s with
    | error e => rfl
    | ok p => exact (hnext p.1).relays ((h.kept hfirst).trans hs)

theorem map (h : Relays fault read) (f : α → β) :
    Relays fault fun s => (read s).map fun p => (f p.1, p.2) := by
  constructor
  · intro s rest b hread
    cases hfirst : read s with
    | error e =>
      rw [hfirst] at hread
      cases hread
    | ok p =>
      rw [hfirst] at hread
      cases hread
      exact h.kept hfirst
  · intro s hs
    rw [h.relays hs]
    cases read s <;> rfl

end Relays

section Places

variable {c : ScanConfig} {s : Source} {type : BlockType} {size limit count : Nat}
  {place : Truncation} {error : Shortfall → FormatError}

end Places

def Step.atFault (fault : DeviceFault) (exact : Bool) : Step → Step
  | .block size content rest => .block size content (rest.failing fault)
  | .trailer t => .trailer t
  | .stop ending => .stop (ending.atFault fault exact)

/-- The same scan of a source that fails. -/
def atFault (fault : DeviceFault) (exact : Bool) (scan : Scan) : Scan :=
  { scan with ending := scan.ending.atFault fault exact }

end Scan

end SeriesLog
