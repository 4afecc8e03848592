import SeriesLog.Bytes.File
import SeriesLog.Scan

/-! # Scan of a file

A file is scanned block by block. Of every block that a scan reads its bytes are unpacked once, and
those of a descriptor that is too large are not. -/
namespace SeriesLog

/-- How many bytes behind a header a scan reads or passes over. -/
def Scan.reach (c : ScanConfig) (header : Header) : Nat :=
  match header.type with
  | .descriptor => if c.maxBlockSize < header.size then 0 else header.size
  | .data | .reserved _ _ => header.size
  | .trailer => trailerSize - headerSize

namespace File

/-- Reads what stands at a block boundary. -/
def step (f : File) (c : ScanConfig) (offset : Nat) : Scan.Step :=
  match (f.window offset headerSize).readHeader? with
  | .error e => .ofError e
  | .ok none => .stop .boundary
  | .ok (some (header, _)) => Scan.step c offset (f.window offset (headerSize + Scan.reach c header))

theorem step_block {f : File} {c : ScanConfig} {offset size : Nat} {content : BlockContent}
    {rest : Source} (h : f.step c offset = .block size content rest) :
    offset + headerSize + size ≤ f.data.size := by
  unfold step at h
  split at h
  · next e _ => cases e <;> cases h
  · cases h
  · next header _ _ =>
    have hlength := (Scan.step_block h).1
    rw [bytes_window, List.length_take, List.length_drop] at hlength
    have hsize : f.bytes.length = f.data.size := rfl
    have hheader : headerSize = 8 := rfl
    omega

def blocks (f : File) (c : ScanConfig) (offset : Nat) : Scan :=
  match h : f.step c offset with
  | .block size content _ =>
    have := step_block h
    let scan := f.blocks c (offset + headerSize + size)
    { scan with items := .block offset size content :: scan.items }
  | .trailer trailer => ⟨[.trailer offset trailer], .sealed, offset + trailerSize⟩
  | .stop ending => ⟨[], ending, offset⟩
termination_by f.data.size - offset
decreasing_by
  have hheader : headerSize = 8 := rfl
  omega

def scan (f : File) (c : ScanConfig) : Scan :=
  match Scan.readMagic (f.window 0 openingMagic.length) .magic with
  | .error e => ⟨[], .failed e, 0⟩
  | .ok _ => f.blocks c openingMagic.length

end File

end SeriesLog
