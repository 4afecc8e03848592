import SeriesLog.Scan

/-! # A scan, call by call

The items of a scan can be taken one at a time. Between two calls a scanner keeps the rest of its
source and an offset that it counts itself; the first call reads the magic, and behind a trailer, an
error or the end of the stream every call gives nothing. -/
namespace SeriesLog

inductive Scanner where
  | fresh (source : Source)
  /-- At a block boundary behind the magic. -/
  | among (source : Source) (offset : Nat)
  /-- Behind the last item; torn where the stream ended inside a block. -/
  | finished (offset : Nat) (torn : Bool)
  deriving DecidableEq, Repr

namespace Scanner

def offset : Scanner → Nat
  | fresh _ => 0
  | among _ offset => offset
  | finished offset _ => offset

def isTorn : Scanner → Bool
  | finished _ torn => torn
  | _ => false

def advance (c : ScanConfig) (s : Source) (offset : Nat) :
    Option (Except FormatError ScanItem) × Scanner :=
  match Scan.step c offset s with
  | .block size content rest =>
    (some (.ok (.block offset size content)), among rest (offset + (headerSize + size)))
  | .trailer trailer =>
    (some (.ok (.trailer offset trailer)), finished (offset + trailerSize) false)
  | .stop (.failed e) => (some (.error e), finished offset false)
  | .stop .torn => (none, finished offset true)
  | .stop _ => (none, finished offset false)

/-- Gives the next item, or the error that ends the scan, or nothing behind the last one. -/
def next (c : ScanConfig) : Scanner → Option (Except FormatError ScanItem) × Scanner
  | fresh s =>
    match Scan.readMagic s .magic with
    | .error e => (some (.error e), finished 0 false)
    | .ok rest => advance c rest openingMagic.length
  | among s offset => advance c s offset
  | finished offset torn => (none, finished offset torn)

def after (c : ScanConfig) (r : Scanner) : Nat → Scanner
  | 0 => r
  | calls + 1 => ((r.after c calls).next c).2

def call (c : ScanConfig) (r : Scanner) (calls : Nat) : Option (Except FormatError ScanItem) :=
  ((r.after c calls).next c).1

end Scanner

end SeriesLog
