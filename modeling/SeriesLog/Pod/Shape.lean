import SeriesLog.Pod.Element
import SeriesLog.Text.Quoted

/-! # Sample shapes

A sample is an array of elements; its size has to fit in 64 bits. The number of elements is
multiplied up one dimension at a time, and no partial product may be too large. -/
namespace SeriesLog.Pod

/-- The element type and the dimensions of a sample; no dimensions mean a single value. -/
structure Shape where
  element : Element
  dimensions : List UInt32
  deriving DecidableEq, Repr

namespace Shape

/-- A product that fits in 64 bits. -/
def boundedMul (m n : Nat) : Option Nat := if m * n < UInt64.size then some (m * n) else none

def elementsPerSample (s : Shape) : Option Nat :=
  s.dimensions.foldlM (fun product d => boundedMul product d.toNat) 1

def sampleSize (s : Shape) : Option Nat :=
  s.elementsPerSample.bind fun n => boundedMul n s.element.size

def dimensionsText (s : Shape) : String :=
  bracketed (s.dimensions.map fun d => toString d.toNat)

def describe (s : Shape) : String :=
  if s.dimensions.isEmpty then s.element.name else s.element.name ++ s.dimensionsText

end Shape

end SeriesLog.Pod
