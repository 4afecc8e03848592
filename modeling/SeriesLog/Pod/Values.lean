import SeriesLog.Pod.Element

/-! # Element values

The values of a block are words of the element's width, packed one after another with the
lowest byte first. A floating-point value is its bit pattern, so nothing is rounded and no
pattern is lost. -/
namespace SeriesLog.Pod

abbrev Element.Word (e : Element) := BitVec (8 * e.size)

structure Values where
  element : Element
  words : List element.Word
  deriving DecidableEq, Repr

namespace Values

def wordBytes {e : Element} (word : e.Word) : Bytes := Bytes.littleEndian e.size word.toNat

def encode (v : Values) : Bytes := v.words.flatMap wordBytes

/-- Whole words of an element type; bytes over are dropped. -/
def unpack (e : Element) (bytes : Bytes) : List e.Word :=
  let cut := bytes.splitAt e.size
  if cut.1.length = e.size then BitVec.ofNat _ (Bytes.ofLittleEndian cut.1) :: unpack e cut.2
  else []
termination_by bytes.length
decreasing_by
  rename_i h
  have hpos := e.size_pos
  simp only [cut, List.splitAt_eq, List.length_take, List.length_drop] at h ⊢
  omega

def decode? (e : Element) (bytes : Bytes) : Option Values :=
  if bytes.length % e.size = 0 then some ⟨e, unpack e bytes⟩ else none

def word (e : Element) (n : Int) : e.Word := BitVec.ofInt _ n

def number {e : Element} (word : e.Word) : Int := if e.isSigned then word.toInt else word.toNat

end Values

end SeriesLog.Pod
