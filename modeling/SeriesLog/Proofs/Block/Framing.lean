import Mathlib.Algebra.Ring.Nat
import SeriesLog.Block.Framing

/-! # Blocks read back

A block is its header and its body. A source that starts with a whole block yields both; a source
that ends inside a block yields a truncation. -/
namespace SeriesLog

theorem exists_of_map_eq_ok {ε α β : Type} {x : Except ε α} {f : α → β} {b : β}
    (h : x.map f = .ok b) : ∃ a, x = .ok a ∧ f a = b := by
  cases x with
  | error e => cases h
  | ok a => exact ⟨a, rfl, Except.ok.inj h⟩

theorem eq_error_of_map {ε α β : Type} {x : Except ε α} {f : α → β} {e : ε}
    (h : x.map f = .error e) : x = .error e := by
  cases x with
  | error found => exact congrArg Except.error (Except.error.inj h)
  | ok a => cases h

theorem exists_of_toOption_map {ε α β : Type} {x : Except ε α} {f : α → β} {b : β}
    (h : x.toOption.map f = some b) : ∃ a, x = .ok a ∧ f a = b := by
  cases x with
  | error e => cases h
  | ok a => exact ⟨a, rfl, Option.some.inj h⟩

structure Block where
  type : BlockType
  body : Bytes
  deriving DecidableEq, Repr

namespace Block

def encode (b : Block) : Bytes := (b.type.code :: Bytes.littleEndian 7 b.body.length) ++ b.body

def size (b : Block) : Nat := headerSize + b.body.length

@[simp] theorem length_encode (b : Block) : b.encode.length = b.size := by
  simp [encode, size, headerSize]
  omega

theorem size_pos (b : Block) : 0 < b.size := by
  simp only [size, headerSize]
  omega

def header (b : Block) (h : b.body.length ≤ maxBodySize) : Header := ⟨b.type, b.body.length, h⟩

theorem encode_eq (b : Block) (h : b.body.length ≤ maxBodySize) :
    b.encode = (b.header h).encode ++ b.body := rfl

end Block

theorem blockPieces_eq_ok {type : BlockType} {parts pieces : List Bytes}
    (h : blockPieces type parts = .ok pieces) :
    parts.flatten.length ≤ maxBodySize ∧ pieces.flatten = (Block.mk type parts.flatten).encode := by
  unfold blockPieces Header.make at h
  split at h
  · next hle =>
    cases h
    exact ⟨hle, by simp [Block.encode, Header.encode]⟩
  · cases h

theorem blockPieces_of_le (type : BlockType) {parts : List Bytes}
    (h : parts.flatten.length ≤ maxBodySize) : ∃ pieces, blockPieces type parts = .ok pieces := by
  unfold blockPieces Header.make
  rw [dif_pos h]
  exact ⟨_, rfl⟩

theorem blockPieces_of_lt (type : BlockType) {parts : List Bytes}
    (h : maxBodySize < parts.flatten.length) :
    blockPieces type parts = .error (.tooLarge parts.flatten.length maxBodySize) := by
  unfold blockPieces Header.make
  rw [dif_neg (Nat.not_le_of_lt h)]
  rfl

theorem prefix_cases {bytes missing first second : Bytes}
    (h : bytes ++ missing = first ++ second) :
    bytes.length < first.length ∨ ∃ tail, bytes = first ++ tail ∧ tail ++ missing = second := by
  rcases List.append_eq_append_iff.1 h with ⟨excess, rfl, rfl⟩ | ⟨tail, rfl, rfl⟩
  · cases excess with
    | nil => exact .inr ⟨[], by simp⟩
    | cons b excess =>
      refine .inl ?_
      simp only [List.length_append, List.length_cons]
      omega
  · exact .inr ⟨tail, rfl, rfl⟩

namespace Source

variable {fault : Option DeviceFault} {error : Shortfall → FormatError}

theorem take_append (bytes rest : Bytes) {count : Nat} (h : bytes.length = count) :
    (Source.mk (bytes ++ rest) fault).take count error = .ok (bytes, ⟨rest, fault⟩) := by
  subst h
  simp [take, read_eq]

theorem take_short {bytes : Bytes} {count : Nat} (h : bytes.length < count) :
    (Source.mk bytes none).take count error = .error (error (.ended bytes.length)) := by
  unfold take
  rw [read_eq, if_neg (by dsimp only; omega)]
  rfl

theorem headerOf_encode (h : Header) : headerOf h.encode = .ok h := by
  simp [headerOf]

theorem readHeader?_append (h : Header) (rest : Bytes) :
    (Source.mk (h.encode ++ rest) fault).readHeader? = .ok (some (h, ⟨rest, fault⟩)) := by
  unfold readHeader?
  rw [take_append h.encode rest h.length_encode]
  simp [headerOf_encode, Except.map]

theorem readHeader_append (h : Header) (rest : Bytes) :
    (Source.mk (h.encode ++ rest) fault).readHeader = .ok (h, ⟨rest, fault⟩) := by
  unfold readHeader
  rw [take_append h.encode rest h.length_encode]
  simp [headerOf_encode, Except.map]

theorem readHeader_ok {s rest : Source} {header : Header} (h : s.readHeader = .ok (header, rest)) :
    s.bytes = header.encode ++ rest.bytes ∧ rest.fault = s.fault := by
  unfold readHeader at h
  split at h
  · cases h
  next bytes after htake =>
  obtain ⟨_, hbytes, hfault⟩ := take_ok htake
  unfold headerOf at h
  split at h
  · next hheader =>
    cases h
    rw [Header.encode_of_ofBytes? hheader]
    exact ⟨hbytes, hfault⟩
  · cases h

theorem readHeader?_nil : (Source.mk [] none).readHeader? = .ok none := by
  unfold readHeader?
  rw [take_short (by decide)]
  rfl

theorem readHeader?_short {bytes : Bytes} (hpos : 0 < bytes.length)
    (hlt : bytes.length < headerSize) :
    (Source.mk bytes none).readHeader? = .error (.truncated (.partialHeader bytes.length)) := by
  unfold readHeader?
  rw [take_short hlt]
  obtain ⟨n, hn⟩ := Nat.exists_eq_succ_of_ne_zero (show bytes.length ≠ 0 by omega)
  simp [errorOf, hn]

/-- Only where a source has ended, no header is read without an error. -/
theorem readHeader?_eq_none_iff {s : Source} :
    s.readHeader? = .ok none ↔ s.bytes = [] ∧ s.fault = none := by
  constructor
  · intro h
    unfold readHeader? take at h
    rw [read_eq] at h
    split at h
    · next htake =>
      split at htake
      · next hread =>
        split at hread
        · cases hread
        · cases hread
          unfold shortfall at htake
          split at htake
          · next hfault =>
            injection htake with htake
            injection htake with htake
            injection htake with htake
            exact ⟨List.length_eq_zero_iff.1 htake, hfault⟩
          · cases htake
      · cases htake
    · cases h
    · next bytes rest _ =>
      cases hheader : headerOf bytes with
      | error e =>
        rw [hheader] at h
        cases h
      | ok header =>
        rw [hheader] at h
        cases h
  · obtain ⟨bytes, fault⟩ := s
    rintro ⟨rfl, rfl⟩
    exact readHeader?_nil

theorem readBody_append (body rest : Bytes) {type : BlockType} {size limit : Nat}
    (hsize : body.length = size) (hlimit : size ≤ limit) :
    (Source.mk (body ++ rest) fault).readBody type size limit = .ok (body, ⟨rest, fault⟩) := by
  unfold readBody
  rw [if_neg (by omega), take_append body rest hsize]

theorem readBody_short {bytes : Bytes} {type : BlockType} {size limit : Nat}
    (hlt : bytes.length < size) (hlimit : size ≤ limit) :
    (Source.mk bytes none).readBody type size limit =
      .error (.truncated (.body bytes.length size type)) := by
  unfold readBody
  rw [if_neg (by omega), take_short hlt]
  rfl

theorem readBody_header (b : Block) (h : b.body.length ≤ maxBodySize) {limit : Nat}
    (hlimit : b.body.length ≤ limit) (rest : Bytes) :
    (Source.mk (b.body ++ rest) fault).readBody (b.header h).type (b.header h).size limit =
      .ok (b.body, ⟨rest, fault⟩) :=
  readBody_append b.body rest rfl hlimit

theorem skipBody_append (body rest : Bytes) {type : BlockType} {size : Nat}
    (hsize : body.length = size) :
    (Source.mk (body ++ rest) fault).skipBody type size = .ok ⟨rest, fault⟩ := by
  unfold skipBody
  rw [take_append body rest hsize]
  rfl

theorem skipBody_short {bytes : Bytes} {type : BlockType} {size : Nat}
    (hlt : bytes.length < size) :
    (Source.mk bytes none).skipBody type size = .error (.truncated (.body bytes.length size type)) := by
  unfold skipBody
  rw [take_short hlt]
  rfl

end Source

end SeriesLog
