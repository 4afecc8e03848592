import Mathlib.Data.List.Forall2
import SeriesLog.Proofs.Block.Framing

/-! # Blocks one after another

Blocks that are written one after another to a buffer are read back one after another. However each
header and each body is read, a block takes the bytes it was written in, so that what follows the
blocks is left as it is. -/
namespace SeriesLog

/-- A block to be written: the code of its type and the parts of its body. -/
structure BlockParts where
  code : UInt8
  parts : List Bytes
  deriving DecidableEq

namespace BlockParts

def block (b : BlockParts) : Block := ⟨.ofCode b.code, b.parts.flatten⟩

def size (b : BlockParts) : Nat := b.parts.flatten.length

def append (buffer : Bytes) (b : BlockParts) : Except FormatError (Nat × Bytes) :=
  (blockPieces (.ofCode b.code) b.parts).map fun pieces =>
    (headerSize + b.size, buffer ++ pieces.flatten)

def appendAll (buffer : Bytes) : List BlockParts → Except FormatError (List Nat × Bytes)
  | [] => .ok ([], buffer)
  | b :: rest =>
    match append buffer b with
    | .error e => .error e
    | .ok (count, buffer) => (appendAll buffer rest).map fun (counts, all) => (count :: counts, all)

theorem append_of_le {b : BlockParts} (h : b.size ≤ maxBodySize) (buffer : Bytes) :
    append buffer b = .ok (headerSize + b.size, buffer ++ b.block.encode) := by
  obtain ⟨pieces, hpieces⟩ := blockPieces_of_le (.ofCode b.code) h
  obtain ⟨_, hflatten⟩ := blockPieces_eq_ok hpieces
  rw [append, hpieces, Except.map, hflatten]
  rfl

theorem appendAll_of_le {blocks : List BlockParts} (h : ∀ b ∈ blocks, b.size ≤ maxBodySize)
    (buffer : Bytes) :
    appendAll buffer blocks = .ok (blocks.map fun b => headerSize + b.size,
      buffer ++ blocks.flatMap fun b => b.block.encode) := by
  induction blocks generalizing buffer with
  | nil => rw [appendAll, List.map_nil, List.flatMap_nil, List.append_nil]
  | cons b rest ih =>
    have hrest := ih (fun other hother => h other (List.mem_cons_of_mem b hother))
      (buffer ++ b.block.encode)
    simp only [appendAll, append_of_le (h b List.mem_cons_self), hrest, Except.map, List.map_cons,
      List.flatMap_cons, List.append_assoc]

end BlockParts

structure Reading where
  /-- Whether the source may end in front of the block. -/
  mayEnd : Bool
  /-- The largest body that is read; without a limit the body is passed over. -/
  limit : Option Nat
  deriving DecidableEq

structure Frame where
  code : UInt8
  size : Nat
  /-- The body, unless it was passed over. -/
  body : Option Bytes
  deriving DecidableEq

namespace Source

def readHeaderBy (s : Source) (mayEnd : Bool) : Except FormatError (Option (Header × Source)) :=
  if mayEnd then s.readHeader? else s.readHeader.map some

def readBodyBy (s : Source) (header : Header) (limit : Option Nat) :
    Except FormatError (Option Bytes × Source) :=
  match limit with
  | none => (s.skipBody header.type header.size).map fun rest => (none, rest)
  | some limit =>
    (s.readBody header.type header.size limit).map fun (body, rest) => (some body, rest)

def readFrame (s : Source) (way : Reading) : Except FormatError (Option (Frame × Source)) :=
  match s.readHeaderBy way.mayEnd with
  | .error e => .error e
  | .ok none => .ok none
  | .ok (some (header, s)) =>
    (s.readBodyBy header way.limit).map fun (body, rest) =>
      some (⟨header.type.code, header.size, body⟩, rest)

def readFrames (s : Source) : List Reading → Except FormatError (List Frame × Source)
  | [] => .ok ([], s)
  | way :: rest =>
    match s.readFrame way with
    | .error e => .error e
    | .ok none => .ok ([], s)
    | .ok (some (frame, s)) => (s.readFrames rest).map fun (frames, s) => (frame :: frames, s)

variable {fault : Option DeviceFault}

theorem readHeaderBy_append (mayEnd : Bool) (h : Header) (rest : Bytes) :
    (Source.mk (h.encode ++ rest) fault).readHeaderBy mayEnd = .ok (some (h, ⟨rest, fault⟩)) := by
  cases mayEnd with
  | true => exact readHeader?_append h rest
  | false => simp [readHeaderBy, readHeader_append, Except.map]

theorem readBodyBy_append (header : Header) {body : Bytes} (hsize : body.length = header.size)
    {limit : Option Nat} (hlimit : ∀ n, limit = some n → header.size ≤ n) (rest : Bytes) :
    (Source.mk (body ++ rest) fault).readBodyBy header limit =
      .ok (limit.map fun _ => body, ⟨rest, fault⟩) := by
  cases limit with
  | none => simp only [readBodyBy, skipBody_append body rest hsize, Except.map, Option.map_none]
  | some n =>
    simp only [readBodyBy, readBody_append body rest hsize (hlimit n rfl), Except.map,
      Option.map_some]

end Source

namespace BlockParts

/-- Whether a way to read a block admits the size of its body. -/
def ReadableBy (b : BlockParts) (way : Reading) : Prop :=
  ∀ limit, way.limit = some limit → b.size ≤ limit

def frame (b : BlockParts) (way : Reading) : Frame :=
  ⟨b.code, b.size, way.limit.map fun _ => b.parts.flatten⟩

variable {fault : Option DeviceFault}

theorem readFrame_append {b : BlockParts} {way : Reading} (hsize : b.size ≤ maxBodySize)
    (hway : b.ReadableBy way) (rest : Bytes) :
    (Source.mk (b.block.encode ++ rest) fault).readFrame way =
      .ok (some (b.frame way, ⟨rest, fault⟩)) := by
  have hbody : b.block.body.length ≤ maxBodySize := hsize
  rw [Block.encode_eq _ hbody, List.append_assoc, Source.readFrame, Source.readHeaderBy_append]
  dsimp only
  rw [Source.readBodyBy_append (b.block.header hbody) rfl hway]
  simp only [Except.map, Block.header, block, BlockType.code_ofCode]
  rfl

theorem readFrames_append {blocks : List BlockParts} {ways : List Reading}
    (hsize : ∀ b ∈ blocks, b.size ≤ maxBodySize)
    (hways : List.Forall₂ ReadableBy blocks ways) (rest : Bytes) :
    (Source.mk ((blocks.flatMap fun b => b.block.encode) ++ rest) fault).readFrames ways =
      .ok (List.zipWith frame blocks ways, ⟨rest, fault⟩) := by
  induction hways with
  | nil => rfl
  | @cons b way blocks ways hway _ ih =>
    have hrest := ih fun other hother => hsize other (List.mem_cons_of_mem b hother)
    rw [List.flatMap_cons, List.append_assoc, Source.readFrames,
      readFrame_append (hsize b List.mem_cons_self) hway]
    dsimp only
    rw [hrest]
    rfl

end BlockParts

structure Header.Bijective : Prop where
  encode_decode : ∀ bytes : Bytes, bytes.length = 8 →
    ∃ header, Header.ofBytes? bytes = some header ∧ header.encode = bytes
  decode_encode : ∀ (type : BlockType) (size : Nat), size ≤ 2 ^ 56 - 1 →
    ∃ header, Header.make type size = .ok header ∧ header.type = type ∧ header.size = size ∧
      header.encode.length = 8 ∧ Header.ofBytes? header.encode = some header

theorem Header.bijective : Header.Bijective := by
  constructor
  · intro bytes hlength
    obtain ⟨header, hheader⟩ := Header.exists_of_length hlength
    exact ⟨header, hheader, Header.encode_of_ofBytes? hheader⟩
  · intro type size hsize
    have hle : size ≤ maxBodySize := hsize
    refine ⟨⟨type, size, hle⟩, dif_pos hle, rfl, rfl, Header.length_encode _, ?_⟩
    exact Header.ofBytes?_encode _

/-- Blocks of any types are written to a buffer, whose length is that of the blocks as they are
counted. Whether their headers are read where a block has to start or where one may start, and
whether their bodies are read or passed over, each block yields its type, its size and its body, and
the bytes behind the blocks are left. Where these are none the source has ended, and where they are
less than a header it is torn. -/
theorem framing_round_trip (blocks : List BlockParts) (rest : Bytes)
    (hsize : ∀ b ∈ blocks, (b.parts.map List.length).sum < 2 ^ 56) :
    (∃ counts buffer, BlockParts.appendAll [] blocks = .ok (counts, buffer) ∧
      buffer.length = counts.sum ∧
      ∀ ways, List.Forall₂ BlockParts.ReadableBy blocks ways →
        (Source.ofBytes (buffer ++ rest)).readFrames ways =
          .ok (List.zipWith BlockParts.frame blocks ways, .ofBytes rest)) ∧
    ((Source.ofBytes rest).readHeader? = .ok none ↔ rest = []) ∧
    (0 < rest.length → rest.length < 8 → (Source.ofBytes rest).readHeader? =
      .error (.truncated (.partialHeader rest.length))) ∧
    Header.Bijective := by
  have hle : ∀ b ∈ blocks, b.size ≤ maxBodySize := by
    intro b hb
    have hlt := hsize b hb
    rw [← List.length_flatten] at hlt
    exact Nat.le_of_lt_succ hlt
  have hend : (Source.ofBytes rest).readHeader? = .ok none ↔ rest = [] :=
    Source.readHeader?_eq_none_iff.trans (and_iff_left rfl)
  refine ⟨⟨_, _, BlockParts.appendAll_of_le hle [], ?_, ?_⟩, hend,
    fun hpos hlt => Source.readHeader?_short hpos hlt, Header.bijective⟩
  · rw [List.nil_append, List.length_flatMap]
    congr 1
    refine List.map_congr_left fun b _ => ?_
    exact Block.length_encode _
  · intro ways hways
    exact BlockParts.readFrames_append hle hways rest

/-- A block without a body, one of an unknown type in three parts, and three more bytes. -/
theorem framing_round_trip_torn_rest :
    let blocks : List BlockParts := [⟨1, []⟩, ⟨0xFF, [[7], [], [8, 9]]⟩]
    let rest : Bytes := [1, 2, 3]
    ∃ buffer, BlockParts.appendAll [] blocks = .ok ([8, 11], buffer) ∧ buffer.length = 19 ∧
      (Source.ofBytes (buffer ++ rest)).readFrames [⟨true, some 0⟩, ⟨false, none⟩] =
        .ok ([⟨1, 0, some []⟩, ⟨0xFF, 3, none⟩], .ofBytes rest) ∧
      (Source.ofBytes rest).readHeader? = .error (.truncated (.partialHeader 3)) := by
  intro blocks rest
  obtain ⟨⟨counts, buffer, happend, hlength, hread⟩, _, htorn, _⟩ :=
    framing_round_trip blocks rest (by decide)
  have hcounts : (BlockParts.appendAll [] blocks).toOption.map (·.1) = some [8, 11] := by
    decide +kernel
  rw [happend] at hcounts
  cases hcounts
  refine ⟨buffer, happend, hlength, ?_, htorn (by decide) (by decide)⟩
  refine hread _ (.cons ?_ (.cons ?_ .nil))
  · intro limit hlimit
    exact Nat.zero_le limit
  · intro limit hlimit
    cases hlimit

end SeriesLog
