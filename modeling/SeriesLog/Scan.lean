import SeriesLog.Block.Data
import SeriesLog.Block.Framing
import SeriesLog.Config
import SeriesLog.Descriptor.Codec

/-! # Forward scan

A scan reads a stream from its magic to its trailer, block by block. It ends at a block
boundary, at the trailer, inside a block (the stream is torn) or with an error. The blocks it
yields lie one after another without gaps. -/
namespace SeriesLog

/-- What a scan accepts and keeps. -/
structure ScanConfig where
  strict : Bool
  maxBlockSize : Nat
  /-- Keep the payloads of data blocks. -/
  payloads : Bool
  /-- Pass over descriptors that do not decode. -/
  skipUndecodable : Bool
  deriving DecidableEq, Repr

def ReaderConfig.scan (c : ReaderConfig) (payloads skipUndecodable : Bool) : ScanConfig :=
  ⟨c.strictBlockTypes, c.maxBlockSize, payloads, skipUndecodable⟩

/-- What follows the end header: where the index lies, and the checksum of all before it. -/
structure Trailer where
  /-- Zero when there is no index. -/
  indexOffset : UInt64
  checksum : Bytes
  deriving DecidableEq, Repr

/-- The content of a block other than the trailer. -/
inductive BlockContent where
  | descriptor (d : Descriptor)
  /-- The payload is there when the scan keeps payloads. -/
  | data (d : DataDescriptor) (payload : Option Bytes)
  | reserved (code : UInt8)
  | undecodable (reason : FormatError)
  deriving DecidableEq

inductive ScanItem where
  | block (offset size : Nat) (content : BlockContent)
  | trailer (offset : Nat) (trailer : Trailer)
  deriving DecidableEq

def ScanItem.offset : ScanItem → Nat
  | block offset _ _ => offset
  | trailer offset _ => offset

def ScanItem.stop : ScanItem → Nat
  | block offset size _ => offset + headerSize + size
  | trailer offset _ => offset + trailerSize

inductive ScanEnding where
  | boundary
  /-- Inside a block or the trailer. -/
  | torn
  | sealed
  | failed (error : FormatError)
  deriving DecidableEq

structure Scan where
  items : List ScanItem
  ending : ScanEnding
  /-- The end of the last whole item. -/
  offset : Nat
  deriving DecidableEq

namespace Scan

def readMagic (s : Source) (truncation : Truncation) : Except FormatError Source :=
  match s.take openingMagic.length (Source.exactErrorOf truncation) with
  | .error e => .error e
  | .ok (found, rest) =>
    if found = openingMagic then .ok rest else .error (.magic openingMagic found)

def readPayload (keep : Bool) (size limit : Nat) (s : Source) :
    Except FormatError (Option Bytes × Source) :=
  if keep then (s.readBody .data size limit).map fun cut => (some cut.1, cut.2)
  else (s.skipBody .data size).map (none, ·)

def readData (c : ScanConfig) (offset size : Nat) (s : Source) :
    Except FormatError (BlockContent × Source) :=
  if size < descriptorSizeBytes then .error (.malformed (.shortDataBlock offset size))
  else
    match s.take descriptorSizeBytes (Source.exactErrorOf .dataBlock) with
    | .error e => .error e
    | .ok (sizeBytes, s) =>
      let descriptorSize := Bytes.ofLittleEndian sizeBytes
      if size - descriptorSizeBytes < descriptorSize then
        .error (.malformed (.dataDescriptorOverrun descriptorSize offset))
      else
        match s.readBody .data descriptorSize c.maxBlockSize with
        | .error e => .error e
        | .ok (bytes, s) =>
          match DataDescriptor.decode? bytes with
          | none => .error .undecodable
          | some d =>
            (readPayload c.payloads (size - descriptorSizeBytes - descriptorSize) c.maxBlockSize
              s).map fun (payload, rest) => (.data d payload, rest)

def readDescriptor (c : ScanConfig) (size : Nat) (s : Source) :
    Except FormatError (BlockContent × Source) :=
  match s.readBody .descriptor size c.maxBlockSize with
  | .error e => .error e
  | .ok (body, rest) =>
    match Descriptor.decode body with
    | .ok d => .ok (.descriptor d, rest)
    | .error e => if c.skipUndecodable then .ok (.undecodable e, rest) else .error e

def readReserved (c : ScanConfig) (type : BlockType) (size : Nat) (s : Source) :
    Except FormatError (BlockContent × Source) :=
  if c.strict then .error (.unknownBlock type.code)
  else (s.skipBody type size).map (.reserved type.code, ·)

def readTrailer (s : Source) : Except FormatError Trailer :=
  match s.take (trailerSize - headerSize) (Source.exactErrorOf .trailer) with
  | .error e => .error e
  | .ok (bytes, _) =>
    let magic := bytes.drop (8 + checksumSize)
    if magic = closingMagic then
      .ok ⟨UInt64.ofNat (Bytes.ofLittleEndian (bytes.take 8)), (bytes.drop 8).take checksumSize⟩
    else .error (.magic closingMagic magic)

inductive Step where
  | block (size : Nat) (content : BlockContent) (rest : Source)
  | trailer (trailer : Trailer)
  | stop (ending : ScanEnding)

/-- A truncation past the magic is a torn end, any other error a failure. -/
def Step.ofError : FormatError → Step
  | .truncated _ => .stop .torn
  | e => .stop (.failed e)

/-- Reads what stands at a block boundary. -/
def step (c : ScanConfig) (offset : Nat) (s : Source) : Step :=
  match s.readHeader? with
  | .error e => .ofError e
  | .ok none => .stop .boundary
  | .ok (some (header, s)) =>
    let body : Except FormatError (BlockContent × Source) ⊕ Except FormatError Trailer :=
      match header.type with
      | .descriptor => .inl (readDescriptor c header.size s)
      | .data => .inl (readData c offset header.size s)
      | .reserved _ _ => .inl (readReserved c header.type header.size s)
      | .trailer => .inr (readTrailer s)
    match body with
    | .inl (.ok (content, rest)) => .block header.size content rest
    | .inr (.ok trailer) => .trailer trailer
    | .inl (.error e) | .inr (.error e) => .ofError e

theorem readPayload_ok {keep : Bool} {size limit : Nat} {s rest : Source} {payload : Option Bytes}
    (h : readPayload keep size limit s = .ok (payload, rest)) :
    ∃ body : Bytes, body.length = size ∧ s.bytes = body ++ rest.bytes ∧ rest.fault = s.fault := by
  unfold readPayload at h
  split at h
  · cases hb : s.readBody .data size limit with
    | error e => simp [hb, Except.map] at h
    | ok cut =>
      rw [hb] at h
      cases h
      exact ⟨cut.1, Source.readBody_ok hb⟩
  · cases hb : s.skipBody .data size with
    | error e => simp [hb, Except.map] at h
    | ok after =>
      rw [hb] at h
      cases h
      exact Source.skipBody_ok hb

theorem readData_ok {c : ScanConfig} {offset size : Nat} {s rest : Source}
    {content : BlockContent} (h : readData c offset size s = .ok (content, rest)) :
    ∃ body : Bytes, body.length = size ∧ s.bytes = body ++ rest.bytes ∧ rest.fault = s.fault := by
  unfold readData at h
  split at h
  · cases h
  next hsize =>
  split at h
  · cases h
  next sizeBytes s₁ ht =>
  obtain ⟨hlen₁, hs₁, hf₁⟩ := Source.take_ok ht
  dsimp only at h
  split at h
  · cases h
  next hfit =>
  split at h
  · cases h
  next bytes s₂ hb =>
  obtain ⟨hlen₂, hs₂, hf₂⟩ := Source.readBody_ok hb
  split at h
  · cases h
  next d hd =>
  cases hp : readPayload c.payloads
      (size - descriptorSizeBytes - Bytes.ofLittleEndian sizeBytes) c.maxBlockSize s₂ with
  | error e => simp [hp, Except.map] at h
  | ok after =>
    obtain ⟨body, hlen₃, hs₃, hf₃⟩ := readPayload_ok hp
    rw [hp] at h
    cases h
    refine ⟨sizeBytes ++ bytes ++ body, ?_, ?_, ?_⟩
    · simp only [List.length_append, hlen₁, hlen₂, hlen₃]
      omega
    · rw [hs₁, hs₂, hs₃]
      simp
    · rw [hf₃, hf₂, hf₁]

theorem readDescriptor_ok {c : ScanConfig} {size : Nat} {s rest : Source} {content : BlockContent}
    (h : readDescriptor c size s = .ok (content, rest)) :
    ∃ body : Bytes, body.length = size ∧ s.bytes = body ++ rest.bytes ∧ rest.fault = s.fault := by
  unfold readDescriptor at h
  split at h
  · cases h
  next body after hb =>
  have hok := Source.readBody_ok hb
  split at h
  · cases h
    exact ⟨body, hok⟩
  · split at h
    · cases h
      exact ⟨body, hok⟩
    · cases h

theorem readReserved_ok {c : ScanConfig} {type : BlockType} {size : Nat} {s rest : Source}
    {content : BlockContent} (h : readReserved c type size s = .ok (content, rest)) :
    ∃ body : Bytes, body.length = size ∧ s.bytes = body ++ rest.bytes ∧ rest.fault = s.fault := by
  unfold readReserved at h
  split at h
  · cases h
  · cases hb : s.skipBody type size with
    | error e => simp [hb, Except.map] at h
    | ok after =>
      rw [hb] at h
      cases h
      exact Source.skipBody_ok hb

/-- A block takes its header and its size from the stream. -/
theorem step_block {c : ScanConfig} {offset size : Nat} {s rest : Source} {content : BlockContent}
    (h : step c offset s = .block size content rest) :
    s.bytes.length = headerSize + size + rest.bytes.length ∧ rest.fault = s.fault := by
  unfold step at h
  split at h
  · next e _ => cases e <;> simp [Step.ofError] at h
  · cases h
  next header s₁ hh =>
  obtain ⟨hs, hf⟩ := Source.readHeader?_ok hh
  have key : ∀ body : Bytes, body.length = header.size ∧ s₁.bytes = body ++ rest.bytes ∧
      rest.fault = s₁.fault → header.size = size →
      s.bytes.length = headerSize + size + rest.bytes.length ∧ rest.fault = s.fault := by
    rintro body ⟨hlen, hb, hfb⟩ rfl
    rw [hs, hb, hfb, hf]
    simp only [List.length_append, Header.length_encode, hlen, and_true]
    omega
  dsimp only at h
  split at h
  · next hbody =>
    cases h
    split at hbody
    · injection hbody with hbody
      obtain ⟨body, hok⟩ := readDescriptor_ok hbody
      exact key body hok rfl
    · injection hbody with hbody
      obtain ⟨body, hok⟩ := readData_ok hbody
      exact key body hok rfl
    · injection hbody with hbody
      obtain ⟨body, hok⟩ := readReserved_ok hbody
      exact key body hok rfl
    · cases hbody
  · cases h
  · next e _ => cases e <;> simp [Step.ofError] at h
  · next e _ => cases e <;> simp [Step.ofError] at h

/-- The items from a block boundary on. -/
def blocks (c : ScanConfig) (offset : Nat) (s : Source) : Scan :=
  match h : step c offset s with
  | .block size content rest =>
    have := (step_block h).1
    let scan := blocks c (offset + headerSize + size) rest
    { scan with items := .block offset size content :: scan.items }
  | .trailer trailer => ⟨[.trailer offset trailer], .sealed, offset + trailerSize⟩
  | .stop ending => ⟨[], ending, offset⟩
termination_by s.bytes.length
decreasing_by
  have hheader : headerSize = 8 := rfl
  omega

end Scan

def Source.scan (s : Source) (c : ScanConfig) : Scan :=
  match Scan.readMagic s .magic with
  | .error e => ⟨[], .failed e, 0⟩
  | .ok rest => Scan.blocks c openingMagic.length rest

end SeriesLog
