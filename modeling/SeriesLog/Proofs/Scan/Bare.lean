import SeriesLog.Proofs.Descriptor.Decoded
import SeriesLog.Proofs.Scan.Blocks

/-! # Scans that pass over payloads

Every item of a scan was read from a block of the stream, whether payloads are kept or passed over. A
scan that passes over the payloads yields the same items without them, unless one of the two
fails. -/
namespace SeriesLog

theorem Source.readBody_le {s rest : Source} {type : BlockType} {size limit : Nat} {body : Bytes}
    (h : s.readBody type size limit = .ok (body, rest)) : size ≤ limit := by
  unfold readBody at h
  split at h
  · cases h
  · next hle => exact Nat.le_of_not_lt hle

namespace Scan

variable {c : ScanConfig} {offset size : Nat} {s rest : Source} {content : BlockContent}

theorem reads_of_readDescriptor (h : readDescriptor c size s = .ok (content, rest)) :
    ∃ body : Bytes, body.length = size ∧ s.bytes = body ++ rest.bytes ∧ rest.fault = s.fault ∧
      Reads c ⟨.descriptor, body⟩ content := by
  unfold readDescriptor at h
  split at h
  · cases h
  next body after hbody =>
  have hle := Source.readBody_le hbody
  obtain ⟨hlength, hbytes, hfault⟩ := Source.readBody_ok hbody
  rw [← hlength] at hle
  split at h
  · next hdecode =>
    cases h
    exact ⟨body, hlength, hbytes, hfault, .descriptor hle hdecode⟩
  · next hdecode =>
    split at h
    · next hskip =>
      cases h
      exact ⟨body, hlength, hbytes, hfault, .undecodable hle hdecode hskip⟩
    · cases h

theorem of_readPayload {keep : Bool} {limit : Nat} {kept : Option Bytes}
    (h : readPayload keep size limit s = .ok (kept, rest)) :
    ∃ payload : Bytes, kept = (if keep then some payload else none) ∧
      (keep = true → payload.length ≤ limit) ∧ payload.length = size ∧
      s.bytes = payload ++ rest.bytes ∧ rest.fault = s.fault := by
  unfold readPayload at h
  cases keep with
  | true =>
    rw [if_pos rfl] at h
    obtain ⟨⟨payload, after⟩, hread, hpair⟩ := exists_of_map_eq_ok h
    cases hpair
    have hle := Source.readBody_le hread
    obtain ⟨hlength, hbytes, hfault⟩ := Source.readBody_ok hread
    exact ⟨payload, rfl, fun _ => hlength ▸ hle, hlength, hbytes, hfault⟩
  | false =>
    obtain ⟨after, hskip, hpair⟩ := exists_of_map_eq_ok h
    cases hpair
    obtain ⟨payload, hlength, hbytes, hfault⟩ := Source.skipBody_ok hskip
    exact ⟨payload, rfl, (fun hkeep => by cases hkeep), hlength, hbytes, hfault⟩

/-- The body of a data block is read in its parts, and its payload stands behind the descriptor
whether it is kept or not. -/
theorem parts_of_readData (h : readData c offset size s = .ok (content, rest)) :
    ∃ (bytes payload : Bytes) (d : DataDescriptor),
      let body := Bytes.littleEndian descriptorSizeBytes bytes.length ++ bytes ++ payload
      body.length = size ∧ s.bytes = body ++ rest.bytes ∧ rest.fault = s.fault ∧
        bytes.length < 2 ^ 32 ∧ bytes.length ≤ c.maxBlockSize ∧
        DataDescriptor.decode? bytes = some d ∧
        content = .data d (if c.payloads then some payload else none) ∧
        (c.payloads = true → payload.length ≤ c.maxBlockSize) := by
  unfold readData at h
  split at h
  · cases h
  next hsize =>
  split at h
  · cases h
  next sizeBytes s₁ htake =>
  obtain ⟨hlength₁, hbytes₁, hfault₁⟩ := Source.take_ok htake
  dsimp only at h
  split at h
  · cases h
  next hfits =>
  split at h
  · cases h
  next bytes s₂ hbody =>
  have hle₂ := Source.readBody_le hbody
  obtain ⟨hlength₂, hbytes₂, hfault₂⟩ := Source.readBody_ok hbody
  split at h
  · cases h
  next d hdecode =>
  obtain ⟨⟨kept, after⟩, hpayload, hpair⟩ := exists_of_map_eq_ok h
  cases hpair
  obtain ⟨payload, hkept, hlimit, hlength₃, hbytes₃, hfault₃⟩ := of_readPayload hpayload
  have hsizeBytes : Bytes.littleEndian descriptorSizeBytes bytes.length = sizeBytes := by
    rw [hlength₂, ← hlength₁, Bytes.littleEndian_ofLittleEndian]
  have hsmall : bytes.length < 2 ^ 32 := by
    have hlt := Bytes.ofLittleEndian_lt sizeBytes
    rw [hlength₁] at hlt
    rw [hlength₂]
    exact hlt
  refine ⟨bytes, payload, d, ?_⟩
  rw [hsizeBytes]
  refine ⟨?_, ?_, ?_, hsmall, hlength₂ ▸ hle₂, hdecode, congrArg _ hkept, hlimit⟩
  · simp only [List.length_append, hlength₁, hlength₂, hlength₃]
    omega
  · rw [hbytes₁, hbytes₂, hbytes₃, List.append_assoc, List.append_assoc]
  · rw [hfault₃, hfault₂, hfault₁]

theorem reads_of_readData (hkeep : c.payloads = true)
    (h : readData c offset size s = .ok (content, rest)) :
    ∃ body : Bytes, body.length = size ∧ s.bytes = body ++ rest.bytes ∧ rest.fault = s.fault ∧
      Reads c ⟨.data, body⟩ content := by
  obtain ⟨bytes, payload, d, hlength, hbytes, hfault, hsmall, hlimit, hdecode, rfl, hpayload⟩ :=
    parts_of_readData h
  exact ⟨_, hlength, hbytes, hfault, .data hsmall hlimit (hpayload hkeep) hdecode⟩

theorem reads_of_readReserved {code : UInt8} {above : 3 ≤ code}
    (h : readReserved c (.reserved code above) size s = .ok (content, rest)) :
    ∃ body : Bytes, body.length = size ∧ s.bytes = body ++ rest.bytes ∧ rest.fault = s.fault ∧
      Reads c ⟨.reserved code above, body⟩ content := by
  unfold readReserved at h
  split at h
  · cases h
  next hstrict =>
  obtain ⟨after, hskip, hpair⟩ := exists_of_map_eq_ok h
  cases hpair
  obtain ⟨body, hlength, hbytes, hfault⟩ := Source.skipBody_ok hskip
  exact ⟨body, hlength, hbytes, hfault, .reserved (Bool.eq_false_iff.2 hstrict)⟩

theorem block_of_readHeader? {header : Header} {s₁ : Source} {body : Bytes}
    (hheader : s.readHeader? = .ok (some (header, s₁))) (hlength : body.length = header.size)
    (hbytes : s₁.bytes = body ++ rest.bytes) (hfault : rest.fault = s₁.fault) :
    s.bytes = (Block.mk header.type body).encode ++ rest.bytes ∧ rest.fault = s.fault := by
  obtain ⟨hstream, hsame⟩ := Source.readHeader?_ok hheader
  have hencode : (Block.mk header.type body).encode = header.encode ++ body := by
    rw [Block.encode, hlength]
    rfl
  refine ⟨?_, hfault.trans hsame⟩
  rw [hstream, hbytes, hencode, List.append_assoc]

theorem reads_of_step (hkeep : c.payloads = true)
    (h : step c offset s = .block size content rest) :
    ∃ b : Block, Reads c b content ∧ b.body.length = size ∧ size ≤ maxBodySize ∧
      s.bytes = b.encode ++ rest.bytes ∧ rest.fault = s.fault := by
  obtain ⟨header, s₁, hheader, rfl, hbody⟩ := step_eq_block h
  have key : ∀ body : Bytes, body.length = header.size → s₁.bytes = body ++ rest.bytes →
      rest.fault = s₁.fault → Reads c ⟨header.type, body⟩ content →
      ∃ b : Block, Reads c b content ∧ b.body.length = header.size ∧ header.size ≤ maxBodySize ∧
        s.bytes = b.encode ++ rest.bytes ∧ rest.fault = s.fault := by
    intro body hlength hbytes hfault hreads
    exact ⟨⟨header.type, body⟩, hreads, hlength, header.size_le,
      block_of_readHeader? hheader hlength hbytes hfault⟩
  rcases hbody with ⟨htype, hbody⟩ | ⟨htype, hbody⟩ | ⟨code, above, htype, hbody⟩
  · obtain ⟨body, hlength, hbytes, hfault, hreads⟩ := reads_of_readDescriptor hbody
    rw [← htype] at hreads
    exact key body hlength hbytes hfault hreads
  · obtain ⟨body, hlength, hbytes, hfault, hreads⟩ := reads_of_readData hkeep hbody
    rw [← htype] at hreads
    exact key body hlength hbytes hfault hreads
  · rw [htype] at hbody
    obtain ⟨body, hlength, hbytes, hfault, hreads⟩ := reads_of_readReserved hbody
    rw [← htype] at hreads
    exact key body hlength hbytes hfault hreads

/-- What a scan yields as a data block is one, also where the scan passes over its payload. -/
theorem data_of_step (h : step c offset s = .block size content rest) :
    ∃ b : Block, b.body.length = size ∧ size ≤ maxBodySize ∧ s.bytes = b.encode ++ rest.bytes ∧
      ∀ d payload, content = .data d payload → b.type = .data ∧
        ∃ kept, (c.payloads = true → payload = some kept) ∧
          DataBlock.decode b.body = .ok ⟨d, kept⟩ := by
  obtain ⟨header, s₁, hheader, rfl, hbody⟩ := step_eq_block h
  have key : ∀ body : Bytes, body.length = header.size → s₁.bytes = body ++ rest.bytes →
      rest.fault = s₁.fault → s.bytes = (Block.mk header.type body).encode ++ rest.bytes :=
    fun body hlength hbytes hfault => (block_of_readHeader? hheader hlength hbytes hfault).1
  rcases hbody with ⟨_, hbody⟩ | ⟨htype, hbody⟩ | ⟨code, above, htype, hbody⟩
  · obtain ⟨body, hlength, hbytes, hfault, hreads⟩ := reads_of_readDescriptor hbody
    refine ⟨⟨header.type, body⟩, hlength, header.size_le, key body hlength hbytes hfault, ?_⟩
    rintro d payload rfl
    cases hreads
  · obtain ⟨bytes, payload, d, hlength, hbytes, hfault, hsmall, _, hdecode, rfl, _⟩ :=
      parts_of_readData hbody
    refine ⟨⟨header.type, _⟩, hlength, header.size_le, key _ hlength hbytes hfault, ?_⟩
    intro e kept hcontent
    cases hcontent
    refine ⟨htype, payload, ?_, DataBlock.decode_append hsmall hdecode payload⟩
    intro hkeep
    rw [if_pos hkeep]
  · rw [htype] at hbody
    obtain ⟨body, hlength, hbytes, hfault, hreads⟩ := reads_of_readReserved hbody
    refine ⟨⟨header.type, body⟩, hlength, header.size_le, key body hlength hbytes hfault, ?_⟩
    rintro d payload rfl
    cases hreads

theorem rest_of_step (h : step c offset s = .block size content rest) :
    rest.bytes = s.bytes.drop (headerSize + size) := by
  obtain ⟨b, rfl, _, hbytes, _⟩ := data_of_step h
  rw [hbytes]
  exact (List.drop_left' b.length_encode).symm

theorem data_of_mem_blocks {place : Nat} {d : DataDescriptor} {payload : Option Bytes}
    (h : .block place size (.data d payload) ∈ (blocks c offset s).items) :
    ∃ before body behind kept : Bytes, (c.payloads = true → payload = some kept) ∧
      s.bytes = before ++ (Block.mk .data body).encode ++ behind ∧
      place = offset + before.length ∧ body.length ≤ maxBodySize ∧
      DataBlock.decode body = .ok ⟨d, kept⟩ := by
  induction offset, s using blocks.induct c with
  | case1 offset s first content rest hstep _ ih =>
    obtain ⟨⟨type, bytes⟩, hlength, hmax, hbytes, hdata⟩ := data_of_step hstep
    rw [blocks_of_block hstep] at h
    rcases List.mem_cons.1 h with hfirst | hrest
    · cases hfirst
      obtain ⟨rfl, kept, hkept, hdecode⟩ := hdata d payload rfl
      exact ⟨[], bytes, rest.bytes, kept, hkept, hbytes, rfl, hlength ▸ hmax, hdecode⟩
    · obtain ⟨before, body, behind, kept, hkept, hrestBytes, hplace, hbody, hdecode⟩ := ih hrest
      refine ⟨(Block.mk type bytes).encode ++ before, body, behind, kept, hkept, ?_, ?_, hbody,
        hdecode⟩
      · rw [hbytes, hrestBytes]
        simp only [List.append_assoc]
      · rw [hplace, List.length_append, Block.length_encode, Block.size, hlength]
        omega
  | case2 offset s trailer hstep =>
    rw [blocks_of_trailer hstep] at h
    cases List.mem_singleton.1 h
  | case3 offset s ending hstep =>
    rw [blocks_of_stop hstep] at h
    cases h

theorem data_of_mem_scan {place : Nat} {d : DataDescriptor} {payload : Option Bytes}
    (h : .block place size (.data d payload) ∈ (s.scan c).items) :
    ∃ before body behind kept : Bytes, (c.payloads = true → payload = some kept) ∧
      s.bytes = before ++ (Block.mk .data body).encode ++ behind ∧ place = before.length ∧
      body.length ≤ maxBodySize ∧ DataBlock.decode body = .ok ⟨d, kept⟩ := by
  unfold Source.scan at h
  split at h
  · cases h
  next rest hmagic =>
  obtain ⟨before, body, behind, kept, hkept, hrest, hplace, hbody, hdecode⟩ :=
    data_of_mem_blocks h
  have hbytes := (readMagic_ok hmagic).1
  refine ⟨openingMagic ++ before, body, behind, kept, hkept, ?_, ?_, hbody, hdecode⟩
  · rw [hbytes, hrest]
    simp only [List.append_assoc]
  · rw [hplace, List.length_append]

end Scan

def BlockContent.bare : BlockContent → BlockContent
  | data d _ => data d none
  | content => content

def ScanItem.bare : ScanItem → ScanItem
  | block offset size content => block offset size content.bare
  | trailer offset t => trailer offset t

namespace Scan

variable {rc : ReaderConfig} {skip : Bool} {offset size : Nat} {s rest : Source}
  {content : BlockContent} {place : Truncation} {ending : ScanEnding}

theorem Reads.bare {b : Block} (h : Reads (rc.scan true true) b content)
    (hskip : ∀ e, content = .undecodable e → skip = true) :
    Reads (rc.scan false skip) b content.bare := by
  cases h with
  | descriptor hle hdecode => exact .descriptor hle hdecode
  | undecodable hle hdecode _ => exact .undecodable hle hdecode (hskip _ rfl)
  | data hsmall hbytes hpayload hdecode => exact .data hsmall hbytes hpayload hdecode
  | reserved hstrict => exact .reserved hstrict

theorem exists_truncated {e : FormatError} (h : ∀ f, Step.ofError e ≠ .stop (.failed f)) :
    ∃ place, e = .truncated place := by
  cases e with
  | truncated place => exact ⟨place, rfl⟩
  | _ => exact absurd rfl (h _)

theorem readDescriptor_torn (h : readDescriptor (rc.scan true true) size s =
      .error (.truncated place)) :
    readDescriptor (rc.scan false skip) size s = .error (.truncated place) := by
  unfold readDescriptor at h ⊢
  split at h
  · next e hbody =>
    cases h
    have hsame : s.readBody .descriptor size (rc.scan false skip).maxBlockSize =
        .error (.truncated place) := hbody
    rw [hsame]
  · split at h
    · cases h
    · cases h

theorem readPayload_torn {limit : Nat}
    (h : readPayload true size limit s = .error (.truncated place)) :
    readPayload false size limit s = .error (.truncated place) := by
  unfold readPayload Source.readBody at h
  rw [if_pos rfl] at h
  split at h
  · cases h
  · unfold readPayload Source.skipBody
    rw [if_neg Bool.false_ne_true]
    cases htake : s.take size (Source.errorOf fun got => .body got size .data) with
    | ok cut =>
      rw [htake] at h
      cases h
    | error e =>
      rw [htake] at h
      cases h
      rfl

theorem readData_torn (h : readData (rc.scan true true) offset size s =
      .error (.truncated place)) :
    readData (rc.scan false skip) offset size s = .error (.truncated place) := by
  unfold readData at h ⊢
  split at h
  · cases h
  next hsize =>
  rw [if_neg hsize]
  split at h
  · cases h
    rfl
  next sizeBytes s₁ _ =>
  dsimp only at h ⊢
  split at h
  · cases h
  next hfits =>
  rw [if_neg hfits]
  split at h
  · next hbody =>
    cases h
    have hsame : s₁.readBody .data (Bytes.ofLittleEndian sizeBytes)
        (rc.scan false skip).maxBlockSize = .error (.truncated place) := hbody
    rw [hsame]
  next bytes s₂ hbody =>
  have hsame : s₁.readBody .data (Bytes.ofLittleEndian sizeBytes)
      (rc.scan false skip).maxBlockSize = .ok (bytes, s₂) := hbody
  rw [hsame]
  dsimp only
  split at h
  · cases h
  next d _ =>
  cases hpayload : readPayload (rc.scan true true).payloads
      (size - descriptorSizeBytes - Bytes.ofLittleEndian sizeBytes)
      (rc.scan true true).maxBlockSize s₂ with
  | ok cut =>
    rw [hpayload] at h
    cases h
  | error e =>
    rw [hpayload] at h
    cases h
    have hbare : readPayload (rc.scan false skip).payloads
        (size - descriptorSizeBytes - Bytes.ofLittleEndian sizeBytes)
        (rc.scan false skip).maxBlockSize s₂ = .error (.truncated place) :=
      readPayload_torn hpayload
    rw [hbare]
    rfl

theorem step_bare_of_no_block (hblock : ∀ size content rest,
      step (rc.scan true true) offset s ≠ .block size content rest)
    (hwhole : ∀ e, step (rc.scan true true) offset s ≠ .stop (.failed e)) :
    step (rc.scan false skip) offset s = step (rc.scan true true) offset s := by
  cases hheader : s.readHeader? with
  | error e => simp only [step, hheader]
  | ok found =>
    cases found with
    | none => simp only [step, hheader]
    | some found =>
      obtain ⟨⟨type, bodySize, hle⟩, s₁⟩ := found
      simp only [step, hheader] at hblock hwhole ⊢
      cases type with
      | trailer => rfl
      | descriptor =>
        dsimp only at hblock hwhole ⊢
        cases hbody : readDescriptor (rc.scan true true) bodySize s₁ with
        | ok found =>
          rw [hbody] at hblock
          exact absurd rfl (hblock _ _ _)
        | error e =>
          rw [hbody] at hwhole
          obtain ⟨place, rfl⟩ := exists_truncated hwhole
          rw [readDescriptor_torn hbody]
      | data =>
        dsimp only at hblock hwhole ⊢
        cases hbody : readData (rc.scan true true) offset bodySize s₁ with
        | ok found =>
          rw [hbody] at hblock
          exact absurd rfl (hblock _ _ _)
        | error e =>
          rw [hbody] at hwhole
          obtain ⟨place, rfl⟩ := exists_truncated hwhole
          rw [readData_torn hbody]
      | reserved code above => rfl

theorem step_undecodable {b : Block} {e : FormatError}
    (h : Reads (rc.scan true true) b (.undecodable e)) (hsize : b.body.length ≤ maxBodySize)
    (rest : Source) :
    step (rc.scan false false) offset ⟨b.encode ++ rest.bytes, rest.fault⟩ =
      .stop (.failed e) := by
  cases h with
  | @undecodable body _ hle hdecode _ =>
    have hread : (Source.mk (body ++ rest.bytes) rest.fault).readBody .descriptor body.length
        (rc.scan false false).maxBlockSize = .ok (body, rest) :=
      Source.readBody_append body rest.bytes rfl hle
    have hbody : readDescriptor (rc.scan false false) body.length
        ⟨body ++ rest.bytes, rest.fault⟩ = .error e := by
      rw [readDescriptor, hread]
      dsimp only
      rw [hdecode]
      exact if_neg Bool.false_ne_true
    unfold step
    rw [Block.encode_eq _ hsize, List.append_assoc, Source.readHeader?_append]
    simp only [Block.header, hbody]
    cases e with
    | truncated place => exact absurd hdecode (Descriptor.decode_ne_truncated body)
    | _ => rfl

theorem blocks_bare (hkept : ∀ e, (blocks (rc.scan true true) offset s).ending ≠ .failed e)
    (hbare : ∀ e, (blocks (rc.scan false skip) offset s).ending ≠ .failed e) :
    blocks (rc.scan false skip) offset s =
      { blocks (rc.scan true true) offset s with
        items := (blocks (rc.scan true true) offset s).items.map ScanItem.bare } := by
  induction offset, s using blocks.induct (rc.scan true true) with
  | case1 offset s size content rest hstep _ ih =>
    obtain ⟨b, hreads, rfl, hmax, hbytes, hfault⟩ := reads_of_step rfl hstep
    have hs : s = ⟨b.encode ++ rest.bytes, rest.fault⟩ := by rw [← hbytes, hfault]
    have hskip : ∀ e, content = .undecodable e → skip = true := by
      rintro e rfl
      by_cases hskip : skip = true
      · exact hskip
      · rw [Bool.eq_false_iff.2 hskip, hs,
          blocks_of_stop (step_undecodable hreads hmax rest)] at hbare
        exact absurd rfl (hbare e)
    have hnext : step (rc.scan false skip) offset s =
        .block b.body.length content.bare rest := by
      rw [hs]
      exact step_block_append (hreads.bare hskip) hmax rest.bytes
    rw [blocks_of_block hstep] at hkept ⊢
    rw [blocks_of_block hnext] at hbare ⊢
    rw [ih hkept hbare]
    rfl
  | case2 offset s trailer hstep =>
    have hsame : step (rc.scan false skip) offset s = .trailer trailer := by
      rw [step_bare_of_no_block, hstep]
      · intro size content rest hblock
        rw [hstep] at hblock
        cases hblock
      · intro e hfailed
        rw [hstep] at hfailed
        cases hfailed
    rw [blocks_of_trailer hstep, blocks_of_trailer hsame]
    rfl
  | case3 offset s ending hstep =>
    rw [blocks_of_stop hstep] at hkept
    have hsame : step (rc.scan false skip) offset s = .stop ending := by
      rw [step_bare_of_no_block, hstep]
      · intro size content rest hblock
        rw [hstep] at hblock
        cases hblock
      · intro e hfailed
        rw [hstep] at hfailed
        cases hfailed
        exact absurd rfl (hkept e)
    rw [blocks_of_stop hstep, blocks_of_stop hsame]
    rfl

end Scan

theorem Source.scan_bare {rc : ReaderConfig} {skip : Bool} {s : Source}
    (hkept : ∀ e, (s.scan (rc.scan true true)).ending ≠ .failed e)
    (hbare : ∀ e, (s.scan (rc.scan false skip)).ending ≠ .failed e) :
    s.scan (rc.scan false skip) =
      { s.scan (rc.scan true true) with
        items := (s.scan (rc.scan true true)).items.map ScanItem.bare } := by
  unfold scan at hkept hbare ⊢
  split
  · next e hmagic =>
    rw [hmagic] at hkept
    exact absurd rfl (hkept e)
  · next rest hmagic =>
    rw [hmagic] at hkept hbare
    exact Scan.blocks_bare hkept hbare

end SeriesLog
