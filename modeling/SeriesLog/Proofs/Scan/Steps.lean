import SeriesLog.Proofs.Block.Data
import SeriesLog.Proofs.Block.Framing
import SeriesLog.Scan

/-! # Steps of a scan

At a block boundary a scan takes a whole block, a whole trailer, or, where the source stops
inside one of the two, nothing: a source that ends is torn there. -/
namespace SeriesLog

def Trailer.encode (t : Trailer) : Bytes :=
  (Header.mk .trailer trailerDeclaredSize (by decide)).encode ++
    (Bytes.littleEndian 8 t.indexOffset.toNat ++ t.checksum ++ closingMagic)

theorem Trailer.length_encode {t : Trailer} (h : t.checksum.length = checksumSize) :
    t.encode.length = trailerSize := by
  simp [Trailer.encode, h, headerSize, checksumSize, closingMagic, trailerSize]

namespace Scan

variable {c : ScanConfig} {offset : Nat} {fault : Option DeviceFault}

inductive Reads (c : ScanConfig) : Block → BlockContent → Prop where
  | descriptor {body : Bytes} {d : Descriptor} : body.length ≤ c.maxBlockSize →
      Descriptor.decode body = .ok d → Reads c ⟨.descriptor, body⟩ (.descriptor d)
  | undecodable {body : Bytes} {e : FormatError} : body.length ≤ c.maxBlockSize →
      Descriptor.decode body = .error e → c.skipUndecodable = true →
      Reads c ⟨.descriptor, body⟩ (.undecodable e)
  | data {bytes payload : Bytes} {d : DataDescriptor} : bytes.length < 2 ^ 32 →
      bytes.length ≤ c.maxBlockSize → payload.length ≤ c.maxBlockSize →
      DataDescriptor.decode? bytes = some d →
      Reads c
        ⟨.data, Bytes.littleEndian descriptorSizeBytes bytes.length ++ bytes ++ payload⟩
        (.data d (if c.payloads then some payload else none))
  | reserved {code : UInt8} {above : 3 ≤ code} {body : Bytes} : c.strict = false →
      Reads c ⟨.reserved code above, body⟩ (.reserved code)

theorem reads_sized {d : DataDescriptor} {payload : Bytes} (hsize : d.encode.length < 2 ^ 32)
    (hlimit : (d.sized ++ payload).length ≤ c.maxBlockSize) :
    Reads c ⟨.data, d.sized ++ payload⟩ (.data d (if c.payloads then some payload else none)) := by
  simp only [List.length_append, DataDescriptor.length_sized] at hlimit
  exact .data hsize (by omega) (by omega) (DataDescriptor.decode?_encode (by omega))

theorem readMagic_ok {s rest : Source} {truncation : Truncation}
    (h : readMagic s truncation = .ok rest) :
    s.bytes = openingMagic ++ rest.bytes ∧ rest.fault = s.fault := by
  unfold readMagic at h
  split at h
  · cases h
  next found after htake =>
  obtain ⟨_, hbytes, hfault⟩ := Source.take_ok htake
  split at h
  · next hmagic =>
    cases h
    rw [← hmagic]
    exact ⟨hbytes, hfault⟩
  · cases h

theorem readMagic_append (bytes : Bytes) (fault : Option DeviceFault) (truncation : Truncation) :
    readMagic ⟨openingMagic ++ bytes, fault⟩ truncation = .ok ⟨bytes, fault⟩ := by
  unfold readMagic
  rw [Source.take_append openingMagic bytes rfl]
  exact if_pos rfl

theorem readDescriptor_of_reads {body : Bytes} {content : BlockContent}
    (h : Reads c ⟨.descriptor, body⟩ content) (rest : Bytes) :
    readDescriptor c body.length ⟨body ++ rest, fault⟩ = .ok (content, ⟨rest, fault⟩) := by
  cases h with
  | descriptor hlimit hd =>
    simp [readDescriptor, Source.readBody_append body rest rfl hlimit, hd]
  | undecodable hlimit hd hskip =>
    simp [readDescriptor, Source.readBody_append body rest rfl hlimit, hd, hskip]

theorem readDescriptor_short {bytes : Bytes} {size : Nat}
    (hlt : bytes.length < size) (hlimit : size ≤ c.maxBlockSize) :
    ∃ place, readDescriptor c size ⟨bytes, none⟩ = .error (.truncated place) := by
  refine ⟨.body bytes.length size .descriptor, ?_⟩
  simp only [readDescriptor, Source.readBody_short hlt hlimit]

theorem readPayload_append {payload rest : Bytes} {keep : Bool} {limit : Nat}
    (hlimit : keep = true → payload.length ≤ limit) :
    readPayload keep payload.length limit ⟨payload ++ rest, fault⟩ =
      .ok (if keep then some payload else none, ⟨rest, fault⟩) := by
  unfold readPayload
  cases keep with
  | true => simp [Source.readBody_append payload rest rfl (hlimit rfl), Except.map]
  | false => simp [Source.skipBody_append payload rest rfl, Except.map]

theorem readPayload_short (keep : Bool) {bytes : Bytes}
    {size limit : Nat} (hlt : bytes.length < size) (hlimit : size ≤ limit) :
    ∃ place, readPayload keep size limit ⟨bytes, none⟩ = .error (.truncated place) := by
  refine ⟨.body bytes.length size .data, ?_⟩
  unfold readPayload
  cases keep with
  | true => simp [Source.readBody_short hlt hlimit, Except.map]
  | false => simp [Source.skipBody_short hlt, Except.map]

/-- Behind the size of its descriptor a data block has the descriptor and the payload. -/
theorem readData_sized {bytes : Bytes} (hsize : bytes.length < 2 ^ 32) (payload rest : Bytes) :
    readData c offset
        (Bytes.littleEndian descriptorSizeBytes bytes.length ++ bytes ++ payload).length
        ⟨Bytes.littleEndian descriptorSizeBytes bytes.length ++ bytes ++ payload ++ rest, fault⟩ =
      ((Source.mk (bytes ++ (payload ++ rest)) fault).readBody .data bytes.length
        c.maxBlockSize).bind fun p =>
          (DataDescriptor.decode? p.1).elim (.error .undecodable) fun d =>
            (readPayload c.payloads payload.length c.maxBlockSize p.2).map
              fun q => (.data d q.1, q.2) := by
  have hsizeBytes : (Bytes.littleEndian descriptorSizeBytes bytes.length).length =
      descriptorSizeBytes := Bytes.length_littleEndian _ _
  have hvalue : Bytes.ofLittleEndian (Bytes.littleEndian descriptorSizeBytes bytes.length) =
      bytes.length := Bytes.ofLittleEndian_littleEndian (by simpa [descriptorSizeBytes] using hsize)
  have hpayloadSize : descriptorSizeBytes + (bytes.length + payload.length) -
      descriptorSizeBytes - bytes.length = payload.length := by omega
  unfold readData
  simp only [List.length_append, hsizeBytes, List.append_assoc]
  rw [if_neg (by omega), Source.take_append _ _ hsizeBytes]
  simp only [hvalue]
  rw [if_neg (by omega)]
  cases (Source.mk (bytes ++ (payload ++ rest)) fault).readBody .data bytes.length
      c.maxBlockSize with
  | error e => rfl
  | ok p =>
    obtain ⟨found, after⟩ := p
    cases hd : DataDescriptor.decode? found with
    | none => simp only [Except.bind, hd, Option.elim_none]
    | some d => simp only [Except.bind, hd, hpayloadSize, Option.elim_some]

/-- The three parts of a data block are read one after another. A payload is held to the limit only
where it is kept. -/
theorem readData_append {bytes payload : Bytes} {d : DataDescriptor}
    (hsize : bytes.length < 2 ^ 32) (hbytes : bytes.length ≤ c.maxBlockSize)
    (hpayload : c.payloads = true → payload.length ≤ c.maxBlockSize)
    (hd : DataDescriptor.decode? bytes = some d) (rest : Bytes) :
    readData c offset
        (Bytes.littleEndian descriptorSizeBytes bytes.length ++ bytes ++ payload).length
        ⟨Bytes.littleEndian descriptorSizeBytes bytes.length ++ bytes ++ payload ++ rest, fault⟩ =
      .ok (.data d (if c.payloads then some payload else none), ⟨rest, fault⟩) := by
  rw [readData_sized hsize, Source.readBody_append bytes _ rfl hbytes]
  simp only [Except.bind, hd, Option.elim_some, readPayload_append hpayload]
  rfl

theorem readData_of_reads {body : Bytes} {content : BlockContent}
    (h : Reads c ⟨.data, body⟩ content) (rest : Bytes) :
    readData c offset body.length ⟨body ++ rest, fault⟩ = .ok (content, ⟨rest, fault⟩) := by
  cases h with
  | data hsize hbytes hpayload hd =>
    exact readData_append hsize hbytes (fun _ => hpayload) hd rest

theorem readData_short (offset : Nat) {body bytes missing : Bytes} {content : BlockContent}
    (h : Reads c ⟨.data, body⟩ content) (hcut : bytes ++ missing = body) (hmissing : missing ≠ []) :
    ∃ place, readData c offset body.length ⟨bytes, none⟩ = .error (.truncated place) := by
  have hpos := List.length_pos_iff.2 hmissing
  cases h with
  | @data descriptor payload d hsize hbytes hpayload hd =>
    have hsizeBytes : (Bytes.littleEndian descriptorSizeBytes descriptor.length).length =
        descriptorSizeBytes := Bytes.length_littleEndian _ _
    have hvalue : Bytes.ofLittleEndian (Bytes.littleEndian descriptorSizeBytes descriptor.length) =
        descriptor.length :=
      Bytes.ofLittleEndian_littleEndian (by simpa [descriptorSizeBytes] using hsize)
    have hpayloadSize : descriptorSizeBytes + (descriptor.length + payload.length) -
        descriptorSizeBytes - descriptor.length = payload.length := by omega
    rw [List.append_assoc] at hcut
    unfold readData
    simp only [List.length_append, hsizeBytes, List.append_assoc]
    rw [if_neg (by omega)]
    rcases prefix_cases hcut with hfirst | ⟨tail, rfl, htail⟩
    · rw [hsizeBytes] at hfirst
      rw [Source.take_short hfirst]
      exact ⟨_, rfl⟩
    · rw [Source.take_append _ _ hsizeBytes]
      simp only [hvalue]
      rw [if_neg (by omega)]
      rcases prefix_cases htail with hsecond | ⟨last, rfl, hlast⟩
      · rw [Source.readBody_short hsecond hbytes]
        exact ⟨_, rfl⟩
      · rw [Source.readBody_append descriptor last rfl hbytes]
        have hthird : last.length < payload.length := by
          rw [← hlast, List.length_append]
          omega
        obtain ⟨place, hplace⟩ := readPayload_short c.payloads hthird hpayload
        simp only [hd, hpayloadSize, hplace]
        exact ⟨place, rfl⟩

theorem readReserved_of_reads {code : UInt8} {above : 3 ≤ code} {body : Bytes}
    {content : BlockContent} (h : Reads c ⟨.reserved code above, body⟩ content) (rest : Bytes) :
    readReserved c (.reserved code above) body.length ⟨body ++ rest, fault⟩ =
      .ok (content, ⟨rest, fault⟩) := by
  cases h with
  | reserved hstrict =>
    simp [readReserved, hstrict, Source.skipBody_append body rest rfl, Except.map, BlockType.code]

theorem readReserved_short (type : BlockType) {bytes : Bytes} {size : Nat}
    (hstrict : c.strict = false) (hlt : bytes.length < size) :
    ∃ place, readReserved c type size ⟨bytes, none⟩ = .error (.truncated place) := by
  refine ⟨.body bytes.length size type, ?_⟩
  simp [readReserved, hstrict, Source.skipBody_short hlt, Except.map]

theorem readTrailer_append {t : Trailer} (h : t.checksum.length = checksumSize) (rest : Bytes) :
    readTrailer ⟨Bytes.littleEndian 8 t.indexOffset.toNat ++ t.checksum ++ closingMagic ++ rest,
      fault⟩ = .ok t := by
  have hoffset : (Bytes.littleEndian 8 t.indexOffset.toNat).length = 8 :=
    Bytes.length_littleEndian _ _
  have hvalue : Bytes.ofLittleEndian (Bytes.littleEndian 8 t.indexOffset.toNat) =
      t.indexOffset.toNat := Bytes.ofLittleEndian_littleEndian t.indexOffset.toNat_lt
  have hlen : (Bytes.littleEndian 8 t.indexOffset.toNat ++ t.checksum ++ closingMagic).length =
      trailerSize - headerSize := by
    simp [h, checksumSize, closingMagic, trailerSize, headerSize]
  have hmagic : (Bytes.littleEndian 8 t.indexOffset.toNat ++ t.checksum ++ closingMagic).drop
      (8 + checksumSize) = closingMagic := List.drop_left' (by simp [h])
  have htake : (Bytes.littleEndian 8 t.indexOffset.toNat ++ t.checksum ++ closingMagic).take 8 =
      Bytes.littleEndian 8 t.indexOffset.toNat := by
    rw [List.append_assoc, List.take_left' hoffset]
  have hchecksum : ((Bytes.littleEndian 8 t.indexOffset.toNat ++ t.checksum ++
      closingMagic).drop 8).take checksumSize = t.checksum := by
    rw [List.append_assoc, List.drop_left' hoffset, List.take_left' h]
  unfold readTrailer
  rw [Source.take_append _ rest hlen]
  simp only [hmagic, htake, hvalue, hchecksum, UInt64.ofNat_toNat, if_true]

theorem readTrailer_ok {s : Source} {t : Trailer} (h : readTrailer s = .ok t) :
    t.checksum.length = checksumSize ∧ ∃ rest, s.bytes =
      Bytes.littleEndian 8 t.indexOffset.toNat ++ t.checksum ++ closingMagic ++ rest := by
  unfold readTrailer at h
  split at h
  · cases h
  next bytes rest htake =>
  obtain ⟨hlength, hbytes, _⟩ := Source.take_ok htake
  have hsize : trailerSize - headerSize = 8 + checksumSize + closingMagic.length := rfl
  rw [hsize] at hlength
  dsimp only at h
  split at h
  · next hmagic =>
    cases h
    have hoffset : (bytes.take 8).length = 8 := by
      rw [List.length_take]
      omega
    have hlt : Bytes.ofLittleEndian (bytes.take 8) < 2 ^ 64 := by
      have hlt := Bytes.ofLittleEndian_lt (bytes.take 8)
      rw [hoffset] at hlt
      exact hlt
    have hnumber : Bytes.littleEndian 8 (Bytes.ofLittleEndian (bytes.take 8)) = bytes.take 8 := by
      have hsame := Bytes.littleEndian_ofLittleEndian (bytes.take 8)
      rw [hoffset] at hsame
      exact hsame
    refine ⟨?_, rest.bytes, ?_⟩
    · rw [List.length_take, List.length_drop]
      omega
    · dsimp only
      rw [UInt64.toNat_ofNat', Nat.mod_eq_of_lt hlt, hnumber, ← hmagic, hbytes, ← List.drop_drop,
        List.append_assoc, List.append_assoc, ← List.append_assoc (List.take checksumSize _),
        List.take_append_drop, ← List.append_assoc, List.take_append_drop]
  · cases h

theorem readTrailer_short {bytes : Bytes} (hlt : bytes.length < trailerSize - headerSize) :
    readTrailer ⟨bytes, none⟩ = .error (.truncated .trailer) := by
  unfold readTrailer
  rw [Source.take_short hlt]
  rfl

def Step.ofRead (size : Nat) : Except FormatError (BlockContent × Source) → Step
  | .ok (content, rest) => .block size content rest
  | .error e => .ofError e

def Step.ofTrailer : Except FormatError Trailer → Step
  | .ok t => .trailer t
  | .error e => .ofError e

theorem Step.ofError_ne_trailer {e : FormatError} {t : Trailer} : ofError e ≠ .trailer t := by
  cases e <;> nofun

theorem Step.ofRead_ne_trailer {size : Nat} {read : Except FormatError (BlockContent × Source)}
    {t : Trailer} : ofRead size read ≠ .trailer t := by
  cases read with
  | ok found => nofun
  | error e => exact ofError_ne_trailer

theorem Step.ofTrailer_eq_trailer {read : Except FormatError Trailer} {t : Trailer}
    (h : ofTrailer read = .trailer t) : read = .ok t := by
  cases read with
  | ok found =>
    cases h
    rfl
  | error e => exact absurd h ofError_ne_trailer

theorem Step.ofError_eq_stop {e : FormatError} {ending : ScanEnding}
    (h : ofError e = .stop ending) : ending = .torn ∨ ∃ e, ending = .failed e := by
  cases e with
  | truncated place =>
    cases h
    exact .inl rfl
  | _ =>
    cases h
    exact .inr ⟨_, rfl⟩

theorem Step.ofRead_eq_stop {size : Nat} {read : Except FormatError (BlockContent × Source)}
    {ending : ScanEnding} (h : ofRead size read = .stop ending) :
    ending = .torn ∨ ∃ e, ending = .failed e := by
  cases read with
  | ok found => cases h
  | error e => exact ofError_eq_stop h

theorem Step.ofTrailer_eq_stop {read : Except FormatError Trailer} {ending : ScanEnding}
    (h : ofTrailer read = .stop ending) : ending = .torn ∨ ∃ e, ending = .failed e := by
  cases read with
  | ok t => cases h
  | error e => exact ofError_eq_stop h

theorem step_of_header {s rest : Source} {header : Header}
    (h : s.readHeader? = .ok (some (header, rest))) :
    step c offset s =
      match header.type with
      | .descriptor => .ofRead header.size (readDescriptor c header.size rest)
      | .data => .ofRead header.size (readData c offset header.size rest)
      | .reserved code above =>
        .ofRead header.size (readReserved c (.reserved code above) header.size rest)
      | .trailer => .ofTrailer (readTrailer rest) := by
  unfold step
  rw [h]
  cases htype : header.type with
  | descriptor =>
    simp only [htype]
    cases readDescriptor c header.size rest <;> rfl
  | data =>
    simp only [htype]
    cases readData c offset header.size rest <;> rfl
  | reserved code above =>
    simp only [htype]
    cases readReserved c (.reserved code above) header.size rest <;> rfl
  | trailer =>
    simp only [htype]
    cases readTrailer rest <;> rfl

theorem step_eq_block {size : Nat} {s rest : Source} {content : BlockContent}
    (h : step c offset s = .block size content rest) :
    ∃ header s₁, s.readHeader? = .ok (some (header, s₁)) ∧ header.size = size ∧
      (header.type = .descriptor ∧ readDescriptor c size s₁ = .ok (content, rest) ∨
        header.type = .data ∧ readData c offset size s₁ = .ok (content, rest) ∨
        ∃ code above, header.type = .reserved code above ∧
          readReserved c header.type size s₁ = .ok (content, rest)) := by
  unfold step at h
  split at h
  · next e _ => cases e <;> simp [Step.ofError] at h
  · cases h
  next header s₁ hheader =>
  dsimp only at h
  split at h
  · next hbody =>
    cases h
    refine ⟨header, s₁, hheader, rfl, ?_⟩
    split at hbody
    · next htype =>
      injection hbody with hbody
      exact .inl ⟨htype, hbody⟩
    · next htype =>
      injection hbody with hbody
      exact .inr (.inl ⟨htype, hbody⟩)
    · next code above htype =>
      injection hbody with hbody
      exact .inr (.inr ⟨code, above, htype, hbody⟩)
    · cases hbody
  · cases h
  · next e _ => cases e <;> simp [Step.ofError] at h
  · next e _ => cases e <;> simp [Step.ofError] at h

theorem step_eq_trailer {s : Source} {t : Trailer} (h : step c offset s = .trailer t) :
    ∃ (header : Header) (rest : Bytes), header.type = .trailer ∧
      t.checksum.length = checksumSize ∧ s.bytes = header.encode ++
        (Bytes.littleEndian 8 t.indexOffset.toNat ++ t.checksum ++ closingMagic ++ rest) := by
  cases hheader : s.readHeader? with
  | error e =>
    rw [step, hheader] at h
    exact absurd h Step.ofError_ne_trailer
  | ok found =>
    cases found with
    | none =>
      rw [step, hheader] at h
      cases h
    | some found =>
      obtain ⟨header, after⟩ := found
      have hread : header.type = .trailer ∧ readTrailer after = .ok t := by
        rw [step_of_header hheader] at h
        split at h
        · exact absurd h Step.ofRead_ne_trailer
        · exact absurd h Step.ofRead_ne_trailer
        · exact absurd h Step.ofRead_ne_trailer
        · next htype => exact ⟨htype, Step.ofTrailer_eq_trailer h⟩
      obtain ⟨hchecksum, rest, hrest⟩ := readTrailer_ok hread.2
      refine ⟨header, rest, hread.1, hchecksum, ?_⟩
      rw [← hrest]
      exact (Source.readHeader?_ok hheader).1

theorem step_nil : step c offset ⟨[], none⟩ = .stop .boundary := by
  unfold step
  rw [Source.readHeader?_nil]

theorem step_block_append {b : Block} {content : BlockContent} (h : Reads c b content)
    (hsize : b.body.length ≤ maxBodySize) (rest : Bytes) :
    step c offset ⟨b.encode ++ rest, fault⟩ = .block b.body.length content ⟨rest, fault⟩ := by
  unfold step
  rw [b.encode_eq hsize, List.append_assoc, Source.readHeader?_append]
  obtain ⟨type, body⟩ := b
  simp only [Block.header]
  cases type with
  | descriptor => simp only [readDescriptor_of_reads h]
  | data => simp only [readData_of_reads h]
  | trailer => cases h
  | reserved code above => simp only [readReserved_of_reads h]

theorem step_descriptor_large {body : Bytes}
    (hmax : body.length ≤ maxBodySize) (hlarge : c.maxBlockSize < body.length) (rest : Bytes) :
    step c offset ⟨(Block.mk .descriptor body).encode ++ rest, fault⟩ =
      .stop (.failed (.tooLarge body.length c.maxBlockSize)) := by
  have hread : (Source.mk (body ++ rest) fault).readBody .descriptor body.length c.maxBlockSize =
      .error (.tooLarge body.length c.maxBlockSize) := if_pos hlarge
  unfold step
  rw [Block.encode_eq _ hmax, List.append_assoc, Source.readHeader?_append]
  simp only [Block.header, readDescriptor, hread]
  rfl

theorem step_data {body : Bytes} (hmax : body.length ≤ maxBodySize) (rest : Bytes) :
    step c offset ⟨(Block.mk .data body).encode ++ rest, fault⟩ =
      match readData c offset body.length ⟨body ++ rest, fault⟩ with
      | .ok (content, after) => .block body.length content after
      | .error e => .ofError e := by
  unfold step
  rw [Block.encode_eq _ hmax, List.append_assoc, Source.readHeader?_append]
  simp only [Block.header]
  cases readData c offset body.length ⟨body ++ rest, fault⟩ with
  | ok found => rfl
  | error e => rfl

theorem step_block_torn {b : Block} {content : BlockContent} (h : Reads c b content)
    (hsize : b.body.length ≤ maxBodySize) {bytes missing : Bytes}
    (hcut : bytes ++ missing = b.encode) (hbytes : bytes ≠ []) (hmissing : missing ≠ []) :
    step c offset ⟨bytes, none⟩ = .stop .torn := by
  have hpos := List.length_pos_iff.2 hbytes
  have hmore := List.length_pos_iff.2 hmissing
  rw [b.encode_eq hsize] at hcut
  unfold step
  rcases prefix_cases hcut with hheader | ⟨part, rfl, hpart⟩
  · rw [Header.length_encode] at hheader
    rw [Source.readHeader?_short hpos hheader]
    rfl
  · have hlt : part.length < b.body.length := by
      rw [← hpart, List.length_append]
      omega
    rw [Source.readHeader?_append]
    obtain ⟨type, body⟩ := b
    simp only [Block.header] at hpart hlt ⊢
    cases type with
    | descriptor =>
      have hlimit : body.length ≤ c.maxBlockSize := by cases h <;> assumption
      obtain ⟨place, hplace⟩ := readDescriptor_short hlt hlimit
      simp only [hplace, Step.ofError]
    | data =>
      obtain ⟨place, hplace⟩ := readData_short offset h hpart hmissing
      simp only [hplace, Step.ofError]
    | trailer => cases h
    | reserved code above =>
      cases h with
      | reserved hstrict =>
        obtain ⟨place, hplace⟩ := readReserved_short (.reserved code above) hstrict hlt
        simp only [hplace, Step.ofError]

theorem step_trailer_append {t : Trailer} (h : t.checksum.length = checksumSize) (rest : Bytes) :
    step c offset ⟨t.encode ++ rest, fault⟩ = .trailer t := by
  unfold step Trailer.encode
  rw [List.append_assoc, Source.readHeader?_append]
  simp only [readTrailer_append h]

theorem step_trailer_torn {t : Trailer} (h : t.checksum.length = checksumSize)
    {bytes missing : Bytes} (hcut : bytes ++ missing = t.encode) (hbytes : bytes ≠ [])
    (hmissing : missing ≠ []) : step c offset ⟨bytes, none⟩ = .stop .torn := by
  have hpos := List.length_pos_iff.2 hbytes
  have hmore := List.length_pos_iff.2 hmissing
  have hlen := congrArg List.length hcut
  rw [Trailer.length_encode h, List.length_append] at hlen
  unfold step
  rcases prefix_cases hcut with hheader | ⟨part, rfl, hpart⟩
  · rw [Header.length_encode] at hheader
    rw [Source.readHeader?_short hpos hheader]
    rfl
  · rw [List.length_append, Header.length_encode] at hlen
    have hshort := readTrailer_short (show part.length < trailerSize - headerSize by omega)
    rw [Source.readHeader?_append]
    simp only [hshort]
    rfl

end Scan

end SeriesLog
