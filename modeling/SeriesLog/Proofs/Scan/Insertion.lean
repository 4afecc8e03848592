import SeriesLog.Proofs.Scan.Bare

/-! # Reserved blocks among others

Blocks of a reserved type may stand between any two blocks of a stream. A scan that does not fail
yields the other items as if they were not there: it reads a whole block alike at every offset, and
nothing in the body of a block that it passes over is looked at. -/
namespace SeriesLog

/-- What an item says, wherever it stands; nothing for the trailer. -/
def ScanItem.content? : ScanItem → Option BlockContent
  | block _ _ content => some content
  | trailer _ _ => none

/-- A stream with so many reserved blocks put between its blocks. From some boundary on, that of the
trailer at the latest, it is left as it is. -/
inductive Padded : Nat → Bytes → Bytes → Prop where
  | rest (bytes : Bytes) : Padded 0 bytes bytes
  | keep {count : Nat} {b : Block} {bytes padded : Bytes} : b.type ≠ .trailer →
      b.body.length ≤ maxBodySize → Padded count bytes padded →
      Padded count (b.encode ++ bytes) (b.encode ++ padded)
  | insert {count : Nat} {code : UInt8} {above : 3 ≤ code} {body bytes padded : Bytes} :
      body.length ≤ maxBodySize → Padded count bytes padded →
      Padded (count + 1) bytes ((Block.mk (.reserved code above) body).encode ++ padded)

/-- What the items of a padded stream say beside those of the stream. -/
inductive Woven : Nat → List ScanItem → List ScanItem → Prop where
  | nil : Woven 0 [] []
  | keep {count : Nat} {item other : ScanItem} {items others : List ScanItem} :
      other.content? = item.content? → Woven count items others →
      Woven count (item :: items) (other :: others)
  | insert {count offset size : Nat} {code : UInt8} {items others : List ScanItem} :
      Woven count items others →
      Woven (count + 1) items (.block offset size (.reserved code) :: others)

namespace Scan

variable {c : ScanConfig} {offset other : Nat} {fault : Option DeviceFault}

theorem readData_offset (c : ScanConfig) (offset other size : Nat) (s : Source) :
    readData c other size s = readData c offset size s ∨
      ∃ what now, readData c offset size s = .error (.malformed what) ∧
        readData c other size s = .error (.malformed now) := by
  unfold readData
  by_cases hshort : size < descriptorSizeBytes
  · rw [if_pos hshort, if_pos hshort]
    exact .inr ⟨_, _, rfl, rfl⟩
  · rw [if_neg hshort, if_neg hshort]
    cases s.take descriptorSizeBytes (Source.exactErrorOf .dataBlock) with
    | error e => exact .inl rfl
    | ok p =>
      dsimp only
      by_cases hoverrun : size - descriptorSizeBytes < Bytes.ofLittleEndian p.1
      · rw [if_pos hoverrun, if_pos hoverrun]
        exact .inr ⟨_, _, rfl, rfl⟩
      · rw [if_neg hoverrun, if_neg hoverrun]
        exact .inl rfl

theorem step_offset {s : Source} {result : Step} (hstep : step c offset s = result)
    (h : ∀ e, result ≠ .stop (.failed e)) (other : Nat) : step c other s = result := by
  subst hstep
  cases hheader : s.readHeader? with
  | error e => rw [step, step, hheader]
  | ok found =>
    cases found with
    | none => rw [step, step, hheader]
    | some p =>
      obtain ⟨header, rest⟩ := p
      rw [step_of_header hheader] at h ⊢
      rw [step_of_header hheader]
      cases htype : header.type with
      | data =>
        rw [htype] at h
        rcases readData_offset c offset other header.size rest with
          hsame | ⟨what, now, hfails, _⟩
        · exact congrArg (Step.ofRead header.size) hsame
        · exact absurd (congrArg (Step.ofRead header.size) hfails) (h _)
      | _ => rfl

theorem blocks_offset {s : Source} (h : ∀ e, (blocks c offset s).ending ≠ .failed e)
    (other : Nat) :
    Woven 0 (blocks c offset s).items (blocks c other s).items ∧
      (blocks c other s).ending = (blocks c offset s).ending := by
  induction offset, s using blocks.induct c generalizing other with
  | case1 offset s size content rest hstep _ ih =>
    rw [blocks_of_block hstep] at h ⊢
    rw [blocks_of_block (step_offset hstep (fun e h => by cases h) other)]
    obtain ⟨hitems, hending⟩ := ih h (other + headerSize + size)
    exact ⟨.keep rfl hitems, hending⟩
  | case2 offset s trailer hstep =>
    rw [blocks_of_trailer hstep,
      blocks_of_trailer (step_offset hstep (fun e h => by cases h) other)]
    exact ⟨.keep rfl .nil, rfl⟩
  | case3 offset s ending hstep =>
    rw [blocks_of_stop hstep] at h ⊢
    have hother : step c other s = .stop ending := by
      apply step_offset hstep
      intro e hfailed
      cases hfailed
      exact h e rfl
    rw [blocks_of_stop hother]
    exact ⟨.nil, rfl⟩

/-- A read that fails though no byte is missing fails the scan. -/
def Fails (result : Except FormatError (BlockContent × Source)) : Prop :=
  ∃ e, result = .error e ∧ ∀ place, e ≠ .truncated place

theorem Fails.ofError {result : Except FormatError (BlockContent × Source)} (h : Fails result) :
    ∃ e, result = .error e ∧ Step.ofError e = .stop (.failed e) := by
  obtain ⟨e, he, hne⟩ := h
  refine ⟨e, he, ?_⟩
  cases e with
  | truncated place => exact absurd rfl (hne place)
  | _ => rfl

theorem whole_parts (hkeep : c.payloads = true) {bytes payload : Bytes}
    (hsize : bytes.length < 2 ^ 32) :
    let body := Bytes.littleEndian descriptorSizeBytes bytes.length ++ bytes ++ payload
    (∃ content, Reads c ⟨.data, body⟩ content) ∨
      ∀ offset rest fault, Fails (readData c offset body.length ⟨body ++ rest, fault⟩) := by
  intro body
  have hread : ∀ offset rest fault, readData c offset body.length ⟨body ++ rest, fault⟩ = _ :=
    fun offset rest fault => readData_sized hsize payload rest
  by_cases hbytes : bytes.length ≤ c.maxBlockSize
  · cases hdecode : DataDescriptor.decode? bytes with
    | none =>
      right
      intro offset rest fault
      rw [hread, Source.readBody_append bytes _ rfl hbytes]
      simp only [Except.bind, hdecode, Option.elim_none]
      exact ⟨_, rfl, nofun⟩
    | some d =>
      by_cases hpayload : payload.length ≤ c.maxBlockSize
      · exact .inl ⟨_, .data hsize hbytes hpayload hdecode⟩
      · right
        intro offset rest fault
        have hlarge : (Source.mk (payload ++ rest) fault).readBody .data payload.length
            c.maxBlockSize = .error (.tooLarge payload.length c.maxBlockSize) :=
          if_pos (Nat.lt_of_not_le hpayload)
        rw [hread, Source.readBody_append bytes _ rfl hbytes]
        simp only [Except.bind, hdecode, Option.elim_some, readPayload, hkeep, if_true, hlarge,
          Except.map]
        exact ⟨_, rfl, nofun⟩
  · right
    intro offset rest fault
    have hlarge : (Source.mk (bytes ++ (payload ++ rest)) fault).readBody .data bytes.length
        c.maxBlockSize = .error (.tooLarge bytes.length c.maxBlockSize) :=
      if_pos (Nat.lt_of_not_le hbytes)
    rw [hread, hlarge]
    exact ⟨_, rfl, nofun⟩

theorem readData_overrun {sizeBytes after : Bytes} (hsize : sizeBytes.length = descriptorSizeBytes)
    (hlt : after.length < Bytes.ofLittleEndian sizeBytes) (offset : Nat) (rest : Bytes)
    (fault : Option DeviceFault) :
    Fails (readData c offset (sizeBytes ++ after).length ⟨sizeBytes ++ after ++ rest, fault⟩) := by
  unfold readData
  rw [List.length_append, hsize, if_neg (by omega), List.append_assoc,
    Source.take_append sizeBytes _ hsize]
  simp only
  rw [if_pos (by omega)]
  exact ⟨_, rfl, nofun⟩

theorem whole_data (hkeep : c.payloads = true) (body : Bytes) :
    (∃ content, Reads c ⟨.data, body⟩ content) ∨
      ∀ offset rest fault, Fails (readData c offset body.length ⟨body ++ rest, fault⟩) := by
  cases DataBlock.layout body with
  | short hshort => exact .inr fun offset rest fault => ⟨_, if_pos hshort, nofun⟩
  | overrun hsize hlt => exact .inr (readData_overrun hsize hlt)
  | parts hsize => exact whole_parts hkeep hsize

theorem readDescriptor_fails {body : Bytes} {e : FormatError} (hlimit : body.length ≤ c.maxBlockSize)
    (hdecode : Descriptor.decode body = .error e) (hskip : ¬ c.skipUndecodable = true)
    (rest : Bytes) (fault : Option DeviceFault) :
    Fails (readDescriptor c body.length ⟨body ++ rest, fault⟩) := by
  refine ⟨e, ?_, ?_⟩
  · rw [readDescriptor, Source.readBody_append body rest rfl hlimit]
    dsimp only
    rw [hdecode]
    exact if_neg hskip
  · rintro place rfl
    exact Descriptor.decode_ne_truncated body hdecode

theorem whole_block (hstrict : c.strict = false) (hkeep : c.payloads = true) {b : Block}
    (htype : b.type ≠ .trailer) (hmax : b.body.length ≤ maxBodySize) :
    (∃ content, Reads c b content) ∨
      ∀ offset rest fault, ∃ e, step c offset ⟨b.encode ++ rest, fault⟩ = .stop (.failed e) := by
  obtain ⟨type, body⟩ := b
  cases type with
  | trailer => exact absurd rfl htype
  | descriptor =>
    by_cases hlimit : body.length ≤ c.maxBlockSize
    · cases hdecode : Descriptor.decode body with
      | ok d => exact .inl ⟨_, .descriptor hlimit hdecode⟩
      | error e =>
        by_cases hskip : c.skipUndecodable = true
        · exact .inl ⟨_, .undecodable hlimit hdecode hskip⟩
        · right
          intro offset rest fault
          obtain ⟨e, he, hstop⟩ := (readDescriptor_fails hlimit hdecode hskip rest fault).ofError
          refine ⟨e, ?_⟩
          rw [Block.encode_eq _ hmax, List.append_assoc,
            step_of_header (Source.readHeader?_append _ _)]
          exact (congrArg (Step.ofRead body.length) he).trans hstop
    · right
      intro offset rest fault
      exact ⟨_, step_descriptor_large hmax (Nat.lt_of_not_le hlimit) rest⟩
  | data =>
    rcases whole_data hkeep body with hreads | hfails
    · exact .inl hreads
    · right
      intro offset rest fault
      obtain ⟨e, he, hstop⟩ := (hfails offset rest fault).ofError
      refine ⟨e, ?_⟩
      rw [step_data hmax, he]
      exact hstop
  | reserved code above => exact .inl ⟨_, .reserved hstrict⟩

/-- A scan that does not fail yields the items of the stream also where reserved blocks stand among
them, and ends alike. -/
theorem blocks_padded (hstrict : c.strict = false) (hkeep : c.payloads = true) {count : Nat}
    {bytes padded : Bytes} (hpadded : Padded count bytes padded)
    (h : ∀ e, (blocks c offset ⟨bytes, fault⟩).ending ≠ .failed e) (other : Nat) :
    Woven count (blocks c offset ⟨bytes, fault⟩).items (blocks c other ⟨padded, fault⟩).items ∧
      (blocks c other ⟨padded, fault⟩).ending = (blocks c offset ⟨bytes, fault⟩).ending := by
  induction hpadded generalizing offset other with
  | rest bytes => exact blocks_offset h other
  | @keep count b bytes padded htype hmax _ ih =>
    rcases whole_block hstrict hkeep htype hmax with ⟨content, hreads⟩ | hfails
    · rw [blocks_of_block (step_block_append hreads hmax bytes)] at h ⊢
      rw [blocks_of_block (step_block_append hreads hmax padded)]
      obtain ⟨hitems, hending⟩ := ih h (other + headerSize + b.body.length)
      exact ⟨.keep rfl hitems, hending⟩
    · obtain ⟨e, he⟩ := hfails offset bytes fault
      rw [blocks_of_stop he] at h
      exact absurd rfl (h e)
  | @insert count code above body bytes padded hmax _ ih =>
    have hreads : Reads c ⟨.reserved code above, body⟩ (.reserved code) := .reserved hstrict
    rw [blocks_of_block (step_block_append hreads hmax padded)]
    obtain ⟨hitems, hending⟩ := ih h (other + headerSize + body.length)
    exact ⟨.insert hitems, hending⟩

end Scan
end SeriesLog
