import SeriesLog.Proofs.Scan.Bare
import SeriesLog.Scan.File

/-! # A file and its stream

What is read from the next bytes of a source alone is found in a window that holds them. Whatever
stands at a block boundary is read in this way, so that the scan of a file, which unpacks the blocks
one by one, is the scan of all its bytes. -/
namespace SeriesLog

namespace Source

/-- The next `count` bytes of a source. Where there are fewer, the window ends as the source does. -/
def window (s : Source) (count : Nat) : Source :=
  ⟨s.bytes.take count, if s.bytes.length < count then s.fault else none⟩

/-- What is left of a window when the bytes in front are taken, as of the source itself. -/
def inWindow {α : Type} (more : Nat) (p : α × Source) : α × Source := (p.1, p.2.window more)

theorem window_of_short {s : Source} {count : Nat} (h : s.bytes.length < count) :
    s.window count = s := by
  rw [window, List.take_of_length_le (Nat.le_of_lt h), if_pos h]

theorem take_window (s : Source) (count more : Nat) (error : Shortfall → FormatError) :
    (s.window (count + more)).take count error = (s.take count error).map (inWindow more) := by
  by_cases hle : count ≤ s.bytes.length
  · have hwindow : count ≤ (s.bytes.take (count + more)).length := by
      rw [List.length_take]
      omega
    have hfault : s.bytes.length < count + more ↔ s.bytes.length - count < more := by omega
    simp only [take, read_eq, window, if_pos hle, if_pos hwindow, Except.map, inWindow,
      List.take_take, List.drop_take, List.length_drop, hfault,
      Nat.min_eq_left (Nat.le_add_right count more), Nat.add_sub_cancel_left]
  · have hshort : s.bytes.length < count + more := by omega
    simp only [window_of_short hshort, take, read_eq, if_neg hle, Except.map]

theorem readBody_window (s : Source) (type : BlockType) (size limit more : Nat) :
    (s.window (size + more)).readBody type size limit =
      (s.readBody type size limit).map (inWindow more) := by
  unfold readBody
  split
  · rfl
  · exact s.take_window size more _

theorem skipBody_window (s : Source) (type : BlockType) (size more : Nat) :
    (s.window (size + more)).skipBody type size = (s.skipBody type size).map (·.window more) := by
  unfold skipBody
  rw [take_window]
  cases s.take size (errorOf fun got => .body got size type) <;> rfl

theorem readHeader?_window (s : Source) (more : Nat) :
    (s.window (headerSize + more)).readHeader? =
      s.readHeader?.map (Option.map (inWindow more)) := by
  unfold readHeader?
  rw [take_window]
  cases s.take headerSize (errorOf .partialHeader) with
  | error e =>
    cases e with
    | truncated place =>
      cases place with
      | partialHeader got => cases got <;> rfl
      | _ => rfl
    | _ => rfl
  | ok found =>
    simp only [Except.map, inWindow]
    cases headerOf found.1 <;> rfl

end Source

namespace Scan

open Source (inWindow)

variable {c : ScanConfig}

theorem readDescriptor_window (c : ScanConfig) (size : Nat) (s : Source) (more : Nat) :
    readDescriptor c size (s.window ((if c.maxBlockSize < size then 0 else size) + more)) =
      (readDescriptor c size s).map (inWindow more) := by
  by_cases hlarge : c.maxBlockSize < size
  · have hrefused : ∀ s : Source, readDescriptor c size s =
        .error (.tooLarge size c.maxBlockSize) := by
      intro s
      simp only [readDescriptor, Source.readBody, if_pos hlarge]
    rw [hrefused, hrefused]
    rfl
  · rw [if_neg hlarge]
    unfold readDescriptor
    rw [Source.readBody_window]
    cases s.readBody .descriptor size c.maxBlockSize with
    | error e => rfl
    | ok found =>
      simp only [Except.map, inWindow]
      cases Descriptor.decode found.1 with
      | ok d => rfl
      | error e =>
        dsimp only
        split <;> rfl

theorem readPayload_window (keep : Bool) (size limit : Nat) (s : Source) (more : Nat) :
    readPayload keep size limit (s.window (size + more)) =
      (readPayload keep size limit s).map (inWindow more) := by
  unfold readPayload
  cases keep with
  | true =>
    simp only [if_true]
    rw [Source.readBody_window]
    cases s.readBody .data size limit <;> rfl
  | false =>
    simp only [Bool.false_eq_true, if_false]
    rw [Source.skipBody_window]
    cases s.skipBody .data size <;> rfl

theorem readData_window (c : ScanConfig) (offset size : Nat) (s : Source) (more : Nat) :
    readData c offset size (s.window (size + more)) =
      (readData c offset size s).map (inWindow more) := by
  unfold readData
  by_cases hsmall : size < descriptorSizeBytes
  · rw [if_pos hsmall, if_pos hsmall]
    rfl
  rw [if_neg hsmall, if_neg hsmall]
  have hparts : size + more = descriptorSizeBytes + (size - descriptorSizeBytes + more) := by omega
  rw [hparts, Source.take_window]
  cases s.take descriptorSizeBytes (Source.exactErrorOf .dataBlock) with
  | error e => rfl
  | ok found =>
    obtain ⟨sizeBytes, rest⟩ := found
    simp only [Except.map, inWindow]
    by_cases hover : size - descriptorSizeBytes < Bytes.ofLittleEndian sizeBytes
    · rw [if_pos hover, if_pos hover]
    rw [if_neg hover, if_neg hover]
    have hinner : size - descriptorSizeBytes + more = Bytes.ofLittleEndian sizeBytes +
        (size - descriptorSizeBytes - Bytes.ofLittleEndian sizeBytes + more) := by omega
    rw [hinner, Source.readBody_window]
    cases rest.readBody .data (Bytes.ofLittleEndian sizeBytes) c.maxBlockSize with
    | error e => rfl
    | ok found =>
      obtain ⟨bytes, rest⟩ := found
      simp only [Except.map, inWindow]
      cases DataDescriptor.decode? bytes with
      | none => rfl
      | some d =>
        dsimp only
        rw [readPayload_window]
        cases readPayload c.payloads
          (size - descriptorSizeBytes - Bytes.ofLittleEndian sizeBytes) c.maxBlockSize rest <;> rfl

theorem readReserved_window (c : ScanConfig) (type : BlockType) (size : Nat) (s : Source)
    (more : Nat) :
    readReserved c type size (s.window (size + more)) =
      (readReserved c type size s).map (inWindow more) := by
  unfold readReserved
  split
  · rfl
  · rw [Source.skipBody_window]
    cases s.skipBody type size <;> rfl

theorem readTrailer_window (s : Source) :
    readTrailer (s.window (trailerSize - headerSize)) = readTrailer s := by
  have htake := s.take_window (trailerSize - headerSize) 0 (Source.exactErrorOf .trailer)
  rw [Nat.add_zero] at htake
  unfold readTrailer
  rw [htake]
  cases s.take (trailerSize - headerSize) (Source.exactErrorOf .trailer) <;> rfl

namespace Step

/-- The same step, with nothing of the source behind the block. -/
def alone : Step → Step
  | .block size content rest => .block size content (rest.window 0)
  | .trailer t => .trailer t
  | .stop ending => .stop ending

theorem alone_ofError (e : FormatError) : (ofError e).alone = ofError e := by
  cases e <;> rfl

theorem alone_ofRead (size : Nat) (read : Except FormatError (BlockContent × Source)) :
    (ofRead size read).alone = ofRead size (read.map (inWindow 0)) := by
  cases read with
  | error e => exact alone_ofError e
  | ok found => rfl

end Step

/-- A step looks no further than the block that it reads. -/
theorem step_window {s rest : Source} {header : Header} (offset : Nat)
    (h : s.readHeader? = .ok (some (header, rest))) :
    step c offset (s.window (headerSize + reach c header)) = (step c offset s).alone := by
  have hwindow := s.readHeader?_window (reach c header)
  rw [h] at hwindow
  rw [step_of_header h, step_of_header hwindow]
  unfold reach
  cases header.type with
  | descriptor =>
    dsimp only
    rw [Step.alone_ofRead, ← readDescriptor_window, Nat.add_zero]
  | data =>
    dsimp only
    rw [Step.alone_ofRead, ← readData_window, Nat.add_zero]
  | reserved code above =>
    dsimp only
    rw [Step.alone_ofRead, ← readReserved_window, Nat.add_zero]
  | trailer =>
    dsimp only
    rw [readTrailer_window]
    cases readTrailer rest with
    | error e => exact (Step.alone_ofError e).symm
    | ok trailer => rfl

end Scan

namespace File

variable {f : File} {c : ScanConfig}

theorem window_eq (f : File) (offset count : Nat) :
    f.window offset count = (f.source offset).window count := by
  have hbytes := f.bytes_window offset count
  have hshort : (f.window offset count).bytes.length < count ↔
      (f.source offset).bytes.length < count := by
    rw [hbytes, List.length_take, source]
    dsimp only
    omega
  exact congrArg₂ Source.mk hbytes (if_congr hshort rfl rfl)

theorem step_eq (f : File) (c : ScanConfig) (offset : Nat) :
    f.step c offset = (Scan.step c offset (f.source offset)).alone := by
  have hheader := (f.source offset).readHeader?_window 0
  rw [Nat.add_zero] at hheader
  unfold step
  rw [window_eq, hheader]
  cases h : (f.source offset).readHeader? with
  | error e =>
    rw [Scan.step, h]
    exact (Scan.Step.alone_ofError e).symm
  | ok found =>
    cases found with
    | none =>
      rw [Scan.step, h]
      rfl
    | some found =>
      dsimp only [Except.map, Option.map, Source.inWindow]
      rw [window_eq]
      exact Scan.step_window offset h

theorem step_of_block {offset size : Nat} {content : BlockContent} {rest : Source}
    (h : f.step c offset = .block size content rest) :
    Scan.step c offset (f.source offset) =
      .block size content (f.source (offset + headerSize + size)) := by
  rw [step_eq] at h
  cases hstep : Scan.step c offset (f.source offset) with
  | block place found behind =>
    rw [hstep] at h
    cases h
    have hbehind : behind.bytes = (f.source (offset + headerSize + size)).bytes := by
      rw [Scan.rest_of_step hstep, source, source, List.drop_drop, Nat.add_assoc]
    have hfault : behind.fault = f.fault := (Scan.step_block hstep).2
    exact congrArg _ (congrArg₂ Source.mk hbehind hfault)
  | trailer trailer =>
    rw [hstep] at h
    cases h
  | stop ending =>
    rw [hstep] at h
    cases h

theorem step_of_trailer {offset : Nat} {t : Trailer} (h : f.step c offset = .trailer t) :
    Scan.step c offset (f.source offset) = .trailer t := by
  rw [step_eq] at h
  cases hstep : Scan.step c offset (f.source offset) <;> rw [hstep] at h <;> cases h
  rfl

theorem step_of_stop {offset : Nat} {ending : ScanEnding} (h : f.step c offset = .stop ending) :
    Scan.step c offset (f.source offset) = .stop ending := by
  rw [step_eq] at h
  cases hstep : Scan.step c offset (f.source offset) <;> rw [hstep] at h <;> cases h
  rfl

theorem blocks_eq (f : File) (c : ScanConfig) (offset : Nat) :
    f.blocks c offset = Scan.blocks c offset (f.source offset) := by
  induction offset using blocks.induct f c with
  | case1 offset size content rest h hle ih =>
    rw [Scan.blocks_of_block (step_of_block h), ← ih, blocks]
    split
    · next hs => rw [h] at hs; cases hs; rfl
    · next hs => rw [h] at hs; cases hs
    · next hs => rw [h] at hs; cases hs
  | case2 offset t h =>
    rw [Scan.blocks_of_trailer (step_of_trailer h), blocks]
    split
    · next hs => rw [h] at hs; cases hs
    · next hs => rw [h] at hs; cases hs; rfl
    · next hs => rw [h] at hs; cases hs
  | case3 offset ending h =>
    rw [Scan.blocks_of_stop (step_of_stop h), blocks]
    split
    · next hs => rw [h] at hs; cases hs
    · next hs => rw [h] at hs; cases hs
    · next hs => rw [h] at hs; cases hs; rfl

theorem readMagic_window (f : File) (truncation : Truncation) :
    Scan.readMagic (f.window 0 openingMagic.length) truncation =
      (Scan.readMagic (f.source 0) truncation).map (·.window 0) := by
  have htake := (f.source 0).take_window openingMagic.length 0 (Source.exactErrorOf truncation)
  rw [Nat.add_zero, ← window_eq] at htake
  unfold Scan.readMagic
  rw [htake]
  cases (f.source 0).take openingMagic.length (Source.exactErrorOf truncation) with
  | error e => rfl
  | ok found =>
    dsimp only [Except.map, Source.inWindow]
    split <;> rfl

/-- The scan of a file is that of the stream of its bytes. -/
theorem scan_eq (f : File) (c : ScanConfig) : f.scan c = (f.source 0).scan c := by
  unfold scan Source.scan
  rw [readMagic_window]
  cases h : Scan.readMagic (f.source 0) .magic with
  | error e => rfl
  | ok rest =>
    dsimp only [Except.map]
    obtain ⟨hbytes, hfault⟩ := Scan.readMagic_ok h
    have hrest : rest.bytes = (f.source openingMagic.length).bytes := by
      rw [source, ← Nat.zero_add openingMagic.length, ← List.drop_drop]
      exact (List.drop_left' rfl).symm.trans (congrArg (List.drop _) hbytes.symm)
    rw [blocks_eq, show rest = f.source openingMagic.length from congrArg₂ Source.mk hrest hfault]

end File

end SeriesLog
