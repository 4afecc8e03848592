import SeriesLog.Proofs.Scan.Logs

/-! # Scans of logs that are not sealed

A log that is not sealed ends at the boundary behind its last block. A scan comes there or ends with
an error at the first block that is too large for it, and in neither case does the log look sealed
or torn. -/
namespace SeriesLog

variable {c : ScanConfig} {annotations : Labels} {journal : List Addition} {found : List SeriesState}
  {offset : Nat} {fault : Option DeviceFault}

/-- Whether all that a scan reads of an addition is within its limit. The payload of a data block is
read only if it is kept. -/
def Addition.Within (c : ScanConfig) : Addition → Prop
  | series d => (Descriptor.encode (.series d)).length ≤ c.maxBlockSize
  | data d payload => d.encode.length ≤ c.maxBlockSize ∧
      (c.payloads = true → payload.length ≤ c.maxBlockSize)

theorem Addition.within_of_le {a : Addition} (h : a.block.body.length ≤ c.maxBlockSize) :
    a.Within c := by
  cases a with
  | series d => exact h
  | data d payload =>
    simp only [block, List.length_append, DataDescriptor.length_sized] at h
    exact ⟨by omega, fun _ => by omega⟩

theorem Admits.sized_lt {d : DataDescriptor} {payload : Bytes}
    (h : Admits found (.data d payload)) : d.encode.length < 2 ^ 32 := by
  cases h with
  | data _ _ hsize => exact hsize

namespace Scan

theorem step_addition {a : Addition} (ha : Admits found a) (htyped : a.Typed)
    (hmax : a.block.body.length ≤ maxBodySize) (hwithin : a.Within c) (rest : Bytes) :
    step c offset ⟨a.block.encode ++ rest, fault⟩ =
      .block a.block.body.length (a.content c.payloads) ⟨rest, fault⟩ := by
  cases a with
  | series d =>
    have hsize : (Descriptor.encode (.series d)).length < 2 ^ 64 := by
      simp only [Addition.block, maxBodySize] at hmax
      omega
    have hdecode := Descriptor.decode_encode hsize (valid_of_admits ha htyped)
    exact step_block_append (.descriptor hwithin hdecode) hmax rest
  | data d payload =>
    obtain ⟨hdescriptor, hpayload⟩ := hwithin
    have hsize := ha.sized_lt
    have hbody : (d.sized ++ payload).length ≤ maxBodySize := hmax
    have hread : readData c offset (d.sized ++ payload).length ⟨d.sized ++ payload ++ rest, fault⟩ =
        .ok (.data d (if c.payloads then some payload else none), ⟨rest, fault⟩) :=
      readData_append hsize hdescriptor hpayload (DataDescriptor.decode?_encode (by omega)) rest
    rw [Addition.block, step_data hbody, hread]
    rfl

theorem readData_large {d : DataDescriptor} {payload : Bytes} (hsize : d.encode.length < 2 ^ 32)
    (hlarge : ¬ (Addition.data d payload).Within c) (rest : Bytes) :
    ∃ size, c.maxBlockSize < size ∧
      readData c offset (d.sized ++ payload).length ⟨d.sized ++ payload ++ rest, fault⟩ =
        .error (.tooLarge size c.maxBlockSize) := by
  have hread := @readData_sized c offset fault d.encode hsize payload rest
  by_cases hdescriptor : d.encode.length ≤ c.maxBlockSize
  · have hkept : c.payloads = true := by
      by_contra hskipped
      exact hlarge ⟨hdescriptor, fun hkeep => absurd hkeep hskipped⟩
    have hpayload : c.maxBlockSize < payload.length := by
      by_contra hle
      exact hlarge ⟨hdescriptor, fun _ => Nat.le_of_not_lt hle⟩
    refine ⟨payload.length, hpayload, hread.trans ?_⟩
    have hbody : (Source.mk (payload ++ rest) fault).readBody .data payload.length
        c.maxBlockSize = .error (.tooLarge payload.length c.maxBlockSize) := if_pos hpayload
    have hdecode : DataDescriptor.decode? d.encode = some d :=
      DataDescriptor.decode?_encode (by omega)
    rw [Source.readBody_append d.encode _ rfl hdescriptor]
    simp only [Except.bind, hdecode, Option.elim_some, readPayload, hkept, if_true, hbody, Except.map]
  · have hlt := Nat.lt_of_not_le hdescriptor
    refine ⟨d.encode.length, hlt, hread.trans ?_⟩
    have hbody : (Source.mk (d.encode ++ (payload ++ rest)) fault).readBody .data d.encode.length
        c.maxBlockSize = .error (.tooLarge d.encode.length c.maxBlockSize) := if_pos hlt
    rw [hbody, Except.bind]

theorem step_addition_large {a : Addition} (ha : Admits found a)
    (hmax : a.block.body.length ≤ maxBodySize) (hlarge : ¬ a.Within c) (rest : Bytes) :
    ∃ size, c.maxBlockSize < size ∧ step c offset ⟨a.block.encode ++ rest, fault⟩ =
      .stop (.failed (.tooLarge size c.maxBlockSize)) := by
  cases a with
  | series d =>
    have hlt := Nat.lt_of_not_le hlarge
    exact ⟨_, hlt, step_descriptor_large hmax hlt rest⟩
  | data d payload =>
    have hbody : (d.sized ++ payload).length ≤ maxBodySize := hmax
    obtain ⟨size, hsize, hread⟩ := @readData_large c offset fault d payload ha.sized_lt hlarge rest
    refine ⟨size, hsize, ?_⟩
    rw [Addition.block, step_data hbody, hread]
    rfl

theorem blocks_journal {place : Nat} (hsound : Sound place found journal)
    (htyped : ∀ a ∈ journal, a.Typed) :
    ((∀ a ∈ journal, a.Within c) ∧
        blocks c offset ⟨journal.flatMap fun a => a.block.encode, none⟩ =
          ⟨placed offset (blocksOf c.payloads journal), .boundary,
            offset + span Addition.size journal⟩) ∨
      ∃ before a rest size, journal = before ++ a :: rest ∧ ¬ a.Within c ∧ c.maxBlockSize < size ∧
        blocks c offset ⟨journal.flatMap fun a => a.block.encode, none⟩ =
          ⟨placed offset (blocksOf c.payloads before), .failed (.tooLarge size c.maxBlockSize),
            offset + span Addition.size before⟩ := by
  -- the table of series moves with the journal, though a scan does not look at it
  induction journal generalizing offset place found with
  | nil => exact .inl ⟨fun a ha => (by cases ha), blocks_of_stop step_nil⟩
  | cons a rest ih =>
    obtain ⟨hadmits, hmax, hsoundRest⟩ := hsound
    rw [List.flatMap_cons]
    by_cases hwithin : a.Within c
    · have hstep := @step_addition c _ offset none a hadmits (htyped a List.mem_cons_self) hmax
        hwithin (rest.flatMap fun a => a.block.encode)
      have hoffset : offset + headerSize + a.block.body.length = offset + a.size := by
        simp only [Addition.size, Block.size]
        omega
      rw [blocks_of_block hstep, hoffset]
      rcases @ih _ (offset + a.size) _ hsoundRest fun b hb => htyped b (List.mem_cons_of_mem a hb)
        with ⟨hall, hwhole⟩ | ⟨before, b, later, size, rfl, hlarge, hsize, hblocks⟩
      · refine .inl ⟨?_, ?_⟩
        · intro b hb
          rcases List.mem_cons.1 hb with rfl | hb
          · exact hwithin
          · exact hall b hb
        · rw [hwhole, span_cons, ← Nat.add_assoc]
          rfl
      · right
        refine ⟨a :: before, b, later, size, rfl, hlarge, hsize, ?_⟩
        rw [hblocks, span_cons, ← Nat.add_assoc]
        rfl
    · obtain ⟨size, hsize, hstep⟩ := @step_addition_large c _ offset none a hadmits hmax hwithin
        (rest.flatMap fun a => a.block.encode)
      exact .inr ⟨[], a, rest, size, rfl, hwithin, hsize, blocks_of_stop hstep⟩

end Scan

/-- Whether all that a scan reads of the blocks of a log is within its limit. -/
structure LogWithin (c : ScanConfig) (annotations : Labels) (journal : List Addition) : Prop where
  file : (fileBlock annotations).body.length ≤ c.maxBlockSize
  additions : ∀ a ∈ journal, a.Within c

theorem LogWithin.of_le {limit : Nat} (hlimit : limit ≤ c.maxBlockSize)
    (h : ∀ b ∈ fileBlock annotations :: journal.map Addition.block, b.body.length ≤ limit) :
    LogWithin c annotations journal := by
  constructor
  · exact Nat.le_trans (h _ List.mem_cons_self) hlimit
  · intro a ha
    apply Addition.within_of_le
    exact Nat.le_trans (h _ (List.mem_cons_of_mem _ (List.mem_map_of_mem ha))) hlimit

theorem scan_opening_append (hfile : (fileBlock annotations).body.length ≤ maxBodySize)
    (hle : (fileBlock annotations).body.length ≤ c.maxBlockSize) (rest : Bytes) :
    (Source.mk (opening annotations ++ rest) fault).scan c =
      (Scan.blocks c (opening annotations).length ⟨rest, fault⟩).after
        (Scan.placed openingMagic.length (logBlocks annotations c.payloads [])) := by
  have hreads : Scan.ReadsAll c (logBlocks annotations c.payloads []) := by
    intro p hp
    rw [List.mem_singleton.1 hp]
    exact ⟨.descriptor hle (decode_fileBlock hfile), hfile⟩
  have hblocks := @Scan.blocks_append c openingMagic.length fault _ hreads rest
  have hspan : span (fun p : Block × BlockContent => p.1.size)
      (logBlocks annotations c.payloads []) = (fileBlock annotations).size := rfl
  have hopening : opening annotations ++ rest = openingMagic ++
      ((logBlocks annotations c.payloads []).flatMap (fun p => p.1.encode) ++ rest) := by
    simp [opening, logBlocks, blocksOf]
  rw [hspan, ← length_opening] at hblocks
  rw [hopening, scan_magic_append, hblocks]

theorem scan_opening_large (hfile : (fileBlock annotations).body.length ≤ maxBodySize)
    (hlarge : c.maxBlockSize < (fileBlock annotations).body.length) (rest : Bytes) :
    (Source.mk (opening annotations ++ rest) fault).scan c =
      ⟨[], .failed (.tooLarge (fileBlock annotations).body.length c.maxBlockSize),
        openingMagic.length⟩ := by
  have hstep := @Scan.step_descriptor_large c openingMagic.length fault _ hfile hlarge rest
  rw [opening, List.append_assoc, scan_magic_append]
  exact Scan.blocks_of_stop hstep

/-- A scan of a log that is not sealed yields all its blocks and ends at a boundary, or it yields
those before a block that is too large and ends with the error that says so. -/
theorem scan_unsealed (hsound : SoundIn annotations journal) (htyped : ∀ a ∈ journal, a.Typed)
    (hfile : (fileBlock annotations).body.length ≤ maxBodySize) :
    (LogWithin c annotations journal ∧
      (Source.ofBytes (logBytes annotations journal)).scan c =
        ⟨Scan.placed openingMagic.length (logBlocks annotations c.payloads journal), .boundary,
          (logBytes annotations journal).length⟩) ∨
      ¬ LogWithin c annotations journal ∧ ∃ before rest size offset,
        logBlocks annotations c.payloads journal = before ++ rest ∧ c.maxBlockSize < size ∧
        (Source.ofBytes (logBytes annotations journal)).scan c =
          ⟨Scan.placed openingMagic.length before, .failed (.tooLarge size c.maxBlockSize),
            offset⟩ := by
  rw [Source.ofBytes, length_logBytes, logBytes]
  by_cases hle : (fileBlock annotations).body.length ≤ c.maxBlockSize
  · rw [scan_opening_append hfile hle, length_opening]
    rcases @Scan.blocks_journal c journal _ (openingMagic.length + (fileBlock annotations).size) _
        hsound htyped with
      ⟨hall, hwhole⟩ | ⟨before, a, rest, size, rfl, hlarge, hsize, hblocks⟩
    · refine .inl ⟨⟨hle, hall⟩, ?_⟩
      rw [hwhole]
      rfl
    · refine .inr ⟨?_, logBlocks annotations c.payloads before, blocksOf c.payloads (a :: rest), size,
        openingMagic.length + (fileBlock annotations).size + span Addition.size before, ?_, hsize, ?_⟩
      · intro h
        apply hlarge
        apply h.additions
        exact List.mem_append_right _ List.mem_cons_self
      · simp [logBlocks, blocksOf]
      · rw [hblocks]
        rfl
  · have hlarge := Nat.lt_of_not_le hle
    exact .inr ⟨fun h => hle h.file, [], _, _, _, rfl, hlarge, scan_opening_large hfile hlarge _⟩

theorem Scan.contents_of_placed {offset : Nat} {bs cs : List (Block × BlockContent)}
    (h : placed offset bs = placed offset cs) : bs.map (·.2) = cs.map (·.2) := by
  induction bs generalizing offset cs with
  | nil =>
    cases cs with
    | nil => rfl
    | cons q cs => cases h
  | cons p bs ih =>
    cases cs with
    | nil => cases h
    | cons q cs =>
      rw [placed, placed, List.cons.injEq, ScanItem.block.injEq] at h
      obtain ⟨⟨_, hsize, hcontent⟩, hrest⟩ := h
      have hstep : offset + p.1.size = offset + q.1.size := by rw [Block.size, Block.size, hsize]
      rw [hstep] at hrest
      rw [List.map_cons, List.map_cons, hcontent, ih hrest]

theorem Addition.content_inj {a b : Addition} (h : a.content true = b.content true) : a = b := by
  cases a <;> cases b <;> simp_all [content]

theorem Readable.journal_unique {limit : Nat} {other : List Addition}
    (h : Readable annotations journal limit) (k : Readable annotations other limit)
    (hbytes : logBytes annotations journal = logBytes annotations other) : journal = other := by
  let c : ScanConfig := ⟨false, limit, true, false⟩
  have hscan : ∀ j, Readable annotations j limit →
      ((Source.ofBytes (logBytes annotations j)).scan c).items =
        Scan.placed openingMagic.length (logBlocks annotations true j) := by
    intro j hj
    have hwithin : LogWithin c annotations j :=
      ⟨hj.file_limit, fun a ha => Addition.within_of_le (hj.limit a ha)⟩
    rcases scan_unsealed hj.sound hj.typed hj.file_le with ⟨_, hwhole⟩ | ⟨hlarge, _⟩
    · rw [hwhole]
    · exact absurd hwithin hlarge
  have hitems := hscan journal h
  rw [hbytes, hscan other k] at hitems
  have hcontents := Scan.contents_of_placed hitems.symm
  simp only [logBlocks, List.map_cons, List.cons.injEq, true_and, blocksOf, List.map_map] at hcontents
  exact (List.map_inj_right fun a b hab => Addition.content_inj hab).1 hcontents

end SeriesLog
