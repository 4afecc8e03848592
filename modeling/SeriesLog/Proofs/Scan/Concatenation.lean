import SeriesLog.Proofs.Scan.Cuts

/-! # Scans invert concatenation

Whatever blocks lie one after another, with a trailer behind them and anything behind the trailer:
a scan of the stream up to some cut yields the items that are whole in front of the cut. -/
namespace SeriesLog

/-- A block as some writer makes it. -/
inductive Part where
  | descriptor (d : Descriptor)
  | data (d : DataDescriptor) (payload : Bytes)
  /-- A block of a type that has no meaning yet. -/
  | reserved (code : UInt8) (above : 3 ≤ code) (body : Bytes)

namespace Part

def block : Part → Block
  | descriptor d => ⟨.descriptor, d.encode⟩
  | data d payload => ⟨.data, d.sized ++ payload⟩
  | reserved code above body => ⟨.reserved code above, body⟩

def content (keep : Bool) : Part → BlockContent
  | descriptor d => .descriptor d
  | data d payload => .data d (if keep then some payload else none)
  | reserved code _ _ => .reserved code

def WellFormed : Part → Prop
  | descriptor d => d.encode.length ≤ maxBodySize ∧ Descriptor.decode d.encode = .ok d
  | data d payload => (d.sized ++ payload).length ≤ maxBodySize ∧ d.encode.length < 2 ^ 32
  | reserved _ _ body => body.length ≤ maxBodySize

theorem reads_block {c : ScanConfig} (hstrict : c.strict = false) {p : Part} (hp : p.WellFormed)
    (hlimit : p.block.body.length ≤ c.maxBlockSize) :
    Scan.Reads c p.block (p.content c.payloads) ∧ p.block.body.length ≤ maxBodySize := by
  cases p with
  | descriptor d => exact ⟨.descriptor hlimit hp.2, hp.1⟩
  | data d payload => exact ⟨Scan.reads_sized hp.2 hlimit, hp.1⟩
  | reserved code above body => exact ⟨.reserved hstrict, hp⟩

end Part

namespace Scan

variable {c : ScanConfig}

theorem filter_placed (offset cut : Nat) (bs : List (Block × BlockContent)) :
    (placed offset bs).filter (fun item => item.stop ≤ cut) =
      placed offset (within (fun p => p.1.size) offset cut bs) := by
  induction bs generalizing offset with
  | nil => rfl
  | cons p bs ih =>
    have hstop : (ScanItem.block offset p.1.body.length p.2).stop = offset + p.1.size := by
      simp only [ScanItem.stop, Block.size]
      omega
    rw [placed, List.filter_cons, hstop, ih]
    by_cases hwhole : offset + p.1.size ≤ cut
    · rw [within_cons_of_le (fun p : Block × BlockContent => p.1.size) hwhole, placed]
      simp only [hwhole, decide_true, if_true]
    · have hnone : within (fun p : Block × BlockContent => p.1.size) (offset + p.1.size) cut bs =
          [] := by
        apply within_eq_nil
        intro stop hmem
        have := (le_of_mem_stops hmem).1
        omega
      rw [within_cons_of_lt (fun p : Block × BlockContent => p.1.size) (by omega), hnone]
      simp only [hwhole, decide_false, Bool.false_eq_true, if_false, placed]

theorem inside_placed (offset cut : Nat) (bs : List (Block × BlockContent)) :
    Inside (fun p => p.1.size) offset cut bs ↔
      ∃ item ∈ placed offset bs, item.offset < cut ∧ cut < item.stop := by
  induction bs generalizing offset with
  | nil =>
    constructor
    · exact fun h => (not_inside_nil h).elim
    · rintro ⟨_, hmem, _⟩
      cases hmem
  | cons p bs ih =>
    have hstop : (ScanItem.block offset p.1.body.length p.2).stop = offset + p.1.size := by
      simp only [ScanItem.stop, Block.size]
      omega
    rw [inside_cons, ih, placed]
    simp only [List.mem_cons, exists_eq_or_imp, hstop]
    rfl

theorem stop_le_of_mem_placed {offset : Nat} {bs : List (Block × BlockContent)} {item : ScanItem}
    (h : item ∈ placed offset bs) :
    item.offset < item.stop ∧ item.stop ≤ offset + span (fun p => p.1.size) bs := by
  induction bs generalizing offset with
  | nil => cases h
  | cons p bs ih =>
    rw [span_cons]
    rcases List.mem_cons.1 h with rfl | h
    · simp only [ScanItem.offset, ScanItem.stop, Block.size, headerSize]
      omega
    · have := ih h
      omega

theorem offset_blocks (c : ScanConfig) (offset : Nat) (s : Source) :
    (blocks c offset s).offset =
      ((blocks c offset s).items.getLast?.map ScanItem.stop).getD offset := by
  induction offset, s using blocks.induct c with
  | case1 offset s size content rest h _ ih =>
    rw [blocks_of_block h]
    simp only [after, List.singleton_append, List.getLast?_cons, ih]
    cases (blocks c (offset + headerSize + size) rest).items.getLast? <;> rfl
  | case2 offset s trailer h =>
    rw [blocks_of_trailer h]
    rfl
  | case3 offset s ending h =>
    rw [blocks_of_stop h]
    rfl

end Scan

namespace Stream

variable {c : ScanConfig} {s : Stream} {cut : Nat}

def items (s : Stream) : List ScanItem :=
  Scan.placed openingMagic.length s.blocks ++ s.closing.toList.map (.trailer s.stop)

theorem itemsBefore_eq_filter (hchecksum : ∀ t ∈ s.closing, t.checksum.length = checksumSize)
    (hcut : cut ≤ s.bytes.length) :
    s.itemsBefore cut = s.items.filter fun item => item.stop ≤ cut := by
  rw [length_bytes hchecksum] at hcut
  rw [itemsBefore, items, List.filter_append, Scan.filter_placed, trailerBefore]
  congr 1
  cases hclosing : s.closing with
  | none => simp
  | some t =>
    rw [hclosing, Option.isSome_some, if_pos rfl] at hcut
    by_cases hall : cut = s.stop + trailerSize
    · simp [hall, ScanItem.stop]
    · have hlate : ¬ s.stop + trailerSize ≤ cut := by omega
      simp [hall, hlate, ScanItem.stop]

theorem tornAt_iff_exists_item :
    s.TornAt cut ↔ ∃ item ∈ s.items, item.offset < cut ∧ cut < item.stop := by
  rw [TornAt, Scan.inside_placed, items]
  constructor
  · rintro (⟨item, hmem, hin⟩ | ⟨hclosed, hin⟩)
    · exact ⟨item, List.mem_append_left _ hmem, hin⟩
    · obtain ⟨t, ht⟩ := Option.isSome_iff_exists.1 hclosed
      refine ⟨.trailer s.stop t, List.mem_append_right _ ?_, hin⟩
      simp [ht]
  · rintro ⟨item, hmem, hin⟩
    rcases List.mem_append.1 hmem with hmem | hmem
    · exact .inl ⟨item, hmem, hin⟩
    · obtain ⟨t, ht, rfl⟩ := List.mem_map.1 hmem
      rw [Option.mem_toList] at ht
      exact .inr ⟨by rw [ht]; rfl, hin⟩

theorem stop_le_of_mem_items (hchecksum : ∀ t ∈ s.closing, t.checksum.length = checksumSize)
    {item : ScanItem} (h : item ∈ s.items) :
    item.offset < item.stop ∧ item.stop ≤ s.bytes.length := by
  rw [length_bytes hchecksum]
  rcases List.mem_append.1 h with h | h
  · have := Scan.stop_le_of_mem_placed h
    rw [stop]
    omega
  · obtain ⟨t, ht, rfl⟩ := List.mem_map.1 h
    rw [Option.mem_toList] at ht
    rw [ht]
    simp [ScanItem.offset, ScanItem.stop, trailerSize]

theorem scan_closed_append (hreads : Scan.ReadsAll c s.blocks) {t : Trailer}
    (hclosing : s.closing = some t) (hchecksum : t.checksum.length = checksumSize) (rest : Bytes) :
    (Source.ofBytes (s.bytes ++ rest)).scan c = (Source.ofBytes s.bytes).scan c := by
  have hscan : ∀ rest : Bytes, (Source.ofBytes (s.bytes ++ rest)).scan c =
      (Scan.mk [.trailer s.stop t] .sealed (s.stop + trailerSize)).after
        (Scan.placed openingMagic.length s.blocks) := by
    intro rest
    rw [bytes, hclosing, Option.toList_some, List.flatMap_singleton, List.append_assoc,
      List.append_assoc, Source.ofBytes, scan_magic_append, Scan.blocks_append hreads,
      Scan.blocks_of_trailer (Scan.step_trailer_append hchecksum rest)]
    rfl
  rw [hscan, ← List.append_nil s.bytes, hscan]

end Stream

/-- Parts one after another, then perhaps a trailer and any bytes behind it. -/
structure Concatenation where
  parts : List Part
  closing : Option (Trailer × Bytes)

namespace Concatenation

variable {c : ScanConfig} {s : Concatenation}

def bytes (s : Concatenation) : Bytes :=
  openingMagic ++ (s.parts.flatMap fun p => p.block.encode) ++
    s.closing.toList.flatMap fun p => p.1.encode ++ p.2

def stream (s : Concatenation) (keep : Bool) : Stream :=
  ⟨s.parts.map fun p => (p.block, p.content keep), s.closing.map Prod.fst⟩

structure WellFormed (s : Concatenation) : Prop where
  parts : ∀ p ∈ s.parts, p.WellFormed
  checksum : ∀ p ∈ s.closing, p.1.checksum.length = checksumSize

theorem readsAll_stream (hs : s.WellFormed) (hstrict : c.strict = false)
    (hlimit : ∀ p ∈ s.parts, p.block.body.length ≤ c.maxBlockSize) :
    Scan.ReadsAll c (s.stream c.payloads).blocks := by
  intro q hq
  obtain ⟨p, hp, rfl⟩ := List.mem_map.1 hq
  exact p.reads_block hstrict (hs.parts p hp) (hlimit p hp)

theorem checksum_stream (hs : s.WellFormed) (keep : Bool) :
    ∀ t ∈ (s.stream keep).closing, t.checksum.length = checksumSize := by
  intro t ht
  obtain ⟨p, hp, rfl⟩ := Option.map_eq_some_iff.1 ht
  exact hs.checksum p hp

theorem bytes_eq (s : Concatenation) (keep : Bool) :
    s.bytes = (s.stream keep).bytes ++ (s.closing.map Prod.snd).getD [] := by
  rw [bytes, stream, Stream.bytes, List.flatMap_map]
  cases s.closing with
  | none => simp
  | some p => simp

theorem scan_take (hs : s.WellFormed) (hreads : Scan.ReadsAll c (s.stream c.payloads).blocks)
    (cut : Nat) :
    (Source.ofBytes (s.bytes.take cut)).scan c =
      (Source.ofBytes ((s.stream c.payloads).bytes.take cut)).scan c := by
  rw [bytes_eq s c.payloads, List.take_append]
  by_cases hcut : cut ≤ (s.stream c.payloads).bytes.length
  · rw [Nat.sub_eq_zero_of_le hcut, List.take_zero, List.append_nil]
  · rw [List.take_of_length_le (by omega)]
    cases hclosing : s.closing with
    | none => simp
    | some p =>
      apply Stream.scan_closed_append hreads
      · rw [stream, hclosing]
        rfl
      · exact hs.checksum p hclosing

/-- What a scan makes of a stream that has some items and is cut. -/
structure Recovers (all : List ScanItem) (cut : Nat) (scan : Scan) : Prop where
  items : scan.items = all.filter fun item => item.stop ≤ cut
  unfailed : ∀ e, scan.ending ≠ .failed e
  torn : scan.ending = .torn ↔ ∃ item ∈ all, item.offset < cut ∧ cut < item.stop
  offset : scan.offset = (scan.items.getLast?.map ScanItem.stop).getD openingMagic.length

/-- A scan that is not strict yields the parts, and the trailer, that are whole in front of a cut,
and is torn exactly when the cut is inside one of them. -/
theorem scan_recovers (hs : s.WellFormed) (hstrict : c.strict = false)
    (hlimit : ∀ p ∈ s.parts, p.block.body.length ≤ c.maxBlockSize) {cut : Nat}
    (hcut : openingMagic.length ≤ cut) :
    Recovers (s.stream c.payloads).items cut ((Source.ofBytes (s.bytes.take cut)).scan c) := by
  have hreads := readsAll_stream hs hstrict hlimit
  have hchecksum := checksum_stream hs c.payloads
  -- the last cut that takes anything away is the one at the end of the stream
  obtain ⟨last, hlast⟩ : ∃ last, last = min cut (s.stream c.payloads).bytes.length := ⟨_, rfl⟩
  have hstart : openingMagic.length ≤ last := by
    rw [hlast, Stream.length_bytes hchecksum, Stream.stop]
    omega
  have hend : last ≤ (s.stream c.payloads).bytes.length := by omega
  obtain ⟨stop, hscan⟩ := Stream.scan_cut hreads hchecksum hstart hend
  rw [hlast, ← List.take_eq_take_min, ← scan_take hs hreads, ← hlast] at hscan
  have hsame : ∀ item ∈ (s.stream c.payloads).items,
      (item.stop ≤ last ↔ item.stop ≤ cut) ∧
      (item.offset < last ∧ last < item.stop ↔ item.offset < cut ∧ cut < item.stop) := by
    intro item hitem
    have := Stream.stop_le_of_mem_items hchecksum hitem
    omega
  constructor
  · rw [hscan, Stream.itemsBefore_eq_filter hchecksum hend]
    apply List.filter_congr
    intro item hitem
    exact decide_eq_decide.2 (hsame item hitem).1
  · intro e
    rw [hscan]
    exact Stream.endingAt_ne_failed _ _ e
  · rw [hscan, Stream.endingAt_eq_torn, Stream.tornAt_iff_exists_item]
    exact exists_congr fun item => and_congr_right fun hitem => (hsame item hitem).2
  · have hbytes : s.bytes.take cut = openingMagic ++ ((s.parts.flatMap fun p => p.block.encode) ++
        s.closing.toList.flatMap fun p => p.1.encode ++ p.2).take
          (cut - openingMagic.length) := by
      rw [bytes, List.append_assoc, List.take_append, List.take_of_length_le hcut]
    rw [hbytes, Source.ofBytes, scan_magic_append]
    exact Scan.offset_blocks c _ _

def sample : Concatenation where
  parts := [.descriptor (.file (.ofAnnotations .empty)), .data ⟨0, 5, 0, [-1]⟩ [1, 2, 3],
    .reserved 7 (by decide) [9]]
  closing := some (⟨0, List.replicate 20 0⟩, [42])

/-- A cut inside the trailer leaves the three blocks. -/
theorem scan_recovers_torn_trailer :
    let scan := (Source.ofBytes (sample.bytes.take 90)).scan ⟨false, 100, true, false⟩
    Recovers (sample.stream true).items 90 scan ∧
      scan.items.map ScanItem.stop = [22, 51, 60] ∧ scan.ending = .torn ∧ scan.offset = 60 := by
  have hs : sample.WellFormed := by
    constructor
    · intro p hp
      simp only [sample, List.mem_cons, List.not_mem_nil, or_false] at hp
      rcases hp with rfl | rfl | rfl
      · exact ⟨by decide +kernel, by decide +kernel⟩
      · exact ⟨by decide +kernel, by decide +kernel⟩
      · exact Nat.le_of_ble_eq_true rfl
    · intro p hp
      cases hp
      rfl
  have hscan := @scan_recovers ⟨false, 100, true, false⟩ sample hs rfl (by decide +kernel) 90
    (by decide)
  refine ⟨hscan, ?_, hscan.torn.2 (by decide +kernel), ?_⟩
  · rw [hscan.items]
    decide +kernel
  · rw [hscan.offset, hscan.items]
    decide +kernel

end Concatenation

end SeriesLog
