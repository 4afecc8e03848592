import SeriesLog.Proofs.Scan.Blocks

/-! # Scans of cut streams

A scan of a stream that is cut yields the blocks that end before the cut, and the trailer when
nothing is missing. The scan is torn exactly when the cut is inside a block or inside the
trailer. -/
namespace SeriesLog

/-- Blocks behind the magic, with what a scan makes of them, and the trailer of a sealed stream. -/
structure Stream where
  blocks : List (Block × BlockContent)
  closing : Option Trailer

namespace Stream

def bytes (s : Stream) : Bytes :=
  openingMagic ++ (s.blocks.flatMap fun p => p.1.encode) ++
    s.closing.toList.flatMap Trailer.encode

def stop (s : Stream) : Nat := openingMagic.length + span (fun p => p.1.size) s.blocks

def TornAt (s : Stream) (cut : Nat) : Prop :=
  Inside (fun p => p.1.size) openingMagic.length cut s.blocks ∨
    s.closing.isSome = true ∧ s.stop < cut ∧ cut < s.stop + trailerSize

instance (s : Stream) (cut : Nat) : Decidable (s.TornAt cut) := inferInstanceAs (Decidable (_ ∨ _))

def endingAt (s : Stream) (cut : Nat) : ScanEnding :=
  if s.TornAt cut then .torn
  else if s.closing.isSome = true ∧ cut = s.stop + trailerSize then .sealed
  else .boundary

def trailerBefore (s : Stream) (cut : Nat) : List ScanItem :=
  if cut = s.stop + trailerSize then s.closing.toList.map (.trailer s.stop) else []

def itemsBefore (s : Stream) (cut : Nat) : List ScanItem :=
  Scan.placed openingMagic.length (within (fun p => p.1.size) openingMagic.length cut s.blocks) ++
    s.trailerBefore cut

end Stream

namespace Scan

variable {c : ScanConfig} {offset cut : Nat}

theorem blocks_cut_first {p : Block × BlockContent} (hreads : Reads c p.1 p.2)
    (hsize : p.1.body.length ≤ maxBodySize) (rest : Bytes) (hcut : offset ≤ cut)
    (hlate : cut < offset + p.1.size) :
    blocks c offset (.ofBytes ((p.1.encode ++ rest).take (cut - offset))) =
      ⟨[], if cut = offset then .boundary else .torn, offset⟩ := by
  rw [List.take_append_of_le_length (by rw [Block.length_encode]; omega)]
  by_cases hstart : cut = offset
  · rw [if_pos hstart, hstart, Nat.sub_self, List.take_zero, Source.ofBytes,
      blocks_of_stop step_nil]
  · have hbytes : p.1.encode.take (cut - offset) ≠ [] := by
      apply List.ne_nil_of_length_pos
      rw [List.length_take, Block.length_encode]
      omega
    have hmissing : p.1.encode.drop (cut - offset) ≠ [] := by
      apply List.ne_nil_of_length_pos
      rw [List.length_drop, Block.length_encode]
      omega
    rw [if_neg hstart, Source.ofBytes, blocks_of_stop (step_block_torn hreads hsize
      (List.take_append_drop _ _) hbytes hmissing)]

theorem blocks_cut {bs : List (Block × BlockContent)} (h : ReadsAll c bs) (rest : Bytes)
    (hcut : offset ≤ cut) (hamong : cut < offset + span (fun p => p.1.size) bs) :
    ∃ stop, blocks c offset
        (.ofBytes (((bs.flatMap fun p => p.1.encode) ++ rest).take (cut - offset))) =
      ⟨placed offset (within (fun p => p.1.size) offset cut bs),
        if Inside (fun p => p.1.size) offset cut bs then .torn else .boundary, stop⟩ := by
  induction bs generalizing offset with
  | nil =>
    simp only [span_nil] at hamong
    omega
  | cons p bs ih =>
    obtain ⟨hreads, hsize⟩ := h p List.mem_cons_self
    have hinside := @inside_cons _ (fun p : Block × BlockContent => p.1.size) offset cut p bs
    rw [List.flatMap_cons, List.append_assoc]
    by_cases hwhole : offset + p.1.size ≤ cut
    · -- the block is whole, and the cut is among the blocks behind it
      have hshift : offset + headerSize + p.1.body.length = offset + p.1.size := by
        simp only [Block.size]
        omega
      have hcount : cut - offset - p.1.encode.length = cut - (offset + p.1.size) := by
        rw [Block.length_encode]
        omega
      rw [span_cons, ← Nat.add_assoc] at hamong
      obtain ⟨stop, hrest⟩ := ih (fun q hq => h q (List.mem_cons_of_mem p hq)) hwhole hamong
      have hpast : ¬ (offset < cut ∧ cut < offset + p.1.size) := by omega
      simp only [hpast, false_or] at hinside
      refine ⟨stop, ?_⟩
      rw [List.take_append, List.take_of_length_le (by rw [Block.length_encode]; omega), hcount,
        Source.ofBytes, blocks_of_block (step_block_append hreads hsize _), hshift]
      rw [Source.ofBytes] at hrest
      rw [hrest, within_cons_of_le (fun p : Block × BlockContent => p.1.size) hwhole]
      simp only [hinside]
      rfl
    · have hlate : cut < offset + p.1.size := by omega
      have hbehind : ¬ Inside (fun p => p.1.size) (offset + p.1.size) cut bs := by
        intro hin
        have := hin.lt
        omega
      have hends : Inside (fun p => p.1.size) offset cut (p :: bs) ↔ ¬ cut = offset := by
        rw [hinside, or_iff_left hbehind]
        omega
      refine ⟨offset, ?_⟩
      rw [blocks_cut_first hreads hsize _ hcut hlate,
        within_cons_of_lt (fun p : Block × BlockContent => p.1.size) hlate]
      simp only [hends, ite_not]
      rfl

theorem blocks_trailer_cut {t : Trailer} (h : t.checksum.length = checksumSize) {count : Nat}
    (hcount : count ≤ trailerSize) :
    blocks c offset (.ofBytes (t.encode.take count)) =
      if count = 0 then ⟨[], .boundary, offset⟩
      else if count = trailerSize then ⟨[.trailer offset t], .sealed, offset + trailerSize⟩
      else ⟨[], .torn, offset⟩ := by
  have hlen := Trailer.length_encode h
  by_cases hzero : count = 0
  · rw [if_pos hzero, hzero, List.take_zero, Source.ofBytes, blocks_of_stop step_nil]
  · rw [if_neg hzero]
    by_cases hall : count = trailerSize
    · have hstep : step c offset ⟨t.encode ++ [], none⟩ = .trailer t := step_trailer_append h []
      rw [List.append_nil] at hstep
      rw [if_pos hall, List.take_of_length_le (by omega), Source.ofBytes, blocks_of_trailer hstep]
    · have hbytes : t.encode.take count ≠ [] := by
        apply List.ne_nil_of_length_pos
        rw [List.length_take]
        omega
      have hmissing : t.encode.drop count ≠ [] := by
        apply List.ne_nil_of_length_pos
        rw [List.length_drop]
        omega
      rw [if_neg hall, Source.ofBytes, blocks_of_stop (step_trailer_torn h
        (List.take_append_drop _ _) hbytes hmissing)]

end Scan

namespace Stream

variable {c : ScanConfig} {s : Stream} {cut : Nat}

theorem length_closing (hchecksum : ∀ t ∈ s.closing, t.checksum.length = checksumSize) :
    (s.closing.toList.flatMap Trailer.encode).length =
      if s.closing.isSome = true then trailerSize else 0 := by
  cases hclosing : s.closing with
  | none => rfl
  | some t =>
    have hlength := Trailer.length_encode (hchecksum t hclosing)
    simpa using hlength

theorem length_bytes (hchecksum : ∀ t ∈ s.closing, t.checksum.length = checksumSize) :
    s.bytes.length = s.stop + if s.closing.isSome = true then trailerSize else 0 := by
  rw [bytes, List.length_append, List.length_append, length_closing hchecksum,
    length_flatMap_encode fun p : Block × BlockContent => p.1]
  rfl

theorem endingAt_ne_failed (s : Stream) (cut : Nat) (e : FormatError) :
    s.endingAt cut ≠ .failed e := by
  unfold endingAt
  split
  · exact fun h => by cases h
  · split <;> exact fun h => by cases h

theorem endingAt_eq_torn : s.endingAt cut = .torn ↔ s.TornAt cut := by
  unfold endingAt
  constructor
  · intro h
    split at h
    · next htorn => exact htorn
    · split at h <;> cases h
  · exact fun htorn => if_pos htorn

theorem tornAt_of_lt (h : cut < s.stop) :
    s.TornAt cut ↔ Inside (fun p => p.1.size) openingMagic.length cut s.blocks := by
  constructor
  · rintro (hin | ⟨_, hlt, _⟩)
    · exact hin
    · omega
  · exact .inl

theorem tornAt_of_le (h : s.stop ≤ cut) :
    s.TornAt cut ↔ s.closing.isSome = true ∧ s.stop < cut ∧ cut < s.stop + trailerSize := by
  constructor
  · rintro (hin | htrailer)
    · have := hin.lt
      rw [stop] at h
      omega
    · exact htrailer
  · exact .inr

theorem blocks_cut_among (hreads : Scan.ReadsAll c s.blocks) (hstart : openingMagic.length ≤ cut)
    (hcut : cut < s.stop) (rest : Bytes) :
    ∃ stop, Scan.blocks c openingMagic.length (.ofBytes
        (((s.blocks.flatMap fun p => p.1.encode) ++ rest).take (cut - openingMagic.length))) =
      ⟨s.itemsBefore cut, s.endingAt cut, stop⟩ := by
  obtain ⟨stop, hscan⟩ := Scan.blocks_cut hreads rest hstart hcut
  have hitem : cut ≠ s.stop + trailerSize := by omega
  have hend : ¬ (s.closing.isSome = true ∧ cut = s.stop + trailerSize) := fun h => hitem h.2
  refine ⟨stop, ?_⟩
  rw [hscan, itemsBefore, trailerBefore, if_neg hitem, List.append_nil, endingAt]
  simp only [tornAt_of_lt hcut, if_neg hend]

theorem blocks_cut_behind (hreads : Scan.ReadsAll c s.blocks)
    (hchecksum : ∀ t ∈ s.closing, t.checksum.length = checksumSize) (hstop : s.stop ≤ cut)
    (hcut : cut ≤ s.bytes.length) :
    ∃ stop, Scan.blocks c openingMagic.length (.ofBytes ((s.blocks.flatMap fun p => p.1.encode) ++
        (s.closing.toList.flatMap Trailer.encode).take (cut - s.stop))) =
      ⟨s.itemsBefore cut, s.endingAt cut, stop⟩ := by
  have hpos : 0 < trailerSize := by decide
  have hwithin : within (fun p => p.1.size) openingMagic.length cut s.blocks = s.blocks :=
    within_eq_self hstop
  have htorn := tornAt_of_le hstop
  rw [length_bytes hchecksum] at hcut
  rw [Source.ofBytes, Scan.blocks_append hreads, itemsBefore, trailerBefore, hwithin, endingAt]
  simp only [htorn]
  cases hclosing : s.closing with
  | none =>
    refine ⟨s.stop, ?_⟩
    rw [Option.toList_none, List.flatMap_nil, List.take_nil, Scan.blocks_of_stop Scan.step_nil]
    simp [Scan.after, stop]
  | some t =>
    have hle : cut - s.stop ≤ trailerSize := by
      rw [hclosing, Option.isSome_some, if_pos rfl] at hcut
      omega
    have htrailer := @Scan.blocks_trailer_cut c s.stop t (hchecksum t hclosing) _ hle
    rw [Source.ofBytes] at htrailer
    rw [Option.toList_some, List.flatMap_singleton]
    have hblocks : openingMagic.length + span (fun p => p.1.size) s.blocks = s.stop := rfl
    rw [hblocks, htrailer]
    by_cases hzero : cut = s.stop
    · refine ⟨s.stop, ?_⟩
      rw [if_pos (by omega), if_neg (by omega), if_neg (by omega), if_neg (by omega)]
      rfl
    · rw [if_neg (by omega)]
      by_cases hall : cut = s.stop + trailerSize
      · refine ⟨s.stop + trailerSize, ?_⟩
        rw [if_pos (by omega), if_pos hall, if_neg (by omega), if_pos ⟨rfl, hall⟩]
        rfl
      · refine ⟨s.stop, ?_⟩
        rw [if_neg (by omega), if_neg hall, if_pos ⟨rfl, by omega, by omega⟩]
        rfl

/-- The scan of a stream that is cut somewhere behind its magic. -/
theorem scan_cut (hreads : Scan.ReadsAll c s.blocks)
    (hchecksum : ∀ t ∈ s.closing, t.checksum.length = checksumSize)
    (hstart : openingMagic.length ≤ cut) (hcut : cut ≤ s.bytes.length) :
    ∃ stop, (Source.ofBytes (s.bytes.take cut)).scan c =
      ⟨s.itemsBefore cut, s.endingAt cut, stop⟩ := by
  have hbytes : s.bytes.take cut = openingMagic ++
      ((s.blocks.flatMap fun p => p.1.encode) ++
        s.closing.toList.flatMap Trailer.encode).take (cut - openingMagic.length) := by
    rw [bytes, List.append_assoc, List.take_append, List.take_of_length_le hstart]
  rw [hbytes, Source.ofBytes, scan_magic_append]
  by_cases hamong : cut < s.stop
  · exact blocks_cut_among hreads hstart hamong _
  · have hstop : s.stop ≤ cut := Nat.not_lt.1 hamong
    have hlength := length_flatMap_encode (fun p : Block × BlockContent => p.1) s.blocks
    have hcount : cut - openingMagic.length - span (fun p => p.1.size) s.blocks =
        cut - s.stop := by
      rw [stop]
      omega
    have hwhole : (s.blocks.flatMap fun p => p.1.encode).length ≤ cut - openingMagic.length := by
      rw [hlength]
      rw [stop] at hstop
      omega
    rw [List.take_append, hlength, hcount, List.take_of_length_le hwhole]
    exact blocks_cut_behind hreads hchecksum hstop hcut

end Stream

end SeriesLog
