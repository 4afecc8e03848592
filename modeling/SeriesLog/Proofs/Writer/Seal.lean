import SeriesLog.Proofs.Writer.Journal

/-! # Sealing a log

On a sink without limit a log can be sealed unless its index is too large for a block, and then it
ends with the index, if there is data, and a trailer that points to it. -/
namespace SeriesLog.Writer

variable {w : Writer} {annotations : Labels} {journal : List Addition}

def beforeTrailer (w : Writer) : Bytes :=
  w.sink.bytes ++ (indexPart w.series).flatMap Block.encode

/-- Where the index of a log is put, 0 when there is none. -/
def indexOffset (w : Writer) : Nat := if w.blockCount = 0 then 0 else w.position

theorem writeIndex_cases (hroom : w.sink.room = none) :
    (∃ e, w.writeIndex = (.error e, w) ∧ w.blockCount ≠ 0 ∧
        maxBodySize < (indexBlock w.series).body.length) ∨
      ∃ after, w.writeIndex = (.ok w.indexOffset, after) ∧
        (∀ b ∈ indexPart w.series, b.body.length ≤ maxBodySize) ∧
        w.Extends after ((indexPart w.series).flatMap Block.encode) := by
  unfold writeIndex
  by_cases hcount : w.blockCount = 0
  · rw [if_pos hcount]
    have hpart : indexPart w.series = [] := if_pos hcount
    refine .inr ⟨w, ?_, ?_, ?_⟩
    · rw [indexOffset, if_pos hcount]
    · rw [hpart]
      exact fun b hb => by cases hb
    · rw [hpart]
      exact Extends.refl w
  · rw [if_neg hcount]
    have hpart : indexPart w.series = [indexBlock w.series] := if_neg hcount
    have hflatten : [Descriptor.encode (.index ⟨w.series.map SeriesState.toIndex⟩)].flatten =
        (indexBlock w.series).body := by simp [indexBlock]
    rcases writeBlock_cases w .descriptor
        [Descriptor.encode (.index ⟨w.series.map SeriesState.toIndex⟩)] with
      ⟨e, hwrite, hlarge⟩ | ⟨after, hwrite, hle, hextends⟩ | ⟨_, _, _, _, hlimited, _⟩
    · rw [hflatten] at hlarge
      rw [hwrite]
      exact .inl ⟨e, rfl, hcount, hlarge⟩
    · rw [hflatten] at hle hextends
      rw [hwrite]
      refine .inr ⟨after, ?_, ?_, ?_⟩
      · rw [indexOffset, if_neg hcount]
      · rw [hpart]
        intro b hb
        rw [List.mem_singleton.1 hb]
        exact hle
      · rw [hpart, List.flatMap_singleton]
        exact hextends
    · exact absurd hroom hlimited

theorem putUncovered_unlimited (hroom : w.sink.room = none) (pieces : List Bytes) :
    (w.putUncovered pieces).1 = true ∧ w.Extends (w.putUncovered pieces).2 pieces.flatten := by
  induction pieces generalizing w with
  | nil => exact ⟨rfl, Extends.refl w⟩
  | cons piece rest ih =>
    have hextends := put_extends w piece
    have hpiece : w.sink.fitting piece = piece := by simp [Sink.fitting, hroom]
    unfold putUncovered
    rw [if_pos (fits_of_unlimited hroom piece)]
    obtain ⟨hwhole, hrest⟩ := ih (w := w.put piece) (hextends.room hroom)
    rw [hpiece] at hextends
    exact ⟨hwhole, hextends.trans hrest⟩

theorem close_cases (hroom : w.sink.room = none) (hopen : w.phase ≠ .closed) :
    (∃ e, w.close = (.error e, w.abandon) ∧ w.blockCount ≠ 0 ∧
        maxBodySize < (indexBlock w.series).body.length) ∨
      ∃ summary after, w.close = (.ok summary, after) ∧
        (∀ b ∈ indexPart w.series, b.body.length ≤ maxBodySize) ∧
        summary.indexOffset = w.indexOffset ∧
        after.sink.bytes =
          w.beforeTrailer ++ (trailerAfter w.beforeTrailer w.indexOffset).encode ∧
        (w.position = w.sink.bytes.length → summary.size = after.sink.bytes.length) ∧
        summary.seriesCount = w.series.length ∧ summary.blockCount = w.blockCount ∧
        summary.checksum = (trailerAfter w.beforeTrailer w.indexOffset).checksum := by
  unfold close
  rw [if_neg hopen]
  rcases writeIndex_cases (w := { w with phase := .closed }) hroom with
    ⟨e, hindex, hcount, hlarge⟩ | ⟨after, hindex, hle, hextends⟩
  · rw [hindex]
    exact .inl ⟨e, rfl, hcount, hlarge⟩
  · have hoffset : indexOffset { w with phase := .closed } = w.indexOffset := rfl
    rw [hindex, hoffset]
    dsimp only
    have hbefore : after.sink.bytes = w.beforeTrailer := hextends.bytes
    obtain ⟨taken, hput, hwhole, hfits⟩ := putAll_extends after
      [trailerHeader.encode, Bytes.littleEndian 8 w.indexOffset]
    have hall := hfits (hextends.room hroom)
    cases hlast : after.putAll
        [trailerHeader.encode, Bytes.littleEndian 8 w.indexOffset] with
    | mk whole last =>
      rw [hlast] at hput hwhole hall
      cases hall
      have htaken := hwhole rfl
      obtain ⟨hsum, hfinal⟩ := putUncovered_unlimited (hput.room (hextends.room hroom))
        [sha1 last.sink.bytes, closingMagic]
      cases hend : last.putUncovered [sha1 last.sink.bytes, closingMagic] with
      | mk done final =>
        rw [hend] at hsum hfinal
        cases hsum
        dsimp only
        have hall := (hextends.trans hput).trans hfinal
        refine .inr ⟨_, final, by rw [hend], hle, rfl, ?_, ?_, ?_, ?_, ?_⟩
        · rw [encode_trailerAfter, hfinal.bytes, hput.bytes, htaken, hbefore]
          simp [List.append_assoc]
        · intro haligned
          have hlength := congrArg List.length hall.bytes
          have hposition := hall.position
          rw [List.length_append] at hlength
          dsimp only at hlength hposition ⊢
          omega
        · exact congrArg List.length hall.series
        · rw [blockCount, hall.series]
          rfl
        · rw [trailerAfter, hput.bytes, htaken, hbefore]
          simp [List.append_assoc]

theorem Holds.sealed_bytes (h : w.Holds annotations journal) {summary : CloseSummary}
    {after : Writer} (hclose : w.close = (.ok summary, after)) :
    (∀ b ∈ indexPart (seriesIn annotations journal), b.body.length ≤ maxBodySize) ∧
      summary.indexOffset = w.indexOffset ∧
      after.sink.bytes = sealedBytes annotations journal
        (indexPart (seriesIn annotations journal))
        (trailerAfter w.beforeTrailer summary.indexOffset) := by
  rcases close_cases h.unlimited h.active with
    ⟨e, hfailed, _⟩ | ⟨_, _, hdone, hle, hoffset, hbytes, _⟩
  · rw [hfailed] at hclose
    cases hclose
  · rw [hdone] at hclose
    cases hclose
    rw [h.series] at hle
    refine ⟨hle, hoffset, ?_⟩
    rw [hbytes, hoffset, sealedBytes, beforeTrailer, h.bytes, h.series]

theorem Holds.close_summary (h : w.Holds annotations journal) {summary : CloseSummary}
    {after : Writer} (hclose : w.close = (.ok summary, after)) :
    summary.size = after.sink.bytes.length ∧
      summary.seriesCount = (declared journal).length ∧ summary.blockCount = w.blockCount ∧
      summary.checksum = (trailerAfter w.beforeTrailer summary.indexOffset).checksum := by
  rcases close_cases h.unlimited h.active with
    ⟨e, hfailed, _⟩ | ⟨_, _, hdone, _, hoffset, _, hsize, hseries, hblocks, hchecksum⟩
  · rw [hfailed] at hclose
    cases hclose
  · rw [hdone] at hclose
    cases hclose
    refine ⟨hsize ?_, ?_, hblocks, ?_⟩
    · rw [h.position, h.bytes]
    · rw [hseries, h.length_declared]
    · rw [hoffset]
      exact hchecksum

theorem Holds.sealed_alike {v : Writer} (h : w.Holds annotations journal)
    (k : v.Holds annotations journal) {summary other : CloseSummary} {after last : Writer}
    (hclose : w.close = (.ok summary, after)) (hother : v.close = (.ok other, last)) :
    after.sink.bytes = last.sink.bytes := by
  obtain ⟨_, hoffset, hbytes⟩ := h.sealed_bytes hclose
  obtain ⟨_, koffset, kbytes⟩ := k.sealed_bytes hother
  have hbefore : w.beforeTrailer = v.beforeTrailer := by
    rw [beforeTrailer, beforeTrailer, h.bytes, k.bytes, h.series, k.series]
  have hindex : w.indexOffset = v.indexOffset := by
    rw [indexOffset, indexOffset, blockCount, blockCount, h.series, k.series, h.position,
      k.position]
  rw [hbytes, kbytes, hoffset, koffset, hbefore, hindex]

/-- A log whose index fits in a block can be sealed. -/
theorem Holds.can_close (h : w.Holds annotations journal)
    (hle : ∀ b ∈ indexPart (seriesIn annotations journal), b.body.length ≤ maxBodySize) :
    ∃ summary after, w.close = (.ok summary, after) := by
  rcases close_cases h.unlimited h.active with
    ⟨_, _, hcount, hlarge⟩ | ⟨summary, after, hdone, _⟩
  · have hpart : indexPart w.series = [indexBlock w.series] := if_neg hcount
    rw [← h.series, hpart] at hle
    have := hle _ List.mem_cons_self
    omega
  · exact ⟨summary, after, hdone⟩

end SeriesLog.Writer
