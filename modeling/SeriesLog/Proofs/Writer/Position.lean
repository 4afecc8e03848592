import SeriesLog.Proofs.Writer.Consistency
import SeriesLog.Proofs.Writer.Phases

/-! # Positions

The position of a writer is the number of bytes on its sink, with one exception: of the checksum
and the closing magic, which go past the digest, only whole ones are counted, so a log that breaks
off inside one of them is longer than the position says. -/
namespace SeriesLog.Writer

variable {c : WriterConfig} {n : Nat} {v w : Writer}

def Aligned (w : Writer) : Prop := w.position = w.sink.bytes.length

theorem Extends.aligned {taken : Bytes} (h : w.Extends v taken) (hw : w.Aligned) : v.Aligned := by
  rw [Aligned, h.position, h.bytes, List.length_append, hw]

def wholeLength (room : Nat) : List Bytes → Nat
  | [] => 0
  | piece :: rest =>
    if piece.length ≤ room then piece.length + wholeLength (room - piece.length) rest else 0

theorem putUncovered_limited {room : Nat} (hroom : w.sink.room = some room) (pieces : List Bytes) :
    (w.putUncovered pieces).2.sink.bytes.length =
        w.sink.bytes.length + min room pieces.flatten.length ∧
      (w.putUncovered pieces).2.position = w.position + wholeLength room pieces := by
  induction pieces generalizing w room with
  | nil => simp [putUncovered, wholeLength]
  | cons piece rest ih =>
    have hfitting : w.sink.fitting piece = piece.take room := by rw [Sink.fitting, hroom]
    have hbytes : (w.sink.write piece).bytes.length =
        w.sink.bytes.length + min room piece.length := by
      rw [Sink.bytes_write, List.length_append, hfitting, List.length_take]
    rw [putUncovered, wholeLength, List.flatten_cons, List.length_append]
    by_cases hle : piece.length ≤ room
    · have hcut : piece.take room = piece := List.take_of_length_le hle
      have hfits : w.fits piece = true := decide_eq_true (hfitting.trans hcut)
      have hleft : (w.put piece).sink.room = some (room - piece.length) := by
        rw [put, Sink.write, hroom]
        rfl
      obtain ⟨hlength, hposition⟩ := ih hleft
      rw [if_pos hfits, if_pos hle, hlength, hposition, put]
      dsimp only
      rw [hbytes, hfitting, hcut]
      constructor <;> omega
    · have hfits : ¬ w.fits piece = true := by
        intro h
        have hsame := congrArg List.length (hfitting.symm.trans (of_decide_eq_true h))
        rw [List.length_take] at hsame
        omega
      rw [if_neg hfits, if_neg hle]
      dsimp only
      rw [hbytes]
      constructor <;> omega

def sealSize : Nat := checksumSize + closingMagic.length

/-- Whether room for `n` bytes ends strictly inside the checksum or strictly inside the closing
magic of a log of a size. -/
def BreaksSeal (n size : Nat) : Prop :=
  n < size ∧ size < n + sealSize ∧ size ≠ n + closingMagic.length

instance (n size : Nat) : Decidable (BreaksSeal n size) := inferInstanceAs (Decidable (_ ∧ _ ∧ _))

/-- How many of the first `n` bytes of a log of a size are not counted: those of a checksum or a
closing magic that breaks off there. -/
def uncounted (n size : Nat) : Nat :=
  if size ≤ n then 0
  else if size ≤ n + closingMagic.length then n + closingMagic.length - size
  else n + sealSize - size

theorem uncounted_eq_zero_iff (n size : Nat) : uncounted n size = 0 ↔ ¬ BreaksSeal n size := by
  have hmagic : closingMagic.length < sealSize := by decide
  rw [uncounted, BreaksSeal]
  split
  · omega
  · split <;> omega

theorem wholeLength_seal {checksum : Bytes} (hlength : checksum.length = checksumSize)
    {covered : Nat} (hle : covered ≤ n) :
    wholeLength (n - covered) [checksum, closingMagic] + uncounted n (covered + sealSize) =
      min (n - covered) sealSize := by
  have hsize : sealSize = checksumSize + closingMagic.length := rfl
  simp only [wholeLength, uncounted, hlength]
  grind

/-- How the position of a writer compares with what its sink took, given `n` bytes of room, where
with more room the log would be sealed as some summary tells. -/
structure Tally (n : Nat) (seals : CloseSummary → Prop) (w : Writer) : Prop where
  unsealed : (∀ summary, ¬ seals summary) → w.Aligned
  counted : ∀ summary, seals summary →
    w.position + uncounted n summary.size = w.sink.bytes.length

theorem Tally.of_aligned {seals : CloseSummary → Prop} (h : w.Aligned)
    (hseals : ∀ summary, seals summary → uncounted n summary.size = 0) : Tally n seals w := by
  refine ⟨fun _ => h, ?_⟩
  intro summary hsummary
  rw [hseals summary hsummary]
  exact h

theorem Tally.congr {seals others : CloseSummary → Prop} (h : Tally n seals w)
    (hsame : ∀ summary, others summary ↔ seals summary) : Tally n others w := by
  rwa [funext fun summary => propext (hsame summary)]

theorem Tally.aligned_iff {seals : CloseSummary → Prop} (h : Tally n seals w) :
    w.Aligned ↔ ∀ summary, seals summary → ¬ BreaksSeal n summary.size := by
  constructor
  · intro haligned summary hsummary
    have hcounted := h.counted summary hsummary
    rw [← uncounted_eq_zero_iff]
    rw [Aligned] at haligned
    omega
  · intro hwhole
    by_cases hseals : ∃ summary, seals summary
    · obtain ⟨summary, hsummary⟩ := hseals
      have hnone := (uncounted_eq_zero_iff _ _).2 (hwhole summary hsummary)
      have hcounted := h.counted summary hsummary
      rwa [hnone] at hcounted
    · exact h.unsealed (not_exists.1 hseals)

def writeCovered : Writer → Except LogError Nat × Writer :=
  andThen writeIndex fun indexOffset =>
    andThen (orFail (.device .sinkFull) fun v =>
      v.putAll [trailerHeader.encode, Bytes.littleEndian 8 indexOffset]) fun _ v =>
        (.ok indexOffset, v)

theorem close_eq_covered (hopen : w.phase ≠ .closed) :
    w.close = andThen writeCovered
      (fun indexOffset v => writeChecksum indexOffset (sha1 v.sink.bytes) v) w.abandon := by
  rw [close_open hopen]
  simp only [writeCovered, writeTrailer, andThen]
  cases w.abandon.writeIndex with
  | mk result indexed =>
    cases result with
    | error e => rfl
    | ok indexOffset =>
      dsimp only
      cases orFail (.device .sinkFull) (fun v =>
          v.putAll [trailerHeader.encode, Bytes.littleEndian 8 indexOffset]) indexed with
      | mk result headed => cases result <;> rfl

theorem writeCovered_capped (hroom : w.sink.room = none) : Capped n Failed w writeCovered := by
  have hindex : Capped n Failed w writeIndex := writeIndex_capped hroom
  refine hindex.andThen fun indexOffset _ => ?_
  have hhead := (putAll_capped (n := n) hindex.unlimited
    [trailerHeader.encode, Bytes.littleEndian 8 indexOffset]).orFail (.device .sinkFull)
  exact hhead.andThen fun _ _ => .still hhead.unlimited rfl rfl

theorem writeCovered_extends (w : Writer) : ∃ taken, w.Extends (writeCovered w).2 taken := by
  obtain ⟨taken, hindex⟩ := writeIndex_extends w
  simp only [writeCovered, andThen]
  cases hwrite : w.writeIndex with
  | mk result indexed =>
    rw [hwrite] at hindex
    cases result with
    | error e => exact ⟨taken, hindex⟩
    | ok indexOffset =>
      obtain ⟨more, hhead, _⟩ := putAll_extends indexed
        [trailerHeader.encode, Bytes.littleEndian 8 indexOffset]
      refine ⟨taken ++ more, ?_⟩
      simp only [orFail]
      cases hput : indexed.putAll [trailerHeader.encode, Bytes.littleEndian 8 indexOffset] with
      | mk whole headed =>
        rw [hput] at hhead
        cases whole <;> exact hindex.trans hhead

theorem close_of_covered (hopen : w.phase ≠ .closed) {indexOffset : Nat} {last : Writer}
    (h : writeCovered w.abandon = (.ok indexOffset, last)) :
    w.close = writeChecksum indexOffset (sha1 last.sink.bytes) last := by
  rw [close_eq_covered hopen, andThen, h]

theorem close_aligned_of_failed (hopen : w.phase ≠ .closed) (haligned : w.Aligned)
    (h : Failed (writeCovered w.abandon).1) : w.close.2.Aligned := by
  obtain ⟨_, hextends⟩ := writeCovered_extends w.abandon
  obtain ⟨_, hsame⟩ := andThen_of_failed
    (fun indexOffset v => writeChecksum indexOffset (sha1 v.sink.bytes) v) h
  rw [close_eq_covered hopen, hsame]
  exact hextends.aligned haligned

theorem writeChecksum_snd (indexOffset : Nat) (checksum : Bytes) (w : Writer) :
    (writeChecksum indexOffset checksum w).2 = (w.putUncovered [checksum, closingMagic]).2 := by
  rw [writeChecksum, andThen, orFail]
  cases w.putUncovered [checksum, closingMagic] with
  | mk whole ended => cases whole <;> rfl

theorem writeChecksum_size (hroom : w.sink.room = none) (indexOffset : Nat) {checksum : Bytes}
    (hlength : checksum.length = checksumSize) :
    ∃ summary, (writeChecksum indexOffset checksum w).1 = .ok summary ∧
      summary.size = w.position + sealSize := by
  obtain ⟨hwhole, hextends⟩ := putUncovered_unlimited hroom [checksum, closingMagic]
  rw [writeChecksum, andThen, orFail]
  cases hput : w.putUncovered [checksum, closingMagic] with
  | mk whole ended =>
    rw [hput] at hwhole hextends
    cases hwhole
    refine ⟨_, rfl, ?_⟩
    simpa [hlength, sealSize] using hextends.position

theorem writeChecksum_tally (haligned : w.Aligned) (hle : w.sink.bytes.length ≤ n)
    (indexOffset : Nat) {checksum : Bytes} (hlength : checksum.length = checksumSize) :
    let after := (writeChecksum indexOffset checksum (w.capped n)).2
    after.position + uncounted n (w.position + sealSize) = after.sink.bytes.length := by
  have hcapped : (w.capped n).sink.bytes = w.sink.bytes ∧ (w.capped n).position = w.position :=
    ⟨rfl, rfl⟩
  obtain ⟨hbytes, hposition⟩ :=
    putUncovered_limited (w := w.capped n) rfl [checksum, closingMagic]
  have hseal := wholeLength_seal hlength hle
  have hflatten : [checksum, closingMagic].flatten.length = sealSize := by
    simp [hlength, sealSize]
  dsimp only
  rw [writeChecksum_snd, hbytes, hposition, hcapped.1, hcapped.2, hflatten, haligned]
  omega

theorem close_size_eq (hroom : w.sink.room = none) (hopen : w.phase ≠ .closed)
    {summary : CloseSummary} (h : w.close.1 = .ok summary) :
    ∃ indexOffset last, writeCovered w.abandon = (.ok indexOffset, last) ∧
      summary.size = last.position + sealSize := by
  obtain ⟨_, hextends⟩ := writeCovered_extends w.abandon
  cases hwrite : writeCovered w.abandon with
  | mk result last =>
    rw [hwrite] at hextends
    cases result with
    | error e =>
      rw [close_eq_covered hopen, andThen, hwrite] at h
      cases h
    | ok indexOffset =>
      obtain ⟨_, hwhole, hsize⟩ := writeChecksum_size (hextends.room hroom) indexOffset
        (length_sha1 last.sink.bytes)
      rw [close_of_covered hopen hwrite, hwhole] at h
      cases h
      exact ⟨indexOffset, last, rfl, hsize⟩

theorem close_size_le (hroom : w.sink.room = none) (hopen : w.phase ≠ .closed)
    (haligned : w.Aligned) {summary : CloseSummary} (h : w.close.1 = .ok summary) :
    w.sink.bytes.length + sealSize ≤ summary.size := by
  obtain ⟨_, last, hwrite, hsize⟩ := close_size_eq hroom hopen h
  obtain ⟨taken, hextends⟩ := writeCovered_extends w.abandon
  rw [hwrite] at hextends
  have hposition : last.position = w.position + taken.length := hextends.position
  rw [hsize, hposition, haligned]
  omega

theorem close_tally (hroom : w.sink.room = none) (hopen : w.phase ≠ .closed)
    (haligned : w.Aligned) (hle : w.sink.bytes.length ≤ n) :
    Tally n (fun summary => w.close.1 = .ok summary) (w.capped n).close.2 := by
  have hcovered : Capped n Failed w.abandon writeCovered := writeCovered_capped hroom
  obtain ⟨_, hextends⟩ := writeCovered_extends w.abandon
  have hfailed : Failed (writeCovered (w.abandon.capped n)).1 → (w.capped n).close.2.Aligned :=
    close_aligned_of_failed (w := w.capped n) hopen haligned
  have hsizes := fun (summary : CloseSummary) (h : w.close.1 = .ok summary) =>
    close_size_eq hroom hopen h
  cases hwrite : writeCovered w.abandon with
  | mk result last =>
    obtain ⟨hlast, _, hfits, hfull⟩ := hcovered
    rw [hwrite] at hlast hfits hfull hextends hsizes
    have hstill : last.Aligned := hextends.aligned haligned
    -- only where all that the checksum covers has room can the limit fall into the seal
    by_cases hroomy : last.sink.bytes.length ≤ n
    · cases result with
      | error e =>
        refine .of_aligned (hfailed ⟨e, congrArg Prod.fst (hfits hroomy)⟩) ?_
        intro summary h
        obtain ⟨_, _, hdone, _⟩ := hsizes summary h
        cases hdone
      | ok indexOffset =>
        rw [close_of_covered (w := w.capped n) hopen (hfits hroomy)]
        constructor
        case unsealed =>
          intro hnone
          obtain ⟨whole, hwhole, _⟩ := writeChecksum_size hlast indexOffset
            (length_sha1 last.sink.bytes)
          exact absurd ((congrArg Prod.fst (close_of_covered hopen hwrite)).trans hwhole)
            (hnone whole)
        case counted =>
          intro summary h
          obtain ⟨_, _, hdone, hsize⟩ := hsizes summary h
          cases hdone
          rw [hsize]
          exact writeChecksum_tally hstill hroomy indexOffset (length_sha1 _)
    · refine .of_aligned (hfailed (hfull hle (Nat.lt_of_not_le hroomy)).1) ?_
      intro summary h
      obtain ⟨_, _, hdone, hsize⟩ := hsizes summary h
      cases hdone
      rw [uncounted_eq_zero_iff, hsize, hstill]
      rintro ⟨_, hlt, _⟩
      omega

theorem answer_eq_sealed {call : Call} {summary : CloseSummary}
    (h : (w.answer call).1 = .ok (.sealed summary)) :
    call = .close ∧ w.close.1 = .ok summary := by
  cases call with
  | close =>
    obtain ⟨s, hs, heq⟩ := exists_of_map_eq_ok h
    cases heq
    exact ⟨rfl, hs⟩
  | flush => cases h
  | _ =>
    obtain ⟨_, _, heq⟩ := exists_of_map_eq_ok h
    cases heq

theorem closed_run_unsealed (h : w.phase = .closed) (calls : List Call) (summary : CloseSummary) :
    .ok (.sealed summary) ∉ (w.run calls).1 := by
  induction calls with
  | nil => exact List.not_mem_nil
  | cons call rest ih =>
    rw [run_cons, (closed_answer h call).1, List.mem_cons, not_or]
    refine ⟨?_, ih⟩
    intro hanswer
    have hclose := (answer_eq_sealed hanswer.symm).2
    rw [close, if_pos h] at hclose
    cases hclose

/-- Two open writers that have answered the same calls, `v` with room for `n` bytes in all and `w`
with room for any, and have counted every byte. -/
structure Abreast (n : Nat) (w v : Writer) : Prop where
  unlimited : w.sink.room = none
  active : w.phase ≠ .closed
  kept : ∃ located, Kept w located
  limitedActive : v.phase ≠ .closed
  limitedKept : ∃ located, Kept v located
  /-- A limit that has not been passed makes no difference, one that was leaves no room. -/
  limited : (w.sink.bytes.length ≤ n ∧ v = w.capped n) ∨
    (n < w.sink.bytes.length ∧ v.sink.room = some 0)

theorem Abreast.aligned (h : Abreast n w v) : w.Aligned ∧ v.Aligned := by
  obtain ⟨_, hkept⟩ := h.kept
  obtain ⟨_, hlimited⟩ := h.limitedKept
  exact ⟨hkept.aligned h.active, hlimited.aligned h.limitedActive⟩

theorem Abreast.start (hstart : start c (.empty none) = .ok w)
    (hlimited : start c (.empty (some n)) = .ok v) : Abreast n w v := by
  constructor
  case unlimited => exact (start_holds hstart).unlimited
  case active => exact (start_staged hstart).1
  case kept => exact ⟨_, start_kept (Sink.bytes_empty _) hstart⟩
  case limitedActive => exact (start_staged hlimited).1
  case limitedKept => exact ⟨_, start_kept (Sink.bytes_empty _) hlimited⟩
  case limited =>
    rcases start_capped hstart n with ⟨hsame, hle⟩ | ⟨failure, hfailed, _⟩
    · rw [hsame] at hlimited
      cases hlimited
      exact .inl ⟨hle, rfl⟩
    · rw [hfailed] at hlimited
      cases hlimited

theorem Abreast.answer (h : Abreast n w v) {call : Call} (hcall : call ≠ .close) :
    Abreast n (w.answer call).2 (v.answer call).2 := by
  obtain ⟨_, hkept⟩ := h.kept
  obtain ⟨_, hlimitedKept⟩ := h.limitedKept
  have hcapped := answer_capped (n := n) h.unlimited call
  constructor
  case unlimited => exact hcapped.unlimited
  case active => exact (answer_proceeds h.active hcall).active
  case kept => exact ⟨_, hkept.answer call⟩
  case limitedActive => exact (answer_proceeds h.limitedActive hcall).active
  case limitedKept => exact ⟨_, hlimitedKept.answer call⟩
  case limited =>
    rcases h.limited with ⟨hle, rfl⟩ | ⟨hlt, hfull⟩
    · by_cases hfits : (w.answer call).2.sink.bytes.length ≤ n
      · exact .inl ⟨hfits, congrArg Prod.snd (hcapped.fits hfits)⟩
      · have hover := Nat.lt_of_not_le hfits
        exact .inr ⟨hover, (hcapped.full hle hover).2.room⟩
    · exact .inr ⟨Nat.lt_of_lt_of_le hlt hcapped.grows.length_le, (answer_full hfull call).2⟩

theorem close_full_aligned (hroom : v.sink.room = some 0) (hopen : v.phase ≠ .closed)
    (haligned : v.Aligned) : v.close.2.Aligned := by
  obtain ⟨free, hfree, hbytes, hcap⟩ := exists_capped_of_full hroom
  subst hcap
  have htally := close_tally hfree hopen haligned (Nat.le_refl _)
  refine htally.aligned_iff.2 ?_
  rintro summary hsealed ⟨_, hlt, _⟩
  have hsize := close_size_le hfree hopen haligned hsealed
  omega

theorem Abreast.close (h : Abreast n w v) :
    Tally n (fun summary => w.close.1 = .ok summary) v.close.2 := by
  obtain ⟨haligned, hlimited⟩ := h.aligned
  rcases h.limited with ⟨hle, rfl⟩ | ⟨hlt, hfull⟩
  · exact close_tally h.unlimited h.active haligned hle
  · refine .of_aligned (close_full_aligned hfull h.limitedActive hlimited) ?_
    intro summary hsealed
    have hsize := close_size_le h.unlimited h.active haligned hsealed
    rw [uncounted_eq_zero_iff]
    rintro ⟨_, hbreaks, _⟩
    omega

theorem Abreast.run (h : Abreast n w v) (calls : List Call) :
    Tally n (fun summary => .ok (.sealed summary) ∈ (w.run calls).1) (v.run calls).2 := by
  induction calls generalizing w v with
  | nil => exact .of_aligned h.aligned.2 fun _ hnone => absurd hnone List.not_mem_nil
  | cons call rest ih =>
    -- behind the first attempt to seal the log nothing is written or sealed
    by_cases hcall : call = .close
    · subst hcall
      have hlast : (v.run (.close :: rest)).2 = v.close.2 := closed_run (close_closes v) rest
      have hclosed : (w.answer .close).2.phase = .closed := close_closes w
      rw [hlast]
      refine h.close.congr ?_
      intro summary
      rw [run_cons, List.mem_cons, or_iff_left (closed_run_unsealed hclosed rest summary)]
      constructor
      · exact fun hanswer => (answer_eq_sealed hanswer.symm).2
      · intro hclose
        rw [Writer.answer, hclose]
        rfl
    · refine (ih (h.answer hcall)).congr ?_
      intro summary
      rw [run_cons, List.mem_cons]
      exact or_iff_right fun hanswer => hcall (answer_eq_sealed hanswer.symm).1

/-- On a sink that takes `n` bytes in all the position of a writer, whatever it was asked for, is
the number of bytes on the sink, unless it was asked to seal its log and the sink broke off strictly
inside the checksum or strictly inside the closing magic: then the bytes of these on the sink are
missing from the position. -/
theorem position_eq_length_iff (hstart : start c (.empty none) = .ok w)
    (hlimited : start c (.empty (some n)) = .ok v) (calls : List Call) :
    ((v.run calls).2.position = (v.run calls).2.sink.bytes.length ↔
        ∀ summary, .ok (.sealed summary) ∈ (w.run calls).1 → ¬ BreaksSeal n summary.size) ∧
      ∀ summary, .ok (.sealed summary) ∈ (w.run calls).1 →
        (v.run calls).2.position + uncounted n summary.size =
          (v.run calls).2.sink.bytes.length := by
  have htally := (Abreast.start hstart hlimited).run calls
  exact ⟨htally.aligned_iff, htally.counted⟩

/-- A log of 140 bytes on a sink of 138 breaks off inside its closing magic, of which two bytes are
there but not counted. -/
theorem position_eq_length_iff_torn_magic : ∃ w v : Writer,
    start .default (.empty none) = .ok w ∧ start .default (.empty (some 138)) = .ok v ∧
      let calls : List Call := [.append (.ofType "a") 5 [] [1, 2], .close]
      let last := (v.run calls).2
      last.position ≠ last.sink.bytes.length ∧ last.position + 2 = last.sink.bytes.length := by
  let first : Call := .append (.ofType "a") 5 [] [1, 2]
  have hsize : (start .default (.empty none)).toOption.map (fun w =>
      (w.answer first).2.close.1.toOption.map CloseSummary.size) = some (some 140) := by
    decide +kernel
  have hroomy : (start .default (.empty (some 138))).toOption.map (fun v => v.seriesCount) =
      some 0 := by
    decide +kernel
  obtain ⟨w, hstart, hclosed⟩ := exists_of_toOption_map hsize
  obtain ⟨v, hlimited, _⟩ := exists_of_toOption_map hroomy
  obtain ⟨summary, hclose, hsummary⟩ := exists_of_toOption_map hclosed
  have hanswers : (w.run [first, .close]).1 =
      [(w.answer first).1, (w.answer first).2.close.1.map .sealed] := rfl
  have hmem : .ok (.sealed summary) ∈ (w.run [first, .close]).1 := by
    rw [hanswers, hclose]
    exact List.mem_cons_of_mem _ (.head _)
  obtain ⟨hiff, hcounts⟩ := position_eq_length_iff hstart hlimited [first, .close]
  have hbreaks : BreaksSeal 138 summary.size := by
    rw [hsummary]
    decide
  refine ⟨w, v, hstart, hlimited, fun heq => hiff.1 heq summary hmem hbreaks, ?_⟩
  have hcount := hcounts summary hmem
  rwa [hsummary] at hcount

/-- A sink of 48 bytes breaks off inside the checksum of a log without series: the position is where
the checksum starts. -/
theorem close_miscounts_torn_checksum : ∃ v, start .default (.empty (some 48)) = .ok v ∧
    let last := (v.run [.close]).2
    last.sink.bytes.length = 48 ∧ last.position = 38 := by
  have hrun : (start .default (.empty (some 48))).toOption.map (fun v =>
      ((v.run [.close]).2.sink.bytes.length, (v.run [.close]).2.position)) = some (48, 38) := by
    decide +kernel
  obtain ⟨v, hstart, hvalues⟩ := exists_of_toOption_map hrun
  exact ⟨v, hstart, by simpa only [Prod.mk.injEq] using hvalues⟩

end SeriesLog.Writer
