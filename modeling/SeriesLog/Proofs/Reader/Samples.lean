import SeriesLog.Proofs.Pod.Values
import SeriesLog.Proofs.Reader.Lookup
import SeriesLog.Proofs.Reader.RoundTrip
import SeriesLog.Proofs.Writer.Samples

/-! # Reading samples back

What was written to a numeric series is read back from the sealed log as whole samples, bit by bit
and in time order. The series has to have a type: a writer takes samples for a series without one as
well, but such a series is in no log that opens. -/
namespace SeriesLog

variable {shape : Pod.Shape} {range : TimeRange}

def samplesIn (written : List SampleBlock) (range : TimeRange) : List SampleBlock :=
  (written.mergeSort fun a b => decide (a.timestamp ≤ b.timestamp)).filter fun b =>
    range.contains b.timestamp

theorem mem_of_mem_samplesIn {written : List SampleBlock} {b : SampleBlock}
    (h : b ∈ samplesIn written range) : b ∈ written :=
  List.mem_mergeSort.1 (List.mem_filter.1 h).1

theorem map_request_samplesIn {records : List DataRecord} {written : List SampleBlock}
    (h : records.map DataRecord.request = written.map SampleBlock.request) (range : TimeRange) :
    ((records.mergeSort DataRecord.notAfter).filter fun q =>
        range.contains q.timestamp).map DataRecord.request =
      (samplesIn written range).map SampleBlock.request := by
  let notAfter : Request → Request → Bool := fun a b => decide (a.timestamp ≤ b.timestamp)
  let within : Request → Bool := fun a => range.contains a.timestamp
  have hrecords : (records.mergeSort DataRecord.notAfter).map DataRecord.request =
      (records.map DataRecord.request).mergeSort notAfter :=
    List.map_mergeSort fun _ _ _ _ => rfl
  have hwritten : (written.mergeSort fun a b => decide (a.timestamp ≤ b.timestamp)).map
      SampleBlock.request = (written.map SampleBlock.request).mergeSort notAfter :=
    List.map_mergeSort fun _ _ _ _ => rfl
  calc ((records.mergeSort DataRecord.notAfter).filter fun q =>
        range.contains q.timestamp).map DataRecord.request
      = ((records.map DataRecord.request).mergeSort notAfter).filter within := by
        rw [← hrecords, List.filter_map]
        rfl
    _ = ((written.map SampleBlock.request).mergeSort notAfter).filter within := by rw [h]
    _ = (samplesIn written range).map SampleBlock.request := by
        rw [← hwritten, List.filter_map]
        rfl

theorem SampleBlock.count_of_whole {b : SampleBlock}
    (h : b.shape.Whole b.values.words.length) :
    ∃ perSample, b.shape.elementsPerSample = some perSample ∧
      b.sampleCount = b.values.words.length / perSample ∧
      b.sampleCount * perSample = b.values.words.length ∧ 1 ≤ b.sampleCount := by
  obtain ⟨perSample, hper, hpos, hcount, hdvd⟩ := h
  have hsamples : b.sampleCount = b.values.words.length / perSample := by
    rw [sampleCount, hper]
  refine ⟨perSample, hper, hsamples, ?_, ?_⟩
  · rw [hsamples]
    exact Nat.div_mul_cancel hdvd
  · rw [hsamples]
    exact Nat.div_pos (Nat.le_of_dvd (Nat.pos_of_ne_zero hcount) hdvd) (Nat.pos_of_ne_zero hpos)

theorem declared_getElem? {annotations : Labels} {journal : List Addition}
    (hsound : SoundIn annotations journal)
    (hcount : (seriesIn annotations journal).length ≤ 2 ^ 32) {d : SeriesDescriptor}
    (hd : d ∈ declared journal) : (declared journal)[d.index.toNat]? = some d := by
  have horderly : Orderly (seriesIn annotations journal) := Orderly.nil.track hsound
  have hmap := map_descriptor_track (opening annotations).length [] journal
  rw [List.map_nil, List.nil_append] at hmap
  rw [← hmap] at hd ⊢
  obtain ⟨s, hs, rfl⟩ := List.mem_map.1 hd
  obtain ⟨i, hi⟩ := List.mem_iff_getElem?.1 hs
  have hlt := (List.getElem?_eq_some_iff.1 hi).1
  have hindex : s.descriptor.index.toNat = i := by
    rw [horderly.numbered i s hi]
    exact UInt32.toNat_ofNat_of_lt' (Nat.lt_of_lt_of_le hlt hcount)
  rw [hindex, List.getElem?_map]
  exact congrArg _ hi

namespace Reader

variable {r : Reader} {index : UInt32} {selector : Selector}

theorem sampleBlock_of_request {q : DataRecord} {b : SampleBlock} (h : q.request = b.request)
    (hshape : b.shape = shape) (helement : b.values.element = shape.element) :
    sampleBlock shape q = .ok b := by
  obtain ⟨timestamp, indexValues, _, values⟩ := b
  dsimp only at hshape helement
  subst hshape
  have hdecode := values.decode?_encode
  rw [helement] at hdecode
  obtain ⟨htimestamp, hindexValues, hpayload⟩ := Request.mk.inj h
  unfold sampleBlock
  rw [hpayload, hdecode, htimestamp, hindexValues]

theorem sampleBlocksOf_of_requests {records : List DataRecord} {blocks : List SampleBlock}
    (h : records.map DataRecord.request = blocks.map SampleBlock.request)
    (hblocks : ∀ b ∈ blocks, b.shape = shape ∧ b.values.element = shape.element) :
    sampleBlocksOf shape (records.map .ok) = .ok blocks := by
  induction records generalizing blocks with
  | nil =>
    rw [List.map_nil] at h
    rw [List.map_eq_nil_iff.1 h.symm]
    rfl
  | cons q rest ih =>
    cases blocks with
    | nil => cases h
    | cons b more =>
      obtain ⟨hfirst, hmore⟩ := List.cons.inj h
      obtain ⟨hshape, helement⟩ := hblocks b List.mem_cons_self
      have hrest := ih hmore fun other hother => hblocks other (List.mem_cons_of_mem b hother)
      rw [List.map_cons, sampleBlocksOf, sampleBlock_of_request hfirst hshape helement]
      dsimp only
      rw [hrest]
      rfl

theorem sampleBlocks_of_find (hfind : r.find selector = .ok index)
    (hshape : r.shape index = .ok shape) {records : List (Except LogError DataRecord)}
    (hrecords : r.records (.numbered index) range = .ok records) :
    r.sampleBlocks selector range = sampleBlocksOf shape records := by
  unfold sampleBlocks
  simp only [hfind, hshape, hrecords]

theorem sampleValues_of_find (hfind : r.find selector = .ok index)
    (hshape : r.shape index = .ok shape) :
    r.sampleValues shape.element selector range =
      (r.sampleBlocks (.numbered index) range).map fun blocks =>
        blocks.map fun b => (b.timestamp, b.values) := by
  unfold sampleValues
  simp only [hfind, hshape]
  rw [if_neg (not_not_intro rfl)]

/-- A reader that gives samples back as they were written to a series: by whatever selector the
series is found, the blocks of a range are those that were written in it, in time order, their
values are the same words, and each has as many samples as its values come to. -/
structure GivesBack (r : Reader) (d : SeriesDescriptor) (shape : Pod.Shape)
    (written : List SampleBlock) : Prop where
  named : r.find (.named d.id) = .ok d.index
  numbered : r.find (.numbered d.index) = .ok d.index
  blocks : ∀ (selector : Selector), r.find selector = .ok d.index → ∀ range : TimeRange,
    r.sampleBlocks selector range = .ok (samplesIn written range)
  values : ∀ (selector : Selector), r.find selector = .ok d.index → ∀ range : TimeRange,
    r.sampleValues shape.element selector range =
      .ok ((samplesIn written range).map fun b => (b.timestamp, b.values))
  counted : ∀ b ∈ written, b.shape = shape ∧ b.values.element = shape.element ∧
    ∃ perSample, shape.elementsPerSample = some perSample ∧
      b.sampleCount = b.values.words.length / perSample ∧
      b.sampleCount * perSample = b.values.words.length ∧ 1 ≤ b.sampleCount

variable {annotations : Labels} {journal : List Addition} {written : List SampleBlock}

theorem Opened.givesBack (h : r.Opened annotations journal) (hsound : SoundIn annotations journal)
    (hcount : (seriesIn annotations journal).length ≤ 2 ^ 32)
    (hsize : (logBytes annotations journal).length < 2 ^ 64) {d : SeriesDescriptor}
    (hd : d ∈ declared journal) (hkind : d.kind = .pod shape)
    (hwritten : ((recordsIn annotations journal).filter fun q => q.series = d.index).map
      DataRecord.request = written.map SampleBlock.request)
    (hwhole : ∀ b ∈ written, b.shape = shape ∧ b.values.element = shape.element ∧
      shape.Whole b.values.words.length) : r.GivesBack d shape written := by
  have hdescriptor : r.descriptor? d.index = some d := by
    rw [descriptor?, ← List.getElem?_map, h.descriptors]
    exact declared_getElem? hsound hcount hd
  have hshape : r.shape d.index = .ok shape := by
    rw [Reader.shape, hdescriptor]
    dsimp only
    rw [hkind]
  have hlt : d.index.toNat < r.series.length := by
    obtain ⟨t, ht, _⟩ := Option.map_eq_some_iff.1 hdescriptor
    exact (List.getElem?_eq_some_iff.1 ht).1
  have hposition : r.position? (.numbered d.index) = some d.index.toNat := if_pos hlt
  have hnumbered : r.find (.numbered d.index) = .ok d.index := by
    rw [find, hposition]
    exact congrArg Except.ok UInt32.ofNat_toNat
  have hblocks : ∀ (selector : Selector), r.find selector = .ok d.index → ∀ range : TimeRange,
      r.sampleBlocks selector range = .ok (samplesIn written range) := by
    intro selector hfind range
    have hplace : d.index.toNat < (seriesIn annotations journal).length := by
      rw [← h.length_series]
      exact hlt
    have hrecords := h.records_eq_timelineIn hsound hcount hsize hplace hposition range
    rw [sampleBlocks_of_find hfind hshape hrecords]
    apply sampleBlocksOf_of_requests
    · unfold timelineIn
      simp only [UInt32.toNat_inj]
      exact map_request_samplesIn hwritten range
    · intro b hb
      obtain ⟨hb, helement, _⟩ := hwhole b (mem_of_mem_samplesIn hb)
      exact ⟨hb, helement⟩
  constructor
  · obtain ⟨i, hnamed, _, hindex⟩ := h.position?_named hsound hd
    rw [find, hnamed, hindex]
  · exact hnumbered
  · exact hblocks
  · intro selector hfind range
    rw [sampleValues_of_find hfind hshape, hblocks _ hnumbered range]
    rfl
  · intro b hb
    obtain ⟨hb, helement, hcounted⟩ := hwhole b hb
    rw [← hb] at hcounted helement ⊢
    exact ⟨rfl, helement, b.count_of_whole hcounted⟩

theorem sampleValues_typeless {file : Bytes} {c : ReaderConfig} (hopen : ofFile file c = .ok r)
    {id : SeriesId} (hid : id.type = "") (element : Pod.Element) (range : TimeRange) :
    r.sampleValues element (.named id) range = .error (.unknownSeries (.named id)) := by
  have hunknown : r.find (.named id) = .error (.unknownSeries (.named id)) := by
    rw [(first_match hopen).unknown]
    refine ⟨rfl, ?_⟩
    rintro i ⟨t, ht, rfl⟩
    exact (descriptor_of_ofFile hopen ht).1.typed hid
  unfold sampleValues
  rw [hunknown]

end Reader

/-- Where its block is taken, a writer takes values of the type of a series if and only if they are
whole samples. -/
def Writer.TakesWhole (w : Writer) : Prop :=
  ∀ (index : UInt32) (timestamp : Int64) (indexValues : List Int64) (values : Pod.Values)
    (s : SeriesState) (shape : Pod.Shape), w.Takes index timestamp indexValues values.encode s →
    w.sink.HasRoom (8 + (s.next index timestamp indexValues).bodySize values.encode) →
    s.descriptor.kind = .pod shape → values.element = shape.element →
    ((∃ l, (w.appendSamples index timestamp indexValues values).1 = .ok l) ↔
      shape.Whole values.words.length)

theorem Writer.takesWhole (w : Writer) : w.TakesWhole := by
  intro index timestamp indexValues values s shape htakes hroom hkind helement
  have hdescriptor : w.descriptor? index = some s.descriptor := by
    rw [descriptor?, htakes.declared, Option.map_some]
  have htaken := (appendTo_ok_iff w index timestamp indexValues values.encode).2
    ⟨s, htakes, hroom⟩
  rw [appendSamples_ok_iff, and_iff_left htaken]
  constructor
  · rintro ⟨d, other, hd, hother, _, hwhole⟩
    rw [hdescriptor] at hd
    cases hd
    rw [hkind] at hother
    cases hother
    exact hwhole
  · exact fun hwhole => ⟨s.descriptor, shape, hdescriptor, hkind, helement, hwhole⟩

/-- Samples are taken if they are whole. Whatever else is declared and appended in between, the
samples of every numeric series to which no raw payload was appended are given back by the sealed
log as they were written. That all series have a type is needed: without a type a series is not
found in any log. -/
theorem samples_round_trip {c : WriterConfig} (run : SealedRun c) (rc : ReaderConfig)
    (hcount : (declared run.journal).length < 2 ^ 32) (hsize : run.bytes.length < 2 ^ 64)
    (hlimit : ∀ b ∈ run.blocks ++ run.tail, b.body.length ≤ rc.maxBlockSize) :
    (∀ w : Writer, w.TakesWhole) ∧
    (∃ r, Reader.ofFile run.bytes rc = .ok r ∧
      ∀ d ∈ declared run.journal, ∀ shape, d.kind = .pod shape → run.SamplesOnly d.index →
        r.GivesBack d shape (run.samples d.index shape)) ∧
    ∀ file r, Reader.ofFile file rc = .ok r → ∀ id : SeriesId, id.type = "" →
      ∀ element range, r.sampleValues element (.named id) range =
        .error (.unknownSeries (.named id)) := by
  refine ⟨Writer.takesWhole, ?_, fun file r hopen id hid element range =>
    Reader.sampleValues_typeless hopen hid element range⟩
  obtain ⟨source, hopen⟩ := run.ofFile (Nat.le_of_lt hcount) hsize hlimit
  refine ⟨_, hopen, ?_⟩
  intro d hd shape hkind hsamples
  have hopened := run.opened hlimit source
  have hsound : SoundIn c.annotations run.journal := run.holds.sound
  have hseries : (seriesIn c.annotations run.journal).length ≤ 2 ^ 32 := by
    rw [run.length_seriesIn]
    exact Nat.le_of_lt hcount
  have hlast : run.last.descriptor? d.index = some d := by
    rw [Writer.descriptor?, ← List.getElem?_map, ← run.holds.declared_eq]
    exact declared_getElem? hsound hseries hd
  exact hopened.givesBack hsound hseries (Nat.lt_trans run.length_logBytes_lt hsize) hd hkind
    (run.requests_eq_samples hsamples shape) fun b hb => run.whole_of_mem_samples hlast hkind hb

/-- Samples of two floats, one of them no number, that are written out of order and between blocks
of another series. A single float is no sample. -/
theorem samples_round_trip_interleaved :
    ∃ run : SealedRun .default,
      run.calls = [.declare (.ofType "p") (.pod ⟨.float32, [2]⟩) [] .empty,
        .appendSamples 0 5 [] ⟨.float32, [0x7fc00001, 1]⟩, .append (.ofType "a") 4 [] [9],
        .appendSamples 0 3 [] ⟨.float32, [1, 2, 3, 4]⟩, .appendSamples 0 4 [] ⟨.float32, [1]⟩] ∧
      ∃ r, Reader.ofFile run.bytes .default = .ok r ∧
        r.sampleValues .float32 (.named (.ofType "p")) ⟨none, none⟩ =
          .ok [(3, ⟨.float32, [1, 2, 3, 4]⟩), (5, ⟨.float32, [0x7fc00001, 1]⟩)] := by
  let shape : Pod.Shape := ⟨.float32, [2]⟩
  let calls : List Call := [.declare (.ofType "p") (.pod shape) [] .empty,
    .appendSamples 0 5 [] ⟨.float32, [0x7fc00001, 1]⟩, .append (.ofType "a") 4 [] [9],
    .appendSamples 0 3 [] ⟨.float32, [1, 2, 3, 4]⟩, .appendSamples 0 4 [] ⟨.float32, [1]⟩]
  have hfacts : (sealedBy? .default calls).map (fun o =>
      let journal := journalOf calls o.1
      let blocks := fileBlock .empty :: journal.map Addition.block ++
        indexPart (seriesIn .empty journal)
      (declared journal, o.2.2.length,
        blocks.all (fun b => decide (b.body.length ≤ 2 ^ 30)) && (calls.zip o.1).all fun p =>
          !p.1.isRaw || (location? p.2).map (·.series) != some 0,
        (calls.zip o.1).filterMap fun p => samples? 0 shape p.1 p.2)) =
      some ([.make 0 (.ofType "p") (.pod shape) [] .empty,
          .make 1 (.ofType "a") .untyped [] .empty], 271, true,
        [⟨5, [], shape, ⟨.float32, [0x7fc00001, 1]⟩⟩,
          ⟨3, [], shape, ⟨.float32, [1, 2, 3, 4]⟩⟩]) := by decide +kernel
  rw [Option.map_eq_some_iff] at hfacts
  obtain ⟨⟨answers, summary, bytes⟩, hsealed, hfacts⟩ := hfacts
  simp only [Prod.mk.injEq, Bool.and_eq_true] at hfacts
  obtain ⟨hdeclared, hsize, ⟨hblocks, hraw⟩, hwritten⟩ := hfacts
  obtain ⟨run, hcalls, rfl, rfl, rfl⟩ := SealedRun.exists_of_sealedBy? (by decide) hsealed
  have hjournal : run.journal = journalOf calls run.answers := by rw [Run.journal, hcalls]
  rw [← hjournal] at hdeclared hblocks
  obtain ⟨_, ⟨r, hopen, hgives⟩, _⟩ := samples_round_trip run .default
    (by rw [hdeclared]; decide) (by omega)
    (fun b hb => of_decide_eq_true (List.all_eq_true.1 hblocks b hb))
  have hsamples : run.SamplesOnly 0 := by
    intro p hp
    rw [hcalls] at hp
    have hplaced := List.all_eq_true.1 hraw p hp
    intro hp
    rw [hp] at hplaced
    exact bne_iff_ne.1 hplaced
  have hgiven : r.GivesBack (.make 0 (.ofType "p") (.pod shape) [] .empty) shape
      (run.samples 0 shape) :=
    hgives _ (by rw [hdeclared]; exact List.mem_cons_self) shape rfl hsamples
  rw [Run.samples, hcalls, hwritten] at hgiven
  refine ⟨run, hcalls, r, hopen, (hgiven.values _ hgiven.named ⟨none, none⟩).trans ?_⟩
  simp [samplesIn, List.mergeSort, TimeRange.contains]

/-- A sample that was written to a series without a type is not read back, though the log opens. -/
theorem samples_lost_typeless :
    ∃ answers summary bytes r, sealedBy? .default [.append (.ofType "a") 1 [] [1],
        .declare (.ofType "") (.pod ⟨.int16, []⟩) [] .empty,
        .appendSamples 1 2 [] ⟨.int16, [7]⟩] = some (answers, summary, bytes) ∧
      answers.filterMap location? = [⟨0, 0, 48⟩, ⟨1, 0, 91⟩] ∧
      Reader.ofFile bytes .default = .ok r ∧ r.source = .scan .unreadableIndex ∧
      r.sampleValues .int16 (.named (.ofType "")) ⟨none, none⟩ =
        .error (.unknownSeries (.named (.ofType ""))) := by
  have hfacts : (sealedBy? .default [.append (.ofType "a") 1 [] [1],
      .declare (.ofType "") (.pod ⟨.int16, []⟩) [] .empty,
      .appendSamples 1 2 [] ⟨.int16, [7]⟩]).map (fun o => (o.1.filterMap location?,
        (Reader.ofFile o.2.2 .default).toOption.map fun r => r.source)) =
      some ([⟨0, 0, 48⟩, ⟨1, 0, 91⟩], some (.scan .unreadableIndex)) := by decide +kernel
  rw [Option.map_eq_some_iff] at hfacts
  obtain ⟨⟨answers, summary, bytes⟩, hsealed, hfacts⟩ := hfacts
  obtain ⟨hlocated, hsource⟩ := Prod.mk.inj hfacts
  obtain ⟨r, hopen, hsource⟩ := exists_of_toOption_map hsource
  exact ⟨answers, summary, bytes, r, hsealed, hlocated, hopen, hsource,
    Reader.sampleValues_typeless hopen rfl .int16 ⟨none, none⟩⟩

end SeriesLog
