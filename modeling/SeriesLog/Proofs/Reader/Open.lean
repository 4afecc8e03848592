import SeriesLog.Proofs.Scan.Logs

/-! # Opening a sealed log

A sealed log opens with the annotations it was started with. Its series are those of the journal,
whether they are read from the index or found by a scan. -/
namespace SeriesLog.Reader

variable {annotations : Labels} {journal : List Addition} {offset : Nat}
  {found : List SeriesState}

theorem readFileDescriptor_opening {limit : Nat}
    (hle : (fileBlock annotations).body.length ≤ maxBodySize)
    (hlimit : (fileBlock annotations).body.length ≤ limit) (rest : Bytes) :
    readFileDescriptor (opening annotations ++ rest) limit = .ok (.ofAnnotations annotations) := by
  have hbytes : opening annotations ++ rest =
      openingMagic ++ (((fileBlock annotations).header hle).encode ++
        ((fileBlock annotations).body ++ rest)) := by
    rw [opening, Block.encode_eq _ hle]
    simp only [List.append_assoc]
  have hmagic : Scan.readMagic (.ofBytes (opening annotations ++ rest)) .fileMagic =
      .ok ⟨((fileBlock annotations).header hle).encode ++
        ((fileBlock annotations).body ++ rest), none⟩ := by
    rw [hbytes]
    exact Scan.readMagic_append _ none .fileMagic
  unfold readFileDescriptor
  rw [hmagic]
  dsimp only
  rw [Source.readHeader_append]
  dsimp only
  rw [if_neg (fun hne => hne rfl),
    Source.readBody_header _ hle hlimit]
  dsimp only
  rw [decode_fileBlock hle]

theorem readTrailer?_append {before : Bytes} {trailer : Trailer}
    (hchecksum : trailer.checksum.length = checksumSize)
    (hbefore : openingMagic.length ≤ before.length) :
    readTrailer? (before ++ trailer.encode) = some trailer := by
  have hlength := Trailer.length_encode hchecksum
  have hraw : (before ++ trailer.encode).drop
      ((before ++ trailer.encode).length - trailerSize) = trailer.encode := by
    rw [List.length_append, hlength, Nat.add_sub_cancel, List.drop_left]
  have hheader : trailer.encode.take headerSize =
      (Header.mk .trailer trailerDeclaredSize (by decide)).encode := by
    rw [Trailer.encode]
    exact List.take_left' (Header.length_encode _)
  have hrest : trailer.encode.drop headerSize =
      Bytes.littleEndian 8 trailer.indexOffset.toNat ++ trailer.checksum ++ closingMagic := by
    rw [Trailer.encode]
    exact List.drop_left' (Header.length_encode _)
  unfold readTrailer?
  rw [if_neg (by rw [List.length_append, hlength]; omega)]
  simp only [hraw, hheader, Header.ofBytes?_encode, and_self, if_true, hrest]
  have hread : Scan.readTrailer ⟨Bytes.littleEndian 8 trailer.indexOffset.toNat ++
      trailer.checksum ++ closingMagic ++ [], none⟩ = .ok trailer :=
    Scan.readTrailer_append hchecksum []
  rw [List.append_nil] at hread
  rw [Source.ofBytes, hread]

/-- A scan takes the first series of every number. Numbers have 32 bits, so it passes over those that
come behind the first `2 ^ 32`. -/
theorem collectItem_of_admits {a : Addition} (keep : Bool) (size : Nat) (ha : Admits found a) :
    collectItem (found.take (2 ^ 32)) (.block offset size (a.content keep)) =
      .ok ((a.enter offset found).take (2 ^ 32)) := by
  cases ha with
  | series hfresh hrefusal =>
    simp only [Addition.content, Addition.enter, collectItem, SeriesDescriptor.make,
      UInt32.toNat_ofNat']
    by_cases hlt : found.length < 2 ^ 32
    · have hgrown : ∀ s : SeriesState, (found ++ [s]).length ≤ 2 ^ 32 := by
        intro s
        rw [List.length_append, List.length_singleton]
        exact hlt
      rw [List.take_of_length_le (Nat.le_of_lt hlt), List.take_of_length_le (hgrown _),
        Nat.mod_eq_of_lt hlt, if_neg (Nat.lt_irrefl _), if_pos rfl]
    · have hfull : (found.take (2 ^ 32)).length = 2 ^ 32 :=
        List.length_take_of_le (Nat.le_of_not_lt hlt)
      rw [hfull, if_pos (Nat.mod_lt _ (by decide)),
        List.take_append_of_le_length (Nat.le_of_not_lt hlt)]
  | data hfound harity hsize =>
    simp only [Addition.content, Addition.enter, collectItem, List.take_modify]

theorem collect_append (items more : List ScanItem) {after : List SeriesState}
    (h : collect found items = .ok after) : collect found (items ++ more) = collect after more := by
  induction items generalizing found with
  | nil =>
    cases h
    rfl
  | cons item rest ih =>
    simp only [collect, List.cons_append] at h ⊢
    cases hitem : collectItem found item with
    | error e =>
      rw [hitem] at h
      cases h
    | ok next =>
      rw [hitem] at h
      exact ih h

theorem collect_journal (keep : Bool) (hsound : Sound offset found journal) :
    collect (found.take (2 ^ 32)) (Scan.placed offset (blocksOf keep journal)) =
      .ok ((track offset found journal).take (2 ^ 32)) := by
  induction journal generalizing offset found with
  | nil => rfl
  | cons a rest ih =>
    have hitem : collectItem (found.take (2 ^ 32))
        (.block offset a.block.body.length (a.content keep)) =
        .ok ((a.enter offset found).take (2 ^ 32)) := collectItem_of_admits keep _ hsound.1
    simp only [blocksOf, List.map_cons, Scan.placed, collect, hitem]
    exact ih hsound.2.2

theorem collect_inert {tail : List (Block × BlockContent)}
    (h : ∀ p ∈ tail, p.2.Inert) :
    collect found (Scan.placed offset tail) = .ok found := by
  induction tail generalizing offset with
  | nil => rfl
  | cons p tail ih =>
    have hrest := @ih (offset + p.1.size) fun q hq => h q (List.mem_cons_of_mem p hq)
    have hp := h p List.mem_cons_self
    obtain ⟨b, content⟩ := p
    simp only [Scan.placed, collect]
    cases content with
    | descriptor d =>
      cases d with
      | file d => exact hrest
      | series d => exact hp.elim
      | index d => exact hrest
    | data d payload => exact hp.elim
    | reserved code => exact hrest
    | undecodable reason => exact hrest

theorem collect_log (keep : Bool) (hsound : SoundIn annotations journal) :
    collect [] (Scan.placed openingMagic.length (logBlocks annotations keep journal)) =
      .ok ((seriesIn annotations journal).take (2 ^ 32)) := by
  have hblocks := collect_journal keep hsound
  have hlength := length_opening annotations
  rw [hlength, List.take_nil] at hblocks
  simp only [logBlocks, Scan.placed, collect, collectItem]
  rw [hblocks, seriesIn, hlength]

theorem scanSeries_sealed {c : ReaderConfig} (skip : Bool)
    (h : Readable annotations journal c.maxBlockSize)
    {tail : List (Block × BlockContent)} (htail : Scan.ReadsAll (c.scan false skip) tail)
    (hinert : ∀ p ∈ tail, p.2.Inert) {trailer : Trailer}
    (hchecksum : trailer.checksum.length = checksumSize) :
    scanSeries (sealedBytes annotations journal (tail.map (·.1)) trailer) c skip =
      .ok (((seriesIn annotations journal).take (2 ^ 32)).map SeriesState.toIndex, false) := by
  obtain ⟨stop, hscan⟩ := scan_sealed (c := c.scan false skip) h htail hchecksum
  have hjournal := collect_log (c.scan false skip).payloads h.sound
  have hall : collect [] (Scan.placed openingMagic.length
        (logBlocks annotations (c.scan false skip).payloads journal) ++
      Scan.placed (logBytes annotations journal).length tail ++ [.trailer stop trailer]) =
      .ok ((seriesIn annotations journal).take (2 ^ 32)) := by
    rw [List.append_assoc, collect_append _ _ hjournal, collect_append _ _ (collect_inert hinert)]
    rfl
  unfold scanSeries
  simp only [hscan, hall]
  rfl

end SeriesLog.Reader
