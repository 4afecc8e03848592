import SeriesLog.Proofs.Block.Framing
import SeriesLog.Proofs.Descriptor.Codec

/-! # Descriptors that decode

A body that decodes yields a valid descriptor, so that what was read can be written and read again
as it is. One that does not decode fails for what it says, not for where it ends. -/
namespace SeriesLog

variable {position : Nat}

theorem ShapeRecord.bounded_of_check {r : ShapeRecord} {shape : Pod.Shape}
    (h : r.check = .ok shape) : (SeriesKind.pod shape).Bounded := by
  unfold check at h
  split at h
  · cases h
  dsimp only at h
  split at h
  · cases h
  · next hsome =>
    cases h
    exact Option.isSome_iff_ne_none.2 fun hnone => hsome (by rw [hnone]; rfl)

theorem ContentRecord.bounded_of_check {content : Option ContentRecord} {kind : SeriesKind}
    (h : ContentRecord.check content = .ok kind) : kind.Bounded := by
  cases content with
  | none =>
    cases h
    trivial
  | some content =>
    cases content with
    | message type =>
      cases h
      trivial
    | pod shape =>
      obtain ⟨checked, hshape, rfl⟩ := exists_of_map_eq_ok h
      exact ShapeRecord.bounded_of_check hshape

theorem SeriesRecord.valid_of_check {r : SeriesRecord} {d : SeriesDescriptor}
    (h : r.check = .ok d) : d.Valid := by
  unfold check at h
  split at h
  · cases h
  next id hid =>
  split at h
  · cases h
  next htyped =>
  obtain ⟨kind, hkind, rfl⟩ := exists_of_map_eq_ok h
  exact ⟨htyped, rfl, ContentRecord.bounded_of_check hkind⟩

theorem valid_of_checkSeriesIndexes {records : List SeriesIndexRecord} {series : List SeriesIndex}
    (h : checkSeriesIndexes position records = .ok series) :
    (∀ s ∈ series, s.descriptor.Valid) ∧
      ∀ (i : Nat) (s : SeriesIndex), series[i]? = some s →
        s.descriptor.index.toNat = position + i := by
  induction records generalizing position series with
  | nil =>
    cases h
    exact ⟨fun s hs => (by cases hs), fun i s hs => (by cases hs)⟩
  | cons r rest ih =>
    unfold checkSeriesIndexes at h
    split at h
    · cases h
    split at h
    · cases h
    next d hd =>
    split at h
    · cases h
    next hnumber =>
    obtain ⟨more, hrest, rfl⟩ := exists_of_map_eq_ok h
    obtain ⟨hvalid, hnumbered⟩ := ih hrest
    constructor
    · intro s hs
      rcases List.mem_cons.1 hs with rfl | hs
      · exact SeriesRecord.valid_of_check hd
      · exact hvalid s hs
    · intro i s hs
      cases i with
      | zero =>
        cases hs
        exact not_not.1 hnumber
      | succ i =>
        have := hnumbered i s hs
        omega

theorem FileRecord.current_of_check {r : FileRecord} {d : FileDescriptor} (h : r.check = .ok d) :
    d.version.major = Version.current.major := by
  unfold check at h
  split at h
  · cases h
  split at h
  · cases h
  next hmajor =>
  split at h
  · cases h
    exact not_not.1 hmajor
  · cases h

theorem DescriptorRecord.valid_of_check {r : DescriptorRecord} {d : Descriptor}
    (h : r.check = .ok d) : d.Valid := by
  cases r with
  | file r =>
    obtain ⟨file, hfile, rfl⟩ := exists_of_map_eq_ok h
    exact FileRecord.current_of_check hfile
  | series r =>
    obtain ⟨series, hseries, rfl⟩ := exists_of_map_eq_ok h
    exact SeriesRecord.valid_of_check hseries
  | index records =>
    obtain ⟨series, hindex, rfl⟩ := exists_of_map_eq_ok h
    obtain ⟨hvalid, hnumbered⟩ := valid_of_checkSeriesIndexes hindex
    refine ⟨hvalid, ?_⟩
    intro i s hs
    rw [hnumbered i s hs, Nat.zero_add]

theorem Descriptor.valid_of_decode {body : Bytes} {d : Descriptor}
    (h : Descriptor.decode body = .ok d) : d.Valid := by
  unfold decode at h
  split at h
  · cases h
  · cases h
  · exact DescriptorRecord.valid_of_check h

section

variable {place : Truncation}

theorem ShapeRecord.check_ne_truncated (r : ShapeRecord) : r.check ≠ .error (.truncated place) := by
  intro h
  unfold check at h
  split at h
  · cases h
  dsimp only at h
  split at h
  · cases h
  · cases h

theorem ContentRecord.check_ne_truncated (content : Option ContentRecord) :
    ContentRecord.check content ≠ .error (.truncated place) := by
  cases content with
  | none => exact fun h => by cases h
  | some content =>
    cases content with
    | message type => exact fun h => by cases h
    | pod shape => exact mt eq_error_of_map shape.check_ne_truncated

theorem SeriesRecord.check_ne_truncated (r : SeriesRecord) :
    r.check ≠ .error (.truncated place) := by
  unfold check
  split
  · exact fun h => by cases h
  split
  · exact fun h => by cases h
  · exact mt eq_error_of_map (ContentRecord.check_ne_truncated _)

theorem FileRecord.check_ne_truncated (r : FileRecord) : r.check ≠ .error (.truncated place) := by
  intro h
  unfold check at h
  split at h
  · cases h
  split at h
  · cases h
  split at h
  · cases h
  · cases h

theorem checkSeriesIndexes_ne_truncated (position : Nat) (records : List SeriesIndexRecord) :
    checkSeriesIndexes position records ≠ .error (.truncated place) := by
  induction records generalizing position with
  | nil => exact fun h => by cases h
  | cons r rest ih =>
    unfold checkSeriesIndexes
    split
    · exact fun h => by cases h
    next record _ =>
    split
    · next e he =>
      intro h
      cases h
      exact record.check_ne_truncated he
    split
    · exact fun h => by cases h
    · exact mt eq_error_of_map (ih _)

/-- A body that is read whole and does not decode is not torn. -/
theorem Descriptor.decode_ne_truncated (body : Bytes) :
    Descriptor.decode body ≠ .error (.truncated place) := by
  unfold decode
  split
  · exact fun h => by cases h
  · exact fun h => by cases h
  next record _ =>
  cases record with
  | file r => exact mt eq_error_of_map r.check_ne_truncated
  | series r => exact mt eq_error_of_map r.check_ne_truncated
  | index records => exact mt eq_error_of_map (checkSeriesIndexes_ne_truncated 0 records)

end

end SeriesLog
