import SeriesLog.Bytes.LittleEndian

/-! # UTF-8

Text as bytes. Decoding accepts exactly the encodings of texts, so both directions lose
nothing; the order of texts used throughout is the order of their bytes. -/
namespace SeriesLog

def utf8 (s : String) : Bytes := s.toByteArray.data.toList

def ofUtf8? (bytes : Bytes) : Option String := String.fromUTF8? ⟨bytes.toArray⟩

theorem ofUtf8?_utf8 (s : String) : ofUtf8? (utf8 s) = some s := by
  have h : (⟨(utf8 s).toArray⟩ : ByteArray) = s.toByteArray := by simp [utf8]
  simp only [ofUtf8?, h, String.fromUTF8?, dif_pos s.isValidUTF8]
  rfl

theorem eq_utf8_of_ofUtf8? {bytes : Bytes} {s : String} (h : ofUtf8? bytes = some s) :
    bytes = utf8 s := by
  unfold ofUtf8? String.fromUTF8? at h
  split at h
  · cases h
    simp [utf8, String.fromUTF8]
  · cases h

theorem utf8_inj {s t : String} (h : utf8 s = utf8 t) : s = t := by
  have := congrArg ofUtf8? h
  simpa [ofUtf8?_utf8] using this

theorem utf8_eq_flatMap (s : String) : utf8 s = s.toList.flatMap String.utf8EncodeChar := by
  have hbytes : s.toByteArray = s.toList.utf8Encode := by
    rw [← String.toByteArray_ofList, String.ofList_toList]
  rw [utf8, hbytes, List.utf8Encode, List.data_toByteArray]

/-- Texts in the order of their UTF-8 bytes. -/
def utf8Less (s t : String) : Prop := utf8 s < utf8 t

instance (s t : String) : Decidable (utf8Less s t) := inferInstanceAs (Decidable (utf8 s < utf8 t))

end SeriesLog
