import SeriesLog.Bytes.Source

/-! # Files

The bytes of a file lie packed in memory. A reader unpacks those that it needs. -/
namespace SeriesLog

structure File where
  data : ByteArray
  /-- What reading on fails with behind the last byte, if the file does not end there. -/
  fault : Option DeviceFault

namespace File

def bytes (f : File) : Bytes := f.data.data.toList

/-- The file from a place on. -/
def source (f : File) (offset : Nat) : Source := ⟨f.bytes.drop offset, f.fault⟩

/-- The next `count` bytes of the file from a place on. -/
def window (f : File) (offset count : Nat) : Source :=
  let bytes := (f.data.extract offset (offset + count)).data.toList
  ⟨bytes, if bytes.length < count then f.fault else none⟩

theorem bytes_window (f : File) (offset count : Nat) :
    (f.window offset count).bytes = (f.bytes.drop offset).take count := by
  simp only [window, bytes, ByteArray.data_extract, Array.toList_extract, List.extract_eq_take_drop,
    Nat.add_sub_cancel_left]

end File

end SeriesLog
