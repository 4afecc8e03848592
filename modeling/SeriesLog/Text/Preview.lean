import SeriesLog.Text.Quoted
import SeriesLog.Text.Utf8

/-! # Payload previews

A payload is shown as quoted text when it is text without control characters, line breaks and
tabs excepted, and else in hexadecimal. A preview that is cut ends in three dots. -/
namespace SeriesLog

def isControl (c : Char) : Bool := c.toNat < 32 || (127 ≤ c.toNat && c.toNat < 160)

def isShowable (s : String) : Bool := s.toList.all fun c => !isControl c || c == '\n' || c == '\t'

def payloadText (payload : Bytes) : String :=
  match ofUtf8? payload with
  | some s => if isShowable s then quoted s else "0x" ++ payload.hex
  | none => "0x" ++ payload.hex

/-- A text of at most so many characters, of which dots count as three. -/
def shortened (limit : Nat) (s : String) : String :=
  if limit < s.length then String.ofList (s.toList.take (limit - 3)) ++ "..." else s

def payloadPreview (limit : Option Nat) (payload : Bytes) : String :=
  match limit with
  | none => payloadText payload
  | some limit => shortened limit (payloadText payload)

theorem length_shortened {limit : Nat} (s : String) (h : 3 ≤ limit) :
    (shortened limit s).length ≤ limit := by
  unfold shortened
  split
  · have hdots : "...".length = 3 := rfl
    rw [String.length_append, String.length_ofList, List.length_take, hdots]
    omega
  · omega

end SeriesLog
