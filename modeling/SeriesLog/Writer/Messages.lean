import SeriesLog.Series.WellKnown
import SeriesLog.Wire.Comment
import SeriesLog.Writer.Basic

/-! # Writing messages

Series of messages have no index names, and each data block holds one message. -/
namespace SeriesLog.Writer

def declareMessages (w : Writer) (id : SeriesId) (typeName : String) (isMetadata : Bool)
    (annotations : Labels) : Except LogError UInt32 × Writer :=
  w.declare id (.message ⟨protobufContentType, typeName, isMetadata⟩) [] annotations

def declareChannel (w : Writer) (channel typeName : String) : Except LogError UInt32 × Writer :=
  w.declareMessages (.channel channel) typeName false .empty

def declareCalls (w : Writer) (direction : CallDirection) (service typeName : String) :
    Except LogError UInt32 × Writer :=
  w.declareMessages (.calls direction service typeName) typeName false .empty

def appendMessage {α : Type} (codec : MessageCodec α) (w : Writer) (index : UInt32)
    (timestamp : Int64) (message : α) : Except LogError BlockLocation × Writer :=
  match w.descriptor? index with
  | none => (.error (.unknownSeries (.numbered index)), w)
  | some d =>
    match d.kind with
    | .message _ => w.appendTo index timestamp [] (codec.encode message)
    | kind => (.error (.seriesType d.id .anyMessage (.known kind)), w)

end SeriesLog.Writer
