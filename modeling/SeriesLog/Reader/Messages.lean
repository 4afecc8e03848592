import SeriesLog.Reader.Basic
import SeriesLog.Series.WellKnown
import SeriesLog.Wire.Comment

/-! # Reading messages

The channels of a log, and the blocks of a series of messages as messages. -/
namespace SeriesLog

structure TimedMessage (α : Type) where
  timestamp : Int64
  position : UInt64
  message : α
  deriving DecidableEq, Repr

structure Channel where
  series : UInt32
  name : String
  typeName : String
  blockCount : Nat
  deriving DecidableEq, Repr

def Timeline.channel? (t : Timeline) : Option Channel :=
  let d := t.descriptor
  if d.id.type ≠ channelType then none
  else
    match d.id.spec.get? channelKey, d.kind with
    | some name, .message type => some ⟨d.index, name, type.typeName, t.entries.size⟩
    | _, _ => none

namespace Reader

def channels (r : Reader) : List Channel := r.series.filterMap Timeline.channel?

def timedMessage {α : Type} (codec : MessageCodec α) (record : DataRecord) :
    Except LogError (TimedMessage α) :=
  match codec.decode? record.payload with
  | none => .error .undecodableMessage
  | some message => .ok ⟨record.timestamp, record.position, message⟩

/-- The messages of a series in a range; one that does not decode is an error of its own. -/
def messages {α : Type} (codec : MessageCodec α) (r : Reader) (selector : Selector)
    (range : TimeRange) : Except LogError (List (Except LogError (TimedMessage α))) :=
  match r.find selector with
  | .error e => .error e
  | .ok index =>
    let read := (r.records (.numbered index) range).map fun records =>
      records.map fun record => record.bind (timedMessage codec)
    match r.descriptor? index with
    | none => read
    | some d =>
      match d.kind with
      | .message _ => read
      | kind => .error (.seriesType d.id .anyMessage (.known kind))

def channelMessages {α : Type} (codec : MessageCodec α) (r : Reader) (channel : String)
    (range : TimeRange) : Except LogError (List (Except LogError (TimedMessage α))) :=
  r.messages codec (.named (.channel channel)) range

end Reader

end SeriesLog
