import SeriesLog.Series.Id

/-! # Conventions for series of messages

Robot logs name two sorts of message series: channels, and the requests and responses of
remote calls. -/
namespace SeriesLog

def channelType : String := "bosdyn:message-channel"

def channelKey : String := "bosdyn:channel"

def serviceKey : String := "bosdyn:grpc:service"

def messageTypeKey : String := "bosdyn:message-type"

inductive CallDirection where
  | request
  | response
  deriving DecidableEq, Repr

def CallDirection.seriesType : CallDirection → String
  | request => "bosdyn:grpc:requests"
  | response => "bosdyn:grpc:responses"

def SeriesId.channel (name : String) : SeriesId :=
  (SeriesId.ofType channelType).withSpec channelKey name

def SeriesId.calls (direction : CallDirection) (service messageType : String) : SeriesId :=
  ((SeriesId.ofType direction.seriesType).withSpec serviceKey service).withSpec messageTypeKey
    messageType

end SeriesLog
