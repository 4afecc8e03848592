import SeriesLog.Series.Id

/-! # Selectors -/
namespace SeriesLog

inductive Selector where
  | named (id : SeriesId)
  | hashed (hash : UInt64)
  | numbered (index : UInt32)
  deriving DecidableEq

def Selector.display : Selector → String
  | named id => id.display
  | hashed hash => "hash " ++ seriesHashText hash
  | numbered index => s!"series index {index.toNat}"

end SeriesLog
