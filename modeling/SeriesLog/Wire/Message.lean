import SeriesLog.Labels
import SeriesLog.Wire.Field

/-! # Messages

A message is read into a record field by field: a later value of a field replaces or extends
an earlier one, and fields of unknown number change nothing. Labels are fields that hold one
entry each. -/
namespace SeriesLog.Wire

namespace Value

def number? : Value → Option Nat
  | varint n => some n
  | _ => none

def body? : Value → Option Bytes
  | delimited body => some body
  | _ => none

def text? (v : Value) : Option String := v.body?.bind ofUtf8?

def packed? (body : Bytes) : Option (List Nat) :=
  if body = [] then some []
  else
    match h : readVarint body with
    | none => none
    | some (n, rest) =>
      have := length_of_readVarint h
      (packed? rest).map (n :: ·)
termination_by body.length

def numbers? : Value → Option (List Nat)
  | varint n => some [n]
  | delimited body => packed? body
  | _ => none

end Value

def noEntries (_ : Nat) : Bool := false

def entriesIn (field number : Nat) : Bool := number == field

/-- Reads the fields of a message into a record, at a depth where `limit` levels are left. -/
def mergeFields {α : Type} (entries : Nat → Bool) (step : Nat → α → Field → Option α) (limit : Nat)
    (start : α) (bytes : Bytes) : Option α :=
  (fields? entries limit bytes).bind fun fields => fields.foldlM (step (limit - 1)) start

def mergeLabelField (_ : Nat) (entry : String × String) (field : Field) : Option (String × String) :=
  match field.number with
  | 1 => field.value.text?.map fun key => (key, entry.2)
  | 2 => field.value.text?.map fun value => (entry.1, value)
  | _ => some entry

/-- Adds the label that a field holds; a missing key or value is empty. -/
def mergeLabel (limit : Nat) (labels : Labels) (value : Value) : Option Labels :=
  value.body?.bind fun body =>
    (mergeFields noEntries mergeLabelField limit ("", "") body).map fun entry =>
      labels.insert entry.1 entry.2

def labelField (number : Nat) (entry : String × String) : Bytes :=
  delimitedField number
    (delimitedFieldUnlessEmpty 1 (utf8 entry.1) ++ delimitedFieldUnlessEmpty 2 (utf8 entry.2))

def labelFields (number : Nat) (labels : Labels) : Bytes :=
  labels.entries.flatMap (labelField number)

def packedField (number : Nat) (numbers : List Nat) : Bytes :=
  delimitedFieldUnlessEmpty number (numbers.flatMap varint)

end SeriesLog.Wire
