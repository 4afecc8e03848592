import Mathlib.Data.List.Basic
import SeriesLog.Reader.Basic

/-! # Lookup tables

A reader looks series up in two tables, one by hash and one by identifier, that it fills in one pass
when it opens a file. Neither the identifiers of a file nor their hashes need to be distinct. -/
namespace SeriesLog

structure LookupTables where
  hashed : Std.HashMap UInt64 UInt32
  named : Std.HashMap SeriesId UInt32

namespace LookupTables

/-- Enters the series at a place. An earlier series of the same hash stays, which is worth a
warning, and so does an earlier one of the same identifier. -/
def enter (tables : LookupTables) (place : Nat) (d : SeriesDescriptor) : LookupTables where
  hashed :=
    match tables.hashed[d.idHash]? with
    | some _ => tables.hashed
    | none => tables.hashed.insert d.idHash (UInt32.ofNat place)
  named := tables.named.insertIfNew d.id (UInt32.ofNat place)

def fill (tables : LookupTables) (place : Nat) : List SeriesDescriptor → LookupTables
  | [] => tables
  | d :: rest => fill (tables.enter place d) (place + 1) rest

end LookupTables

namespace Reader

def lookupTables (r : Reader) : LookupTables :=
  .fill ⟨∅, ∅⟩ 0 (r.series.map (·.descriptor))

def lookup (r : Reader) (selector : Selector) : Except LogError UInt32 :=
  let index? :=
    match selector with
    | .named id => r.lookupTables.named[id]?
    | .hashed hash => r.lookupTables.hashed[hash]?
    | .numbered index => if index.toNat < r.series.length then some index else none
  match index? with
  | some index => .ok index
  | none => .error (.unknownSeries selector)

end Reader

end SeriesLog
