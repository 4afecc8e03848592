import SeriesLog.Bytes.Fault
import SeriesLog.Bytes.LittleEndian

/-! # Byte sinks

A sink keeps the bytes it is given, possibly only so many of them. A write that does not fit
leaves what fits on the sink. -/
namespace SeriesLog

/-- A destination of bytes with, perhaps, limited room. -/
structure Sink where
  /-- What was accepted, newest piece first. -/
  pieces : List Bytes
  /-- How many more bytes fit, `none` for any number. -/
  room : Option Nat
  deriving DecidableEq, Repr

namespace Sink

def empty (room : Option Nat) : Sink := ⟨[], room⟩

def bytes (s : Sink) : Bytes := s.pieces.reverse.flatten

def fitting (s : Sink) (piece : Bytes) : Bytes :=
  match s.room with
  | none => piece
  | some room => piece.take room

/-- Puts on the sink what fits of a piece. -/
def write (s : Sink) (piece : Bytes) : Sink :=
  ⟨s.fitting piece :: s.pieces, s.room.map (· - piece.length)⟩

@[simp] theorem bytes_empty (room : Option Nat) : (empty room).bytes = [] := rfl

@[simp] theorem bytes_write (s : Sink) (piece : Bytes) :
    (s.write piece).bytes = s.bytes ++ s.fitting piece := by
  simp [write, bytes]

@[simp] theorem fitting_unlimited (pieces : List Bytes) (piece : Bytes) :
    (Sink.mk pieces none).fitting piece = piece := rfl

end Sink

end SeriesLog
