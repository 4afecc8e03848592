import SeriesLog.Proofs.Writer.Redeclaration
import SeriesLog.Writer.Lookup

/-! # Looking series up while writing

The table of a writer holds every series under its name, with its number, and nothing else. A writer
that looks names up in the table therefore does the same as one that searches its series: it gives
the same answers and writes the same bytes, on whatever sink. Numbers of series have 32 bits, so
this is said of logs with at most as many series. -/
namespace SeriesLog

namespace Writer

variable {w after : Writer}

theorem indexOf?_congr (h : after.series.map (·.descriptor) = w.series.map (·.descriptor)) :
    after.indexOf? = w.indexOf? := by
  funext id
  have hsearch : ∀ v : Writer, v.indexOf? id =
      (v.series.map (·.descriptor)).findIdx? fun d => d.id = id := by
    intro v
    rw [List.findIdx?_map]
    rfl
  rw [hsearch, hsearch, h]

theorem indexOf?_concat {d : SeriesDescriptor} (hseries : after.series = w.series ++ [.declared d])
    (hnew : w.indexOf? d.id = none) (id : SeriesId) :
    after.indexOf? id = if d.id = id then some w.series.length else w.indexOf? id := by
  have happend : after.indexOf? id = (w.indexOf? id).or
      (if d.id = id then some w.series.length else none) := by
    rw [indexOf?, hseries, List.findIdx?_append, List.findIdx?_singleton]
    by_cases hid : d.id = id
    · simp [indexOf?, SeriesState.declared, hid]
    · simp [indexOf?, SeriesState.declared, hid]
  rw [happend]
  by_cases hid : d.id = id
  · rw [if_pos hid, if_pos hid, ← hid, hnew, Option.none_or]
  · rw [if_neg hid, if_neg hid, Option.or_none]

end Writer

namespace TabledWriter

variable {α : Type} {t : TabledWriter}

def Agrees (t : TabledWriter) : Prop :=
  ∀ id, t.indexOf? id = (t.writer.indexOf? id).map UInt32.ofNat

/-- The outcome of a call is that of a writer without a table, and the table agrees with it. -/
structure Matches (r : Except LogError α × TabledWriter) (plain : Except LogError α × Writer) :
    Prop where
  result : r.1 = plain.1
  writer : r.2.writer = plain.2
  agrees : r.2.Agrees

theorem Agrees.of_descriptors (h : t.Agrees) {w : Writer}
    (hsame : w.series.map (·.descriptor) = t.writer.series.map (·.descriptor)) :
    Agrees ⟨w, t.named⟩ := by
  intro id
  rw [Writer.indexOf?_congr hsame]
  exact h id

theorem Agrees.insert (h : t.Agrees) {id : SeriesId} (hnew : t.writer.indexOf? id = none)
    {d : SeriesDescriptor} (hid : d.id = id) {w : Writer}
    (hseries : w.series = t.writer.series ++ [.declared d]) :
    Agrees ⟨w, t.named.insert id (UInt32.ofNat t.writer.series.length)⟩ := by
  subst hid
  intro other
  rw [Writer.indexOf?_concat hseries hnew, indexOf?, Std.HashMap.getElem?_insert]
  by_cases hother : d.id = other
  · rw [if_pos (beq_iff_eq.2 hother), if_pos hother, Option.map_some]
  · rw [if_neg (fun heq => hother (beq_iff_eq.1 heq)), if_neg hother]
    exact h other

theorem addSeries_matches (h : t.Agrees) (hopen : t.writer.phase ≠ .closed) {id : SeriesId}
    (hnew : t.writer.indexOf? id = none) (kind : SeriesKind) (indexNames : List String)
    (annotations : Labels) :
    Matches (t.addSeries id kind indexNames annotations)
      (t.writer.addSeries id kind indexNames annotations) := by
  have hcases := Writer.declare_new hopen hnew kind indexNames annotations
  rw [Writer.declare_of_new hopen hnew] at hcases
  unfold addSeries
  obtain ⟨e, hrefused, _⟩ | ⟨after, hadded, _, _, hextends⟩ |
    ⟨e, after, _, htorn, _, hextends⟩ := hcases
  · rw [hrefused]
    exact ⟨rfl, rfl, h⟩
  · rw [hadded]
    exact ⟨rfl, rfl, h.insert hnew rfl (hextends.series_enter _ _)⟩
  · rw [htorn]
    exact ⟨rfl, rfl, h.of_descriptors (congrArg _ hextends.series)⟩

theorem declare_matches (h : t.Agrees) (hcount : t.writer.seriesCount ≤ 2 ^ 32) (id : SeriesId)
    (kind : SeriesKind) (indexNames : List String) (annotations : Labels) :
    Matches (t.declare id kind indexNames annotations)
      (t.writer.declare id kind indexNames annotations) := by
  by_cases hclosed : t.writer.phase = .closed
  · rw [declare, if_pos hclosed, Writer.declare_closed hclosed]
    exact ⟨rfl, rfl, h⟩
  rw [declare, if_neg hclosed, h id]
  cases hindex : t.writer.indexOf? id with
  | none =>
    rw [Writer.declare_of_new hclosed hindex]
    exact addSeries_matches h hclosed hindex kind indexNames annotations
  | some i =>
    obtain ⟨s, hs, _⟩ := Writer.indexOf?_eq_some hindex
    have hnumber : (UInt32.ofNat i).toNat = i := by
      have hlt := (List.getElem?_eq_some_iff.1 hs).1
      exact UInt32.toNat_ofNat_of_lt' (Nat.lt_of_lt_of_le hlt hcount)
    have hfirst : t.writer.descriptor? (UInt32.ofNat i) = some s.descriptor := by
      rw [Writer.descriptor?, hnumber, hs, Option.map_some]
    rw [Writer.declare_again hclosed hindex hs]
    simp only [Option.map_some, hfirst]
    cases Writer.redeclaration? s.descriptor kind indexNames with
    | none => exact ⟨rfl, rfl, h⟩
    | some difference => exact ⟨rfl, rfl, h⟩

theorem appendTo_matches (h : t.Agrees) (index : UInt32) (timestamp : Int64)
    (indexValues : List Int64) (payload : Bytes) :
    Matches (t.appendTo index timestamp indexValues payload)
      (t.writer.appendTo index timestamp indexValues payload) := by
  obtain ⟨_, _, hsame⟩ := Writer.appendTo_keeps t.writer index timestamp indexValues payload
  exact ⟨rfl, rfl, h.of_descriptors hsame⟩

theorem append_matches (h : t.Agrees) (hcount : t.writer.seriesCount ≤ 2 ^ 32) (id : SeriesId)
    (timestamp : Int64) (indexValues : List Int64) (payload : Bytes) :
    Matches (t.append id timestamp indexValues payload)
      (t.writer.append id timestamp indexValues payload) := by
  unfold append Writer.append
  rw [h id]
  cases t.writer.indexOf? id with
  | some i => exact appendTo_matches h (UInt32.ofNat i) timestamp indexValues payload
  | none =>
    have hdeclare := declare_matches h hcount id .untyped [] .empty
    dsimp only [Option.map_none]
    generalize t.declare id .untyped [] .empty = tabled at hdeclare ⊢
    generalize t.writer.declare id .untyped [] .empty = plain at hdeclare ⊢
    obtain ⟨result, named⟩ := tabled
    obtain ⟨_, _⟩ := plain
    obtain ⟨rfl, rfl, hagrees⟩ := hdeclare
    cases result with
    | error e => exact ⟨rfl, rfl, hagrees⟩
    | ok index => exact appendTo_matches hagrees index timestamp indexValues payload

theorem answer_matches (h : t.Agrees) (hcount : t.writer.seriesCount ≤ 2 ^ 32) (call : Call) :
    Matches (t.answer call) (t.writer.answer call) := by
  cases call with
  | declare id kind indexNames annotations =>
    obtain ⟨hresult, hwriter, hagrees⟩ := declare_matches h hcount id kind indexNames annotations
    exact ⟨congrArg (Except.map Answer.series) hresult, hwriter, hagrees⟩
  | append id timestamp indexValues payload =>
    obtain ⟨hresult, hwriter, hagrees⟩ := append_matches h hcount id timestamp indexValues payload
    exact ⟨congrArg (Except.map Answer.located) hresult, hwriter, hagrees⟩
  | appendTo index timestamp indexValues payload =>
    obtain ⟨_, _, hagrees⟩ := appendTo_matches h index timestamp indexValues payload
    exact ⟨rfl, rfl, hagrees⟩
  | appendSamples index timestamp indexValues values =>
    refine ⟨rfl, rfl, h.of_descriptors ?_⟩
    rcases Writer.appendSamples_cases t.writer index timestamp indexValues values with
      ⟨e, hrefused⟩ | hsame
    · rw [Writer.answer, hrefused]
    · obtain ⟨_, _, hkept⟩ :=
        Writer.appendTo_keeps t.writer index timestamp indexValues values.encode
      rw [Writer.answer, hsame]
      exact hkept
  | flush => exact ⟨rfl, rfl, h⟩
  | close =>
    obtain ⟨_, _, _, hseries, _⟩ := t.writer.close_adds
    exact ⟨rfl, rfl, h.of_descriptors (congrArg _ hseries)⟩

/-- What one call keeps is kept by a run: the answers, the writer and the agreement of the table are
those of every call in turn. -/
theorem run_agrees (h : t.Agrees) {calls : List Call}
    (hcount : (t.writer.run calls).2.seriesCount ≤ 2 ^ 32) :
    (t.run calls).1 = (t.writer.run calls).1 ∧ (t.run calls).2.writer = (t.writer.run calls).2 ∧
      (t.run calls).2.Agrees := by
  induction calls generalizing t with
  | nil => exact ⟨rfl, rfl, h⟩
  | cons call rest ih =>
    have hgrown := (Writer.run_retains t.writer (call :: rest)).length_le
    rw [List.length_map, List.length_map] at hgrown
    obtain ⟨hresult, hwriter, hagrees⟩ := answer_matches h (Nat.le_trans hgrown hcount) call
    have hrest := ih hagrees (by rw [hwriter]; exact hcount)
    rw [hwriter] at hrest
    obtain ⟨hanswers, hlast, hkept⟩ := hrest
    exact ⟨congrArg₂ List.cons hresult hanswers, hlast, hkept⟩

theorem started_agrees {c : WriterConfig} {sink : Sink} (hstart : start c sink = .ok t)
    {calls : List Call} (hcount : (t.writer.run calls).2.seriesCount ≤ 2 ^ 32) :
    Writer.start c sink = .ok t.writer ∧ (t.run calls).1 = (t.writer.run calls).1 ∧
      (t.run calls).2.writer = (t.writer.run calls).2 ∧ (t.run calls).2.Agrees := by
  obtain ⟨w, hw, rfl⟩ := exists_of_map_eq_ok hstart
  refine ⟨hw, run_agrees ?_ hcount⟩
  intro id
  obtain ⟨_, _, hextends⟩ := Writer.start_eq_ok hw
  rw [Writer.indexOf?, hextends.series]
  exact Std.HashMap.getElem?_empty

end TabledWriter

end SeriesLog
