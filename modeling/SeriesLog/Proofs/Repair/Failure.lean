import SeriesLog.Proofs.Log.IndexSize
import SeriesLog.Proofs.Repair.Carry
import SeriesLog.Proofs.Scan.Unsealed

/-! # Repairs that fail

A repair that fails leaves nothing behind, or the log of a writer that was abandoned: whatever stops
it, what it has written by then is whole blocks, without index and trailer. -/
namespace SeriesLog

open Wire

def Writer.Serves (w : Writer) (calls : List Call) (after : Writer) : Prop :=
  ∃ answers : List Answer, w.run calls = (answers.map .ok, after)

theorem Writer.Serves.append {w next after : Writer} {calls more : List Call}
    (h : w.Serves calls next) (k : next.Serves more after) : w.Serves (calls ++ more) after := by
  obtain ⟨answers, hanswers⟩ := h
  obtain ⟨others, hothers⟩ := k
  refine ⟨answers ++ others, ?_⟩
  rw [run_append, hanswers, hothers, List.map_append]

namespace Repair

namespace Carried

def call? (k : Carried) : ScanItem → Option Call
  | .block _ _ (.descriptor (.series d)) => some (.declare d.id d.kind d.indexNames d.annotations)
  | .block _ _ (.data d payload) =>
    (k.target? d.series).map fun index =>
      .appendTo index d.timestamp d.indexValues (payload.getD [])
  | _ => none

def calls (k : Carried) : List ScanItem → List Call
  | [] => []
  | item :: rest => (k.call? item).toList ++ (k.item item).calls rest

theorem typed_call? {k : Carried} {item : ScanItem} {call : Call} (hitem : item.Typed)
    (h : k.call? item = some call) : call.Typed ∧ call ≠ .close := by
  unfold call? at h
  split at h
  · cases h
    exact ⟨hitem, fun hclose => by cases hclose⟩
  · obtain ⟨index, _, rfl⟩ := Option.map_eq_some_iff.1 h
    exact ⟨trivial, fun hclose => by cases hclose⟩
  · cases h

theorem typed_calls {k : Carried} {items : List ScanItem} (h : ∀ item ∈ items, item.Typed) :
    ∀ call ∈ k.calls items, call.Typed ∧ call ≠ .close := by
  induction items generalizing k with
  | nil =>
    intro call hcall
    cases hcall
  | cons item rest ih =>
    intro call hcall
    rcases List.mem_append.1 hcall with hfirst | hrest
    · exact typed_call? (h item List.mem_cons_self) (Option.mem_toList.1 hfirst)
    · exact ih (fun i hi => h i (List.mem_cons_of_mem item hi)) call hrest

end Carried

variable {r after : Repair} {limit : Nat} {annotations : Labels} {k : Carried}

structure Reaches (r : Repair) (limit : Nat) (annotations : Labels) (k : Carried)
    (items : List ScanItem) (after : Repair) : Prop where
  served : r.writer.Serves (k.calls items) after.writer
  carries : after.Carries limit annotations (k.items items)

theorem Reaches.cons {next : Repair} {item : ScanItem} {items : List ScanItem}
    (hfirst : r.writer.Serves (k.call? item).toList next.writer)
    (hrest : next.Reaches limit annotations (k.item item) items after) :
    r.Reaches limit annotations k (item :: items) after :=
  ⟨hfirst.append hrest.served, hrest.carries⟩

/-- A repair that has carried over items and comes to an error at the next one. -/
structure Halts (r : Repair) (limit : Nat) (annotations : Labels) (k : Carried)
    (items : List ScanItem) (item : ScanItem) (e : LogError) (next : Repair) : Prop where
  reaches : r.Reaches limit annotations k items next
  refused : ∃ call, (k.items items).call? item = some call ∧
    next.writer.answer call = (.error e, next.writer)

theorem Halts.cons {next : Repair} {item failing : ScanItem} {items : List ScanItem} {e : LogError}
    (hfirst : r.writer.Serves (k.call? item).toList next.writer)
    (hrest : next.Halts limit annotations (k.item item) items failing e after) :
    r.Halts limit annotations k (item :: items) failing e after :=
  ⟨.cons hfirst hrest.reaches, hrest.refused⟩

end Repair

/-- The log that a run leaves open: its blocks and nothing behind them. A scan yields them and ends
at the boundary behind the last one, or it ends with an error at the first that is too large. -/
structure Run.LeavesOpen {c : WriterConfig} (run : Run c) (output : Bytes) : Prop where
  abandoned : output = run.last.abandon.sink.bytes
  blocks : output = openingMagic ++ run.blocks.flatMap Block.encode
  whole : ∀ sc : ScanConfig, LogWithin sc c.annotations run.journal →
    (Source.ofBytes output).scan sc =
      ⟨Scan.placed openingMagic.length (logBlocks c.annotations sc.payloads run.journal), .boundary,
        output.length⟩
  stopped : ∀ sc : ScanConfig, ¬ LogWithin sc c.annotations run.journal →
    ∃ before rest size offset,
      logBlocks c.annotations sc.payloads run.journal = before ++ rest ∧ sc.maxBlockSize < size ∧
      (Source.ofBytes output).scan sc =
        ⟨Scan.placed openingMagic.length before, .failed (.tooLarge size sc.maxBlockSize), offset⟩

/-- A scan whose limit is no less than the length of the log reads all of it. -/
theorem Run.LeavesOpen.within {c : WriterConfig} {run : Run c} {output : Bytes}
    (h : run.LeavesOpen output) {sc : ScanConfig} (hlimit : output.length ≤ sc.maxBlockSize) :
    LogWithin sc c.annotations run.journal := by
  apply LogWithin.of_le hlimit
  intro b hb
  obtain ⟨before, after, hblocks⟩ := List.append_of_mem hb
  have hrun : run.blocks = before ++ b :: after := hblocks
  rw [h.blocks, hrun, List.flatMap_append, List.flatMap_cons]
  simp only [List.length_append, Block.length_encode, Block.size]
  omega

namespace Repair

variable {source : Source} {c : WriterConfig} {e : LogError} {labels : Labels}

theorem Reaches.exists_run {w : Writer} {items : List ScanItem} {next : Repair}
    (hstart : Writer.start (c.withSource labels) (.empty none) = .ok w)
    (hitems : ∀ item ∈ items, item.Typed)
    (h : (Repair.mk w [] noReport).Reaches limit annotations .empty items next) :
    ∃ run : Run (c.withSource labels), run.calls = Carried.empty.calls items ∧
      (∃ answers : List Answer, run.answers = answers.map .ok) ∧ run.last = next.writer := by
  obtain ⟨answers, hanswered⟩ := h.served
  have htyped := Carried.typed_calls (k := .empty) hitems
  refine ⟨⟨Carried.empty.calls items, answers.map .ok, w, next.writer, hstart, hanswered, ?_,
    fun call hcall => (htyped call hcall).1⟩, rfl, ⟨answers, rfl⟩, rfl⟩
  intro hclose
  exact (htyped .close hclose).2 rfl

end Repair

def WriterConfig.annotated (value : String) : WriterConfig :=
  { WriterConfig.default with annotations := ⟨[("a:b", value)], List.pairwise_singleton _ _⟩ }

end SeriesLog
