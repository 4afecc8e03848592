import SeriesLog.Proofs.Log.Relocation
import SeriesLog.Proofs.Repair.Runs

/-! # What a repair carries over

The items of a source alone determine the journal of the new log, and whether a repair can carry
them over does not depend on the annotations of the log. -/
namespace SeriesLog

namespace Writer

variable {w v : Writer} {annotations others : Labels} {journal : List Addition}

theorem Holds.alike (h : w.Holds annotations journal) (k : v.Holds others journal) :
    Alike w.series v.series := by
  rw [h.series, k.series]
  exact alike_seriesIn annotations others journal

theorem declare_of_known {id : SeriesId} {i : Nat} {s : SeriesState} (hopen : w.phase ≠ .closed)
    (hknown : w.indexOf? id = some i) (hs : w.series[i]? = some s) (kind : SeriesKind)
    (indexNames : List String) (labels : Labels) :
    w.declare id kind indexNames labels =
      match redeclaration? s.descriptor kind indexNames with
      | some difference => (.error (.redeclared id difference), w)
      | none => (.ok (UInt32.ofNat i), w) := by
  rw [declare, if_neg hopen, hknown]
  cases hdifference : redeclaration? s.descriptor kind indexNames with
  | none => simp only [hs, hdifference]
  | some difference => simp only [hs, hdifference]

theorem Holds.declare_again (h : w.Holds annotations journal) (k : v.Holds others journal)
    {id : SeriesId} {kind : SeriesKind} {indexNames : List String} {labels : Labels}
    {index : UInt32} {after : Writer}
    (hok : w.declare id kind indexNames labels = (.ok index, after)) :
    ∃ last, v.declare id kind indexNames labels = (.ok index, last) ∧
      last.Holds others (noteSeries journal id kind indexNames labels) ∧
      last.maxBlockSize = v.maxBlockSize := by
  have hindex : w.indexOf? id = v.indexOf? id := by rw [h.indexOf?_eq, k.indexOf?_eq]
  cases hknown : w.indexOf? id with
  | some i =>
    obtain ⟨s, hs, _⟩ := indexOf?_eq_some hknown
    obtain ⟨t, ht, hdescriptor, _⟩ := (h.alike k).getElem? hs
    have hfirst := declare_of_known h.active hknown hs kind indexNames labels
    have hother := declare_of_known k.active (hindex ▸ hknown) ht kind indexNames labels
    rw [hok] at hfirst
    rw [hdescriptor] at hother
    rw [h.indexOf?_eq] at hknown
    rw [(noteSeries_known hknown kind indexNames labels).1]
    cases hdifference : redeclaration? s.descriptor kind indexNames with
    | some difference =>
      rw [hdifference] at hfirst
      cases hfirst
    | none =>
      rw [hdifference] at hfirst hother
      cases hfirst
      exact ⟨v, hother, k, rfl⟩
  | none =>
    rcases declare_new h.active hknown kind indexNames labels with
      ⟨e, hrefused, _⟩ | ⟨_, hadded, hadmits, hle, _⟩ | ⟨e, _, _, htorn, _⟩
    · rw [hrefused] at hok
      cases hok
    · have hadmitted := (h.alike k).admits hadmits
      obtain ⟨last, hdeclare, hholds, hlimit⟩ := k.declare_admitted hadmitted hle
      rw [hadded] at hok
      cases hok
      rw [h.indexOf?_eq] at hknown
      rw [(noteSeries_new hknown kind indexNames labels).1, h.length_declared]
      exact ⟨last, hdeclare, hholds, hlimit⟩
    · rw [htorn] at hok
      cases hok

theorem Holds.append_again (h : w.Holds annotations journal) (k : v.Holds others journal)
    (hlimit : w.maxBlockSize = v.maxBlockSize) {index : UInt32} {timestamp : Int64}
    {indexValues : List Int64} {payload : Bytes} {l : BlockLocation} {after : Writer}
    (hok : w.appendTo index timestamp indexValues payload = (.ok l, after)) :
    ∃ m last, v.appendTo index timestamp indexValues payload = (.ok m, last) ∧
      last.Holds others (noteData journal index timestamp indexValues payload) ∧
      last.maxBlockSize = v.maxBlockSize := by
  rcases appendTo_cases h.active index timestamp indexValues payload with
    ⟨e, hrefused⟩ | ⟨s, _, hs, _, hadmits, hle, hfits, _⟩ | ⟨e, _, _, htorn, _⟩
  · rw [hrefused] at hok
    cases hok
  · have hadmitted := (h.alike k).admits hadmits
    rw [hlimit] at hfits
    obtain ⟨m, last, happend, hholds, hsame⟩ := k.append_admitted hadmitted hle hfits
    rw [h.nextPosition_eq hs] at hholds
    exact ⟨m, last, happend, hholds, hsame⟩
  · rw [htorn] at hok
    cases hok

end Writer

namespace Repair

/-- What a repair has carried over: the journal of the new log, and the new number of every series
of the source, newest first. -/
structure Carried where
  journal : List Addition
  renumbered : List (UInt32 × UInt32)

namespace Carried

def empty : Carried := ⟨[], []⟩

def target? (k : Carried) (index : UInt32) : Option UInt32 :=
  (k.renumbered.find? fun p => p.1 = index).map (·.2)

def item (k : Carried) : ScanItem → Carried
  | .block _ _ (.descriptor (.series d)) =>
    let journal := noteSeries k.journal d.id d.kind d.indexNames d.annotations
    ⟨journal, (d.index, numberOf journal d.id) :: k.renumbered⟩
  | .block _ _ (.data d payload) =>
    match k.target? d.series with
    | none => k
    | some index =>
      { k with journal := noteData k.journal index d.timestamp d.indexValues (payload.getD []) }
  | _ => k

def items (k : Carried) (items : List ScanItem) : Carried := items.foldl item k

theorem typed_item {k : Carried} (h : ∀ a ∈ k.journal, a.Typed) {item : ScanItem}
    (hitem : item.Typed) : ∀ a ∈ (k.item item).journal, a.Typed := by
  cases item with
  | trailer offset t => exact h
  | block offset size content =>
    cases content with
    | descriptor d =>
      cases d with
      | file d => exact h
      | series d => exact typed_noteSeries h hitem d.kind d.indexNames d.annotations
      | index d => exact h
    | data d payload =>
      rw [Carried.item]
      cases k.target? d.series with
      | none => exact h
      | some index => exact typed_noteData h index d.timestamp d.indexValues _
    | reserved code => exact h
    | undecodable reason => exact h

theorem typed_items {k : Carried} (h : ∀ a ∈ k.journal, a.Typed) {items : List ScanItem}
    (hitems : ∀ item ∈ items, item.Typed) : ∀ a ∈ (k.items items).journal, a.Typed := by
  induction items generalizing k with
  | nil => exact h
  | cons item rest ih =>
    exact ih (typed_item h (hitems item List.mem_cons_self))
      fun i hi => hitems i (List.mem_cons_of_mem item hi)

end Carried

/-- A repair, with a limit for data blocks, that has carried over a journal. -/
structure Carries (r : Repair) (limit : Nat) (annotations : Labels) (k : Carried) : Prop where
  holds : r.writer.Holds annotations k.journal
  limit : r.writer.maxBlockSize = limit
  renumbered : r.renumbered = k.renumbered

variable {r q after : Repair} {limit : Nat} {annotations others : Labels} {k : Carried}

theorem Carries.start {c : WriterConfig} {w : Writer} (h : Writer.start c (.empty none) = .ok w) :
    (Repair.mk w [] noReport).Carries c.maxBlockSize c.annotations .empty := by
  obtain ⟨_, _, hextends⟩ := Writer.start_eq_ok h
  exact ⟨Writer.start_holds h, hextends.limit, rfl⟩

theorem Carries.target?_eq (h : r.Carries limit annotations k) (index : UInt32) :
    r.target? index = k.target? index := by
  rw [Repair.target?, Carried.target?, h.renumbered]

theorem Carries.copySeries_again (h : r.Carries limit annotations k)
    (g : q.Carries limit others k) {d : SeriesDescriptor} (offset size : Nat)
    (hcopy : r.copySeries d = (none, after)) :
    ∃ last, q.copySeries d = (none, last) ∧
      last.Carries limit others (k.item (.block offset size (.descriptor (.series d)))) := by
  rw [Repair.copySeries] at hcopy
  cases hdeclare : r.writer.declare d.id d.kind d.indexNames d.annotations with
  | mk result writer =>
    rw [hdeclare] at hcopy
    cases result with
    | error e => cases hcopy
    | ok index =>
      obtain ⟨last, hagain, hholds, hlimit⟩ := h.holds.declare_again g.holds hdeclare
      have hnumber : index =
          numberOf (noteSeries k.journal d.id d.kind d.indexNames d.annotations) d.id := by
        rcases h.holds.declare d.id d.kind d.indexNames d.annotations with
          ⟨e, hrefused, _⟩ | ⟨_, hnoted, _⟩
        · rw [hrefused] at hdeclare
          cases hdeclare
        · rw [hnoted] at hdeclare
          cases hdeclare
          rfl
      refine ⟨{ q with writer := last, renumbered := (d.index, index) :: q.renumbered }, ?_, ?_⟩
      · rw [Repair.copySeries, hagain]
      · refine ⟨hholds, hlimit.trans g.limit, ?_⟩
        dsimp only [Carried.item]
        rw [hnumber, g.renumbered]

theorem Carries.copyData_again (h : r.Carries limit annotations k)
    (g : q.Carries limit others k) {d : DataDescriptor} {payload : Option Bytes}
    (offset size : Nat) (hcopy : r.copyData d (payload.getD []) = (none, after)) :
    ∃ last, q.copyData d (payload.getD []) = (none, last) ∧
      last.Carries limit others (k.item (.block offset size (.data d payload))) := by
  rw [Repair.copyData, h.target?_eq] at hcopy
  cases htarget : k.target? d.series with
  | none =>
    refine ⟨q.note fun p => { p with blocksDropped := p.blocksDropped + 1 }, ?_, ?_⟩
    · rw [Repair.copyData, g.target?_eq, htarget]
    · rw [Carried.item, htarget]
      exact ⟨g.holds, g.limit, g.renumbered⟩
  | some index =>
    rw [htarget] at hcopy
    dsimp only at hcopy
    cases happend : r.writer.appendTo index d.timestamp d.indexValues (payload.getD []) with
    | mk result writer =>
      rw [happend] at hcopy
      cases result with
      | error e => cases hcopy
      | ok l =>
        obtain ⟨m, last, hagain, hholds, hlimit⟩ :=
          h.holds.append_again g.holds (h.limit.trans g.limit.symm) happend
        refine ⟨{ q with writer := last }.note
          fun p => { p with blocksCopied := p.blocksCopied + 1 }, ?_, ?_⟩
        · rw [Repair.copyData, g.target?_eq, htarget]
          dsimp only
          rw [hagain]
        · rw [Carried.item, htarget]
          exact ⟨hholds, hlimit.trans g.limit, g.renumbered⟩

theorem Carries.copyItem_again (h : r.Carries limit annotations k)
    (g : q.Carries limit others k) {item : ScanItem} (hcopy : r.copyItem item = (none, after)) :
    ∃ last, q.copyItem item = (none, last) ∧ last.Carries limit others (k.item item) := by
  cases item with
  | trailer offset t => exact ⟨_, rfl, g.holds, g.limit, g.renumbered⟩
  | block offset size content =>
    cases content with
    | descriptor d =>
      cases d with
      | file d => exact ⟨_, rfl, g.holds, g.limit, g.renumbered⟩
      | series d => exact h.copySeries_again g offset size hcopy
      | index d => exact ⟨_, rfl, g.holds, g.limit, g.renumbered⟩
    | data d payload => exact h.copyData_again g offset size hcopy
    | reserved code => exact ⟨_, rfl, g.holds, g.limit, g.renumbered⟩
    | undecodable reason => exact ⟨_, rfl, g.holds, g.limit, g.renumbered⟩

theorem Carries.copyItems_again (h : r.Carries limit annotations k)
    (g : q.Carries limit others k) {items : List ScanItem}
    (hcopy : r.copyItems items = (none, after)) :
    ∃ last, q.copyItems items = (none, last) ∧ last.Carries limit others (k.items items) := by
  induction items generalizing r q k with
  | nil => exact ⟨q, rfl, g⟩
  | cons item rest ih =>
    rw [Repair.copyItems] at hcopy
    cases hfirst : r.copyItem item with
    | mk result next =>
      rw [hfirst] at hcopy
      cases result with
      | some e => cases hcopy
      | none =>
        obtain ⟨same, hsame, hnext⟩ := h.copyItem_again h hfirst
        obtain ⟨other, hother, hlast⟩ := h.copyItem_again g hfirst
        rw [hfirst] at hsame
        cases hsame
        obtain ⟨last, hrest, hcarries⟩ := ih hnext hlast hcopy
        exact ⟨last, (copyItems_cons hother rest).trans hrest, hcarries⟩

/-- The journal of a repair is the one that its items tell. -/
theorem Carries.copyItems (h : r.Carries limit annotations k) {items : List ScanItem}
    (hcopy : r.copyItems items = (none, after)) : after.Carries limit annotations (k.items items) := by
  obtain ⟨last, hsame, hcarries⟩ := h.copyItems_again h hcopy
  rw [hcopy] at hsame
  cases hsame
  exact hcarries

end Repair

end SeriesLog
