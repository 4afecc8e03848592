import SeriesLog.Proofs.Reader.Faithful
import SeriesLog.Proofs.Repair.Carry
import SeriesLog.Proofs.Scan.Bare

/-! # Scanning and repairing in lockstep

A reader that scans a file and a repair of the file go through the same items, each with a table of
its own. As long as no number has two names and no name two numbers, the two tables attribute every
data block to the same series. -/
namespace SeriesLog

/-- Blocks of one series that say the same, wherever they lie. -/
structure SameBlock (p q : DataRecord) : Prop where
  series : p.series = q.series
  timestamp : p.timestamp = q.timestamp
  indexValues : p.indexValues = q.indexValues
  payload : p.payload = q.payload

/-- Descriptors that give no number two names and no name two numbers. -/
def Unambiguous (described : List SeriesDescriptor) : Prop :=
  ∀ d ∈ described, ∀ e ∈ described, d.index = e.index ↔ d.id = e.id

instance (described : List SeriesDescriptor) : Decidable (Unambiguous described) :=
  inferInstanceAs (Decidable (∀ d ∈ described, ∀ e ∈ described, _ ↔ _))

namespace ScanItem

def series? : ScanItem → Option SeriesDescriptor
  | block _ _ (.descriptor (.series d)) => some d
  | _ => none

def Stands (file : Bytes) : ScanItem → Prop
  | block place _ (.data d payload) =>
    ∃ kept, payload = some kept ∧ DataRecord.StandsIn
      ⟨d.series, d.timestamp, d.position, d.indexValues, kept, UInt64.ofNat place⟩ file
  | _ => True

theorem stands_of_mem_scan {c : ScanConfig} (hkeep : c.payloads = true) {file : Bytes}
    (hsize : file.length < 2 ^ 64) {item : ScanItem}
    (h : item ∈ ((Source.ofBytes file).scan c).items) : item.Stands file := by
  unfold Stands
  split
  · obtain ⟨before, body, behind, kept, hkept, hbytes, hplace, hmax, hdecode⟩ :=
      Scan.data_of_mem_scan h
    refine ⟨kept, hkept hkeep, before, body, behind, hbytes, ?_, hmax, hdecode⟩
    have hlength := congrArg List.length hbytes
    rw [List.length_append, List.length_append] at hlength
    change file.length = _ at hlength
    rw [UInt64.toNat_ofNat', hplace]
    exact (Nat.mod_eq_of_lt (by omega)).symm
  · trivial

end ScanItem

/-- The table of a reader and what a repair has carried over after the same items, with every data
block as it stands in the file and in the new log. -/
structure Mirrors (file : Bytes) (described : List SeriesDescriptor) (offset : Nat)
    (found : List SeriesState) (k : Repair.Carried) (pairs : List (DataRecord × DataRecord)) :
    Prop where
  described : ∀ s ∈ found, s.descriptor ∈ described
  numbered : ∀ (i : Nat) (s : SeriesState), found[i]? = some s → s.descriptor.index.toNat = i
  names : ((declared k.journal).map fun d => d.id) = found.map fun s => s.descriptor.id
  numbers : ∀ index, k.target? index = if index.toNat < found.length then some index else none
  records : recordsOf offset k.journal = pairs.map Prod.snd
  entries : ∀ (i : Nat) (s : SeriesState), found[i]? = some s →
    s.entries = (pairs.filter fun p => p.1.series.toNat = i).map fun p => p.1.entry
  same : ∀ p ∈ pairs, p.1.StandsIn file ∧ SameBlock p.1 p.2
  known : ∀ p ∈ pairs, p.1.series.toNat < found.length

namespace Mirrors

variable {file : Bytes} {described : List SeriesDescriptor} {offset : Nat}
  {found next : List SeriesState} {k : Repair.Carried} {pairs : List (DataRecord × DataRecord)}

theorem empty : Mirrors file described offset [] .empty [] := by
  constructor
  case described => exact fun s hs => by cases hs
  case numbered => exact fun i s hs => by cases hs
  case names => rfl
  case numbers => exact fun index => rfl
  case records => rfl
  case entries => exact fun i s hs => by cases hs
  case same => exact fun p hp => by cases hp
  case known => exact fun p hp => by cases hp

theorem length_declared (h : Mirrors file described offset found k pairs) :
    (declared k.journal).length = found.length := by
  have hlength := congrArg List.length h.names
  rwa [List.length_map, List.length_map] at hlength

theorem findIdx?_declared (h : Mirrors file described offset found k pairs) (id : SeriesId) :
    ((declared k.journal).findIdx? fun d => d.id = id) =
      found.findIdx? fun s => s.descriptor.id = id := by
  have hnames := congrArg (List.findIdx? fun i => decide (i = id)) h.names
  rw [List.findIdx?_map, List.findIdx?_map] at hnames
  exact hnames

theorem findIdx?_described (h : Mirrors file described offset found k pairs)
    (hclear : Unambiguous described) {d : SeriesDescriptor} (hd : d ∈ described) :
    ((declared k.journal).findIdx? fun e => e.id = d.id) =
      if d.index.toNat < found.length then some d.index.toNat else none := by
  rw [h.findIdx?_declared]
  have hsame : ∀ (i : Nat) (s : SeriesState), found[i]? = some s →
      (s.descriptor.id = d.id ↔ i = d.index.toNat) := by
    intro i s hs
    rw [← hclear _ (h.described s (List.mem_of_getElem? hs)) d hd, ← UInt32.toNat_inj,
      h.numbered i s hs]
  by_cases hlt : d.index.toNat < found.length
  · rw [if_pos hlt, List.findIdx?_eq_some_iff_getElem]
    refine ⟨hlt, decide_eq_true ?_, ?_⟩
    · exact (hsame _ _ (List.getElem?_eq_getElem hlt)).2 rfl
    · intro j hj hid
      have hother := (hsame j _ (List.getElem?_eq_getElem (Nat.lt_trans hj hlt))).1
        (of_decide_eq_true hid)
      omega
  · rw [if_neg hlt, List.findIdx?_eq_none_iff]
    intro s hs
    obtain ⟨i, hi⟩ := List.mem_iff_getElem?.1 hs
    apply decide_eq_false
    intro hid
    have hlength := (List.getElem?_eq_some_iff.1 hi).1
    rw [(hsame i s hi).1 hid] at hlength
    exact hlt hlength

theorem again (h : Mirrors file described offset found k pairs) (hclear : Unambiguous described)
    {d : SeriesDescriptor} (hd : d ∈ described) (hlt : d.index.toNat < found.length)
    (place size : Nat) :
    Mirrors file described offset found (k.item (.block place size (.descriptor (.series d))))
      pairs := by
  have hknown := h.findIdx?_described hclear hd
  rw [if_pos hlt] at hknown
  obtain ⟨hjournal, hnumber⟩ := Writer.noteSeries_known hknown d.kind d.indexNames d.annotations
  have hitem : k.item (.block place size (.descriptor (.series d))) =
      ⟨k.journal, (d.index, d.index) :: k.renumbered⟩ := by
    dsimp only [Repair.Carried.item]
    rw [hjournal, hnumber, UInt32.ofNat_toNat]
  rw [hitem]
  refine { h with numbers := ?_ }
  intro index
  by_cases hindex : d.index = index
  · subst hindex
    rw [if_pos hlt]
    simp [Repair.Carried.target?]
  · rw [← h.numbers index]
    simp [Repair.Carried.target?, hindex]

theorem declare (h : Mirrors file described offset found k pairs) (hclear : Unambiguous described)
    {d : SeriesDescriptor} (hd : d ∈ described) (hnext : d.index.toNat = found.length)
    (place size : Nat) :
    Mirrors file described offset (found ++ [.declared d])
      (k.item (.block place size (.descriptor (.series d)))) pairs := by
  have hnew := h.findIdx?_described hclear hd
  rw [if_neg (by omega)] at hnew
  obtain ⟨hjournal, hnumber⟩ := Writer.noteSeries_new hnew d.kind d.indexNames d.annotations
  have hindex : UInt32.ofNat (declared k.journal).length = d.index := by
    rw [h.length_declared, ← hnext, UInt32.ofNat_toNat]
  rw [hindex] at hjournal hnumber
  have hitem : k.item (.block place size (.descriptor (.series d))) =
      ⟨k.journal ++ [.series (.make d.index d.id d.kind d.indexNames d.annotations)],
        (d.index, d.index) :: k.renumbered⟩ := by
    dsimp only [Repair.Carried.item]
    rw [hnumber, hjournal]
  rw [hitem]
  constructor
  case described =>
    intro s hs
    rcases List.mem_append.1 hs with hs | hs
    · exact h.described s hs
    · rw [List.mem_singleton.1 hs]
      exact hd
  case numbered =>
    intro i s hs
    rcases getElem?_concat_cases hs with hold | ⟨rfl, rfl⟩
    · exact h.numbered i s hold
    · exact hnext
  case names =>
    simp only [declared, List.filterMap_append, List.map_append]
    rw [← declared, h.names]
    simp only [List.filterMap_cons, Addition.descriptor?, List.filterMap_nil, List.map_cons,
      List.map_nil, SeriesDescriptor.make, SeriesState.declared]
  case numbers =>
    intro index
    rw [List.length_append, List.length_singleton]
    by_cases hsame : d.index = index
    · subst hsame
      rw [if_pos (by omega)]
      simp [Repair.Carried.target?]
    · have hne : index.toNat ≠ found.length := by
        rw [← hnext]
        exact fun heq => hsame (UInt32.toNat_inj.1 heq.symm)
      have hold := h.numbers index
      simp only [Repair.Carried.target?, List.find?_cons, hsame, decide_false] at hold ⊢
      rw [hold]
      by_cases hlt : index.toNat < found.length
      · rw [if_pos hlt, if_pos (by omega)]
      · rw [if_neg hlt, if_neg (by omega)]
  case records =>
    rw [recordsOf_append, h.records]
    exact List.append_nil _
  case entries =>
    intro i s hs
    rcases getElem?_concat_cases hs with hold | ⟨rfl, rfl⟩
    · exact h.entries i s hold
    · have hnone : (pairs.filter fun p => decide (p.1.series.toNat = found.length)) = [] := by
        rw [List.filter_eq_nil_iff]
        intro p hp hseries
        have := h.known p hp
        rw [of_decide_eq_true hseries] at this
        exact Nat.lt_irrefl _ this
      rw [hnone]
      rfl
  case same => exact h.same
  case known =>
    intro p hp
    rw [List.length_append]
    exact Nat.lt_add_right _ (h.known p hp)

theorem skip (h : Mirrors file described offset found k pairs) {d : DataDescriptor}
    (hge : ¬ d.series.toNat < found.length) (place size : Nat) (payload : Option Bytes)
    (entry : IndexEntry) :
    Mirrors file described offset (found.modify d.series.toNat fun s => s.record entry)
      (k.item (.block place size (.data d payload))) pairs := by
  have hfound : (found.modify d.series.toNat fun s => s.record entry) = found :=
    List.modify_eq_self (Nat.le_of_not_lt hge)
  have hitem : k.item (.block place size (.data d payload)) = k := by
    rw [Repair.Carried.item, h.numbers, if_neg hge]
  rw [hfound, hitem]
  exact h

theorem data (h : Mirrors file described offset found k pairs) {d : DataDescriptor}
    (hlt : d.series.toNat < found.length) {place : Nat} (size : Nat) {kept : Bytes}
    (hstands : DataRecord.StandsIn
      ⟨d.series, d.timestamp, d.position, d.indexValues, kept, UInt64.ofNat place⟩ file) :
    ∃ pair, Mirrors file described offset
      (found.modify d.series.toNat fun s => s.record ⟨d.timestamp, UInt64.ofNat place⟩)
      (k.item (.block place size (.data d (some kept)))) (pairs ++ [pair]) := by
  let position := UInt64.ofNat (k.journal.countP (Addition.isFor d.series))
  let old : DataRecord :=
    ⟨d.series, d.timestamp, d.position, d.indexValues, kept, UInt64.ofNat place⟩
  let new : DataRecord := ⟨d.series, d.timestamp, position, d.indexValues, kept,
    UInt64.ofNat (offset + span Addition.size k.journal)⟩
  have hitem : k.item (.block place size (.data d (some kept))) =
      ⟨k.journal ++ [.data ⟨d.series, d.timestamp, position, d.indexValues⟩ kept],
        k.renumbered⟩ := by
    rw [Repair.Carried.item, h.numbers, if_pos hlt]
    rfl
  refine ⟨(old, new), ?_⟩
  rw [hitem]
  constructor
  case described =>
    intro s hs
    obtain ⟨t, ht, hdescriptor, _⟩ := mem_modify_record hs
    rw [hdescriptor]
    exact h.described t ht
  case numbered =>
    intro i s hs
    obtain ⟨t, ht, ⟨_, rfl⟩ | ⟨_, rfl⟩⟩ := getElem?_modify_record hs
    · exact h.numbered i _ ht
    · exact h.numbered i t ht
  case names =>
    have hmap := congrArg (List.map fun e => e.id) (map_descriptor_modify found d.series.toNat
      ⟨d.timestamp, UInt64.ofNat place⟩)
    rw [List.map_map, List.map_map] at hmap
    simp only [declared, List.filterMap_append, List.map_append]
    rw [← declared, h.names]
    exact (List.append_nil _).trans hmap.symm
  case numbers =>
    intro index
    rw [List.length_modify]
    exact h.numbers index
  case records =>
    rw [recordsOf_append, h.records, List.map_append]
    rfl
  case entries =>
    intro i s hs
    obtain ⟨t, ht, ⟨hne, rfl⟩ | ⟨rfl, rfl⟩⟩ := getElem?_modify_record hs
    · have hother : ([(old, new)].filter fun p => decide (p.1.series.toNat = i)) = [] := by
        simp [old, Ne.symm hne]
      rw [h.entries i _ ht, List.filter_append, hother, List.append_nil]
    · have hmine : ([(old, new)].filter fun p => decide (p.1.series.toNat = d.series.toNat)) =
          [(old, new)] := by simp [old]
      rw [SeriesState.entries_record, h.entries _ t ht, List.filter_append, hmine, List.map_append]
      rfl
  case same =>
    intro p hp
    rcases List.mem_append.1 hp with hp | hp
    · exact h.same p hp
    · rw [List.mem_singleton.1 hp]
      exact ⟨hstands, rfl, rfl, rfl, rfl⟩
  case known =>
    intro p hp
    rw [List.length_modify]
    rcases List.mem_append.1 hp with hp | hp
    · exact h.known p hp
    · rw [List.mem_singleton.1 hp]
      exact hlt

theorem item (h : Mirrors file described offset found k pairs) (hclear : Unambiguous described)
    {item : ScanItem} (hdescribed : ∀ d, item.series? = some d → d ∈ described)
    (hstands : item.Stands file) (hok : Reader.collectItem found item.bare = .ok next) :
    ∃ more, Mirrors file described offset next (k.item item) (pairs ++ more) := by
  cases item with
  | trailer place t =>
    cases hok
    exact ⟨[], by rwa [List.append_nil]⟩
  | block place size content =>
    cases content with
    | descriptor d =>
      cases d with
      | file d =>
        cases hok
        exact ⟨[], by rwa [List.append_nil]⟩
      | series d =>
        have hd := hdescribed d rfl
        refine ⟨[], ?_⟩
        rw [List.append_nil]
        simp only [ScanItem.bare, BlockContent.bare, Reader.collectItem] at hok
        split at hok
        · next hlt =>
          cases hok
          exact h.again hclear hd hlt place size
        split at hok
        · next hnext =>
          cases hok
          exact h.declare hclear hd hnext place size
        · cases hok
      | index d =>
        cases hok
        exact ⟨[], by rwa [List.append_nil]⟩
    | data d payload =>
      obtain ⟨kept, rfl, hstands⟩ := hstands
      cases hok
      by_cases hlt : d.series.toNat < found.length
      · obtain ⟨pair, hpair⟩ := h.data hlt size hstands
        exact ⟨[pair], hpair⟩
      · refine ⟨[], ?_⟩
        rw [List.append_nil]
        exact h.skip hlt place size (some kept) _
    | reserved code =>
      cases hok
      exact ⟨[], by rwa [List.append_nil]⟩
    | undecodable reason =>
      cases hok
      exact ⟨[], by rwa [List.append_nil]⟩

theorem items (h : Mirrors file described offset found k pairs) (hclear : Unambiguous described)
    {items : List ScanItem}
    (hdescribed : ∀ item ∈ items, ∀ d, item.series? = some d → d ∈ described)
    (hstands : ∀ item ∈ items, item.Stands file)
    (hok : Reader.collect found (items.map ScanItem.bare) = .ok next) :
    ∃ all, Mirrors file described offset next (k.items items) all := by
  induction items generalizing found k pairs with
  | nil =>
    cases hok
    exact ⟨pairs, h⟩
  | cons item rest ih =>
    simp only [List.map_cons, Reader.collect] at hok
    cases hitem : Reader.collectItem found item.bare with
    | error e =>
      rw [hitem] at hok
      cases hok
    | ok mid =>
      rw [hitem] at hok
      obtain ⟨more, hmid⟩ := h.item hclear (hdescribed item List.mem_cons_self)
        (hstands item List.mem_cons_self) hitem
      exact ih hmid (fun i hi => hdescribed i (List.mem_cons_of_mem item hi))
        (fun i hi => hstands i (List.mem_cons_of_mem item hi)) hok

end Mirrors

end SeriesLog
