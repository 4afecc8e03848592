import SeriesLog.Proofs.Log.Journal

/-! # Ranges of a timeline

In entries in time order a bisection finds the end of the entries before a bound, so that a range
selects exactly the entries with a timestamp in it. -/
namespace SeriesLog

structure SplitAt (holds : IndexEntry → Bool) (entries : List IndexEntry) (n : Nat) : Prop where
  before : ∀ (i : Nat) (e : IndexEntry), i < n → entries[i]? = some e → holds e = true
  behind : ∀ (i : Nat) (e : IndexEntry), n ≤ i → entries[i]? = some e → holds e = false

variable {holds : IndexEntry → Bool}

theorem SplitAt.take_eq_filter {entries : List IndexEntry} {n : Nat}
    (h : SplitAt holds entries n) : entries.take n = entries.filter holds := by
  have hbefore : ∀ e ∈ entries.take n, holds e = true := by
    intro e he
    obtain ⟨i, hi⟩ := List.mem_iff_getElem?.1 he
    rw [List.getElem?_take] at hi
    split at hi
    · next hlt => exact h.before i e hlt hi
    · cases hi
  have hbehind : ∀ e ∈ entries.drop n, ¬ holds e = true := by
    intro e he
    obtain ⟨i, hi⟩ := List.mem_iff_getElem?.1 he
    rw [List.getElem?_drop] at hi
    simp [h.behind _ e (Nat.le_add_right n i) hi]
  calc entries.take n
      = (entries.take n).filter holds ++ (entries.drop n).filter holds := by
        rw [List.filter_eq_self.2 hbefore, List.filter_eq_nil_iff.2 hbehind, List.append_nil]
    _ = (entries.take n ++ entries.drop n).filter holds := (List.filter_append _ _).symm
    _ = entries.filter holds := by rw [List.take_append_drop]

theorem SplitAt.drop_eq_filter {entries : List IndexEntry} {n : Nat}
    (h : SplitAt holds entries n) : entries.drop n = entries.filter fun e => !holds e := by
  have hbefore : ∀ e ∈ entries.take n, ¬ (!holds e) = true := by
    intro e he
    obtain ⟨i, hi⟩ := List.mem_iff_getElem?.1 he
    rw [List.getElem?_take] at hi
    split at hi
    · next hlt => simp [h.before i e hlt hi]
    · cases hi
  have hbehind : ∀ e ∈ entries.drop n, (!holds e) = true := by
    intro e he
    obtain ⟨i, hi⟩ := List.mem_iff_getElem?.1 he
    rw [List.getElem?_drop] at hi
    simp [h.behind _ e (Nat.le_add_right n i) hi]
  calc entries.drop n
      = (entries.take n).filter (fun e => !holds e) ++
          (entries.drop n).filter fun e => !holds e := by
        rw [List.filter_eq_self.2 hbehind, List.filter_eq_nil_iff.2 hbefore, List.nil_append]
    _ = (entries.take n ++ entries.drop n).filter fun e => !holds e := (List.filter_append _ _).symm
    _ = entries.filter fun e => !holds e := by rw [List.take_append_drop]

theorem SplitAt.take {entries : List IndexEntry} {n : Nat} (h : SplitAt holds entries n)
    (count : Nat) : SplitAt holds (entries.take count) n := by
  constructor
  · intro i e hi he
    rw [List.getElem?_take] at he
    split at he
    · exact h.before i e hi he
    · cases he
  · intro i e hi he
    rw [List.getElem?_take] at he
    split at he
    · exact h.behind i e hi he
    · cases he

def Descends (holds : IndexEntry → Bool) (entries : List IndexEntry) : Prop :=
  entries.Pairwise fun a b => holds b = true → holds a = true

theorem descends_getElem? {entries : List IndexEntry} (h : Descends holds entries) {i j : Nat}
    {a b : IndexEntry} (hij : i ≤ j) (ha : entries[i]? = some a) (hb : entries[j]? = some b)
    (hholds : holds b = true) : holds a = true := by
  rcases Nat.lt_or_eq_of_le hij with hlt | rfl
  · obtain ⟨hi, rfl⟩ := List.getElem?_eq_some_iff.1 ha
    obtain ⟨hj, rfl⟩ := List.getElem?_eq_some_iff.1 hb
    exact List.pairwise_iff_getElem.1 h i j hi hj hlt hholds
  · rw [ha] at hb
    cases hb
    exact hholds

theorem partitionPoint_splits {entries : Array IndexEntry} (h : Descends holds entries.toList)
    {lo hi : Nat} (hle : lo ≤ hi) (hsize : hi ≤ entries.size)
    (hbefore : ∀ (i : Nat) (e : IndexEntry), i < lo → entries.toList[i]? = some e → holds e = true)
    (hbehind : ∀ (i : Nat) (e : IndexEntry), hi ≤ i → entries.toList[i]? = some e →
      holds e = false) :
    SplitAt holds entries.toList (partitionPoint holds entries lo hi) := by
  fun_induction partitionPoint holds entries lo hi with
  | case1 lo hi hlt mid hnone =>
    have hmid : mid = (lo + hi) / 2 := rfl
    rw [Array.getElem?_eq_none_iff] at hnone
    omega
  | case2 lo hi hlt mid entry hentry hholds ih =>
    have hmid : mid = (lo + hi) / 2 := rfl
    rw [← Array.getElem?_toList] at hentry
    apply ih (by omega) hsize _ hbehind
    intro i e hi' he
    exact descends_getElem? h (by omega) he hentry hholds
  | case3 lo hi hlt mid entry hentry hfails ih =>
    have hmid : mid = (lo + hi) / 2 := rfl
    rw [← Array.getElem?_toList] at hentry
    apply ih (by omega) (by omega) hbefore
    intro i e hi' he
    apply Bool.eq_false_iff.2
    intro hholds
    exact hfails (descends_getElem? h (by omega) hentry he hholds)
  | case4 lo hi hnot =>
    have heq : hi = lo := by omega
    subst heq
    exact ⟨hbefore, hbehind⟩

def TimeSorted (entries : List IndexEntry) : Prop :=
  entries.Pairwise fun a b => a.timestamp ≤ b.timestamp

theorem TimeSorted.endPosition_splits {entries : Array IndexEntry} (h : TimeSorted entries.toList)
    (r : TimeRange) :
    SplitAt (fun e => r.stop.all fun stop => decide (e.timestamp ≤ stop)) entries.toList
      (r.endPosition entries) := by
  unfold TimeRange.endPosition
  cases r.stop with
  | none =>
    constructor
    · exact fun _ _ _ _ => rfl
    · intro i e hi he
      rw [List.getElem?_eq_none (by simpa using hi)] at he
      cases he
  | some stop =>
    apply partitionPoint_splits _ (Nat.zero_le _) (Nat.le_refl _)
    · exact fun _ _ hi => by omega
    · intro i e hi he
      rw [List.getElem?_eq_none (by simpa using hi)] at he
      cases he
    · refine h.imp ?_
      intro a b hab hb
      exact decide_eq_true (Int64.le_trans hab (of_decide_eq_true hb))

theorem TimeSorted.firstPosition_splits {entries : Array IndexEntry}
    (h : TimeSorted entries.toList) (r : TimeRange) :
    SplitAt (fun e => !r.start.all fun start => decide (start ≤ e.timestamp)) entries.toList
      (r.firstPosition entries) := by
  unfold TimeRange.firstPosition
  cases r.start with
  | none => exact ⟨fun i _ hi => absurd hi (Nat.not_lt_zero i), fun _ _ _ _ => rfl⟩
  | some start =>
    have hsame :
        (fun e : IndexEntry => !(some start).all fun start => decide (start ≤ e.timestamp)) =
        fun e => decide (e.timestamp < start) := by
      funext e
      rw [Option.all_some, ← decide_not, decide_eq_decide]
      exact Int64.not_le
    rw [hsame]
    apply partitionPoint_splits _ (Nat.zero_le _) (Nat.le_refl _)
    · exact fun _ _ hi => by omega
    · intro i e hi he
      rw [List.getElem?_eq_none (by simpa using hi)] at he
      cases he
    · refine h.imp ?_
      intro a b hab hb
      exact decide_eq_true (Int64.lt_of_le_of_lt hab (of_decide_eq_true hb))

/-- A range selects the entries whose timestamps it contains. -/
theorem TimeRange.select_eq_filter {entries : Array IndexEntry} (h : TimeSorted entries.toList)
    (r : TimeRange) :
    r.select entries = entries.toList.filter fun e => r.contains e.timestamp := by
  have hfirst := (h.firstPosition_splits r).take (r.endPosition entries)
  unfold TimeRange.select
  rw [Array.toList_extract, List.extract_eq_drop_take', hfirst.drop_eq_filter,
    (h.endPosition_splits r).take_eq_filter, List.filter_filter]
  simp only [Bool.not_not]
  rfl

/-- Blocks in time order, those of one time in the order they had. -/
structure TimeOrdered (records ordered : List DataRecord) : Prop where
  ascending : ordered.Pairwise fun a b => a.timestamp ≤ b.timestamp
  stable : ∀ time, (ordered.filter fun r => r.timestamp = time) =
    records.filter fun r => r.timestamp = time

def DataRecord.notAfter (a b : DataRecord) : Bool := decide (a.timestamp ≤ b.timestamp)

theorem notAfter_trans (a b c : DataRecord) (hab : a.notAfter b) (hbc : b.notAfter c) :
    a.notAfter c :=
  decide_eq_true (Int64.le_trans (of_decide_eq_true hab) (of_decide_eq_true hbc))

theorem notAfter_total (a b : DataRecord) : a.notAfter b || b.notAfter a := by
  rw [Bool.or_eq_true]
  exact (Int64.le_total a.timestamp b.timestamp).imp decide_eq_true decide_eq_true

theorem timeOrdered_mergeSort (records : List DataRecord) :
    TimeOrdered records (records.mergeSort DataRecord.notAfter) := by
  constructor
  · refine (List.pairwise_mergeSort notAfter_trans notAfter_total records).imp ?_
    intro a b hab
    exact of_decide_eq_true hab
  · intro time
    have hsame : (records.filter fun r => r.timestamp = time).Pairwise
        fun a b => a.notAfter b := by
      rw [List.pairwise_filter, List.pairwise_iff_getElem]
      intro i j _ _ _ ha hb
      rw [DataRecord.notAfter, of_decide_eq_true ha, of_decide_eq_true hb]
      exact decide_eq_true Int64.le_rfl
    have hsublist := (List.sublist_mergeSort notAfter_trans notAfter_total hsame
      List.filter_sublist).filter fun r => decide (r.timestamp = time)
    rw [List.filter_filter] at hsublist
    simp only [Bool.and_self] at hsublist
    have hlength := ((List.mergeSort_perm records DataRecord.notAfter).filter
      fun r => decide (r.timestamp = time)).length_eq
    exact (hsublist.eq_of_length hlength.symm).symm

theorem TimeOrdered.filter {records ordered : List DataRecord} (h : TimeOrdered records ordered)
    (holds : DataRecord → Bool) : TimeOrdered (records.filter holds) (ordered.filter holds) := by
  constructor
  · exact h.ascending.filter holds
  · intro time
    rw [List.filter_filter, List.filter_filter]
    have hswap := congrArg (List.filter holds) (h.stable time)
    rw [List.filter_filter, List.filter_filter] at hswap
    simpa only [Bool.and_comm] using hswap

theorem SeriesIndex.select_timeline_eq {s : SeriesIndex} {records : List DataRecord}
    (h : s.entries = records.map DataRecord.entry) (range : TimeRange) :
    range.select s.timeline.entries =
      ((records.mergeSort DataRecord.notAfter).filter fun r =>
        range.contains r.timestamp).map DataRecord.entry := by
  have hsorted : s.timeline.entries.toList =
      (records.mergeSort DataRecord.notAfter).map DataRecord.entry := by
    rw [SeriesIndex.timeline, h]
    exact (List.map_mergeSort (f := DataRecord.entry) fun _ _ _ _ => rfl).symm
  have htime : TimeSorted s.timeline.entries.toList := by
    rw [hsorted, TimeSorted, List.pairwise_map]
    exact (timeOrdered_mergeSort records).ascending
  rw [TimeRange.select_eq_filter htime, hsorted, List.filter_map]
  rfl

end SeriesLog
