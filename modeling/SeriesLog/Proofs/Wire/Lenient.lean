import SeriesLog.Proofs.Wire.Message

/-! # What a reader of messages passes over

A message may hold more than a writer of this version puts into it. Fields of unknown number are
skipped, a later value of a field replaces an earlier one, numbers of a list may lie in one field or
in many, and an entry of labels may leave out what is empty. -/
namespace SeriesLog.Wire

variable {α : Type} {entries : Nat → Bool} {step : Nat → α → Field → Option α}
  {known single : List Nat}

/-- How a message is read whose fields have known numbers, some of them for a single value. Two
bodies are compared, one with a field more than the other. -/
structure Lenient (entries : Nat → Bool) (step : Nat → α → Field → Option α)
    (known single : List Nat) : Prop where
  skipped : ∀ {limit : Nat} {start : α} {body other : Bytes} {before after : List Field} {f : Field},
    fields? entries limit body = some (before ++ f :: after) →
    fields? entries limit other = some (before ++ after) → f.number ∉ known →
    mergeFields entries step limit start body = mergeFields entries step limit start other
  last : ∀ {limit : Nat} {start r : α} {body other : Bytes} {before after : List Field}
    {f g : Field}, fields? entries limit body = some (before ++ f :: after) →
    fields? entries limit other = some (before ++ after) → f.number ∈ single → g ∈ after →
    g.number = f.number → mergeFields entries step limit start body = some r →
    mergeFields entries step limit start other = some r

structure Sets {β : Type} (step : Nat → α → Field → Option α) (number : Nat)
    (parse : Value → Option β) (set : β → α → α) : Prop where
  value : ∀ (limit : Nat) (r : α) (v : Value),
    step limit r ⟨number, v⟩ = (parse v).map fun b => set b r
  again : ∀ (b c : β) (r : α), set b (set c r) = set b r
  others : ∀ (limit : Nat) (r : α) (b : β) (f : Field), f.number ≠ number →
    step limit (set b r) f = (step limit r f).map (set b)

theorem Sets.foldlM_set {β : Type} {number : Nat} {parse : Value → Option β} {set : β → α → α}
    (h : Sets step number parse set) {limit : Nat} {r t : α} {b : β} {g : Field}
    {after : List Field} (hmem : g ∈ after) (hg : g.number = number)
    (hmerge : after.foldlM (step limit) (set b r) = some t) :
    after.foldlM (step limit) r = some t := by
  induction after generalizing r with
  | nil => cases hmem
  | cons first rest ih =>
    rw [List.foldlM_cons] at hmerge ⊢
    by_cases hfirst : first.number = number
    · obtain ⟨_, v⟩ := first
      cases hfirst
      rw [h.value] at hmerge ⊢
      simpa only [h.again] using hmerge
    · have hlater : g ∈ rest := by
        rcases List.mem_cons.1 hmem with rfl | hlater
        · exact absurd hg hfirst
        · exact hlater
      -- the value that was set moves behind the field that is read
      rw [h.others limit r b first hfirst] at hmerge
      obtain ⟨s, hs, hrest⟩ := Option.bind_eq_some_iff.1 hmerge
      obtain ⟨r₁, hr₁, rfl⟩ := Option.map_eq_some_iff.1 hs
      rw [hr₁]
      exact ih hlater hrest

/-- A message is read leniently where its unknown fields change nothing and its single values are
set. -/
theorem lenient_of_sets
    (hunknown : ∀ (limit : Nat) (r : α) (f : Field), f.number ∉ known → step limit r f = some r)
    (hsingle : ∀ number ∈ single, ∃ (β : Type) (parse : Value → Option β) (set : β → α → α),
      Sets step number parse set) :
    Lenient entries step known single := by
  constructor
  · intro limit start body other before after f hbody hother hf
    unfold mergeFields
    rw [hbody, hother, Option.bind_some, Option.bind_some, List.foldlM_append, List.foldlM_append]
    refine congrArg _ (funext fun r => ?_)
    rw [List.foldlM_cons, hunknown _ r f hf]
    rfl
  · intro limit start r body other before after f g hbody hother hf hmem hg hmerge
    obtain ⟨β, parse, set, hsets⟩ := hsingle f.number hf
    unfold mergeFields at hmerge ⊢
    rw [hbody, Option.bind_some, List.foldlM_append] at hmerge
    rw [hother, Option.bind_some, List.foldlM_append]
    obtain ⟨s, hbefore, hrest⟩ := Option.bind_eq_some_iff.1 hmerge
    rw [List.foldlM_cons] at hrest
    obtain ⟨t, hstep, hafter⟩ := Option.bind_eq_some_iff.1 hrest
    rw [hbefore]
    obtain ⟨b, _, rfl⟩ := Option.map_eq_some_iff.1 ((hsets.value _ s f.value).symm.trans hstep)
    exact hsets.foldlM_set hmem hg hafter

structure Appends (step : Nat → α → Field → Option α) (number : Nat) (add : α → List Nat → α) :
    Prop where
  value : ∀ (limit : Nat) (r : α) (v : Value), step limit r ⟨number, v⟩ = v.numbers?.map (add r)
  nil : ∀ r : α, add r [] = r
  append : ∀ (r : α) (ms ns : List Nat), add (add r ms) ns = add r (ms ++ ns)

namespace Appends

variable {number : Nat} {add : α → List Nat → α}

theorem foldlM_unpacked (h : Appends step number add) (limit : Nat) (r : α) (ns : List Nat) :
    (ns.map fun n => (⟨number, .varint n⟩ : Field)).foldlM (step limit) r = some (add r ns) := by
  induction ns generalizing r with
  | nil => rw [h.nil]; rfl
  | cons n ns ih =>
    have hfirst : step limit r ⟨number, .varint n⟩ = some (add r [n]) := h.value limit r _
    rw [List.map_cons, List.foldlM_cons, hfirst, Option.bind_eq_bind, Option.bind_some, ih,
      h.append]
    rfl

/-- Numbers that lie in one field are those that lie in one field each. -/
theorem mergeFields_packed (h : Appends step number add) {limit : Nat} {start : α}
    {body other : Bytes} {before after : List Field} {ns : List Nat} (hns : ∀ n ∈ ns, n < 2 ^ 64)
    (hbody : fields? entries limit body =
      some (before ++ ⟨number, .delimited (ns.flatMap varint)⟩ :: after))
    (hother : fields? entries limit other =
      some (before ++ ((ns.map fun n => ⟨number, .varint n⟩) ++ after))) :
    mergeFields entries step limit start body = mergeFields entries step limit start other := by
  have hpacked : ∀ r : α,
      step (limit - 1) r ⟨number, .delimited (ns.flatMap varint)⟩ = some (add r ns) := by
    intro r
    rw [h.value, numbers?_packed hns, Option.map_some]
  unfold mergeFields
  rw [hbody, hother, Option.bind_some, Option.bind_some, List.foldlM_append, List.foldlM_append]
  refine congrArg _ (funext fun r => ?_)
  rw [List.foldlM_cons, hpacked, List.foldlM_append, h.foldlM_unpacked]

end Appends

/-- The fields a text may be given by: the field of its number, or none if it is empty. -/
inductive TextFields (number : Nat) : String → List Field → Prop where
  | written (text : String) : TextFields number text [⟨number, .delimited (utf8 text)⟩]
  | omitted : TextFields number "" []

theorem mergeLabel_of_textFields {limit : Nat} {key value : String} {keys values : List Field}
    {body : Bytes} (labels : Labels) (hkey : TextFields 1 key keys)
    (hvalue : TextFields 2 value values)
    (hbody : fields? noEntries limit body = some (keys ++ values)) :
    mergeLabel limit labels (.delimited body) = some (labels.insert key value) := by
  have hkeys : keys.foldlM (mergeLabelField (limit - 1)) ("", "") = some (key, "") := by
    cases hkey with
    | written => simp [mergeLabelField, text?_utf8]
    | omitted => rfl
  have hvalues : values.foldlM (mergeLabelField (limit - 1)) (key, "") = some (key, value) := by
    cases hvalue with
    | written => simp [mergeLabelField, text?_utf8]
    | omitted => rfl
  have hentry : mergeFields noEntries mergeLabelField limit ("", "") body = some (key, value) := by
    rw [mergeFields, hbody, Option.bind_some, foldlM_append hkeys, hvalues]
  simp [mergeLabel, Value.body?, hentry]

end SeriesLog.Wire
