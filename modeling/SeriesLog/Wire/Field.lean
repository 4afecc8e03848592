import SeriesLog.Wire.Varint

/-! # Message fields

A message is a sequence of fields, each a key (number and form) and a value. `fields?` cuts
bytes into fields without knowing the message; `Field.encode` writes the two forms that
messages here are made of. Groups are skipped, to a limited depth. -/
namespace SeriesLog.Wire

/-- The value of a field as it lies in the message. -/
inductive Value where
  | varint (n : Nat)
  | fixed64
  | delimited (body : Bytes)
  | group
  | fixed32
  deriving DecidableEq, Repr

structure Field where
  number : Nat
  value : Value
  deriving DecidableEq, Repr

/-- The form of a value, the low three bits of a key. -/
inductive Form where
  | varint
  | fixed64
  | delimited
  | groupStart
  | groupEnd
  | fixed32
  deriving DecidableEq, Repr

/-- The form that a code stands for; two of the eight codes stand for none. -/
def Form.ofCode? : Nat → Option Form
  | 0 => some .varint
  | 1 => some .fixed64
  | 2 => some .delimited
  | 3 => some .groupStart
  | 4 => some .groupEnd
  | 5 => some .fixed32
  | _ => none

/-- How deep messages and groups may lie in the outermost message. -/
def depthLimit : Nat := 100

/-- Reads a key: below 2³², a known form, and a number other than 0. -/
def readKey (bytes : Bytes) : Option (Nat × Form × Bytes) :=
  match readVarint bytes with
  | none => none
  | some (key, rest) =>
    if UInt32.size ≤ key ∨ key / 8 = 0 then none
    else
      match Form.ofCode? (key % 8) with
      | none => none
      | some form => some (key / 8, form, rest)

def takeBytes (count : Nat) (bytes : Bytes) : Option (Bytes × Bytes) :=
  let cut := bytes.splitAt count
  if cut.1.length = count then some cut else none

def readDelimited (bytes : Bytes) : Option (Bytes × Bytes) :=
  match readVarint bytes with
  | none => none
  | some (length, rest) => takeBytes length rest

def skipPlain (form : Form) (bytes : Bytes) : Option Bytes :=
  match form with
  | .varint => (readVarint bytes).map (·.2)
  | .fixed64 => (takeBytes 8 bytes).map (·.2)
  | .fixed32 => (takeBytes 4 bytes).map (·.2)
  | .delimited => (readDelimited bytes).map (·.2)
  | .groupStart | .groupEnd => none

theorem length_of_readKey {number : Nat} {form : Form} {bytes rest : Bytes}
    (h : readKey bytes = some (number, form, rest)) : rest.length < bytes.length := by
  unfold readKey at h
  split at h
  · cases h
  · next hv =>
    split at h
    · cases h
    · split at h
      · cases h
      · cases h
        exact length_of_readVarint hv

theorem takeBytes_eq_some_iff {count : Nat} {bytes taken rest : Bytes} :
    takeBytes count bytes = some (taken, rest) ↔ taken.length = count ∧ bytes = taken ++ rest := by
  simp only [takeBytes, List.splitAt_eq]
  constructor
  · intro h
    split at h
    · next hlen =>
      cases h
      exact ⟨hlen, (List.take_append_drop count bytes).symm⟩
    · cases h
  · rintro ⟨rfl, rfl⟩
    simp

theorem length_of_takeBytes {count : Nat} {bytes taken rest : Bytes}
    (h : takeBytes count bytes = some (taken, rest)) : rest.length ≤ bytes.length := by
  rw [(takeBytes_eq_some_iff.1 h).2]
  simp

theorem length_of_readDelimited {bytes body rest : Bytes}
    (h : readDelimited bytes = some (body, rest)) : rest.length < bytes.length := by
  unfold readDelimited at h
  split at h
  · cases h
  · next hv =>
    have := length_of_readVarint hv
    have := length_of_takeBytes h
    omega

theorem length_of_skipPlain {form : Form} {bytes rest : Bytes}
    (h : skipPlain form bytes = some rest) : rest.length ≤ bytes.length := by
  cases form <;> simp only [skipPlain, Option.map_eq_some_iff, reduceCtorEq] at h
  · obtain ⟨p, hp, rfl⟩ := h
    exact Nat.le_of_lt (length_of_readVarint hp)
  · obtain ⟨p, hp, rfl⟩ := h
    exact length_of_takeBytes hp
  · obtain ⟨p, hp, rfl⟩ := h
    exact Nat.le_of_lt (length_of_readDelimited hp)
  · obtain ⟨p, hp, rfl⟩ := h
    exact length_of_takeBytes hp

/-- Skips to the end of the innermost of the open groups, and of all around it. A field inside
`n` open groups lies at depth `n`, which has to stay below the limit. -/
def skipGroups (limit : Nat) (opened : List Nat) (bytes : Bytes) : Option Bytes :=
  match opened with
  | [] => some bytes
  | innermost :: outer =>
    match h : readKey bytes with
    | none => none
    | some (number, form, rest) =>
      have := length_of_readKey h
      if form = .groupEnd then
        if number = innermost then skipGroups limit outer rest else none
      else if limit ≤ opened.length then none
      else if form = .groupStart then skipGroups limit (number :: opened) rest
      else
        match hs : skipPlain form rest with
        | none => none
        | some rest =>
          have := length_of_skipPlain hs
          skipGroups limit opened rest
termination_by bytes.length

theorem length_of_skipGroups {limit : Nat} {opened : List Nat} {bytes rest : Bytes}
    (h : skipGroups limit opened bytes = some rest) : rest.length ≤ bytes.length := by
  induction hn : bytes.length using Nat.strongRecOn generalizing bytes opened with
  | ind n ih =>
    subst hn
    unfold skipGroups at h
    split at h
    · cases h
      exact Nat.le_refl _
    · split at h
      · cases h
      · next hk =>
        have hlt := length_of_readKey hk
        split at h
        · split at h
          · exact Nat.le_of_lt (Nat.lt_of_le_of_lt (ih _ hlt h rfl) hlt)
          · cases h
        · split at h
          · cases h
          · split at h
            · exact Nat.le_of_lt (Nat.lt_of_le_of_lt (ih _ hlt h rfl) hlt)
            · split at h
              · cases h
              · next hs =>
                have hle := length_of_skipPlain hs
                have := ih _ (Nat.lt_of_le_of_lt hle hlt) h rfl
                omega

/-- Reads one field at a depth where `limit` levels are left. Fields whose numbers satisfy
`entries` hold map entries, which are read with a length whatever form the key names. -/
def Field.read (entries : Nat → Bool) (limit : Nat) (bytes : Bytes) : Option (Field × Bytes) :=
  match readKey bytes with
  | none => none
  | some (number, form, rest) =>
    if entries number then (readDelimited rest).map fun p => (⟨number, .delimited p.1⟩, p.2)
    else
      match form with
      | .varint => (readVarint rest).map fun p => (⟨number, .varint p.1⟩, p.2)
      | .fixed64 => (takeBytes 8 rest).map fun p => (⟨number, .fixed64⟩, p.2)
      | .delimited => (readDelimited rest).map fun p => (⟨number, .delimited p.1⟩, p.2)
      | .groupStart => (skipGroups limit [number] rest).map fun rest => (⟨number, .group⟩, rest)
      | .groupEnd => none
      | .fixed32 => (takeBytes 4 rest).map fun p => (⟨number, .fixed32⟩, p.2)

theorem Field.length_of_read {entries : Nat → Bool} {limit : Nat} {field : Field}
    {bytes rest : Bytes} (h : Field.read entries limit bytes = some (field, rest)) :
    rest.length < bytes.length := by
  unfold Field.read at h
  split at h
  · cases h
  · next number form after hk =>
    have hkey := length_of_readKey hk
    split at h
    · obtain ⟨p, hp, heq⟩ := Option.map_eq_some_iff.1 h
      cases heq
      have := length_of_readDelimited hp
      omega
    · split at h
      · obtain ⟨p, hp, heq⟩ := Option.map_eq_some_iff.1 h
        cases heq
        have := length_of_readVarint hp
        omega
      · obtain ⟨p, hp, heq⟩ := Option.map_eq_some_iff.1 h
        cases heq
        have := length_of_takeBytes hp
        omega
      · obtain ⟨p, hp, heq⟩ := Option.map_eq_some_iff.1 h
        cases heq
        have := length_of_readDelimited hp
        omega
      · obtain ⟨p, hp, heq⟩ := Option.map_eq_some_iff.1 h
        cases heq
        have := length_of_skipGroups hp
        omega
      · cases h
      · obtain ⟨p, hp, heq⟩ := Option.map_eq_some_iff.1 h
        cases heq
        have := length_of_takeBytes hp
        omega

def fields? (entries : Nat → Bool) (limit : Nat) (bytes : Bytes) : Option (List Field) :=
  if bytes = [] then some []
  else
    match h : Field.read entries limit bytes with
    | none => none
    | some (field, rest) =>
      have := Field.length_of_read h
      (fields? entries limit rest).map (field :: ·)
termination_by bytes.length

def keyBytes (number form : Nat) : Bytes := varint (number * 8 + form)

def varintField (number n : Nat) : Bytes := keyBytes number 0 ++ varint n

def delimitedField (number : Nat) (body : Bytes) : Bytes :=
  keyBytes number 2 ++ varint body.length ++ body

def varintFieldUnlessZero (number n : Nat) : Bytes := if n = 0 then [] else varintField number n

def delimitedFieldUnlessEmpty (number : Nat) (body : Bytes) : Bytes :=
  if body = [] then [] else delimitedField number body

end SeriesLog.Wire
