import SeriesLog.Proofs.Writer.Runs

/-! # Replay

On a sink without limit a writer makes every addition that it is asked for and that may follow its
journal. -/
namespace SeriesLog.Writer

variable {w : Writer} {annotations : Labels} {journal : List Addition}

theorem Holds.admits (h : w.Holds annotations journal) {a : Addition} {rest : List Addition}
    (hsound : SoundIn annotations (journal ++ a :: rest)) :
    Admits w.series a ∧ a.block.body.length ≤ maxBodySize := by
  obtain ⟨_, hadmits, hle, _⟩ := sound_append.1 hsound
  rw [h.series]
  exact ⟨hadmits, hle⟩

/-- A new series is declared under its number. -/
theorem Holds.declare_admitted (h : w.Holds annotations journal) {d : SeriesDescriptor}
    (ha : Admits w.series (.series d))
    (hle : (Addition.series d).block.body.length ≤ maxBodySize) :
    ∃ after, w.declare d.id d.kind d.indexNames d.annotations = (.ok d.index, after) ∧
      after.Holds annotations (journal ++ [.series d]) ∧ after.maxBlockSize = w.maxBlockSize := by
  cases ha with
  | @series id kind indexNames labels hfresh hrefusal =>
    have hnew : w.indexOf? id = none := indexOf?_eq_none.2 hfresh
    rcases declare_new h.active hnew kind indexNames labels with
      ⟨e, _, hwhy⟩ | ⟨after, hdeclare, hadmits, hbody, hextends⟩ | ⟨_, _, _, _, hlimited, _⟩
    · exfalso
      rcases hwhy with hrefused | hlarge
      · rw [hrefusal] at hrefused
        cases hrefused
      · exact Nat.not_lt.2 hle hlarge
    · exact ⟨_, hdeclare, h.added hadmits hbody hextends, hextends.limit⟩
    · exact absurd h.unlimited hlimited

theorem Holds.append_admitted (h : w.Holds annotations journal) {d : DataDescriptor}
    {payload : Bytes} (ha : Admits w.series (.data d payload))
    (hle : (Addition.data d payload).block.body.length ≤ maxBodySize)
    (hlimit : (Addition.data d payload).block.body.length ≤ w.maxBlockSize) :
    ∃ l after, w.appendTo d.series d.timestamp d.indexValues payload = (.ok l, after) ∧
      after.Holds annotations (journal ++ [.data d payload]) ∧
      after.maxBlockSize = w.maxBlockSize := by
  have hadmits := ha
  cases ha with
  | @data index s timestamp indexValues _ hs harity hsize =>
    have hparts := dataParts_of_le hsize hlimit
    have hflatten : ∀ sized : Bytes, [sized, payload].flatten = sized ++ payload := by simp
    rcases writeBlock_cases w .data
        [DataDescriptor.sized ⟨index, timestamp, UInt64.ofNat s.nextPosition, indexValues⟩,
          payload] with
      ⟨_, _, hlarge⟩ | ⟨after, hwrite, _, hextends⟩ | ⟨_, _, _, _, hlimited, _⟩
    · rw [hflatten] at hlarge
      exact absurd hlarge (Nat.not_lt.2 hle)
    · rw [hflatten] at hextends
      have happend : w.appendTo index timestamp indexValues payload =
          (.ok ⟨index, s.nextPosition, w.position⟩,
            after.enter (.data ⟨index, timestamp, UInt64.ofNat s.nextPosition, indexValues⟩ payload)
              w.position) := by
        simp only [Writer.appendTo, if_neg h.active, hs, harity, ne_eq, not_true_eq_false, if_false,
          hparts, hwrite, enter, Addition.enter, phaseAfter, hextends.series,
          modify_of_getElem? hs]
      exact ⟨_, _, happend, h.added hadmits hle hextends, hextends.limit⟩
    · exact absurd h.unlimited hlimited

end SeriesLog.Writer
