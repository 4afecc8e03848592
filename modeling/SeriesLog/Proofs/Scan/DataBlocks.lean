import SeriesLog.Proofs.Scan.Insertion
import SeriesLog.Proofs.Scan.Scanner

/-! # One data block, three readers

A body is cut by the codec of data blocks, and by a scan that keeps its payload or passes over it.
The scan takes the parts of the body one after another and checks each, but the three find the same
descriptor and the same payload, and none accepts a body that another refuses. -/
namespace SeriesLog

namespace Scan

variable {c : ScanConfig} {body : Bytes}

theorem readData_of_decode {d : DataDescriptor} {payload : Bytes}
    (hlimit : body.length ≤ c.maxBlockSize) (h : DataBlock.decode body = .ok ⟨d, payload⟩)
    (offset : Nat) (rest : Bytes) (fault : Option DeviceFault) :
    readData c offset body.length ⟨body ++ rest, fault⟩ =
      .ok (.data d (if c.payloads then some payload else none), ⟨rest, fault⟩) := by
  obtain ⟨bytes, hsize, hbody, hdecode⟩ := DataBlock.decode_eq_ok.1 h
  dsimp only at hbody hdecode
  subst hbody
  simp only [List.length_append] at hlimit
  exact readData_append hsize (by omega) (fun _ => by omega) hdecode rest

theorem readData_fails_of_decode {e : FormatError} (hlimit : body.length ≤ c.maxBlockSize)
    (h : DataBlock.decode body = .error e) (offset : Nat) (rest : Bytes)
    (fault : Option DeviceFault) :
    Fails (readData c offset body.length ⟨body ++ rest, fault⟩) := by
  cases DataBlock.layout body with
  | short hshort => exact ⟨_, if_pos hshort, nofun⟩
  | overrun hsize hlt => exact readData_overrun hsize hlt offset rest fault
  | @parts bytes payload hsize =>
    simp only [List.length_append] at hlimit
    rw [DataBlock.decode_parts hsize] at h
    rw [readData_sized hsize, Source.readBody_append bytes _ rfl (by omega)]
    cases hdecode : DataDescriptor.decode? bytes with
    | some d =>
      rw [hdecode] at h
      cases h
    | none =>
      simp only [Except.bind, hdecode, Option.elim_none]
      exact ⟨_, rfl, nofun⟩

end Scan

namespace Scanner

variable {c : ScanConfig} {body : Bytes}

theorem next_fresh (c : ScanConfig) (bytes : Bytes) :
    (fresh (.ofBytes (openingMagic ++ bytes))).next c =
      advance c (.ofBytes bytes) openingMagic.length := by
  simp only [next, Source.ofBytes, Scan.readMagic_append]

def ofBody (body rest : Bytes) : Scanner :=
  fresh (.ofBytes (openingMagic ++ ((Block.mk .data body).encode ++ rest)))

theorem next_ofBody_of_decode {d : DataDescriptor} {payload : Bytes}
    (hlimit : body.length ≤ c.maxBlockSize) (hmax : body.length ≤ maxBodySize)
    (h : DataBlock.decode body = .ok ⟨d, payload⟩) (rest : Bytes) :
    (ofBody body rest).next c =
      (some (.ok (.block openingMagic.length body.length
        (.data d (if c.payloads then some payload else none)))),
      among (.ofBytes rest) (openingMagic.length + (headerSize + body.length))) := by
  have hread := Scan.readData_of_decode hlimit h openingMagic.length rest none
  rw [ofBody, next_fresh, advance, Source.ofBytes, Scan.step_data hmax, hread]
  rfl

theorem next_ofBody_of_refused {e : FormatError} (hlimit : body.length ≤ c.maxBlockSize)
    (hmax : body.length ≤ maxBodySize) (h : DataBlock.decode body = .error e) (rest : Bytes) :
    ∃ e, (ofBody body rest).next c = (some (.error e), finished openingMagic.length false) := by
  obtain ⟨e', hread, hstop⟩ :=
    (Scan.readData_fails_of_decode hlimit h openingMagic.length rest none).ofError
  refine ⟨e', ?_⟩
  rw [ofBody, next_fresh, advance, Source.ofBytes, Scan.step_data hmax, hread]
  simp only [hstop]

/-- What the first call gives of a stream that begins with a data block, next to what the codec
makes of its body. -/
structure Agrees (c : ScanConfig) (body rest : Bytes) : Prop where
  kept : ∀ d payload,
    (∃ place size, (ofBody body rest).call { c with payloads := true } 0 =
      some (.ok (.block place size (.data d (some payload))))) ↔
    DataBlock.decode body = .ok ⟨d, payload⟩
  bare : ∀ d payload, DataBlock.decode body = .ok ⟨d, payload⟩ → ∃ place size,
    (ofBody body rest).call { c with payloads := true } 0 =
      some (.ok (.block place size (.data d (some payload)))) ∧
    (ofBody body rest).call { c with payloads := false } 0 =
      some (.ok (.block place size (.data d none))) ∧
    ((ofBody body rest).after { c with payloads := false } 1).offset =
      ((ofBody body rest).after { c with payloads := true } 1).offset
  refused : ∀ e, DataBlock.decode body = .error e → ∀ payloads,
    (∃ e, (ofBody body rest).call { c with payloads } 0 = some (.error e)) ∧
      ((ofBody body rest).after { c with payloads } 1).isTorn = false

/-- A data block within the limit is read alike by its codec and by scans with and without
payloads. -/
theorem data_block_readers_agree (c : ScanConfig) {body : Bytes}
    (hlimit : body.length ≤ c.maxBlockSize) (hmax : body.length < 2 ^ 56) (rest : Bytes) :
    Agrees c body rest := by
  have hsize : body.length ≤ maxBodySize := Nat.le_pred_of_lt hmax
  have hread : ∀ payloads d payload, DataBlock.decode body = .ok ⟨d, payload⟩ →
      (ofBody body rest).next { c with payloads } = _ :=
    fun payloads d payload h => next_ofBody_of_decode (c := { c with payloads }) hlimit hsize h rest
  have hrefuse : ∀ payloads e, DataBlock.decode body = .error e →
      ∃ e, (ofBody body rest).next { c with payloads } = (some (.error e), _) :=
    fun payloads e h => next_ofBody_of_refused (c := { c with payloads }) hlimit hsize h rest
  constructor
  · intro d payload
    constructor
    · rintro ⟨place, size, hcall⟩
      rw [call, after] at hcall
      cases hdecode : DataBlock.decode body with
      | ok b =>
        rw [hread true b.descriptor b.payload hdecode] at hcall
        cases hcall
        rfl
      | error e =>
        obtain ⟨e', hnext⟩ := hrefuse true e hdecode
        rw [hnext] at hcall
        cases hcall
    · intro hdecode
      refine ⟨openingMagic.length, body.length, ?_⟩
      rw [call, after, hread true d payload hdecode]
      rfl
  · intro d payload hdecode
    refine ⟨openingMagic.length, body.length, ?_, ?_, ?_⟩
    · rw [call, after, hread true d payload hdecode]
      rfl
    · rw [call, after, hread false d payload hdecode]
      rfl
    · simp only [after, hread _ d payload hdecode]
  · intro e hdecode payloads
    obtain ⟨e', hnext⟩ := hrefuse payloads e hdecode
    constructor
    · exact ⟨e', by rw [call, after, hnext]⟩
    · simp only [after, hnext, isTorn]

/-- A body of seven bytes is read by all three at a limit of seven, and one whose descriptor has a
byte too few is refused by all three. -/
theorem data_block_readers_agree_at_limit :
    (∃ place size, (ofBody [2, 0, 0, 0, 8, 1, 0xAA] [1, 9]).call ⟨false, 7, false, false⟩ 0 =
      some (.ok (.block place size (.data ⟨1, 0, 0, []⟩ none)))) ∧
    ∀ payloads, ∃ e, (ofBody [3, 0, 0, 0, 8, 1] [1, 9]).call ⟨false, 7, payloads, false⟩ 0 =
      some (.error e) := by
  have hread : DataBlock.decode [2, 0, 0, 0, 8, 1, 0xAA] = .ok ⟨⟨1, 0, 0, []⟩, [0xAA]⟩ := by
    decide +kernel
  have hrefused : DataBlock.decode [3, 0, 0, 0, 8, 1] =
      .error (.truncated (.dataDescriptor 3 2)) := by
    decide +kernel
  have hwhole := data_block_readers_agree ⟨false, 7, false, false⟩
    (show [2, 0, 0, 0, 8, 1, 0xAA].length ≤ 7 by decide) (by decide) [1, 9]
  have hshort := data_block_readers_agree ⟨false, 7, false, false⟩
    (show [3, 0, 0, 0, 8, 1].length ≤ 7 by decide) (by decide) [1, 9]
  obtain ⟨place, size, _, hbare, _⟩ := hwhole.bare _ _ hread
  exact ⟨⟨place, size, hbare⟩, fun payloads => (hshort.refused _ hrefused payloads).1⟩

end Scanner

end SeriesLog
