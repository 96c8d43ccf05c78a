import ClamavWin32.Legacy.ProcessorInformation
import Mathlib.Data.List.Basic

/-!
# The buffer for the processors

* `needed`: the bytes that the matching records need;
* `records`: these records, one behind the other from the beginning of the buffer;
* `toNat_requiredSize`, `fillEntries_eq`: the two passes agree on the records that count;
* `Respects`: what the caller of a buffer with so many bytes may expect;
* `respects_iff`: the caller's buffer is respected just if all records fit it.
-/

namespace ClamavWin32
namespace ProcessorInformation

variable {arch : Arch} {relationship : Relationship} {table : List LegacyInfo}

/-- The records that count. -/
def matching (relationship : Relationship) (table : List LegacyInfo) : List LegacyInfo :=
  table.filter fun info => info.Relationship = relationship

/-- The bytes they need. -/
def needed (arch : Arch) (relationship : Relationship) (table : List LegacyInfo) : ℕ :=
  (matching relationship table).length * arch.sizeofEx.toNat

/-- One entry for each of them, in their order. -/
def records (arch : Arch) (relationship : Relationship) (table : List LegacyInfo) :
    List Stored :=
  (matching relationship table).mapIdx fun i info =>
    storedAt arch relationship (i * arch.sizeofEx.toNat) info

/-- What a caller expects of the call that stores into a buffer of so many bytes: it does not
write behind them, it fails with `ERROR_INSUFFICIENT_BUFFER` just if the records need more, and
otherwise it stores them and their size. -/
structure Respects (arch : Arch) (relationship : Relationship) (table : List LegacyInfo)
    (capacity : UInt32) (result : Result) : Prop where
  within : ∀ w ∈ result.stored, w.last ≤ capacity.toNat
  insufficient :
    result.returned = false ∧ result.lastError = some ERROR_INSUFFICIENT_BUFFER ∧
      result.stored = [] ↔ capacity.toNat < needed arch relationship table
  fills : needed arch relationship table ≤ capacity.toNat →
    result.returned = true ∧ result.stored = records arch relationship table ∧
      result.returnedLength.toNat = needed arch relationship table

/-- The system delivers the table. -/
structure Environment.Delivers (env : Environment) (table : List LegacyInfo) : Prop where
  querySize : env.querySize = none ∨ env.querySize = some ERROR_INSUFFICIENT_BUFFER
  malloc : env.malloc = true
  legacyInfo : env.legacyInfo = some table

/-! ## The two passes -/

/-- The first pass adds up the sizes, modulo `2 ^ 32`. -/
lemma toNat_requiredSize (arch : Arch) (relationship : Relationship) (table : List LegacyInfo) :
    (requiredSize arch relationship table).toNat = needed arch relationship table % 2 ^ 32 := by
  -- the loop goes on from the size so far, so the induction is for all sizes
  have hfold (size : UInt32) :
      (table.foldl
        (fun requiredSize info =>
          if info.Relationship = relationship then requiredSize + arch.sizeofEx
          else requiredSize) size).toNat =
        (size.toNat + needed arch relationship table) % 2 ^ 32 := by
    induction table generalizing size with
    | nil =>
      have hlt := size.toNat_lt
      simp only [needed, matching, List.foldl_nil, List.filter_nil, List.length_nil]
      omega
    | cons info table ih =>
      rw [List.foldl_cons, ih]
      by_cases hinfo : info.Relationship = relationship
      · rw [if_pos hinfo, UInt32.toNat_add]
        simp only [needed, matching, hinfo, decide_true, List.filter_cons_of_pos,
          List.length_cons, Nat.add_mul]
        omega
      · rw [if_neg hinfo]
        simp [needed, matching, hinfo]
  rw [requiredSize, hfold 0]
  show (0 + _) % _ = _
  rw [Nat.zero_add]

/-- The second pass stores the records one behind the other. -/
lemma fillEntries_eq (arch : Arch) (relationship : Relationship) (pCurrent : ℕ)
    (table : List LegacyInfo) :
    fillEntries arch relationship pCurrent table =
      (matching relationship table).mapIdx fun i info =>
        storedAt arch relationship (pCurrent + i * arch.sizeofEx.toNat) info := by
  induction table generalizing pCurrent with
  | nil => rfl
  | cons info table ih =>
    by_cases hinfo : info.Relationship = relationship
    · -- the records behind this one move by its size
      have hnext (i : ℕ) : pCurrent + arch.sizeofEx.toNat + i * arch.sizeofEx.toNat =
          pCurrent + (i + 1) * arch.sizeofEx.toNat := by
        rw [Nat.add_mul]
        omega
      rw [fillEntries, if_pos hinfo, ih]
      simp only [matching, hinfo, decide_true, List.filter_cons_of_pos, List.mapIdx_cons,
        Nat.zero_mul, Nat.add_zero, hnext]
    · rw [fillEntries, if_neg hinfo, ih]
      simp [matching, hinfo]

/-- What is written of a record lies within its size. -/
lemma last_storedAt_le (pCurrent : ℕ) (info : LegacyInfo) :
    (storedAt arch relationship pCurrent info).last ≤ pCurrent + arch.sizeofEx.toNat := by
  have hsize : 12 ≤ arch.sizeofEx.toNat := by cases arch <;> decide
  unfold storedAt Stored.last
  cases relationship <;> simp only <;> omega

/-- What is written of all records lies within the bytes that they need. -/
lemma last_le_needed {w : Stored} (hw : w ∈ records arch relationship table) :
    w.last ≤ needed arch relationship table := by
  rw [records, List.mem_mapIdx] at hw
  obtain ⟨i, hi, rfl⟩ := hw
  apply (last_storedAt_le _ _).trans
  -- the end of a record is the beginning of the next one
  have hmul : (i + 1) * arch.sizeofEx.toNat ≤
      (matching relationship table).length * arch.sizeofEx.toNat :=
    Nat.mul_le_mul_right _ hi
  rw [Nat.add_mul, Nat.one_mul] at hmul
  exact hmul

/-! ## The call -/

/-- **The call with a buffer** stores all records, whatever the buffer holds: the length to
check has been overwritten by the size that is checked. -/
lemma call_eq {env : Environment}
    (hrel : relationship = .RelationProcessorCore ∨ relationship = .RelationNumaNode)
    (henv : env.Delivers table) (returnedLength : UInt32) :
    getLogicalProcessorInformationEx_winxp arch env relationship true returnedLength =
      ⟨true, none, requiredSize arch relationship table, records arch relationship table⟩ := by
  obtain ⟨hquery, hmalloc, htable⟩ := henv
  have hsupported : ¬(relationship ≠ .RelationProcessorCore ∧
      relationship ≠ .RelationNumaNode) := by
    rintro ⟨hcore, hnuma⟩
    exact hrel.elim hcore hnuma
  have hsize : ¬(env.querySize ≠ none ∧ env.querySize ≠ some ERROR_INSUFFICIENT_BUFFER) := by
    rintro ⟨hnone, herror⟩
    exact hquery.elim hnone herror
  have hrecords : fillEntries arch relationship 0 table = records arch relationship table := by
    rw [fillEntries_eq, records]
    simp only [Nat.zero_add]
  rw [getLogicalProcessorInformationEx_winxp, if_neg hsupported, if_neg hsize]
  simp only [hmalloc, htable, hrecords, Bool.not_true, Bool.false_eq_true, if_false]
  rw [if_neg]
  rw [UInt32.lt_iff_toNat_lt]
  exact Nat.lt_irrefl _

/-- **The caller's buffer** is respected if and only if it is large enough for all records. -/
theorem respects_iff (arch : Arch) (env : Environment) (relationship : Relationship)
    (table : List LegacyInfo) (returnedLength : UInt32)
    (hrel : relationship = .RelationProcessorCore ∨ relationship = .RelationNumaNode)
    (henv : env.Delivers table) :
    Respects arch relationship table returnedLength
      (getLogicalProcessorInformationEx_winxp arch env relationship true returnedLength) ↔
    needed arch relationship table ≤ returnedLength.toNat := by
  rw [call_eq hrel henv]
  constructor
  · -- a call that succeeds has to have room
    intro hrespects
    by_contra hless
    have hfails := (hrespects.insufficient.mpr (not_le.mp hless)).1
    exact absurd hfails.symm Bool.false_ne_true
  · intro hfits
    have hlength : (requiredSize arch relationship table).toNat =
        needed arch relationship table := by
      have hlt := returnedLength.toNat_lt
      rw [toNat_requiredSize]
      exact Nat.mod_eq_of_lt (by omega)
    refine ⟨fun w hw => (last_le_needed hw).trans hfits, ?_, fun _ => ⟨rfl, rfl, hlength⟩⟩
    apply iff_of_false
    · rintro ⟨hfalse, -⟩
      exact absurd hfalse.symm Bool.false_ne_true
    · exact not_lt.mpr hfits

/-- A machine with two cores. -/
def twoCores : Environment :=
  ⟨some ERROR_INSUFFICIENT_BUFFER, true,
    some [⟨.RelationProcessorCore, 1⟩, ⟨.RelationNumaNode, 0⟩, ⟨.RelationProcessorCore, 1⟩]⟩

/-- A buffer for both of them. -/
theorem respects_twoCores :
    Respects .x64 .RelationProcessorCore
      [⟨.RelationProcessorCore, 1⟩, ⟨.RelationNumaNode, 0⟩, ⟨.RelationProcessorCore, 1⟩] 160
      (getLogicalProcessorInformationEx_winxp .x64 twoCores .RelationProcessorCore true 160) :=
  (respects_iff .x64 twoCores .RelationProcessorCore _ 160 (Or.inl rfl)
    ⟨Or.inr rfl, rfl, rfl⟩).mpr (by decide)

/-- A buffer for one of them is overrun, and the call succeeds. -/
theorem twoCores_overrun :
    (getLogicalProcessorInformationEx_winxp .x64 twoCores .RelationProcessorCore true 80).stored =
      [⟨0, .RelationProcessorCore, 80, some (.ProcessorFlags 1)⟩,
        ⟨80, .RelationProcessorCore, 80, some (.ProcessorFlags 1)⟩] ∧
    ¬Respects .x64 .RelationProcessorCore
      [⟨.RelationProcessorCore, 1⟩, ⟨.RelationNumaNode, 0⟩, ⟨.RelationProcessorCore, 1⟩] 80
      (getLogicalProcessorInformationEx_winxp .x64 twoCores .RelationProcessorCore true 80) := by
  refine ⟨by decide, ?_⟩
  intro hrespects
  have hwithin := hrespects.within
    ⟨80, .RelationProcessorCore, 80, some (.ProcessorFlags 1)⟩ (by decide)
  exact absurd hwithin (by decide)

end ProcessorInformation
end ClamavWin32
