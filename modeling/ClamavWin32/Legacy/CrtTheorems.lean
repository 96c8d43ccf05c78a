import ClamavWin32.Legacy.Crt

/-!
# The two modes of the conversion

* `SameSize`, `StoresAll`, `RefusesSmaller`: what a caller expects who asks for the size first,
  and then converts;
* `query_eq`, `convert_of_lt`, `convert_of_le`: the call without a buffer, with one that is large
  enough, and with a smaller one;
* `storesAll`: the large buffer receives everything;
* `refusesSmaller_iff`: a smaller one is refused only where nothing is to be stored;
* `modes_disagree`: the terminator is counted by one mode only, whatever the string.
-/

namespace ClamavWin32
namespace Crt

open MultiByte

variable (wctomb : Wctomb) (wcstr : WString)

/-! ## What the caller expects -/

/-- The call that asks for the size. -/
def query (old count : ℕ) : Result :=
  wcstombs_s_compat wctomb (some old) none 0 (some wcstr) count

/-- The call that converts into a buffer. -/
def convert (old : ℕ) (mbstr : List UInt8) (count : ℕ) : Result :=
  wcstombs_s_compat wctomb (some old) (some mbstr) mbstr.length (some wcstr) count

/-- The mode that converts reports the size that the other one asked for. -/
def SameSize (bytes : List UInt8) : Prop :=
  ∀ (old count size : ℕ), (query wctomb wcstr old count).pReturnValue = some size →
    ∀ (mbstr : List UInt8) (old' count' : ℕ), mbstr.length = size → bytes.length ≤ count' →
      (convert wctomb wcstr old' mbstr count').pReturnValue = some size

/-- A buffer of that size receives all bytes and a terminator. -/
def StoresAll (bytes : List UInt8) : Prop :=
  ∀ (old count size : ℕ), (query wctomb wcstr old count).pReturnValue = some size →
    ∀ (mbstr : List UInt8) (old' count' : ℕ), mbstr.length = size → bytes.length ≤ count' →
      (convert wctomb wcstr old' mbstr count').returned = 0 ∧
        (convert wctomb wcstr old' mbstr count').mbstr = some (bytes ++ [0])

/-- A smaller buffer receives all that `count` allows and a terminator, or the call fails. -/
def RefusesSmaller (bytes : List UInt8) : Prop :=
  ∀ (old : ℕ) (mbstr : List UInt8) (count : ℕ), mbstr.length ≤ bytes.length →
    (convert wctomb wcstr old mbstr count).returned = 0 →
      ∃ stored, (convert wctomb wcstr old mbstr count).mbstr = some stored ∧
        (convertWithin wctomb count wcstr).1 ++ [0] <+: stored

/-- The modes agree on a string that is converted to these bytes. -/
structure ModesAgree (bytes : List UInt8) : Prop where
  sameSize : SameSize wctomb wcstr bytes
  storesAll : StoresAll wctomb wcstr bytes
  refusesSmaller : RefusesSmaller wctomb wcstr bytes

/-! ## The calls -/

variable {wctomb wcstr} {bytes : List UInt8}

/-- The query counts the terminator. -/
lemma query_eq (hall : convertAll wctomb wcstr = some bytes) (old count : ℕ) :
    query wctomb wcstr old count = ⟨0, none, some (bytes.length + 1), none⟩ := by
  have hlength : wcstombsLength wctomb wcstr = some bytes.length := by
    rw [wcstombsLength, hall]
    rfl
  simp only [query, wcstombs_s_compat, if_true, hlength]
  rfl

/-- `wcstombs` with room for all bytes. Whether it stores the terminator does not matter to
a caller who does so. -/
lemma wcstombs_of_le (hall : convertAll wctomb wcstr = some bytes) {n : ℕ}
    (hroom : bytes.length ≤ n) {mbstr : List UInt8} (hmbstr : bytes.length < mbstr.length) :
    (wcstombs wctomb mbstr wcstr n).1 = some bytes.length ∧
      (wcstombs wctomb mbstr wcstr n).2.set bytes.length 0 =
        bytes ++ 0 :: mbstr.drop (bytes.length + 1) := by
  rw [wcstombs, convertWithin_of_le hall hroom]
  apply And.intro rfl
  show (store mbstr _).set bytes.length 0 = _
  by_cases hless : bytes.length < n
  · -- the terminator is stored twice
    rw [if_pos hless, store, List.length_append, List.length_singleton, List.append_assoc,
      List.set_append_right _ _ (Nat.le_refl _), Nat.sub_self]
    rfl
  · rw [if_neg hless, store, List.set_append_right _ _ (Nat.le_refl _), Nat.sub_self,
      List.drop_eq_getElem_cons hmbstr]
    rfl

/-- **With a buffer that is large enough** everything is stored, and the terminator is not
counted. -/
lemma convert_of_lt (hall : convertAll wctomb wcstr = some bytes) {mbstr : List UInt8}
    {count : ℕ} (hroom : bytes.length < mbstr.length) (hcount : bytes.length ≤ count)
    (old : ℕ) :
    convert wctomb wcstr old mbstr count =
      ⟨0, none, some bytes.length, some (bytes ++ 0 :: mbstr.drop (bytes.length + 1))⟩ := by
  -- neither limit is in the way
  have hmax : bytes.length ≤ if count < mbstr.length then count else mbstr.length - 1 := by
    split_ifs
    · exact hcount
    · omega
  obtain ⟨hresult, hset⟩ := wcstombs_of_le hall hmax hroom
  have hsize : mbstr.length ≠ 0 := by omega
  simp only [convert, wcstombs_s_compat, if_neg hsize]
  cases hcall : wcstombs wctomb mbstr wcstr
      (if count < mbstr.length then count else mbstr.length - 1) with
  | mk result stored =>
    rw [hcall] at hresult hset
    rw [show result = some bytes.length from hresult]
    simp only [if_pos hroom, report, Option.map_some]
    rw [show stored.set bytes.length 0 = _ from hset]

/-- `wcstombs` with less room than the buffer has does not fail. -/
lemma wcstombs_of_lt (hall : convertAll wctomb wcstr = some bytes) {n : ℕ}
    {mbstr : List UInt8} (hn : n < mbstr.length) :
    ∃ result stored, wcstombs wctomb mbstr wcstr n = (some result, stored) ∧
      stored.length = mbstr.length := by
  have hlimit : (convertWithin wctomb n wcstr).1.length ≤ n := length_convertWithin_le n wcstr
  have hfailed := convertWithin_ne_failed hall n
  rw [wcstombs]
  cases hcall : convertWithin wctomb n wcstr with
  | mk converted stop =>
    rw [hcall] at hlimit hfailed
    simp only at hlimit hfailed
    cases stop with
    | converted =>
      refine ⟨_, _, rfl, ?_⟩
      split_ifs <;> simp only [store, List.length_append, List.length_drop,
        List.length_singleton] <;> omega
    | full =>
      refine ⟨_, _, rfl, ?_⟩
      simp only [store, List.length_append, List.length_drop]
      omega
    | failed => exact absurd rfl hfailed

/-- **With a smaller buffer** the call succeeds as well. -/
lemma convert_of_le (hall : convertAll wctomb wcstr = some bytes) {mbstr : List UInt8}
    (hsize : mbstr.length ≠ 0) (old count : ℕ) :
    (convert wctomb wcstr old mbstr count).returned = 0 ∧
      ∃ stored, (convert wctomb wcstr old mbstr count).mbstr = some stored ∧
        stored.length = mbstr.length := by
  have hmax : (if count < mbstr.length then count else mbstr.length - 1) < mbstr.length := by
    split_ifs <;> omega
  obtain ⟨result, stored, hcall, hlength⟩ := wcstombs_of_lt hall hmax
  simp only [convert, wcstombs_s_compat, if_neg hsize, hcall]
  refine ⟨trivial, _, rfl, ?_⟩
  rw [List.length_set]
  exact hlength

/-! ## What the caller gets -/

/-- A buffer of the reported size receives all bytes and the terminator. -/
lemma storesAll (hall : convertAll wctomb wcstr = some bytes) :
    StoresAll wctomb wcstr bytes := by
  intro old count size hquery mbstr old' count' hsize hcount
  rw [query_eq hall] at hquery
  have hlength : bytes.length + 1 = mbstr.length := by
    rw [hsize]
    exact Option.some.inj hquery
  rw [convert_of_lt hall (by omega) hcount, hlength, List.drop_length]
  exact ⟨rfl, rfl⟩

/-- A smaller buffer is refused only where the string is empty. -/
lemma refusesSmaller_iff (hall : convertAll wctomb wcstr = some bytes) :
    RefusesSmaller wctomb wcstr bytes ↔ bytes = [] := by
  constructor
  · intro hrefuses
    by_contra hbytes
    have hpos : 0 < bytes.length := List.length_pos_of_ne_nil hbytes
    -- a buffer for all bytes, but not for the terminator
    have hsize : (bytes.map fun _ => (0 : UInt8)).length = bytes.length := List.length_map _
    obtain ⟨hreturned, stored, hstored, hlength⟩ :=
      convert_of_le hall (show (bytes.map fun _ => (0 : UInt8)).length ≠ 0 by omega) 0
        bytes.length
    obtain ⟨stored', hstored', hall'⟩ := hrefuses 0 _ _ (Nat.le_of_eq hsize) hreturned
    rw [convertWithin_of_le hall (Nat.le_refl _)] at hall'
    have heq : stored = stored' := Option.some.inj (hstored.symm.trans hstored')
    have hle : (bytes ++ [0]).length ≤ stored'.length := hall'.length_le
    rw [List.length_append, List.length_singleton, ← heq, hlength, hsize] at hle
    omega
  · intro hbytes old mbstr count hsmaller hreturned
    rw [hbytes, List.length_nil] at hsmaller
    have hnil : mbstr = [] := List.eq_nil_of_length_eq_zero (by omega)
    rw [hnil] at hreturned
    -- there is no buffer of the size 0
    exact absurd hreturned (show EINVAL ≠ 0 by decide)

/-- **The modes never agree**: the query counts the terminator, the conversion does not. -/
theorem modes_disagree (wctomb : Wctomb) (wcstr : WString) (bytes : List UInt8)
    (hall : convertAll wctomb wcstr = some bytes) : ¬ModesAgree wctomb wcstr bytes := by
  intro hagree
  have hsize : (List.replicate (bytes.length + 1) (0 : UInt8)).length = bytes.length + 1 :=
    List.length_replicate
  have hquery : (query wctomb wcstr 0 0).pReturnValue = some (bytes.length + 1) := by
    rw [query_eq hall]
  have hsame := hagree.sameSize 0 0 _ hquery _ 0 bytes.length hsize (Nat.le_refl _)
  rw [convert_of_lt hall (by omega) (Nat.le_refl _)] at hsame
  exact absurd (Option.some.inj hsame) (by omega)

/-- A locale of single bytes. -/
def latin1 : Wctomb := fun c => if c < 256 then some [c.toUInt8] else none

theorem modes_disagree_ab : ¬ModesAgree latin1 (wide "ab") [97, 98] :=
  modes_disagree latin1 (wide "ab") [97, 98] (by decide)

/-- Three bytes are asked for and two reported; and the second character is lost in a buffer
of two, without an error. -/
theorem ab_sizes :
    (query latin1 (wide "ab") 0 2).pReturnValue = some 3 ∧
    convert latin1 (wide "ab") 0 [1, 1, 1] 2 = ⟨0, none, some 2, some [97, 98, 0]⟩ ∧
    convert latin1 (wide "ab") 0 [1, 1] 2 = ⟨0, none, some 1, some [97, 0]⟩ ∧
    ¬ModesAgree latin1 (wide "ab") [97, 98] := by
  have hconverted : convert latin1 (wide "ab") 0 [1, 1, 1] 2 =
      ⟨0, none, some 2, some [97, 98, 0]⟩ := by decide
  refine ⟨by decide, hconverted, by decide, ?_⟩
  intro hagree
  have hsame := hagree.sameSize 0 2 3 (by decide) [1, 1, 1] 0 2 rfl (Nat.le_refl _)
  rw [hconverted] at hsame
  exact absurd hsame (by decide)

end Crt
end ClamavWin32
