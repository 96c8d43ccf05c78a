import Mathlib.Data.List.Basic
import Mathlib.Tactic.Common

/-!
# Characters of several bytes

A string is encoded character by character; a character may have no encoding, and the bytes of
a character are never divided.

* `convertAll`: the bytes of the whole string;
* `convertWithin`: those that a limit leaves room for, and why the conversion ended;
* `length_convertWithin_le`, `convertWithin_of_le`: the limit is kept, and with enough room the
  whole string is converted;
* `convertWithin_ne_failed`: with less room the conversion of such a string does not fail.
-/

namespace ClamavWin32
namespace MultiByte

/-- Why a conversion ended. -/
inductive Stop where
  | converted
  | full
  | failed
  deriving DecidableEq, Repr

variable {χ β : Type*} (encode : χ → Option (List β))

def convertAll : List χ → Option (List β)
  | [] => some []
  | c :: s =>
    match encode c with
    | none => none
    | some bytes => (convertAll s).map (bytes ++ ·)

def convertWithin : ℕ → List χ → List β × Stop
  | _, [] => ([], .converted)
  | limit, c :: s =>
    match encode c with
    | none => ([], .failed)
    | some bytes =>
      if bytes.length ≤ limit then
        let rest := convertWithin (limit - bytes.length) s
        (bytes ++ rest.1, rest.2)
      else ([], .full)

variable {encode}

/-- The bytes of a string are those of its first character, and those of the others. -/
lemma convertAll_cons {c : χ} {s : List χ} {all : List β} :
    convertAll encode (c :: s) = some all ↔
      ∃ bytes rest, encode c = some bytes ∧ convertAll encode s = some rest ∧
        bytes ++ rest = all := by
  cases hc : encode c with
  | none => simp [convertAll, hc]
  | some bytes => simp [convertAll, hc]

/-- The limit is kept. -/
lemma length_convertWithin_le (limit : ℕ) (s : List χ) :
    (convertWithin encode limit s).1.length ≤ limit := by
  induction s generalizing limit with
  | nil => exact Nat.zero_le _
  | cons c s ih =>
    cases hc : encode c with
    | none => simp [convertWithin, hc]
    | some bytes =>
      by_cases hroom : bytes.length ≤ limit
      · have hrest := ih (limit - bytes.length)
        simp only [convertWithin, hc, if_pos hroom, List.length_append]
        omega
      · simp [convertWithin, hc, hroom]

/-- With room for all bytes the whole string is converted. -/
lemma convertWithin_of_le {limit : ℕ} {s : List χ} {all : List β}
    (hall : convertAll encode s = some all) (hroom : all.length ≤ limit) :
    convertWithin encode limit s = (all, .converted) := by
  induction s generalizing limit all with
  | nil =>
    rw [show all = [] from (Option.some.inj hall).symm]
    rfl
  | cons c s ih =>
    obtain ⟨bytes, rest, hc, hrest, rfl⟩ := convertAll_cons.mp hall
    rw [List.length_append] at hroom
    have htail := ih hrest (show rest.length ≤ limit - bytes.length by omega)
    have hfirst : bytes.length ≤ limit := by omega
    simp only [convertWithin, hc, if_pos hfirst, htail]

/-- The conversion of a string that can be converted does not fail, whatever the limit. -/
lemma convertWithin_ne_failed {s : List χ} {all : List β}
    (hall : convertAll encode s = some all) (limit : ℕ) :
    (convertWithin encode limit s).2 ≠ .failed := by
  induction s generalizing limit all with
  | nil => exact Stop.noConfusion
  | cons c s ih =>
    obtain ⟨bytes, rest, hc, hrest, rfl⟩ := convertAll_cons.mp hall
    by_cases hroom : bytes.length ≤ limit
    · simp only [convertWithin, hc, if_pos hroom]
      exact ih hrest _
    · simp only [convertWithin, hc, if_neg hroom]
      exact Stop.noConfusion

end MultiByte
end ClamavWin32
