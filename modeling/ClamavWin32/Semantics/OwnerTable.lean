import Mathlib.Logic.Function.Basic
import Mathlib.Tactic.Common

/-!
# Tables of owned entries

The entries of a table (the blocks of a heap, the open handles of a process) are under keys that
are used again once they are free. An entry remembers its owner, which the program cannot read:
an access that is meant for the entry of one owner and meets another one's is an error.

* `read`: an access that is meant for the entry of an owner;
* `Describes`: each owner has at most one entry, and this is it; `insert`, `modify` and `remove`
  keep it so.
-/

namespace ClamavWin32

/-- Entries with their owners, under keys. -/
abbrev OwnerTable (K O X : Type*) := K → Option (O × X)

namespace OwnerTable

variable {K O X : Type*} {t : OwnerTable K O X} {owned : O → Option (K × X)} {k : K} {o : O}
  {x : X}

/-- The entry under a key, if it is the one of this owner. -/
def read [DecidableEq O] (t : OwnerTable K O X) (k : K) (o : O) : Option X :=
  (t k).bind fun entry => if entry.1 = o then some entry.2 else none

/-- Each owner has the entry that is said to be its own, and there are no others. -/
def Describes (t : OwnerTable K O X) (owned : O → Option (K × X)) : Prop :=
  ∀ k o x, t k = some (o, x) ↔ owned o = some (k, x)

lemma read_eq_some [DecidableEq O] : t.read k o = some x ↔ t k = some (o, x) := by
  rw [read]
  cases t k with
  | none => simp
  | some entry =>
    obtain ⟨o', x'⟩ := entry
    by_cases ho : o' = o <;> simp [ho]

/-- Nothing is in an empty table. -/
lemma describes_empty : Describes (fun _ => none : OwnerTable K O X) (fun _ => none) :=
  fun _ _ _ => iff_of_false nofun nofun

namespace Describes

lemma read [DecidableEq O] (h : Describes t owned) (ho : owned o = some (k, x)) :
    t.read k o = some x :=
  read_eq_some.mpr ((h k o x).mpr ho)

lemma eq_none (h : Describes t owned) (ho : owned o = none) : t k ≠ some (o, x) := by
  intro hk
  rw [h, ho] at hk
  cases hk

variable [DecidableEq K] [DecidableEq O]

/-- What is under a key is replaced, where the key and the owner have no entry but with each
other. -/
lemma replace (h : Describes t owned) (hk : ∀ o' x', t k = some (o', x') → o' = o)
    (ho : ∀ k' x', owned o = some (k', x') → k' = k) (v : Option X) :
    Describes (Function.update t k (v.map (Prod.mk o)))
      (Function.update owned o (v.map (Prod.mk k))) := by
  intro k' o' x'
  by_cases hkk : k' = k <;> by_cases hoo : o' = o
  · subst hkk hoo
    simp only [Function.update_self, Option.map_eq_some_iff, Prod.mk.injEq, true_and]
  · subst hkk
    rw [Function.update_self, Function.update_of_ne hoo, ← h k' o' x']
    refine iff_of_false ?_ fun hold => hoo (hk o' x' hold)
    cases v <;> simp [Ne.symm hoo]
  · subst hoo
    rw [Function.update_self, Function.update_of_ne hkk, h k' o' x']
    refine iff_of_false (fun hold => hkk (ho k' x' hold)) ?_
    cases v <;> simp [Ne.symm hkk]
  · rw [Function.update_of_ne hkk, Function.update_of_ne hoo, h k' o' x']

/-- An owner without an entry gets one under a free key. -/
lemma insert (h : Describes t owned) (hk : t k = none) (ho : owned o = none) (x : X) :
    Describes (Function.update t k (some (o, x))) (Function.update owned o (some (k, x))) :=
  h.replace (fun o' x' hold => by rw [hk] at hold; cases hold)
    (fun k' x' hold => by rw [ho] at hold; cases hold) (some x)

/-- An entry is that of one owner, and the owner has no other. -/
lemma replace_own (h : Describes t owned) (ho : owned o = some (k, x)) (v : Option X) :
    Describes (Function.update t k (v.map (Prod.mk o)))
      (Function.update owned o (v.map (Prod.mk k))) := by
  have hk := (h k o x).mpr ho
  refine h.replace ?_ ?_ v
  · intro o' x' hold
    rw [hk, Option.some.injEq, Prod.mk.injEq] at hold
    exact hold.1.symm
  · intro k' x' hold
    rw [ho, Option.some.injEq, Prod.mk.injEq] at hold
    exact hold.1.symm

/-- The entry of an owner is changed. -/
lemma modify (h : Describes t owned) (ho : owned o = some (k, x)) (y : X) :
    Describes (Function.update t k (some (o, y))) (Function.update owned o (some (k, y))) :=
  h.replace_own ho (some y)

/-- The entry of an owner is removed. -/
lemma remove (h : Describes t owned) (ho : owned o = some (k, x)) :
    Describes (Function.update t k none) (Function.update owned o none) :=
  h.replace_own ho none

end Describes

end OwnerTable
end ClamavWin32
