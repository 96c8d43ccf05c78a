import Mathlib.Data.List.Basic
import Mathlib.Logic.Function.Basic
import Mathlib.Tactic.Common

/-!
# Chains of cells linked through memory

`next : α → α` reads the link stored in a cell and `0` ends a chain.

* `Chain next a l`: following the links from `a` visits the cells `l` and reaches `0`;
* `OnChain next a x`: following the links from `a` comes to `x` before it reaches `0`,
  whether or not it ever does.

A chain is determined by its start, so a finite one visits no cell twice, and a store to a
cell that is not on it leaves it alone.
-/

namespace ClamavWin32

variable {α : Type*} [Zero α] {next : α → α}

/-- Following the links from `a` visits the cells of the list and ends at `0`. -/
def Chain (next : α → α) : α → List α → Prop
  | a, [] => a = 0
  | a, x :: l => a = x ∧ x ≠ 0 ∧ Chain next (next x) l

/-- Following the links from the first cell comes to the second one. -/
inductive OnChain (next : α → α) : α → α → Prop
  | head {a : α} (ha : a ≠ 0) : OnChain next a a
  | tail {a x : α} (ha : a ≠ 0) (h : OnChain next (next a) x) : OnChain next a x

namespace OnChain

lemma ne_zero {a x : α} (h : OnChain next a x) : a ≠ 0 := by
  cases h <;> assumption

lemma not_zero (x : α) : ¬ OnChain next 0 x := fun h => h.ne_zero rfl

end OnChain

namespace Chain

@[simp] lemma nil_iff {a : α} : Chain next a [] ↔ a = 0 := Iff.rfl

@[simp] lemma cons_iff {a x : α} {l : List α} :
    Chain next a (x :: l) ↔ a = x ∧ x ≠ 0 ∧ Chain next (next x) l := Iff.rfl

lemma zero_iff {l : List α} : Chain next 0 l ↔ l = [] := by
  cases l with
  | nil => simp
  | cons x l =>
    refine ⟨fun ⟨h0, hx, _⟩ => absurd h0.symm hx, fun h => by cases h⟩

/-- A chain from a cell starts with that cell. -/
lemma exists_cons {a : α} {l : List α} (h : Chain next a l) (ha : a ≠ 0) :
    ∃ l', l = a :: l' ∧ Chain next (next a) l' := by
  cases l with
  | nil => exact absurd h ha
  | cons x l' =>
    obtain ⟨rfl, -, h'⟩ := h
    exact ⟨l', rfl, h'⟩

/-- A start has one chain. -/
theorem unique {a : α} {l l' : List α} (h : Chain next a l) (h' : Chain next a l') : l = l' := by
  induction l generalizing a l' with
  | nil =>
    cases h
    exact (zero_iff.mp h').symm
  | cons x l ih =>
    obtain ⟨rfl, hx, h⟩ := h
    obtain ⟨l'', rfl, htail⟩ := h'.exists_cons hx
    rw [ih h htail]

/-- The chain from one of its cells is the rest of it. -/
lemma drop {a x : α} {l : List α} (h : Chain next a l) (hx : x ∈ l) :
    ∃ l', Chain next x l' ∧ l'.length ≤ l.length := by
  induction l generalizing a with
  | nil => cases hx
  | cons y l ih =>
    by_cases hxy : x = y
    · subst hxy
      obtain ⟨rfl, hy, h⟩ := h
      exact ⟨a :: l, ⟨rfl, hy, h⟩, Nat.le_refl _⟩
    · obtain ⟨l', hl', hlen⟩ := ih h.2.2 (List.mem_of_ne_of_mem hxy hx)
      exact ⟨l', hl', Nat.le_trans hlen (Nat.le_succ _)⟩

/-- A finite chain visits no cell twice. -/
theorem nodup {a : α} {l : List α} (h : Chain next a l) : l.Nodup := by
  induction l generalizing a with
  | nil => exact List.nodup_nil
  | cons x l ih =>
    obtain ⟨rfl, hx, h⟩ := h
    refine List.nodup_cons.mpr ⟨fun hmem => ?_, ih h⟩
    -- the chain from `a` would be one of its own proper tails
    obtain ⟨l', hl', hlen⟩ := h.drop hmem
    have heq : l' = a :: l := hl'.unique ⟨rfl, hx, h⟩
    rw [heq, List.length_cons] at hlen
    omega

lemma mem_iff_onChain {a x : α} {l : List α} (h : Chain next a l) :
    x ∈ l ↔ OnChain next a x := by
  constructor
  · intro hx
    induction l generalizing a with
    | nil => cases hx
    | cons y l ih =>
      obtain ⟨rfl, hy, h⟩ := h
      rcases List.mem_cons.mp hx with rfl | hx
      · exact .head hy
      · exact .tail hy (ih h hx)
  · intro hx
    induction hx generalizing l with
    | head ha =>
      obtain ⟨l', rfl, -⟩ := h.exists_cons ha
      exact List.mem_cons_self ..
    | tail ha _ ih =>
      obtain ⟨l', rfl, h'⟩ := h.exists_cons ha
      exact List.mem_cons_of_mem _ (ih h')

/-- **Frame rule.** A store to a cell off the chain leaves the chain alone. -/
theorem update [DecidableEq α] {a x v : α} {l : List α} (h : Chain next a l) (hx : x ∉ l) :
    Chain (Function.update next x v) a l := by
  induction l generalizing a with
  | nil => exact h
  | cons y l ih =>
    obtain ⟨rfl, hy, h⟩ := h
    have hne : a ≠ x := fun he => hx (he ▸ List.mem_cons_self ..)
    refine ⟨rfl, hy, ?_⟩
    rw [Function.update_of_ne hne]
    exact ih h fun hmem => hx (List.mem_cons_of_mem _ hmem)

/-- A cell that links to itself starts no finite chain. -/
lemma not_of_self {a : α} {l : List α} (ha : a ≠ 0) (hself : next a = a) :
    ¬ Chain next a l := by
  intro h
  obtain ⟨l', rfl, h'⟩ := h.exists_cons ha
  rw [hself] at h'
  have heq := h'.unique h
  simp at heq

end Chain
end ClamavWin32
