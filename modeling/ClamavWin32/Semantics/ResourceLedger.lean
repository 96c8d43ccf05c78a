import Mathlib.Data.List.Basic
import Mathlib.Tactic.Common

/-!
# Resource ledger

A program acquires resources and releases them again. Its ledger lists what it holds: a
resource is entered when it is acquired and struck off when it is released, and releasing
one that is not held is an error.

* `ledger` replays the events of a program on what it holds, `none` after an error;
* `Releases` says that a program releases all it acquires, each resource exactly once;
* `ledger_frame`: what a program does not touch it still holds afterwards;
* `Leaves` says what a program owns when it ends, and when it has lost something besides, with
  one rule for each thing that a program does.
-/

namespace ClamavWin32

inductive ResourceEvent (ρ : Type*) where
  | acquire (r : ρ)
  | release (r : ρ)
  deriving DecidableEq, Repr

namespace ResourceEvent

variable {ρ : Type*} [DecidableEq ρ]

/-- What is held after the events, if nothing is released that is not held. -/
def ledger (held : List ρ) : List (ResourceEvent ρ) → Option (List ρ)
  | [] => some held
  | .acquire r :: es => ledger (r :: held) es
  | .release r :: es => if r ∈ held then ledger (held.erase r) es else none

/-- Every resource acquired is released exactly once, and nothing else is. -/
def Releases (es : List (ResourceEvent ρ)) : Prop := ledger [] es = some []

instance (es : List (ResourceEvent ρ)) : Decidable (Releases es) :=
  inferInstanceAs (Decidable (ledger [] es = some []))

@[simp] lemma ledger_nil (held : List ρ) : ledger held [] = some held := rfl

@[simp] lemma ledger_acquire (held : List ρ) (r : ρ) (es : List (ResourceEvent ρ)) :
    ledger held (.acquire r :: es) = ledger (r :: held) es := rfl

/-- The resource acquired last can be released. -/
@[simp] lemma ledger_release_head (held : List ρ) (r : ρ) (es : List (ResourceEvent ρ)) :
    ledger (r :: held) (.release r :: es) = ledger held es := by
  rw [ledger, if_pos List.mem_cons_self, List.erase_cons_head]

lemma ledger_append (held : List ρ) (es fs : List (ResourceEvent ρ)) :
    ledger held (es ++ fs) = (ledger held es).bind fun held' => ledger held' fs := by
  induction es generalizing held with
  | nil => rfl
  | cons e es ih =>
    cases e with
    | acquire r => exact ih (r :: held)
    | release r =>
      rw [List.cons_append, ledger, ledger]
      by_cases hr : r ∈ held
      · rw [if_pos hr, if_pos hr, ih]
      · rw [if_neg hr, if_neg hr, Option.bind_none]

/-- **Frame.** What is held besides stays held. -/
theorem ledger_frame {held held' : List ρ} (rest : List ρ) {es : List (ResourceEvent ρ)}
    (h : ledger held es = some held') :
    ledger (held ++ rest) es = some (held' ++ rest) := by
  induction es generalizing held with
  | nil =>
    rw [ledger_nil, Option.some.injEq] at h
    rw [ledger_nil, h]
  | cons e es ih =>
    cases e with
    | acquire r =>
      show ledger (r :: held ++ rest) es = some (held' ++ rest)
      apply ih
      exact h
    | release r =>
      rw [ledger] at h ⊢
      by_cases hr : r ∈ held
      · rw [if_pos hr] at h
        rw [if_pos (List.mem_append_left _ hr), List.erase_append_left _ hr]
        exact ih h
      · rw [if_neg hr] at h
        cases h

/-- A program that releases all it acquires leaves what was held before. -/
lemma Releases.ledger_eq {es : List (ResourceEvent ρ)} (h : Releases es) (held : List ρ) :
    ledger held es = some held := by
  have hframe := ledger_frame held h
  rwa [List.nil_append] at hframe

/-- One after the other, two programs that release all they acquire do so together. -/
lemma Releases.append {es fs : List (ResourceEvent ρ)} (hes : Releases es)
    (hfs : Releases fs) : Releases (es ++ fs) := by
  rw [Releases, ledger_append, hes.ledger_eq, Option.bind_some]
  exact hfs

/-- What is acquired can be released at once. -/
lemma releases_pair (r : ρ) : Releases [.acquire r, .release r] :=
  ledger_release_head [] r []

/-! ## What a program leaves -/

/-- The program owns these resources when it ends, and nothing besides unless it leaks. -/
def Leaves (es : List (ResourceEvent ρ)) (owned : List ρ) (leaks : Prop) : Prop :=
  ∃ held lost, ledger [] es = some held ∧ held.Perm (owned ++ lost) ∧ (lost = [] ↔ ¬leaks)

section Leaves

variable {es fs : List (ResourceEvent ρ)} {owned owned' : List ρ} {leaks leaks' : Prop} {r : ρ}

lemma Leaves.nil : Leaves ([] : List (ResourceEvent ρ)) [] False :=
  ⟨[], [], rfl, List.Perm.refl _, iff_of_true rfl not_false⟩

lemma Leaves.perm (h : Leaves es owned leaks) (hperm : owned.Perm owned') :
    Leaves es owned' leaks := by
  obtain ⟨held, lost, hledger, hheld, hlost⟩ := h
  exact ⟨held, lost, hledger, hheld.trans (hperm.append_right lost), hlost⟩

lemma Leaves.congr (h : Leaves es owned leaks) (hiff : leaks ↔ leaks') :
    Leaves es owned leaks' := by
  obtain ⟨held, lost, hledger, hheld, hlost⟩ := h
  exact ⟨held, lost, hledger, hheld, hlost.trans (not_congr hiff)⟩

/-- Behind a program that releases all it acquires, another one leaves the same. -/
lemma Leaves.after (h : Leaves fs owned leaks) (hes : Releases es) :
    Leaves (es ++ fs) owned leaks := by
  obtain ⟨held, lost, hledger, hheld, hlost⟩ := h
  refine ⟨held, lost, ?_, hheld, hlost⟩
  rw [ledger_append, hes, Option.bind_some, hledger]

/-- **One after the other** two programs leave what each of them leaves. -/
lemma Leaves.append (h : Leaves es owned leaks) (h' : Leaves fs owned' leaks') :
    Leaves (es ++ fs) (owned' ++ owned) (leaks ∨ leaks') := by
  obtain ⟨held, lost, hledger, hheld, hlost⟩ := h
  obtain ⟨held', lost', hledger', hheld', hlost'⟩ := h'
  have hframe := ledger_frame held hledger'
  rw [List.nil_append] at hframe
  refine ⟨held' ++ held, lost' ++ lost, ?_, ?_, ?_⟩
  · rw [ledger_append, hledger, Option.bind_some, hframe]
  · have hboth := hheld'.append hheld
    have hswap : (owned' ++ (lost' ++ owned) ++ lost).Perm (owned' ++ (owned ++ lost') ++ lost) :=
      (List.perm_append_comm.append_left owned').append_right lost
    simp only [List.append_assoc] at hboth hswap ⊢
    exact hboth.trans hswap
  · rw [List.append_eq_nil_iff, hlost, hlost', not_or]
    exact and_comm

lemma Leaves.acquire (h : Leaves es owned leaks) (r : ρ) :
    Leaves (es ++ [.acquire r]) (r :: owned) leaks := by
  obtain ⟨held, lost, hledger, hheld, hlost⟩ := h
  refine ⟨r :: held, lost, ?_, hheld.cons r, hlost⟩
  rw [ledger_append, hledger]
  rfl

lemma Leaves.release (h : Leaves es (r :: owned) leaks) :
    Leaves (es ++ [.release r]) owned leaks := by
  obtain ⟨held, lost, hledger, hheld, hlost⟩ := h
  have hr : r ∈ held := hheld.mem_iff.mpr List.mem_cons_self
  refine ⟨held.erase r, lost, ?_, ?_, hlost⟩
  · rw [ledger_append, hledger, Option.bind_some, ledger, if_pos hr, ledger_nil]
  · have herase := hheld.erase r
    rwa [List.cons_append, List.erase_cons_head] at herase

/-- A resource is released wherever it stands among those that are owned. -/
lemma Leaves.release_middle {before after : List ρ}
    (h : Leaves es (before ++ r :: after) leaks) :
    Leaves (es ++ [.release r]) (before ++ after) leaks := by
  apply Leaves.release
  exact h.perm List.perm_middle

/-- A resource that nothing refers to any longer is lost. -/
lemma Leaves.lose (h : Leaves es (r :: owned) leaks) : Leaves es owned True := by
  obtain ⟨held, lost, hledger, hheld, -⟩ := h
  refine ⟨held, r :: lost, hledger, hheld.trans List.perm_middle.symm, ?_⟩
  exact iff_of_false (List.cons_ne_nil _ _) (not_not.mpr trivial)

/-- Nothing is lost. -/
lemma Leaves.keeps (h : Leaves es owned False) (hkept : ¬leaks) : Leaves es owned leaks :=
  h.congr (iff_of_false not_false hkept)

/-- Something is lost. -/
lemma Leaves.loses (h : Leaves es (r :: owned) leaks) (hlost : leaks') :
    Leaves es owned leaks' :=
  h.lose.congr (iff_of_true trivial hlost)

/-- **A program that owns nothing when it ends** releases all it acquires unless it leaks. -/
lemma Leaves.ownsNothing (h : Leaves es [] leaks) : Releases es ↔ ¬leaks := by
  obtain ⟨held, lost, hledger, hheld, hlost⟩ := h
  rw [List.nil_append] at hheld
  rw [← hlost, Releases, hledger, Option.some.injEq]
  constructor
  · rintro rfl
    exact hheld.nil_eq.symm
  · rintro rfl
    exact hheld.eq_nil

end Leaves

end ResourceEvent
end ClamavWin32
