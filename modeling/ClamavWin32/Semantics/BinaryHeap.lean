import Mathlib.Data.Set.Function
import Mathlib.Logic.Equiv.Basic
import Mathlib.Logic.Function.Basic
import Mathlib.Order.Interval.Set.Basic
import Mathlib.Tactic.Common

/-!
# Binary heaps

Elements with keys stand at the places `1` to `n` of an array, and none has a smaller key than the
one at half its place. An element that is put in goes up or down over a hole, which the others
move into.

* `Ordered`: the order, with the least element first (`Ordered.first_le`);
* `UpHole`, `DownHole`: the order but for a hole, with a step of either way and its end;
* `bijOn_move`: the elements stay the same;
* `bijOn_removeFirst`, `bijOn_insertLast`: an element less, and one more.
-/

namespace ClamavWin32
namespace BinaryHeap

variable {α : Type*} (key : α → ℕ)

/-- No element has a smaller key than the one above it. -/
def Ordered (heap : ℕ → α) (n : ℕ) : Prop :=
  ∀ i, 2 ≤ i → i ≤ n → key (heap (i / 2)) ≤ key (heap i)

/-- The order but for the hole at `z`. -/
def OrderedExcept (heap : ℕ → α) (n z : ℕ) : Prop :=
  ∀ i, 2 ≤ i → i ≤ n → i ≠ z → i / 2 ≠ z → key (heap (i / 2)) ≤ key (heap i)

/-- What is below the hole is behind what is above it. -/
def Bridged (heap : ℕ → α) (n z : ℕ) : Prop :=
  2 ≤ z → ∀ c, c ≤ n → c / 2 = z → key (heap (z / 2)) ≤ key (heap c)

/-- `x` may go up from the hole. -/
structure UpHole (heap : ℕ → α) (n z : ℕ) (x : α) : Prop where
  except : OrderedExcept key heap n z
  bridged : Bridged key heap n z
  below : ∀ c, 2 ≤ c → c ≤ n → c / 2 = z → key x ≤ key (heap c)

/-- `x` may go down from the hole. -/
structure DownHole (heap : ℕ → α) (n z : ℕ) (x : α) : Prop where
  except : OrderedExcept key heap n z
  bridged : Bridged key heap n z
  above : 2 ≤ z → key (heap (z / 2)) ≤ key x

variable {key} {heap : ℕ → α} {n z : ℕ} {x : α}

/-- **The first element is the least one.** -/
theorem Ordered.first_le (h : Ordered key heap n) {i : ℕ} (hi : 1 ≤ i) (hn : i ≤ n) :
    key (heap 1) ≤ key (heap i) := by
  induction i using Nat.strong_induction_on with
  | _ i ih =>
    rcases hi.eq_or_lt with rfl | hlt
    · exact le_refl _
    · exact (ih (i / 2) (by omega) (by omega) (by omega)).trans (h i hlt hn)

/-- The element above the hole moves into it. -/
lemma UpHole.move (h : UpHole key heap n z x) (hz : 2 ≤ z) (hlt : key x < key (heap (z / 2))) :
    UpHole key (Function.update heap z (heap (z / 2))) n (z / 2) x := by
  have habove : 2 ≤ z / 2 → z ≤ n → key (heap (z / 2 / 2)) ≤ key (heap (z / 2)) :=
    fun h2 hn => h.except (z / 2) h2 (by omega) (by omega) (by omega)
  refine ⟨fun i h2 hn hne hhalf => ?_, fun h2 c hn hc => ?_, fun c h2 hn hc => ?_⟩
  · by_cases hi : i = z
    · exact absurd (congrArg (· / 2) hi) hhalf
    · rw [Function.update_of_ne hi]
      by_cases hi2 : i / 2 = z
      · rw [hi2, Function.update_self]
        exact h.bridged hz i hn hi2
      · rw [Function.update_of_ne hi2]
        exact h.except i h2 hn hi hi2
  · rw [Function.update_of_ne (by omega)]
    by_cases hcz : c = z
    · rw [hcz, Function.update_self]
      exact habove h2 (hcz ▸ hn)
    · rw [Function.update_of_ne hcz]
      have hside := h.except c (by omega) hn hcz (by omega)
      rw [hc] at hside
      exact (h.except (z / 2) h2 (by omega) (by omega) (by omega)).trans hside
  · by_cases hcz : c = z
    · rw [hcz, Function.update_self]
      exact hlt.le
    · rw [Function.update_of_ne hcz]
      have hside := h.except c h2 hn hcz (by omega)
      rw [hc] at hside
      exact hlt.le.trans hside

/-- It has gone up far enough. -/
lemma UpHole.fill (h : UpHole key heap n z x) (hstop : 2 ≤ z → key (heap (z / 2)) ≤ key x) :
    Ordered key (Function.update heap z x) n := by
  intro i h2 hn
  by_cases hi : i = z
  · rw [hi, Function.update_self, Function.update_of_ne (by omega)]
    exact hstop (hi ▸ h2)
  · rw [Function.update_of_ne hi]
    by_cases hi2 : i / 2 = z
    · rw [hi2, Function.update_self]
      exact h.below i h2 hn hi2
    · rw [Function.update_of_ne hi2]
      exact h.except i h2 hn hi hi2

/-- The lesser of the two elements below the hole moves into it. -/
lemma DownHole.move (h : DownHole key heap n z x) (_hz : 1 ≤ z) {y : ℕ} (hy : y / 2 = z)
    (hyn : y ≤ n) (hmin : ∀ c, c ≤ n → c / 2 = z → key (heap y) ≤ key (heap c))
    (hle : key (heap y) ≤ key x) :
    DownHole key (Function.update heap z (heap y)) n y x := by
  refine ⟨fun i h2 hn hne hhalf => ?_, fun h2 c hn hc => ?_, fun h2 => ?_⟩
  · by_cases hi : i = z
    · rw [hi, Function.update_self, Function.update_of_ne (by omega)]
      exact h.bridged (hi ▸ h2) y hyn hy
    · rw [Function.update_of_ne hi]
      by_cases hi2 : i / 2 = z
      · rw [hi2, Function.update_self]
        exact hmin i hn hi2
      · rw [Function.update_of_ne hi2]
        exact h.except i h2 hn hi hi2
  · rw [hy, Function.update_self, Function.update_of_ne (by omega)]
    have hside := h.except c (by omega) hn (by omega) (by omega)
    rwa [hc] at hside
  · rw [hy, Function.update_self]
    exact hle

/-- It has gone down far enough. -/
lemma DownHole.fill (h : DownHole key heap n z x)
    (hstop : ∀ c, 2 ≤ c → c ≤ n → c / 2 = z → key x ≤ key (heap c)) :
    Ordered key (Function.update heap z x) n := by
  intro i h2 hn
  by_cases hi : i = z
  · rw [hi, Function.update_self, Function.update_of_ne (by omega)]
    exact h.above (hi ▸ h2)
  · rw [Function.update_of_ne hi]
    by_cases hi2 : i / 2 = z
    · rw [hi2, Function.update_self]
      exact hstop i h2 hn hi2
    · rw [Function.update_of_ne hi2]
      exact h.except i h2 hn hi hi2

/-- An element that is put behind a heap may go up. -/
lemma Ordered.upHole (h : Ordered key heap n) (x : α) :
    UpHole key (Function.update heap (n + 1) x) (n + 1) (n + 1) x := by
  refine ⟨fun i h2 hn hne _ => ?_, fun _ c hn hc => by omega, fun c h2 hn hc => by omega⟩
  rw [Function.update_of_ne (by omega), Function.update_of_ne hne]
  exact h i h2 (by omega)

/-- An element that is put in place of the first one may go down. -/
lemma Ordered.downHole (h : Ordered key heap (n + 1)) (x : α) :
    DownHole key (Function.update heap 1 x) n 1 x := by
  refine ⟨fun i h2 hn hne hhalf => ?_, fun h2 => absurd h2 (by decide),
    fun h2 => absurd h2 (by decide)⟩
  rw [Function.update_of_ne hhalf, Function.update_of_ne hne]
  exact h i h2 (by omega)

/-! ## The elements -/

variable {s : Set α}

/-- An element moves into the hole, and leaves one. -/
lemma bijOn_move {y : ℕ} (hz : z ∈ Set.Icc 1 n) (hy : y ∈ Set.Icc 1 n) (hne : z ≠ y)
    (h : Set.BijOn (Function.update heap z x) (Set.Icc 1 n) s) :
    Set.BijOn (Function.update (Function.update heap z (heap y)) y x) (Set.Icc 1 n) s := by
  have hswap : Function.update (Function.update heap z (heap y)) y x =
      Function.update heap z x ∘ Equiv.swap z y := by
    funext i
    rw [Function.comp_apply, Function.update_apply, Function.update_apply]
    by_cases hiy : i = y
    · rw [if_pos hiy, hiy, Equiv.swap_apply_right, Function.update_self]
    · rw [if_neg hiy]
      by_cases hiz : i = z
      · rw [if_pos hiz, hiz, Equiv.swap_apply_left, Function.update_of_ne hne.symm]
      · rw [if_neg hiz, Equiv.swap_apply_of_ne_of_ne hiz hiy, Function.update_of_ne hiz]
  rw [hswap]
  refine h.comp ⟨fun i hi => ?_, (Equiv.swap z y).injective.injOn, fun i hi => ?_⟩
  · rcases eq_or_ne i z with rfl | hiz
    · rwa [Equiv.swap_apply_left]
    · rcases eq_or_ne i y with rfl | hiy
      · rwa [Equiv.swap_apply_right]
      · rwa [Equiv.swap_apply_of_ne_of_ne hiz hiy]
  · refine ⟨Equiv.swap z y i, ?_, Equiv.swap_apply_self z y i⟩
    rcases eq_or_ne i z with rfl | hiz
    · rwa [Equiv.swap_apply_left]
    · rcases eq_or_ne i y with rfl | hiy
      · rwa [Equiv.swap_apply_right]
      · rwa [Equiv.swap_apply_of_ne_of_ne hiz hiy]

/-- The first element goes, and the last one is to take its place. -/
lemma bijOn_removeFirst (h : Set.BijOn heap (Set.Icc 1 (n + 1)) s) :
    Set.BijOn (Function.update heap 1 (heap (n + 1))) (Set.Icc 1 n) (s \ {heap 1}) := by
  have hfirst : 1 ∈ Set.Icc 1 (n + 1) := ⟨le_refl 1, by omega⟩
  have hlast : n + 1 ∈ Set.Icc 1 (n + 1) := ⟨by omega, le_refl _⟩
  have hin : ∀ {i}, i ∈ Set.Icc 1 n → i ∈ Set.Icc 1 (n + 1) :=
    fun hi => ⟨hi.1, hi.2.trans (by omega)⟩
  refine ⟨fun i hi => ?_, fun i hi j hj heq => ?_, fun a ha => ?_⟩
  · by_cases h1 : i = 1
    · rw [h1, Function.update_self]
      refine ⟨h.mapsTo hlast, fun heq => ?_⟩
      have := h.injOn hlast hfirst heq
      have := hi.2
      omega
    · rw [Function.update_of_ne h1]
      exact ⟨h.mapsTo (hin hi), fun heq => h1 (h.injOn (hin hi) hfirst heq)⟩
  · have hi2 := hi.2
    have hj2 := hj.2
    by_cases h1 : i = 1
    · by_cases h2 : j = 1
      · rw [h1, h2]
      · rw [h1, Function.update_self, Function.update_of_ne h2] at heq
        have := h.injOn hlast (hin hj) heq
        omega
    · by_cases h2 : j = 1
      · rw [h2, Function.update_self, Function.update_of_ne h1] at heq
        have := h.injOn (hin hi) hlast heq
        omega
      · rw [Function.update_of_ne h1, Function.update_of_ne h2] at heq
        exact h.injOn (hin hi) (hin hj) heq
  · obtain ⟨i, hi, rfl⟩ := h.surjOn ha.1
    have h1 : i ≠ 1 := fun h1 => ha.2 (congrArg heap h1)
    have hi1 := hi.1
    have hi2 := hi.2
    by_cases hn : i = n + 1
    · refine ⟨1, ⟨le_refl 1, by omega⟩, ?_⟩
      rw [Function.update_self, hn]
    · exact ⟨i, ⟨hi1, by omega⟩, Function.update_of_ne h1 _ _⟩

/-- An element is put behind the others. -/
lemma bijOn_insertLast (h : Set.BijOn heap (Set.Icc 1 n) s) (hx : x ∉ s) :
    Set.BijOn (Function.update heap (n + 1) x) (Set.Icc 1 (n + 1)) (insert x s) := by
  have hIcc : Set.Icc 1 (n + 1) = insert (n + 1) (Set.Icc 1 n) := by
    ext i
    rw [Set.mem_insert_iff, Set.mem_Icc, Set.mem_Icc]
    omega
  have hnot : n + 1 ∉ Set.Icc 1 n := fun hmem => absurd hmem.2 (by omega)
  have hold : Set.BijOn (Function.update heap (n + 1) x) (Set.Icc 1 n) s := by
    refine h.congr fun i hi => ?_
    exact (Function.update_of_ne (by have := hi.2; omega) _ _).symm
  rw [hIcc]
  have hself : Function.update heap (n + 1) x (n + 1) = x := Function.update_self _ _ _
  have hins := Set.BijOn.insert (a := n + 1) hold (by rw [hself]; exact hx)
  rwa [hself] at hins

end BinaryHeap
end ClamavWin32
