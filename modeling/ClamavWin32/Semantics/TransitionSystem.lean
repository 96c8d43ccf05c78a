import Mathlib.Logic.Function.Basic
import Mathlib.Tactic.Common

/-!
# Runs of a labelled transition system

A system is a partial step function `step : σ → α → Option σ`. A label carries every
choice the environment makes (who moves, which value an outside call returns), so one
step is a function of the state and the label and a run is a list of labels. The labels
are taken in order and the run ends at the first one that is not enabled.

* `run` is the state a list of labels leads to;
* `EveryState` and `EveryStep` say that a predicate holds of every state a run visits,
  and of every step it takes, `EveryLabel` that one holds where a label is to be taken;
* the rules below derive them from what one step preserves, with the steps of the run
  restricted by a condition on each of them where one is needed.
-/

namespace ClamavWin32
namespace TransitionSystem

variable {σ α : Type*} {step : σ → α → Option σ}

/-- The state the labels lead to, if each of them is enabled when it is taken. -/
def run (step : σ → α → Option σ) (s : σ) : List α → Option σ
  | [] => some s
  | a :: as => (step s a).bind fun s' => run step s' as

/-- `Good` holds in every state visited, the first one included. -/
def EveryState (step : σ → α → Option σ) (Good : σ → Prop) (s : σ) : List α → Prop
  | [] => Good s
  | a :: as => Good s ∧ ∀ s' ∈ step s a, EveryState step Good s' as

/-- `Ok` holds of every step taken: of the state before it, its label and the state
after it. -/
def EveryStep (step : σ → α → Option σ) (Ok : σ → α → σ → Prop) (s : σ) : List α → Prop
  | [] => True
  | a :: as => ∀ s' ∈ step s a, Ok s a s' ∧ EveryStep step Ok s' as

/-- Every label meets a condition on the state in which it is taken. -/
def EveryLabel (step : σ → α → Option σ) (Ok : σ → α → Prop) (s : σ) : List α → Prop
  | [] => True
  | a :: as => Ok s a ∧ ∀ s' ∈ step s a, EveryLabel step Ok s' as

/-- A condition on steps that can be decided can be decided of a run. -/
instance decidableEveryStep {Ok : σ → α → σ → Prop} [∀ s a s', Decidable (Ok s a s')] :
    ∀ (s : σ) (as : List α), Decidable (EveryStep step Ok s as)
  | _, [] => .isTrue trivial
  | s, a :: as =>
    let dec : ∀ s', Decidable (Ok s a s' ∧ EveryStep step Ok s' as) := fun s' =>
      let _ : Decidable (EveryStep step Ok s' as) := decidableEveryStep s' as
      inferInstance
    match h : step s a with
    | none => .isTrue fun s' hs' => by rw [h] at hs'; cases hs'
    | some t =>
      match dec t with
      | .isTrue ht => .isTrue fun s' hs' => by
          rw [h, Option.mem_some_iff] at hs'
          exact hs' ▸ ht
      | .isFalse ht => .isFalse fun hall => ht (hall t (by rw [h]; rfl))

/-! ## Runs -/

@[simp] lemma run_nil (s : σ) : run step s [] = some s := rfl

@[simp] lemma run_cons (s : σ) (a : α) (as : List α) :
    run step s (a :: as) = (step s a).bind fun s' => run step s' as := rfl

lemma EveryState.mono {Good Good' : σ → Prop} (himp : ∀ s, Good s → Good' s) {s : σ}
    {as : List α} (h : EveryState step Good s as) : EveryState step Good' s as := by
  induction as generalizing s with
  | nil => exact himp s h
  | cons a as ih => exact ⟨himp s h.1, fun s' hs' => ih (h.2 s' hs')⟩

lemma EveryState.and {Good Good' : σ → Prop} {s : σ} {as : List α}
    (h : EveryState step Good s as) (h' : EveryState step Good' s as) :
    EveryState step (fun s => Good s ∧ Good' s) s as := by
  induction as generalizing s with
  | nil => exact ⟨h, h'⟩
  | cons a as ih => exact ⟨⟨h.1, h'.1⟩, fun s' hs' => ih (h.2 s' hs') (h'.2 s' hs')⟩

/-- What every state of a run satisfies, every state from one of them on satisfies. -/
lemma EveryState.of_append {Good : σ → Prop} {s t : σ} {as bs : List α}
    (h : EveryState step Good s (as ++ bs)) (hrun : run step s as = some t) :
    EveryState step Good t bs := by
  induction as generalizing s with
  | nil =>
    rw [run_nil, Option.some.injEq] at hrun
    exact hrun ▸ h
  | cons a as ih =>
    rw [run_cons, Option.bind_eq_some_iff] at hrun
    obtain ⟨s', hs', hrun⟩ := hrun
    exact ih (h.2 s' hs') hrun

lemma EveryStep.of_append {Ok : σ → α → σ → Prop} {s t : σ} {as bs : List α}
    (h : EveryStep step Ok s (as ++ bs)) (hrun : run step s as = some t) :
    EveryStep step Ok t bs := by
  induction as generalizing s with
  | nil =>
    rw [run_nil, Option.some.injEq] at hrun
    exact hrun ▸ h
  | cons a as ih =>
    rw [run_cons, Option.bind_eq_some_iff] at hrun
    obtain ⟨s', hs', hrun⟩ := hrun
    exact ih (h s' hs').2 hrun

lemma EveryState.head {Good : σ → Prop} {s : σ} {as : List α}
    (h : EveryState step Good s as) : Good s := by
  cases as with
  | nil => exact h
  | cons a as => exact h.1

/-- What every state of a run satisfies, the state it leads to satisfies. -/
lemma EveryState.last {Good : σ → Prop} {s t : σ} {as : List α}
    (h : EveryState step Good s as) (hrun : run step s as = some t) : Good t := by
  have happend : EveryState step Good s (as ++ []) := by rwa [List.append_nil]
  exact (happend.of_append hrun).head

lemma EveryStep.mono {Ok Ok' : σ → α → σ → Prop} (himp : ∀ s a s', Ok s a s' → Ok' s a s')
    {s : σ} {as : List α} (h : EveryStep step Ok s as) : EveryStep step Ok' s as := by
  induction as generalizing s with
  | nil => trivial
  | cons a as ih => exact fun s' hs' => ⟨himp s a s' (h s' hs').1, ih (h s' hs').2⟩

lemma EveryStep.and {Ok Ok' : σ → α → σ → Prop} {s : σ} {as : List α}
    (h : EveryStep step Ok s as) (h' : EveryStep step Ok' s as) :
    EveryStep step (fun s a s' => Ok s a s' ∧ Ok' s a s') s as := by
  induction as generalizing s with
  | nil => trivial
  | cons a as ih =>
    intro s' hs'
    exact ⟨⟨(h s' hs').1, (h' s' hs').1⟩, ih (h s' hs').2 (h' s' hs').2⟩

/-- A condition on the labels alone holds of every step if it holds of every label. -/
lemma everyStep_of_forall_mem {P : α → Prop} {s : σ} {as : List α} (h : ∀ a ∈ as, P a) :
    EveryStep step (fun _ a _ => P a) s as := by
  induction as generalizing s with
  | nil => trivial
  | cons a as ih =>
    exact fun s' _ => ⟨h a List.mem_cons_self, ih fun b hb => h b (List.mem_cons_of_mem a hb)⟩

/-- What holds of every step whatever the state holds of every step of a run. -/
lemma everyStep_of_forall {Ok : σ → α → σ → Prop}
    (hok : ∀ s a s', step s a = some s' → Ok s a s') (s : σ) (as : List α) :
    EveryStep step Ok s as := by
  induction as generalizing s with
  | nil => trivial
  | cons a as ih => exact fun s' hs' => ⟨hok s a s' hs', ih s'⟩

/-- Two conditions that agree on every step hold of the same runs. -/
lemma everyStep_congr {Ok Ok' : σ → α → σ → Prop}
    (hiff : ∀ s a s', step s a = some s' → (Ok s a s' ↔ Ok' s a s')) (s : σ) (as : List α) :
    EveryStep step Ok s as ↔ EveryStep step Ok' s as := by
  induction as generalizing s with
  | nil => exact Iff.rfl
  | cons a as ih =>
    exact forall_congr' fun s' => forall_congr' fun hs' => and_congr (hiff s a s' hs') (ih s')

lemma run_append (s : σ) (as bs : List α) :
    run step s (as ++ bs) = (run step s as).bind fun t => run step t bs := by
  induction as generalizing s with
  | nil => rfl
  | cons a as ih =>
    rw [List.cons_append, run_cons, run_cons, Option.bind_assoc]
    exact Option.bind_congr fun t _ => ih t

/-! ## Invariants -/

/-- **Guarded invariant.** What the first state satisfies, and every step that meets the
condition `Ok` preserves, holds in every state of a run whose steps all meet `Ok`. -/
theorem EveryStep.everyState {Inv : σ → Prop} {Ok : σ → α → σ → Prop}
    (hstep : ∀ s a s', Inv s → Ok s a s' → step s a = some s' → Inv s') {s : σ}
    {as : List α} (h : EveryStep step Ok s as) (h0 : Inv s) : EveryState step Inv s as := by
  induction as generalizing s with
  | nil => exact h0
  | cons a as ih =>
    refine ⟨h0, fun s' hs' => ?_⟩
    obtain ⟨hok, hrest⟩ := h s' hs'
    exact ih hrest (hstep s a s' h0 hok hs')

/-- **Invariant.** What the first state satisfies and every step preserves holds in every
state of a run. -/
theorem everyState_of_invariant {Inv : σ → Prop}
    (hstep : ∀ s a s', Inv s → step s a = some s' → Inv s') {s : σ} (h0 : Inv s)
    (as : List α) : EveryState step Inv s as := by
  induction as generalizing s with
  | nil => exact h0
  | cons a as ih => exact ⟨h0, fun s' hs' => ih (hstep s a s' h0 hs')⟩

/-- A condition on the labels is one on the steps. -/
lemma EveryLabel.everyStep {Ok : σ → α → Prop} {s : σ} {as : List α}
    (h : EveryLabel step Ok s as) : EveryStep step (fun s a _ => Ok s a) s as := by
  induction as generalizing s with
  | nil => trivial
  | cons a as ih =>
    intro s' hs'
    exact ⟨h.1, ih (h.2 s' hs')⟩

/-- A property of steps that holds wherever an invariant does holds of every step. -/
theorem EveryState.everyStep {Inv : σ → Prop} {Ok : σ → α → σ → Prop}
    (hok : ∀ s a s', Inv s → step s a = some s' → Inv s' → Ok s a s') {s : σ} {as : List α}
    (h : EveryState step Inv s as) : EveryStep step Ok s as := by
  induction as generalizing s with
  | nil => trivial
  | cons a as ih =>
    intro s' hs'
    have hrest := h.2 s' hs'
    exact ⟨hok s a s' h.1 hs' hrest.head, ih hrest⟩

/-- A property of steps that follows from a condition on them where an invariant holds. -/
theorem EveryStep.imp {Inv : σ → Prop} {Ok Ok' : σ → α → σ → Prop}
    (himp : ∀ s a s', Inv s → Ok s a s' → step s a = some s' → Ok' s a s') {s : σ}
    {as : List α} (hok : EveryStep step Ok s as) (h : EveryState step Inv s as) :
    EveryStep step Ok' s as := by
  induction as generalizing s with
  | nil => trivial
  | cons a as ih =>
    intro s' hs'
    obtain ⟨hok', hrest⟩ := hok s' hs'
    exact ⟨himp s a s' h.1 hok' hs', ih hrest (h.2 s' hs')⟩

/-- Two conditions that agree on every step from where an invariant holds. -/
lemma EveryState.everyStep_congr {Inv : σ → Prop} {Ok Ok' : σ → α → σ → Prop}
    (hiff : ∀ s a s', Inv s → step s a = some s' → (Ok s a s' ↔ Ok' s a s')) {s : σ}
    {as : List α} (h : EveryState step Inv s as) :
    EveryStep step Ok s as ↔ EveryStep step Ok' s as :=
  ⟨fun hok => hok.imp (fun s a s' hs hok hs' => (hiff s a s' hs hs').mp hok) h,
    fun hok => hok.imp (fun s a s' hs hok hs' => (hiff s a s' hs hs').mpr hok) h⟩

end TransitionSystem
end ClamavWin32
