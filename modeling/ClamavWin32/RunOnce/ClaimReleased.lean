import ClamavWin32.RunOnce.ExactlyOnce

/-!
# The call that claims an `INIT_ONCE` gives it up

`InitOnceExecuteOnce` hands `*lpContext` to `InitOnceComplete` whatever its callback
returned, and `InitOnceComplete` checks its arguments before it looks at the word. A context
with one of its low bits set, or one that is not `NULL` after a failure, is rejected: the
call returns `FALSE` and the word stays in the state `PROGRESS`, with nobody to take it out
of it.

* `ContextAccepted` is the condition on what a callback leaves, in the terms of those checks;
* under it every step keeps the claim attended (`Attended`) and settles the word when the
  claim ends (`Settles`);
* without it the step that returns from the callback abandons the claim
  (`not_attended_of_rejected`).

Once the word is back to `0` another call may claim it before the first one has walked its
waiters, so what the word holds is stated of the step in which the claim ends.
-/

namespace ClamavWin32
namespace InitOnce

open TransitionSystem

variable {C : Type*} [DecidableEq C]

/-! ## The property -/

/-- The action is part of a call of `InitOnceExecuteOnce`. -/
def MakesExecuteCalls : Action C → Prop
  | .callBegin .. | .callComplete .. => False
  | _ => True

instance : (a : Action C) → Decidable (MakesExecuteCalls a)
  | .callBegin .. | .callComplete .. => instDecidableFalse
  | .callExecute .. | .readPtr _ | .swap _ | .storeNext _ | .callbackReturns .. | .readCell _ =>
    instDecidableTrue

/-- The callback leaves a context whose low bits are clear, or none, and after a failure it
leaves `NULL` or none. -/
def ContextAccepted (s : State C) : Action C → Prop
  | .callbackReturns c result left =>
    (s.setContext c left).contextArg c % 4 = 0 ∧
      (result = true ∨ (s.setContext c left).contextArg c = 0)
  | _ => True

instance (s : State C) : (a : Action C) → Decidable (ContextAccepted s a)
  | .callbackReturns .. => inferInstanceAs (Decidable (_ ∧ _))
  | .callBegin .. | .callComplete .. | .callExecute .. | .readPtr _ | .swap _ | .storeNext _
  | .readCell _ => instDecidableTrue

/-- What the call returns, from the step on that fixes it. -/
def Pc.outcome : Pc → Option Bool
  | .walking f _ => some f.result
  | .returned result _ => some result
  | _ => none

/-- What holds in every state: the claimed word has an initialiser running, and it is
complete once a call has returned `TRUE`. -/
structure Attended (s : State C) : Prop where
  initialiser : runOnceState s.ptr = .progress → ∃ c, Claims (s.pc c)
  complete : ∀ c e, s.pc c = .returned true e → runOnceState s.ptr = .complete

/-- What holds of every step: where a call ends its claim, the word is complete if the call
returns `TRUE` and `0` if it returns `FALSE`; and what it returns does not change any more. -/
structure Settles (s s' : State C) : Prop where
  word : ∀ c, Claims (s.pc c) → ¬ Claims (s'.pc c) →
    (s'.pc c).outcome = some true ∧ runOnceState s'.ptr = .complete ∨
      (s'.pc c).outcome = some false ∧ s'.ptr = 0
  outcome : ∀ c r, (s.pc c).outcome = some r → (s'.pc c).outcome = some r

/-! ## The condition on the callbacks -/

lemma executesOnly_iff (s : State C) (a : Action C) :
    ExecutesOnly s a ↔ MakesExecuteCalls a ∧ ContextAccepted s a := by
  cases a with
  | callbackReturns c result left =>
    cases result
    · simp only [ExecutesOnly, MakesExecuteCalls, ContextAccepted, Bool.false_eq_true, if_false,
        false_or, true_and]
      exact ⟨fun h => ⟨by rw [h], h⟩, fun h => h.2⟩
    · simp [ExecutesOnly, MakesExecuteCalls, ContextAccepted]
  | _ => simp [ExecutesOnly, MakesExecuteCalls, ContextAccepted]

/-- The condition is what `InitOnceComplete` asks of its arguments. -/
lemma contextAccepted_iff (s : State C) (c : C) (result : Bool) (left : Word) :
    ContextAccepted s (.callbackReturns c result left) ↔
      completeArgs (!result) false ((s.setContext c left).contextArg c) ≠ none := by
  unfold ContextAccepted completeArgs
  by_cases halign : (s.setContext c left).contextArg c % 4 = 0
  · cases result <;> simp [halign]
  · simp [halign]

section Step

variable {s s' : State C} {a : Action C} {c : C} {p : Pc}

/-! ## What a step keeps -/

omit [DecidableEq C] in
lemma Attended.init (cells : Addr → Word) : Attended (State.init cells : State C) where
  initialiser h := by cases h
  complete _ _ h := by cases h

/-- A call moves: the claim stays attended if the call keeps the claim that it has. -/
lemma Attended.move (h : Attended s) (hpc : s'.pc = Function.update s.pc c p)
    (hclaims : Claims (s.pc c) → Claims p)
    (hprogress : runOnceState s'.ptr = .progress → runOnceState s.ptr = .progress) :
    runOnceState s'.ptr = .progress → ∃ d, Claims (s'.pc d) := by
  intro hs'
  obtain ⟨d, hd⟩ := h.initialiser (hprogress hs')
  refine ⟨d, ?_⟩
  rw [hpc]
  by_cases hdc : d = c
  · subst hdc
    simpa using hclaims hd
  · simpa [hdc] using hd

/-- A call moves: nothing is to be said of the others. -/
lemma Settles.move (hpc : s'.pc = Function.update s.pc c p)
    (hword : Claims (s.pc c) → ¬ Claims p →
      p.outcome = some true ∧ runOnceState s'.ptr = .complete ∨
        p.outcome = some false ∧ s'.ptr = 0)
    (houtcome : ∀ r, (s.pc c).outcome = some r → p.outcome = some r) : Settles s s' where
  word := by
    rw [hpc]
    refine (Function.forall_update_iff s.pc fun d pc => Claims (s.pc d) → ¬ Claims pc →
      pc.outcome = some true ∧ runOnceState s'.ptr = .complete ∨
        pc.outcome = some false ∧ s'.ptr = 0).mpr ⟨hword, ?_⟩
    intro d _ hd hd'
    exact absurd hd hd'
  outcome := by
    rw [hpc]
    exact (Function.forall_update_iff s.pc fun d pc => ∀ r, (s.pc d).outcome = some r →
      pc.outcome = some r).mpr ⟨houtcome, fun _ _ _ hr => hr⟩

/-- A call that has claimed the word finds it in the state `PROGRESS` in its
`InitOnceComplete`. -/
lemma OnceInv.completeRead_sees (h : OnceInv s) {f : CompleteFrame}
    (hpc : s.pc c = .completeRead f) (hstep : InitOnce.step s (.readPtr c) = some s') :
    s' = s.setPc c (.completeSwap f s.ptr) := by
  have hstate : runOnceState s.ptr = .progress := (h.at_pc hpc).1
  simp only [InitOnce.step, hpc, hstate, Option.some.injEq] at hstep
  exact hstep.symm

omit [DecidableEq C] in
/-- The word that the call stores is what its outcome asks for. -/
lemma Carries.settles {f : CompleteFrame} (h : Carries s c f) :
    f.result = true ∧ runOnceState f.word = .complete ∨ f.result = false ∧ f.word = 0 := by
  obtain ⟨-, ⟨hresult, hword, -⟩ | ⟨hresult, x, hx, hword, -⟩⟩ := h
  · exact Or.inr ⟨hresult, hword⟩
  · exact Or.inl ⟨hresult, by rw [hword]; exact runOnceState_or_complete hx⟩

/-- Where the walk over the waiters begins, the outcome is that of the frame. -/
lemma outcome_walkFrom (f : CompleteFrame) (val : Addr) :
    (if val = 0 then Pc.returned f.result none else .walking f val).outcome =
      some f.result := by
  split_ifs <;> rfl

/-- **Step lemma** for the callbacks that leave an accepted context. -/
lemma OnceInv.settles (h : OnceInv s) (hok : ExecutesOnly s a)
    (hstep : InitOnce.step s a = some s') : Settles s s' := by
  cases effect_of_step hstep with
  | callRejected | callCheckOnly | callBegin | callComplete => exact hok.elim
  | checkFails hpc | checkSucceeds hpc => exact (h.at_pc hpc).elim
  | callExecute hpc | seesInitializing hpc | seesProgress hpc | seesWrongMode hpc
  | claimMisses hpc | enqueues hpc | enqueueMisses hpc | storeNext hpc =>
    exact Settles.move rfl (by simp [hpc, Claims]) (by simp [hpc, Pc.outcome])
  | @seesComplete c f hpc =>
    exact Settles.move (c := c) (by simp [State.beginReturns]; rfl) (by simp [hpc, Claims])
      (by simp [hpc, Pc.outcome])
  | seesAsync _ hstate => exact absurd hstate h.sync
  | completeSees hpc =>
    exact Settles.move rfl (fun _ hnot => absurd trivial hnot) (by simp [hpc, Pc.outcome])
  | @completeFails c f error hpc =>
    rw [h.completeRead_sees hpc hstep]
    exact Settles.move rfl (fun _ hnot => absurd trivial hnot) (by simp [hpc, Pc.outcome])
  | @claims c f hpc =>
    exact Settles.move (c := c) rfl (by simp [hpc, Claims]) (by simp [hpc, Pc.outcome])
  | @publishes c f hpc hstate =>
    -- the claim ends here, with the word that the frame carries
    refine Settles.move (c := c) rfl (fun _ _ => ?_) (by simp [hpc, Pc.outcome])
    rw [outcome_walkFrom]
    have hcarries : Carries s c f := (h.at_pc hpc).2.1
    rcases hcarries.settles with ⟨hresult, hword⟩ | ⟨hresult, hword⟩
    · exact Or.inl ⟨by rw [hresult], hword⟩
    · exact Or.inr ⟨by rw [hresult], hword⟩
  | publishesAsync hpc hstate => exact absurd (h.at_pc hpc).1 hstate
  | publishMisses hpc =>
    exact Settles.move rfl (fun _ hnot => absurd trivial hnot) (by simp [hpc, Pc.outcome])
  | @callbackReturns c result left hpc =>
    have hargs := (contextAccepted_iff s c result left).mp ((executesOnly_iff s _).mp hok).2
    unfold State.enterComplete
    split
    · exact absurd ‹_› hargs
    · exact Settles.move rfl (fun _ hnot => absurd trivial hnot) (by simp [hpc, Pc.outcome])
  | @readCell c f val hpc =>
    refine Settles.move rfl (by simp [hpc, Claims]) fun r hr => ?_
    rw [outcome_walkFrom]
    rw [hpc] at hr
    exact hr

/-- **Step lemma** for the callbacks that leave an accepted context. -/
lemma Attended.step (hatt : Attended s) (h : OnceInv s) (hok : ExecutesOnly s a)
    (hstep : InitOnce.step s a = some s') : Attended s' := by
  have hcomplete : ∀ c e, s'.pc c = .returned true e → runOnceState s'.ptr = .complete :=
    fun c e hpc => ((h.step hok hstep).at_pc hpc rfl).state_eq
  refine ⟨?_, hcomplete⟩
  cases effect_of_step hstep with
  | callRejected | callCheckOnly | callBegin | callComplete => exact hok.elim
  | checkFails hpc | checkSucceeds hpc => exact (h.at_pc hpc).elim
  | callExecute hpc | seesInitializing hpc | seesProgress hpc | seesWrongMode hpc
  | claimMisses hpc | enqueueMisses hpc | storeNext hpc =>
    exact hatt.move rfl (by simp [hpc, Claims]) id
  | @enqueues c f hpc =>
    exact hatt.move rfl (by simp [hpc, Claims]) fun _ => (h.at_pc hpc).2
  | @seesComplete c f hpc =>
    exact hatt.move (c := c) rfl (by simp [hpc, Claims]) id
  | seesAsync _ hstate => exact absurd hstate h.sync
  | completeSees hpc => exact hatt.move rfl (fun _ => trivial) id
  | @completeFails c f error hpc =>
    rw [h.completeRead_sees hpc hstep]
    exact hatt.move rfl (fun _ => trivial) id
  | @claims c f hpc =>
    obtain ⟨hexec, -, -⟩ : ExecuteFrame f := h.at_pc hpc
    exact fun _ => ⟨c, by simp [State.beginReturns, hexec, Claims]⟩
  | @publishes c f hpc hstate =>
    -- a word that is published is no longer one in progress
    intro hprogress
    have hcarries : Carries s c f := (h.at_pc hpc).2.1
    have hword : runOnceState f.word = .progress := hprogress
    rcases hcarries.settles with ⟨-, hdone⟩ | ⟨-, hzero⟩
    · rw [hdone] at hword
      cases hword
    · rw [hzero] at hword
      cases hword
  | publishesAsync hpc hstate => exact absurd (h.at_pc hpc).1 hstate
  | publishMisses hpc => exact hatt.move rfl (fun _ => trivial) id
  | @callbackReturns c result left hpc =>
    have hargs := (contextAccepted_iff s c result left).mp ((executesOnly_iff s _).mp hok).2
    unfold State.enterComplete
    split
    · exact absurd ‹_› hargs
    · exact hatt.move rfl (fun _ => trivial) id
  | @readCell c f val hpc =>
    exact hatt.move rfl (by simp [hpc, Claims]) id

/-! ## A rejected context -/

/-- The callback leaves a context that `InitOnceComplete` rejects: the claim ends, and the
word keeps the state `PROGRESS` that it had. -/
lemma not_attended_of_rejected (h : OnceInv s) (hexec : MakesExecuteCalls a)
    (hrejected : ¬ ContextAccepted s a) (hstep : InitOnce.step s a = some s') :
    ¬ Attended s' := by
  cases effect_of_step hstep with
  | @callbackReturns c result left hpc =>
    have hargs : completeArgs (!result) false ((s.setContext c left).contextArg c) = none :=
      not_not.mp (mt (contextAccepted_iff s c result left).mpr hrejected)
    simp only [State.enterComplete, hargs]
    intro hatt
    obtain ⟨hstate, -⟩ : CallOk s c .callback := h.at_pc hpc
    obtain ⟨d, hd⟩ := hatt.initialiser hstate
    -- the one call that could claim the word has just returned
    by_cases hdc : d = c
    · subst hdc
      exact (by simpa using hd : Claims (.returned false _))
    · have hclaims : Claims (s.pc d) := by simpa [hdc] using hd
      exact hdc (h.unique d c hclaims (by rw [hpc]; trivial))
  | _ => exact absurd trivial hrejected

end Step

/-! ## The claim is given up -/

/-- In a run of `InitOnceExecuteOnce` that keeps the claim attended, every callback leaves an
accepted context. -/
lemma everyStep_contextAccepted {s : State C} {as : List (Action C)} (h : OnceInv s)
    (hexec : ∀ a ∈ as, MakesExecuteCalls a) (hatt : EveryState step Attended s as) :
    EveryStep step (fun s a _ => ContextAccepted s a) s as := by
  induction as generalizing s with
  | nil => trivial
  | cons a as ih =>
    intro s' hs'
    have ha : MakesExecuteCalls a := hexec a List.mem_cons_self
    have haccepted : ContextAccepted s a := by
      by_contra hrejected
      exact not_attended_of_rejected h ha hrejected hs' (hatt.2 s' hs').head
    have hok : ExecutesOnly s a := (executesOnly_iff s a).mpr ⟨ha, haccepted⟩
    exact ⟨haccepted, ih (h.step hok hs') (fun b hb => hexec b (List.mem_cons_of_mem a hb))
      (hatt.2 s' hs')⟩

/-- **The claim is given up.** A run of any calls of `InitOnceExecuteOnce` on one zeroed
`INIT_ONCE` always has an initialiser running while the word is in the state `PROGRESS`, and
every call that claimed the word leaves it complete with `TRUE` and `0` with `FALSE`, if and
only if every callback leaves a context with its low bits clear, and `NULL` after a failure,
or has no context to leave. -/
theorem claim_released_iff (cells : Addr → Word) (as : List (Action C))
    (hexec : ∀ a ∈ as, MakesExecuteCalls a) :
    (EveryState step Attended (State.init cells) as ∧
        EveryStep step (fun s _ s' => Settles s s') (State.init cells) as) ↔
      EveryStep step (fun s a _ => ContextAccepted s a) (State.init cells) as := by
  constructor
  · rintro ⟨hatt, -⟩
    exact everyStep_contextAccepted (.init cells) hexec hatt
  · intro haccepted
    have hok : EveryStep step (fun s a _ => ExecutesOnly s a) (State.init cells) as := by
      refine (haccepted.and (everyStep_of_forall_mem hexec)).mono fun s a _ h => ?_
      exact (executesOnly_iff s a).mpr ⟨h.2, h.1⟩
    have hinv : EveryState step OnceInv (State.init cells) as :=
      hok.everyState (fun s a s' h hok hstep => h.step hok hstep) (.init cells)
    have hboth : EveryState step (fun s => OnceInv s ∧ Attended s) (State.init cells) as :=
      hok.everyState
        (fun s a s' h hok hstep => ⟨h.1.step hok hstep, h.2.step h.1 hok hstep⟩)
        ⟨.init cells, .init cells⟩
    exact ⟨hboth.mono fun s h => h.2,
      hok.imp (fun s a s' h hok hstep => h.settles hok hstep) hinv⟩

/-- Call 0 runs its callback, which fails with `NULL` while call 1 waits; call 1 runs its
own, which succeeds with the context `64`. -/
def retriedRun : List (Action (Fin 3)) :=
  [.callExecute 0 16 (some 0), .readPtr 0, .swap 0,
   .callExecute 1 32 (some 0), .readPtr 1, .storeNext 1, .swap 1,
   .callbackReturns 0 false 0, .readPtr 0, .swap 0, .readCell 0,
   .readPtr 1, .swap 1, .callbackReturns 1 true 64, .readPtr 1, .swap 1]

theorem claim_released_iff_retriedRun :
    EveryState step Attended (State.init fun _ => 0) retriedRun ∧
      EveryStep step (fun s _ s' => Settles s s') (State.init fun _ => 0) retriedRun :=
  (claim_released_iff (fun _ => 0) retriedRun (by decide)).mpr (by decide)

/-- The callback fails and leaves `*lpContext` at the `8` that it found there. -/
def staleContextRun : List (Action (Fin 3)) :=
  [.callExecute 0 16 (some 8), .readPtr 0, .swap 0, .callbackReturns 0 false 8]

/-- After it the call has returned `FALSE` with `ERROR_INVALID_PARAMETER`, and the word is in
the state `PROGRESS` with no call left that could take it out of it. -/
theorem not_attended_staleContextRun :
    ∃ s, run step (State.init fun _ => 0) staleContextRun = some s ∧
      (∀ a ∈ staleContextRun, MakesExecuteCalls a) ∧ runOnceState s.ptr = .progress ∧
      s.pc 0 = .returned false (some ERROR_INVALID_PARAMETER) ∧ ¬ Attended s := by
  have hprogress : runOnceState RTLP_RUN_ONCE_PROGRESS = .progress := rfl
  refine ⟨_, rfl, by decide, hprogress, rfl, fun hatt => ?_⟩
  obtain ⟨c, hc⟩ := hatt.initialiser hprogress
  match c with
  | 0 | 1 | 2 => exact hc

end InitOnce
end ClamavWin32
