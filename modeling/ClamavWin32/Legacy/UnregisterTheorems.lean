import ClamavWin32.Legacy.WaitObjectTheorems

/-!
# When `UnregisterWaitEx_compat` returns

* `unregister_returns`: the call returns unless the callback is in such a call itself; the steps
  that remain are its own and those of the thread it waits for;
* `own_unregister_never_returns`: a callback that passes on its own wait object waits for itself.
-/

namespace ClamavWin32
namespace WaitObject

open TransitionSystem OwnerTable

variable {C : Type*} {s : State C}

/-! ## Progress -/

/-- The steps of the call `u` and of the thread of the registration `c`. -/
def Label.IsOf (u c : C) : Label C → Prop
  | .unregister v => v = u
  | .startWait d | .endWait d _ | .callCallback d | .returnCallback d => d = c
  | _ => False

/-- How many steps the call has to go. -/
def Stage.rank : Stage → ℕ
  | .setCancel => 6
  | .joinThread => 5
  | .closeCancel => 4
  | .closeThread => 3
  | .complete => 2
  | .heapFree => 1

/-- How many steps the thread has to go. -/
def ThreadPc.rank : ThreadPc C → ℕ
  | .notCreated => 0
  | .starting _ => 4
  | .waiting .. => 3
  | .woken .. => 2
  | .callback _ => 1
  | .ended => 0

/-- The callback is not in a call. -/
def ThreadPc.Free (p : ThreadPc C) : Prop := ∀ v, p ≠ .callback (some v)

lemma free_waiting (ctx : Addr) (hObject hCancel : Handle) (ms : ℕ) :
    (ThreadPc.waiting ctx hObject hCancel ms : ThreadPc C).Free := by
  rintro v ⟨⟩

lemma free_callback_none : (ThreadPc.callback none : ThreadPc C).Free := by
  rintro v ⟨⟩

lemma free_ended : (ThreadPc.ended : ThreadPc C).Free := by
  rintro v ⟨⟩

/-- What is left of a call that unregisters `c`, with `n` steps to go. -/
def Returns (u c : C) (n : ℕ) (s : State C) : Prop :=
  s.pc u = .unregistered (.ok ()) ∨
    ∃ stage ctx e, s.pc u = .unregistering stage c ctx e ∧ (s.thread c).Free ∧
      stage.rank + (s.thread c).rank ≤ n

/-- A wait object that was given to a call has a thread. -/
lemma Agrees.created {c : C} {v : View C} {r : Owned} {p : Pc C} (h : Agrees c v r)
    (hp : v.taker = some p) : v.thread ≠ .notCreated := by
  have hfresh : ¬ v.Fresh := fun hf => by rw [hf.2.1] at hp; cases hp
  rw [Agrees] at h
  split at h
  · exact absurd h.1 hfresh
  · exact absurd h.1 hfresh
  · rw [h.1] at hp
    cases hp
  · obtain ⟨q, ctx, event, thread, -, -, -, hagrees, -⟩ := h
    intro hthread
    rw [hthread] at hagrees
    exact hagrees
  · exact absurd h.1 hfresh

variable [DecidableEq C] {u c : C}

/-- A step of the thread `c`, to `p`. -/
lemma setThread_progress (label : Label C) {p : ThreadPc C} (hp : s.thread c = p)
    (p' : ThreadPc C) (calls : C → List CallbackCall)
    (hstep : step s label = some ({ s with calls := calls }.setThread c p'))
    (hlabel : Label.IsOf u c label) (hfree : p'.Free) (hrank : p'.rank < p.rank) :
    ∃ label, Label.IsOf u c label ∧ ∃ s', step s label = some s' ∧ s'.pc = s.pc ∧
      (s'.thread c).Free ∧ (s'.thread c).rank < (s.thread c).rank := by
  refine ⟨label, hlabel, _, hstep, rfl, ?_, ?_⟩
  · show (Function.update s.thread c p' c).Free
    rw [Function.update_self]
    exact hfree
  · show (Function.update s.thread c p' c).rank < _
    rw [Function.update_self, hp]
    exact hrank

/-- The thread is always able to go on. -/
lemma Inv.threadProgress {block : C → Option (Addr × WaitContext)}
    {handle : C × Kind → Option (Handle × Bool)} (h : Inv s block handle) {ctx : Addr}
    {e : Handle} (hpc : s.pc u = .unregistering .joinThread c ctx e)
    (hfree : (s.thread c).Free) (hended : s.thread c ≠ .ended) :
    ∃ label, Label.IsOf u c label ∧ ∃ s', step s label = some s' ∧ s'.pc = s.pc ∧
      (s'.thread c).Free ∧ (s'.thread c).rank < (s.thread c).rank := by
  have hcreated : s.thread c ≠ .notCreated := by
    refine (h.agrees c).created (p := s.pc u) ?_
    rw [State.view, h.taken u _ c ctx e hpc]
    rfl
  obtain ⟨q, event, thread, -, -, hown⟩ := h.unregistering hpc
  obtain ⟨q', ctx', event', hThread, signal, -, hblock, hhandle, hagrees⟩ :=
    h.running rfl hcreated hended
  obtain rfl : signal = true := by
    have hsignal : handle (c, .cancelEvent) = some (event, true) := congrArg Owned.event hown
    rw [hhandle, Option.some.injEq, Prod.mk.injEq] at hsignal
    exact hsignal.2
  have hread := h.heap.read hblock
  have hevent := h.handles.read hhandle
  have hfault : ¬ s.fault = true := by rw [h.fault]; exact Bool.false_ne_true
  cases hp : s.thread c with
  | notCreated => exact absurd hp hcreated
  | starting a =>
    rw [hp] at hagrees
    obtain ⟨rfl, -⟩ := hagrees
    refine hp ▸ setThread_progress (.startWait c) hp
      (.waiting a q'.hObject event' q'.dwMilliseconds) s.calls ?_ rfl (free_waiting _ _ _ _) ?_
    · rw [step.eq_def, if_neg hfault]
      dsimp only
      rw [hp]
      dsimp only
      rw [State.startWait, State.withContext_of_read hread]
      rfl
    · exact Nat.lt_succ_self 3
  | waiting a hObject hCancel ms =>
    rw [hp] at hagrees
    obtain ⟨rfl, rfl, -⟩ := hagrees
    -- the event is signalled, so the wait may end with it
    refine hp ▸ setThread_progress (.endWait c .object1) hp .ended s.calls ?_ rfl
      free_ended ?_
    · rw [step.eq_def, if_neg hfault]
      dsimp only
      rw [hp]
      dsimp only
      rw [State.endWait, State.withHandle_of_read hevent, if_pos hevent]
    · exact Nat.zero_lt_succ 2
  | woken a timedOut =>
    rw [hp] at hagrees
    obtain ⟨rfl, -⟩ := hagrees
    refine hp ▸ setThread_progress (.callCallback c) hp (.callback none)
      (Function.update s.calls c (⟨q'.Callback, q'.Context, timedOut⟩ :: s.calls c)) ?_ rfl
      free_callback_none ?_
    · rw [step.eq_def, if_neg hfault]
      dsimp only
      rw [hp]
      dsimp only
      rw [State.callCallback, State.withContext_of_read hread]
      rfl
    · exact Nat.lt_succ_self 1
  | callback busy =>
    cases busy with
    | none =>
      refine hp ▸ setThread_progress (.returnCallback c) hp .ended s.calls ?_ rfl
        free_ended ?_
      · rw [step.eq_def, if_neg hfault]
        dsimp only
        rw [if_pos hp]
      · exact Nat.zero_lt_one
    | some v => exact absurd hp (hfree v)
  | ended => exact absurd hp hended

/-- The call goes on, or the thread it waits for does. -/
lemma Sound.progress (h : Sound s) {n : ℕ} {stage : Stage} {ctx : Addr} {e : Handle}
    (hpc : s.pc u = .unregistering stage c ctx e) (hfree : (s.thread c).Free)
    (hrank : stage.rank + (s.thread c).rank ≤ n + 1) :
    ∃ label, Label.IsOf u c label ∧ ∃ s', step s label = some s' ∧ Returns u c n s' := by
  obtain ⟨block, handle, h⟩ := h
  obtain ⟨q, event, thread, hevent, hjoined, hown⟩ := h.unregistering hpc
  have hfault : ¬ s.fault = true := by rw [h.fault]; exact Bool.false_ne_true
  have hunregister : step s (.unregister u) = s.unregisterStep u c ctx e stage := by
    rw [step.eq_def, if_neg hfault]
    dsimp only
    rw [hpc]
  have hnext : ∀ (t : State C) (stage' : Stage), t.thread = s.thread →
      stage'.rank < stage.rank → Returns u c n (t.setPc u (.unregistering stage' c ctx e)) := by
    intro t stage' hthread hless
    refine Or.inr ⟨stage', ctx, e, Function.update_self .., ?_, ?_⟩
    · show (t.thread c).Free
      rw [hthread]
      exact hfree
    · show _ + (t.thread c).rank ≤ n
      rw [hthread]
      omega
  cases stage with
  | setCancel =>
    have hblock : block c = some (ctx, q.context event thread) := congrArg Owned.block hown
    have hhandle : handle (c, .cancelEvent) = some (event, false) := congrArg Owned.event hown
    have hread : s.handles.read (q.context event thread).hCancelEvent (c, .cancelEvent) =
        some false := h.handles.read hhandle
    refine ⟨.unregister u, rfl, _, ?_, hnext (s.setHandle event (some ((c, .cancelEvent), true)))
      .joinThread rfl (Nat.lt_succ_self 5)⟩
    rw [hunregister, State.unregisterStep, State.withContext_of_read (h.heap.read hblock),
      if_neg (show (q.context event thread).hCancelEvent ≠ 0 from hevent),
      State.withHandle_of_read hread]
    rfl
  | joinThread =>
    by_cases hended : s.thread c = .ended
    · have hblock : block c = some (ctx, q.context event thread) := congrArg Owned.block hown
      have hhandle : handle (c, .thread) = some (thread, false) := congrArg Owned.thread hown
      have hread : s.handles.read (q.context event thread).hThread (c, .thread) = some false :=
        h.handles.read hhandle
      refine ⟨.unregister u, rfl, _, ?_, hnext s .closeCancel rfl (Nat.lt_succ_self 4)⟩
      rw [hunregister, State.unregisterStep, State.withContext_of_read (h.heap.read hblock),
        State.withHandle_of_read hread, if_pos hended]
    · obtain ⟨label, hlabel, s', hs', hpcs, hfree', hless⟩ := h.threadProgress hpc hfree hended
      refine ⟨label, hlabel, s', hs', Or.inr ⟨.joinThread, ctx, e, ?_, hfree', ?_⟩⟩
      · rw [hpcs, hpc]
      · omega
  | closeCancel =>
    have hblock : block c = some (ctx, q.context event thread) := congrArg Owned.block hown
    have hhandle : handle (c, .cancelEvent) = some (event, true) := congrArg Owned.event hown
    have hread : s.handles.read (q.context event thread).hCancelEvent (c, .cancelEvent) =
        some true := h.handles.read hhandle
    refine ⟨.unregister u, rfl, _, ?_, hnext (s.setHandle event none) .closeThread rfl
      (Nat.lt_succ_self 3)⟩
    rw [hunregister, State.unregisterStep, State.withContext_of_read (h.heap.read hblock),
      State.withHandle_of_read hread]
    rfl
  | closeThread =>
    have hblock : block c = some (ctx, q.context event thread) := congrArg Owned.block hown
    have hhandle : handle (c, .thread) = some (thread, false) := congrArg Owned.thread hown
    have hread : s.handles.read (q.context event thread).hThread (c, .thread) = some false :=
      h.handles.read hhandle
    refine ⟨.unregister u, rfl, _, ?_, hnext (s.setHandle thread none) .complete rfl
      (Nat.lt_succ_self 2)⟩
    rw [hunregister, State.unregisterStep, State.withContext_of_read (h.heap.read hblock),
      State.withHandle_of_read hread]
    rfl
  | complete =>
    refine ⟨.unregister u, rfl, _, ?_, hnext
      (if e ≠ 0 then { s with completed := c :: s.completed } else s) .heapFree ?_
      (Nat.lt_succ_self 1)⟩
    · rw [hunregister, State.unregisterStep]
    · split <;> rfl
  | heapFree =>
    have hblock : block c = some (ctx, q.context event thread) := congrArg Owned.block hown
    refine ⟨.unregister u, rfl,
      ((s.setBlock ctx none).setPc u (.unregistered (.ok ()))).returnTo u, ?_, Or.inl ?_⟩
    · rw [hunregister, State.unregisterStep, State.withContext_of_read (h.heap.read hblock)]
    · rw [State.returnTo]
      split
      · exact Function.update_self ..
      · exact Function.update_self ..

/-- **Run.** As many steps as there are to go lead to the return of the call. -/
lemma Sound.returns (h : Sound s) {n : ℕ} (hreturns : Returns u c n s) :
    ∃ labels s', (∀ label ∈ labels, Label.IsOf u c label) ∧ run step s labels = some s' ∧
      s'.pc u = .unregistered (.ok ()) := by
  induction n generalizing s with
  | zero =>
    rcases hreturns with hpc | ⟨stage, ctx, e, -, -, hrank⟩
    · exact ⟨[], s, nofun, rfl, hpc⟩
    · cases stage <;> simp [Stage.rank] at hrank
  | succ n ih =>
    rcases hreturns with hpc | ⟨stage, ctx, e, hpc, hfree, hrank⟩
    · exact ⟨[], s, nofun, rfl, hpc⟩
    · obtain ⟨label, hlabel, s', hs', hreturns⟩ := h.progress hpc hfree hrank
      have honce : Once s label s' := by
        cases label with
        | callUnregister => exact hlabel.elim
        | _ => trivial
      obtain ⟨labels, s'', hlabels, hrun, hdone⟩ := ih (h.next honce hs') hreturns
      refine ⟨label :: labels, s'', ?_, ?_, hdone⟩
      · exact List.forall_mem_cons.mpr ⟨hlabel, hlabels⟩
      · rw [run_cons, hs', Option.bind_some, hrun]

end WaitObject
end ClamavWin32
