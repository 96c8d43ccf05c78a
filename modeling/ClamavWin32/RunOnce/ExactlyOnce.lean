import ClamavWin32.RunOnce.InitOnceTheorems

/-!
# One-time initialisation happens exactly once

In the runs of `InitOnceExecuteOnce` whose callbacks leave an aligned context after a
success and `NULL` after a failure, at most one callback runs at a time, none starts after
one has succeeded, and every call that returns `TRUE` finds the context of that callback
published (`executes_exactly_once`).

The word in the state `PROGRESS` belongs to one call: the one that claimed it and has not
stored its word yet (`Claims`). The others change the address bits at most, and in the
state `COMPLETE` nobody changes the word.
-/

namespace ClamavWin32
namespace InitOnce

open TransitionSystem

variable {C : Type*} [DecidableEq C]

/-! ## The property -/

/-- The only calls made are of `InitOnceExecuteOnce`, and a callback leaves an aligned
context after a success and `NULL` after a failure. -/
def ExecutesOnly (s : State C) : Action C → Prop
  | .callBegin .. | .callComplete .. => False
  | .callbackReturns c result left =>
    if result then (s.setContext c left).contextArg c % 4 = 0
    else (s.setContext c left).contextArg c = 0
  | _ => True

instance (s : State C) (a : Action C) : Decidable (ExecutesOnly s a) := by
  unfold ExecutesOnly
  split <;> infer_instance

/-- A callback has succeeded with the context `x`, the word publishes it, and the call
reports it. -/
def Published (s : State C) (c : C) : Prop :=
  ∃ x, x % 4 = 0 ∧ s.ptr = x ||| RTLP_RUN_ONCE_COMPLETE ∧ s.succeeded = [x] ∧
    ∀ v ∈ s.lpContext c, v = x

/-- What holds in every state. -/
structure ExactlyOnce (s : State C) : Prop where
  oneCallback : ∀ c d, s.pc c = .callback → s.pc d = .callback → c = d
  published : ∀ c e, s.pc c = .returned true e → Published s c

/-- What holds of every step. -/
structure StartsOnce (s : State C) (s' : State C) : Prop where
  notAgain : ∀ c, s.pc c ≠ .callback → s'.pc c = .callback → s.succeeded = []
  final : runOnceState s.ptr = .complete → s'.ptr = s.ptr

/-! ## The invariant -/

/-- The call has claimed the word and not stored its result yet. -/
def Claims : Pc → Prop
  | .callback | .completeRead _ | .completeSwap _ _ => True
  | _ => False

/-- The frame of a call of `InitOnceBeginInitialize` by `InitOnceExecuteOnce`. -/
def ExecuteFrame (f : BeginFrame) : Prop :=
  f.execute = true ∧ f.async = false ∧ f.cell % 4 = 0

/-- The frame of a call of `InitOnceComplete` by `InitOnceExecuteOnce` after its callback
returned. -/
def Carries (s : State C) (c : C) (f : CompleteFrame) : Prop :=
  f.async = false ∧ (f.result = false ∧ f.word = 0 ∧ s.succeeded = [] ∨
    f.result = true ∧ ∃ x, x % 4 = 0 ∧ f.word = x ||| RTLP_RUN_ONCE_COMPLETE ∧
      s.succeeded = [x] ∧ ∀ v ∈ s.lpContext c, v = x)

/-- The invariant of the call `c` where it stands. -/
def CallOk (s : State C) (c : C) : Pc → Prop
  | .notCalled => True
  | .checkOnly => False
  | .beginRead f | .beginSwap f => ExecuteFrame f
  | .beginStore f val | .beginEnqueue f val => ExecuteFrame f ∧ runOnceState val = .progress
  | .callback => runOnceState s.ptr = .progress ∧ s.succeeded = []
  | .completeRead f => runOnceState s.ptr = .progress ∧ Carries s c f
  | .completeSwap f val =>
    runOnceState s.ptr = .progress ∧ Carries s c f ∧ runOnceState val = .progress
  | .walking f _ => f.result = true → Published s c
  | .returned result _ => result = true → Published s c

/-- The word is zero before a success, it is claimed by one call at a time, and it carries
the context of the one success once it is complete. -/
structure OnceInv (s : State C) : Prop where
  call : ∀ c, CallOk s c (s.pc c)
  unique : ∀ c d, Claims (s.pc c) → Claims (s.pc d) → c = d
  idle : runOnceState s.ptr = .initializing → s.ptr = 0 ∧ s.succeeded = []
  complete : runOnceState s.ptr = .complete →
    ∃ x, x % 4 = 0 ∧ s.ptr = x ||| RTLP_RUN_ONCE_COMPLETE ∧ s.succeeded = [x]
  sync : runOnceState s.ptr ≠ .async

section Frame

variable {s s' : State C} {c : C} {p : Pc}

omit [DecidableEq C]

lemma Published.state_eq (h : Published s c) : runOnceState s.ptr = .complete := by
  obtain ⟨x, hx, hptr, -⟩ := h
  rw [hptr]
  exact runOnceState_or_complete hx

lemma CallOk.state_eq_of_claims (h : CallOk s c p) (hp : Claims p) :
    runOnceState s.ptr = .progress := by
  cases p with
  | callback => exact h.1
  | completeRead => exact h.1
  | completeSwap => exact h.1
  | _ => exact hp.elim

/-- A step that leaves the word and the call alone. -/
lemma CallOk.congr (h : CallOk s c p) (hptr : s'.ptr = s.ptr)
    (hsucc : s'.succeeded = s.succeeded) (hctx : s'.lpContext c = s.lpContext c) :
    CallOk s' c p := by
  cases p <;> simp only [CallOk, Carries, Published, hptr, hsucc, hctx] at h ⊢ <;> exact h

/-- A step that leaves the state `PROGRESS` and the call alone. -/
lemma CallOk.of_progress (h : CallOk s c p) (hstate : runOnceState s.ptr = .progress)
    (hstate' : runOnceState s'.ptr = .progress) (hsucc : s'.succeeded = s.succeeded)
    (hctx : s'.lpContext c = s.lpContext c) : CallOk s' c p := by
  have hnot : ¬ Published s c := fun hp => by
    rw [hp.state_eq] at hstate
    cases hstate
  cases p with
  | walking | returned => exact fun hr => absurd (h hr) hnot
  | callback | completeRead | completeSwap =>
    simp only [CallOk, Carries, hstate', hstate, hsucc, hctx] at h ⊢
    exact h
  | _ => exact h

/-- Before the word is complete, a call that does not claim it does not depend on it. -/
lemma CallOk.of_not_claims (h : CallOk s c p) (hstate : runOnceState s.ptr ≠ .complete)
    (hp : ¬ Claims p) : CallOk s' c p := by
  have hnot : ¬ Published s c := fun hp => hstate hp.state_eq
  cases p with
  | walking | returned => exact fun hr => absurd (h hr) hnot
  | callback | completeRead | completeSwap => exact absurd trivial hp
  | _ => exact h

/-- The word that a call is to store is `0` after a failure and complete after a success. -/
lemma Carries.word {f : CompleteFrame} (h : Carries s c f) :
    runOnceState f.word = .initializing ∧ f.word = 0 ∧ s.succeeded = [] ∨
      runOnceState f.word = .complete ∧
        ∃ x, x % 4 = 0 ∧ f.word = x ||| RTLP_RUN_ONCE_COMPLETE ∧ s.succeeded = [x] := by
  obtain ⟨-, ⟨-, hword, hnone⟩ | ⟨-, x, hx, hword, hsucc, -⟩⟩ := h
  · exact Or.inl ⟨by simp [hword], hword, hnone⟩
  · exact Or.inr ⟨by rw [hword]; exact runOnceState_or_complete hx, x, hx, hword, hsucc⟩

end Frame

namespace OnceInv

variable {s s' : State C} {c : C}

omit [DecidableEq C] in
lemma init (cells : Addr → Word) : OnceInv (State.init cells : State C) where
  call _ := trivial
  unique _ _ h := h.elim
  idle _ := ⟨rfl, rfl⟩
  complete h := by cases h
  sync h := by cases h

omit [DecidableEq C] in
lemma at_pc (h : OnceInv s) {p : Pc} (hpc : s.pc c = p) : CallOk s c p := hpc ▸ h.call c

/-- A call that moves and claims nothing new leaves the claims of all calls as they were. -/
lemma claims_of_update {p : Pc} (hclaims : Claims p → Claims (s.pc c)) :
    ∀ d, Claims (Function.update s.pc c p d) → Claims (s.pc d) :=
  (Function.forall_update_iff s.pc fun d pc => Claims pc → Claims (s.pc d)).mpr
    ⟨hclaims, fun _ _ hd => hd⟩

/-- A call moves, and the word stays. -/
lemma move (h : OnceInv s) {p : Pc} (hpc : s'.pc = Function.update s.pc c p)
    (hptr : s'.ptr = s.ptr) (hsucc : s'.succeeded = s.succeeded)
    (hctx : ∀ d, d ≠ c → s'.lpContext d = s.lpContext d) (hok : CallOk s' c p)
    (hclaims : Claims p → Claims (s.pc c)) : OnceInv s' := by
  have hold : ∀ d, Claims (s'.pc d) → Claims (s.pc d) := by
    rw [hpc]
    exact claims_of_update hclaims
  refine ⟨?_, fun d e hd he => h.unique d e (hold d hd) (hold e he), ?_, ?_, ?_⟩
  · rw [hpc]
    refine (Function.forall_update_iff s.pc fun d pc => CallOk s' d pc).mpr ⟨hok, ?_⟩
    intro d hdc
    exact (h.call d).congr hptr hsucc (hctx d hdc)
  · rw [hptr, hsucc]
    exact h.idle
  · rw [hptr, hsucc]
    exact h.complete
  · rw [hptr]
    exact h.sync

/-- The call that claims the word moves and changes it, or the success it records. -/
lemma store (h : OnceInv s) {p : Pc} (hpc : s'.pc = Function.update s.pc c p)
    (hstate : runOnceState s.ptr ≠ .complete)
    (hothers : ∀ d, d ≠ c → ¬ Claims (s.pc d)) (hok : CallOk s' c p)
    (hidle : runOnceState s'.ptr = .initializing → s'.ptr = 0 ∧ s'.succeeded = [])
    (hcomplete : runOnceState s'.ptr = .complete →
      ∃ x, x % 4 = 0 ∧ s'.ptr = x ||| RTLP_RUN_ONCE_COMPLETE ∧ s'.succeeded = [x])
    (hsync : runOnceState s'.ptr ≠ .async) : OnceInv s' := by
  have honly : ∀ d, Claims (s'.pc d) → d = c := by
    intro d hd
    by_contra hdc
    rw [hpc, Function.update_of_ne hdc] at hd
    exact hothers d hdc hd
  refine ⟨?_, fun d e hd he => (honly d hd).trans (honly e he).symm, hidle, hcomplete, hsync⟩
  rw [hpc]
  refine (Function.forall_update_iff s.pc fun d pc => CallOk s' d pc).mpr ⟨hok, ?_⟩
  intro d hdc
  exact (h.call d).of_not_claims hstate (hothers d hdc)

omit [DecidableEq C] in
/-- Nobody claims a word that is not in the state `PROGRESS`. -/
lemma not_claims (h : OnceInv s) (hstate : runOnceState s.ptr ≠ .progress) (d : C) :
    ¬ Claims (s.pc d) :=
  fun hd => hstate ((h.call d).state_eq_of_claims hd)

/-- A call of `InitOnceComplete` by the call whose callback has returned. -/
lemma enterComplete (h : OnceInv s) {result : Bool} {left : Word} (hpc : s.pc c = .callback)
    (hleft : ExecutesOnly s (.callbackReturns c result left)) :
    OnceInv ({ s.setContext c left with
      succeeded :=
        if result then s.succeeded ++ [(s.setContext c left).contextArg c]
        else s.succeeded }.enterComplete c (!result) false
          ((s.setContext c left).contextArg c) result) := by
  obtain ⟨hstate, hnone⟩ := h.at_pc hpc
  have hothers : ∀ d, d ≠ c → ¬ Claims (s.pc d) := fun d hdc hd =>
    hdc (h.unique d c hd (by rw [hpc]; trivial))
  have hnot : runOnceState s.ptr ≠ .complete := by simp [hstate]
  cases result with
  | true =>
    have halign : (s.setContext c left).contextArg c % 4 = 0 := hleft
    have hargs : completeArgs (!true) false ((s.setContext c left).contextArg c) =
        some ((s.setContext c left).contextArg c ||| RTLP_RUN_ONCE_COMPLETE) := by
      simp [completeArgs, halign]
    simp only [State.enterComplete, hargs, if_true, hnone, List.nil_append]
    refine h.store rfl hnot hothers ⟨hstate, rfl, Or.inr ⟨rfl, _, halign, rfl, rfl, ?_⟩⟩
      (by simp [hstate]) (by simp [hstate]) h.sync
    intro v hv
    have hv' : (s.setContext c left).lpContext c = some v := hv
    simp [State.contextArg, hv']
  | false =>
    have hnull : (s.setContext c left).contextArg c = 0 := hleft
    have hargs : completeArgs (!false) false ((s.setContext c left).contextArg c) = some 0 := by
      simp [completeArgs, hnull]
    simp only [State.enterComplete, hargs, Bool.false_eq_true, if_false]
    exact h.store rfl hnot hothers ⟨hstate, rfl, Or.inl ⟨rfl, rfl, hnone⟩⟩
      (by simp [hstate]) (by simp [hstate]) h.sync

/-- A call swaps the free word for the claimed one and starts its callback. -/
lemma claim (h : OnceInv s) {f : BeginFrame} (hf : ExecuteFrame f) (hptr : s.ptr = 0) :
    OnceInv ({ s with
      ptr := if f.async then RTLP_RUN_ONCE_ASYNC else RTLP_RUN_ONCE_PROGRESS }.beginReturns
        c f true) := by
  obtain ⟨hexec, hasync, -⟩ := hf
  have hinit : runOnceState s.ptr = .initializing := by simp [hptr]
  have hclaimed : runOnceState ({ s with
      ptr := if f.async then RTLP_RUN_ONCE_ASYNC else RTLP_RUN_ONCE_PROGRESS }.beginReturns
        c f true).ptr = .progress := by
    simp [State.beginReturns, hasync, runOnceState, RTLP_RUN_ONCE_PROGRESS]
  -- nobody claims a free word
  refine h.store (c := c) (p := .callback) (by simp [State.beginReturns, hexec])
    (by simp [hinit]) (fun d _ => h.not_claims (by simp [hinit]) d)
    ⟨hclaimed, (h.idle hinit).2⟩ ?_ ?_ ?_
  · simp [hclaimed]
  · simp [hclaimed]
  · simp [hclaimed]

/-- A waiter swaps its cell into the claimed word and goes on to wait. -/
lemma enqueue (h : OnceInv s) {f : BeginFrame} (hf : ExecuteFrame f)
    (hstate : runOnceState s.ptr = .progress) :
    OnceInv ({ s with ptr := f.cell ||| RTLP_RUN_ONCE_PROGRESS }.setPc c (.beginRead f)) := by
  have hstate' := runOnceState_or_progress hf.2.2
  have hold : ∀ d, Claims (Function.update s.pc c (.beginRead f) d) → Claims (s.pc d) :=
    claims_of_update False.elim
  refine ⟨?_, fun d e hd he => h.unique d e (hold d hd) (hold e he), ?_, ?_, ?_⟩
  · refine (Function.forall_update_iff s.pc fun d pc => CallOk _ d pc).mpr ⟨hf, ?_⟩
    -- the other calls look at the state of the word only, and that stays
    intro d _
    exact (h.call d).of_progress hstate hstate' rfl rfl
  · simp [hstate']
  · simp [hstate']
  · simp [hstate']

/-- A call swaps the claimed word for the one that it carries and begins its walk. -/
lemma publish (h : OnceInv s) {f : CompleteFrame} (hpc : s.pc c = .completeSwap f s.ptr) :
    OnceInv ({ s with ptr := f.word }.walkFrom c f (addressBits s.ptr)) := by
  obtain ⟨hstate, hcarries, -⟩ := h.at_pc hpc
  have hothers : ∀ d, d ≠ c → ¬ Claims (s.pc d) := fun d hdc hd =>
    hdc (h.unique d c hd (by rw [hpc]; trivial))
  have hpublished : f.result = true →
      Published ({ s with ptr := f.word }.walkFrom c f (addressBits s.ptr)) c := by
    intro hr
    obtain ⟨-, ⟨hfailed, -⟩ | ⟨-, x, hx, hword, hsucc, hctx⟩⟩ := hcarries
    · rw [hr] at hfailed
      cases hfailed
    · exact ⟨x, hx, hword, hsucc, hctx⟩
  refine h.store rfl (by simp [hstate]) hothers (by split_ifs <;> exact hpublished) ?_ ?_ ?_
  · intro hinit
    rcases hcarries.word with ⟨-, hzero⟩ | ⟨hcomplete, -⟩
    · exact hzero
    · exact absurd (hinit.symm.trans hcomplete) (by simp)
  · intro hcomplete
    rcases hcarries.word with ⟨hinit, -⟩ | ⟨-, hsucc⟩
    · exact absurd (hinit.symm.trans hcomplete) (by simp)
    · exact hsucc
  · change runOnceState f.word ≠ .async
    rcases hcarries.word with ⟨hinit, -⟩ | ⟨hcomplete, -⟩
    · simp [hinit]
    · simp [hcomplete]

/-- **Step lemma.** -/
theorem step (h : OnceInv s) {a : Action C} (hok : ExecutesOnly s a)
    (hstep : InitOnce.step s a = some s') : OnceInv s' := by
  cases effect_of_step hstep with
  | callRejected | callCheckOnly | callBegin | callComplete => exact hok.elim
  | @callExecute c cell lpContext hpc hfree =>
    exact h.move rfl rfl rfl (fun d hdc => by simp [State.enterBegin, hdc])
      ⟨rfl, rfl, hfree.2.1⟩ (fun hp => hp.elim)
  | checkFails hpc | checkSucceeds hpc => exact (h.at_pc hpc).elim
  | seesInitializing hpc hstate =>
    exact h.move rfl rfl rfl (fun _ _ => rfl) (h.at_pc hpc) (fun hp => hp.elim)
  | seesProgress hpc hstate =>
    exact h.move rfl rfl rfl (fun _ _ => rfl) ⟨h.at_pc hpc, hstate⟩ (fun hp => hp.elim)
  | @seesComplete c f hpc hstate =>
    -- the context is that of the one success
    obtain ⟨x, hx, hptr, hsucc⟩ := h.complete hstate
    have hbits : addressBits s.ptr = x := by rw [hptr]; exact addressBits_or hx (by decide)
    refine h.move (c := c) (p := .returned true none) (by simp [State.beginReturns]) rfl rfl
      (fun d hdc => State.setContext_lpContext_of_ne s c hdc _) (fun _ => ?_) (fun hp => hp.elim)
    refine ⟨x, hx, hptr, hsucc, fun v hv => ?_⟩
    exact (State.eq_of_mem_setContext s c hv).trans hbits
  | seesAsync _ hstate => exact absurd hstate h.sync
  | @seesWrongMode c f hpc hstate =>
    -- a call of `InitOnceExecuteOnce` is synchronous, and so is the word
    obtain ⟨-, hasync, -⟩ : ExecuteFrame f := h.at_pc hpc
    rcases hstate with ⟨-, hf⟩ | ⟨hstate, -⟩
    · rw [hasync] at hf
      cases hf
    · exact absurd hstate h.sync
  | completeSees hpc hstate =>
    obtain ⟨hs, hcarries⟩ := h.at_pc hpc
    refine h.move rfl rfl rfl (fun _ _ => rfl) ⟨hs, hcarries, hs⟩ fun _ => ?_
    rw [hpc]
    trivial
  | completeFails hpc =>
    exact h.move rfl rfl rfl (fun _ _ => rfl) (fun hr => by cases hr) (fun hp => hp.elim)
  | claims hpc hptr => exact h.claim (h.at_pc hpc) hptr
  | claimMisses hpc =>
    exact h.move rfl rfl rfl (fun _ _ => rfl) (h.at_pc hpc) (fun hp => hp.elim)
  | enqueues hpc => exact h.enqueue (h.at_pc hpc).1 (h.at_pc hpc).2
  | enqueueMisses hpc =>
    exact h.move rfl rfl rfl (fun _ _ => rfl) (h.at_pc hpc).1 (fun hp => hp.elim)
  | publishes hpc => exact h.publish hpc
  | publishesAsync hpc hstate => exact absurd (h.at_pc hpc).1 hstate
  | publishMisses hpc =>
    obtain ⟨hs, hcarries, -⟩ := h.at_pc hpc
    refine h.move rfl rfl rfl (fun _ _ => rfl) ⟨hs, hcarries⟩ fun _ => ?_
    rw [hpc]
    trivial
  | storeNext hpc =>
    exact h.move rfl rfl rfl (fun _ _ => rfl) (h.at_pc hpc) (fun hp => hp.elim)
  | callbackReturns hpc => exact h.enterComplete hpc hok
  | @readCell c f val hpc =>
    have hresult : f.result = true → Published s c := h.at_pc hpc
    refine h.move rfl rfl rfl (fun _ _ => rfl) ?_ fun hp => ?_
    · split_ifs
      · exact hresult
      · exact hresult
    · split_ifs at hp <;> exact hp.elim

end OnceInv

/-! ## Exactly once -/

omit [DecidableEq C] in
lemma OnceInv.exactlyOnce {s : State C} (h : OnceInv s) : ExactlyOnce s where
  oneCallback c d hc hd := h.unique c d (by rw [hc]; trivial) (by rw [hd]; trivial)
  published c _ hc := h.at_pc hc rfl

/-- A step to the callback is the claim of a word that is zero. -/
lemma OnceInv.startsOnce {s s' : State C} (h : OnceInv s) {a : Action C}
    (hok : ExecutesOnly s a) (hstep : InitOnce.step s a = some s') : StartsOnce s s' := by
  -- a step into another place than the callback starts nothing
  have hstay : ∀ {t : State C} {c : C} {p : Pc}, t.pc = Function.update s.pc c p →
      p ≠ .callback → t.ptr = s.ptr → StartsOnce s t := by
    intro t c p hpc hp hptr
    refine ⟨fun d hd hd' => ?_, fun _ => hptr⟩
    rw [hpc] at hd'
    by_cases hdc : d = c
    · subst hdc
      exact absurd (by simpa using hd') hp
    · exact absurd (by simpa [hdc] using hd') hd
  cases effect_of_step hstep with
  | callRejected | callCheckOnly | callBegin | callComplete => exact hok.elim
  | checkFails hpc | checkSucceeds hpc => exact (h.at_pc hpc).elim
  | callExecute | seesInitializing | seesProgress | seesWrongMode | completeSees
  | completeFails | claimMisses | enqueueMisses | publishMisses | storeNext =>
    exact hstay rfl (by simp) rfl
  | @seesComplete c f => exact hstay (c := c) (by simp [State.beginReturns]; rfl) (by simp) rfl
  | seesAsync _ hstate => exact absurd hstate h.sync
  | claims hpc hptr =>
    have hinit : runOnceState s.ptr = .initializing := by simp [hptr]
    exact ⟨fun _ _ _ => (h.idle hinit).2, fun hfinal => by rw [hinit] at hfinal; cases hfinal⟩
  | enqueues hpc =>
    have hstate := (h.at_pc hpc).2
    refine ⟨(hstay (t := s.setPc _ (.beginRead _)) rfl (by simp) rfl).notAgain, fun hfinal => ?_⟩
    rw [hstate] at hfinal
    cases hfinal
  | publishes hpc hstate =>
    refine ⟨(hstay (t := s.setPc _ _) rfl ?_ rfl).notAgain, fun hfinal => ?_⟩
    · split_ifs <;> simp
    · rw [hstate] at hfinal
      cases hfinal
  | publishesAsync hpc hstate => exact absurd (h.at_pc hpc).1 hstate
  | callbackReturns hpc =>
    unfold State.enterComplete
    split
    · exact hstay rfl (by simp) rfl
    · exact hstay rfl (by simp) rfl
  | readCell =>
    refine hstay rfl ?_ rfl
    split_ifs <;> simp

/-- **Exactly once.** In every run of any calls of `InitOnceExecuteOnce` on one zeroed
`INIT_ONCE`, whose callbacks leave an aligned context after a success and `NULL` after a
failure: at most one callback is running, none starts after one has succeeded, a call that
has returned `TRUE` finds the successful callback's context published and reports it, and
no step changes a complete word. -/
theorem executes_exactly_once (cells : Addr → Word) (as : List (Action C))
    (hok : EveryStep step (fun s a _ => ExecutesOnly s a) (State.init cells) as) :
    EveryState step ExactlyOnce (State.init cells) as ∧
      EveryStep step (fun s _ s' => StartsOnce s s') (State.init cells) as := by
  have hinv : EveryState step OnceInv (State.init cells) as :=
    hok.everyState (fun s a s' h hok hstep => h.step hok hstep) (.init cells)
  exact ⟨hinv.mono fun s h => h.exactlyOnce,
    hok.imp (fun s a s' h hok hstep => h.startsOnce hok hstep) hinv⟩

/-- Call 0 runs its callback, which fails, while call 1 waits; call 1 then runs its own,
which succeeds, and call 2 finds the word complete. -/
def secondAttemptRun : List (Action (Fin 3)) :=
  [.callExecute 0 16 (some 0), .readPtr 0, .swap 0,
   .callExecute 1 32 (some 0), .readPtr 1, .storeNext 1, .swap 1,
   .callbackReturns 0 false 0, .readPtr 0, .swap 0, .readCell 0,
   .readPtr 1, .swap 1, .callbackReturns 1 true 64, .readPtr 1, .swap 1,
   .callExecute 2 48 (some 7), .readPtr 2]

theorem executes_exactly_once_secondAttemptRun :
    EveryState step ExactlyOnce (State.init fun _ => 0) secondAttemptRun ∧
      EveryStep step (fun s _ s' => StartsOnce s s') (State.init fun _ => 0)
        secondAttemptRun :=
  executes_exactly_once _ _ (by decide)

end InitOnce
end ClamavWin32
