import ClamavWin32.RunOnce.InitOnce

/-!
# The steps of one-time initialisation

* how the state and the address of a word come apart again;
* `Effect` lists the branches of `step` once, and `effect_of_step` is the only place that
  unfolds it.
-/

namespace ClamavWin32
namespace InitOnce

/-! ## The word -/

section Word

variable {x k : ℕ}

lemma or_eq_add (hx : x % 4 = 0) (hk : k < 4) : x ||| k = x + k := by
  have h := Nat.two_pow_add_eq_or_of_lt (i := 2) hk (x / 4)
  have hx' : 2 ^ 2 * (x / 4) = x := by omega
  rw [hx'] at h
  exact h.symm

@[simp] lemma runOnceState_zero : runOnceState 0 = .initializing := rfl

lemma runOnceState_or_progress (hx : x % 4 = 0) :
    runOnceState (x ||| RTLP_RUN_ONCE_PROGRESS) = .progress := by
  have hmod : (x + 1) % 4 = 1 := by omega
  rw [RTLP_RUN_ONCE_PROGRESS, or_eq_add hx (by decide)]
  simp [runOnceState, hmod]

lemma runOnceState_or_complete (hx : x % 4 = 0) :
    runOnceState (x ||| RTLP_RUN_ONCE_COMPLETE) = .complete := by
  have hmod : (x + 2) % 4 = 2 := by omega
  rw [RTLP_RUN_ONCE_COMPLETE, or_eq_add hx (by decide)]
  simp [runOnceState, hmod]

lemma addressBits_or (hx : x % 4 = 0) (hk : k < 4) : addressBits (x ||| k) = x := by
  have hdiv : (x + k) / 4 * 4 = x := by omega
  rw [addressBits, or_eq_add hx hk, hdiv]

end Word

/-- What `InitOnceComplete` stores is `0` after a failure, and the context marked complete
after a success. -/
lemma completeArgs_eq_some {initFailed async : Bool} {context word : Word}
    (h : completeArgs initFailed async context = some word) :
    context % 4 = 0 ∧ (initFailed = true ∧ context = 0 ∧ word = 0 ∨
      initFailed = false ∧ word = context ||| RTLP_RUN_ONCE_COMPLETE) := by
  unfold completeArgs at h
  split_ifs at h with halign hfailed hcontext <;> cases h
  · have hzero : context = 0 := by
      by_contra hne
      exact hcontext (Or.inl hne)
    exact ⟨not_not.mp halign, Or.inl ⟨hfailed, hzero, hzero⟩⟩
  · exact ⟨not_not.mp halign, Or.inr ⟨by simpa using hfailed, rfl⟩⟩

/-- It never stores a word in the state `PROGRESS`. -/
lemma runOnceState_ne_progress_of_completeArgs {initFailed async : Bool} {context word : Word}
    (h : completeArgs initFailed async context = some word) :
    runOnceState word ≠ .progress := by
  obtain ⟨halign, ⟨-, -, rfl⟩ | ⟨-, rfl⟩⟩ := completeArgs_eq_some h
  · simp
  · simp [runOnceState_or_complete halign]

/-! ## Fields of an updated state -/

variable {C : Type*} [DecidableEq C]

namespace State

variable (s : State C) (c : C)

@[simp] lemma setPc_pc (p : Pc) : (s.setPc c p).pc = Function.update s.pc c p := rfl
@[simp] lemma setPc_ptr (p : Pc) : (s.setPc c p).ptr = s.ptr := rfl
@[simp] lemma setPc_cells (p : Pc) : (s.setPc c p).cells = s.cells := rfl
@[simp] lemma setPc_owner (p : Pc) : (s.setPc c p).owner = s.owner := rfl
@[simp] lemma setPc_lpContext (p : Pc) : (s.setPc c p).lpContext = s.lpContext := rfl
@[simp] lemma setPc_succeeded (p : Pc) : (s.setPc c p).succeeded = s.succeeded := rfl

@[simp] lemma setContext_pc (v : Word) : (s.setContext c v).pc = s.pc := rfl
@[simp] lemma setContext_ptr (v : Word) : (s.setContext c v).ptr = s.ptr := rfl
@[simp] lemma setContext_cells (v : Word) : (s.setContext c v).cells = s.cells := rfl
@[simp] lemma setContext_owner (v : Word) : (s.setContext c v).owner = s.owner := rfl
@[simp] lemma setContext_succeeded (v : Word) :
    (s.setContext c v).succeeded = s.succeeded := rfl

lemma setContext_lpContext_of_ne {d : C} (hdc : d ≠ c) (v : Word) :
    (s.setContext c v).lpContext d = s.lpContext d := by
  simp [setContext, hdc]

/-- After `*lpContext = v` the variable holds `v`, if there is one. -/
lemma eq_of_mem_setContext {v w : Word} (h : w ∈ (s.setContext c v).lpContext c) : w = v := by
  have h' : w ∈ (s.lpContext c).map fun _ => v := by simpa [setContext] using h
  obtain ⟨_, -, hv⟩ := Option.map_eq_some_iff.mp h'
  exact hv.symm

end State

/-! ## What a step can do -/

/-- The branches of `step`, one constructor each. -/
inductive Effect (s : State C) : Action C → State C → Prop
  | callRejected {c dwFlags cell lpContext} (hpc : s.pc c = .notCalled) :
      Effect s (.callBegin c dwFlags cell lpContext)
        (s.setPc c (.returned false (some ERROR_INVALID_PARAMETER)))
  | callCheckOnly {c dwFlags cell lpContext} (hpc : s.pc c = .notCalled) :
      Effect s (.callBegin c dwFlags cell lpContext)
        ({ s with lpContext := Function.update s.lpContext c lpContext }.setPc c .checkOnly)
  | callBegin {c dwFlags cell lpContext async} (hpc : s.pc c = .notCalled)
      (hfree : s.FreeCell cell) :
      Effect s (.callBegin c dwFlags cell lpContext)
        (s.enterBegin c ⟨false, async, cell⟩ lpContext)
  | callExecute {c cell lpContext} (hpc : s.pc c = .notCalled) (hfree : s.FreeCell cell) :
      Effect s (.callExecute c cell lpContext) (s.enterBegin c ⟨true, false, cell⟩ lpContext)
  | callComplete {c dwFlags context initFailed async} (hpc : s.pc c = .notCalled) :
      Effect s (.callComplete c dwFlags context)
        (s.enterComplete c initFailed async context true)
  | checkFails {c} (hpc : s.pc c = .checkOnly) :
      Effect s (.readPtr c) (s.setPc c (.returned false (some ERROR_GEN_FAILURE)))
  | checkSucceeds {c} (hpc : s.pc c = .checkOnly) (hstate : runOnceState s.ptr = .complete) :
      Effect s (.readPtr c)
        ({ s.setContext c (addressBits s.ptr) with
          pending := Function.update s.pending c false }.setPc c (.returned true none))
  | seesInitializing {c f} (hpc : s.pc c = .beginRead f)
      (hstate : runOnceState s.ptr = .initializing) :
      Effect s (.readPtr c) (s.setPc c (.beginSwap f))
  | seesProgress {c f} (hpc : s.pc c = .beginRead f)
      (hstate : runOnceState s.ptr = .progress) :
      Effect s (.readPtr c) (s.setPc c (.beginStore f s.ptr))
  | seesComplete {c f} (hpc : s.pc c = .beginRead f)
      (hstate : runOnceState s.ptr = .complete) :
      Effect s (.readPtr c) ((s.setContext c (addressBits s.ptr)).beginReturns c f false)
  | seesAsync {c f} (hpc : s.pc c = .beginRead f) (hstate : runOnceState s.ptr = .async)
      (hasync : f.async = true) : Effect s (.readPtr c) (s.beginReturns c f true)
  | seesWrongMode {c f} (hpc : s.pc c = .beginRead f)
      (hstate : runOnceState s.ptr = .progress ∧ f.async = true ∨
        runOnceState s.ptr = .async ∧ f.async = false) :
      Effect s (.readPtr c) (s.beginFails c f)
  | completeSees {c f} (hpc : s.pc c = .completeRead f)
      (hstate : runOnceState s.ptr = .progress ∨
        runOnceState s.ptr = .async ∧ f.async = true) :
      Effect s (.readPtr c) (s.setPc c (.completeSwap f s.ptr))
  | completeFails {c f error} (hpc : s.pc c = .completeRead f) :
      Effect s (.readPtr c) (s.setPc c (.returned false (some error)))
  | claims {c f} (hpc : s.pc c = .beginSwap f) (hptr : s.ptr = 0) :
      Effect s (.swap c)
        ({ s with
          ptr := if f.async then RTLP_RUN_ONCE_ASYNC else RTLP_RUN_ONCE_PROGRESS }.beginReturns
            c f true)
  | claimMisses {c f} (hpc : s.pc c = .beginSwap f) (hptr : s.ptr ≠ 0) :
      Effect s (.swap c) (s.setPc c (.beginRead f))
  | enqueues {c f} (hpc : s.pc c = .beginEnqueue f s.ptr) :
      Effect s (.swap c)
        ({ s with ptr := f.cell ||| RTLP_RUN_ONCE_PROGRESS }.setPc c (.beginRead f))
  | enqueueMisses {c f val} (hpc : s.pc c = .beginEnqueue f val) (hptr : s.ptr ≠ val) :
      Effect s (.swap c) (s.setPc c (.beginRead f))
  | publishes {c f} (hpc : s.pc c = .completeSwap f s.ptr)
      (hstate : runOnceState s.ptr = .progress) :
      Effect s (.swap c) ({ s with ptr := f.word }.walkFrom c f (addressBits s.ptr))
  | publishesAsync {c f} (hpc : s.pc c = .completeSwap f s.ptr)
      (hstate : runOnceState s.ptr ≠ .progress) :
      Effect s (.swap c) ({ s with ptr := f.word }.setPc c (.returned f.result none))
  | publishMisses {c f val} (hpc : s.pc c = .completeSwap f val) (hptr : s.ptr ≠ val) :
      Effect s (.swap c) (s.setPc c (.completeRead f))
  | storeNext {c f val} (hpc : s.pc c = .beginStore f val) :
      Effect s (.storeNext c)
        ({ s with cells := Function.update s.cells f.cell (addressBits val) }.setPc c
          (.beginEnqueue f val))
  | callbackReturns {c result left} (hpc : s.pc c = .callback) :
      Effect s (.callbackReturns c result left)
        ({ s.setContext c left with
          succeeded :=
            if result then s.succeeded ++ [(s.setContext c left).contextArg c]
            else s.succeeded }.enterComplete c (!result) false
              ((s.setContext c left).contextArg c) result)
  | readCell {c f val} (hpc : s.pc c = .walking f val) :
      Effect s (.readCell c) (s.walkFrom c f (s.cells val))

theorem effect_of_step {s s' : State C} {a : Action C} (h : step s a = some s') :
    Effect s a s' := by
  cases a with
  | callBegin c dwFlags cell lpContext =>
    simp only [step] at h
    split at h
    · rename_i hpc
      split_ifs at h with hcheck hasync hfree <;> cases h
      · exact .callRejected hpc
      · exact .callCheckOnly hpc
      · exact .callBegin hpc hfree
    · cases h
  | callComplete c dwFlags context =>
    simp only [step] at h
    split at h <;> cases h
    exact .callComplete ‹_›
  | callExecute c cell lpContext =>
    simp only [step] at h
    split at h
    · split_ifs at h with hfree
      cases h
      exact .callExecute ‹_› hfree
    · cases h
  | readPtr c =>
    -- the word that is read decides, together with the mode of the call
    simp only [step] at h
    split at h
    · rename_i hpc
      split_ifs at h with hstate <;> cases h
      · exact .checkFails hpc
      · exact .checkSucceeds hpc (by simpa using hstate)
    · rename_i f hpc
      split at h
      · cases h
        exact .seesInitializing hpc ‹_›
      · split_ifs at h with hasync <;> cases h
        · exact .seesWrongMode hpc (Or.inl ⟨‹_›, hasync⟩)
        · exact .seesProgress hpc ‹_›
      · cases h
        exact .seesComplete hpc ‹_›
      · split_ifs at h with hasync <;> cases h
        · exact .seesAsync hpc ‹_› hasync
        · exact .seesWrongMode hpc (Or.inr ⟨‹_›, by simpa using hasync⟩)
    · rename_i f hpc
      split at h
      · cases h
        exact .completeSees hpc (Or.inl ‹_›)
      · split_ifs at h with hasync <;> cases h
        · exact .completeSees hpc (Or.inr ⟨‹_›, hasync⟩)
        · exact .completeFails hpc
      · cases h
        exact .completeFails hpc
    · cases h
  | swap c =>
    simp only [step] at h
    split at h
    · rename_i f hpc
      -- the swaps succeed just if the word is still the one that was read
      by_cases hptr : s.ptr = 0
      · rw [if_pos hptr] at h
        cases h
        exact .claims hpc hptr
      · rw [if_neg hptr] at h
        cases h
        exact .claimMisses hpc hptr
    · rename_i f val hpc
      cases h
      by_cases hptr : s.ptr = val
      · subst hptr
        rw [if_pos rfl]
        exact .enqueues hpc
      · rw [if_neg hptr]
        exact .enqueueMisses hpc hptr
    · rename_i f val hpc
      split_ifs at h with hptr hstate <;> cases h
      · subst hptr
        exact .publishes hpc hstate
      · subst hptr
        exact .publishesAsync hpc hstate
      · exact .publishMisses hpc hptr
    · cases h
  | storeNext c =>
    simp only [step] at h
    split at h <;> cases h
    exact .storeNext ‹_›
  | callbackReturns c result left =>
    simp only [step] at h
    split at h <;> cases h
    exact .callbackReturns ‹_›
  | readCell c =>
    simp only [step] at h
    split at h <;> cases h
    exact .readCell ‹_›

end InitOnce
end ClamavWin32
