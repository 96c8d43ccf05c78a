import ClamavWin32.Synchapi.SRWLock

/-!
# Mutual exclusion of the slim reader/writer lock

* `Effect` lists the branches of `step`, one for each path through the compare-and-swaps;
* `mutualExclusion_iff`: the lock excludes exactly in the runs in which no second
  compare-and-swap finds the lock free. One that does returns `NULL`, which the code takes
  for success although the swap did not happen (`doubleAcquireRun`).
-/

namespace ClamavWin32
namespace SRWLock

open TransitionSystem

variable {T C : Type*} [DecidableEq T] [DecidableEq C]
variable {lock : Addr} {ptrSize : ℕ}

/-! ## What a step can do -/

section Fields

variable (s : State T C) (t : T) (p : Pc C) (v : Word)

omit [DecidableEq C] in
@[simp] lemma setPc_pc : (s.setPc t p).pc = Function.update s.pc t p := rfl
omit [DecidableEq C] in
@[simp] lemma setPc_futex : (s.setPc t p).futex = s.futex := rfl
omit [DecidableEq C] in
@[simp] lemma setPc_ptr : (s.setPc t p).ptr lock = s.ptr lock := rfl
omit [DecidableEq T] [DecidableEq C] in
@[simp] lemma setPtr_pc : (s.setPtr lock v).pc = s.pc := rfl
omit [DecidableEq T] [DecidableEq C] in
@[simp] lemma setPtr_ptr : (s.setPtr lock v).ptr lock = v := by simp [State.setPtr, State.ptr]
omit [DecidableEq T] [DecidableEq C] in
@[simp] lemma setPtr_futex_pc : (s.setPtr lock v).futex.pc = s.futex.pc := rfl
omit [DecidableEq T] [DecidableEq C] in
@[simp] lemma setPtr_futex_queues : (s.setPtr lock v).futex.queues = s.futex.queues := rfl

end Fields

/-- The branches of `step`, one constructor each. -/
inductive Effect (lock : Addr) (ptrSize : ℕ) (s : State T C) :
    Action T C → State T C → Prop
  | acquire {t} (hpc : s.pc t = .idle) : Effect lock ptrSize s (.acquire t) (s.setPc t .firstSwap)
  | firstTakes {t} (hpc : s.pc t = .firstSwap) (hfree : s.ptr lock = 0) :
      Effect lock ptrSize s (.firstSwap t) ((s.setPtr lock 1).setPc t .holding)
  | firstSees {t} (hpc : s.pc t = .firstSwap) (hheld : s.ptr lock ≠ 0) :
      Effect lock ptrSize s (.firstSwap t) (s.setPc t (.secondSwap (s.ptr lock)))
  | firstWaits {t} (hpc : s.pc t = .firstSwap) (hheld : s.ptr lock ≠ 0) :
      Effect lock ptrSize s (.firstSwap t) (s.setPc t .callWait)
  | secondTakes {t state} (hpc : s.pc t = .secondSwap state) (hfree : s.ptr lock = 0)
      (hstate : state ≠ 0) : Effect lock ptrSize s (.secondSwap t) (s.setPc t .holding)
  | secondTakesNull {t} (hpc : s.pc t = .secondSwap 0) :
      Effect lock ptrSize s (.secondSwap t) ((s.setPtr lock 2).setPc t .holding)
  | secondMarks {t state} (hpc : s.pc t = .secondSwap state) (hheld : s.ptr lock ≠ 0) :
      Effect lock ptrSize s (.secondSwap t) ((s.setPtr lock 2).setPc t .callWait)
  | secondMisses {t state} (hpc : s.pc t = .secondSwap state) (hheld : s.ptr lock ≠ 0) :
      Effect lock ptrSize s (.secondSwap t) (s.setPc t .callWait)
  | callWait {t c f} (hpc : s.pc t = .callWait)
      (hf : Futex.step s.futex (.callWait c lock 2 ptrSize INFINITE) = some f) :
      Effect lock ptrSize s (.callWait t c) ({ s with futex := f }.setPc t (.inWait c))
  | inWait {t c a f} (hpc : s.pc t = .inWait c) (hcaller : a.caller = some c)
      (hf : Futex.step s.futex a = some f) :
      Effect lock ptrSize s (.futex t a) { s with futex := f }
  | inWake {t w a f} (hpc : s.pc t = .inWake w) (hcaller : a.caller = some w)
      (hf : Futex.step s.futex a = some f) :
      Effect lock ptrSize s (.futex t a) { s with futex := f }
  | waitReturned {t c b} (hpc : s.pc t = .inWait c) (hret : s.futex.pc c = .waitReturned b) :
      Effect lock ptrSize s (.waitReturned t) (s.setPc t .firstSwap)
  | releaseWakes {t w f} (hpc : s.pc t = .holding) (hmark : s.ptr lock = 2)
      (hf : Futex.step (s.setPtr lock 0).futex (.callWake w false lock) = some f) :
      Effect lock ptrSize s (.release t w) ({ s with futex := f }.setPc t (.inWake w))
  | release {t w} (hpc : s.pc t = .holding) (hmark : s.ptr lock ≠ 2) :
      Effect lock ptrSize s (.release t w) ((s.setPtr lock 0).setPc t .idle)
  | wakeReturned {t w} (hpc : s.pc t = .inWake w) (hret : s.futex.pc w = .wakeReturned) :
      Effect lock ptrSize s (.wakeReturned t) (s.setPc t .idle)

theorem effect_of_step {s s' : State T C} {a : Action T C}
    (h : step lock ptrSize s a = some s') : Effect lock ptrSize s a s' := by
  cases a with
  | acquire t =>
    simp only [step] at h
    split at h <;> cases h
    exact .acquire ‹_›
  | firstSwap t =>
    simp only [step, interlockedCompareExchange] at h
    split at h
    · rename_i hpc
      split_ifs at h with hfree htwo <;> cases h
      · exact .firstTakes hpc hfree
      · exact .firstSees hpc hfree
      · exact .firstWaits hpc hfree
    · cases h
  | secondSwap t =>
    -- the second swap expects what the first one has seen
    simp only [step] at h
    split at h
    · rename_i state hpc
      simp only [interlockedCompareExchange] at h
      by_cases hfree : s.ptr lock = 0 <;> simp only [hfree, if_true, if_false] at h <;> cases h
      · by_cases hstate : state = 0
        · subst hstate
          rw [if_pos rfl]
          exact .secondTakesNull hpc
        · rw [if_neg fun heq => hstate heq.symm]
          exact .secondTakes hpc hfree hstate
      · split_ifs
        · exact .secondMarks hpc hfree
        · exact .secondMisses hpc hfree
    · cases h
  | callWait t c =>
    simp only [step] at h
    split at h
    · obtain ⟨f, hf, rfl⟩ := Option.map_eq_some_iff.mp h
      exact .callWait ‹_› hf
    · cases h
  | futex t a =>
    simp only [step] at h
    split at h
    · split_ifs at h with hcaller
      obtain ⟨f, hf, rfl⟩ := Option.map_eq_some_iff.mp h
      exact .inWait ‹_› hcaller hf
    · split_ifs at h with hcaller
      obtain ⟨f, hf, rfl⟩ := Option.map_eq_some_iff.mp h
      exact .inWake ‹_› hcaller hf
    · cases h
  | waitReturned t =>
    simp only [step] at h
    split at h
    · split at h <;> cases h
      exact .waitReturned ‹_› ‹_›
    · cases h
  | release t w =>
    simp only [step, interlockedExchange] at h
    split at h
    · by_cases hmark : s.ptr lock = 2 <;> simp only [hmark, if_true, if_false] at h
      · obtain ⟨f, hf, rfl⟩ := Option.map_eq_some_iff.mp h
        exact .releaseWakes ‹_› hmark hf
      · cases h
        exact .release ‹_› hmark
    · cases h
  | wakeReturned t =>
    simp only [step] at h
    split at h
    · split at h <;> cases h
      exact .wakeReturned ‹_› ‹_›
    · cases h

/-! ## The lock word -/

/-- Between two compare-and-swaps a thread carries a mark that was not `NULL`. -/
def MarkSeen (s : State T C) : Prop := ∀ t state, s.pc t = .secondSwap state → state ≠ 0

omit [DecidableEq T] [DecidableEq C] in
lemma MarkSeen.init (memory : Addr → Word) :
    MarkSeen (State.init lock memory : State T C) := fun _ _ h => by cases h

omit [DecidableEq C] in
lemma MarkSeen.setPc {s : State T C} (h : MarkSeen s) {t : T} {p : Pc C}
    (hp : ∀ state, p = .secondSwap state → state ≠ 0) : MarkSeen (s.setPc t p) := by
  intro u state hu
  by_cases hut : u = t
  · subst hut
    exact hp state (by simpa using hu)
  · exact h u state (by simpa [hut] using hu)

lemma MarkSeen.step {s s' : State T C} {a : Action T C} (h : MarkSeen s)
    (hstep : SRWLock.step lock ptrSize s a = some s') : MarkSeen s' := by
  cases effect_of_step hstep with
  | acquire | firstWaits | secondTakes | secondMisses | waitReturned | wakeReturned =>
    exact h.setPc fun _ he => by cases he
  | firstSees hpc hheld =>
    refine h.setPc fun state he => ?_
    cases he
    exact hheld
  | firstTakes | secondTakesNull | secondMarks | release =>
    exact MarkSeen.setPc (s := _) h fun _ he => by cases he
  | callWait | releaseWakes =>
    exact MarkSeen.setPc (s := _) h fun _ he => by cases he
  | inWait | inWake => exact h

/-! ## Mutual exclusion -/

/-- At most one thread holds the lock, and while one does the lock word is not `NULL`. -/
structure MutualExclusion (lock : Addr) (s : State T C) : Prop where
  atMostOne : ∀ t u, s.pc t = .holding → s.pc u = .holding → t = u
  ptr_ne_null : ∀ t, s.pc t = .holding → s.ptr lock ≠ 0

/-- No second compare-and-swap is made while the lock is free. -/
def SecondSwapFindsHeld (lock : Addr) (s : State T C) : Action T C → Prop
  | .secondSwap _ => s.ptr lock ≠ 0
  | _ => True

namespace MutualExclusion

variable {s : State T C}

omit [DecidableEq C] in
/-- A step of a thread that does not come to hold the lock. -/
lemma setPc (h : MutualExclusion lock s) {t : T} {p : Pc C} (hp : p ≠ .holding) :
    MutualExclusion lock (s.setPc t p) := by
  have hold : ∀ u, (s.setPc t p).pc u = .holding → s.pc u = .holding := by
    intro u hu
    by_cases hut : u = t
    · subst hut
      exact absurd (by simpa using hu) hp
    · simpa [hut] using hu
  exact ⟨fun u v hu hv => h.atMostOne u v (hold u hu) (hold v hv),
    fun u hu => h.ptr_ne_null u (hold u hu)⟩

omit [DecidableEq T] [DecidableEq C] in
/-- The holder leaves, or nobody holds the lock: nobody does afterwards. -/
lemma of_none {s' : State T C} (h : ∀ u, s'.pc u ≠ .holding) : MutualExclusion lock s' :=
  ⟨fun u _ hu _ => absurd hu (h u), fun u hu => absurd hu (h u)⟩

omit [DecidableEq T] [DecidableEq C] in
lemma init (memory : Addr → Word) :
    MutualExclusion lock (State.init lock memory : State T C) :=
  of_none fun _ h => by cases h

/-- **Step lemma for mutual exclusion.** -/
lemma step (h : MutualExclusion lock s) (hseen : MarkSeen s) {a : Action T C}
    {s' : State T C} (hok : SecondSwapFindsHeld lock s a)
    (hstep : SRWLock.step lock ptrSize s a = some s') : MutualExclusion lock s' := by
  cases effect_of_step hstep with
  | acquire | firstSees | firstWaits | secondMisses | waitReturned | wakeReturned =>
    exact h.setPc (by simp)
  | @firstTakes t hpc hfree =>
    -- the word was free, so nobody held the lock
    have hnone : ∀ u, s.pc u ≠ .holding := fun u hu => h.ptr_ne_null u hu hfree
    have honly : ∀ u, ((s.setPtr lock 1).setPc t .holding).pc u = .holding → u = t := by
      intro u hu
      by_contra hut
      exact hnone u (by simpa [hut] using hu)
    exact ⟨fun u v hu hv => (honly u hu).trans (honly v hv).symm, fun u _ => by simp⟩
  | secondTakes hpc hfree => exact absurd hfree hok
  | secondTakesNull hpc => exact absurd rfl (hseen _ _ hpc)
  | @secondMarks t state hpc hheld =>
    have h' : MutualExclusion lock (s.setPtr lock 2) := ⟨h.atMostOne, fun u _ => by simp⟩
    exact h'.setPc (by simp)
  | @callWait t c f hpc hf =>
    have hmem : f.memory = s.futex.memory := Futex.memory_of_step hf rfl
    have h' : MutualExclusion lock { s with futex := f } :=
      ⟨h.atMostOne, fun u hu => by
        have := h.ptr_ne_null u hu
        simpa [State.ptr, hmem] using this⟩
    exact h'.setPc (by simp)
  | inWait hpc hcaller hf | inWake hpc hcaller hf =>
    have hmem := Futex.memory_of_step hf hcaller
    exact ⟨h.atMostOne, fun u hu => by
      have := h.ptr_ne_null u hu
      simpa [State.ptr, hmem] using this⟩
  | @releaseWakes t _ _ hpc | @release t _ hpc =>
    -- the holder leaves, and there was no other
    refine of_none fun u hu => ?_
    by_cases hut : u = t
    · subst hut
      simp at hu
    · exact hut (h.atMostOne u t (by simpa [hut] using hu) hpc)

end MutualExclusion

/-- The second compare-and-swap of `t` leaves it holding a lock whose word is `NULL`. -/
lemma secondSwap_of_free {s : State T C} {t : T} (hfree : s.ptr lock = 0) (hseen : MarkSeen s)
    {s' : State T C} (h : Effect lock ptrSize s (.secondSwap t) s') :
    s'.pc t = .holding ∧ s'.ptr lock = 0 := by
  cases h with
  | secondTakes => exact ⟨by simp, hfree⟩
  | secondTakesNull hpc => exact absurd rfl (hseen _ _ hpc)
  | secondMarks _ hheld | secondMisses _ hheld => exact absurd hfree hheld

/-- **Mutual exclusion.** The lock excludes, in every state of a run of any number of
threads, exactly when no second compare-and-swap of the run finds the lock word `NULL`. -/
theorem mutualExclusion_iff (memory : Addr → Word) (as : List (Action T C)) :
    EveryState (step lock ptrSize) (MutualExclusion lock) (State.init lock memory) as ↔
      EveryStep (step lock ptrSize) (fun s a _ => SecondSwapFindsHeld lock s a)
        (State.init lock memory) as := by
  have hseen : EveryState (step lock ptrSize) MarkSeen (State.init lock memory : State T C) as :=
    everyState_of_invariant (fun _ _ _ h hstep => h.step hstep) (.init memory) as
  constructor
  · intro h
    refine (h.and hseen).everyStep ?_
    rintro s a s' ⟨-, hs⟩ hstep ⟨hme, -⟩
    cases a with
    | secondSwap t =>
      intro hfree
      obtain ⟨hhold, hnull⟩ := secondSwap_of_free hfree hs (effect_of_step hstep)
      exact hme.ptr_ne_null t hhold hnull
    | _ => trivial
  · intro hok
    have hinv : EveryState (step lock ptrSize) (fun s => MutualExclusion lock s ∧ MarkSeen s)
        (State.init lock memory) as := by
      refine EveryStep.everyState ?_ hok ⟨.init memory, .init memory⟩
      rintro s a s' ⟨hme, hs⟩ hok hstep
      exact ⟨hme.step hs hok hstep, hs.step hstep⟩
    exact hinv.mono fun s h => h.1

/-- Thread 0 takes the lock; the first compare-and-swap of thread 1 sees `1`; thread 0
releases; the second compare-and-swap of thread 1 finds `NULL`; thread 2 takes the lock. -/
def doubleAcquireRun : List (Action (Fin 3) (Fin 1)) :=
  [.acquire 0, .firstSwap 0, .acquire 1, .firstSwap 1, .release 0 0, .secondSwap 1,
   .acquire 2, .firstSwap 2]

/-- Threads 1 and 2 are both inside, and so was thread 1 while the lock word was `NULL`. -/
theorem two_threads_hold :
    ∃ s, run (step 16 8) (State.init 16 fun _ => 0) doubleAcquireRun = some s ∧
      ¬ MutualExclusion 16 s ∧ s.pc 1 = .holding ∧ s.pc 2 = .holding := by
  obtain ⟨s, hrun, h1, h2⟩ : ∃ s, run (step 16 8) (State.init 16 fun _ => 0)
      doubleAcquireRun = some s ∧ s.pc 1 = .holding ∧ s.pc 2 = .holding := ⟨_, rfl, rfl, rfl⟩
  exact ⟨s, hrun, fun h => absurd (h.atMostOne 1 2 h1 h2) (by decide), h1, h2⟩

end SRWLock
end ClamavWin32
