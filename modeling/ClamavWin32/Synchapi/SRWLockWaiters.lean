import ClamavWin32.Synchapi.SRWLockTheorems
import Mathlib.Data.Fintype.Basic

/-!
# Waiters of the slim reader/writer lock

A release wakes a waiter only when it finds the contended mark `2`, and a thread that was
just woken takes the lock with the plain mark `1`, whoever else is queued. So the mark can
be lost while threads sleep (`strandedRun`). When no release finds the plain mark while a
thread is asleep and no other is on its way (`LeavesNoWaiter`), no run strands a waiter.

The argument: while the lock is free and a thread is asleep, some thread is on its way to
the first compare-and-swap or to the queue (`OnItsWay`). The step that could break this is
the section of a wake that removes nobody; but a sleeping thread is queued under the
address of the lock, and the wake removes the first entry with that address
(`LockInv`).
-/

namespace ClamavWin32
namespace SRWLock

open TransitionSystem
open Futex (getFutexQueue)

variable {T C : Type*}

/-! ## What a stranded waiter is -/

/-- The call `c` is asleep inside `WaitOnAddress`: it waits, its entry is queued and its
event is not signalled. -/
def Sleeping (lock : Addr) (f : Futex.State C) (c : C) : Prop :=
  f.pc c = .waiting lock INFINITE ∧ c ∈ f.queues (getFutexQueue lock) ∧
    ¬ f.events.Signalled (f.entry c).event

/-- The thread `t` is asleep inside the `WaitOnAddress` of its acquire. -/
def Asleep (lock : Addr) (s : State T C) (t : T) : Prop :=
  ∃ c, s.pc t = .inWait c ∧ Sleeping lock s.futex c

/-- Inside `AcquireSRWLockExclusive`. -/
def InAcquire (s : State T C) (t : T) : Prop :=
  match s.pc t with
  | .firstSwap | .secondSwap _ | .callWait | .inWait _ => True
  | _ => False

/-- Executing `ReleaseSRWLockExclusive`, past its exchange. -/
def InRelease (s : State T C) (t : T) : Prop :=
  match s.pc t with
  | .inWake _ => True
  | _ => False

/-- The lock is free and a thread is asleep, every other thread inside
`AcquireSRWLockExclusive` is asleep too, and no thread executes a release. -/
def Stranded (lock : Addr) (s : State T C) : Prop :=
  s.ptr lock = 0 ∧ (∃ t, Asleep lock s t) ∧ (∀ t, InAcquire s t → Asleep lock s t) ∧
    ∀ t, ¬ InRelease s t

/-- The thread `t` is going to make a first compare-and-swap, or to look for a waiter in
the queue. -/
def OnItsWay (lock : Addr) (s : State T C) (t : T) : Prop :=
  match s.pc t with
  | .firstSwap | .callWait => True
  | .inWait c => ¬ Sleeping lock s.futex c
  | .inWake w => s.futex.pc w = .wakeLock false lock
  | _ => False

/-- A release that finds the plain mark `1`, and so wakes nobody, leaves no thread asleep
unless another one is on its way. -/
def LeavesNoWaiter (lock : Addr) (s : State T C) : Action T C → Prop
  | .release _ _ => s.ptr lock = 1 → (∃ t, Asleep lock s t) → ∃ u, OnItsWay lock s u
  | _ => True

/-- While the lock is free, a sleeping thread has another one on its way. -/
def Watched (lock : Addr) (s : State T C) : Prop :=
  s.ptr lock = 0 → (∃ t, Asleep lock s t) → ∃ u, OnItsWay lock s u

section Decidable

variable [DecidableEq C] (lock : Addr) (s : State T C)

instance (f : Futex.State C) (c : C) : Decidable (Sleeping lock f c) := by
  unfold Sleeping
  infer_instance

instance [Fintype C] (t : T) : Decidable (Asleep lock s t) := by
  unfold Asleep
  infer_instance

instance (t : T) : Decidable (InAcquire s t) := by
  unfold InAcquire
  split <;> infer_instance

instance (t : T) : Decidable (InRelease s t) := by
  unfold InRelease
  split <;> infer_instance

instance [Fintype T] [Fintype C] : Decidable (Stranded lock s) := by
  unfold Stranded
  infer_instance

instance (t : T) : Decidable (OnItsWay lock s t) := by
  unfold OnItsWay
  split <;> infer_instance

instance [Fintype T] [Fintype C] (a : Action T C) : Decidable (LeavesNoWaiter lock s a) := by
  unfold LeavesNoWaiter
  split <;> infer_instance

end Decidable

lemma Watched.not_stranded {lock : Addr} {s : State T C} (h : Watched lock s) :
    ¬ Stranded lock s := by
  rintro ⟨hfree, hasleep, hacq, hrel⟩
  obtain ⟨u, hu⟩ := h hfree hasleep
  cases hpc : s.pc u with
  | firstSwap | callWait =>
    obtain ⟨c, hc, -⟩ := hacq u (by simp only [InAcquire, hpc])
    rw [hpc] at hc
    cases hc
  | inWait c =>
    obtain ⟨d, hd, hsleep⟩ := hacq u (by simp only [InAcquire, hpc])
    simp only [OnItsWay, hpc] at hu
    rw [hpc] at hd
    cases hd
    exact hu hsleep
  | inWake w => exact hrel u (by simp only [InRelease, hpc])
  | idle | secondSwap | holding => simp only [OnItsWay, hpc] at hu

/-! ## The calls the lock makes -/

/-- A call made by `AcquireSRWLockExclusive` waits on the lock word and compares it with
the contended mark. -/
def WaitCall (lock : Addr) : Futex.Pc C → Prop
  | .waitLock a compare _ ms => a = lock ∧ compare = 2 ∧ ms = INFINITE
  | .waiting a ms => a = lock ∧ ms = INFINITE
  | .ended a _ | .closed a _ | .relock a _ => a = lock
  | .waitReturned _ => True
  | _ => False

/-- A call made by `ReleaseSRWLockExclusive` wakes one waiter of the lock word. -/
def WakeCall (lock : Addr) : Futex.Pc C → Prop
  | .wakeLock all a => all = false ∧ a = lock
  | .signalling _ | .wakeReturned => True
  | _ => False

/-- The lock word is one of the three marks, a thread inside a call of the futex model is
inside one the lock makes, and a queued entry belongs to such a thread. -/
structure LockInv (lock : Addr) (s : State T C) : Prop where
  queue : Futex.QueueInv s.futex
  ptr : s.ptr lock = 0 ∨ s.ptr lock = 1 ∨ s.ptr lock = 2
  wait : ∀ t c, s.pc t = .inWait c → WaitCall lock (s.futex.pc c)
  wake : ∀ t w, s.pc t = .inWake w → WakeCall lock (s.futex.pc w)
  queued : ∀ c q, c ∈ s.futex.queues q → ∃ t, s.pc t = .inWait c

/-- A free lock does not compare equal to the contended mark. -/
lemma compareAddr_zero_two (size : ℕ) : Futex.compareAddr 0 2 size = false := by
  unfold Futex.compareAddr
  split <;> rfl

variable [DecidableEq C] {lock : Addr}

lemma WaitCall.step {f f' : Futex.State C} {a : Futex.Action C} {c : C}
    (h : WaitCall lock (f.pc c)) (hcaller : a.caller = some c)
    (hf : Futex.step f a = some f') : WaitCall lock (f'.pc c) := by
  cases Futex.effect_of_step hf with
  | callWaitInvalid hpc | callWait hpc | callWakeNull hpc | callWake hpc | wakeSection hpc
  | setEvent hpc =>
    cases hcaller
    rw [hpc] at h
    exact h.elim
  | waitReturns | readRemoved | relockQueued | relockRemoved =>
    cases hcaller
    simp [WaitCall]
  | waitEnqueues hpc =>
    cases hcaller
    rw [hpc] at h
    simpa [WaitCall] using ⟨h.1, h.2.2⟩
  | endWait hpc =>
    cases hcaller
    rw [hpc] at h
    simpa [WaitCall] using h.1
  | closeHandle hpc | readQueued hpc =>
    cases hcaller
    rw [hpc] at h
    simpa [WaitCall] using h
  | store => cases hcaller

lemma WakeCall.step {f f' : Futex.State C} {a : Futex.Action C} {w : C}
    (h : WakeCall lock (f.pc w)) (hcaller : a.caller = some w)
    (hf : Futex.step f a = some f') : WakeCall lock (f'.pc w) := by
  have hpending : ∀ events : List (Futex.Pending C),
      WakeCall lock (if events = [] then .wakeReturned else .signalling events) := by
    intro events
    split_ifs <;> trivial
  cases Futex.effect_of_step hf with
  | callWaitInvalid hpc | callWait hpc | callWakeNull hpc | callWake hpc | waitReturns _ hpc
  | waitEnqueues hpc | endWait hpc | closeHandle hpc | readQueued hpc | readRemoved hpc
  | relockQueued hpc | relockRemoved hpc =>
    cases hcaller
    rw [hpc] at h
    exact h.elim
  | wakeSection | setEvent =>
    cases hcaller
    rw [Futex.setPending_eq, Futex.State.setPc_pc, Function.update_self]
    exact hpending _
  | store => cases hcaller

namespace LockInv

variable {s : State T C}

omit [DecidableEq C] in
lemma init (memory : Addr → Word) : LockInv lock (State.init lock memory : State T C) where
  queue := .init _
  ptr := Or.inl (by simp [State.ptr, State.init, Futex.State.init])
  wait _ _ h := by cases h
  wake _ _ h := by cases h
  queued _ _ h := by cases h

omit [DecidableEq C] in
/-- A store of one of the marks. -/
lemma setPtr (h : LockInv lock s) {v : Word} (hv : v = 0 ∨ v = 1 ∨ v = 2) :
    LockInv lock (s.setPtr lock v) where
  queue := ⟨h.queue.nodup, h.queue.queued, h.queue.entry, h.queue.noEntry, h.queue.wakeAddress⟩
  ptr := by rwa [setPtr_ptr]
  wait := h.wait
  wake := h.wake
  queued := h.queued

/-- The call `c` makes a step of the futex model. -/
lemma futexStep (h : LockInv lock s) {c : C} {a : Futex.Action C} {f : Futex.State C}
    (hcaller : a.caller = some c) (hf : Futex.step s.futex a = some f)
    (hqueued : ∀ q, c ∈ f.queues q → ∃ t, s.pc t = .inWait c) :
    LockInv lock { s with futex := f } where
  queue := h.queue.step hf
  ptr := by
    have hmem := Futex.memory_of_step hf hcaller
    simpa [State.ptr, hmem] using h.ptr
  wait u d hu := by
    by_cases hdc : d = c
    · subst hdc
      exact (h.wait u d hu).step hcaller hf
    · rw [Futex.pc_of_step hf fun he => hdc (Option.some.inj (he.symm.trans hcaller))]
      exact h.wait u d hu
  wake u d hu := by
    by_cases hdc : d = c
    · subst hdc
      exact (h.wake u d hu).step hcaller hf
    · rw [Futex.pc_of_step hf fun he => hdc (Option.some.inj (he.symm.trans hcaller))]
      exact h.wake u d hu
  queued d q hd := by
    rcases h.queue.mem_queues_of_step hf hd with hd' | hd'
    · exact h.queued d q hd'
    · obtain rfl := Option.some.inj (hcaller.symm.trans hd')
      exact hqueued q hd

variable [DecidableEq T]

omit [DecidableEq C] in
/-- A step of a thread outside the futex model. -/
lemma setPc (h : LockInv lock s) {t : T} {p : Pc C}
    (hwait : ∀ c, p = .inWait c → WaitCall lock (s.futex.pc c))
    (hwake : ∀ w, p = .inWake w → WakeCall lock (s.futex.pc w))
    (hqueued : ∀ c, s.pc t = .inWait c → ∀ q, c ∉ s.futex.queues q) :
    LockInv lock (s.setPc t p) where
  queue := h.queue
  ptr := h.ptr
  wait u c hu := by
    by_cases hut : u = t
    · subst hut
      exact hwait c (by simpa using hu)
    · exact h.wait u c (by simpa [hut] using hu)
  wake u w hu := by
    by_cases hut : u = t
    · subst hut
      exact hwake w (by simpa using hu)
    · exact h.wake u w (by simpa [hut] using hu)
  queued c q hc := by
    obtain ⟨u, hu⟩ := h.queued c q hc
    refine ⟨u, ?_⟩
    have hut : u ≠ t := by
      rintro rfl
      exact hqueued c hu q hc
    simpa [hut] using hu

variable {ptrSize : ℕ}

theorem step (h : LockInv lock s) {a : Action T C} {s' : State T C}
    (hstep : SRWLock.step lock ptrSize s a = some s') : LockInv lock s' := by
  cases effect_of_step hstep with
  | acquire hpc | firstSees hpc | firstWaits hpc | secondTakes hpc | secondMisses hpc
  | wakeReturned hpc =>
    exact h.setPc (fun _ he => by cases he) (fun _ he => by cases he)
      (fun _ he => by rw [hpc] at he; cases he)
  | firstTakes hpc | secondTakesNull hpc | secondMarks hpc | release hpc =>
    exact (h.setPtr (by decide)).setPc (fun _ he => by cases he) (fun _ he => by cases he)
      (fun _ he => by rw [setPtr_pc, hpc] at he; cases he)
  | @callWait t c f hpc hf =>
    have hpcs : f.pc c = .waitReturned false ∨ f.pc c = .waitLock lock 2 ptrSize INFINITE := by
      cases Futex.effect_of_step hf with
      | callWaitInvalid => exact Or.inl (by simp)
      | callWait => exact Or.inr (by simp)
    have hqueue : Futex.QueueInv f := h.queue.step hf
    have hnot : ∀ q, c ∉ f.queues q :=
      hqueue.not_mem_of_inWait_eq_none (by rcases hpcs with hp | hp <;> rw [hp] <;> rfl)
    refine (h.futexStep rfl hf fun q hc => absurd hc (hnot q)).setPc ?_ ?_ ?_
    · intro d he
      cases he
      rcases hpcs with hp | hp
      · simp [WaitCall, hp]
      · simp [WaitCall, hp]
    · exact fun _ he => by cases he
    · exact fun d he => absurd (hpc.symm.trans he) (by simp)
  | @inWait t c a f hpc hcaller hf => exact h.futexStep hcaller hf fun _ _ => ⟨t, hpc⟩
  | @inWake t w a f hpc hcaller hf =>
    refine h.futexStep hcaller hf fun q hw => ?_
    -- a wake call has no entry
    have hcall : WakeCall lock (f.pc w) := (h.wake t w hpc).step hcaller hf
    obtain ⟨_, hin, -⟩ := (h.queue.step hf).queued w q hw
    cases hp : f.pc w <;> simp [hp, WakeCall, Futex.Pc.inWait] at hcall hin
  | @waitReturned t c b hpc hret =>
    refine h.setPc (fun _ he => by cases he) (fun _ he => by cases he) fun d he => ?_
    obtain rfl : c = d := by simpa [hpc] using he
    exact h.queue.not_mem_of_inWait_eq_none (by rw [hret]; rfl)
  | @releaseWakes t w f hpc hmark hf =>
    have hpcs : f.pc w = .wakeReturned ∨ f.pc w = .wakeLock false lock := by
      cases Futex.effect_of_step hf with
      | callWakeNull => exact Or.inl (by simp)
      | callWake => exact Or.inr (by simp)
    have h0 : LockInv lock (s.setPtr lock 0) := h.setPtr (by decide)
    have hqueue : Futex.QueueInv f := h0.queue.step hf
    have hnot : ∀ q, w ∉ f.queues q :=
      hqueue.not_mem_of_inWait_eq_none (by rcases hpcs with hp | hp <;> rw [hp] <;> rfl)
    refine (h0.futexStep rfl hf fun q hw => absurd hw (hnot q)).setPc ?_ ?_ ?_
    · exact fun _ he => by cases he
    · intro d he
      cases he
      rcases hpcs with hp | hp
      · simp [WakeCall, hp]
      · simp [WakeCall, hp]
    · exact fun d he => absurd (hpc.symm.trans he) (by simp)

end LockInv

/-! ## A free lock is watched -/

namespace Watched

variable {s s' : State T C}

omit [DecidableEq C] in
lemma of_held (h : s.ptr lock ≠ 0) : Watched lock s := fun hfree => absurd hfree h

omit [DecidableEq C] in
lemma of_onItsWay {u : T} (hu : OnItsWay lock s u) : Watched lock s := fun _ _ => ⟨u, hu⟩

omit [DecidableEq C] in
/-- A step that puts nobody to sleep and takes nobody off its way. -/
lemma mono (h : (∃ t, Asleep lock s t) → ∃ u, OnItsWay lock s u)
    (hasleep : ∀ t, Asleep lock s' t → Asleep lock s t)
    (hway : ∀ u, OnItsWay lock s u → OnItsWay lock s' u) : Watched lock s' := by
  rintro - ⟨t, ht⟩
  obtain ⟨u, hu⟩ := h ⟨t, hasleep t ht⟩
  exact ⟨u, hway u hu⟩

omit [DecidableEq C] in
/-- A thread that was not on its way goes where it does not sleep. -/
lemma setPc [DecidableEq T] {t : T} {p : Pc C}
    (h : (∃ t, Asleep lock s t) → ∃ u, OnItsWay lock s u) (hway : ¬ OnItsWay lock s t)
    (hp : ∀ c, p ≠ .inWait c) : Watched lock (s.setPc t p) := by
  refine mono h ?_ ?_
  · intro u hu
    by_cases hut : u = t
    · subst hut
      obtain ⟨c, hc, -⟩ := hu
      exact absurd (by simpa using hc) (hp c)
    · simpa [Asleep, hut] using hu
  · intro u hu
    have hut : u ≠ t := fun he => hway (he ▸ hu)
    simpa [OnItsWay, hut] using hu

end Watched

variable [DecidableEq T] {ptrSize : ℕ}

omit [DecidableEq T] in
/-- Only a call that saw the contended mark goes to sleep. -/
lemma ptr_ne_zero_of_sleeping {f f' : Futex.State C} {a : Futex.Action C} {c : C}
    (hcall : WaitCall lock (f.pc c)) (hcaller : a.caller = some c)
    (hf : Futex.step f a = some f') (hsleep : Sleeping lock f' c) : f.memory lock ≠ 0 := by
  have hpc' := hsleep.1
  cases Futex.effect_of_step hf with
  | waitEnqueues hpc _ heq =>
    cases hcaller
    rw [hpc] at hcall
    obtain ⟨rfl, rfl, -⟩ := hcall
    intro h0
    rw [h0, compareAddr_zero_two] at heq
    cases heq
  | callWaitInvalid hpc | callWait hpc | callWakeNull hpc | callWake hpc | wakeSection hpc
  | setEvent hpc =>
    cases hcaller
    rw [hpc] at hcall
    exact hcall.elim
  | store => cases hcaller
  | _ =>
    cases hcaller
    simp at hpc'

omit [DecidableEq T] [DecidableEq C] in
/-- A queued call of the lock has its entry under the address of the lock. -/
lemma LockInv.address_eq {s : State T C} (h : LockInv lock s) {c : C} {q : Fin 256}
    (hc : c ∈ s.futex.queues q) : (s.futex.entry c).address = lock := by
  obtain ⟨t, ht⟩ := h.queued c q hc
  obtain ⟨a, hin, -, haddr⟩ := h.queue.queued c q hc
  have hcall := h.wait t c ht
  rw [haddr]
  cases hp : s.futex.pc c <;> simp_all [WaitCall, Futex.Pc.inWait]

omit [DecidableEq T] in
/-- The section of a wake either finds no thread asleep, or it takes the entry of one out of
the queue, which puts that thread on its way. -/
lemma Watched.wakeSection {s : State T C} (h : LockInv lock s) (w : C) :
    Watched lock { s with
      futex := (s.futex.wakeLoop w false lock).1.setPending w
        (s.futex.wakeLoop w false lock).2 } := by
  cases hfind : (s.futex.queues (getFutexQueue lock)).find?
    (fun c => (s.futex.entry c).address = lock) with
  | none =>
    have hloop : s.futex.wakeLoop w false lock = (s.futex, []) := by
      simp only [Futex.State.wakeLoop, Bool.false_eq_true, if_false,
        Futex.State.wakeByAddressSingle, hfind]
    rw [hloop]
    rintro - ⟨t, c, -, -, hc, -⟩
    have haddr := List.find?_eq_none.mp hfind c hc
    exact absurd (h.address_eq hc) (by simpa using haddr)
  | some c =>
    have hloop : s.futex.wakeLoop w false lock =
        (s.futex.dequeue w (getFutexQueue lock) c, [⟨(s.futex.entry c).event, c⟩]) := by
      simp only [Futex.State.wakeLoop, Bool.false_eq_true, if_false,
        Futex.State.wakeByAddressSingle, hfind]
    rw [hloop]
    obtain ⟨u, hu⟩ := h.queued c _ (List.mem_of_find?_eq_some hfind)
    refine Watched.of_onItsWay (u := u) ?_
    have hnot : c ∉ (s.futex.queues (getFutexQueue lock)).erase c :=
      (h.queue.nodup _).not_mem_erase
    simp only [OnItsWay, hu, Sleeping, Futex.setPending_eq, Futex.State.setPc_queues,
      Futex.State.dequeue_queues, Function.update_self]
    exact fun hsleep => hnot hsleep.2.1

omit [DecidableEq T] in
/-- A `SetEvent` puts nobody to sleep. -/
lemma Watched.setEvent {s : State T C} {w : C} {p : Futex.Pending C}
    {rest : List (Futex.Pending C)} (h : (∃ t, Asleep lock s t) → ∃ u, OnItsWay lock s u)
    (hpc : s.futex.pc w = .signalling (p :: rest)) :
    Watched lock { s with futex := (s.futex.signal p).setPending w rest } := by
  have hsleep : ∀ c, Sleeping lock ((s.futex.signal p).setPending w rest) c →
      Sleeping lock s.futex c := by
    rintro c ⟨hp, hq, hs⟩
    have hcw : c ≠ w := by
      rintro rfl
      rw [Futex.setPending_eq, Futex.State.setPc_pc, Function.update_self] at hp
      split_ifs at hp
    refine ⟨by simpa [Futex.setPending_eq, hcw] using hp, hq, fun hsig => hs ?_⟩
    exact hsig.signal _
  refine mono h ?_ ?_
  · rintro t ⟨c, hc, hs⟩
    exact ⟨c, hc, hsleep c hs⟩
  · intro u hu
    cases hp : s.pc u <;> simp only [OnItsWay, hp] at hu ⊢
    · exact fun hs => hu (hsleep _ hs)
    · rename_i w'
      have hne : w' ≠ w := by
        rintro rfl
        rw [hpc] at hu
        cases hu
      simpa [Futex.setPending_eq, hne] using hu

/-- **Step lemma for a watched lock.** -/
theorem Watched.step {s s' : State T C} {a : Action T C} (h : Watched lock s)
    (hl : LockInv lock s) (hok : LeavesNoWaiter lock s a)
    (hstep : SRWLock.step lock ptrSize s a = some s') : Watched lock s' := by
  have hl' : LockInv lock s' := hl.step hstep
  cases effect_of_step hstep with
  | @acquire t | @waitReturned t => exact .of_onItsWay (u := t) (by simp [OnItsWay])
  | firstTakes | secondTakesNull | secondMarks => exact .of_held (by simp)
  | firstSees _ hheld | firstWaits _ hheld | secondMisses _ hheld => exact .of_held hheld
  | secondTakes hpc hfree => exact .setPc (h hfree) (by simp [OnItsWay, hpc]) (by simp)
  | @callWait t c f hpc hf =>
    -- its entry is not queued yet
    refine .of_onItsWay (u := t) ?_
    have hnot : ¬ Sleeping lock f c := by
      intro hs
      have hp := hs.1
      cases Futex.effect_of_step hf <;> simp at hp
    simpa [OnItsWay] using hnot
  | @inWait t c a f hpc hcaller hf =>
    by_cases hs : Sleeping lock f c
    · -- it falls asleep only if it finds the contended mark
      have hne := ptr_ne_zero_of_sleeping (hl.wait t c hpc) hcaller hf hs
      refine .of_held ?_
      rwa [State.ptr, Futex.memory_of_step hf hcaller]
    · exact .of_onItsWay (u := t) (by simpa [OnItsWay, hpc] using hs)
  | @inWake t w a f hpc hcaller hf =>
    have hcall := hl.wake t w hpc
    have hmem := Futex.memory_of_step hf hcaller
    cases Futex.effect_of_step hf with
    | wakeSection hp =>
      cases hcaller
      rw [hp] at hcall
      obtain ⟨rfl, rfl⟩ := hcall
      exact .wakeSection hl w
    | setEvent hp =>
      -- the thread that is signalled is on its way from here
      cases hcaller
      intro hfree
      exact Watched.setEvent (h hfree) hp hfree
    | callWaitInvalid hp | callWait hp | callWakeNull hp | callWake hp | waitReturns _ hp
    | waitEnqueues hp | endWait hp | closeHandle hp | readQueued hp | readRemoved hp
    | relockQueued hp | relockRemoved hp =>
      -- steps that a wake call does not make
      cases hcaller
      rw [hp] at hcall
      exact hcall.elim
    | store => cases hcaller
  | @releaseWakes t w f hpc hmark hf =>
    cases Futex.effect_of_step hf with
    | callWakeNull _ hnull =>
      -- nobody waits on the address `NULL`
      subst hnull
      rintro - ⟨u, c, -, hpc, -⟩
      exact absurd rfl (hl'.queue.entry c 0 (by rw [hpc]; rfl)).1
    | callWake => exact .of_onItsWay (u := t) (by simp [OnItsWay])
  | @release t w hpc hmark =>
    -- the release that wakes nobody: this is what the condition is about
    have hway : (∃ u, Asleep lock s u) → ∃ u, OnItsWay lock s u := by
      rcases hl.ptr with hp | hp | hp
      · exact h hp
      · exact hok hp
      · exact absurd hp hmark
    have hstore : (∃ u, Asleep lock (s.setPtr lock 0) u) →
        ∃ u, OnItsWay lock (s.setPtr lock 0) u := hway
    refine .setPc hstore ?_ (by simp)
    simp [OnItsWay, hpc]
  | wakeReturned hpc hret =>
    intro hfree
    refine Watched.setPc (h hfree) ?_ (by simp) hfree
    simp [OnItsWay, hpc, hret]

/-- **No stranded waiter.** No state of a run of any number of threads has the lock free
with a thread asleep, all others in `AcquireSRWLockExclusive` asleep too and none
releasing, if every release of the run that finds the plain mark `1` with a thread asleep
has another thread on its way. -/
theorem not_stranded_of_leavesNoWaiter (memory : Addr → Word) (as : List (Action T C))
    (hok : EveryStep (step lock ptrSize) (fun s a _ => LeavesNoWaiter lock s a)
      (State.init lock memory) as) :
    EveryState (step lock ptrSize) (fun s => ¬ Stranded lock s) (State.init lock memory) as := by
  have hinv : EveryState (step lock ptrSize) (fun s => Watched lock s ∧ LockInv lock s)
      (State.init lock memory) as := by
    refine EveryStep.everyState ?_ hok ⟨?_, .init memory⟩
    · rintro s a s' ⟨hw, hl⟩ hok hstep
      exact ⟨hw.step hl hok hstep, hl.step hstep⟩
    · rintro - ⟨t, c, hc, -⟩
      cases hc
  exact hinv.mono fun s h => h.1.not_stranded

/-- Thread 0 holds the lock, thread 1 marks it and sleeps as call 0 until thread 0 releases;
thread 1 is woken, takes the lock and releases it. -/
def handOverRun : List (Action (Fin 2) (Fin 3)) :=
  [.acquire 0, .firstSwap 0,
   .acquire 1, .firstSwap 1, .secondSwap 1, .callWait 1 0, .futex 1 (.waitSection 0 1),
   .release 0 1, .futex 0 (.wakeSection 1), .futex 0 (.setEvent 1), .wakeReturned 0,
   .futex 1 (.endWait 0 .object0), .futex 1 (.closeHandle 0), .futex 1 (.readAddress 0),
   .waitReturned 1, .firstSwap 1, .release 1 2]

theorem not_stranded_handOverRun :
    EveryState (step 16 8) (fun s => ¬ Stranded 16 s) (State.init 16 fun _ => 0) handOverRun :=
  not_stranded_of_leavesNoWaiter _ _ (by decide)

/-- As in `handOverRun`, with a thread 2 that sees the mark and sleeps behind thread 1. -/
def strandedRun : List (Action (Fin 3) (Fin 4)) :=
  [.acquire 0, .firstSwap 0,
   .acquire 1, .firstSwap 1, .secondSwap 1, .callWait 1 0, .futex 1 (.waitSection 0 1),
   .acquire 2, .firstSwap 2, .callWait 2 1, .futex 2 (.waitSection 1 2),
   .release 0 2, .futex 0 (.wakeSection 2), .futex 0 (.setEvent 2), .wakeReturned 0,
   .futex 1 (.endWait 0 .object0), .futex 1 (.closeHandle 0), .futex 1 (.readAddress 0),
   .waitReturned 1, .firstSwap 1, .release 1 3]

/-- Thread 1 takes the lock with the plain mark and releases it without a wake: the lock is
free, thread 2 sleeps, and the other two are gone. -/
theorem waiter_stranded :
    ∃ s, run (step 16 8) (State.init 16 fun _ => 0) strandedRun = some s ∧ Stranded 16 s ∧
      Asleep 16 s 2 ∧ s.pc 0 = .idle ∧ s.pc 1 = .idle :=
  ⟨_, rfl, by decide⟩

end SRWLock
end ClamavWin32
