import ClamavWin32.Synchapi.FutexTheorems
import Mathlib.Data.Fintype.Basic

/-!
# What becomes of a wake

A wake call removes an entry in one step and signals its event in a later one; the call
that owns the entry may time out and close the event in between, or before. Two things can
go wrong, and each has a condition on the steps of a run under which it does not:

* the wake is lost on a call that reports a timeout (`WakeKept`, `WakeInTime`);
* `SetEvent` is applied to a handle that is closed, or reused (`SignalsOwner`,
  `SignalsOpenEvent`).

`lostWakeRun` and `staleSignalRun` are runs of the code without the conditions.
-/

namespace ClamavWin32
namespace Futex

open TransitionSystem

variable {C : Type*} [DecidableEq C]

/-! ## A removed entry belongs to a call that returns `TRUE` -/

/-- A call whose entry a wake removed returns `TRUE`: it is still waiting and the signal
has arrived or is on its way, or its wait has ended with the verdict `TRUE`. -/
def WakeKept (s : State C) : Prop :=
  ∀ c, s.removedBy c ≠ none →
    (∃ a ms, s.pc c = .waiting a ms ∧ (s.events.Signalled (s.entry c).event ∨
      ∃ w, (⟨(s.entry c).event, c⟩ : Pending C) ∈ (s.pc w).pending)) ∨
    (s.pc c).verdict = some true

/-- A wake removes only entries of calls whose wait has not timed out, and a wait times
out only while its entry is queued. -/
def WakeInTime (s : State C) : Action C → Prop
  | .wakeSection w => ∀ c, Removes s w c → (s.pc c).verdict ≠ some false
  | .endWait c .timeout => (s.entry c).address ≠ 0
  | _ => True

/-- No call whose entry a wake removed has the verdict `FALSE`. -/
def NoneTimedOut (s : State C) : Prop :=
  ∀ c, s.removedBy c ≠ none → (s.pc c).verdict ≠ some false

omit [DecidableEq C] in
/-- A removed call without the verdict `FALSE` is waiting for its signal or returns
`TRUE`. -/
lemma NoneTimedOut.wakeKept {s : State C} (h : NoneTimedOut s) (hq : QueueInv s)
    (he : EventInv s) : WakeKept s := by
  intro c hr
  have hv := h c hr
  have hent : ¬ (s.pc c).NoEntry := fun hn => hr (hq.noEntry c hn)
  cases hpc : s.pc c with
  | waiting a ms => exact Or.inl ⟨a, ms, rfl, he.woken c a ms hpc hr⟩
  | ended a r | closed a r | relock a r =>
    rw [hpc] at hv
    exact Or.inr (by simpa [Pc.verdict] using hv)
  | waitReturned b =>
    rw [hpc] at hv
    exact Or.inr (by simpa [Pc.verdict] using hv)
  | notCalled | waitLock | wakeLock | signalling | wakeReturned =>
    rw [hpc] at hent
    exact absurd trivial hent

/-- A step of one call that keeps its verdict, or gives one to a call with its entry
queued. -/
lemma NoneTimedOut.setPc {s : State C} (h : NoneTimedOut s) {c : C} {p : Pc C}
    (hp : s.removedBy c ≠ none → p.verdict = some false → (s.pc c).verdict = some false) :
    NoneTimedOut (s.setPc c p) := by
  intro d hr hv
  by_cases hdc : d = c
  · subst hdc
    exact h d hr (hp hr (by simpa using hv))
  · exact h d hr (by simpa [hdc] using hv)

/-- The section of a wake call that removes only entries of calls that have not timed
out. -/
lemma NoneTimedOut.wakeLoop {s : State C} (h : NoneTimedOut s) (hq : QueueInv s) {w : C}
    {all : Bool} {address : Addr}
    (hkept : ∀ c, Claimed s all address c → (s.pc c).verdict ≠ some false) :
    NoneTimedOut (s.wakeLoop w all address).1 := by
  have hremove : ∀ (t : State C) (c : C), t.pc = s.pc → NoneTimedOut t →
      Claimed s all address c → NoneTimedOut (t.dequeue w (getFutexQueue address) c) := by
    intro t c hpcs ht hcl d hr
    by_cases hdc : d = c
    · subst hdc
      exact fun hv => hkept d hcl (hpcs ▸ hv)
    · exact ht d (by simpa [hdc] using hr)
  refine (wakeLoop_induction (P := fun t _ => t.pc = s.pc ∧ NoneTimedOut t)
    (hq.nodup _) ⟨rfl, h⟩ ?_ ?_).2
  · rintro t buf c ⟨hpcs, ht⟩ - - - hcl
    exact ⟨hpcs, hremove t c hpcs ht hcl⟩
  · rintro t buf c ⟨hpcs, ht⟩ - - - hcl
    exact ⟨hpcs, hremove t c hpcs ht hcl⟩

/-- **Step lemma for kept wakes.** -/
lemma NoneTimedOut.step {s s' : State C} {a : Action C} (h : NoneTimedOut s)
    (hq : QueueInv s) (hok : WakeInTime s a) (hstep : Futex.step s a = some s') :
    NoneTimedOut s' := by
  cases effect_of_step hstep with
  | callWaitInvalid hpc | callWait hpc | callWakeNull hpc | callWake hpc =>
    exact h.setPc fun hr _ => absurd (hq.noEntry _ (by rw [hpc]; trivial)) hr
  | waitReturns b hpc =>
    exact h.setPc fun hr _ => absurd (hq.noEntry _ (by rw [hpc]; trivial)) hr
  | @waitEnqueues c created =>
    have h' : NoneTimedOut { s with events := s.events.create created c } := h
    exact NoneTimedOut.setPc h' fun _ hv => by cases hv
  | @endWait c r addr ms hpc =>
    have h' : NoneTimedOut { s with events := r.after s.events (s.entry c).event } := h
    refine h'.setPc fun hr hv => ?_
    -- only a timeout gives the verdict `FALSE`, and then the entry is still queued
    obtain rfl : r = .timeout := by simpa [Pc.verdict] using hv
    obtain ⟨-, ⟨-, -, hnone⟩ | ⟨h0, -⟩⟩ := hq.entry c addr (by rw [hpc]; rfl)
    · exact absurd hnone hr
    · exact absurd h0 hok
  | @closeHandle c _ _ hpc =>
    have h' : NoneTimedOut { s with events := s.events.close (s.entry c).event } := h
    exact h'.setPc fun _ hv => by
      rw [show ({ s with events := s.events.close (s.entry c).event } : State C).pc = s.pc
        from rfl, hpc]
      exact hv
  | readQueued hpc | readRemoved hpc | relockRemoved hpc =>
    exact h.setPc fun _ hv => by rw [hpc]; exact hv
  | @relockQueued c addr _ hpc =>
    have h' : NoneTimedOut (s.listRemove (getFutexQueue addr) c) := h
    exact h'.setPc fun _ hv => by rw [State.listRemove_pc, hpc]; exact hv
  | @wakeSection w all addr hpc =>
    have hok' : ∀ c, Claimed s all addr c → (s.pc c).verdict ≠ some false :=
      fun c hc => hok c ((removes_iff hpc).mpr hc)
    rw [setPending_eq]
    exact (h.wakeLoop hq hok').setPc fun _ hv => by split_ifs at hv <;> cases hv
  | @setEvent w p rest hpc =>
    have h' : NoneTimedOut (s.signal p) := h
    rw [setPending_eq]
    exact h'.setPc fun _ hv => by split_ifs at hv <;> cases hv
  | store => exact h

/-- A step that breaks the condition leaves a removed call with the verdict `FALSE`. -/
lemma wakeInTime_of_wakeKept {s s' : State C} {a : Action C} (hq : QueueInv s)
    (hstep : Futex.step s a = some s') (h : WakeKept s') : WakeInTime s a := by
  have hverdict : ∀ c, s'.removedBy c ≠ none → (s'.pc c).verdict ≠ some false := by
    intro c hr hv
    rcases h c hr with ⟨a, ms, hpc, -⟩ | hv'
    · rw [hpc] at hv
      cases hv
    · rw [hv] at hv'
      cases hv'
  cases effect_of_step hstep with
  | @wakeSection w all addr hpc =>
    intro c hc hv
    have hcl := (removes_iff hpc).mp hc
    have hcw : c ≠ w := by
      rintro rfl
      rw [hpc] at hv
      cases hv
    refine hverdict c ?_ ?_
    · simp [setPending_eq, hcl.removedBy (hq.nodup _)]
    · simpa [setPending_eq, hcw, wakeLoop_pc] using hv
  | @endWait c r addr ms hpc =>
    cases r with
    | timeout =>
      intro h0
      obtain ⟨ha, ⟨haddr, -⟩ | ⟨-, hr⟩⟩ := hq.entry c addr (by rw [hpc]; rfl)
      · exact ha (haddr.symm.trans h0)
      · exact hverdict c hr (by simp [Pc.verdict])
    | object0 | failed => trivial
  | _ => trivial

/-- **Kept wakes.** In a run of any calls of `WaitOnAddress`, `WakeByAddressSingle` and
`WakeByAddressAll`, every entry a wake removes belongs to a call that returns `TRUE`
exactly when each wake removes only entries of calls that have not timed out and each wait
times out only with its entry queued. -/
theorem wakeKept_iff_wakeInTime (memory : Addr → Word) (as : List (Action C)) :
    EveryState step WakeKept (State.init memory) as ↔
      EveryStep step (fun s a _ => WakeInTime s a) (State.init memory) as := by
  have hqueue : EveryState step QueueInv (State.init memory : State C) as :=
    everyState_of_invariant (fun _ _ _ hq hstep => hq.step hstep) (QueueInv.init memory) as
  constructor
  · intro h
    exact (h.and hqueue).everyStep fun s a s' ⟨_, hq⟩ hstep ⟨hkept, _⟩ =>
      wakeInTime_of_wakeKept hq hstep hkept
  · intro hok
    have hinv : EveryState step (fun s => QueueInv s ∧ EventInv s ∧ NoneTimedOut s)
        (State.init memory) as := by
      refine EveryStep.everyState ?_ hok ⟨QueueInv.init memory, EventInv.init memory, ?_⟩
      · rintro s a s' ⟨hq, he, hn⟩ hok hstep
        exact ⟨hq.step hstep, he.step hq hstep, hn.step hq hok hstep⟩
      · intro c hr
        exact absurd rfl hr
    exact hinv.mono fun s ⟨hq, he, hn⟩ => hn.wakeKept hq he

/-- Call 0 waits on an address with a timeout of ten milliseconds and call 1 without one.
The wait of call 0 times out; before it takes its entry out of the queue, the wake call 2
removes that entry. -/
def lostWakeRun : List (Action (Fin 3)) :=
  [.callWait 0 16 0 4 10, .waitSection 0 1, .callWait 1 16 0 4 INFINITE, .waitSection 1 2,
   .endWait 0 .timeout, .callWake 2 false 16, .wakeSection 2, .setEvent 2, .closeHandle 0,
   .readAddress 0]

/-- The wake is spent on call 0, which reports a timeout, and call 1 sleeps on. -/
theorem wake_lost_on_timeout :
    ∃ s, run step (State.init fun _ => 0) lostWakeRun = some s ∧ ¬ WakeKept s ∧
      s.removedBy 0 = some 2 ∧ s.pc 0 = .waitReturned false ∧
      1 ∈ s.queues (getFutexQueue 16) ∧ s.pc 1 = .waiting 16 INFINITE ∧
      ¬ s.events.Signalled (s.entry 1).event := by
  obtain ⟨s, hrun, hs⟩ : ∃ s, run step (State.init fun _ => 0) lostWakeRun = some s ∧
      s.removedBy 0 = some 2 ∧ s.pc 0 = .waitReturned false ∧
      1 ∈ s.queues (getFutexQueue 16) ∧ s.pc 1 = .waiting 16 INFINITE ∧
      ¬ s.events.Signalled (s.entry 1).event := ⟨_, rfl, by decide⟩
  refine ⟨s, hrun, fun hkept => ?_, hs⟩
  rcases hkept 0 (by rw [hs.1]; decide) with ⟨a, ms, hpc, -⟩ | hv
  · rw [hs.2.1] at hpc
    cases hpc
  · rw [hs.2.1] at hv
    cases hv

/-! ## An event is signalled only while its owner has it open -/

/-- Every `SetEvent` so far was applied to the event of the call it was meant for. -/
def SignalsOwner (s : State C) : Prop := ∀ g ∈ s.signals, g.hit = some g.call

/-- A wake removes only entries of calls that have their event open, and a call closes its
event only when no wake still has to signal it. -/
def SignalsOpenEvent (s : State C) : Action C → Prop
  | .wakeSection w => ∀ c, Removes s w c → (s.pc c).OpenEvent
  | .closeHandle c => ∀ w, ∀ p ∈ (s.pc w).pending, p.call ≠ c
  | _ => True

instance [Fintype C] (s : State C) (a : Action C) : Decidable (SignalsOpenEvent s a) := by
  unfold SignalsOpenEvent
  split <;> infer_instance

/-- Every signal made or still to be made reaches the call it is meant for. -/
structure SignalInv (s : State C) : Prop where
  made : SignalsOwner s
  pending : ∀ w, ∀ p ∈ (s.pc w).pending, s.events.owner p.event = some p.call

namespace SignalInv

variable {s : State C}

/-- A step that keeps the owners of the events with signals on their way. -/
lemma setPc (h : SignalInv s) {c : C} {p : Pc C} (evs : EventTable C)
    (hpend : ∀ x ∈ p.pending, x ∈ (s.pc c).pending)
    (howner : ∀ w, ∀ x ∈ (s.pc w).pending, s.events.owner x.event = some x.call →
      evs.owner x.event = some x.call) :
    SignalInv ({ s with events := evs }.setPc c p) := by
  refine ⟨h.made, ?_⟩
  intro w x hx
  by_cases hwc : w = c
  · subst hwc
    have hx' := hpend x (by simpa using hx)
    exact howner w x hx' (h.pending w x hx')
  · have hx' : x ∈ (s.pc w).pending := by simpa [hwc] using hx
    exact howner w x hx' (h.pending w x hx')

/-- The section of a wake call: the signals that it makes on the spot, and those that it
leaves to be made, are for the owners of the events. -/
lemma wakeLoop (h : SignalInv s) (hq : QueueInv s) (he : EventInv s) {w : C} {all : Bool}
    {address : Addr} (hopen : ∀ c, Claimed s all address c → (s.pc c).OpenEvent) :
    (∀ h', (s.wakeLoop w all address).1.events.owner h' = s.events.owner h') ∧
      SignalsOwner (s.wakeLoop w all address).1 ∧
      ∀ p ∈ (s.wakeLoop w all address).2, s.events.owner p.event = some p.call := by
  refine wakeLoop_induction (P := fun t buf =>
    (∀ h', t.events.owner h' = s.events.owner h') ∧ SignalsOwner t ∧
    ∀ p ∈ buf, s.events.owner p.event = some p.call) (hq.nodup _) ?_ ?_ ?_
  · exact ⟨fun _ => rfl, h.made, fun _ hp => by cases hp⟩
  · -- the event goes into the buffer
    rintro t buf c ⟨ho, hm, hb⟩ - hent - hcl
    refine ⟨ho, hm, fun p hp => ?_⟩
    rcases List.mem_append.mp hp with hp | hp
    · exact hb p hp
    · rw [List.mem_singleton.mp hp, hent]
      exact he.owned c (hopen c hcl)
  · -- the buffer is full, and the event is set at once
    rintro t buf c ⟨ho, hm, hb⟩ - hent - hcl
    refine ⟨fun h' => by simpa using ho h', fun g hg => ?_, hb⟩
    rcases List.mem_append.mp hg with hg | hg
    · exact hm g hg
    · rw [List.mem_singleton.mp hg, hent]
      exact (ho _).trans (he.owned c (hopen c hcl))

/-- A wake call is left with `events` to be set. -/
lemma setPending {t : State C} {w : C} {events : List (Pending C)} (hmade : SignalsOwner t)
    (hothers : ∀ w', w' ≠ w → ∀ p ∈ (t.pc w').pending, t.events.owner p.event = some p.call)
    (hevents : ∀ p ∈ events, t.events.owner p.event = some p.call) :
    SignalInv (t.setPending w events) := by
  rw [setPending_eq]
  refine ⟨hmade, ?_⟩
  intro w' x hx
  by_cases hww : w' = w
  · subst hww
    rw [State.setPc_pc, Function.update_self, pending_setPending] at hx
    exact hevents x hx
  · exact hothers w' hww x (by simpa [hww] using hx)

/-- **Step lemma for the signals.** -/
lemma step (h : SignalInv s) (hq : QueueInv s) (he : EventInv s) {a : Action C}
    {s' : State C} (hok : SignalsOpenEvent s a) (hstep : Futex.step s a = some s') :
    SignalInv s' := by
  cases effect_of_step hstep with
  | callWaitInvalid | callWait | callWakeNull | callWake =>
    exact h.setPc s.events (fun _ hx => by cases hx) fun _ _ _ ho => ho
  | waitReturns | readQueued | readRemoved | relockRemoved =>
    exact h.setPc s.events (fun _ hx => by cases hx) fun _ _ _ ho => ho
  | @relockQueued c addr =>
    have h' : SignalInv (s.listRemove (getFutexQueue addr) c) := ⟨h.made, h.pending⟩
    exact h'.setPc s.events (fun _ hx => by cases hx) fun _ _ _ ho => ho
  | @waitEnqueues c created addr _ _ _ _ _ _ _ hfree =>
    have h' : SignalInv (s.enqueue c addr created) := ⟨h.made, h.pending⟩
    exact h'.setPc (s.events.create created c) (fun _ hx => by cases hx)
      fun _ _ _ ho => EventTable.owner_create_of_owner hfree ho
  | @endWait c r =>
    refine h.setPc _ (fun _ hx => by cases hx) fun _ x _ ho => ?_
    cases r <;> simpa [WaitResult.after] using ho
  | @closeHandle c addr r hpc =>
    refine h.setPc _ (fun _ hx => by cases hx) fun w x hx ho => ?_
    -- the event that is closed is none that is still to be signalled
    have hne : x.event ≠ (s.entry c).event := by
      intro heq
      have hown := he.owned c (by rw [hpc]; trivial)
      rw [← heq, ho, Option.some.injEq] at hown
      exact hok w x hx hown
    exact (EventTable.owner_close_of_ne _ hne).trans ho
  | @wakeSection w all addr hpc =>
    have hok' : ∀ c, Claimed s all addr c → (s.pc c).OpenEvent :=
      fun c hc => hok c ((removes_iff hpc).mpr hc)
    obtain ⟨howner, hmade, hbuf⟩ := h.wakeLoop hq he (w := w) hok'
    refine setPending hmade (fun w' _ x hx => ?_) fun x hx => ?_
    · exact (howner _).trans (h.pending w' x (by simpa [wakeLoop_pc] using hx))
    · exact (howner _).trans (hbuf x hx)
  | @setEvent w p rest hpc =>
    have hnext : p ∈ (s.pc w).pending := by simp [hpc, Pc.pending]
    refine setPending (fun g hg => ?_) (fun w' _ x hx => ?_) fun x hx => ?_
    · rcases List.mem_append.mp hg with hg | hg
      · exact h.made g hg
      · rw [List.mem_singleton.mp hg]
        exact h.pending w p hnext
    · rw [State.signal_events, EventTable.owner_signal]
      exact h.pending w' x (by simpa using hx)
    · rw [State.signal_events, EventTable.owner_signal]
      exact h.pending w x (by rw [hpc]; exact List.mem_cons_of_mem _ hx)
  | store => exact ⟨h.made, h.pending⟩

end SignalInv

/-- In every run of `WaitOnAddress` and wake calls in which each wake removes only entries
of calls that have their event open, and no call closes an event that a wake still has to
signal, every `SetEvent` is applied to the event of the call it was meant for. -/
theorem signalsOwner_of_signalsOpenEvent (memory : Addr → Word) (as : List (Action C))
    (hok : EveryStep step (fun s a _ => SignalsOpenEvent s a) (State.init memory) as) :
    EveryState step SignalsOwner (State.init memory) as := by
  have hinv : EveryState step (fun s => QueueInv s ∧ EventInv s ∧ SignalInv s)
      (State.init memory) as := by
    refine EveryStep.everyState ?_ hok ⟨QueueInv.init memory, EventInv.init memory, ?_⟩
    · rintro s a s' ⟨hq, he, hs⟩ hok hstep
      exact ⟨hq.step hstep, he.step hq hstep, hs.step hq he hok hstep⟩
    · exact ⟨fun g hg => (List.not_mem_nil hg).elim, fun w p hp => (List.not_mem_nil hp).elim⟩
  exact hinv.mono fun s h => h.2.2.made

/-- A call waits, a wake removes its entry and signals it, and the call returns: three
calls of which the last is never made. -/
def deliveredRun : List (Action (Fin 3)) :=
  [.callWait 0 16 0 4 10, .waitSection 0 1, .callWake 1 false 16, .wakeSection 1,
   .setEvent 1, .endWait 0 .object0, .closeHandle 0, .readAddress 0]

theorem signalsOwner_deliveredRun :
    EveryState step SignalsOwner (State.init fun _ => 0) deliveredRun :=
  signalsOwner_of_signalsOpenEvent _ _ (by decide)

/-- The wait of call 0 times out and call 0 closes its event before the wake call 2, which
has already removed its entry, signals it; meanwhile call 1 is given the same handle. -/
def staleSignalRun : List (Action (Fin 3)) :=
  [.callWait 0 16 0 4 10, .waitSection 0 1, .callWake 2 false 16, .wakeSection 2,
   .endWait 0 .timeout, .closeHandle 0, .callWait 1 32 0 4 INFINITE, .waitSection 1 1,
   .setEvent 2]

/-- The signal meant for call 0 reaches the event of call 1, which waits on another
address. -/
theorem closed_handle_signalled :
    ∃ s, run step (State.init fun _ => 0) staleSignalRun = some s ∧ ¬ SignalsOwner s ∧
      s.signals = [⟨0, some 1⟩] ∧ s.removedBy 1 = none ∧
      s.events.Signalled (s.entry 1).event := by
  obtain ⟨s, hrun, hs⟩ : ∃ s, run step (State.init fun _ => 0) staleSignalRun = some s ∧
      s.signals = [⟨0, some 1⟩] ∧ s.removedBy 1 = none ∧
      s.events.Signalled (s.entry 1).event := ⟨_, rfl, by decide⟩
  refine ⟨s, hrun, fun howner => ?_, hs⟩
  have h01 := howner ⟨0, some 1⟩ (by rw [hs.1]; exact List.mem_singleton_self _)
  exact absurd h01 (by decide)

end Futex
end ClamavWin32
