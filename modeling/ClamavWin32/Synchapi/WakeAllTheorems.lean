import ClamavWin32.Synchapi.SignalCount

/-!
# `WakeByAddressAll` leaves nobody behind

The comparison of a wait and the entry in its queue are one section, so a wait that compared
before a change of the value is queued, or has left its queue, when the wake call that
follows the change goes through it.

* `WaitedBefore` is stable, and no call that waited before is queued again;
* `LeavesNobody`: what a wake call on an address has done when it returns;
* `wakeByAddressAll_leaves_nobody`: it holds in every run of waits without a timeout.
-/

namespace ClamavWin32
namespace Futex

open TransitionSystem

variable {C : Type*} [DecidableEq C]

/-! ## The property -/

/-- A call of `WaitOnAddress` that has made its comparison: it is in its wait on the
address, or it has returned. -/
def WaitedBefore (address : Addr) (p : Pc C) : Prop :=
  p.inWait = some address ∨ ∃ b, p = .waitReturned b

/-- What has become, in the state `s`, of the calls that had made their comparison in the
state `s₁`, and of the entries that the wake call `w` has removed. -/
structure LeavesNobody (s₁ s : State C) (w : C) (address : Addr) : Prop where
  /-- None of the calls is in a queue. -/
  notQueued : ∀ c, WaitedBefore address (s₁.pc c) → ∀ q, c ∉ s.queues q
  /-- There was one `SetEvent` for each of the entries, and on its event. -/
  signalled : ∀ c, s.removedBy c = some w →
    s.signals.filter (fun g => g.call = c ∨ g.hit = some c) = [⟨c, some c⟩]

/-- A step of a wake call leaves the entries for other addresses in their queues and in
their order. -/
def KeepsOthers (s : State C) (a : Action C) (s' : State C) : Prop :=
  match a with
  | .wakeSection w => ∀ all address, s.pc w = .wakeLock all address → ∀ q,
      (s'.queues q).filter (fun d => (s.entry d).address ≠ address) =
        (s.queues q).filter fun d => (s.entry d).address ≠ address
  | .callWake .. | .setEvent _ => s'.queues = s.queues
  | _ => True

section Steps

variable {s s' : State C} {a : Action C} {c w : C} {address : Addr}

/-! ## Entries for other addresses -/

lemma filter_erase_of_not {p : C → Bool} (l : List C) (hc : p c = false) :
    (l.erase c).filter p = l.filter p := by
  induction l with
  | nil => rfl
  | cons d l ih =>
    by_cases hdc : d = c
    · subst hdc
      rw [List.erase_cons_head, List.filter_cons_of_neg (by rw [hc]; decide)]
    · rw [List.erase_cons_tail (by simpa using hdc)]
      by_cases hd : p d = true
      · rw [List.filter_cons_of_pos hd, List.filter_cons_of_pos hd, ih]
      · rw [List.filter_cons_of_neg hd, List.filter_cons_of_neg hd, ih]

lemma QueueInv.keepsOthers (h : QueueInv s) (hstep : Futex.step s a = some s') :
    KeepsOthers s a s' := by
  cases effect_of_step hstep with
  | @wakeSection w all address hpc =>
    intro all' address' hpc' q
    rw [hpc] at hpc'
    cases hpc'
    -- each removal is of an entry for the address
    have hremoval : ∀ (t : State C) (c : C), Claimed s all address c →
        ((t.dequeue w (getFutexQueue address) c).queues q).filter
            (fun d => (s.entry d).address ≠ address) =
          (t.queues q).filter fun d => (s.entry d).address ≠ address := by
      intro t c hclaimed
      by_cases hq : q = getFutexQueue address
      · subst hq
        rw [State.dequeue_queues, Function.update_self]
        exact filter_erase_of_not _ (by simp [Claimed.address_eq hclaimed])
      · rw [State.dequeue_queues, Function.update_of_ne hq]
    exact wakeLoop_induction
      (P := fun t _ => (t.queues q).filter (fun d => (s.entry d).address ≠ address) =
        (s.queues q).filter fun d => (s.entry d).address ≠ address) (h.nodup _) rfl
      (fun t _ c ht _ _ _ hclaimed => (hremoval t c hclaimed).trans ht)
      (fun t _ c ht _ _ _ hclaimed => (hremoval t c hclaimed).trans ht)
  | callWakeNull | callWake | setEvent => rfl
  | _ => trivial

/-! ## Calls that have made their comparison -/

omit [DecidableEq C] in
lemma not_waitedBefore_of_noEntry {p : Pc C} (hp : p.NoEntry) : ¬WaitedBefore address p := by
  rintro (hwait | ⟨b, rfl⟩)
  · cases p <;> first | exact hp | cases hwait
  · exact hp

/-- A call that has made its comparison does not make another. -/
lemma WaitedBefore.step (h : WaitedBefore address (s.pc c)) (hstep : Futex.step s a = some s') :
    WaitedBefore address (s'.pc c) := by
  by_cases hcaller : a.caller = some c
  · have hstarts : ∀ {p : Pc C}, s.pc c = p → p.NoEntry → WaitedBefore address (s'.pc c) := by
      intro p hpc hp
      rw [hpc] at h
      exact absurd h (not_waitedBefore_of_noEntry hp)
    cases effect_of_step hstep with
    | store => cases hcaller
    | callWaitInvalid hpc | callWait hpc | callWakeNull hpc | callWake hpc | waitReturns b hpc
    | waitEnqueues hpc | wakeSection hpc | setEvent hpc =>
      cases hcaller
      exact hstarts hpc trivial
    | endWait hpc | closeHandle hpc | readQueued hpc =>
      cases hcaller
      rw [hpc] at h
      rw [State.setPc_pc, Function.update_self]
      rcases h with hwait | ⟨b, hb⟩
      · exact Or.inl hwait
      · cases hb
    | readRemoved hpc | relockQueued hpc | relockRemoved hpc =>
      cases hcaller
      rw [State.setPc_pc, Function.update_self]
      exact Or.inr ⟨_, rfl⟩
  · rw [pc_of_step hstep hcaller]
    exact h

/-- A call that has made its comparison and left its queue does not come back. -/
lemma QueueInv.not_mem_queues_of_step (hq : QueueInv s) (h : WaitedBefore address (s.pc c))
    (hnot : ∀ q, c ∉ s.queues q) (hstep : Futex.step s a = some s') (q : Fin 256) :
    c ∉ s'.queues q := by
  intro hc
  rcases hq.mem_queues_of_step hstep hc with hold | hcaller
  · exact hnot q hold
  · cases effect_of_step hstep with
    | waitEnqueues hpc =>
      cases hcaller
      rw [hpc] at h
      exact not_waitedBefore_of_noEntry (p := .waitLock _ _ _ _) trivial h
    | @relockQueued c' addr r hpc =>
      cases hcaller
      exact hnot q ((hq.mem_listRemove (by rw [hpc]; rfl) q c).mp hc).1
    | wakeSection => exact hnot q (mem_queues_of_mem_wakeLoop (hq.nodup _) hc)
    | _ => exact hnot q hc

/-- The section of `WakeByAddressAll` leaves none of them in a queue. -/
lemma QueueInv.not_mem_queues_of_wakeSection (hq : QueueInv s)
    (h : WaitedBefore address (s.pc c)) (hpc : s.pc w = .wakeLock true address)
    (hstep : Futex.step s (.wakeSection w) = some s') (q : Fin 256) : c ∉ s'.queues q := by
  intro hc
  have hold : c ∈ s.queues q := by
    rcases hq.mem_queues_of_step hstep hc with hold | hcaller
    · exact hold
    · cases hcaller
      rw [hpc] at h
      exact absurd h (not_waitedBefore_of_noEntry trivial)
  obtain ⟨addr, hwait, rfl, hentry⟩ := hq.queued c q hold
  rcases h with hwait' | ⟨b, hb⟩
  · rw [hwait] at hwait'
    cases hwait'
    -- it is claimed, so it is removed
    have hclaimed : Claimed s true address c := ⟨hold, hentry⟩
    have hremoved := hclaimed.removedBy (w := w) (hq.nodup _)
    have hnone := (hq.step hstep).removedBy_of_mem hc
    cases effect_of_step hstep with
    | wakeSection hpc' =>
      rw [hpc] at hpc'
      cases hpc'
      rw [setPending_eq, State.setPc_removedBy, hremoved] at hnone
      cases hnone
  · rw [hb] at hwait
    cases hwait

/-- The wake call `w` has its section before it, or the call `c` is in no queue. -/
structure ToBeRemoved (s : State C) (w c : C) (address : Addr) : Prop where
  queues : QueueInv s
  waited : WaitedBefore address (s.pc c)
  removal : s.pc w = .wakeLock true address ∨ ∀ q, c ∉ s.queues q

/-- **Step lemma.** -/
lemma ToBeRemoved.step (h : ToBeRemoved s w c address) (hstep : Futex.step s a = some s') :
    ToBeRemoved s' w c address := by
  refine ⟨h.queues.step hstep, h.waited.step hstep, ?_⟩
  rcases h.removal with hpc | hnot
  · by_cases hcaller : a.caller = some w
    · -- the only step that the call can make is its section
      have hsection : a = .wakeSection w := by
        cases effect_of_step hstep with
        | store => cases hcaller
        | wakeSection => exact congrArg Action.wakeSection (Option.some.inj hcaller)
        | callWaitInvalid hpc' | callWait hpc' | callWakeNull hpc' | callWake hpc'
        | waitReturns _ hpc' | waitEnqueues hpc' | endWait hpc' | closeHandle hpc'
        | readQueued hpc' | readRemoved hpc' | relockQueued hpc' | relockRemoved hpc'
        | setEvent hpc' =>
          cases hcaller
          rw [hpc] at hpc'
          cases hpc'
      subst hsection
      exact Or.inr (h.queues.not_mem_queues_of_wakeSection h.waited hpc hstep)
    · exact Or.inl (by rw [pc_of_step hstep hcaller, hpc])
  · exact Or.inr (h.queues.not_mem_queues_of_step h.waited hnot hstep)

/-- The call action of the wake call. -/
lemma QueueInv.toBeRemoved (hq : QueueInv s) (h : WaitedBefore address (s.pc c))
    (hstep : Futex.step s (.callWake w true address) = some s') :
    ToBeRemoved s' w c address := by
  refine ⟨hq.step hstep, h.step hstep, ?_⟩
  cases effect_of_step hstep with
  | callWakeNull hpc hnull =>
    -- nobody waits on a null pointer
    right
    intro q hc
    obtain ⟨addr, hwait, -⟩ := hq.queued c q hc
    rcases h with hwait' | ⟨b, hb⟩
    · exact (hq.entry c address hwait').1 hnull
    · rw [hb] at hwait
      cases hwait
  | callWake => exact Or.inl (by rw [State.setPc_pc, Function.update_self])

/-! ## Signals -/

/-- In the runs of waits without a timeout every signal reaches an open event. -/
lemma PatientInv.signalsOpenEvent (h : PatientInv s) (hq : QueueInv s)
    (hstep : Futex.step s a = some s') : SignalsOpenEvent s a := by
  cases effect_of_step hstep with
  | @wakeSection w all addr hpc =>
    intro c hremoves
    have hmem := Claimed.mem_queues ((removes_iff hpc).mp hremoves)
    obtain ⟨b, hwait, -⟩ := hq.queued c _ hmem
    obtain ⟨⟨b', hb⟩, -⟩ := h.queued c b hwait (hq.removedBy_of_mem hmem)
    rw [hb]
    trivial
  | @closeHandle c addr r hpc =>
    rintro w p hp rfl
    obtain ⟨-, ⟨b, hb⟩, -⟩ := h.owed w p hp
    rw [hpc] at hb
    cases hb
  | _ => trivial

/-- A removed call that is owed nothing had one signal, and it reached its event. -/
lemma CountInv.signalled (h : CountInv s) (hs : SignalsOwner s) (hr : s.removedBy c = some w)
    (hw : (s.pc w).pending = []) :
    s.signals.filter (fun g => g.call = c ∨ g.hit = some c) = [⟨c, some c⟩] := by
  have hcount := (h.once c w hr).2
  rw [hw, List.countP_nil, Nat.zero_add, List.countP_eq_length_filter] at hcount
  have hsame : s.signals.filter (fun g => g.call = c ∨ g.hit = some c) =
      s.signals.filter fun g => g.call = c := by
    apply List.filter_congr
    intro g hg
    simp only [hs g hg, Option.some.injEq, or_self]
  obtain ⟨g, hfilter⟩ := List.length_eq_one_iff.mp hcount
  have hmem : g ∈ s.signals.filter fun g => g.call = c := by
    rw [hfilter]
    exact List.mem_singleton_self g
  obtain ⟨hg, hcall⟩ := List.mem_filter.mp hmem
  have hcall' : g.call = c := by simpa using hcall
  have hsignal : g = ⟨c, some c⟩ := by
    rw [← hcall', ← hs g hg]
  rw [hsame, hfilter, hsignal]

end Steps

/-- What holds in every state of a run of waits without a timeout. -/
structure PatientRun (s : State C) : Prop where
  queues : QueueInv s
  events : EventInv s
  count : CountInv s
  patient : PatientInv s
  signals : SignalInv s

lemma PatientRun.init (memory : Addr → Word) : PatientRun (State.init memory : State C) where
  queues := .init memory
  events := .init memory
  count := .init memory
  patient := .init memory
  signals := ⟨fun _ hg => absurd hg List.not_mem_nil, fun _ _ hp => absurd hp List.not_mem_nil⟩

lemma PatientRun.step {s s' : State C} {a : Action C} (h : PatientRun s) (hok : Patient a)
    (hstep : Futex.step s a = some s') : PatientRun s' where
  queues := h.queues.step hstep
  events := h.events.step h.queues hstep
  count := h.count.step h.queues hstep
  patient := h.patient.step h.queues h.events h.count hok hstep
  signals := h.signals.step h.queues h.events (h.patient.signalsOpenEvent h.queues hstep) hstep

/-- **Nobody is left behind.** In a run of any calls of `WaitOnAddress` without a timeout and
any wake calls, let the value at `address` change after the steps `pre`, and let the wake
call `w` on `address` be made after that and return: no call that had made its comparison on
`address` before the change is in a queue, and every entry that `w` removed has had its event
signalled, once. The steps of the wake calls leave the entries for other addresses queued, in
their order. -/
theorem wakeByAddressAll_leaves_nobody (memory : Addr → Word) (pre post : List (Action C))
    (address : Addr) (value : Word) (w : C) {s₁ s : State C}
    (hpatient : ∀ a ∈ pre ++ post, Patient a)
    (hbefore : run step (State.init memory) pre = some s₁)
    (hafter : run step s₁ (.store address value :: post) = some s)
    (hcall : .callWake w true address ∈ post) (hreturned : s.pc w = .wakeReturned) :
    LeavesNobody s₁ s w address ∧
      EveryStep step KeepsOthers (State.init memory) (pre ++ .store address value :: post) := by
  have hall : ∀ a ∈ pre ++ .store address value :: post, Patient a := by
    intro a ha
    rcases List.mem_append.mp ha with ha | ha
    · exact hpatient a (List.mem_append_left _ ha)
    · rcases List.mem_cons.mp ha with rfl | ha
      · trivial
      · exact hpatient a (List.mem_append_right _ ha)
  have hinv : EveryState step PatientRun (State.init memory)
      (pre ++ .store address value :: post) :=
    (everyStep_of_forall_mem hall).everyState
      (fun s a s' h hok hstep => h.step hok hstep) (.init memory)
  have hlast : PatientRun s := (hinv.of_append hbefore).last hafter
  refine ⟨⟨fun c hwaited => ?_, fun c hr => ?_⟩, ?_⟩
  · -- the run from the change to the call of `w`, and from there to its end
    obtain ⟨mid, rest, rfl⟩ := List.append_of_mem hcall
    have hsplit : Action.store address value :: (mid ++ .callWake w true address :: rest) =
        (.store address value :: mid) ++ .callWake w true address :: rest := rfl
    rw [hsplit, run_append, Option.bind_eq_some_iff] at hafter
    obtain ⟨s₂, hmid, hrest⟩ := hafter
    rw [run_cons, Option.bind_eq_some_iff] at hrest
    obtain ⟨s₃, hwake, hrest⟩ := hrest
    have hqueues : QueueInv s₁ := (hinv.of_append hbefore).head.queues
    have hmidInv : EveryState step (fun s => QueueInv s ∧ WaitedBefore address (s.pc c)) s₁
        (.store address value :: mid) :=
      everyState_of_invariant
        (fun _ _ _ h hstep => ⟨h.1.step hstep, h.2.step hstep⟩) ⟨hqueues, hwaited⟩ _
    obtain ⟨hq₂, hw₂⟩ := hmidInv.last hmid
    have hrestInv : EveryState step (fun s => ToBeRemoved s w c address) s₃ rest :=
      everyState_of_invariant (fun _ _ _ h hstep => ToBeRemoved.step h hstep)
        (hq₂.toBeRemoved hw₂ hwake) _
    rcases (hrestInv.last hrest).removal with hpc | hnot
    · rw [hreturned] at hpc
      cases hpc
    · exact hnot
  · exact hlast.count.signalled hlast.signals.made hr (by rw [hreturned]; rfl)
  · exact hinv.everyStep fun s a s' h hstep _ => h.queues.keepsOthers hstep

/-- Calls 0 and 1 wait on two addresses of one queue; the value of the first one changes, and
the wake call 2 wakes call 0. -/
def changedRun : List (Action (Fin 3)) × List (Action (Fin 3)) :=
  ([.callWait 0 16 0 4 INFINITE, .callWait 1 4112 0 4 INFINITE, .waitSection 1 1,
    .waitSection 0 2],
   [.callWake 2 true 16, .wakeSection 2, .setEvent 2])

theorem changedRun_leaves_nobody :
    ∃ s₁ s, run step (State.init fun _ => 0) changedRun.1 = some s₁ ∧
      run step s₁ (.store 16 1 :: changedRun.2) = some s ∧
      getFutexQueue 16 = getFutexQueue 4112 ∧ LeavesNobody s₁ s 2 16 ∧
      EveryStep step KeepsOthers (State.init fun _ => 0)
        (changedRun.1 ++ .store 16 1 :: changedRun.2) := by
  refine ⟨_, _, rfl, rfl, by decide, ?_⟩
  exact wakeByAddressAll_leaves_nobody (fun _ => 0) changedRun.1 changedRun.2 16 1 2
    (by decide) rfl rfl (by decide) (by decide)

end Futex
end ClamavWin32
