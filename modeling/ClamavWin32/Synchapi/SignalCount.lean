import ClamavWin32.Synchapi.WakeTheorems

/-!
# Every removed entry is signalled once

A wake call owes one `SetEvent` for each entry that it removes, and makes it in the section
or after it.

* `Counted` says so of the removals, the signals still owed and the signals made, whatever
  the system they belong to;
* `CountInv` is that of the futex queue, in every run;
* `PatientInv` holds in the runs where every wait is without a timeout: a call whose entry
  is queued, or whose signal is still owed, sleeps on its own event, which is not signalled.
-/

namespace ClamavWin32
namespace Futex

open TransitionSystem

variable {C : Type*} [DecidableEq C]

/-! ## Removals, debts and signals -/

/-- For a call that nobody removed no signal is owed or was made. For a removed one just one
signal is owed or was made, and only the wake call that removed it owes one. -/
structure Counted (removedBy : C → Option C) (owed : C → List (Pending C))
    (signals : List (Signal C)) : Prop where
  fresh : ∀ c, removedBy c = none →
    (∀ w, ∀ p ∈ owed w, p.call ≠ c) ∧ ∀ g ∈ signals, g.call ≠ c
  once : ∀ c w, removedBy c = some w →
    (∀ w', w' ≠ w → ∀ p ∈ owed w', p.call ≠ c) ∧
      (owed w).countP (·.call = c) + signals.countP (·.call = c) = 1

namespace Counted

variable {removedBy : C → Option C} {owed : C → List (Pending C)} {signals : List (Signal C)}
  {c w : C}

/-- A debt is that of the wake call that removed the call. -/
lemma removedBy_of_owed (h : Counted removedBy owed signals) {p : Pending C}
    (hp : p ∈ owed w) : removedBy p.call = some w := by
  cases hr : removedBy p.call with
  | none => exact absurd rfl ((h.fresh _ hr).1 w p hp)
  | some v =>
    by_contra hne
    have hwv : w ≠ v := fun heq => hne (by rw [heq])
    exact (h.once _ v hr).1 w hwv p hp rfl

/-- Nobody owes a second signal for the same call. -/
lemma call_ne_of_owed (h : Counted removedBy owed signals) {p : Pending C}
    {rest : List (Pending C)} (hw : owed w = p :: rest) {v : C} {x : Pending C}
    (hx : x ∈ Function.update owed w rest v) : x.call ≠ p.call := by
  have howner := h.removedBy_of_owed (w := w) (p := p) (by rw [hw]; exact List.mem_cons_self)
  obtain ⟨hothers, hcount⟩ := h.once p.call w howner
  by_cases hvw : v = w
  · subst hvw
    rw [Function.update_self] at hx
    rw [hw, List.countP_cons, if_pos (decide_eq_true rfl)] at hcount
    have hrest : rest.countP (fun q => q.call = p.call) = 0 := by omega
    simpa using List.countP_eq_zero.mp hrest x hx
  · exact hothers v hvw x (by simpa [hvw] using hx)

/-- A call is removed, and its signal is owed. -/
lemma owe (h : Counted removedBy owed signals) (hc : removedBy c = none) (event : Handle) :
    Counted (Function.update removedBy c (some w))
      (Function.update owed w (owed w ++ [⟨event, c⟩])) signals := by
  -- the call has had no signal, so this is the first one that is owed to it
  obtain ⟨hnone, hunsignalled⟩ := h.fresh c hc
  refine ⟨fun d hd => ?_, fun d v hd => ?_⟩
  · have hdc : d ≠ c := by
      rintro rfl
      simp at hd
    obtain ⟨howed, hsignals⟩ := h.fresh d (by simpa [hdc] using hd)
    refine ⟨fun v p hp => ?_, hsignals⟩
    by_cases hvw : v = w
    · subst hvw
      rw [Function.update_self, List.mem_append, List.mem_singleton] at hp
      rcases hp with hp | rfl
      · exact howed v p hp
      · exact hdc.symm
    · exact howed v p (by simpa [hvw] using hp)
  · by_cases hdc : d = c
    · subst hdc
      rw [Function.update_self, Option.some.injEq] at hd
      subst hd
      refine ⟨fun v hvw p hp => hnone v p (by simpa [hvw] using hp), ?_⟩
      have howed : (owed w).countP (fun p => p.call = d) = 0 :=
        List.countP_eq_zero.mpr fun p hp => by simpa using hnone w p hp
      have hsignals : signals.countP (fun g => g.call = d) = 0 :=
        List.countP_eq_zero.mpr fun g hg => by simpa using hunsignalled g hg
      rw [Function.update_self, List.countP_append, howed, hsignals]
      simp
    · obtain ⟨hothers, hcount⟩ := h.once d v (by simpa [hdc] using hd)
      refine ⟨fun u huv p hp => ?_, ?_⟩
      · by_cases huw : u = w
        · subst huw
          rw [Function.update_self, List.mem_append, List.mem_singleton] at hp
          rcases hp with hp | rfl
          · exact hothers u huv p hp
          · exact Ne.symm hdc
        · exact hothers u huv p (by simpa [huw] using hp)
      · by_cases hvw : v = w
        · subst hvw
          rw [Function.update_self, List.countP_append]
          simpa [Ne.symm hdc] using hcount
        · rw [Function.update_of_ne hvw]
          exact hcount

/-- One of the debts of a wake call is paid. -/
lemma pay (h : Counted removedBy owed signals) {p : Pending C} {rest : List (Pending C)}
    (hw : (owed w).Perm (p :: rest)) (hit : Option C) :
    Counted removedBy (Function.update owed w rest) (signals ++ [⟨p.call, hit⟩]) := by
  have hmem : p ∈ owed w := hw.mem_iff.mpr List.mem_cons_self
  have hrest : ∀ q ∈ rest, q ∈ owed w := fun q hq => hw.mem_iff.mpr (List.mem_cons_of_mem p hq)
  have howner : removedBy p.call = some w := h.removedBy_of_owed hmem
  refine ⟨fun d hd => ?_, fun d v hd => ?_⟩
  · obtain ⟨howed, hsignals⟩ := h.fresh d hd
    refine ⟨fun v q hq => ?_, fun g hg => ?_⟩
    · by_cases hvw : v = w
      · subst hvw
        rw [Function.update_self] at hq
        exact howed v q (hrest q hq)
      · exact howed v q (by simpa [hvw] using hq)
    · rw [List.mem_append, List.mem_singleton] at hg
      rcases hg with hg | rfl
      · exact hsignals g hg
      · exact howed w p hmem
  · obtain ⟨hothers, hcount⟩ := h.once d v hd
    refine ⟨fun u huv q hq => ?_, ?_⟩
    · by_cases huw : u = w
      · subst huw
        rw [Function.update_self] at hq
        exact hothers u huv q (hrest q hq)
      · exact hothers u huv q (by simpa [huw] using hq)
    · by_cases hvw : v = w
      · -- the debt has become a signal
        subst hvw
        rw [hw.countP_eq, List.countP_cons] at hcount
        rw [Function.update_self, List.countP_append, List.countP_singleton]
        dsimp only
        omega
      · have hne : p.call ≠ d := by
          rintro rfl
          rw [howner, Option.some.injEq] at hd
          exact hvw hd.symm
        rw [Function.update_of_ne hvw, List.countP_append, List.countP_singleton]
        simpa [hne] using hcount

/-- A call is removed and signalled at once. -/
lemma payNow (h : Counted removedBy owed signals) (hc : removedBy c = none) (event : Handle)
    (hit : Option C) :
    Counted (Function.update removedBy c (some w)) owed (signals ++ [⟨c, hit⟩]) := by
  have howed := h.owe (w := w) hc event
  have hsplit : (Function.update owed w (owed w ++ [⟨event, c⟩]) w).Perm
      (⟨event, c⟩ :: owed w) := by
    rw [Function.update_self]
    exact List.perm_append_singleton _ _
  have hpaid := howed.pay hsplit hit
  rwa [Function.update_idem, Function.update_eq_self] at hpaid

end Counted

/-! ## The futex queue -/

/-- The signals owed and made of the futex queue. -/
def CountInv (s : State C) : Prop :=
  Counted s.removedBy (fun w => (s.pc w).pending) s.signals

namespace CountInv

variable {s s' : State C}

lemma init (memory : Addr → Word) : CountInv (State.init memory : State C) where
  fresh _ _ := ⟨fun _ _ hp => absurd hp List.not_mem_nil, fun _ hg => absurd hg List.not_mem_nil⟩
  once _ _ h := by cases h

/-- A call that owes nothing moves on and owes nothing. -/
lemma setPc (h : CountInv s) {c : C} {p : Pc C} (hpc : (s.pc c).pending = [])
    (hp : p.pending = []) : CountInv (s.setPc c p) := by
  have howed : (fun w => ((s.setPc c p).pc w).pending) = fun w => (s.pc w).pending := by
    funext w
    exact (Function.forall_update_iff s.pc fun w pc => pc.pending = (s.pc w).pending).mpr
      ⟨hp.trans hpc.symm, fun _ _ => rfl⟩ w
  unfold CountInv
  rw [howed]
  exact h

/-- What a wake call is left with is what it owes. -/
lemma owed_setPending (t : State C) (w : C) (events : List (Pending C)) :
    (fun v => ((t.setPending w events).pc v).pending) =
      Function.update (fun v => (t.pc v).pending) w events := by
  funext v
  rw [setPending_eq, State.setPc_pc]
  by_cases hvw : v = w
  · subst hvw
    rw [Function.update_self, Function.update_self, pending_setPending]
  · rw [Function.update_of_ne hvw, Function.update_of_ne hvw]

/-- The signals owed in the middle of the section of the wake call `w`, with `buf` in its
buffer. -/
def owedInLoop (s : State C) (w : C) (buf : List (Pending C)) : C → List (Pending C) :=
  Function.update (fun v => (s.pc v).pending) w buf

/-- **Rule for the section of a wake call**, in which the queues and the signals are in
order before each removal. -/
theorem wakeLoop_induction {P : State C → List (Pending C) → Prop} (h : CountInv s)
    (hq : QueueInv s) {w : C} {all : Bool} {address : Addr}
    (hpc : s.pc w = .wakeLock all address) (hinit : P s [])
    (hbuf : ∀ t buf c, P t buf → Counted t.removedBy (owedInLoop s w buf) t.signals →
      t.removedBy c = none → Claimed s all address c →
      P (t.dequeue w (getFutexQueue address) c) (buf ++ [⟨(t.entry c).event, c⟩]))
    (hsig : ∀ t buf c, P t buf → Counted t.removedBy (owedInLoop s w buf) t.signals →
      t.removedBy c = none → Claimed s all address c →
      P ((t.dequeue w (getFutexQueue address) c).signal ⟨(t.entry c).event, c⟩) buf) :
    Counted (s.wakeLoop w all address).1.removedBy
        (owedInLoop s w (s.wakeLoop w all address).2) (s.wakeLoop w all address).1.signals ∧
      P (s.wakeLoop w all address).1 (s.wakeLoop w all address).2 := by
  refine (Futex.wakeLoop_induction (P := fun t buf => QueueInv t ∧
    Counted t.removedBy (owedInLoop s w buf) t.signals ∧ P t buf) (hq.nodup _) ?_ ?_ ?_).2
  · have howed : (s.pc w).pending = [] := by rw [hpc]; rfl
    refine ⟨hq, ?_, hinit⟩
    rw [owedInLoop, ← howed, Function.update_eq_self]
    exact h
  · rintro t buf c ⟨hqt, ht, hP⟩ - - hc hclaimed
    have hnone := hqt.removedBy_of_mem hc
    refine ⟨hqt.dequeue hc, ?_, hbuf t buf c hP ht hnone hclaimed⟩
    have howe := ht.owe (w := w) hnone (t.entry c).event
    rwa [owedInLoop, Function.update_self, Function.update_idem] at howe
  · rintro t buf c ⟨hqt, ht, hP⟩ - - hc hclaimed
    have hnone := hqt.removedBy_of_mem hc
    have hq' := hqt.dequeue (w := w) hc
    exact ⟨⟨hq'.nodup, hq'.queued, hq'.entry, hq'.noEntry, hq'.wakeAddress⟩,
      ht.payNow hnone (t.entry c).event _, hsig t buf c hP ht hnone hclaimed⟩

/-- The section of a wake call: it owes the events in its buffer, and has paid for the
others. -/
lemma wakeSection (h : CountInv s) (hq : QueueInv s) {w : C} {all : Bool} {address : Addr}
    (hpc : s.pc w = .wakeLock all address) :
    CountInv ((s.wakeLoop w all address).1.setPending w (s.wakeLoop w all address).2) := by
  have hloop := h.wakeLoop_induction hq hpc (P := fun _ _ => True) trivial
    (fun _ _ _ _ _ _ _ => trivial) (fun _ _ _ _ _ _ _ => trivial)
  unfold CountInv
  rw [owed_setPending, wakeLoop_pc]
  exact hloop.1

/-- **Step lemma of the signals.** -/
theorem step (h : CountInv s) (hq : QueueInv s) {a : Action C}
    (hstep : Futex.step s a = some s') : CountInv s' := by
  cases effect_of_step hstep with
  | callWaitInvalid hpc | callWait hpc | callWakeNull hpc | callWake hpc | readQueued hpc
  | readRemoved hpc | relockRemoved hpc =>
    exact h.setPc (by rw [hpc]; rfl) rfl
  | waitReturns b hpc => exact h.setPc (by rw [hpc]; rfl) rfl
  | @waitEnqueues c created addr _ _ _ hpc =>
    have h' : CountInv ({ s with events := s.events.create created c }.enqueue c addr created) :=
      h
    exact h'.setPc (by rw [State.enqueue_pc, hpc]; rfl) rfl
  | @endWait c r _ _ hpc =>
    have h' : CountInv { s with events := r.after s.events (s.entry c).event } := h
    exact h'.setPc (by rw [hpc]; rfl) rfl
  | @closeHandle c _ _ hpc =>
    have h' : CountInv { s with events := s.events.close (s.entry c).event } := h
    exact h'.setPc (by rw [hpc]; rfl) rfl
  | @relockQueued c addr _ hpc =>
    have h' : CountInv (s.listRemove (getFutexQueue addr) c) := h
    exact h'.setPc (by rw [State.listRemove_pc, hpc]; rfl) rfl
  | wakeSection hpc => exact h.wakeSection hq hpc
  | @setEvent w p rest hpc =>
    have howed : (s.pc w).pending = p :: rest := by rw [hpc]; rfl
    have hsplit : (s.pc w).pending.Perm (p :: rest) := by rw [howed]
    have hpaid := Counted.pay h hsplit (s.events.owner p.event)
    unfold CountInv
    rw [owed_setPending, State.signal_pc]
    exact hpaid
  | store => exact h

end CountInv

/-! ## Waits without a timeout -/

/-- Every wait is called without a timeout, and `WaitForSingleObject` does not fail. -/
def Patient : Action C → Prop
  | .callWait _ _ _ _ ms => ms = INFINITE
  | .endWait _ r => r ≠ .failed
  | _ => True

instance : (a : Action C) → Decidable (Patient a)
  | .callWait .. => inferInstanceAs (Decidable (_ = _))
  | .endWait .. => inferInstanceAs (Decidable (_ ≠ _))
  | .waitSection .. | .closeHandle _ | .readAddress _ | .relockSection _ | .callWake ..
  | .wakeSection _ | .setEvent _ | .store .. => instDecidableTrue

/-- The timeout of a wait that has not ended. -/
def Pc.timeout : Pc C → Option ℕ
  | .waitLock _ _ _ ms | .waiting _ ms => some ms
  | _ => none

/-- The call sleeps on its own event, which is not signalled. -/
def Asleep (s : State C) (c : C) : Prop :=
  (∃ a, s.pc c = .waiting a INFINITE) ∧ ¬ s.events.Signalled (s.entry c).event

/-- A call whose entry is queued sleeps, and so does one whose signal is still owed. -/
structure PatientInv (s : State C) : Prop where
  patient : ∀ c ms, (s.pc c).timeout = some ms → ms = INFINITE
  queued : ∀ c a, (s.pc c).inWait = some a → s.removedBy c = none → Asleep s c
  owed : ∀ w, ∀ p ∈ (s.pc w).pending, p.event = (s.entry p.call).event ∧ Asleep s p.call

namespace PatientInv

variable {s s' : State C}

omit [DecidableEq C] in
lemma init (memory : Addr → Word) : PatientInv (State.init memory : State C) where
  patient _ _ h := by cases h
  queued _ _ h := by cases h
  owed _ _ hp := absurd hp List.not_mem_nil

/-- A step of one call that changes no event of a sleeping call. -/
lemma move (h : PatientInv s) {c : C} {p : Pc C} (hpc : s'.pc = Function.update s.pc c p)
    (hremoved : s'.removedBy = s.removedBy)
    (hentry : ∀ d, d ≠ c → Asleep s d → (s'.entry d).event = (s.entry d).event ∧
      ¬ s'.events.Signalled (s.entry d).event)
    (hpatient : ∀ ms, p.timeout = some ms → ms = INFINITE)
    (hqueued : ∀ a, p.inWait = some a → s.removedBy c = none → Asleep s' c)
    (howes : p.pending = [])
    (hnone : ∀ w, ∀ x ∈ (s.pc w).pending, x.call ≠ c) : PatientInv s' := by
  have hasleep : ∀ d, d ≠ c → Asleep s d → Asleep s' d := by
    rintro d hdc ⟨⟨a, ha⟩, hs⟩
    obtain ⟨hevent, hsignal⟩ := hentry d hdc ⟨⟨a, ha⟩, hs⟩
    exact ⟨⟨a, by rw [hpc]; simpa [hdc] using ha⟩, by rw [hevent]; exact hsignal⟩
  refine ⟨?_, ?_, ?_⟩
  · rw [hpc]
    exact (Function.forall_update_iff s.pc fun _ pc => ∀ ms, pc.timeout = some ms →
      ms = INFINITE).mpr ⟨hpatient, fun d _ => h.patient d⟩
  · rw [hpc, hremoved]
    refine (Function.forall_update_iff s.pc fun d pc => ∀ a, pc.inWait = some a →
      s.removedBy d = none → Asleep s' d).mpr ⟨hqueued, ?_⟩
    intro d hdc a hd hr
    exact hasleep d hdc (h.queued d a hd hr)
  · rw [hpc]
    refine (Function.forall_update_iff s.pc fun _ pc => ∀ x ∈ pc.pending,
      x.event = (s'.entry x.call).event ∧ Asleep s' x.call).mpr ⟨?_, ?_⟩
    · rw [howes]
      exact fun x hx => absurd hx List.not_mem_nil
    · intro w _ x hx
      obtain ⟨hevent, hs⟩ := h.owed w x hx
      have hne := hnone w x hx
      exact ⟨by rw [hevent, (hentry _ hne hs).1], hasleep _ hne hs⟩

/-- A wake call is left with `events` to be set, in a state `t` in which nobody has moved. -/
lemma setPending (h : PatientInv s) {t : State C} {w : C} {events : List (Pending C)}
    (hpcs : t.pc = s.pc) (hentry : ∀ d, (t.entry d).event = (s.entry d).event)
    (hw : ∀ b ms, s.pc w ≠ .waiting b ms)
    (hqueued : ∀ d a, (s.pc d).inWait = some a → t.removedBy d = none →
      (∃ b, s.pc d = .waiting b INFINITE) ∧ ¬ t.events.Signalled (s.entry d).event)
    (howed : ∀ v, ∀ x ∈ Function.update (fun v => (s.pc v).pending) w events v,
      x.event = (s.entry x.call).event ∧ (∃ b, s.pc x.call = .waiting b INFINITE) ∧
        ¬ t.events.Signalled (s.entry x.call).event) : PatientInv (t.setPending w events) := by
  have hmoved : ∀ d, d ≠ w → (t.setPending w events).pc d = s.pc d := by
    intro d hdw
    rw [setPending_eq, State.setPc_pc, Function.update_of_ne hdw, hpcs]
  have hwake : (t.setPending w events).pc w =
      if events = [] then .wakeReturned else .signalling events := by
    rw [setPending_eq, State.setPc_pc, Function.update_self]
  -- a call that waits stays asleep, since its event is not signalled
  have hasleep : ∀ d, (∃ b, s.pc d = .waiting b INFINITE) →
      ¬ t.events.Signalled (s.entry d).event → Asleep (t.setPending w events) d := by
    rintro d ⟨b, hd⟩ hs
    have hdw : d ≠ w := fun heq => hw b INFINITE (heq ▸ hd)
    refine ⟨⟨b, by rw [hmoved d hdw, hd]⟩, ?_⟩
    rw [setPending_eq, State.setPc_events, State.setPc_entry, hentry d]
    exact hs
  refine ⟨fun d ms hd => ?_, fun d a hd hr => ?_, fun v x hx => ?_⟩
  · have hdw : d ≠ w := by
      rintro rfl
      rw [hwake] at hd
      split_ifs at hd <;> cases hd
    exact h.patient d ms (by rw [← hmoved d hdw, hd])
  · have hdw : d ≠ w := by
      rintro rfl
      rw [hwake] at hd
      split_ifs at hd <;> cases hd
    rw [hmoved d hdw] at hd
    obtain ⟨hwaits, hs⟩ := hqueued d a hd hr
    exact hasleep d hwaits hs
  · rw [congrFun (CountInv.owed_setPending t w events) v, hpcs] at hx
    obtain ⟨hevent, hwaits, hs⟩ := howed v x hx
    refine ⟨?_, hasleep _ hwaits hs⟩
    rw [setPending_eq, State.setPc_entry, hentry, hevent]

/-- The section of a wake call: what it removes slept, and what it signals on the spot are
the events of removed calls. -/
lemma wakeSection (h : PatientInv s) (hq : QueueInv s) (he : EventInv s) (hc : CountInv s)
    {w : C} {all : Bool} {address : Addr} (hpc : s.pc w = .wakeLock all address) :
    PatientInv ((s.wakeLoop w all address).1.setPending w (s.wakeLoop w all address).2) := by
  -- an entry that is claimed is one of a call that waits in the queue
  have hclaim : ∀ c, Claimed s all address c →
      ∃ a, (s.pc c).inWait = some a ∧ s.removedBy c = none := by
    intro c hclaimed
    have hmem := Claimed.mem_queues hclaimed
    obtain ⟨a, ha, -⟩ := hq.queued c _ hmem
    exact ⟨a, ha, hq.removedBy_of_mem hmem⟩
  -- two calls that wait have different events
  have hdiffer : ∀ d c, (∃ b, s.pc d = .waiting b INFINITE) → Claimed s all address c →
      d ≠ c → (s.entry d).event ≠ (s.entry c).event := by
    rintro d c ⟨b, hd⟩ hclaimed hdc
    obtain ⟨a, ha, hnone⟩ := hclaim c hclaimed
    obtain ⟨⟨b', hc'⟩, -⟩ := h.queued c a ha hnone
    exact he.event_ne (by rw [hc']; trivial) (by rw [hd]; trivial) hdc
  have hloop := hc.wakeLoop_induction hq hpc
    (P := fun t buf => (∀ d, (t.entry d).event = (s.entry d).event) ∧
      (∀ d a, (s.pc d).inWait = some a → t.removedBy d = none →
        (∃ b, s.pc d = .waiting b INFINITE) ∧ ¬ t.events.Signalled (s.entry d).event) ∧
      ∀ v, ∀ x ∈ CountInv.owedInLoop s w buf v,
        x.event = (s.entry x.call).event ∧ (∃ b, s.pc x.call = .waiting b INFINITE) ∧
          ¬ t.events.Signalled (s.entry x.call).event)
    ⟨fun _ => rfl, h.queued, ?_⟩ ?_ ?_
  · obtain ⟨-, hentry, hqueued, howed⟩ := hloop
    exact h.setPending (wakeLoop_pc s w all address) hentry
      (fun _ _ hwaits => by rw [hpc] at hwaits; cases hwaits) hqueued howed
  · intro v x hx
    have howed : (s.pc w).pending = [] := by rw [hpc]; rfl
    rw [CountInv.owedInLoop, ← howed, Function.update_eq_self] at hx
    obtain ⟨hevent, hwaits, hs⟩ := h.owed v x hx
    exact ⟨hevent, hwaits, hs⟩
  · -- the event goes into the buffer
    rintro t buf c ⟨hentry, hqueued, howed⟩ hcount hnone hclaimed
    obtain ⟨a, ha, -⟩ := hclaim c hclaimed
    refine ⟨fun d => by rw [State.dequeue_entry_event, hentry], fun d b hd hr => ?_,
      fun v x hx => ?_⟩
    · have hdc : d ≠ c := by
        rintro rfl
        simp at hr
      exact hqueued d b hd (by simpa [hdc] using hr)
    · by_cases hvw : v = w
      · subst hvw
        rw [CountInv.owedInLoop, Function.update_self, List.mem_append, List.mem_singleton] at hx
        rcases hx with hx | rfl
        · exact howed v x (by rwa [CountInv.owedInLoop, Function.update_self])
        · exact ⟨hentry c, hqueued c a ha hnone⟩
      · exact howed v x (by simpa [CountInv.owedInLoop, hvw] using hx)
  · -- the buffer is full, and the event is set at once
    rintro t buf c ⟨hentry, hqueued, howed⟩ hcount hnone hclaimed
    have hother : ∀ d, (∃ b, s.pc d = .waiting b INFINITE) → d ≠ c →
        ¬ t.events.Signalled (s.entry d).event →
        ¬ (t.events.signal (t.entry c).event).Signalled (s.entry d).event := by
      intro d hd hdc hs
      rwa [hentry c, EventTable.signalled_signal_of_ne (hdiffer d c hd hclaimed hdc)]
    refine ⟨fun d => by rw [State.signal_entry, State.dequeue_entry_event, hentry],
      fun d b hd hr => ?_, fun v x hx => ?_⟩
    · have hdc : d ≠ c := by
        rintro rfl
        simp at hr
      obtain ⟨hwaits, hs⟩ := hqueued d b hd (by simpa [hdc] using hr)
      exact ⟨hwaits, hother d hwaits hdc hs⟩
    · obtain ⟨hevent, hwaits, hs⟩ := howed v x hx
      exact ⟨hevent, hwaits, hother _ hwaits ((hcount.fresh c hnone).1 v x hx) hs⟩

/-- **Step lemma of the waits without a timeout.** -/
theorem step (h : PatientInv s) (hq : QueueInv s) (he : EventInv s) (hc : CountInv s)
    {a : Action C} (hok : Patient a) (hstep : Futex.step s a = some s') : PatientInv s' := by
  -- a call that has no entry is not owed a signal
  have hunowed : ∀ c, (s.pc c).NoEntry → ∀ w, ∀ x ∈ (s.pc w).pending, x.call ≠ c :=
    fun c hn => (hc.fresh c (hq.noEntry c hn)).1
  -- neither is one that does not sleep any more
  have hawake : ∀ c, ¬ Asleep s c → ∀ w, ∀ x ∈ (s.pc w).pending, x.call ≠ c := by
    rintro c hn w x hx rfl
    exact hn (h.owed w x hx).2
  have hended : ∀ {c : C} {p : Pc C}, s.pc c = p → (∀ b ms, p ≠ .waiting b ms) → ¬ Asleep s c := by
    rintro c p hpc hp ⟨⟨b, hb⟩, -⟩
    exact hp b INFINITE (hpc.symm.trans hb)
  cases effect_of_step hstep with
  | callWaitInvalid hpc | callWakeNull hpc | callWake hpc =>
    exact h.move rfl rfl (fun _ _ hd => ⟨rfl, hd.2⟩) (fun _ he => by cases he)
      (fun _ he => by cases he) rfl (hunowed _ (by rw [hpc]; trivial))
  | callWait hpc =>
    refine h.move rfl rfl (fun _ _ hd => ⟨rfl, hd.2⟩) (fun _ he => ?_)
      (fun _ he => by cases he) rfl (hunowed _ (by rw [hpc]; trivial))
    cases he
    exact hok
  | waitReturns b hpc =>
    exact h.move rfl rfl (fun _ _ hd => ⟨rfl, hd.2⟩) (fun _ he => by cases he)
      (fun _ he => by cases he) rfl (hunowed _ (by rw [hpc]; trivial))
  | @waitEnqueues c created addr compare size ms hpc _ _ _ hfree =>
    have hms := h.patient c ms (by rw [hpc]; rfl)
    refine h.move rfl rfl (fun d hdc hd => ?_) (fun ms' he => ?_)
      (fun _ _ _ => ?_) rfl (hunowed _ (by rw [hpc]; trivial))
    · -- the handle is new
      obtain ⟨⟨b, hb⟩, hs⟩ := hd
      have hne : (s.entry d).event ≠ created := by
        intro heq
        have howner := he.owned d (by rw [hb]; trivial)
        rw [EventTable.owner, heq, hfree] at howner
        cases howner
      refine ⟨by simp [hdc], ?_⟩
      simpa [EventTable.signalled_create_of_ne c hne] using hs
    · exact (Option.some.inj he).symm.trans hms
    · subst hms
      exact ⟨⟨addr, by simp⟩, by simpa using EventTable.not_signalled_create_self _ _ _⟩
  | @endWait c r addr ms hpc hend =>
    have hsignalled : (r = .object0) ∧ ¬ Asleep s c := by
      cases r with
      | object0 => exact ⟨rfl, fun hs => hs.2 hend⟩
      | timeout => exact absurd (h.patient c ms (by rw [hpc]; rfl)) hend
      | failed => exact absurd rfl hok
    obtain ⟨rfl, hnot⟩ := hsignalled
    refine h.move rfl rfl (fun d hdc hd => ⟨rfl, ?_⟩) (fun _ he => by cases he)
      (fun b hb hr => ?_) rfl (hawake c hnot)
    · obtain ⟨⟨b, hb⟩, hs⟩ := hd
      have hne := he.event_ne (c := c) (d := d) (by rw [hpc]; trivial) (by rw [hb]; trivial) hdc
      exact fun hsig => hs ((EventTable.signalled_consume_of_ne hne).mp hsig)
    · exact absurd (h.queued c addr (by rw [hpc]; rfl) hr) hnot
  | @closeHandle c addr r hpc =>
    have hnot := hended hpc (fun _ _ he => by cases he)
    refine h.move rfl rfl (fun d hdc hd => ⟨rfl, ?_⟩) (fun _ he => by cases he)
      (fun b hb hr => ?_) rfl (hawake c hnot)
    · obtain ⟨⟨b, hb⟩, hs⟩ := hd
      have hne := he.event_ne (c := c) (d := d) (by rw [hpc]; trivial) (by rw [hb]; trivial) hdc
      exact fun hsig => hs ((EventTable.signalled_close_of_ne hne).mp hsig)
    · exact absurd (h.queued c addr (by rw [hpc]; rfl) hr) hnot
  | @readQueued c addr r hpc =>
    have hnot := hended hpc (fun _ _ he => by cases he)
    exact h.move rfl rfl (fun _ _ hd => ⟨rfl, hd.2⟩) (fun _ he => by cases he)
      (fun b hb hr => absurd (h.queued c addr (by rw [hpc]; rfl) hr) hnot) rfl (hawake c hnot)
  | readRemoved hpc | relockQueued hpc | relockRemoved hpc =>
    have hnot := hended hpc (fun _ _ he => by cases he)
    exact h.move rfl rfl (fun _ _ hd => ⟨rfl, hd.2⟩) (fun _ he => by cases he)
      (fun _ he => by cases he) rfl (hawake _ hnot)
  | wakeSection hpc => exact h.wakeSection hq he hc hpc
  | @setEvent w p rest hpc =>
    have howes : (s.pc w).pending = p :: rest := by rw [hpc]; rfl
    obtain ⟨hevent, hsleeps⟩ := h.owed w p (by rw [howes]; exact List.mem_cons_self)
    have howner := hc.removedBy_of_owed (w := w) (p := p) (by rw [howes]; exact List.mem_cons_self)
    -- the signal is for `p.call`, and the others that sleep have other events
    have hother : ∀ d, d ≠ p.call → Asleep s d →
        ¬ (s.signal p).events.Signalled (s.entry d).event := by
      rintro d hdp ⟨⟨b, hd⟩, hs⟩
      obtain ⟨⟨b', hp⟩, -⟩ := hsleeps
      have hne : (s.entry d).event ≠ p.event := by
        rw [hevent]
        exact he.event_ne (by rw [hp]; trivial) (by rw [hd]; trivial) hdp
      rwa [State.signal_events, EventTable.signalled_signal_of_ne hne]
    refine h.setPending rfl (fun _ => rfl) (fun _ _ hwaits => by rw [hpc] at hwaits; cases hwaits)
      (fun d a hd hr => ?_) (fun v x hx => ?_)
    · have hnone : s.removedBy d = none := hr
      have hdp : d ≠ p.call := by
        rintro rfl
        rw [howner] at hnone
        cases hnone
      have hs := h.queued d a hd hnone
      exact ⟨hs.1, hother d hdp hs⟩
    · have hxp : x.call ≠ p.call := hc.call_ne_of_owed howes hx
      have hx' : x ∈ (s.pc v).pending := by
        by_cases hvw : v = w
        · subst hvw
          rw [Function.update_self] at hx
          rw [howes]
          exact List.mem_cons_of_mem p hx
        · simpa [hvw] using hx
      obtain ⟨hxevent, hs⟩ := h.owed v x hx'
      exact ⟨hxevent, hs.1, hother _ hxp hs⟩
  | store => exact ⟨h.patient, h.queued, h.owed⟩

end PatientInv

end Futex
end ClamavWin32
