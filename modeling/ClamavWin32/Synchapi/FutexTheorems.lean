import ClamavWin32.Synchapi.Futex

/-!
# The futex queue: what a step does, and the invariants of every run

* `Effect` lists the branches of `step` once, and `effect_of_step` is the only place
  that unfolds it;
* `wakeLoop_induction` is the rule for the loops of the wake calls: it goes through the
  removed entries one by one;
* `QueueInv` ties the queues to the entries and to where each call stands;
* `EventInv` says that a call owns the event it waits on, and that the wake which removed
  its entry has signalled it or is going to.
-/

namespace ClamavWin32
namespace Futex

variable {C : Type*}

/-! ## Where a call stands -/

/-- The address a `WaitOnAddress` call waits on, from the section that fills in its entry
to its return. -/
def Pc.inWait : Pc C → Option Addr
  | .waiting a _ | .ended a _ | .closed a _ | .relock a _ => some a
  | _ => none

/-- What the call returns, once its wait has ended. -/
def Pc.verdict : Pc C → Option Bool
  | .ended _ r | .closed _ r | .relock _ r => some (r ≠ .timeout)
  | .waitReturned b => some b
  | _ => none

/-- The call has created its event and not closed it yet. -/
def Pc.OpenEvent : Pc C → Prop
  | .waiting .. | .ended .. => True
  | _ => False

instance (p : Pc C) : Decidable p.OpenEvent := by
  cases p <;> unfold Pc.OpenEvent <;> infer_instance

/-- The call has filled in no entry: it is not in a wait, nor has it left one. -/
def Pc.NoEntry : Pc C → Prop
  | .waiting .. | .ended .. | .closed .. | .relock .. | .waitReturned _ => False
  | _ => True

/-- The events a wake call still has to set. -/
def Pc.pending : Pc C → List (Pending C)
  | .signalling events => events
  | _ => []

/-- The entry of `c` is one the section of a wake call on `address` removes. -/
def Claimed (s : State C) (all : Bool) (address : Addr) (c : C) : Prop :=
  if all then c ∈ s.queues (getFutexQueue address) ∧ (s.entry c).address = address
  else (s.queues (getFutexQueue address)).find?
    (fun c => (s.entry c).address = address) = some c

instance [DecidableEq C] (s : State C) (all : Bool) (address : Addr) (c : C) :
    Decidable (Claimed s all address c) := by
  unfold Claimed
  infer_instance

/-- The section the wake call `w` is about to enter removes the entry of `c`. -/
def Removes (s : State C) (w c : C) : Prop :=
  match s.pc w with
  | .wakeLock all address => Claimed s all address c
  | _ => False

instance [DecidableEq C] (s : State C) (w c : C) : Decidable (Removes s w c) := by
  unfold Removes
  split <;> infer_instance

lemma removes_iff {s : State C} {w c : C} {all : Bool} {address : Addr}
    (hpc : s.pc w = .wakeLock all address) : Removes s w c ↔ Claimed s all address c := by
  simp only [Removes, hpc]

lemma Claimed.mem_queues {s : State C} {all : Bool} {address : Addr} {c : C}
    (h : Claimed s all address c) : c ∈ s.queues (getFutexQueue address) := by
  cases all with
  | true => exact (show _ ∧ _ from h).1
  | false => exact List.mem_of_find?_eq_some h

lemma Claimed.address_eq {s : State C} {all : Bool} {address : Addr} {c : C}
    (h : Claimed s all address c) : (s.entry c).address = address := by
  cases all with
  | true => exact (show _ ∧ _ from h).2
  | false => simpa using List.find?_some h

/-- The events still to be set are those handed to `setPending`. -/
lemma pending_setPending (events : List (Pending C)) :
    (if events = [] then .wakeReturned else .signalling events : Pc C).pending = events := by
  split_ifs with h
  · exact h.symm
  · rfl

/-! ## Fields of an updated state -/

namespace State

variable (s : State C) (c w : C) (q : Fin 256)

@[simp] lemma signal_pc (p : Pending C) : (s.signal p).pc = s.pc := rfl
@[simp] lemma signal_memory (p : Pending C) : (s.signal p).memory = s.memory := rfl
@[simp] lemma signal_queues (p : Pending C) : (s.signal p).queues = s.queues := rfl
@[simp] lemma signal_entry (p : Pending C) : (s.signal p).entry = s.entry := rfl
@[simp] lemma signal_removedBy (p : Pending C) : (s.signal p).removedBy = s.removedBy := rfl
@[simp] lemma signal_events (p : Pending C) : (s.signal p).events = s.events.signal p.event := rfl

variable [DecidableEq C]

@[simp] lemma setPc_pc (p : Pc C) : (s.setPc c p).pc = Function.update s.pc c p := rfl
@[simp] lemma setPc_memory (p : Pc C) : (s.setPc c p).memory = s.memory := rfl
@[simp] lemma setPc_queues (p : Pc C) : (s.setPc c p).queues = s.queues := rfl
@[simp] lemma setPc_entry (p : Pc C) : (s.setPc c p).entry = s.entry := rfl
@[simp] lemma setPc_events (p : Pc C) : (s.setPc c p).events = s.events := rfl
@[simp] lemma setPc_removedBy (p : Pc C) : (s.setPc c p).removedBy = s.removedBy := rfl
@[simp] lemma setPc_signals (p : Pc C) : (s.setPc c p).signals = s.signals := rfl

@[simp] lemma enqueue_pc (a : Addr) (h : Handle) : (s.enqueue c a h).pc = s.pc := rfl
@[simp] lemma enqueue_removedBy (a : Addr) (h : Handle) :
    (s.enqueue c a h).removedBy = s.removedBy := rfl
@[simp] lemma enqueue_events (a : Addr) (h : Handle) :
    (s.enqueue c a h).events = s.events := rfl
@[simp] lemma enqueue_entry (a : Addr) (h : Handle) :
    (s.enqueue c a h).entry = Function.update s.entry c ⟨a, h⟩ := rfl
@[simp] lemma listRemove_pc : (s.listRemove q c).pc = s.pc := rfl
@[simp] lemma listRemove_entry : (s.listRemove q c).entry = s.entry := rfl
@[simp] lemma listRemove_removedBy : (s.listRemove q c).removedBy = s.removedBy := rfl
@[simp] lemma listRemove_events : (s.listRemove q c).events = s.events := rfl

@[simp] lemma dequeue_pc : (s.dequeue w q c).pc = s.pc := rfl
@[simp] lemma dequeue_memory : (s.dequeue w q c).memory = s.memory := rfl
@[simp] lemma dequeue_events : (s.dequeue w q c).events = s.events := rfl
@[simp] lemma dequeue_signals : (s.dequeue w q c).signals = s.signals := rfl
@[simp] lemma dequeue_queues : (s.dequeue w q c).queues =
    Function.update s.queues q ((s.queues q).erase c) := rfl
@[simp] lemma dequeue_entry : (s.dequeue w q c).entry =
    Function.update s.entry c { s.entry c with address := 0 } := rfl
@[simp] lemma dequeue_removedBy : (s.dequeue w q c).removedBy =
    Function.update s.removedBy c (some w) := rfl

/-- A removal leaves every entry its event. -/
lemma dequeue_entry_event (c' : C) :
    ((s.dequeue w q c).entry c').event = (s.entry c').event := by
  by_cases h : c' = c
  · subst h
    simp
  · simp [h]

end State

variable [DecidableEq C]

/-! ## What a step can do -/

/-- The branches of `step`, one constructor each. -/
inductive Effect (s : State C) : Action C → State C → Prop
  | callWaitInvalid {c a compare size ms} (hpc : s.pc c = .notCalled) :
      Effect s (.callWait c a compare size ms) (s.setPc c (.waitReturned false))
  | callWait {c a compare size ms} (hpc : s.pc c = .notCalled) :
      Effect s (.callWait c a compare size ms) (s.setPc c (.waitLock a compare size ms))
  | waitReturns {c created a compare size ms} (b : Bool)
      (hpc : s.pc c = .waitLock a compare size ms) :
      Effect s (.waitSection c created) (s.setPc c (.waitReturned b))
  | waitEnqueues {c created a compare size ms} (hpc : s.pc c = .waitLock a compare size ms)
      (ha : a ≠ 0) (heq : compareAddr (s.memory a) compare size = true)
      (hnull : created ≠ 0) (hfree : s.events created = none) :
      Effect s (.waitSection c created)
        (({ s with events := s.events.create created c }.enqueue c a created).setPc c
          (.waiting a ms))
  | endWait {c r a ms} (hpc : s.pc c = .waiting a ms)
      (hend : r.MayEnd s.events (s.entry c).event ms) :
      Effect s (.endWait c r)
        ({ s with events := r.after s.events (s.entry c).event }.setPc c (.ended a r))
  | closeHandle {c a r} (hpc : s.pc c = .ended a r) :
      Effect s (.closeHandle c)
        ({ s with events := s.events.close (s.entry c).event }.setPc c (.closed a r))
  | readQueued {c a r} (hpc : s.pc c = .closed a r) (hq : (s.entry c).address ≠ 0) :
      Effect s (.readAddress c) (s.setPc c (.relock a r))
  | readRemoved {c a r} (hpc : s.pc c = .closed a r) (hq : (s.entry c).address = 0) :
      Effect s (.readAddress c) (s.setPc c (.waitReturned (r ≠ .timeout)))
  | relockQueued {c a r} (hpc : s.pc c = .relock a r) (hq : (s.entry c).address ≠ 0) :
      Effect s (.relockSection c)
        ((s.listRemove (getFutexQueue a) c).setPc c (.waitReturned (r ≠ .timeout)))
  | relockRemoved {c a r} (hpc : s.pc c = .relock a r) (hq : (s.entry c).address = 0) :
      Effect s (.relockSection c) (s.setPc c (.waitReturned (r ≠ .timeout)))
  | callWakeNull {w all a} (hpc : s.pc w = .notCalled) (ha : a = 0) :
      Effect s (.callWake w all a) (s.setPc w .wakeReturned)
  | callWake {w all a} (hpc : s.pc w = .notCalled) (ha : a ≠ 0) :
      Effect s (.callWake w all a) (s.setPc w (.wakeLock all a))
  | wakeSection {w all a} (hpc : s.pc w = .wakeLock all a) :
      Effect s (.wakeSection w)
        ((s.wakeLoop w all a).1.setPending w (s.wakeLoop w all a).2)
  | setEvent {w p rest} (hpc : s.pc w = .signalling (p :: rest)) :
      Effect s (.setEvent w) ((s.signal p).setPending w rest)
  | store {a v} :
      Effect s (.store a v) { s with memory := Function.update s.memory a v }

theorem effect_of_step {s s' : State C} {a : Action C} (h : step s a = some s') :
    Effect s a s' := by
  cases a with
  | callWait c addr compare size ms =>
    simp only [step] at h
    split at h
    · rename_i hpc
      split at h <;> cases h
      · exact .callWaitInvalid hpc
      · exact .callWait hpc
    · cases h
  | waitSection c created =>
    -- the value is compared under the lock of the queue
    simp only [step] at h
    split at h
    · rename_i addr compare size ms hpc
      split_ifs at h with ha hcmp hnull hfree <;> cases h
      · exact .waitReturns true hpc
      · exact .waitReturns false hpc
      · exact .waitEnqueues hpc ha (by simpa using hcmp) hnull (by simpa using hfree)
    · cases h
  | endWait c r =>
    simp only [step] at h
    split at h
    · rename_i addr ms hpc
      split_ifs at h with hend
      cases h
      exact .endWait hpc hend
    · cases h
  | closeHandle c =>
    simp only [step] at h
    split at h <;> cases h
    exact .closeHandle ‹_›
  | readAddress c =>
    simp only [step] at h
    split at h
    · rename_i addr r hpc
      split_ifs at h with hq <;> cases h
      · exact .readQueued hpc hq
      · exact .readRemoved hpc (by simpa using hq)
    · cases h
  | relockSection c =>
    simp only [step] at h
    split at h
    · rename_i addr r hpc
      cases h
      split_ifs with hq
      · exact .relockQueued hpc hq
      · exact .relockRemoved hpc (by simpa using hq)
    · cases h
  | callWake w all addr =>
    simp only [step] at h
    split at h
    · rename_i hpc
      split_ifs at h with ha <;> cases h
      · exact .callWakeNull hpc ha
      · exact .callWake hpc ha
    · cases h
  | wakeSection w =>
    simp only [step] at h
    split at h <;> cases h
    exact .wakeSection ‹_›
  | setEvent w =>
    simp only [step] at h
    split at h <;> cases h
    exact .setEvent ‹_›
  | store addr v =>
    cases h
    exact .store

/-! ## The loops of the wake calls -/

/-- The rule for `wakeByAddressAll` from the middle of its list: what holds before an entry
is removed holds after its event was buffered, or set on the spot. -/
lemma wakeByAddressAll_induction {P : State C → List (Pending C) → Prop} {s : State C}
    {w : C} {address : Addr}
    (hbuf : ∀ t buf c, P t buf → t.pc = s.pc → t.entry c = s.entry c →
      c ∈ t.queues (getFutexQueue address) → Claimed s true address c →
      P (t.dequeue w (getFutexQueue address) c) (buf ++ [⟨(t.entry c).event, c⟩]))
    (hsig : ∀ t buf c, P t buf → t.pc = s.pc → t.entry c = s.entry c →
      c ∈ t.queues (getFutexQueue address) → Claimed s true address c →
      P ((t.dequeue w (getFutexQueue address) c).signal ⟨(t.entry c).event, c⟩) buf)
    (rest : List C) (t : State C) (buf : List (Pending C)) (h : P t buf) (hpc : t.pc = s.pc)
    (hnodup : rest.Nodup)
    (hrest : ∀ x ∈ rest, x ∈ t.queues (getFutexQueue address) ∧ t.entry x = s.entry x ∧
      x ∈ s.queues (getFutexQueue address)) :
    P (State.wakeByAddressAll w address rest t buf).1
      (State.wakeByAddressAll w address rest t buf).2 := by
  induction rest generalizing t buf with
  | nil => exact h
  | cons c rest ih =>
    obtain ⟨hc, hrest⟩ := List.forall_mem_cons.mp hrest
    obtain ⟨hnot, hnodup⟩ := List.nodup_cons.mp hnodup
    -- the entries still to be visited are untouched by the removal of this one
    have hrest' : ∀ x ∈ rest,
        x ∈ (t.dequeue w (getFutexQueue address) c).queues (getFutexQueue address) ∧
        (t.dequeue w (getFutexQueue address) c).entry x = s.entry x ∧
        x ∈ s.queues (getFutexQueue address) := by
      intro x hx
      have hne : x ≠ c := fun h => hnot (h ▸ hx)
      obtain ⟨hq, he, hs⟩ := hrest x hx
      refine ⟨?_, ?_, hs⟩
      · simpa using (List.mem_erase_of_ne hne).mpr hq
      · simpa [hne] using he
    unfold State.wakeByAddressAll
    split_ifs with haddr hroom
    · have hcl : Claimed s true address c := ⟨hc.2.2, by rw [← hc.2.1]; exact haddr⟩
      exact ih _ _ (hbuf t buf c h hpc hc.2.1 hc.1 hcl) hpc hnodup hrest'
    · have hcl : Claimed s true address c := ⟨hc.2.2, by rw [← hc.2.1]; exact haddr⟩
      exact ih _ _ (hsig t buf c h hpc hc.2.1 hc.1 hcl) hpc hnodup hrest'
    · exact ih _ _ h hpc hnodup hrest

/-- **Rule for the section of a wake call.** `P` relates the state to the events buffered
so far; each removed entry is one the state before the section claims. -/
theorem wakeLoop_induction {P : State C → List (Pending C) → Prop} {s : State C} {w : C}
    {all : Bool} {address : Addr} (hnodup : (s.queues (getFutexQueue address)).Nodup)
    (h : P s [])
    (hbuf : ∀ t buf c, P t buf → t.pc = s.pc → t.entry c = s.entry c →
      c ∈ t.queues (getFutexQueue address) → Claimed s all address c →
      P (t.dequeue w (getFutexQueue address) c) (buf ++ [⟨(t.entry c).event, c⟩]))
    (hsig : ∀ t buf c, P t buf → t.pc = s.pc → t.entry c = s.entry c →
      c ∈ t.queues (getFutexQueue address) → Claimed s all address c →
      P ((t.dequeue w (getFutexQueue address) c).signal ⟨(t.entry c).event, c⟩) buf) :
    P (s.wakeLoop w all address).1 (s.wakeLoop w all address).2 := by
  cases all with
  | true =>
    exact wakeByAddressAll_induction hbuf hsig _ s [] h rfl hnodup fun x hx => ⟨hx, rfl, hx⟩
  | false =>
    simp only [State.wakeLoop, Bool.false_eq_true, if_false, State.wakeByAddressSingle]
    split
    · exact h
    · rename_i c hfind
      exact hbuf s [] c h rfl rfl (List.mem_of_find?_eq_some hfind) hfind

/-- **Frame rule.** What neither the removal of an entry nor a signal changes, a section of a wake
call does not change. -/
lemma wakeLoop_frame {β : Type*} (field : State C → β)
    (hdequeue : ∀ t w q c, field (State.dequeue t w q c) = field t)
    (hsignal : ∀ t p, field (State.signal t p) = field t) (s : State C) (w : C) (all : Bool)
    (address : Addr) : field (s.wakeLoop w all address).1 = field s := by
  have hall (rest : List C) (t : State C) (buf : List (Pending C)) :
      field (State.wakeByAddressAll w address rest t buf).1 = field t := by
    induction rest generalizing t buf with
    | nil => rfl
    | cons c rest ih =>
      unfold State.wakeByAddressAll
      split_ifs
      · rw [ih, hdequeue]
      · rw [ih, hsignal, hdequeue]
      · rw [ih]
  cases all with
  | true => exact hall _ s []
  | false =>
    simp only [State.wakeLoop, Bool.false_eq_true, if_false, State.wakeByAddressSingle]
    split
    · rfl
    · exact hdequeue ..

/-- A section of a wake call moves no other call. -/
lemma wakeLoop_pc (s : State C) (w : C) (all : Bool) (address : Addr) :
    (s.wakeLoop w all address).1.pc = s.pc :=
  wakeLoop_frame State.pc (fun _ _ _ _ => rfl) (fun _ _ => rfl) s w all address

/-- A section of a wake call stores nothing in watched memory. -/
lemma wakeLoop_memory (s : State C) (w : C) (all : Bool) (address : Addr) :
    (s.wakeLoop w all address).1.memory = s.memory :=
  wakeLoop_frame State.memory (fun _ _ _ _ => rfl) (fun _ _ => rfl) s w all address

/-- A loop from the middle of its list removes the entries it has still to visit. -/
lemma wakeByAddressAll_removedBy {w : C} {address : Addr} {c : C} :
    ∀ (rest : List C) (t : State C) (buf : List (Pending C)), rest.Nodup →
      (c ∈ rest ∧ (t.entry c).address = address ∨ t.removedBy c = some w) →
      (State.wakeByAddressAll w address rest t buf).1.removedBy c = some w := by
  intro rest
  induction rest with
  | nil =>
    rintro t buf - (⟨hc, -⟩ | hr)
    · cases hc
    · exact hr
  | cons d rest ih =>
    intro t buf hnodup hcase
    obtain ⟨hnot, hnodup⟩ := List.nodup_cons.mp hnodup
    -- what is known of `c` once `d` has been removed
    have hnext : (c ∈ rest ∧
          ((t.dequeue w (getFutexQueue address) d).entry c).address = address) ∨
        (t.dequeue w (getFutexQueue address) d).removedBy c = some w := by
      by_cases hcd : c = d
      · subst hcd
        exact Or.inr (by simp)
      · refine hcase.imp ?_ ?_
        · rintro ⟨hc, haddr⟩
          exact ⟨List.mem_of_ne_of_mem hcd hc, by simpa [hcd] using haddr⟩
        · intro hr
          simpa [hcd] using hr
    unfold State.wakeByAddressAll
    split_ifs with haddr
    · exact ih _ _ hnodup hnext
    · exact ih _ _ hnodup hnext
    · refine ih _ _ hnodup (hcase.imp_left ?_)
      rintro ⟨hc, hca⟩
      rcases List.mem_cons.mp hc with rfl | hc
      · exact absurd hca haddr
      · exact ⟨hc, hca⟩

/-- The section of a wake call removes every entry it claims. -/
lemma Claimed.removedBy {s : State C} {w : C} {all : Bool} {address : Addr} {c : C}
    (h : Claimed s all address c) (hnodup : (s.queues (getFutexQueue address)).Nodup) :
    (s.wakeLoop w all address).1.removedBy c = some w := by
  cases all with
  | true => exact wakeByAddressAll_removedBy _ s [] hnodup (Or.inl h)
  | false =>
    have hfind : (s.queues (getFutexQueue address)).find?
        (fun c => (s.entry c).address = address) = some c := h
    simp only [State.wakeLoop, Bool.false_eq_true, if_false, State.wakeByAddressSingle, hfind,
      State.dequeue_removedBy, Function.update_self]

lemma setPending_eq (s : State C) (w : C) (events : List (Pending C)) :
    s.setPending w events =
      s.setPc w (if events = [] then .wakeReturned else .signalling events) := rfl

/-! ## What a step leaves alone -/

/-- A step moves only the call that makes it. -/
lemma pc_of_step {s s' : State C} {a : Action C} {d : C} (hstep : step s a = some s')
    (hd : a.caller ≠ some d) : s'.pc d = s.pc d := by
  have hne : ∀ c, a.caller = some c → d ≠ c := by
    rintro c hc rfl
    exact hd hc
  cases effect_of_step hstep with
  | store => rfl
  | wakeSection =>
    rw [setPending_eq, State.setPc_pc, Function.update_of_ne (hne _ rfl), wakeLoop_pc]
  | setEvent =>
    rw [setPending_eq, State.setPc_pc, Function.update_of_ne (hne _ rfl), State.signal_pc]
  | relockQueued =>
    rw [State.setPc_pc, Function.update_of_ne (hne _ rfl), State.listRemove_pc]
  | waitEnqueues =>
    rw [State.setPc_pc, Function.update_of_ne (hne _ rfl), State.enqueue_pc]
  | _ => rw [State.setPc_pc, Function.update_of_ne (hne _ rfl)]

/-- A call of the futex model leaves memory alone; only the program stores. -/
lemma memory_of_step {s s' : State C} {a : Action C} {c : C} (hstep : step s a = some s')
    (hcaller : a.caller = some c) : s'.memory = s.memory := by
  cases effect_of_step hstep with
  | wakeSection => exact wakeLoop_memory ..
  | store => cases hcaller
  | _ => rfl

/-- A section of a wake call enters no entry in a queue. -/
lemma mem_queues_of_mem_wakeLoop {s : State C} {w d : C} {all : Bool} {address : Addr}
    (hnodup : (s.queues (getFutexQueue address)).Nodup) {q : Fin 256}
    (hd : d ∈ (s.wakeLoop w all address).1.queues q) : d ∈ s.queues q := by
  have hsub : ∀ (t : State C) (c : C), d ∈ (t.dequeue w (getFutexQueue address) c).queues q →
      d ∈ t.queues q := by
    intro t c hd
    by_cases hq : q = getFutexQueue address
    · subst hq
      rw [State.dequeue_queues, Function.update_self] at hd
      exact List.mem_of_mem_erase hd
    · rwa [State.dequeue_queues, Function.update_of_ne hq] at hd
  exact wakeLoop_induction (P := fun t _ => d ∈ t.queues q → d ∈ s.queues q) hnodup id
    (fun t _ c ht _ _ _ _ hd => ht (hsub t c hd))
    (fun t _ c ht _ _ _ _ hd => ht (hsub t c hd)) hd

/-! ## The queues -/

/-- What ties the queues, the entries and the calls together: a queue links the entries of
the calls that wait on an address of its bucket, each once, and an entry leaves its queue
in the step that clears its address. -/
structure QueueInv (s : State C) : Prop where
  nodup : ∀ q, (s.queues q).Nodup
  queued : ∀ c q, c ∈ s.queues q →
    ∃ a, (s.pc c).inWait = some a ∧ q = getFutexQueue a ∧ (s.entry c).address = a
  entry : ∀ c a, (s.pc c).inWait = some a → a ≠ 0 ∧
    ((s.entry c).address = a ∧ c ∈ s.queues (getFutexQueue a) ∧ s.removedBy c = none ∨
      (s.entry c).address = 0 ∧ s.removedBy c ≠ none)
  noEntry : ∀ c, (s.pc c).NoEntry → s.removedBy c = none
  wakeAddress : ∀ w all a, s.pc w = .wakeLock all a → a ≠ 0

namespace QueueInv

variable {s : State C}

omit [DecidableEq C] in
lemma init (memory : Addr → Word) : QueueInv (State.init memory : State C) where
  nodup _ := List.nodup_nil
  queued _ _ h := by cases h
  entry _ _ h := by cases h
  noEntry _ _ := rfl
  wakeAddress _ _ _ h := by cases h

omit [DecidableEq C] in
lemma address_ne_zero (h : QueueInv s) {c : C} {q : Fin 256} (hc : c ∈ s.queues q) :
    (s.entry c).address ≠ 0 := by
  obtain ⟨a, hw, -, he⟩ := h.queued c q hc
  rw [he]
  exact (h.entry c a hw).1

omit [DecidableEq C] in
/-- A queued entry was not removed. -/
lemma removedBy_of_mem (h : QueueInv s) {c : C} {q : Fin 256} (hc : c ∈ s.queues q) :
    s.removedBy c = none := by
  obtain ⟨a, hw, -, -⟩ := h.queued c q hc
  obtain ⟨-, ⟨-, -, hnone⟩ | ⟨hzero, -⟩⟩ := h.entry c a hw
  · exact hnone
  · exact absurd hzero (h.address_ne_zero hc)

omit [DecidableEq C] in
/-- An entry without an address is in no queue. -/
lemma not_mem_of_address_eq_zero (h : QueueInv s) {c : C} (hc : (s.entry c).address = 0)
    (q : Fin 256) : c ∉ s.queues q :=
  fun hq => h.address_ne_zero hq hc

omit [DecidableEq C] in
/-- A call that is not in a wait has no entry in a queue. -/
lemma not_mem_of_inWait_eq_none (h : QueueInv s) {c : C} (hc : (s.pc c).inWait = none)
    (q : Fin 256) : c ∉ s.queues q := by
  intro hq
  obtain ⟨a, hw, -⟩ := h.queued c q hq
  rw [hc] at hw
  cases hw

/-- A step of a call that stays where its entry is concerned. -/
lemma setPc (h : QueueInv s) {c : C} {p : Pc C} (hw : p.inWait = (s.pc c).inWait)
    (hb : p.NoEntry → (s.pc c).NoEntry)
    (hl : ∀ all a, p = .wakeLock all a → a ≠ 0) : QueueInv (s.setPc c p) := by
  have hsame : ∀ d, ((s.setPc c p).pc d).inWait = (s.pc d).inWait := by
    intro d
    by_cases hd : d = c
    · subst hd
      simpa using hw
    · simp [hd]
  refine ⟨h.nodup, ?_, ?_, ?_, ?_⟩
  · intro d q hd
    rw [hsame d]
    exact h.queued d q hd
  · intro d a hd
    rw [hsame d] at hd
    exact h.entry d a hd
  · intro d hd
    by_cases hdc : d = c
    · subst hdc
      exact h.noEntry d (hb (by simpa using hd))
    · exact h.noEntry d (by simpa [hdc] using hd)
  · intro w all a hwl
    by_cases hwc : w = c
    · subst hwc
      exact hl all a (by simpa using hwl)
    · exact h.wakeAddress w all a (by simpa [hwc] using hwl)

/-- Entering a queue. -/
lemma enqueue (h : QueueInv s) {c : C} {a compare size ms : ℕ}
    (hpc : s.pc c = .waitLock a compare size ms) (ha : a ≠ 0) (event : Handle) :
    QueueInv ((s.enqueue c a event).setPc c (.waiting a ms)) := by
  have hnot : ∀ q, c ∉ s.queues q := h.not_mem_of_inWait_eq_none (by rw [hpc]; rfl)
  have hrem : s.removedBy c = none := h.noEntry c (by rw [hpc]; trivial)
  -- the entry goes to the end of its queue, and of no other
  have hqueues : ∀ q d, d ∈ ((s.enqueue c a event).setPc c (.waiting a ms)).queues q ↔
      d ∈ s.queues q ∨ d = c ∧ q = getFutexQueue a := by
    intro q d
    by_cases hq : q = getFutexQueue a
    · subst hq
      simp [State.enqueue]
    · simp [State.enqueue, hq]
  refine
    { nodup := ?nodup, queued := ?queued, entry := ?entry, noEntry := ?noEntry,
      wakeAddress := ?wakeAddress }
  case nodup =>
    intro q
    by_cases hq : q = getFutexQueue a
    · subst hq
      simpa [State.enqueue, List.nodup_append] using
        ⟨h.nodup _, fun d hd hdc => hnot _ (hdc ▸ hd)⟩
    · simpa [State.enqueue, hq] using h.nodup q
  case queued =>
    intro d q hd
    rcases (hqueues q d).mp hd with hd | ⟨rfl, rfl⟩
    · have hne : d ≠ c := fun hdc => hnot q (hdc ▸ hd)
      simpa [State.enqueue, hne] using h.queued d q hd
    · exact ⟨a, by simp [Pc.inWait], rfl, by simp [State.enqueue]⟩
  case entry =>
    intro d b hd
    by_cases hdc : d = c
    · subst hdc
      obtain rfl : a = b := by simpa [Pc.inWait] using hd
      exact ⟨ha, Or.inl ⟨by simp [State.enqueue], (hqueues _ d).mpr (Or.inr ⟨rfl, rfl⟩), hrem⟩⟩
    · have hd' : (s.pc d).inWait = some b := by simpa [hdc] using hd
      obtain ⟨hb, hcase⟩ := h.entry d b hd'
      refine ⟨hb, hcase.imp ?_ ?_⟩
      · rintro ⟨he, hq, hr⟩
        exact ⟨by simpa [State.enqueue, hdc] using he, (hqueues _ d).mpr (Or.inl hq), hr⟩
      · rintro ⟨he, hr⟩
        exact ⟨by simpa [State.enqueue, hdc] using he, hr⟩
  case noEntry =>
    intro d hd
    by_cases hdc : d = c
    · subst hdc
      simp [Pc.NoEntry] at hd
    · exact h.noEntry d (by simpa [hdc] using hd)
  case wakeAddress =>
    intro w all b hw
    by_cases hwc : w = c
    · subst hwc
      simp at hw
    · exact h.wakeAddress w all b (by simpa [hwc] using hw)

/-- Taking an entry out of its queue takes it out of every queue, and no other entry. -/
lemma mem_listRemove (h : QueueInv s) {c : C} {a : Addr} (hw : (s.pc c).inWait = some a)
    (q : Fin 256) (d : C) :
    d ∈ (s.listRemove (getFutexQueue a) c).queues q ↔ d ∈ s.queues q ∧ d ≠ c := by
  by_cases hq : q = getFutexQueue a
  · subst hq
    simpa [State.listRemove, and_comm] using (h.nodup (getFutexQueue a)).mem_erase_iff
  · have hc : c ∉ s.queues q := by
      intro hc
      obtain ⟨a', hw', hq', -⟩ := h.queued c q hc
      rw [hw, Option.some.injEq] at hw'
      exact hq (hw' ▸ hq')
    have hsame : (s.listRemove (getFutexQueue a) c).queues q = s.queues q := by
      simp [State.listRemove, hq]
    rw [hsame]
    exact ⟨fun hd => ⟨hd, fun hdc => hc (hdc ▸ hd)⟩, And.left⟩

lemma nodup_listRemove (h : QueueInv s) (q' : Fin 256) (c : C) (q : Fin 256) :
    ((s.listRemove q' c).queues q).Nodup := by
  by_cases hq : q = q'
  · subst hq
    simpa [State.listRemove] using (h.nodup q).erase c
  · simpa [State.listRemove, hq] using h.nodup q

/-- A call takes its own entry out and returns. -/
lemma leave (h : QueueInv s) {c : C} {a : Addr} (hw : (s.pc c).inWait = some a) (b : Bool) :
    QueueInv ((s.listRemove (getFutexQueue a) c).setPc c (.waitReturned b)) := by
  have hmem := h.mem_listRemove hw
  refine ⟨h.nodup_listRemove _ c, ?_, ?_, ?_, ?_⟩
  · intro d q hd
    obtain ⟨hd, hdc⟩ := (hmem q d).mp hd
    simpa [hdc] using h.queued d q hd
  · intro d a' hd
    have hdc : d ≠ c := by
      rintro rfl
      simp [Pc.inWait] at hd
    obtain ⟨ha, hcase⟩ := h.entry d a' (by simpa [hdc] using hd)
    refine ⟨ha, hcase.imp ?_ fun hr => hr⟩
    rintro ⟨he, hq, hr⟩
    exact ⟨he, (hmem _ d).mpr ⟨hq, hdc⟩, hr⟩
  · intro d hd
    have hdc : d ≠ c := by
      rintro rfl
      simp [Pc.NoEntry] at hd
    exact h.noEntry d (by simpa [hdc] using hd)
  · intro w all a' hwl
    have hwc : w ≠ c := by
      rintro rfl
      simp at hwl
    exact h.wakeAddress w all a' (by simpa [hwc] using hwl)

/-- A call whose entry a wake removed returns. -/
lemma leave_of_removed (h : QueueInv s) {c : C} {a : Addr} (hw : (s.pc c).inWait = some a)
    (h0 : (s.entry c).address = 0) (b : Bool) : QueueInv (s.setPc c (.waitReturned b)) := by
  have heq : s.listRemove (getFutexQueue a) c = s := by
    rw [State.listRemove, List.erase_of_not_mem (h.not_mem_of_address_eq_zero h0 _),
      Function.update_eq_self]
  simpa [heq] using h.leave hw b

/-- A wake removes an entry. -/
lemma dequeue (h : QueueInv s) {w c : C} {q : Fin 256} (hc : c ∈ s.queues q) :
    QueueInv (s.dequeue w q c) := by
  obtain ⟨a, hw, rfl, he⟩ := h.queued c q hc
  have hmem := h.mem_listRemove hw
  refine ⟨h.nodup_listRemove _ c, ?_, ?_, ?_, h.wakeAddress⟩
  · intro d q hd
    obtain ⟨hd, hdc⟩ := (hmem q d).mp hd
    simpa [hdc] using h.queued d q hd
  · intro d a' hd
    obtain ⟨ha, hcase⟩ := h.entry d a' hd
    by_cases hdc : d = c
    · subst hdc
      exact ⟨ha, Or.inr ⟨by simp, by simp⟩⟩
    · refine ⟨ha, hcase.imp ?_ ?_⟩
      · rintro ⟨he, hq, hr⟩
        exact ⟨by simpa [hdc] using he, (hmem _ d).mpr ⟨hq, hdc⟩, by simpa [hdc] using hr⟩
      · rintro ⟨he, hr⟩
        exact ⟨by simpa [hdc] using he, by simpa [hdc] using hr⟩
  · intro d hd
    have hdc : d ≠ c := by
      rintro rfl
      rw [State.dequeue_pc] at hd
      cases hp : s.pc d <;> simp_all [Pc.inWait, Pc.NoEntry]
    simpa [hdc] using h.noEntry d hd

lemma wakeLoop (h : QueueInv s) (w : C) (all : Bool) (address : Addr) :
    QueueInv (s.wakeLoop w all address).1 :=
  wakeLoop_induction (P := fun t _ => QueueInv t) (h.nodup _) h
    (fun _ _ _ ht _ _ hc _ => ht.dequeue hc)
    (fun _ _ _ ht _ _ hc _ =>
      let h' := ht.dequeue hc
      ⟨h'.nodup, h'.queued, h'.entry, h'.noEntry, h'.wakeAddress⟩)

/-- **Step lemma of the queues.** -/
theorem step (h : QueueInv s) {a : Action C} {s' : State C} (hstep : Futex.step s a = some s') :
    QueueInv s' := by
  cases effect_of_step hstep with
  | callWaitInvalid hpc | callWait hpc | callWakeNull hpc =>
    exact h.setPc (by rw [hpc]; rfl) (fun _ => by rw [hpc]; trivial) (fun _ _ he => by cases he)
  | callWake hpc ha =>
    refine h.setPc (by rw [hpc]; rfl) (fun _ => by rw [hpc]; trivial) fun _ _ he => ?_
    cases he
    exact ha
  | waitReturns b hpc =>
    exact h.setPc (by rw [hpc]; rfl) (fun hb => hb.elim) (fun _ _ he => by cases he)
  | @waitEnqueues c created a _ _ _ hpc ha =>
    have hev : QueueInv { s with events := s.events.create created c } :=
      ⟨h.nodup, h.queued, h.entry, h.noEntry, h.wakeAddress⟩
    exact hev.enqueue hpc ha created
  | @endWait c r _ _ hpc =>
    have hev : QueueInv { s with events := r.after s.events (s.entry c).event } :=
      ⟨h.nodup, h.queued, h.entry, h.noEntry, h.wakeAddress⟩
    exact hev.setPc (by rw [hpc]; rfl) (fun hb => hb.elim) (fun _ _ he => by cases he)
  | @closeHandle c _ _ hpc =>
    have hev : QueueInv { s with events := s.events.close (s.entry c).event } :=
      ⟨h.nodup, h.queued, h.entry, h.noEntry, h.wakeAddress⟩
    exact hev.setPc (by rw [hpc]; rfl) (fun hb => hb.elim) (fun _ _ he => by cases he)
  | readQueued hpc =>
    exact h.setPc (by rw [hpc]; rfl) (fun hb => hb.elim) (fun _ _ he => by cases he)
  | readRemoved hpc hq => exact h.leave_of_removed (by rw [hpc]; rfl) hq _
  | relockQueued hpc => exact h.leave (by rw [hpc]; rfl) _
  | relockRemoved hpc hq => exact h.leave_of_removed (by rw [hpc]; rfl) hq _
  | @wakeSection w all a hpc =>
    have hpc' : (s.wakeLoop w all a).1.pc = s.pc := wakeLoop_pc s w all a
    rw [setPending_eq]
    refine (h.wakeLoop w all a).setPc ?_ ?_ ?_
    · rw [hpc', hpc]
      split_ifs <;> rfl
    · exact fun _ => by rw [hpc', hpc]; trivial
    · intro _ _ he
      split_ifs at he
  | @setEvent w p rest hpc =>
    have hev : QueueInv (s.signal p) :=
      ⟨h.nodup, h.queued, h.entry, h.noEntry, h.wakeAddress⟩
    rw [setPending_eq]
    refine hev.setPc ?_ ?_ ?_
    · rw [State.signal_pc, hpc]
      split_ifs <;> rfl
    · exact fun _ => by rw [State.signal_pc, hpc]; trivial
    · intro _ _ he
      split_ifs at he
  | store => exact ⟨h.nodup, h.queued, h.entry, h.noEntry, h.wakeAddress⟩

/-- Only a call itself enters its entry in a queue. -/
lemma mem_queues_of_step (h : QueueInv s) {a : Action C} {s' : State C} {d : C} {q : Fin 256}
    (hstep : Futex.step s a = some s') (hd : d ∈ s'.queues q) :
    d ∈ s.queues q ∨ a.caller = some d := by
  cases effect_of_step hstep with
  | @waitEnqueues c _ addr =>
    by_cases hq : q = getFutexQueue addr
    · subst hq
      have hd' : d ∈ s.queues (getFutexQueue addr) ∨ d = c := by
        simpa [State.enqueue] using hd
      exact hd'.imp_right fun hdc => by rw [hdc]; rfl
    · exact Or.inl (by simpa [State.enqueue, hq] using hd)
  | @relockQueued c addr _ hpc =>
    exact Or.inl ((h.mem_listRemove (by rw [hpc]; rfl) q d).mp hd).1
  | wakeSection => exact Or.inl (mem_queues_of_mem_wakeLoop (h.nodup _) hd)
  | _ => exact Or.inl hd

end QueueInv

/-! ## The events -/

/-- A call owns the event it waits on, and once a wake has removed its entry the signal has
arrived or is still on its way. -/
structure EventInv (s : State C) : Prop where
  owned : ∀ c, (s.pc c).OpenEvent → s.events.owner (s.entry c).event = some c
  woken : ∀ c a ms, s.pc c = .waiting a ms → s.removedBy c ≠ none →
    s.events.Signalled (s.entry c).event ∨
      ∃ w, (⟨(s.entry c).event, c⟩ : Pending C) ∈ (s.pc w).pending

namespace EventInv

variable {s : State C}

omit [DecidableEq C] in
lemma init (memory : Addr → Word) : EventInv (State.init memory : State C) where
  owned _ h := h.elim
  woken _ _ _ h := by cases h

omit [DecidableEq C] in
/-- Two calls that have their events open have different handles. -/
lemma event_ne (h : EventInv s) {c d : C} (hc : (s.pc c).OpenEvent) (hd : (s.pc d).OpenEvent)
    (hne : d ≠ c) : (s.entry d).event ≠ (s.entry c).event := by
  intro heq
  have hdc : some d = some c := by rw [← h.owned d hd, ← h.owned c hc, heq]
  exact hne (Option.some.inj hdc)

/-- A step of a call that opens no event, does not start to wait and drops no pending
signal. -/
lemma setPc (h : EventInv s) {c : C} {p : Pc C} (hopen : p.OpenEvent → (s.pc c).OpenEvent)
    (hwait : ∀ a ms, p = .waiting a ms → s.pc c = .waiting a ms)
    (hpend : ∀ x ∈ (s.pc c).pending, x ∈ p.pending) : EventInv (s.setPc c p) := by
  refine ⟨?_, ?_⟩
  · intro d hd
    by_cases hdc : d = c
    · subst hdc
      exact h.owned d (hopen (by simpa using hd))
    · exact h.owned d (by simpa [hdc] using hd)
  · intro d a ms hd hr
    have hd' : s.pc d = .waiting a ms := by
      by_cases hdc : d = c
      · subst hdc
        exact hwait a ms (by simpa using hd)
      · simpa [hdc] using hd
    refine (h.woken d a ms hd' hr).imp_right ?_
    rintro ⟨w, hw⟩
    refine ⟨w, ?_⟩
    by_cases hwc : w = c
    · subst hwc
      simpa using hpend _ hw
    · simpa [hwc] using hw

/-- A call that has no entry enters its queue with a new event. -/
lemma enqueue (h : EventInv s) {c : C} {created : Handle} {address : Addr} {ms : ℕ}
    (hfree : s.events created = none) (hnone : s.removedBy c = none)
    (hpend : (s.pc c).pending = []) :
    EventInv (({ s with events := s.events.create created c }.enqueue c address created).setPc c
      (.waiting address ms)) := by
  -- the handle is new, so no open event has it
  have hne : ∀ d, (s.pc d).OpenEvent → (s.entry d).event ≠ created := by
    intro d hd heq
    have ho := h.owned d hd
    rw [EventTable.owner, heq, hfree] at ho
    cases ho
  refine ⟨?_, ?_⟩
  · intro d hd
    by_cases hdc : d = c
    · subst hdc
      simp
    · have hd' : (s.pc d).OpenEvent := by simpa [hdc] using hd
      simpa [hdc] using EventTable.owner_create_of_owner hfree (h.owned d hd')
  · intro d b ms' hd hr
    by_cases hdc : d = c
    · subst hdc
      exact absurd hnone (by simpa using hr)
    · have hd' : s.pc d = .waiting b ms' := by simpa [hdc] using hd
      have hne' := hne d (by rw [hd']; trivial)
      have hwok := h.woken d b ms' hd' (by simpa using hr)
      simp only [State.setPc_events, State.enqueue_events, State.setPc_entry,
        State.enqueue_entry, ne_eq, hdc, not_false_eq_true, Function.update_of_ne,
        EventTable.signalled_create_of_ne c hne']
      refine hwok.imp_right ?_
      rintro ⟨w, hw⟩
      have hwc : w ≠ c := by
        rintro rfl
        rw [hpend] at hw
        cases hw
      exact ⟨w, by simpa [hwc] using hw⟩

/-- The event of `c` changes hands with `c` no longer waiting on it. -/
lemma replaceEvents (h : EventInv s) {c : C} {p : Pc C} {evs : EventTable C}
    (hc : (s.pc c).OpenEvent) (hnw : ∀ a ms, p ≠ .waiting a ms) (hnp : (s.pc c).pending = [])
    (howned : p.OpenEvent → evs.owner (s.entry c).event = some c)
    (howner : ∀ h', h' ≠ (s.entry c).event → evs.owner h' = s.events.owner h')
    (hsig : ∀ h', h' ≠ (s.entry c).event → (evs.Signalled h' ↔ s.events.Signalled h')) :
    EventInv ({ s with events := evs }.setPc c p) := by
  refine ⟨?_, ?_⟩
  · intro d hd
    by_cases hdc : d = c
    · subst hdc
      exact howned (by simpa using hd)
    · have hd' : (s.pc d).OpenEvent := by simpa [hdc] using hd
      exact (howner _ (h.event_ne hc hd' hdc)).trans (h.owned d hd')
  · intro d a ms hd hr
    by_cases hdc : d = c
    · subst hdc
      exact absurd (by simpa using hd) (hnw a ms)
    · have hd' : s.pc d = .waiting a ms := by simpa [hdc] using hd
      have hne := h.event_ne hc (by rw [hd']; trivial) hdc
      refine (h.woken d a ms hd' hr).imp (hsig _ hne).mpr ?_
      rintro ⟨w, hw⟩
      have hwc : w ≠ c := by
        rintro rfl
        rw [hnp] at hw
        cases hw
      exact ⟨w, by simpa [hwc] using hw⟩

/-- A wake call `w` is left with `events` to be set: they stand for the signals that are
on their way from it. -/
lemma setPending {t : State C} {w : C} {events : List (Pending C)}
    (howned : ∀ c, (t.pc c).OpenEvent → t.events.owner (t.entry c).event = some c)
    (hwoken : ∀ c a ms, t.pc c = .waiting a ms → t.removedBy c ≠ none →
      t.events.Signalled (t.entry c).event ∨
      (∃ w', w' ≠ w ∧ (⟨(t.entry c).event, c⟩ : Pending C) ∈ (t.pc w').pending) ∨
      (⟨(t.entry c).event, c⟩ : Pending C) ∈ events) : EventInv (t.setPending w events) := by
  have hopen :
      ¬ ((if events = [] then .wakeReturned else .signalling events : Pc C)).OpenEvent := by
    split_ifs <;> exact id
  have hwait : ∀ a ms, (if events = [] then .wakeReturned else .signalling events : Pc C) ≠
      .waiting a ms := by
    intro a ms he
    split_ifs at he
  rw [setPending_eq]
  refine ⟨?_, ?_⟩
  · intro c hc
    have hcw : c ≠ w := by
      rintro rfl
      exact hopen (by simpa using hc)
    exact howned c (by simpa [hcw] using hc)
  · intro c a ms hc hr
    have hcw : c ≠ w := by
      rintro rfl
      exact hwait a ms (by simpa using hc)
    refine (hwoken c a ms (by simpa [hcw] using hc) hr).imp_right ?_
    rintro (⟨w', hne, hw'⟩ | hev)
    · exact ⟨w', by simpa [hne] using hw'⟩
    · refine ⟨w, ?_⟩
      rw [State.setPc_pc, Function.update_self, pending_setPending]
      exact hev

/-- The section of a wake call: a removed entry's signal is in the buffer or was made on
the spot. -/
lemma wakeLoop (h : EventInv s) (hq : QueueInv s) (w : C) (all : Bool) (address : Addr) :
    (∀ c, (s.pc c).OpenEvent → (s.wakeLoop w all address).1.events.owner
      ((s.wakeLoop w all address).1.entry c).event = some c) ∧
    ∀ c a ms, s.pc c = .waiting a ms → (s.wakeLoop w all address).1.removedBy c ≠ none →
      (s.wakeLoop w all address).1.events.Signalled
        ((s.wakeLoop w all address).1.entry c).event ∨
      (∃ w', (⟨((s.wakeLoop w all address).1.entry c).event, c⟩ : Pending C) ∈
        (s.pc w').pending) ∨
      (⟨((s.wakeLoop w all address).1.entry c).event, c⟩ : Pending C) ∈
        (s.wakeLoop w all address).2 := by
  refine wakeLoop_induction (P := fun t buf =>
    (∀ c, (s.pc c).OpenEvent → t.events.owner (t.entry c).event = some c) ∧
    ∀ c a ms, s.pc c = .waiting a ms → t.removedBy c ≠ none →
      t.events.Signalled (t.entry c).event ∨
      (∃ w', (⟨(t.entry c).event, c⟩ : Pending C) ∈ (s.pc w').pending) ∨
      (⟨(t.entry c).event, c⟩ : Pending C) ∈ buf) (hq.nodup _) ?_ ?_ ?_
  · exact ⟨h.owned, fun c a ms hc hr => (h.woken c a ms hc hr).imp_right Or.inl⟩
  · rintro t buf d ⟨ho, hw⟩ - - - -
    simp only [State.dequeue_entry_event, State.dequeue_events, List.mem_append,
      List.mem_singleton, Pending.mk.injEq]
    refine ⟨ho, fun c a ms hc hr => ?_⟩
    by_cases hcd : c = d
    · subst hcd
      exact Or.inr (Or.inr (Or.inr ⟨rfl, rfl⟩))
    · exact (hw c a ms hc (by simpa [hcd] using hr)).imp_right (Or.imp_right Or.inl)
  · rintro t buf d ⟨ho, hw⟩ - - - -
    simp only [State.signal_entry, State.signal_events, State.dequeue_entry_event,
      State.dequeue_events, EventTable.owner_signal]
    refine ⟨ho, fun c a ms hc hr => ?_⟩
    by_cases hcd : c = d
    · subst hcd
      exact Or.inl (EventTable.signalled_signal_self (ho c (by rw [hc]; trivial)))
    · exact (hw c a ms hc (by simpa [hcd] using hr)).imp_left (EventTable.Signalled.signal · _)

/-- **Step lemma of the events.** -/
theorem step (h : EventInv s) (hq : QueueInv s) {a : Action C} {s' : State C}
    (hstep : Futex.step s a = some s') : EventInv s' := by
  cases effect_of_step hstep with
  | callWaitInvalid hpc | callWait hpc | callWakeNull hpc | callWake hpc =>
    exact h.setPc (fun hp => hp.elim) (fun _ _ he => by cases he)
      (fun x hx => by rw [hpc] at hx; cases hx)
  | waitReturns b hpc =>
    exact h.setPc (fun hp => hp.elim) (fun _ _ he => by cases he)
      (fun x hx => by rw [hpc] at hx; cases hx)
  | waitEnqueues hpc _ _ _ hfree =>
    exact h.enqueue hfree (hq.noEntry _ (by rw [hpc]; trivial)) (by rw [hpc]; rfl)
  | @endWait c r _ _ hpc =>
    refine h.replaceEvents (by rw [hpc]; trivial) (fun _ _ he => by cases he)
      (by rw [hpc]; rfl) (fun _ => ?_) (fun h' _ => ?_) (fun h' hne => ?_)
    · have ho := h.owned c (by rw [hpc]; trivial)
      cases r <;> simpa [WaitResult.after] using ho
    · cases r <;> simp [WaitResult.after]
    · cases r with
      | object0 => exact EventTable.signalled_consume_of_ne hne
      | timeout | failed => rfl
  | @closeHandle c _ _ hpc =>
    exact h.replaceEvents (by rw [hpc]; trivial) (fun _ _ he => by cases he)
      (by rw [hpc]; rfl) (fun hp => hp.elim)
      (fun h' hne => EventTable.owner_close_of_ne _ hne)
      (fun h' hne => EventTable.signalled_close_of_ne hne)
  | readQueued hpc | readRemoved hpc | relockRemoved hpc =>
    exact h.setPc (fun hp => hp.elim) (fun _ _ he => by cases he)
      (fun x hx => by rw [hpc] at hx; cases hx)
  | @relockQueued c a _ hpc =>
    have hev : EventInv (s.listRemove (getFutexQueue a) c) := ⟨h.owned, h.woken⟩
    exact hev.setPc (fun hp => hp.elim) (fun _ _ he => by cases he)
      (fun x hx => by rw [State.listRemove_pc, hpc] at hx; cases hx)
  | @wakeSection w all addr hpc =>
    -- the caller had nothing pending, so the signals are those of the loop
    obtain ⟨ho, hwok⟩ := h.wakeLoop hq w all addr
    have hpcs := wakeLoop_pc s w all addr
    refine setPending (fun c hc => ho c (hpcs ▸ hc)) fun c a ms hc hr => ?_
    refine (hwok c a ms (hpcs ▸ hc) hr).imp_right (Or.imp_left ?_)
    rintro ⟨w', hw'⟩
    refine ⟨w', ?_, hpcs ▸ hw'⟩
    rintro rfl
    rw [hpc] at hw'
    cases hw'
  | @setEvent w p rest hpc =>
    refine setPending (fun c hc => by simpa using h.owned c hc) fun c a ms hc hr => ?_
    rcases h.woken c a ms hc hr with hsig | ⟨w', hw'⟩
    · exact Or.inl (hsig.signal _)
    · by_cases hww : w' = w
      · -- the signal is this one, or one that follows it
        subst hww
        rw [hpc] at hw'
        rcases List.mem_cons.mp hw' with rfl | hw'
        · have hopen : (s.pc c).OpenEvent := by
            rw [show s.pc c = .waiting a ms from hc]
            trivial
          exact Or.inl (EventTable.signalled_signal_self (h.owned c hopen))
        · exact Or.inr (Or.inr hw')
      · exact Or.inr (Or.inl ⟨w', hww, hw'⟩)
  | store => exact ⟨h.owned, h.woken⟩

end EventInv

end Futex
end ClamavWin32
