import ClamavWin32.Synchapi.CondVar

/-!
# Wake accounting of the condition variable

* `Effect` lists the branches of `step` once;
* `State.view` collects what the state says about one call: where it stands, whether its
  entry is queued, which wakes removed it and what its event is. `View.Ok` is the invariant
  of one call, a case for each place it can stand at; a step changes the views of at most
  two calls, and the frame lemmas say that it leaves the others alone;
* `OrderInv` says that a queue is sorted by the time its entries were added;
* `wake_accounting` assembles the properties of every run.
-/

namespace ClamavWin32
namespace CondVar

open TransitionSystem

variable {T C : Type*} [DecidableEq T] [DecidableEq C] {thread : C → T}

/-! ## What a step can do -/

/-- The branches of `step`, one constructor each. The critical sections are left open:
no argument below depends on who owns them. -/
inductive Effect (thread : C → T) (s : State T C) : Action T C → State T C → Prop
  | enter {t cs sections} :
      Effect thread s (.enter t cs)
        { s with sections := sections, log := s.log ++ [.entered t cs] }
  | leave {t cs sections} : Effect thread s (.leave t cs) { s with sections := sections }
  | callSleepInvalid {c cv cs ms} (hpc : s.pc c = .notCalled) :
      Effect thread s (.callSleep c cv cs ms)
        (s.setPc c (.sleepReturned false (some ERROR_INVALID_PARAMETER)))
  | callSleep {c cv cs ms} (hpc : s.pc c = .notCalled) (hcv : cv ≠ 0) :
      Effect thread s (.callSleep c cv cs ms) (s.setPc c (.createEvent cv cs ms))
  | createFails {c created cv cs ms} (hpc : s.pc c = .createEvent cv cs ms) :
      Effect thread s (.createEvent c created) (s.setPc c (.sleepReturned false none))
  | creates {c created cv cs ms} (hpc : s.pc c = .createEvent cv cs ms)
      (hfree : s.events created = none) :
      Effect thread s (.createEvent c created)
        ({ s with
          events := s.events.create created c
          entry := Function.update s.entry c ⟨cv, created⟩ }.setPc c (.enqueueLock cv cs ms))
  | enqueues {c cv cs ms sections} (hpc : s.pc c = .enqueueLock cv cs ms) :
      Effect thread s (.enqueueSection c)
        ({ s.enqueue c cv with
          sections := sections
          log := s.log ++ [SectionEvent.left c cv cs] }.setPc c (.waiting cv cs ms))
  | endWait {c result error cv cs ms} (hpc : s.pc c = .waiting cv cs ms)
      (hend : result.MayEnd s.events (s.entry c).event ms) :
      Effect thread s (.endWait c result error)
        ({ s with events := result.after s.events (s.entry c).event }.setPc c
          (.ended cv cs result error))
  | relockRemoved {c cv cs result error} (hpc : s.pc c = .ended cv cs result error)
      (haddr : (s.entry c).address = 0) (hresult : result ≠ .object0) :
      Effect thread s (.relockSection c) (s.setPc c (.waitingForWake cs))
  | relockWoken {c cv cs error} (hpc : s.pc c = .ended cv cs .object0 error)
      (haddr : (s.entry c).address = 0) :
      Effect thread s (.relockSection c) (s.setPc c (.closing cs .object0 error))
  | relockWithdraws {c cv cs result error} (hpc : s.pc c = .ended cv cs result error)
      (haddr : (s.entry c).address ≠ 0) :
      Effect thread s (.relockSection c)
        ({ s.dequeue (getCondvarQueue cv) c with
          withdrawn := Function.update s.withdrawn c (some result) }.setPc c
            (.closing cs result error))
  | endWaitForWake {c result cs} (hpc : s.pc c = .waitingForWake cs)
      (hend : result.MayEnd s.events (s.entry c).event INFINITE) :
      Effect thread s (.endWaitForWake c result)
        ({ s with events := result.after s.events (s.entry c).event }.setPc c
          (.closing cs .object0 0))
  | closeHandle {c cs result error} (hpc : s.pc c = .closing cs result error) :
      Effect thread s (.closeHandle c)
        ({ s with events := s.events.close (s.entry c).event }.setPc c
          (.entering cs result error))
  | reenter {c cs result error sections lastError}
      (hpc : s.pc c = .entering cs result error) :
      Effect thread s (.reenter c)
        ({ s with
          sections := sections
          log := s.log ++ [SectionEvent.entered (thread c) cs] }.setPc c
            (.sleepReturned (result = WaitResult.object0) lastError))
  | callWakeNull {w cv} (hpc : s.pc w = .notCalled) :
      Effect thread s (.callWake w cv) (s.setPc w .wakeReturned)
  | callWake {w cv} (hpc : s.pc w = .notCalled) (hcv : cv ≠ 0) :
      Effect thread s (.callWake w cv) (s.setPc w (.wakeLock cv))
  | wakeSection {w cv} (hpc : s.pc w = .wakeLock cv) :
      Effect thread s (.wakeSection w) ((s.wakeFirst w cv).setPc w .wakeReturned)

omit [DecidableEq C] in
lemma enterSection_eq {s s' : State T C} {t : T} {cs : Addr}
    (h : s.enterSection t cs = some s') :
    ∃ sections, s' = { s with sections := sections, log := s.log ++ [.entered t cs] } := by
  unfold State.enterSection at h
  split at h
  · cases h
    exact ⟨_, rfl⟩
  · split_ifs at h
    cases h
    exact ⟨_, rfl⟩

omit [DecidableEq C] in
lemma leaveSection_eq {s s' : State T C} {t : T} {cs : Addr}
    (h : s.leaveSection t cs = some s') :
    ∃ sections, s' = { s with sections := sections } := by
  unfold State.leaveSection at h
  split at h
  · cases h
  · split_ifs at h <;> cases h <;> exact ⟨_, rfl⟩

theorem effect_of_step {s s' : State T C} {a : Action T C}
    (h : step thread s a = some s') : Effect thread s a s' := by
  cases a with
  | enter t cs =>
    obtain ⟨_, rfl⟩ := enterSection_eq h
    exact .enter
  | leave t cs =>
    obtain ⟨_, rfl⟩ := leaveSection_eq h
    exact .leave
  | callSleep c cv cs ms =>
    simp only [step] at h
    split at h
    · split_ifs at h with hnull <;> cases h
      · exact .callSleepInvalid ‹_›
      · exact .callSleep ‹_› fun hcv => hnull (Or.inl hcv)
    · cases h
  | createEvent c created =>
    simp only [step] at h
    split at h
    · split_ifs at h with hnull hfree <;> cases h
      · exact .createFails ‹_›
      · exact .creates ‹_› (by simpa using hfree)
    · cases h
  | enqueueSection c =>
    simp only [step] at h
    split at h
    · obtain ⟨t, ht, rfl⟩ := Option.map_eq_some_iff.mp h
      obtain ⟨_, rfl⟩ := leaveSection_eq ht
      exact .enqueues ‹_›
    · cases h
  | endWait c result error =>
    simp only [step] at h
    split at h
    · split_ifs at h with hend
      cases h
      exact .endWait ‹_› hend
    · cases h
  | relockSection c =>
    -- the answer of the wait and the entry in the list tell the three cases apart
    simp only [step] at h
    split at h
    · rename_i result error hpc
      split_ifs at h with haddr hresult <;> cases h
      · exact .relockRemoved hpc haddr hresult
      · obtain rfl : result = .object0 := by simpa using hresult
        exact .relockWoken hpc haddr
      · exact .relockWithdraws hpc haddr
    · cases h
  | endWaitForWake c result =>
    simp only [step] at h
    split at h
    · split_ifs at h with hend
      cases h
      exact .endWaitForWake ‹_› hend
    · cases h
  | closeHandle c =>
    simp only [step] at h
    split at h <;> cases h
    exact .closeHandle ‹_›
  | reenter c =>
    simp only [step] at h
    split at h
    · rename_i result error hpc
      obtain ⟨t, ht, rfl⟩ := Option.map_eq_some_iff.mp h
      obtain ⟨_, rfl⟩ := enterSection_eq ht
      cases result <;> exact .reenter hpc
    · cases h
  | callWake w cv =>
    simp only [step] at h
    split at h
    · split_ifs at h with hcv <;> cases h
      · exact .callWakeNull ‹_›
      · exact .callWake ‹_› hcv
    · cases h
  | wakeSection w =>
    simp only [step] at h
    split at h <;> cases h
    exact .wakeSection ‹_›

/-! ## What the state says about one call -/

/-- The call has created its event and not closed it yet. -/
def Pc.OpenEvent : Pc → Prop
  | .enqueueLock .. | .waiting .. | .ended .. | .waitingForWake _ | .closing .. => True
  | _ => False

instance (p : Pc) : Decidable p.OpenEvent := by
  cases p <;> unfold Pc.OpenEvent <;> infer_instance

/-- What the state says about one call: its entry, the queues that link it, the wakes that
removed it and the object under its handle. -/
structure View (C : Type*) where
  address : Addr
  queued : Fin 256 → Prop
  removals : List C
  withdrawn : Option WaitResult
  event : Option (EventObject C)

/-- The view of the call `c`. -/
def State.view (s : State T C) (c : C) : View C where
  address := (s.entry c).address
  queued := fun q => c ∈ s.queues q
  removals := s.removals c
  withdrawn := s.withdrawn c
  event := s.events (s.entry c).event

omit [DecidableEq T] in
@[simp] lemma State.setPc_pc (s : State T C) (c : C) (p : Pc) :
    (s.setPc c p).pc = Function.update s.pc c p := rfl

omit [DecidableEq T] in
/-- The section of a wake moves no other call. -/
lemma wakeFirst_pc (s : State T C) (w : C) (cv : Addr) : (s.wakeFirst w cv).pc = s.pc := by
  unfold State.wakeFirst
  split <;> rfl

namespace View

variable {v : View C}

/-- No entry of the call was ever queued. -/
def Fresh (v : View C) : Prop :=
  (∀ q, ¬ v.queued q) ∧ v.removals = [] ∧ v.withdrawn = none

/-- The entry is in the queue of its condition variable, and no other. -/
def Queued (cv : Addr) (v : View C) : Prop :=
  v.address = cv ∧ (∀ q, v.queued q ↔ q = getCondvarQueue cv) ∧ v.removals = []

/-- One wake has removed the entry. -/
def Removed (v : View C) : Prop :=
  v.address = 0 ∧ (∀ q, ¬ v.queued q) ∧ ∃ w, v.removals = [w]

/-- The second section of the call is over, and decided for `result`: a wake removed the
entry, or the call took it out itself after its wait had ended with `result`. -/
def Decided (result : WaitResult) (v : View C) : Prop :=
  result = .object0 ∧ v.Removed ∨
    result ≠ .object0 ∧ (∀ q, ¬ v.queued q) ∧ v.removals = [] ∧ v.withdrawn = some result

/-- The invariant of the call `c` where it stands. -/
def Ok (c : C) (v : View C) : Pc → Prop
  | .notCalled | .wakeLock _ | .wakeReturned => v.Fresh
  | .createEvent cv _ _ => cv ≠ 0 ∧ v.Fresh
  | .enqueueLock cv _ _ => cv ≠ 0 ∧ v.address = cv ∧ v.Fresh ∧ v.event = some ⟨c, false⟩
  | .waiting cv _ _ => cv ≠ 0 ∧ v.withdrawn = none ∧
      (v.Queued cv ∧ v.event = some ⟨c, false⟩ ∨ v.Removed ∧ v.event = some ⟨c, true⟩)
  | .ended cv _ result _ => cv ≠ 0 ∧ v.withdrawn = none ∧
      (v.Queued cv ∧ result ≠ .object0 ∧ v.event = some ⟨c, false⟩ ∨
        v.Removed ∧ v.event = some ⟨c, result ≠ .object0⟩)
  | .waitingForWake _ => v.Removed ∧ v.event = some ⟨c, true⟩
  | .closing _ result _ => v.Decided result ∧ ∃ b, v.event = some ⟨c, b⟩
  | .entering _ result _ => v.Decided result
  | .sleepReturned b _ =>
      b = true ∧ v.Removed ∨ b = false ∧ (∀ q, ¬ v.queued q) ∧ v.removals = []

variable {c : C} {p : Pc}

omit [DecidableEq C]

/-- A call owns the event it has open. -/
lemma Ok.event (h : v.Ok c p) (hopen : p.OpenEvent) : ∃ b, v.event = some ⟨c, b⟩ := by
  cases p with
  | enqueueLock => exact ⟨_, h.2.2.2⟩
  | waiting => rcases h.2.2 with ⟨-, he⟩ | ⟨-, he⟩ <;> exact ⟨_, he⟩
  | ended => rcases h.2.2 with ⟨-, -, he⟩ | ⟨-, he⟩ <;> exact ⟨_, he⟩
  | waitingForWake => exact ⟨_, h.2⟩
  | closing => exact h.2
  | _ => exact hopen.elim

/-- The object under the handle of a call that has no event open does not concern it. -/
lemma Ok.congr_event {e : Option (EventObject C)} (h : v.Ok c p)
    (he : p.OpenEvent → e = v.event) : ({ v with event := e } : View C).Ok c p := by
  cases p with
  | enqueueLock | waiting | ended | waitingForWake | closing =>
    rw [he trivial]
    exact h
  | _ => exact h

lemma Decided.not_queued {result : WaitResult} (h : v.Decided result) (q : Fin 256) :
    ¬ v.queued q := by
  rcases h with ⟨-, -, h, -⟩ | ⟨-, h, -⟩
  · exact h q
  · exact h q

/-- At most one wake has removed the entry of a call. -/
lemma Ok.removals (h : v.Ok c p) : v.removals = [] ∨ ∃ w, v.removals = [w] := by
  have hdecided : ∀ {result}, v.Decided result → v.removals = [] ∨ ∃ w, v.removals = [w] := by
    rintro result (⟨-, hrem⟩ | ⟨-, -, hr, -⟩)
    · exact Or.inr hrem.2.2
    · exact Or.inl hr
  cases p with
  | notCalled | wakeLock | wakeReturned => exact Or.inl h.2.1
  | createEvent => exact Or.inl h.2.2.1
  | enqueueLock => exact Or.inl h.2.2.1.2.1
  | waiting =>
    rcases h.2.2 with ⟨hqd, -⟩ | ⟨hrem, -⟩
    · exact Or.inl hqd.2.2
    · exact Or.inr hrem.2.2
  | ended =>
    rcases h.2.2 with ⟨hqd, -⟩ | ⟨hrem, -⟩
    · exact Or.inl hqd.2.2
    · exact Or.inr hrem.2.2
  | waitingForWake => exact Or.inr h.1.2.2
  | closing => exact hdecided h.1
  | entering => exact hdecided h
  | sleepReturned =>
    rcases h with ⟨-, hrem⟩ | ⟨-, -, hr⟩
    · exact Or.inr hrem.2.2
    · exact Or.inl hr

/-- A call with its entry queued is in its first wait, or just past it without the
signal. -/
lemma Ok.of_queued (h : v.Ok c p) {q : Fin 256} (hq : v.queued q) :
    ∃ cv cs, cv ≠ 0 ∧ q = getCondvarQueue cv ∧ v.Queued cv ∧ v.withdrawn = none ∧
      v.event = some ⟨c, false⟩ ∧
      ((∃ ms, p = .waiting cv cs ms) ∨
        ∃ result error, p = .ended cv cs result error ∧ result ≠ .object0) := by
  cases p with
  | waiting cv cs ms =>
    obtain ⟨hcv, hw, ⟨hqd, he⟩ | ⟨hrem, -⟩⟩ := h
    · exact ⟨cv, cs, hcv, (hqd.2.1 q).mp hq, hqd, hw, he, Or.inl ⟨ms, rfl⟩⟩
    · exact absurd hq (hrem.2.1 q)
  | ended cv cs result error =>
    obtain ⟨hcv, hw, ⟨hqd, hr, he⟩ | ⟨hrem, -⟩⟩ := h
    · exact ⟨cv, cs, hcv, (hqd.2.1 q).mp hq, hqd, hw, he, Or.inr ⟨result, error, rfl, hr⟩⟩
    · exact absurd hq (hrem.2.1 q)
  | notCalled | wakeLock | wakeReturned => exact absurd hq (h.1 q)
  | createEvent => exact absurd hq (h.2.1 q)
  | enqueueLock => exact absurd hq (h.2.2.1.1 q)
  | waitingForWake => exact absurd hq (h.1.2.1 q)
  | closing => exact absurd hq (h.1.not_queued q)
  | entering => exact absurd hq (Decided.not_queued h q)
  | sleepReturned b =>
    rcases h with ⟨-, -, h, -⟩ | ⟨-, h, -⟩
    · exact absurd hq (h q)
    · exact absurd hq (h q)

end View

/-- Every call meets its invariant, and a queue links an entry once. -/
structure CallsInv (s : State T C) : Prop where
  ok : ∀ c, (s.view c).Ok c (s.pc c)
  nodup : ∀ q, (s.queues q).Nodup

namespace CallsInv

variable {s s' : State T C} {c : C}

omit [DecidableEq T] [DecidableEq C]

lemma init : CallsInv (State.init : State T C) where
  ok _ := And.intro (fun _ h => by cases h) ⟨rfl, rfl⟩
  nodup _ := List.nodup_nil

lemma at_pc (h : CallsInv s) {p : Pc} (hpc : s.pc c = p) : (s.view c).Ok c p :=
  hpc ▸ h.ok c

/-- **Frame rule.** A call that a step does not move keeps its invariant, if its event is
left alone while it has it open. -/
lemma frame (h : CallsInv s) (hpc : s'.pc c = s.pc c) (hentry : s'.entry c = s.entry c)
    (hq : ∀ q, c ∈ s'.queues q ↔ c ∈ s.queues q) (hr : s'.removals c = s.removals c)
    (hw : s'.withdrawn c = s.withdrawn c)
    (hev : (s.pc c).OpenEvent → s'.events (s.entry c).event = s.events (s.entry c).event) :
    (s'.view c).Ok c (s'.pc c) := by
  have hview : s'.view c = { s.view c with event := s'.events (s.entry c).event } := by
    simp only [State.view, hentry, hr, hw, hq]
  rw [hpc, hview]
  exact (h.ok c).congr_event hev

/-- A step on the event of one call leaves those of the other calls alone. -/
lemma event_eq (h : CallsInv s) {evs : EventTable C} (handle : Handle)
    (hevs : ∀ h', h' ≠ handle → evs h' = s.events h')
    (hown : ∀ b, s.events handle ≠ some ⟨c, b⟩) (hopen : (s.pc c).OpenEvent) :
    evs (s.entry c).event = s.events (s.entry c).event := by
  obtain ⟨b, he⟩ := (h.ok c).event hopen
  refine hevs _ ?_
  rintro rfl
  exact hown b he

/-- A call that has moved meets its invariant, and the others still do. -/
lemma ok_of_moved [DecidableEq C] {p : Pc} (hpc : s'.pc = Function.update s.pc c p)
    (hok : (s'.view c).Ok c p)
    (hothers : ∀ d, d ≠ c → s'.pc d = s.pc d → (s'.view d).Ok d (s'.pc d)) (d : C) :
    (s'.view d).Ok d (s'.pc d) := by
  by_cases hdc : d = c
  · subst hdc
    rw [hpc, Function.update_self]
    exact hok
  · have hstays : s'.pc d = s.pc d := by rw [hpc, Function.update_of_ne hdc]
    exact hothers d hdc hstays

/-- A call that moves without touching its entry or its event. -/
lemma setPc [DecidableEq C] (h : CallsInv s) {p : Pc} (hp : (s.view c).Ok c p) :
    CallsInv (s.setPc c p) := by
  refine ⟨ok_of_moved rfl hp fun d _ hpc => ?_, h.nodup⟩
  exact h.frame hpc rfl (fun _ => Iff.rfl) rfl rfl fun _ => rfl

/-- A call that moves and changes the object under the handle of its event. -/
lemma setEvents [DecidableEq C] (h : CallsInv s) {p : Pc} {evs : EventTable C} {b : Bool}
    (hown : s.events (s.entry c).event = some ⟨c, b⟩)
    (hevs : ∀ h', h' ≠ (s.entry c).event → evs h' = s.events h')
    (hp : ({ s.view c with event := evs (s.entry c).event } : View C).Ok c p) :
    CallsInv ({ s with events := evs }.setPc c p) := by
  refine ⟨ok_of_moved rfl hp fun d hdc hpc => ?_, h.nodup⟩
  refine h.frame hpc rfl (fun _ => Iff.rfl) rfl rfl ?_
  refine h.event_eq _ hevs fun b' he => ?_
  rw [hown] at he
  cases he
  exact hdc rfl

variable [DecidableEq C]

/-- The entry of `c` enters the queue. -/
lemma enqueue (h : CallsInv s) {cv cs : Addr} {ms : ℕ} (hpc : s.pc c = .enqueueLock cv cs ms) :
    CallsInv ((s.enqueue c cv).setPc c (.waiting cv cs ms)) := by
  obtain ⟨hcv, haddr, ⟨hnot, hr, hw⟩, he⟩ := h.at_pc hpc
  have hmem : ∀ q d, d ∈ (s.enqueue c cv).queues q ↔
      d ∈ s.queues q ∨ d = c ∧ q = getCondvarQueue cv := by
    intro q d
    by_cases hq : q = getCondvarQueue cv
    · subst hq
      simp [State.enqueue]
    · simp [State.enqueue, hq]
  refine ⟨ok_of_moved rfl ?_ fun d hdc hpcd => ?_, fun q => ?_⟩
  · refine ⟨hcv, hw, Or.inl ⟨⟨haddr, fun q => ?_, hr⟩, he⟩⟩
    exact (hmem q c).trans ⟨fun hq => (hq.resolve_left (hnot q)).2, fun hq => Or.inr ⟨rfl, hq⟩⟩
  · refine h.frame hpcd rfl (fun q => ?_) rfl rfl fun _ => rfl
    exact (hmem q d).trans ⟨fun hq => hq.resolve_right fun hq' => hdc hq'.1, Or.inl⟩
  · by_cases hq : q = getCondvarQueue cv
    · subst hq
      simpa [State.enqueue, State.setPc, List.nodup_append] using
        ⟨h.nodup _, fun d hd hdc => hnot _ (hdc ▸ hd)⟩
    · simpa [State.enqueue, State.setPc, hq] using h.nodup q

omit [DecidableEq T] in
/-- Taking an entry out of its queue takes it out of every queue, and no other entry. -/
lemma mem_dequeue (h : CallsInv s) {cv : Addr} (hq : (s.view c).Queued cv) (q : Fin 256)
    (d : C) : d ∈ (s.dequeue (getCondvarQueue cv) c).queues q ↔ d ∈ s.queues q ∧ d ≠ c := by
  by_cases hqc : q = getCondvarQueue cv
  · subst hqc
    simpa [State.dequeue, and_comm] using (h.nodup (getCondvarQueue cv)).mem_erase_iff
  · have hc : c ∉ s.queues q := fun hc => hqc ((hq.2.1 q).mp hc)
    have hsame : (s.dequeue (getCondvarQueue cv) c).queues q = s.queues q := by
      simp [State.dequeue, hqc]
    rw [hsame]
    exact ⟨fun hd => ⟨hd, fun hdc => hc (hdc ▸ hd)⟩, And.left⟩

lemma nodup_dequeue (h : CallsInv s) (q' : Fin 256) (c : C) (q : Fin 256) :
    ((s.dequeue q' c).queues q).Nodup := by
  by_cases hq : q = q'
  · subst hq
    simpa [State.dequeue] using (h.nodup q).erase c
  · simpa [State.dequeue, hq] using h.nodup q

/-- The call `c` takes its entry out of its queue itself. -/
lemma withdraw (h : CallsInv s) {cv cs : Addr} {result : WaitResult} {error : ErrorCode}
    (hpc : s.pc c = .ended cv cs result error) (haddr : (s.entry c).address ≠ 0) :
    CallsInv ({ s.dequeue (getCondvarQueue cv) c with
      withdrawn := Function.update s.withdrawn c (some result) }.setPc c
        (.closing cs result error)) := by
  obtain ⟨hcv, hw, ⟨hqd, hres, he⟩ | ⟨hrem, -⟩⟩ := h.at_pc hpc
  · have hmem := h.mem_dequeue hqd
    refine ⟨ok_of_moved rfl ?_ fun d hdc hpcd => ?_, h.nodup_dequeue _ c⟩
    · refine ⟨Or.inr ⟨hres, fun q hq => ?_, hqd.2.2, by simp [State.view, State.setPc]⟩, false, ?_⟩
      · exact ((hmem q c).mp hq).2 rfl
      · simpa [State.view, State.setPc, State.dequeue] using he
    · refine h.frame hpcd (by simp [State.setPc, State.dequeue, hdc]) (fun q => ?_) rfl
        (by simp [State.setPc, hdc]) fun _ => rfl
      exact (hmem q d).trans (and_iff_left hdc)
  · exact absurd hrem.1 haddr

/-- What the section of a wake does: nothing, or it removes one entry. -/
lemma wakeFirst (h : CallsInv s) (w : C) (cv : Addr) : CallsInv (s.wakeFirst w cv) := by
  unfold State.wakeFirst
  split
  · exact h
  · rename_i c hfind
    have hc : c ∈ s.queues (getCondvarQueue cv) := List.mem_of_find?_eq_some hfind
    obtain ⟨cv', cs, hcv, hbucket, hqd, hw, he, hstands⟩ := (h.ok c).of_queued hc
    have hevent : s.events (s.entry c).event = some ⟨c, false⟩ := he
    have hmem := h.mem_dequeue hqd
    rw [← hbucket] at hmem
    refine ⟨fun d => ?_, h.nodup_dequeue _ c⟩
    by_cases hdc : d = c
    · -- the call that is woken is removed once, and its event is signalled
      subst hdc
      have hrem : (State.view { (s.dequeue (getCondvarQueue cv) d).setEvent d with
          removals := Function.update s.removals d (s.removals d ++ [w]) } d).Removed :=
        ⟨by simp [State.view, State.setEvent, State.dequeue], fun q hq => ((hmem q d).mp hq).2 rfl,
          w, by simpa [State.view] using hqd.2.2⟩
      have hsig : (State.view { (s.dequeue (getCondvarQueue cv) d).setEvent d with
          removals := Function.update s.removals d (s.removals d ++ [w]) } d).event =
            some ⟨d, true⟩ := by
        simp [State.view, State.setEvent, State.dequeue, EventTable.signal, hevent]
      change View.Ok d _ (s.pc d)
      rcases hstands with ⟨ms, hpc⟩ | ⟨result, error, hpc, hres⟩
      · rw [hpc]
        exact ⟨hcv, hw, Or.inr ⟨hrem, hsig⟩⟩
      · rw [hpc]
        exact ⟨hcv, hw, Or.inr ⟨hrem, by simpa [hres] using hsig⟩⟩
    · -- the others keep their entries, and their events are other ones
      refine h.frame rfl (by simp [State.setEvent, State.dequeue, hdc]) (fun q => ?_)
        (by simp [hdc]) rfl ?_
      · exact (hmem q d).trans (and_iff_left hdc)
      · refine h.event_eq (s.entry c).event (fun h' hne => ?_) fun b hb => ?_
        · simp [State.setEvent, State.dequeue, EventTable.signal, hne]
        · rw [hevent] at hb
          cases hb
          exact hdc rfl

/-- **Step lemma of the calls.** -/
theorem step [DecidableEq T] (h : CallsInv s) {a : Action T C}
    (hstep : CondVar.step thread s a = some s') : CallsInv s' := by
  cases effect_of_step hstep with
  | enter | leave => exact ⟨h.ok, h.nodup⟩
  | callSleepInvalid hpc =>
    obtain ⟨hnot, hr, -⟩ := h.at_pc hpc
    exact h.setPc (Or.inr ⟨rfl, hnot, hr⟩)
  | callSleep hpc hcv => exact h.setPc ⟨hcv, h.at_pc hpc⟩
  | createFails hpc =>
    obtain ⟨-, hnot, hr, -⟩ := h.at_pc hpc
    exact h.setPc (Or.inr ⟨rfl, hnot, hr⟩)
  | @creates c created cv cs ms hpc hfree =>
    obtain ⟨hcv, hfresh⟩ := h.at_pc hpc
    refine ⟨ok_of_moved rfl ?_ fun d hdc hpcd => ?_, h.nodup⟩
    · exact ⟨hcv, by simp [State.view, State.setPc], hfresh,
        by simp [State.view, State.setPc, EventTable.create]⟩
    · refine h.frame hpcd (by simp [State.setPc, hdc]) (fun _ => Iff.rfl) rfl rfl ?_
      refine h.event_eq created (fun h' hne => ?_) fun b hb => ?_
      · simp [State.setPc, EventTable.create, hne]
      · rw [hfree] at hb
        cases hb
  | enqueues hpc =>
    have h' := h.enqueue hpc
    exact ⟨h'.ok, h'.nodup⟩
  | @endWait c result error cv cs ms hpc hend =>
    obtain ⟨hcv, hw, ⟨hqd, he⟩ | ⟨hrem, he⟩⟩ := h.at_pc hpc
    · -- the event is not signalled, so the wait did not end with the signal
      have hevent : s.events (s.entry c).event = some ⟨c, false⟩ := he
      have hres : result ≠ .object0 := by
        rintro rfl
        simp [WaitResult.MayEnd, EventTable.Signalled, hevent] at hend
      have hafter : result.after s.events (s.entry c).event = s.events := by
        cases result with
        | object0 => exact absurd rfl hres
        | timeout | failed => rfl
      rw [hafter]
      exact h.setPc ⟨hcv, hw, Or.inl ⟨hqd, hres, he⟩⟩
    · -- a wake has removed the entry; a signal that the wait took is gone from the event
      have hevent : s.events (s.entry c).event = some ⟨c, true⟩ := he
      refine h.setEvents hevent (fun h' hne => ?_) ⟨hcv, hw, Or.inr ⟨hrem, ?_⟩⟩
      · cases result <;> simp [WaitResult.after, EventTable.consume, hne]
      · cases result <;> simp [WaitResult.after, EventTable.consume, hevent]
  | relockRemoved hpc haddr hresult =>
    obtain ⟨hcv, -, ⟨hqd, -⟩ | ⟨hrem, he⟩⟩ := h.at_pc hpc
    · exact absurd (hqd.1.symm.trans haddr) hcv
    · exact h.setPc ⟨hrem, by simpa [hresult] using he⟩
  | relockWoken hpc haddr =>
    -- with its entry still queued the wait could not end with the signal
    obtain ⟨-, -, ⟨-, hres, -⟩ | ⟨hrem, he⟩⟩ := h.at_pc hpc
    · exact absurd rfl hres
    · exact h.setPc ⟨Or.inl ⟨rfl, hrem⟩, _, he⟩
  | relockWithdraws hpc haddr => exact h.withdraw hpc haddr
  | @endWaitForWake c result cs hpc hend =>
    obtain ⟨hrem, he⟩ := h.at_pc hpc
    have hevent : s.events (s.entry c).event = some ⟨c, true⟩ := he
    refine h.setEvents hevent (fun h' hne => ?_) ⟨Or.inl ⟨rfl, hrem⟩, ?_⟩
    · cases result <;> simp [WaitResult.after, EventTable.consume, hne]
    · cases result <;> simp [WaitResult.after, EventTable.consume, hevent]
  | @closeHandle c cs result error hpc =>
    obtain ⟨hdec, b, he⟩ := h.at_pc hpc
    have hevent : s.events (s.entry c).event = some ⟨c, b⟩ := he
    refine h.setEvents hevent (fun h' hne => ?_) hdec
    simp [EventTable.close, hne]
  | @reenter c cs result error sections lastError hpc =>
    have h' : CallsInv { s with
      sections := sections
      log := s.log ++ [SectionEvent.entered (thread c) cs] } := ⟨h.ok, h.nodup⟩
    refine h'.setPc ?_
    rcases h.at_pc hpc with ⟨hres, hrem⟩ | ⟨hres, hnot, hr, -⟩
    · exact Or.inl ⟨by simpa using hres, hrem⟩
    · exact Or.inr ⟨by simpa using hres, hnot, hr⟩
  | callWakeNull hpc | callWake hpc =>
    have hfresh : View.Fresh _ := h.at_pc hpc
    exact h.setPc hfresh
  | @wakeSection w cv hpc =>
    have h' := h.wakeFirst w cv
    have hfresh : View.Fresh _ := h'.at_pc ((congrFun (wakeFirst_pc s w cv) w).trans hpc)
    exact h'.setPc hfresh

end CallsInv

/-! ## The order of a queue -/

/-- A queue is sorted by the time its entries were added. -/
structure OrderInv (s : State T C) : Prop where
  sorted : ∀ q, (s.queues q).Pairwise fun c d => s.queuedAt c < s.queuedAt d
  bound : ∀ c q, c ∈ s.queues q → s.queuedAt c < s.clock

namespace OrderInv

variable {s s' : State T C}

omit [DecidableEq T] in
lemma dequeue (h : OrderInv s) (q : Fin 256) (c : C) : OrderInv (s.dequeue q c) := by
  have hsub : ∀ q', ((s.dequeue q c).queues q').Sublist (s.queues q') := by
    intro q'
    by_cases hq : q' = q
    · subst hq
      simpa [State.dequeue] using List.erase_sublist
    · simp [State.dequeue, hq]
  exact ⟨fun q' => (h.sorted q').sublist (hsub q'),
    fun d q' hd => h.bound d q' ((hsub q').subset hd)⟩

omit [DecidableEq T] in
lemma enqueue (h : OrderInv s) {c : C} (hnot : ∀ q, c ∉ s.queues q) (cv : Addr) :
    OrderInv (s.enqueue c cv) := by
  have hold : ∀ q, ∀ d ∈ s.queues q, (s.enqueue c cv).queuedAt d = s.queuedAt d := by
    intro q d hd
    have hdc : d ≠ c := fun hdc => hnot q (hdc ▸ hd)
    simp [State.enqueue, hdc]
  have hsorted : ∀ q, (s.queues q).Pairwise fun d e =>
      (s.enqueue c cv).queuedAt d < (s.enqueue c cv).queuedAt e := by
    intro q
    refine (h.sorted q).imp_of_mem fun hd he hlt => ?_
    rwa [hold q _ hd, hold q _ he]
  -- the new entry is later than all others
  have hnew : (s.enqueue c cv).queuedAt c = s.clock := by simp [State.enqueue]
  refine ⟨fun q => ?_, fun d q hd => ?_⟩
  · by_cases hq : q = getCondvarQueue cv
    · subst hq
      have hqueue : (s.enqueue c cv).queues (getCondvarQueue cv) =
          s.queues (getCondvarQueue cv) ++ [c] := by simp [State.enqueue]
      rw [hqueue, List.pairwise_append]
      refine ⟨hsorted _, List.pairwise_singleton _ _, fun d hd e he => ?_⟩
      rw [List.mem_singleton.mp he, hnew, hold _ d hd]
      exact h.bound d _ hd
    · have hqueue : (s.enqueue c cv).queues q = s.queues q := by simp [State.enqueue, hq]
      rw [hqueue]
      exact hsorted q
  · have hmem : d ∈ s.queues q ∨ d = c := by
      by_cases hq : q = getCondvarQueue cv
      · subst hq
        simpa [State.enqueue] using hd
      · exact Or.inl (by simpa [State.enqueue, hq] using hd)
    have hclock : (s.enqueue c cv).clock = s.clock + 1 := rfl
    rcases hmem with hd | rfl
    · have hlt := h.bound d q hd
      rw [hold q d hd, hclock]
      omega
    · rw [hnew, hclock]
      omega

lemma step (h : OrderInv s) (hc : CallsInv s) {a : Action T C}
    (hstep : CondVar.step thread s a = some s') : OrderInv s' := by
  cases effect_of_step hstep with
  | @enqueues c cv _ _ _ hpc =>
    have h' := h.enqueue (hc.at_pc hpc).2.2.1.1 cv
    exact ⟨h'.sorted, h'.bound⟩
  | @relockWithdraws c cv =>
    have h' := h.dequeue (getCondvarQueue cv) c
    exact ⟨h'.sorted, h'.bound⟩
  | @wakeSection w cv =>
    have h' : OrderInv (s.wakeFirst w cv) := by
      unfold State.wakeFirst
      split
      · exact h
      · rename_i c hfind
        have h' := h.dequeue (getCondvarQueue cv) c
        exact ⟨h'.sorted, h'.bound⟩
    exact ⟨h'.sorted, h'.bound⟩
  | _ => exact ⟨h.sorted, h.bound⟩

end OrderInv

/-! ## Wakes, signals and the critical section -/

/-- The entry of `c` is queued for `cv`. -/
def Waits (s : State T C) (cv : Addr) (c : C) : Prop :=
  c ∈ s.queues (getCondvarQueue cv) ∧ (s.entry c).address = cv

/-- The entry of `c` was taken out of its queue by a wake, or by `c` itself after its wait
had timed out or failed. -/
def LeftQueue (s : State T C) (c : C) : Prop :=
  s.removals c ≠ [] ∨ s.withdrawn c = some .timeout ∨ s.withdrawn c = some .failed

/-- What the history says: a wake has removed at most one entry, every `SetEvent` reached
the event of the call it was meant for, and a waiter that has left its critical section is
queued until it leaves the queue in one of the ways of `LeftQueue`. -/
structure HistoryInv (s : State T C) : Prop where
  returned : ∀ c w, w ∈ s.removals c → s.pc w = .wakeReturned
  unique : ∀ c d w, w ∈ s.removals c → w ∈ s.removals d → c = d
  signals : ∀ g ∈ s.signals, g.hit = some g.call
  left : ∀ c cv cs, .left c cv cs ∈ s.log → Waits s cv c ∨ LeftQueue s c

namespace HistoryInv

variable {s s' : State T C} {c : C}

omit [DecidableEq T] in
/-- A step of a call that is not a wake which has returned, and keeps its entry. -/
lemma setPc (h : HistoryInv s) {p₀ p : Pc} (hpc : s.pc c = p₀) (hp₀ : p₀ ≠ .wakeReturned) :
    HistoryInv (s.setPc c p) where
  returned d w hw := by
    have hwc : w ≠ c := by
      rintro rfl
      exact hp₀ (hpc.symm.trans (h.returned d w hw))
    simpa [hwc] using h.returned d w hw
  unique := h.unique
  signals := h.signals
  left := h.left

omit [DecidableEq T] [DecidableEq C] in
/-- A call whose entry was never queued has not left a critical section. -/
lemma not_left (h : HistoryInv s) (hfresh : (s.view c).Fresh) (cv cs : Addr) :
    .left c cv cs ∉ s.log := by
  intro hleft
  obtain ⟨hnot, hr, hw⟩ := hfresh
  have hw' : s.withdrawn c = none := hw
  rcases h.left c cv cs hleft with ⟨hq, -⟩ | hrem | hout | hout
  · exact hnot _ hq
  · exact hrem hr
  · rw [hw'] at hout
    cases hout
  · rw [hw'] at hout
    cases hout

omit [DecidableEq T] in
/-- The call `c` takes its entry out of its queue itself. -/
lemma withdraw (h : HistoryInv s) (hc : CallsInv s) {cv cs : Addr} {result : WaitResult}
    {error : ErrorCode} (hpc : s.pc c = .ended cv cs result error)
    (haddr : (s.entry c).address ≠ 0) :
    HistoryInv { s.dequeue (getCondvarQueue cv) c with
      withdrawn := Function.update s.withdrawn c (some result) } := by
  obtain ⟨-, -, ⟨hqd, hres, -⟩ | ⟨hrem, -⟩⟩ := hc.at_pc hpc
  · refine ⟨h.returned, h.unique, h.signals, fun d cv' cs' hd => ?_⟩
    by_cases hdc : d = c
    · subst hdc
      cases result with
      | object0 => exact absurd rfl hres
      | timeout => exact Or.inr (Or.inr (Or.inl (by simp)))
      | failed => exact Or.inr (Or.inr (Or.inr (by simp)))
    · refine (h.left d cv' cs' hd).imp ?_ ?_
      · rintro ⟨hq, ha⟩
        exact ⟨(hc.mem_dequeue hqd _ d).mpr ⟨hq, hdc⟩, by simpa [State.dequeue, hdc] using ha⟩
      · exact fun hleft => by simpa [LeftQueue, State.dequeue, hdc] using hleft
  · exact absurd hrem.1 haddr

omit [DecidableEq T] in
/-- The section of the wake call `w`. -/
lemma wakeFirst (h : HistoryInv s) (hc : CallsInv s) {w : C} {cv : Addr}
    (hpc : s.pc w = .wakeLock cv) : HistoryInv ((s.wakeFirst w cv).setPc w .wakeReturned) := by
  have hnew : ∀ d, w ∉ s.removals d := fun d hw => by
    rw [h.returned d w hw] at hpc
    cases hpc
  unfold State.wakeFirst
  split
  · exact h.setPc hpc (by simp)
  · rename_i c hfind
    have hmem : c ∈ s.queues (getCondvarQueue cv) := List.mem_of_find?_eq_some hfind
    obtain ⟨cv', cs, -, hbucket, hqd, -, he, -⟩ := (hc.ok c).of_queued hmem
    have hevent : s.events (s.entry c).event = some ⟨c, false⟩ := he
    have hdequeue := hc.mem_dequeue hqd
    rw [← hbucket] at hdequeue
    have hremovals : ∀ d x, x ∈ Function.update s.removals c (s.removals c ++ [w]) d →
        x ∈ s.removals d ∨ d = c ∧ x = w := by
      intro d x hx
      by_cases hdc : d = c
      · subst hdc
        simpa using hx
      · exact Or.inl (by simpa [hdc] using hx)
    refine ⟨fun d x hx => ?_, fun d e x hd he => ?_, fun g hg => ?_, fun d cv₁ cs₁ hd => ?_⟩
    · rcases hremovals d x hx with hx | ⟨-, rfl⟩
      · have hxw : x ≠ w := fun hxw => hnew d (hxw ▸ hx)
        simpa [State.setEvent, State.dequeue, hxw] using h.returned d x hx
      · simp
    · rcases hremovals d x hd with hd' | ⟨rfl, rfl⟩
      · rcases hremovals e x he with he' | ⟨rfl, rfl⟩
        · exact h.unique d e x hd' he'
        · exact absurd hd' (hnew d)
      · rcases hremovals e x he with he' | ⟨rfl, -⟩
        · exact absurd he' (hnew e)
        · rfl
    · rcases List.mem_append.mp hg with hg | hg
      · exact h.signals g hg
      · rw [List.mem_singleton.mp hg]
        simp [State.dequeue, EventTable.owner, hevent]
    · by_cases hdc : d = c
      · subst hdc
        exact Or.inr (Or.inl (by simp [State.setPc]))
      · refine (h.left d cv₁ cs₁ hd).imp ?_ ?_
        · rintro ⟨hq, ha⟩
          exact ⟨(hdequeue _ d).mpr ⟨hq, hdc⟩,
            by simpa [State.setPc, State.setEvent, State.dequeue, hdc] using ha⟩
        · exact fun hleft => by
            simpa [LeftQueue, State.setPc, State.setEvent, State.dequeue, hdc] using hleft

lemma step (h : HistoryInv s) (hc : CallsInv s) {a : Action T C}
    (hstep : CondVar.step thread s a = some s') : HistoryInv s' := by
  cases effect_of_step hstep with
  | @enter t cs =>
    refine ⟨h.returned, h.unique, h.signals, fun c cv cs' hc => h.left c cv cs' ?_⟩
    simpa using hc
  | leave => exact ⟨h.returned, h.unique, h.signals, h.left⟩
  | callSleepInvalid hpc | callSleep hpc | createFails hpc | relockRemoved hpc
  | relockWoken hpc | callWakeNull hpc | callWake hpc =>
    exact h.setPc hpc (by simp)
  | @creates c created cv cs ms hpc =>
    have hnot := h.not_left (hc.at_pc hpc).2
    refine HistoryInv.setPc ?_ hpc (by simp)
    refine ⟨h.returned, h.unique, h.signals, fun d cv' cs' hd => ?_⟩
    have hdc : d ≠ c := fun hdc => hnot cv' cs' (hdc ▸ hd)
    simpa [Waits, LeftQueue, hdc] using h.left d cv' cs' hd
  | @enqueues c cv cs ms sections hpc =>
    obtain ⟨-, haddr, -⟩ := hc.at_pc hpc
    refine HistoryInv.setPc ?_ hpc (by simp)
    refine ⟨h.returned, h.unique, h.signals, fun d cv' cs' hd => ?_⟩
    have hqueue : ∀ q d, d ∈ s.queues q → d ∈ (s.enqueue c cv).queues q := by
      intro q d hd
      by_cases hq : q = getCondvarQueue cv
      · subst hq
        simp [State.enqueue, hd]
      · simpa [State.enqueue, hq] using hd
    rcases List.mem_append.mp hd with hd | hd
    · exact (h.left d cv' cs' hd).imp_left fun hw => ⟨hqueue _ d hw.1, hw.2⟩
    · -- the waiter that leaves is queued in the same step
      cases List.mem_singleton.mp hd
      exact Or.inl ⟨by simp [State.enqueue], haddr⟩
  | endWait hpc | endWaitForWake hpc | closeHandle hpc =>
    refine HistoryInv.setPc ?_ hpc (by simp)
    exact ⟨h.returned, h.unique, h.signals, h.left⟩
  | relockWithdraws hpc haddr => exact (h.withdraw hc hpc haddr).setPc hpc (by simp)
  | @reenter c cs _ _ _ _ hpc =>
    refine HistoryInv.setPc ?_ hpc (by simp)
    refine ⟨h.returned, h.unique, h.signals, fun d cv cs' hd => h.left d cv cs' ?_⟩
    simpa using hd
  | wakeSection hpc => exact h.wakeFirst hc hpc

end HistoryInv

/-! ## The accounting -/

/-- What holds in every state: a call that has returned reports `TRUE` if and only if
exactly one wake removed it, no wake removes two entries and no entry is removed twice, no
`SetEvent` was applied to an event its waiter had closed, and a call that waits for the
wake which removed it has the signal already. -/
structure Accounted (s : State T C) : Prop where
  returned : ∀ c b e, s.pc c = .sleepReturned b e → (b = true ↔ (s.removals c).length = 1)
  oneRemoval : ∀ c, (s.removals c).length ≤ 1
  oneWaiter : ∀ c d w, w ∈ s.removals c → w ∈ s.removals d → c = d
  signals : ∀ g ∈ s.signals, g.hit = some g.call
  waitingForWake : ∀ c cs, s.pc c = .waitingForWake cs →
    s.events.Signalled (s.entry c).event

/-- The wake call `w` on `cv` removes the entry that was queued first, if there is one, and
no other. -/
def RemovesLongestQueued (s s' : State T C) (w : C) (cv : Addr) : Prop :=
  (∃ c, Waits s cv c) → ∃ c, Waits s cv c ∧
    (∀ d, Waits s cv d → d ≠ c → s.queuedAt c < s.queuedAt d) ∧
    s'.removals c = [w] ∧ (∀ q, c ∉ s'.queues q) ∧
    ∀ d, d ≠ c → s'.removals d = s.removals d ∧ ∀ q, d ∈ s'.queues q ↔ d ∈ s.queues q

/-- The wake call `w` on `cv` finds every waiter queued that left a critical section before
the thread of `w` entered it, if that waiter is not out of the queue already. -/
def FindsWaiters (thread : C → T) (s : State T C) (w : C) (cv : Addr) : Prop :=
  ∀ c cs, [.left c cv cs, .entered (thread w) cs].Sublist s.log →
    Waits s cv c ∨ LeftQueue s c

/-- What holds of every step. -/
def WakeAccounted (thread : C → T) (s : State T C) (a : Action T C) (s' : State T C) : Prop :=
  match a with
  | .wakeSection w => ∀ cv, s.pc w = .wakeLock cv →
      RemovesLongestQueued s s' w cv ∧ FindsWaiters thread s w cv
  | _ => True

omit [DecidableEq T] [DecidableEq C] in
lemma CallsInv.accounted {s : State T C} (h : CallsInv s) (hh : HistoryInv s) :
    Accounted s where
  returned c b e hpc := by
    rcases h.at_pc hpc with ⟨hb, -, -, w, hw⟩ | ⟨hb, -, hr⟩
    · have hw' : s.removals c = [w] := hw
      simp [hb, hw']
    · have hr' : s.removals c = [] := hr
      simp [hb, hr']
  oneRemoval c := by
    rcases (h.ok c).removals with hr | ⟨w, hr⟩
    · simp [show s.removals c = [] from hr]
    · simp [show s.removals c = [w] from hr]
  oneWaiter := hh.unique
  signals := hh.signals
  waitingForWake c cs hpc := by
    have hevent : s.events (s.entry c).event = some ⟨c, true⟩ := (h.at_pc hpc).2
    simp [EventTable.Signalled, hevent]

omit [DecidableEq T] [DecidableEq C] in
/-- The first entry for `cv` of a queue is the one that was queued first. -/
lemma queuedAt_lt_of_findWaiter {s : State T C} (ho : OrderInv s) {cv : Addr} {c d : C}
    (hfind : s.findWaiter cv = some c) (hd : Waits s cv d) (hdc : d ≠ c) :
    s.queuedAt c < s.queuedAt d := by
  obtain ⟨-, as, bs, hsplit, hbefore⟩ := List.find?_eq_some_iff_append.mp hfind
  have hsorted := ho.sorted (getCondvarQueue cv)
  have hmem := hd.1
  rw [hsplit] at hsorted hmem
  rcases List.mem_append.mp hmem with has | hbs
  · exact absurd hd.2 (by simpa using hbefore d has)
  · have hd' : d ∈ bs := List.mem_of_ne_of_mem hdc hbs
    exact List.rel_of_pairwise_cons (List.pairwise_append.mp hsorted).2.1 hd'

omit [DecidableEq T] in
lemma removesLongestQueued {s : State T C} (hc : CallsInv s) (ho : OrderInv s) (w : C)
    (cv : Addr) : RemovesLongestQueued s ((s.wakeFirst w cv).setPc w .wakeReturned) w cv := by
  rintro ⟨x, hx, hxa⟩
  cases hfind : s.findWaiter cv with
  | none => exact absurd hxa (by simpa using List.find?_eq_none.mp hfind x hx)
  | some c =>
    have hmem : c ∈ s.queues (getCondvarQueue cv) := List.mem_of_find?_eq_some hfind
    have haddr : (s.entry c).address = cv := by simpa using List.find?_some hfind
    obtain ⟨cv', cs, -, hbucket, hqd, -⟩ := (hc.ok c).of_queued hmem
    have hdequeue := hc.mem_dequeue hqd
    rw [← hbucket] at hdequeue
    have hr : s.removals c = [] := hqd.2.2
    refine ⟨c, ⟨hmem, haddr⟩, fun d hd => queuedAt_lt_of_findWaiter ho hfind hd, ?_⟩
    simp only [State.wakeFirst, hfind]
    refine ⟨by simp [State.setPc, hr], fun q hq => ((hdequeue q c).mp hq).2 rfl, fun d hdc => ?_⟩
    exact ⟨by simp [State.setPc, hdc], fun q => (hdequeue q d).trans (and_iff_left hdc)⟩

/-- **Wake accounting.** In every run of any calls of `SleepConditionVariableCS` and
`WakeConditionVariable`, a wake removes the waiter of its condition variable that was
queued first, a sleep returns `TRUE` if and only if exactly one wake removed it, no event
is signalled after its waiter closed it, and a wake by a thread that entered the critical
section after a waiter had left it finds that waiter queued, unless a wake or the end of
its own wait has taken it out. -/
theorem wake_accounting (thread : C → T) (as : List (Action T C)) :
    EveryState (step thread) Accounted .init as ∧
      EveryStep (step thread) (WakeAccounted thread) .init as := by
  have hinv : EveryState (step thread) (fun s => CallsInv s ∧ OrderInv s ∧ HistoryInv s)
      .init as := by
    refine everyState_of_invariant ?_ ⟨.init, ⟨?_, ?_⟩, ⟨?_, ?_, ?_, ?_⟩⟩ as
    · rintro s a s' ⟨hc, ho, hh⟩ hstep
      exact ⟨hc.step hstep, ho.step hc hstep, hh.step hc hstep⟩
    · exact fun _ => List.Pairwise.nil
    · exact fun _ _ h => by cases h
    · exact fun _ _ h => by cases h
    · exact fun _ _ _ h => by cases h
    · exact fun _ h => by cases h
    · exact fun _ _ _ h => by cases h
  refine ⟨hinv.mono fun s ⟨hc, _, hh⟩ => hc.accounted hh, hinv.everyStep ?_⟩
  rintro s a s' ⟨hc, ho, hh⟩ hstep -
  cases effect_of_step hstep with
  | @wakeSection w cv hpc =>
    intro cv' hpc'
    obtain rfl : cv = cv' := by simpa [hpc] using hpc'
    refine ⟨removesLongestQueued hc ho w cv, fun c cs hlog => ?_⟩
    exact hh.left c cv cs (hlog.subset (List.mem_cons_self ..))
  | _ => trivial

end CondVar
end ClamavWin32
