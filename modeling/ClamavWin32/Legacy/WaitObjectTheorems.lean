import ClamavWin32.Legacy.WaitObject

/-!
# Registered waits are safe

* `Agrees`: what a registration owns where its call, its thread and the call that was given its
  wait object are; `Inv` says so of all registrations;
* `wait_objects_safe`: whatever the threads do, nothing is accessed that is not there.
-/

namespace ClamavWin32
namespace WaitObject

open TransitionSystem OwnerTable

variable {C : Type*}

/-! ## What a registration owns -/

/-- The block and the two handles of a registration, with what is behind them. -/
structure Owned where
  block : Option (Addr × WaitContext)
  event : Option (Handle × Bool)
  thread : Option (Handle × Bool)

def Owned.nothing : Owned := ⟨none, none, none⟩

/-- What there is to see of a registration: its call, its thread, and the call that was given its
wait object. -/
structure View (C : Type*) where
  pc : Pc C
  thread : ThreadPc C
  request : Option Request
  taker : Option (Pc C)
  calls : List CallbackCall

def State.view (s : State C) (c : C) : View C where
  pc := s.pc c
  thread := s.thread c
  request := s.request c
  taker := (s.takenBy c).map s.pc
  calls := s.calls c

/-- There is no thread yet, and no client has a wait object. -/
def View.Fresh (v : View C) : Prop := v.thread = .notCreated ∧ v.taker = none ∧ v.calls = []

/-- A callback was called as it was asked for. -/
def CallbackCall.Asked (q : Request) (call : CallbackCall) : Prop :=
  call.callback = q.Callback ∧ call.context = q.Context ∧
    (call.timedOut = true → q.dwMilliseconds ≠ INFINITE)

/-- The thread uses the context and the event of its registration, and has called back at most
once. -/
def ThreadAgrees (q : Request) (ctx : Addr) (event : Handle) (calls : List CallbackCall) :
    ThreadPc C → Prop
  | .notCreated => False
  | .starting a => a = ctx ∧ calls = []
  | .waiting a _ h ms => a = ctx ∧ h = event ∧ ms = q.dwMilliseconds ∧ calls = []
  | .woken a timedOut =>
    a = ctx ∧ calls = [] ∧ (timedOut = true → q.dwMilliseconds ≠ INFINITE)
  | .callback _ | .ended => calls.length ≤ 1 ∧ ∀ call ∈ calls, call.Asked q

/-- The call has waited for the thread. -/
def Stage.joined : Stage → Prop
  | .setCancel | .joinThread => False
  | .closeCancel | .closeThread | .complete | .heapFree => True

/-- What is left of the registration. -/
def Stage.owned (ctx : Addr) (x : WaitContext) : Stage → Owned
  | .setCancel => ⟨some (ctx, x), some (x.hCancelEvent, false), some (x.hThread, false)⟩
  | .joinThread | .closeCancel =>
    ⟨some (ctx, x), some (x.hCancelEvent, true), some (x.hThread, false)⟩
  | .closeThread => ⟨some (ctx, x), none, some (x.hThread, false)⟩
  | .complete | .heapFree => ⟨some (ctx, x), none, none⟩

/-- What is left of a registration whose wait object was given to a call. -/
def TakenAgrees (c : C) (v : View C) (ctx : Addr) (x : WaitContext) (r : Owned) : Pc C → Prop
  | .unregistering stage d a _ =>
    d = c ∧ a = ctx ∧ (stage.joined → v.thread = .ended) ∧ r = stage.owned ctx x
  | .unregistered (.ok ()) => v.thread = .ended ∧ r = .nothing
  | _ => False

/-- A registration owns `r`. -/
def Agrees (c : C) (v : View C) (r : Owned) : Prop :=
  match v.pc with
  | .allocated ctx =>
    v.Fresh ∧ (∃ q, v.request = some q) ∧ r = ⟨some (ctx, .zero), none, none⟩
  | .created ctx =>
    v.Fresh ∧ ∃ q event, v.request = some q ∧ event ≠ 0 ∧
      r = ⟨some (ctx, q.context event 0), some (event, false), none⟩
  | .started ctx thread =>
    v.taker = none ∧ ∃ q event, v.request = some q ∧ event ≠ 0 ∧
      ThreadAgrees q ctx event v.calls v.thread ∧
      r = ⟨some (ctx, q.context event 0), some (event, false), some (thread, false)⟩
  | .registered (.ok w) =>
    ∃ q ctx event thread, (∀ a ∈ w, a = ctx) ∧ v.request = some q ∧ event ≠ 0 ∧
      ThreadAgrees q ctx event v.calls v.thread ∧
      match v.taker with
      | none => r = ⟨some (ctx, q.context event thread), some (event, false), some (thread, false)⟩
      | some p => TakenAgrees c v ctx (q.context event thread) r p
  | _ => v.Fresh ∧ r = .nothing

/-- What the tables have of a registration. -/
def owned (block : C → Option (Addr × WaitContext)) (handle : C × Kind → Option (Handle × Bool))
    (c : C) : Owned :=
  ⟨block c, handle (c, .cancelEvent), handle (c, .thread)⟩

/-- Every registration owns what it should, and nothing else is in the tables. -/
structure Inv (s : State C) (block : C → Option (Addr × WaitContext))
    (handle : C × Kind → Option (Handle × Bool)) : Prop where
  heap : Describes s.heap block
  handles : Describes s.handles handle
  agrees : ∀ c, Agrees c (s.view c) (owned block handle c)
  taken : ∀ u stage c ctx h, s.pc u = .unregistering stage c ctx h → s.takenBy c = some u
  busy : ∀ u stage c ctx h d, s.pc u = .unregistering stage c ctx h → s.caller u = some d →
    s.thread d = .callback (some u)
  /-- A call that is made in the callback of its own wait object does not return. -/
  returned : ∀ c u, s.takenBy c = some u → s.caller u = some c →
    s.pc u ≠ .unregistered (.ok ())
  completed : ∀ c ∈ s.completed, s.thread c = .ended
  fault : s.fault = false

section

variable [DecidableEq C] {block : C → Option (Addr × WaitContext)}
  {handle : C × Kind → Option (Handle × Bool)} {c d : C}

lemma owned_of_ne (v : Option (Addr × WaitContext)) (hd : d ≠ c) :
    owned (Function.update block c v) handle d = owned block handle d := by
  simp only [owned, Function.update_of_ne hd]

lemma owned_handle_of_ne (kind : Kind) (v : Option (Handle × Bool)) (hd : d ≠ c) :
    owned block (Function.update handle (c, kind) v) d = owned block handle d := by
  have hne : ∀ k, (d, k) ≠ (c, kind) := fun k heq => hd (Prod.mk.inj heq).1
  simp only [owned, Function.update_of_ne (hne _)]

@[simp] lemma owned_block_self (v : Option (Addr × WaitContext)) :
    owned (Function.update block c v) handle c = { owned block handle c with block := v } := by
  simp only [owned, Function.update_self]

@[simp] lemma owned_event_self (v : Option (Handle × Bool)) :
    owned block (Function.update handle (c, .cancelEvent) v) c =
      { owned block handle c with event := v } := by
  simp [owned]

@[simp] lemma owned_thread_self (v : Option (Handle × Bool)) :
    owned block (Function.update handle (c, .thread) v) c =
      { owned block handle c with thread := v } := by
  simp [owned]

end

/-! ## What the parties find -/

/-- The context is there until the call has waited for the thread. -/
lemma TakenAgrees.block_of_running {c : C} {v : View C} {ctx : Addr} {x : WaitContext}
    {r : Owned} {p : Pc C} (h : TakenAgrees c v ctx x r p) (hended : v.thread ≠ .ended) :
    r.block = some (ctx, x) := by
  rw [TakenAgrees.eq_def] at h
  split at h
  case _ stage d a e =>
    obtain ⟨-, -, -, hr⟩ := h
    cases stage <;> rw [hr] <;> rfl
  case _ => exact absurd h.1 hended
  case _ => exact h.elim

/-- A call that was given a wait object is under way with it, or has returned. -/
lemma Agrees.taker {c : C} {v : View C} {r : Owned} {p : Pc C} (h : Agrees c v r)
    (hp : v.taker = some p) :
    (∃ stage ctx e, p = .unregistering stage c ctx e) ∨ p = .unregistered (.ok ()) := by
  have hfresh : ¬ v.Fresh := fun hf => by rw [hf.2.1] at hp; cases hp
  rw [Agrees] at h
  split at h
  · exact absurd h.1 hfresh
  · exact absurd h.1 hfresh
  · rw [h.1] at hp
    cases hp
  · obtain ⟨q, ctx, event, thread, -, -, -, -, htaken⟩ := h
    rw [hp] at htaken
    dsimp only at htaken
    rw [TakenAgrees.eq_def] at htaken
    split at htaken
    · exact Or.inl ⟨_, _, _, by rw [htaken.1]⟩
    · exact Or.inr rfl
    · exact htaken.elim
  · exact absurd h.1 hfresh

/-- A thread that runs has the context and the event of its registration. -/
lemma Agrees.running {c : C} {v : View C} {r : Owned} (h : Agrees c v r)
    (hcreated : v.thread ≠ .notCreated) (hended : v.thread ≠ .ended) :
    ∃ q ctx event hThread thread signal, v.request = some q ∧ event ≠ 0 ∧
      ThreadAgrees q ctx event v.calls v.thread ∧
      r = ⟨some (ctx, q.context event hThread), some (event, signal), some (thread, false)⟩ := by
  have hfresh : ¬ v.Fresh := fun hf => hcreated hf.1
  rw [Agrees] at h
  split at h
  · exact absurd h.1 hfresh
  · exact absurd h.1 hfresh
  · obtain ⟨-, q, event, hq, hevent, hthread, hr⟩ := h
    exact ⟨q, _, event, 0, _, false, hq, hevent, hthread, hr⟩
  · obtain ⟨q, ctx, event, thread, -, hq, hevent, hthread, htaken⟩ := h
    refine ⟨q, ctx, event, thread, thread, ?_⟩
    cases htaker : v.taker with
    | none =>
      rw [htaker] at htaken
      exact ⟨false, hq, hevent, hthread, htaken⟩
    | some p =>
      rw [htaker] at htaken
      dsimp only at htaken
      rw [TakenAgrees.eq_def] at htaken
      split at htaken
      case _ stage d a e =>
        obtain ⟨-, -, hjoined, hr⟩ := htaken
        cases stage with
        | setCancel => exact ⟨false, hq, hevent, hthread, hr⟩
        | joinThread => exact ⟨true, hq, hevent, hthread, hr⟩
        | closeCancel | closeThread | complete | heapFree => exact absurd (hjoined trivial) hended
      case _ => exact absurd htaken.1 hended
      case _ => exact htaken.elim
  · exact absurd h.1 hfresh

/-- The thread of a registration goes on. -/
lemma Agrees.setThread {c : C} {v v' : View C} {r : Owned} (h : Agrees c v r)
    (hpc : v'.pc = v.pc) (hrequest : v'.request = v.request) (htaker : v'.taker = v.taker)
    (hcreated : v.thread ≠ .notCreated) (hended : v.thread ≠ .ended)
    (hthread : ∀ q ctx event hThread, v.request = some q →
      r.block = some (ctx, q.context event hThread) →
      ThreadAgrees q ctx event v.calls v.thread →
      ThreadAgrees q ctx event v'.calls v'.thread) : Agrees c v' r := by
  have hfresh : ¬ v.Fresh := fun hf => hcreated hf.1
  rw [Agrees] at h ⊢
  rw [hpc]
  split at h
  · exact absurd h.1 hfresh
  · exact absurd h.1 hfresh
  · obtain ⟨hnone, q, event, hq, hevent, hagrees, hr⟩ := h
    exact ⟨htaker.trans hnone, q, event, hrequest.trans hq, hevent,
      hthread q _ event 0 hq (by rw [hr]) hagrees, hr⟩
  · obtain ⟨q, ctx, event, thread, hw, hq, hevent, hagrees, htaken⟩ := h
    refine ⟨q, ctx, event, thread, hw, hrequest.trans hq, hevent,
      hthread q ctx event thread hq ?_ hagrees, ?_⟩
    · cases hp : v.taker with
      | none =>
        rw [hp] at htaken
        dsimp only at htaken
        rw [htaken]
      | some p =>
        rw [hp] at htaken
        exact htaken.block_of_running hended
    · rw [htaker]
      cases hp : v.taker with
      | none =>
        rw [hp] at htaken
        exact htaken
      | some p =>
        rw [hp] at htaken
        dsimp only at htaken ⊢
        rw [TakenAgrees.eq_def] at htaken ⊢
        split at htaken
        case _ stage d a e =>
          obtain ⟨hd, ha, hjoined, hr⟩ := htaken
          exact ⟨hd, ha, fun hj => absurd (hjoined hj) hended, hr⟩
        case _ => exact absurd htaken.1 hended
        case _ => exact htaken.elim
  · exact absurd h.1 hfresh

/-- Only a registration that has succeeded has its wait object given to a call. -/
lemma Agrees.setTaker {c : C} {v : View C} {r r' : Owned} {p p' : Pc C} (h : Agrees c v r)
    (hp : v.taker = some p)
    (hself : ∀ ctx x, TakenAgrees c v ctx x r p → TakenAgrees c v ctx x r' p') :
    Agrees c { v with taker := some p' } r' := by
  obtain ⟨pc, thread, request, taker, calls⟩ := v
  obtain rfl : taker = some p := hp
  have hfresh : ¬ View.Fresh ⟨pc, thread, request, some p, calls⟩ := fun hf => by cases hf.2.1
  cases pc with
  | allocated | created | notCalled | unregistering | unregistered => exact absurd h.1 hfresh
  | started => cases h.1
  | registered result =>
    cases result with
    | error e => exact absurd h.1 hfresh
    | ok w =>
      obtain ⟨q, ctx, event, thread, hw, hq, hevent, hagrees, hleft⟩ := h
      exact ⟨q, ctx, event, thread, hw, hq, hevent, hagrees, hself _ _ hleft⟩

/-- The call makes a registration, or none. -/
def Pc.Registers : Pc C → Prop
  | .unregistering .. | .unregistered _ => False
  | _ => True

lemma Pc.Registers.ne {p : Pc C} (h : p.Registers) (stage : Stage) (c : C) (ctx : Addr)
    (e : Handle) : p ≠ .unregistering stage c ctx e := by
  rintro rfl
  exact h

/-- A registration that was begun was not begun by a call that unregisters. -/
lemma Agrees.registers {c : C} {v : View C} {r : Owned} (h : Agrees c v r)
    (hcreated : v.thread ≠ .notCreated) : v.pc.Registers := by
  rw [Agrees] at h
  split at h
  all_goals first
    | exact absurd h.1.1 hcreated
    | (rename_i heq; rw [heq]; trivial)

/-! ## The steps of a registration -/

/-- Only the registration `c` goes on. -/
structure SameBut (c : C) (s s' : State C) : Prop where
  pc : ∀ d, d ≠ c → s'.pc d = s.pc d
  thread : ∀ d, d ≠ c → s'.thread d = s.thread d
  request : ∀ d, d ≠ c → s'.request d = s.request d
  calls : ∀ d, d ≠ c → s'.calls d = s.calls d
  takenBy : s'.takenBy = s.takenBy
  caller : s'.caller = s.caller
  completed : s'.completed = s.completed
  fault : s'.fault = s.fault

namespace SameBut

variable {s s' : State C} {c : C}

lemma refl (s : State C) (c : C) : SameBut c s s :=
  ⟨fun _ _ => rfl, fun _ _ => rfl, fun _ _ => rfl, fun _ _ => rfl, rfl, rfl, rfl, rfl⟩

variable [DecidableEq C]

lemma setPc (h : SameBut c s s') (p : Pc C) : SameBut c s (s'.setPc c p) :=
  { h with pc := fun d hd => (Function.update_of_ne hd ..).trans (h.pc d hd) }

lemma setThread (h : SameBut c s s') (p : ThreadPc C) : SameBut c s (s'.setThread c p) :=
  { h with thread := fun d hd => (Function.update_of_ne hd ..).trans (h.thread d hd) }

omit [DecidableEq C] in
lemma setBlock (h : SameBut c s s') (ctx : Addr) (v : Option (C × WaitContext)) :
    SameBut c s (s'.setBlock ctx v) := { h with }

omit [DecidableEq C] in
lemma setHandle (h : SameBut c s s') (e : Handle) (v : Option ((C × Kind) × Bool)) :
    SameBut c s (s'.setHandle e v) := { h with }

end SameBut

section

variable {s s' : State C} {block block' : C → Option (Addr × WaitContext)}
  {handle handle' : C × Kind → Option (Handle × Bool)} {c : C}

namespace Inv

/-- A call that registers was not given a wait object. -/
lemma takenBy_ne (h : Inv s block handle) {d : C} (hpc : (s.pc c).Registers) :
    s.takenBy d ≠ some c := by
  intro hd
  rcases (h.agrees d).taker (show (s.takenBy d).map s.pc = some (s.pc c) by rw [hd]; rfl) with
    ⟨stage, ctx, e, heq⟩ | heq
  · rw [heq] at hpc
    exact hpc
  · rw [heq] at hpc
    exact hpc

/-- **Frame rule.** A step of one registration is none of the others' business. -/
lemma frame (h : Inv s block handle) (hsame : SameBut c s s')
    (hheap : Describes s'.heap block') (hhandles : Describes s'.handles handle')
    (howned : ∀ d, d ≠ c → owned block' handle' d = owned block handle d)
    (hpc : (s.pc c).Registers)
    (hpc' : ∀ stage d ctx e, s'.pc c ≠ .unregistering stage d ctx e)
    (hbusy : ∀ u stage d ctx e, s.pc u = .unregistering stage d ctx e →
      s.thread c = .callback (some u) → s'.thread c = .callback (some u))
    (hended : s.thread c = .ended → s'.thread c = .ended)
    (hself : Agrees c ⟨s'.pc c, s'.thread c, s'.request c, (s.view c).taker, s'.calls c⟩
      (owned block' handle' c)) : Inv s' block' handle' where
  heap := hheap
  handles := hhandles
  agrees d := by
    have htaker : (s.takenBy d).map s'.pc = (s.takenBy d).map s.pc := by
      cases htaken : s.takenBy d with
      | none => rfl
      | some u =>
        have hu : u ≠ c := by
          rintro rfl
          exact h.takenBy_ne hpc htaken
        rw [Option.map_some, Option.map_some, hsame.pc u hu]
    by_cases hd : d = c
    · subst hd
      rw [State.view, hsame.takenBy, htaker]
      exact hself
    · have hview : s'.view d = s.view d := by
        simp only [State.view, hsame.pc d hd, hsame.thread d hd, hsame.request d hd,
          hsame.calls d hd, hsame.takenBy, htaker]
      rw [hview, howned d hd]
      exact h.agrees d
  taken u stage d ctx e hu := by
    have huc : u ≠ c := by
      rintro rfl
      exact hpc' _ _ _ _ hu
    rw [hsame.takenBy]
    rw [hsame.pc u huc] at hu
    exact h.taken u stage d ctx e hu
  busy u stage d ctx e w hu hw := by
    have huc : u ≠ c := by
      rintro rfl
      exact hpc' _ _ _ _ hu
    rw [hsame.pc u huc] at hu
    rw [hsame.caller] at hw
    have hthread := h.busy u stage d ctx e w hu hw
    by_cases hwc : w = c
    · subst hwc
      exact hbusy u stage d ctx e hu hthread
    · rw [hsame.thread w hwc]
      exact hthread
  returned d u hd hu := by
    rw [hsame.takenBy] at hd
    rw [hsame.caller] at hu
    have huc : u ≠ c := by
      rintro rfl
      exact h.takenBy_ne hpc hd
    rw [hsame.pc u huc]
    exact h.returned d u hd hu
  completed d hd := by
    rw [hsame.completed] at hd
    have hthread := h.completed d hd
    by_cases hdc : d = c
    · subst hdc
      exact hended hthread
    · rw [hsame.thread d hdc]
      exact hthread
  fault := by
    rw [hsame.fault]
    exact h.fault

end Inv

end

section

variable [DecidableEq C] {s s' : State C} {block : C → Option (Addr × WaitContext)}
  {handle : C × Kind → Option (Handle × Bool)} {c : C}

/-- The tables change, and the list of the completed registrations. -/
def State.setTables (s : State C) (heap : OwnerTable Addr C WaitContext)
    (handles : OwnerTable Handle (C × Kind) Bool) (completed : List C) : State C :=
  { s with heap := heap, handles := handles, completed := completed }

/-- There is an owner for every entry that the registrations should have. -/
def Sound (s : State C) : Prop := ∃ block handle, Inv s block handle

lemma State.withContext_of_read {ctx : Addr} {x : WaitContext}
    {k : WaitContext → Option (State C)} (h : s.heap.read ctx c = some x) :
    s.withContext c ctx k = k x := by
  rw [State.withContext, h]

lemma State.withHandle_of_read {kind : Kind} {h : Handle} {b : Bool} {k : Option (State C)}
    (hread : s.handles.read h (c, kind) = some b) : s.withHandle c kind h k = k := by
  rw [State.withHandle, hread]

namespace Inv

/-- What a registration owns is in the tables. -/
lemma readBlock (h : Inv s block handle) {r : Owned} {ctx : Addr} {x : WaitContext}
    (hr : owned block handle c = r) (hblock : r.block = some (ctx, x)) :
    s.heap.read ctx c = some x := by
  subst hr
  exact h.heap.read hblock

lemma readEvent (h : Inv s block handle) {r : Owned} {e : Handle} {b : Bool}
    (hr : owned block handle c = r) (hevent : r.event = some (e, b)) :
    s.handles.read e (c, .cancelEvent) = some b := by
  subst hr
  exact h.handles.read hevent

lemma readThread (h : Inv s block handle) {r : Owned} {e : Handle} {b : Bool}
    (hr : owned block handle c = r) (hthread : r.thread = some (e, b)) :
    s.handles.read e (c, .thread) = some b := by
  subst hr
  exact h.handles.read hthread

omit [DecidableEq C] in
/-- The parts of a registration whose call is at `p`. -/
lemma agrees_of_pc (h : Inv s block handle) {p : Pc C} (hp : s.pc c = p) :
    Agrees c ⟨p, s.thread c, s.request c, (s.view c).taker, s.calls c⟩
      (owned block handle c) := by
  have hc := h.agrees c
  rw [State.view, hp] at hc
  exact hc

/-- A call that registers goes on. -/
lemma registerStep (h : Inv s block handle) {p p' : Pc C} (hp : s.pc c = p) {block' handle'}
    (hsame : SameBut c s s') (hheap : Describes s'.heap block')
    (hhandles : Describes s'.handles handle')
    (howned : ∀ d, d ≠ c → owned block' handle' d = owned block handle d)
    (hthread : s'.thread c = s.thread c ∨ s.thread c = .notCreated)
    (hself : Agrees c ⟨p', s'.thread c, s'.request c, (s.view c).taker, s'.calls c⟩
      (owned block' handle' c))
    (hpc : p.Registers := by trivial)
    (hpc' : ∀ stage d ctx e, p' ≠ .unregistering stage d ctx e := by nofun) :
    Sound (s'.setPc c p') := by
  refine ⟨block', handle', h.frame (hsame.setPc p') hheap hhandles howned (hp ▸ hpc) ?_ ?_ ?_ ?_⟩
  · intro stage d ctx e
    show Function.update s'.pc c p' c ≠ _
    rw [Function.update_self]
    exact hpc' stage d ctx e
  · intro u _ _ _ _ _ hu
    rcases hthread with heq | heq
    · exact heq.trans hu
    · rw [heq] at hu
      cases hu
  · intro hu
    rcases hthread with heq | heq
    · exact heq.trans hu
    · rw [heq] at hu
      cases hu
  · show Agrees c ⟨Function.update s'.pc c p' c, _, _, _, _⟩ _
    rw [Function.update_self]
    exact hself

lemma register (h : Inv s block handle) {q : Request} {ctx : Addr} (hpc : s.pc c = .notCalled)
    (hs' : s.register c q ctx = some s') : Sound s' := by
  obtain ⟨hfresh, hnone⟩ := h.agrees_of_pc hpc
  have hfails : ∀ e, Sound (s.setPc c (.registered (.error e))) := fun e =>
    h.registerStep hpc (SameBut.refl s c) h.heap h.handles (fun _ _ => rfl) (Or.inl rfl)
      ⟨hfresh, hnone⟩
  rw [State.register] at hs'
  cases hcheck : State.checkRequest q with
  | some e =>
    rw [hcheck, Option.some.injEq] at hs'
    exact hs' ▸ hfails _
  | none =>
    rw [hcheck] at hs'
    dsimp only at hs'
    by_cases hctx : ctx = 0
    · rw [if_pos hctx, Option.some.injEq] at hs'
      exact hs' ▸ hfails _
    · rw [if_neg hctx] at hs'
      by_cases hfree : s.heap ctx = none
      · rw [if_neg (not_not.mpr hfree), Option.some.injEq] at hs'
        subst hs'
        have hblock : block c = none := congrArg Owned.block hnone
        refine h.registerStep hpc ?_
          (h.heap.insert hfree hblock _) h.handles (fun d hd => owned_of_ne _ hd) (Or.inl rfl) ?_
        · refine SameBut.setBlock ?_ _ _
          exact { SameBut.refl s c with request := fun d hd => Function.update_of_ne hd .. }
        · refine ⟨hfresh, ⟨q, Function.update_self ..⟩, ?_⟩
          rw [owned_block_self, hnone]
          rfl
      · rw [if_pos hfree] at hs'
        cases hs'

lemma createEvent (h : Inv s block handle) {q : Request} {ctx : Addr} {event : Handle}
    (hpc : s.pc c = .allocated ctx) (hq : s.request c = some q)
    (hs' : s.createEvent c q ctx event = some s') : Sound s' := by
  obtain ⟨hfresh, -, hown⟩ := h.agrees_of_pc hpc
  have hblock : block c = some (ctx, .zero) := congrArg Owned.block hown
  rw [State.createEvent, State.withContext_of_read (h.heap.read hblock)] at hs'
  by_cases hevent : event = 0
  · rw [if_pos hevent, Option.some.injEq] at hs'
    subst hs'
    refine h.registerStep hpc ((SameBut.refl s c).setBlock _ _) (h.heap.remove hblock) h.handles
      (fun d hd => owned_of_ne _ hd) (Or.inl rfl) ⟨hfresh, ?_⟩
    rw [owned_block_self, hown]
    rfl
  · rw [if_neg hevent] at hs'
    by_cases hfree : s.handles event = none
    · rw [if_neg (not_not.mpr hfree), Option.some.injEq] at hs'
      subst hs'
      have hnone : handle (c, .cancelEvent) = none := congrArg Owned.event hown
      refine h.registerStep hpc (((SameBut.refl s c).setHandle _ _).setBlock _ _)
        (h.heap.modify hblock (q.context event 0)) (h.handles.insert hfree hnone false)
        (fun d hd => (owned_handle_of_ne _ _ hd).trans (owned_of_ne _ hd)) (Or.inl rfl)
        ⟨hfresh, q, event, hq, hevent, ?_⟩
      rw [owned_event_self, owned_block_self, hown]
    · rw [if_pos hfree] at hs'
      cases hs'

lemma beginThread (h : Inv s block handle) {ctx : Addr} {thread : Handle}
    (hpc : s.pc c = .created ctx) (hs' : s.beginThread c ctx thread = some s') : Sound s' := by
  obtain ⟨hfresh, q, event, hq, hevent, hown⟩ := h.agrees_of_pc hpc
  have hblock : block c = some (ctx, q.context event 0) := congrArg Owned.block hown
  have hhandle : handle (c, .cancelEvent) = some (event, false) := congrArg Owned.event hown
  rw [State.beginThread, State.withContext_of_read (h.heap.read hblock)] at hs'
  by_cases hthread : thread = 0
  · rw [if_pos hthread] at hs'
    have hread : s.handles.read (q.context event 0).hCancelEvent (c, .cancelEvent) = some false :=
      h.handles.read hhandle
    rw [State.withHandle_of_read hread, Option.some.injEq] at hs'
    subst hs'
    refine h.registerStep hpc (((SameBut.refl s c).setHandle _ _).setBlock _ _)
      (h.heap.remove hblock) (h.handles.remove hhandle)
      (fun d hd => (owned_handle_of_ne _ _ hd).trans (owned_of_ne _ hd)) (Or.inl rfl)
      ⟨hfresh, ?_⟩
    rw [owned_event_self, owned_block_self, hown]
    rfl
  · rw [if_neg hthread] at hs'
    by_cases hfree : s.handles thread = none
    · rw [if_neg (not_not.mpr hfree), Option.some.injEq] at hs'
      subst hs'
      have hnone : handle (c, .thread) = none := congrArg Owned.thread hown
      refine h.registerStep hpc (((SameBut.refl s c).setHandle _ _).setThread _) h.heap
        (h.handles.insert hfree hnone false) (fun d hd => owned_handle_of_ne _ _ hd)
        (Or.inr hfresh.1) ⟨hfresh.2.1, q, event, hq, hevent, ?_, ?_⟩
      · show ThreadAgrees q ctx event (s.calls c) (Function.update s.thread c _ c)
        rw [Function.update_self]
        exact ⟨rfl, hfresh.2.2⟩
      · rw [owned_thread_self, hown]
    · rw [if_pos hfree] at hs'
      cases hs'

lemma publish (h : Inv s block handle) {q : Request} {ctx : Addr} {thread : Handle}
    (hpc : s.pc c = .started ctx thread) (hq : s.request c = some q)
    (hs' : s.publish c q ctx thread = some s') : Sound s' := by
  obtain ⟨htaker, q', event, hq', hevent, hthread, hown⟩ := h.agrees_of_pc hpc
  obtain rfl : q = q' := Option.some.inj (hq.symm.trans hq')
  have hblock : block c = some (ctx, q.context event 0) := congrArg Owned.block hown
  rw [State.publish, State.withContext_of_read (h.heap.read hblock), Option.some.injEq] at hs'
  subst hs'
  refine h.registerStep hpc ((SameBut.refl s c).setBlock _ _)
    (h.heap.modify hblock (q.context event thread)) h.handles (fun d hd => owned_of_ne _ hd)
    (Or.inl rfl) ⟨q, ctx, event, thread, ?_, hq, hevent, hthread, ?_⟩
  · intro a ha
    cases hwanted : q.phNewWaitObject with
    | true =>
      rw [hwanted] at ha
      exact (Option.some.inj ha).symm
    | false =>
      rw [hwanted] at ha
      cases ha
  · dsimp only
    rw [show (s.view c).taker = none from htaker]
    dsimp only
    rw [owned_block_self, hown]

/-! ## The steps of a thread -/

/-- A thread goes on. -/
lemma threadStep (h : Inv s block handle) {p p' : ThreadPc C} (hp : s.thread c = p)
    (calls : C → List CallbackCall) (hcalls : ∀ d, d ≠ c → calls d = s.calls d)
    (hcreated : p ≠ .notCreated) (hended : p ≠ .ended) (hbusy : ∀ u, p ≠ .callback (some u))
    (hthread : ∀ q ctx event hThread, s.request c = some q →
      block c = some (ctx, q.context event hThread) →
      ThreadAgrees q ctx event (s.calls c) p → ThreadAgrees q ctx event (calls c) p') :
    Sound ({ s with calls := calls }.setThread c p') := by
  subst hp
  have hpc : (s.pc c).Registers := (h.agrees c).registers hcreated
  refine ⟨block, handle, h.frame (c := c) (SameBut.setThread ?_ p') h.heap h.handles
    (fun _ _ => rfl) hpc hpc.ne ?_ ?_ ?_⟩
  · exact { SameBut.refl s c with calls := hcalls }
  · intro u _ _ _ _ _ hu
    exact absurd hu (hbusy u)
  · intro hu
    exact absurd hu hended
  · refine (h.agrees c).setThread rfl rfl rfl hcreated hended ?_
    intro q ctx event hThread hq hblock hold
    show ThreadAgrees q ctx event (calls c) (Function.update s.thread c p' c)
    rw [Function.update_self]
    exact hthread q ctx event hThread hq hblock hold

omit [DecidableEq C] in
/-- What a thread that is at `p` finds. -/
lemma running (h : Inv s block handle) {p : ThreadPc C} (hp : s.thread c = p)
    (hcreated : p ≠ .notCreated) (hended : p ≠ .ended) :
    ∃ q ctx event hThread signal, s.request c = some q ∧
      block c = some (ctx, q.context event hThread) ∧
      handle (c, .cancelEvent) = some (event, signal) ∧
      ThreadAgrees q ctx event (s.calls c) p := by
  subst hp
  obtain ⟨q, ctx, event, hThread, thread, signal, hq, -, hagrees, hown⟩ :=
    (h.agrees c).running hcreated hended
  exact ⟨q, ctx, event, hThread, signal, hq, congrArg Owned.block hown,
    congrArg Owned.event hown, hagrees⟩

lemma startWait (h : Inv s block handle) {ctx : Addr} (hp : s.thread c = .starting ctx)
    (hs' : s.startWait c ctx = some s') : Sound s' := by
  obtain ⟨q, a, event, hThread, signal, -, hblock, -, rfl, -⟩ := h.running hp nofun nofun
  rw [State.startWait, State.withContext_of_read (h.heap.read hblock), Option.some.injEq] at hs'
  subst hs'
  refine h.threadStep hp s.calls (fun _ _ => rfl) nofun nofun nofun ?_
  rintro q' ctx' event' hThread' - hblock' ⟨rfl, hcalls⟩
  rw [hblock, Option.some.injEq, Prod.mk.injEq] at hblock'
  have hevent : event = event' := congrArg WaitContext.hCancelEvent hblock'.2
  have hms : q.dwMilliseconds = q'.dwMilliseconds :=
    congrArg WaitContext.dwMilliseconds hblock'.2
  exact ⟨rfl, hevent, hms, hcalls⟩

lemma endWait (h : Inv s block handle) {ctx : Addr} {hObject hCancelEvent : Handle} {ms : ℕ}
    {result : WaitAnyResult} (hp : s.thread c = .waiting ctx hObject hCancelEvent ms)
    (hs' : s.endWait c ctx hCancelEvent ms result = some s') : Sound s' := by
  obtain ⟨q, a, event, hThread, signal, -, -, hhandle, rfl, rfl, rfl, hcalls⟩ :=
    h.running hp nofun nofun
  have hread := h.handles.read hhandle
  have hends : Sound (s.setThread c .ended) := by
    refine h.threadStep hp s.calls (fun _ _ => rfl) nofun nofun nofun ?_
    intro q' ctx' event' hThread' _ _ _
    rw [hcalls]
    exact ⟨Nat.zero_le 1, nofun⟩
  have hwakes : ∀ timedOut, (timedOut = true → q.dwMilliseconds ≠ INFINITE) →
      Sound (s.setThread c (.woken ctx timedOut)) := by
    intro timedOut htimedOut
    refine h.threadStep hp s.calls (fun _ _ => rfl) nofun nofun nofun ?_
    rintro q' ctx' event' hThread' - - ⟨rfl, -, hms, -⟩
    exact ⟨rfl, hcalls, fun ht => hms ▸ htimedOut ht⟩
  cases result with
  | object0 =>
    rw [State.endWait, State.withHandle_of_read hread, Option.some.injEq] at hs'
    exact hs' ▸ hwakes false nofun
  | object1 =>
    rw [State.endWait, State.withHandle_of_read hread] at hs'
    split at hs'
    · exact Option.some.inj hs' ▸ hends
    · cases hs'
  | timeout =>
    rw [State.endWait, State.withHandle_of_read hread] at hs'
    split at hs'
    case _ hms => exact Option.some.inj hs' ▸ hwakes true fun _ => hms
    case _ => cases hs'
  | abandoned0 | failed =>
    rw [State.endWait, State.withHandle_of_read hread, Option.some.injEq] at hs'
    exact hs' ▸ hends

lemma callCallback (h : Inv s block handle) {ctx : Addr} {timedOut : Bool}
    (hp : s.thread c = .woken ctx timedOut)
    (hs' : s.callCallback c ctx timedOut = some s') : Sound s' := by
  obtain ⟨q, a, event, hThread, signal, hq, hblock, -, rfl, hcalls, htimedOut⟩ :=
    h.running hp nofun nofun
  rw [State.callCallback, State.withContext_of_read (h.heap.read hblock),
    Option.some.injEq] at hs'
  subst hs'
  refine h.threadStep hp _ (fun d hd => Function.update_of_ne hd ..) nofun nofun nofun ?_
  intro q' ctx' event' hThread' hq' _ _
  obtain rfl : q = q' := Option.some.inj (hq.symm.trans hq')
  rw [Function.update_self, hcalls]
  refine ⟨le_rfl, ?_⟩
  intro call hcall
  rw [List.mem_singleton] at hcall
  subst hcall
  exact ⟨rfl, rfl, htimedOut⟩

lemma returnCallback (h : Inv s block handle) (hp : s.thread c = .callback none) :
    Sound (s.setThread c .ended) := by
  refine h.threadStep hp s.calls (fun _ _ => rfl) nofun nofun nofun ?_
  intro q ctx event hThread _ _ hcalls
  exact hcalls

/-! ## The steps of a call that unregisters -/

omit [DecidableEq C] in
/-- What a call that unregisters finds. -/
lemma unregistering (h : Inv s block handle) {u : C} {stage : Stage} {ctx : Addr} {e : Handle}
    (hpc : s.pc u = .unregistering stage c ctx e) :
    ∃ (q : Request) (event thread : Handle), event ≠ 0 ∧ (stage.joined → s.thread c = .ended) ∧
      owned block handle c = stage.owned ctx (q.context event thread) := by
  have htaken := h.taken u stage c ctx e hpc
  have htaker : (s.view c).taker = some (.unregistering stage c ctx e) := by
    rw [State.view, htaken, Option.map_some, hpc]
  have hc := h.agrees c
  have hfresh : ¬ (s.view c).Fresh := fun hf => by rw [hf.2.1] at htaker; cases htaker
  rw [Agrees] at hc
  split at hc
  · exact absurd hc.1 hfresh
  · exact absurd hc.1 hfresh
  · rw [hc.1] at htaker
    cases htaker
  · obtain ⟨q, ctx', event, thread, -, -, hevent, -, hleft⟩ := hc
    rw [htaker] at hleft
    obtain ⟨-, rfl, hjoined, hown⟩ := hleft
    exact ⟨q, event, thread, hevent, hjoined, hown⟩
  · exact absurd hc.1 hfresh

/-- The call goes on, or returns. -/
lemma unregisterFrame (h : Inv s block handle) {u : C} {stage : Stage} {ctx : Addr} {e : Handle}
    (hpc : s.pc u = .unregistering stage c ctx e) {p : Pc C} {heap' handles' block' handle'}
    (completed : List C)
    (hp : (∃ stage', p = .unregistering stage' c ctx e) ∨ p = .unregistered (.ok ()))
    (hheap : Describes heap' block') (hhandles : Describes handles' handle')
    (howned : ∀ d, d ≠ c → owned block' handle' d = owned block handle d)
    (hcompleted : ∀ d ∈ completed, d ∈ s.completed ∨ d = c ∧ stage.joined)
    (hself : ∀ x, owned block handle c = stage.owned ctx x →
      (stage.joined → s.thread c = .ended) →
      TakenAgrees c (s.view c) ctx x (owned block' handle' c) p) :
    Inv ((s.setTables heap' handles' completed).setPc u p)
      block' handle' := by
  obtain ⟨-, -, -, -, hjoined, -⟩ := h.unregistering hpc
  have htaken := h.taken u stage c ctx e hpc
  have htaker : (s.view c).taker = some (.unregistering stage c ctx e) := by
    rw [State.view, htaken, Option.map_some, hpc]
  have hu := h.agrees_of_pc hpc
  obtain ⟨⟨hthread, hnone, hcalls⟩, hnothing⟩ := hu
  have huc : u ≠ c := by
    rintro rfl
    rw [show (s.view u).taker = none from hnone] at htaker
    cases htaker
  have htakers : ∀ d, d ≠ c → s.takenBy d ≠ some u := by
    intro d hd hdu
    rcases (h.agrees d).taker (show (s.takenBy d).map s.pc = some (s.pc u) by
      rw [hdu]; rfl) with ⟨stage', ctx', e', heq⟩ | heq
    · rw [hpc] at heq
      obtain ⟨-, hcd, -⟩ := Pc.unregistering.inj heq
      exact hd hcd.symm
    · rw [hpc] at heq
      cases heq
  refine
    { heap := hheap, handles := hhandles, agrees := ?agrees, taken := ?taken, busy := ?busy,
      returned := ?returned, completed := ?completed, fault := h.fault }
  case agrees =>
    intro d
    by_cases hdc : d = c
    · -- the registration that the call takes apart
      subst hdc
      have hview : ((s.setTables heap' handles' completed).setPc u p).view d =
          { s.view d with taker := some p } := by
        simp only [State.view, State.setPc, State.setTables, Function.update_of_ne huc.symm,
          htaken, Option.map_some, Function.update_self]
      rw [hview]
      refine (h.agrees d).setTaker htaker ?_
      rintro ctx' x ⟨-, rfl, hj, hown⟩
      exact hself x hown hj
    · rw [howned d hdc]
      by_cases hdu : d = u
      · subst hdu
        have hview : ((s.setTables heap' handles' completed).setPc d p).view d =
            ⟨p, s.thread d, s.request d, none, s.calls d⟩ := by
          have hnot : s.takenBy d = none := Option.map_eq_none_iff.mp hnone
          simp only [State.view, State.setPc, State.setTables, Function.update_self, hnot,
            Option.map_none]
        rw [hview]
        rcases hp with ⟨stage', rfl⟩ | rfl
        · exact ⟨⟨hthread, rfl, hcalls⟩, hnothing⟩
        · exact ⟨⟨hthread, rfl, hcalls⟩, hnothing⟩
      · have hview : ((s.setTables heap' handles' completed).setPc u p).view d = s.view d := by
          have hsame : (s.takenBy d).map (Function.update s.pc u p) =
              (s.takenBy d).map s.pc := by
            cases hd : s.takenBy d with
            | none => rfl
            | some w =>
              have hw : w ≠ u := fun heq => htakers d hdc (heq ▸ hd)
              rw [Option.map_some, Option.map_some, Function.update_of_ne hw]
          simp only [State.view, State.setPc, State.setTables, Function.update_of_ne hdu, hsame]
        rw [hview]
        exact h.agrees d
  case taken =>
    intro w stage' d ctx' e' hw
    change Function.update s.pc u p w = _ at hw
    by_cases hwu : w = u
    · subst hwu
      rw [Function.update_self] at hw
      rcases hp with ⟨stage'', rfl⟩ | rfl
      · obtain ⟨-, rfl, -⟩ := Pc.unregistering.inj hw
        exact htaken
      · cases hw
    · rw [Function.update_of_ne hwu] at hw
      exact h.taken w stage' d ctx' e' hw
  case busy =>
    intro w stage' d ctx' e' b hw hb
    change Function.update s.pc u p w = _ at hw
    by_cases hwu : w = u
    · subst hwu
      exact h.busy w stage c ctx e b hpc hb
    · rw [Function.update_of_ne hwu] at hw
      exact h.busy w stage' d ctx' e' b hw hb
  case returned =>
    intro d w hd hw
    show Function.update s.pc u p w ≠ _
    by_cases hwu : w = u
    · subst hwu
      rw [Function.update_self]
      rintro rfl
      -- the thread would be in the callback and at its end
      by_cases hdc : d = c
      · subst hdc
        have hbusy := h.busy w stage d ctx e d hpc hw
        obtain ⟨q, event, thread, -, hj, hown⟩ := h.unregistering hpc
        have hended : s.thread d = .ended := (hself _ hown hj).1
        rw [hbusy] at hended
        cases hended
      · exact htakers d hdc hd
    · rw [Function.update_of_ne hwu]
      exact h.returned d w hd hw
  case completed =>
    intro d hd
    rcases hcompleted d hd with hd | ⟨rfl, hj⟩
    · exact h.completed d hd
    · exact hjoined hj

/-- The call returns to the callback it was made in. -/
lemma returnTo (h : Inv s block handle) {u : C} {result : Except (Option ErrorCode) Unit}
    (hpc : s.pc u = .unregistered result)
    (hthread : ∀ d, s.caller u = some d → s.thread d = .callback (some u)) :
    Sound (s.returnTo u) := by
  rw [State.returnTo]
  cases hd : s.caller u with
  | none => exact ⟨block, handle, h⟩
  | some d =>
    have hold := hthread d hd
    have hcreated : s.thread d ≠ .notCreated := by rw [hold]; nofun
    have hended : s.thread d ≠ .ended := by rw [hold]; nofun
    have hregisters : (s.pc d).Registers := (h.agrees d).registers hcreated
    refine ⟨block, handle, h.frame (c := d) ((SameBut.refl s d).setThread _) h.heap h.handles
      (fun _ _ => rfl) hregisters hregisters.ne ?_ (fun hu => absurd hu hended) ?_⟩
    · intro w stage d' ctx e hw hbusy
      rw [hold] at hbusy
      obtain rfl : u = w := Option.some.inj (ThreadPc.callback.inj hbusy)
      rw [hpc] at hw
      cases hw
    · refine (h.agrees d).setThread rfl rfl rfl hcreated hended ?_
      intro q ctx event hThread _ _ hagrees
      show ThreadAgrees q ctx event (s.calls d) (Function.update s.thread d _ d)
      rw [Function.update_self]
      rw [State.view, hold] at hagrees
      exact hagrees

/-- A call is given a wait object. -/
lemma take (h : Inv s block handle) {u : C} {ctx : Addr} {e : Handle} (caller : Option C)
    (hpc : s.pc u = .notCalled) (hwait : (s.pc c).waitObject = some ctx)
    (hfree : s.takenBy c = none) (hcaller : ∀ d ∈ caller, s.thread d = .callback (some u)) :
    Inv ({ s with
        takenBy := Function.update s.takenBy c (some u)
        caller := Function.update s.caller u caller }.setPc u (.unregistering .setCancel c ctx e))
      block handle := by
  have hc : ∃ w, s.pc c = .registered (.ok w) ∧ w = some ctx := by
    rw [Pc.waitObject.eq_def] at hwait
    split at hwait
    case _ w heq => exact ⟨w, heq, hwait⟩
    case _ => cases hwait
  obtain ⟨w, hw, rfl⟩ := hc
  have huc : u ≠ c := by
    rintro rfl
    rw [hpc] at hw
    cases hw
  have htakers : ∀ d, s.takenBy d ≠ some u := fun d => h.takenBy_ne (by rw [hpc]; trivial)
  obtain ⟨⟨hthread, hnone, hcalls⟩, hnothing⟩ := h.agrees_of_pc hpc
  have hmap : ∀ d, (s.takenBy d).map (Function.update s.pc u (.unregistering .setCancel c ctx e)) =
      (s.takenBy d).map s.pc := by
    intro d
    cases hd : s.takenBy d with
    | none => rfl
    | some w =>
      have hwu : w ≠ u := fun heq => htakers d (heq ▸ hd)
      rw [Option.map_some, Option.map_some, Function.update_of_ne hwu]
  refine
    { heap := h.heap, handles := h.handles, agrees := ?agrees, taken := ?taken, busy := ?busy,
      returned := ?returned, completed := h.completed, fault := h.fault }
  case agrees =>
    intro d
    by_cases hdc : d = c
    · subst hdc
      obtain ⟨q, ctx', event, thread, hctx, hq, hevent, hagrees, hleft⟩ := h.agrees_of_pc hw
      simp only [State.view, hfree, Option.map_none] at hleft
      simp only [State.view, State.setPc, Function.update_of_ne huc.symm, Function.update_self,
        Option.map_some, hw]
      obtain rfl := hctx ctx rfl
      exact ⟨q, ctx, event, thread, hctx, hq, hevent, hagrees, rfl, rfl, nofun, hleft⟩
    · simp only [State.view, State.setPc, Function.update_of_ne hdc, hmap]
      by_cases hdu : d = u
      · subst hdu
        rw [Function.update_self]
        exact ⟨⟨hthread, hnone, hcalls⟩, hnothing⟩
      · rw [Function.update_of_ne hdu]
        exact h.agrees d
  case taken =>
    intro v stage d ctx' e' hv
    change Function.update s.pc u _ v = _ at hv
    show Function.update s.takenBy c (some u) d = some v
    by_cases hvu : v = u
    · subst hvu
      rw [Function.update_self] at hv
      obtain ⟨-, rfl, -⟩ := Pc.unregistering.inj hv
      exact Function.update_self ..
    · rw [Function.update_of_ne hvu] at hv
      have hd := h.taken v stage d ctx' e' hv
      have hdc : d ≠ c := by
        rintro rfl
        rw [hfree] at hd
        cases hd
      rw [Function.update_of_ne hdc]
      exact hd
  case busy =>
    intro v stage d ctx' e' b hv hb
    change Function.update s.pc u _ v = _ at hv
    change Function.update s.caller u caller v = some b at hb
    by_cases hvu : v = u
    · subst hvu
      rw [Function.update_self] at hb
      exact hcaller b hb
    · rw [Function.update_of_ne hvu] at hv hb
      exact h.busy v stage d ctx' e' b hv hb
  case returned =>
    intro d v hd hv
    change Function.update s.takenBy c (some u) d = some v at hd
    change Function.update s.caller u caller v = some d at hv
    show Function.update s.pc u _ v ≠ _
    by_cases hvu : v = u
    · subst hvu
      rw [Function.update_self]
      nofun
    · rw [Function.update_of_ne hvu] at hv ⊢
      have hdc : d ≠ c := by
        rintro rfl
        rw [Function.update_self] at hd
        exact hvu (Option.some.inj hd).symm
      rw [Function.update_of_ne hdc] at hd
      exact h.returned d v hd hv

/-- A call of `UnregisterWaitEx_compat` that is refused. -/
lemma refuse (h : Inv s block handle) {u : C} (hpc : s.pc u = .notCalled)
    (result : Except (Option ErrorCode) Unit) : Sound (s.setPc u (.unregistered result)) := by
  obtain ⟨hfresh, hnothing⟩ := h.agrees_of_pc hpc
  exact h.registerStep hpc (SameBut.refl s u) h.heap h.handles (fun _ _ => rfl) (Or.inl rfl)
    ⟨hfresh, hnothing⟩

lemma callUnregister (h : Inv s block handle) {u : C} {wait : Option (C × Addr)} {e : Handle}
    {caller : Option C} (hpc : s.pc u = .notCalled)
    (hwait : ∀ c ctx, wait = some (c, ctx) → (s.pc c).waitObject = some ctx)
    (honce : ∀ c ctx, wait = some (c, ctx) → e = INVALID_HANDLE_VALUE ∨ s.takenBy c = none)
    (hcaller : ∀ d ∈ caller, s.thread d = .callback none) :
    Sound (s.callUnregister u wait e caller) := by
  cases wait with
  | none => exact h.refuse hpc _
  | some wait =>
    obtain ⟨c, ctx⟩ := wait
    rw [State.callUnregister]
    by_cases he : e = INVALID_HANDLE_VALUE
    · rw [if_pos he]
      exact h.refuse hpc _
    · rw [if_neg he]
      have hfree : s.takenBy c = none := (honce c ctx rfl).resolve_left he
      cases caller with
      | none => exact ⟨block, handle, h.take none hpc (hwait c ctx rfl) hfree nofun⟩
      | some d =>
        -- the callback is in the call
        have hthread := hcaller d rfl
        have hbusy : Sound (s.setThread d (.callback (some u))) := by
          refine h.threadStep hthread s.calls (fun _ _ => rfl) nofun nofun nofun ?_
          intro q ctx event hThread _ _ hcalls
          exact hcalls
        obtain ⟨block', handle', h'⟩ := hbusy
        refine ⟨block', handle', h'.take (some d) hpc (hwait c ctx rfl) hfree ?_⟩
        rintro d' ⟨⟩
        exact Function.update_self ..

lemma unregisterStep (h : Inv s block handle) {u : C} {stage : Stage} {ctx : Addr} {e : Handle}
    (hpc : s.pc u = .unregistering stage c ctx e)
    (hs' : s.unregisterStep u c ctx e stage = some s') : Sound s' := by
  obtain ⟨q, event, thread, hevent, hjoined, hown⟩ := h.unregistering hpc
  have hkeep : ∀ {stage' : Stage} {heap' handles' block' handle'},
      Describes heap' block' → Describes handles' handle' →
      (∀ d, d ≠ c → owned block' handle' d = owned block handle d) →
      (stage'.joined → s.thread c = .ended) →
      (∀ x, owned block handle c = stage.owned ctx x →
        owned block' handle' c = stage'.owned ctx x) →
      Sound ((s.setTables heap' handles' s.completed).setPc u (.unregistering stage' c ctx e)) := by
    intro stage' heap' handles' block' handle' hheap hhandles howned hj hself
    refine ⟨block', handle', h.unregisterFrame hpc s.completed (Or.inl ⟨stage', rfl⟩) hheap
      hhandles howned
      (fun d hd => Or.inl hd) ?_⟩
    intro x hx _
    exact ⟨rfl, rfl, hj, hself x hx⟩
  cases stage with
  | setCancel =>
    have hblock : block c = some (ctx, q.context event thread) := congrArg Owned.block hown
    have hhandle : handle (c, .cancelEvent) = some (event, false) := congrArg Owned.event hown
    have hread : s.handles.read (q.context event thread).hCancelEvent (c, .cancelEvent) =
        some false := h.handles.read hhandle
    rw [State.unregisterStep, State.withContext_of_read (h.heap.read hblock),
      if_neg (show (q.context event thread).hCancelEvent ≠ 0 from hevent),
      State.withHandle_of_read hread, Option.some.injEq] at hs'
    subst hs'
    refine hkeep h.heap (h.handles.modify hhandle true) (fun d hd => owned_handle_of_ne _ _ hd)
      False.elim ?_
    intro x hx
    rw [owned_event_self, hx]
    have hx' : event = x.hCancelEvent := by
      rw [hown] at hx
      exact (Prod.mk.inj (Option.some.inj (congrArg Owned.event hx))).1
    rw [hx']
    rfl
  | joinThread =>
    have hblock : block c = some (ctx, q.context event thread) := congrArg Owned.block hown
    have hhandle : handle (c, .thread) = some (thread, false) := congrArg Owned.thread hown
    have hread : s.handles.read (q.context event thread).hThread (c, .thread) = some false :=
      h.handles.read hhandle
    rw [State.unregisterStep, State.withContext_of_read (h.heap.read hblock),
      State.withHandle_of_read hread] at hs'
    by_cases hended : s.thread c = .ended
    · rw [if_pos hended, Option.some.injEq] at hs'
      subst hs'
      exact hkeep h.heap h.handles (fun _ _ => rfl) (fun _ => hended) fun x hx => hx
    · rw [if_neg hended] at hs'
      cases hs'
  | closeCancel =>
    have hblock : block c = some (ctx, q.context event thread) := congrArg Owned.block hown
    have hhandle : handle (c, .cancelEvent) = some (event, true) := congrArg Owned.event hown
    have hread : s.handles.read (q.context event thread).hCancelEvent (c, .cancelEvent) =
        some true := h.handles.read hhandle
    rw [State.unregisterStep, State.withContext_of_read (h.heap.read hblock),
      State.withHandle_of_read hread, Option.some.injEq] at hs'
    subst hs'
    refine hkeep h.heap (h.handles.remove hhandle) (fun d hd => owned_handle_of_ne _ _ hd)
      hjoined ?_
    intro x hx
    rw [owned_event_self, hx]
    rfl
  | closeThread =>
    have hblock : block c = some (ctx, q.context event thread) := congrArg Owned.block hown
    have hhandle : handle (c, .thread) = some (thread, false) := congrArg Owned.thread hown
    have hread : s.handles.read (q.context event thread).hThread (c, .thread) = some false :=
      h.handles.read hhandle
    rw [State.unregisterStep, State.withContext_of_read (h.heap.read hblock),
      State.withHandle_of_read hread, Option.some.injEq] at hs'
    subst hs'
    refine hkeep h.heap (h.handles.remove hhandle) (fun d hd => owned_handle_of_ne _ _ hd)
      hjoined ?_
    intro x hx
    rw [owned_thread_self, hx]
    rfl
  | complete =>
    rw [State.unregisterStep, Option.some.injEq] at hs'
    subst hs'
    by_cases he : e = 0
    · rw [if_neg (not_not.mpr he)]
      exact hkeep h.heap h.handles (fun _ _ => rfl) hjoined fun x hx => hx
    · rw [if_pos he]
      refine ⟨block, handle, h.unregisterFrame hpc (c :: s.completed)
        (Or.inl ⟨.heapFree, rfl⟩) h.heap h.handles (fun _ _ => rfl) ?_ ?_⟩
      · intro d hd
        rcases List.mem_cons.mp hd with rfl | hd
        · exact Or.inr ⟨rfl, trivial⟩
        · exact Or.inl hd
      · intro x hx hj
        exact ⟨rfl, rfl, hj, hx⟩
  | heapFree =>
    have hblock : block c = some (ctx, q.context event thread) := congrArg Owned.block hown
    rw [State.unregisterStep, State.withContext_of_read (h.heap.read hblock),
      Option.some.injEq] at hs'
    subst hs'
    have hfreed := h.unregisterFrame (p := .unregistered (.ok ())) hpc s.completed
      (Or.inr rfl) (h.heap.remove hblock) h.handles (fun d hd => owned_of_ne _ hd)
      (fun d hd => Or.inl hd) ?_
    · refine hfreed.returnTo (Function.update_self ..) ?_
      intro d hd
      exact h.busy u _ c ctx e d hpc hd
    · intro x hx hj
      refine ⟨hj trivial, ?_⟩
      rw [owned_block_self, hx]
      rfl

end Inv

/-! ## Runs -/

omit [DecidableEq C] in
lemma Sound.init : Sound (.init : State C) := by
  refine ⟨fun _ => none, fun _ => none, ?_⟩
  exact
    { heap := describes_empty
      handles := describes_empty
      agrees := fun _ => ⟨⟨rfl, rfl, rfl⟩, rfl⟩
      taken := nofun
      busy := nofun
      returned := nofun
      completed := nofun
      fault := rfl }

/-- **Step.** A step of a client that keeps to the contract, or of any other party. -/
lemma Sound.next {label : Label C} (h : Sound s) (honce : Once s label s')
    (hs' : step s label = some s') : Sound s' := by
  obtain ⟨block, handle, h⟩ := h
  rw [step.eq_def, if_neg (by rw [h.fault]; exact Bool.false_ne_true)] at hs'
  cases label with
  | register c q ctx =>
    dsimp only at hs'
    split at hs'
    case _ hpc => exact h.register hpc hs'
    case _ => cases hs'
  | createEvent c event =>
    dsimp only at hs'
    split at hs'
    case _ ctx q hpc hq => exact h.createEvent hpc hq hs'
    case _ => cases hs'
  | beginThread c thread =>
    dsimp only at hs'
    split at hs'
    case _ ctx hpc => exact h.beginThread hpc hs'
    case _ => cases hs'
  | publish c =>
    dsimp only at hs'
    split at hs'
    case _ ctx thread q hpc hq => exact h.publish hpc hq hs'
    case _ => cases hs'
  | startWait c =>
    dsimp only at hs'
    split at hs'
    case _ ctx hp => exact h.startWait hp hs'
    case _ => cases hs'
  | endWait c result =>
    dsimp only at hs'
    split at hs'
    case _ hp => exact h.endWait hp hs'
    case _ => cases hs'
  | callCallback c =>
    dsimp only at hs'
    split at hs'
    case _ ctx timedOut hp => exact h.callCallback hp hs'
    case _ => cases hs'
  | returnCallback c =>
    dsimp only at hs'
    split at hs'
    case _ hp => exact Option.some.inj hs' ▸ h.returnCallback hp
    case _ => cases hs'
  | callUnregister u wait e caller =>
    dsimp only at hs'
    split at hs'
    case _ => cases hs'
    case _ hcall =>
      rw [not_or, not_not, not_exists] at hcall
      obtain ⟨hpc, hcaller⟩ := hcall
      have hcaller' : ∀ d ∈ caller, s.thread d = .callback none := fun d hd =>
        not_not.mp fun hne => hcaller d ⟨hd, hne⟩
      cases wait with
      | none => exact Option.some.inj hs' ▸ h.callUnregister hpc nofun nofun hcaller'
      | some c =>
        dsimp only at hs'
        split at hs'
        case _ => cases hs'
        case _ ctx hwait =>
          refine Option.some.inj hs' ▸ h.callUnregister hpc ?_ ?_ hcaller'
          · rintro c' ctx' ⟨⟩
            exact hwait
          · rintro c' ctx' ⟨⟩
            exact honce
  | unregister u =>
    dsimp only at hs'
    split at hs'
    case _ stage c ctx e hpc => exact h.unregisterStep hpc hs'
    case _ => cases hs'

omit [DecidableEq C] in
/-- A thread has called back at most once, as it was asked to. -/
lemma ThreadAgrees.calls {q : Request} {ctx : Addr} {event : Handle} {calls : List CallbackCall}
    {p : ThreadPc C} (h : ThreadAgrees q ctx event calls p) :
    calls.length ≤ 1 ∧ ∀ call ∈ calls, call.Asked q := by
  have hnone : calls = [] → calls.length ≤ 1 ∧ ∀ call ∈ calls, call.Asked q := by
    rintro rfl
    exact ⟨Nat.zero_le 1, nofun⟩
  cases p with
  | notCreated => exact h.elim
  | starting => exact hnone h.2
  | waiting => exact hnone h.2.2.2
  | woken => exact hnone h.2.1
  | callback | ended => exact h

omit [DecidableEq C] in
lemma Agrees.calls {c : C} {v : View C} {r : Owned} (h : Agrees c v r) :
    v.calls.length ≤ 1 ∧ ∀ call ∈ v.calls, ∃ q, v.request = some q ∧ call.Asked q := by
  have hfresh : v.Fresh →
      v.calls.length ≤ 1 ∧ ∀ call ∈ v.calls, ∃ q, v.request = some q ∧ call.Asked q := by
    intro hf
    rw [hf.2.2]
    exact ⟨Nat.zero_le 1, nofun⟩
  rw [Agrees] at h
  split at h
  · exact hfresh h.1
  · exact hfresh h.1
  · obtain ⟨-, q, event, hq, -, hagrees, -⟩ := h
    exact ⟨hagrees.calls.1, fun call hcall => ⟨q, hq, hagrees.calls.2 call hcall⟩⟩
  · obtain ⟨q, ctx, event, thread, -, hq, -, hagrees, -⟩ := h
    exact ⟨hagrees.calls.1, fun call hcall => ⟨q, hq, hagrees.calls.2 call hcall⟩⟩
  · exact hfresh h.1

namespace Inv

omit [DecidableEq C] in
/-- The registration whose wait object a call was given. -/
lemma registered_of_takenBy (h : Inv s block handle) {u : C} (hu : s.takenBy c = some u) :
    ∃ ctx x, TakenAgrees c (s.view c) ctx x (owned block handle c) (s.pc u) := by
  have htaker : (s.view c).taker = some (s.pc u) := by rw [State.view, hu]; rfl
  have hfresh : ¬ (s.view c).Fresh := fun hf => by rw [hf.2.1] at htaker; cases htaker
  have hc := h.agrees c
  rw [Agrees] at hc
  split at hc
  · exact absurd hc.1 hfresh
  · exact absurd hc.1 hfresh
  · rw [hc.1] at htaker
    cases htaker
  · obtain ⟨q, ctx, event, thread, -, -, -, -, hleft⟩ := hc
    rw [htaker] at hleft
    exact ⟨ctx, _, hleft⟩
  · exact absurd hc.1 hfresh

omit [DecidableEq C] in
/-- What a registration does not own is not in the tables. -/
lemma released_of_nothing (h : Inv s block handle) (hown : owned block handle c = .nothing) :
    (∀ ctx x, s.heap ctx ≠ some (c, x)) ∧ ∀ e kind b, s.handles e ≠ some ((c, kind), b) := by
  constructor
  · intro ctx x
    exact h.heap.eq_none (congrArg Owned.block hown)
  · intro e kind b
    cases kind with
    | cancelEvent => exact h.handles.eq_none (congrArg Owned.event hown)
    | thread => exact h.handles.eq_none (congrArg Owned.thread hown)

end Inv

omit [DecidableEq C] in
lemma Sound.safe (h : Sound s) : Safe s := by
  obtain ⟨block, handle, h⟩ := h
  refine
    { fault := h.fault, once := fun c => (h.agrees c).calls.1, asked := ?asked, joined := ?joined,
      completed := h.completed, released := ?released, kept := ?kept }
  case asked =>
    intro c call hcall
    obtain ⟨q, hq, hcallback, hcontext, htimedOut⟩ := (h.agrees c).calls.2 call hcall
    exact ⟨q, hq, hcallback, hcontext, htimedOut⟩
  case joined =>
    intro c u hu hpc
    obtain ⟨ctx, x, hleft⟩ := h.registered_of_takenBy hu
    rw [hpc] at hleft
    exact hleft.1
  case released =>
    rintro c (⟨e, hpc⟩ | ⟨u, hu, hpc⟩)
    · obtain ⟨-, hown⟩ := h.agrees_of_pc hpc
      exact h.released_of_nothing hown
    · obtain ⟨ctx, x, hleft⟩ := h.registered_of_takenBy hu
      rw [hpc] at hleft
      exact h.released_of_nothing hleft.2
  case kept =>
    intro c ctx hwait hfree
    rw [Pc.waitObject.eq_def] at hwait
    split at hwait
    case _ w hpc =>
      subst hwait
      obtain ⟨q, ctx', event, thread, hctx, -, -, -, hown⟩ := h.agrees_of_pc hpc
      simp only [State.view, hfree, Option.map_none] at hown
      obtain rfl := hctx ctx rfl
      refine ⟨q.context event thread, ?_, ?_, false, ?_⟩
      · exact (h.heap ctx c _).mpr (congrArg Owned.block hown)
      · exact (h.handles event (c, .cancelEvent) false).mpr (congrArg Owned.event hown)
      · exact (h.handles thread (c, .thread) false).mpr (congrArg Owned.thread hown)
    case _ => cases hwait

end

end WaitObject
end ClamavWin32
