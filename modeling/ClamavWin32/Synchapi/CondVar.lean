import ClamavWin32.Synchapi.Futex

/-!
# The condition variable: `SleepConditionVariableCS`, `WakeConditionVariable`

The model of the second half of `src/legacy/shared/synchapi.c`. As in the futex model, a
process is one call of one of the two functions and may start at any time; `thread` says
which thread makes it, since a critical section belongs to a thread. The stack frame of a
`SleepConditionVariableCS` call holds its `struct condvar_entry`, and a queue is the list
of the calls whose entries it links, head first.

A step is one of

* a section under the spin lock of a queue (`enqueueSection`, `relockSection`,
  `wakeSection`), taken whole: the first one leaves the critical section and the last one
  signals the event before the spin lock is released;
* `CreateEvent`, the end of a wait, `CloseHandle`;
* the entry into or exit from a critical section, by a call or by the program.

The fields after `pc` are history that no step reads: when each entry was queued, which
wakes removed it, with which wait result its call took it out itself, every `SetEvent` so
far, and the order in which waiters left and threads entered the critical sections.
-/

namespace ClamavWin32
namespace CondVar

open Futex (Signal)

/-! ## The data -/

/-- `struct condvar_entry` without its links. -/
structure CondvarEntry where
  address : Addr
  event : Handle
  deriving DecidableEq

/-- `get_condvar_queue`: the index of the queue of an address. -/
def getCondvarQueue (addr : Addr) : Fin 256 := Fin.ofNat 256 (addr >>> 4)

/-- Where a call stands; `cv` and `cs` are its `ConditionVariable` and
`CriticalSection`, `error` is what `GetLastError` returned after a failed wait. -/
inductive Pc where
  | notCalled
  | createEvent (cv cs : Addr) (ms : ℕ)
  /-- `SleepConditionVariableCS` before its first section. -/
  | enqueueLock (cv cs : Addr) (ms : ℕ)
  /-- In the first `WaitForSingleObject`. -/
  | waiting (cv cs : Addr) (ms : ℕ)
  /-- The wait has ended; the second section is next. -/
  | ended (cv cs : Addr) (result : WaitResult) (error : ErrorCode)
  /-- In the second `WaitForSingleObject`, for the signal of the wake that removed it. -/
  | waitingForWake (cs : Addr)
  | closing (cs : Addr) (result : WaitResult) (error : ErrorCode)
  /-- In `EnterCriticalSection`. -/
  | entering (cs : Addr) (result : WaitResult) (error : ErrorCode)
  /-- Returned, with the last error if the call has set it. -/
  | sleepReturned (result : Bool) (lastError : Option ErrorCode)
  /-- `WakeConditionVariable` before its section. -/
  | wakeLock (cv : Addr)
  | wakeReturned
  deriving DecidableEq

/-- An entry of the history of the critical sections. -/
inductive SectionEvent (T C : Type*) where
  /-- The waiter `c` on `cv` left `cs`. -/
  | left (c : C) (cv cs : Addr)
  | entered (t : T) (cs : Addr)
  deriving DecidableEq

structure State (T C : Type*) where
  /-- The owner of each critical section and how often it has entered it. -/
  sections : Addr → Option (T × ℕ)
  queues : Fin 256 → List C
  entry : C → CondvarEntry
  events : EventTable C
  pc : C → Pc
  queuedAt : C → ℕ
  clock : ℕ
  removals : C → List C
  withdrawn : C → Option WaitResult
  signals : List (Signal C)
  log : List (SectionEvent T C)

/-- No call yet: every critical section free, every queue empty and no event open. -/
def State.init {T C : Type*} : State T C where
  sections := fun _ => none
  queues := fun _ => []
  entry := fun _ => ⟨0, 0⟩
  events := fun _ => none
  pc := fun _ => .notCalled
  queuedAt := fun _ => 0
  clock := 0
  removals := fun _ => []
  withdrawn := fun _ => none
  signals := []
  log := []

inductive Action (T C : Type*) where
  | enter (t : T) (cs : Addr)
  | leave (t : T) (cs : Addr)
  | callSleep (c : C) (cv cs : Addr) (ms : ℕ)
  | createEvent (c : C) (created : Handle)
  | enqueueSection (c : C)
  | endWait (c : C) (result : WaitResult) (error : ErrorCode)
  | relockSection (c : C)
  | endWaitForWake (c : C) (result : WaitResult)
  | closeHandle (c : C)
  | reenter (c : C)
  | callWake (w : C) (cv : Addr)
  | wakeSection (w : C)
  deriving DecidableEq

namespace State

variable {T C : Type*} [DecidableEq T] [DecidableEq C]

def setPc (s : State T C) (c : C) (p : Pc) : State T C :=
  { s with pc := Function.update s.pc c p }

/-! ## Critical sections -/

/-- `EnterCriticalSection`, once it is free or already owned by the thread. -/
def enterSection (s : State T C) (t : T) (cs : Addr) : Option (State T C) :=
  match s.sections cs with
  | none => some
    { s with
      sections := Function.update s.sections cs (some (t, 1))
      log := s.log ++ [.entered t cs] }
  | some (owner, count) =>
    if owner = t then some
      { s with
        sections := Function.update s.sections cs (some (t, count + 1))
        log := s.log ++ [.entered t cs] }
    else none

/-- `LeaveCriticalSection`, by the thread that owns it. -/
def leaveSection (s : State T C) (t : T) (cs : Addr) : Option (State T C) :=
  match s.sections cs with
  | none => none
  | some (owner, count) =>
    if owner = t then some
      { s with
        sections := Function.update s.sections cs
          (if count ≤ 1 then none else some (t, count - 1)) }
    else none

/-! ## Pieces of the spin-lock sections -/

/-- `list_add_tail (&queue->queue, &waiter.entry)`. -/
def enqueue (s : State T C) (c : C) (cv : Addr) : State T C :=
  { s with
    queues := Function.update s.queues (getCondvarQueue cv)
      (s.queues (getCondvarQueue cv) ++ [c])
    queuedAt := Function.update s.queuedAt c s.clock
    clock := s.clock + 1 }

/-- `waiter.address = NULL; list_remove (&waiter.entry)`. -/
def dequeue (s : State T C) (q : Fin 256) (c : C) : State T C :=
  { s with
    entry := Function.update s.entry c { s.entry c with address := 0 }
    queues := Function.update s.queues q ((s.queues q).erase c) }

/-- `SetEvent (waiter->event)`. -/
def setEvent (s : State T C) (c : C) : State T C :=
  { s with
    events := s.events.signal (s.entry c).event
    signals := s.signals ++ [⟨c, s.events.owner (s.entry c).event⟩] }

/-- The first entry of the queue that waits on `cv`. -/
def findWaiter (s : State T C) (cv : Addr) : Option C :=
  (s.queues (getCondvarQueue cv)).find? fun c => (s.entry c).address = cv

/-- The loop of `WakeConditionVariable`. -/
def wakeFirst (s : State T C) (w : C) (cv : Addr) : State T C :=
  match s.findWaiter cv with
  | none => s
  | some c =>
    { (s.dequeue (getCondvarQueue cv) c).setEvent c with
      removals := Function.update s.removals c (s.removals c ++ [w]) }

end State

variable {T C : Type*} [DecidableEq T] [DecidableEq C]

/-- One atomic step. -/
def step (thread : C → T) (s : State T C) : Action T C → Option (State T C)
  | .enter t cs => s.enterSection t cs
  | .leave t cs => s.leaveSection t cs
  | .callSleep c cv cs ms =>
    match s.pc c with
    | .notCalled =>
      if cv = 0 ∨ cs = 0 then
        some (s.setPc c (.sleepReturned false (some ERROR_INVALID_PARAMETER)))
      else some (s.setPc c (.createEvent cv cs ms))
    | _ => none
  | .createEvent c created =>
    match s.pc c with
    | .createEvent cv cs ms =>
      if created = 0 then some (s.setPc c (.sleepReturned false none))
      else if s.events created ≠ none then none
      else
        some ({ s with
          events := s.events.create created c
          entry := Function.update s.entry c ⟨cv, created⟩ }.setPc c (.enqueueLock cv cs ms))
    | _ => none
  | .enqueueSection c =>
    match s.pc c with
    | .enqueueLock cv cs ms =>
      ((s.enqueue c cv).leaveSection (thread c) cs).map fun s' =>
        { s' with log := s'.log ++ [SectionEvent.left c cv cs] }.setPc c (.waiting cv cs ms)
    | _ => none
  | .endWait c result error =>
    match s.pc c with
    | .waiting cv cs ms =>
      if result.MayEnd s.events (s.entry c).event ms then
        some ({ s with events := result.after s.events (s.entry c).event }.setPc c
          (.ended cv cs result error))
      else none
    | _ => none
  | .relockSection c =>
    match s.pc c with
    | .ended cv cs result error =>
      if (s.entry c).address = 0 then
        if result ≠ .object0 then some (s.setPc c (.waitingForWake cs))
        else some (s.setPc c (.closing cs result error))
      else
        some ({ s.dequeue (getCondvarQueue cv) c with
          withdrawn := Function.update s.withdrawn c (some result) }.setPc c
            (.closing cs result error))
    | _ => none
  | .endWaitForWake c result =>
    match s.pc c with
    | .waitingForWake cs =>
      -- what the wait returns is ignored
      if result.MayEnd s.events (s.entry c).event INFINITE then
        some ({ s with events := result.after s.events (s.entry c).event }.setPc c
          (.closing cs .object0 0))
      else none
    | _ => none
  | .closeHandle c =>
    match s.pc c with
    | .closing cs result error =>
      some ({ s with events := s.events.close (s.entry c).event }.setPc c
        (.entering cs result error))
    | _ => none
  | .reenter c =>
    match s.pc c with
    | .entering cs result error =>
      (s.enterSection (thread c) cs).map fun s' =>
        s'.setPc c <| match result with
          | .object0 => .sleepReturned true none
          | .timeout => .sleepReturned false (some ERROR_TIMEOUT)
          | .failed => .sleepReturned false (some error)
    | _ => none
  | .callWake w cv =>
    match s.pc w with
    | .notCalled =>
      if cv = 0 then some (s.setPc w .wakeReturned)
      else some (s.setPc w (.wakeLock cv))
    | _ => none
  | .wakeSection w =>
    match s.pc w with
    | .wakeLock cv => some ((s.wakeFirst w cv).setPc w .wakeReturned)
    | _ => none

end CondVar
end ClamavWin32
