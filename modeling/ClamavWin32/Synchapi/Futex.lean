import ClamavWin32.Win32
import ClamavWin32.Semantics.TransitionSystem

/-!
# The futex queue: `WaitOnAddress`, `WakeByAddressSingle`, `WakeByAddressAll`

The model of the first half of `src/legacy/shared/synchapi.c` as a labelled transition
system. A process is one call of one of the three functions; a thread is the sequence of
its calls, so any number of threads is any number of calls, each of which may start at any
time. The stack frame of a `WaitOnAddress` call holds its `struct futex_entry`, and the
intrusive list of a queue is the list of the calls whose entries it links, head first.

A step is one of

* a section under the spin lock of a queue (`waitSection`, `relockSection`,
  `wakeSection`), taken whole;
* the end of a wait, `CloseHandle`, `SetEvent`;
* the read of `entry.address` outside the spin lock;
* a store to watched memory by the program.

The values outside calls return are in the labels: the handle `CreateEvent` returned (`0`
when it failed) and how a wait ended.

`removedBy` and `signals` are history that no step reads: the wake call that removed the
entry of a wait call, and every `SetEvent` so far with the call it was meant for and the
call whose event it reached.
-/

namespace ClamavWin32
namespace Futex

variable {C : Type*} [DecidableEq C]

/-! ## The data -/

/-- `struct futex_entry` without its links. -/
structure FutexEntry where
  address : Addr
  event : Handle
  deriving DecidableEq

/-- `get_futex_queue`: the index of the queue of an address. -/
def getFutexQueue (addr : Addr) : Fin 256 := Fin.ofNat 256 (addr >>> 4)

/-- `compare_addr`, on the contents of the two memory cells: equality of their low `size`
bytes, and `FALSE` for a size that is not 1, 2, 4 or 8. -/
def compareAddr (value compare : Word) (size : ℕ) : Bool :=
  match size with
  | 1 => value % 2 ^ 8 == compare % 2 ^ 8
  | 2 => value % 2 ^ 16 == compare % 2 ^ 16
  | 4 => value % 2 ^ 32 == compare % 2 ^ 32
  | 8 => value % 2 ^ 64 == compare % 2 ^ 64
  | _ => false

/-- The size of the `events` buffer in `WakeByAddressAll`. -/
def eventsSize : ℕ := 256

/-- A `SetEvent` still to be made: the handle a wake call copied out of an entry, and (as
history) the call whose entry it was. -/
structure Pending (C : Type*) where
  event : Handle
  call : C
  deriving DecidableEq

/-- A `SetEvent` that was made: the call it was meant for and the owner of the event it
was applied to, if the handle was open. -/
structure Signal (C : Type*) where
  call : C
  hit : Option C
  deriving DecidableEq

/-- Where a call stands. -/
inductive Pc (C : Type*) where
  | notCalled
  /-- `WaitOnAddress` before its first section; `compare` is what `CompareAddress` holds. -/
  | waitLock (address : Addr) (compare : Word) (size ms : ℕ)
  /-- In `WaitForSingleObject`, with its entry's queue entered. -/
  | waiting (address : Addr) (ms : ℕ)
  /-- The wait has ended; `CloseHandle` is next. -/
  | ended (address : Addr) (r : WaitResult)
  /-- The read of `entry.address` is next. -/
  | closed (address : Addr) (r : WaitResult)
  /-- The read found the entry still queued; the second section is next. -/
  | relock (address : Addr) (r : WaitResult)
  | waitReturned (result : Bool)
  /-- `WakeByAddressAll` (`all`) or `WakeByAddressSingle` before its section. -/
  | wakeLock (all : Bool) (address : Addr)
  /-- The section is over; these events are to be set, first one first. -/
  | signalling (events : List (Pending C))
  | wakeReturned
  deriving DecidableEq

/-- The state shared by all calls, and where each call stands. -/
structure State (C : Type*) where
  memory : Addr → Word
  queues : Fin 256 → List C
  entry : C → FutexEntry
  events : EventTable C
  pc : C → Pc C
  removedBy : C → Option C
  signals : List (Signal C)

/-- No call yet: every queue empty and no event open. -/
def State.init (memory : Addr → Word) : State C where
  memory := memory
  queues := fun _ => []
  entry := fun _ => ⟨0, 0⟩
  events := fun _ => none
  pc := fun _ => .notCalled
  removedBy := fun _ => none
  signals := []

inductive Action (C : Type*) where
  | callWait (c : C) (address : Addr) (compare : Word) (size ms : ℕ)
  | waitSection (c : C) (created : Handle)
  | endWait (c : C) (r : WaitResult)
  | closeHandle (c : C)
  | readAddress (c : C)
  | relockSection (c : C)
  | callWake (w : C) (all : Bool) (address : Addr)
  | wakeSection (w : C)
  | setEvent (w : C)
  | store (address : Addr) (value : Word)
  deriving DecidableEq

/-- The call that makes the step; a store is made by the program around the calls. -/
def Action.caller : Action C → Option C
  | .callWait c .. | .waitSection c _ | .endWait c _ | .closeHandle c | .readAddress c
  | .relockSection c | .callWake c .. | .wakeSection c | .setEvent c => some c
  | .store .. => none

namespace State

def setPc (s : State C) (c : C) (p : Pc C) : State C :=
  { s with pc := Function.update s.pc c p }

/-! ## Pieces of the sections -/

/-- `list_add_tail (&queue->queue, &entry.entry)` after the entry was filled in. -/
def enqueue (s : State C) (c : C) (address : Addr) (event : Handle) : State C :=
  { s with
    entry := Function.update s.entry c ⟨address, event⟩
    queues := Function.update s.queues (getFutexQueue address)
      (s.queues (getFutexQueue address) ++ [c]) }

/-- `list_remove (&entry.entry)`. -/
def listRemove (s : State C) (q : Fin 256) (c : C) : State C :=
  { s with queues := Function.update s.queues q ((s.queues q).erase c) }

/-- `entry->address = NULL; list_remove (&entry->entry)` by the wake call `w`. -/
def dequeue (s : State C) (w : C) (q : Fin 256) (c : C) : State C :=
  { s.listRemove q c with
    entry := Function.update s.entry c { s.entry c with address := 0 }
    removedBy := Function.update s.removedBy c (some w) }

/-- `SetEvent (event)`. -/
def signal (s : State C) (p : Pending C) : State C :=
  { s with
    events := s.events.signal p.event
    signals := s.signals ++ [⟨p.call, s.events.owner p.event⟩] }

/-- The loop of `WakeByAddressSingle`: the first entry for the address, if there is one, is
removed and its event copied. -/
def wakeByAddressSingle (s : State C) (w : C) (address : Addr) : State C × List (Pending C) :=
  match (s.queues (getFutexQueue address)).find? fun c => (s.entry c).address = address with
  | none => (s, [])
  | some c => (s.dequeue w (getFutexQueue address) c, [⟨(s.entry c).event, c⟩])

/-- The loop of `WakeByAddressAll` over the entries still to be visited, with the events
buffered so far: every entry for the address is removed; its event is copied while the
buffer has room and set on the spot after that. -/
def wakeByAddressAll (w : C) (address : Addr) :
    List C → State C → List (Pending C) → State C × List (Pending C)
  | [], s, buf => (s, buf)
  | c :: rest, s, buf =>
    if (s.entry c).address = address then
      if buf.length < eventsSize then
        wakeByAddressAll w address rest (s.dequeue w (getFutexQueue address) c)
          (buf ++ [⟨(s.entry c).event, c⟩])
      else
        wakeByAddressAll w address rest
          ((s.dequeue w (getFutexQueue address) c).signal ⟨(s.entry c).event, c⟩) buf
    else
      wakeByAddressAll w address rest s buf

/-- The spin-lock section of a wake call, with the events it leaves to be set. -/
def wakeLoop (s : State C) (w : C) (all : Bool) (address : Addr) :
    State C × List (Pending C) :=
  if all then
    wakeByAddressAll w address (s.queues (getFutexQueue address)) s []
  else
    s.wakeByAddressSingle w address

/-- A wake call goes on to its next `SetEvent`, or returns. -/
def setPending (s : State C) (w : C) (events : List (Pending C)) : State C :=
  s.setPc w (if events = [] then .wakeReturned else .signalling events)

end State

/-- One atomic step. -/
def step (s : State C) : Action C → Option (State C)
  | .callWait c address compare size ms =>
    match s.pc c with
    | .notCalled =>
      if size ≠ 1 ∧ size ≠ 2 ∧ size ≠ 4 ∧ size ≠ 8 then
        some (s.setPc c (.waitReturned false))
      else
        some (s.setPc c (.waitLock address compare size ms))
    | _ => none
  | .waitSection c created =>
    match s.pc c with
    | .waitLock address compare size ms =>
      -- `*Address` is read: there is no step from here for `NULL`
      if address = 0 then none
      else if compareAddr (s.memory address) compare size = false then
        some (s.setPc c (.waitReturned true))
      else if created = 0 then
        some (s.setPc c (.waitReturned false))
      else if s.events created ≠ none then none
      else
        some ({ s with events := s.events.create created c }.enqueue c address created
          |>.setPc c (.waiting address ms))
    | _ => none
  | .endWait c r =>
    match s.pc c with
    | .waiting address ms =>
      if r.MayEnd s.events (s.entry c).event ms then
        some ({ s with events := r.after s.events (s.entry c).event }.setPc c
          (.ended address r))
      else none
    | _ => none
  | .closeHandle c =>
    match s.pc c with
    | .ended address r =>
      some ({ s with events := s.events.close (s.entry c).event }.setPc c (.closed address r))
    | _ => none
  | .readAddress c =>
    match s.pc c with
    | .closed address r =>
      if (s.entry c).address ≠ 0 then some (s.setPc c (.relock address r))
      else some (s.setPc c (.waitReturned (r ≠ .timeout)))
    | _ => none
  | .relockSection c =>
    match s.pc c with
    | .relock address r =>
      let s' := if (s.entry c).address ≠ 0 then s.listRemove (getFutexQueue address) c else s
      some (s'.setPc c (.waitReturned (r ≠ .timeout)))
    | _ => none
  | .callWake w all address =>
    match s.pc w with
    | .notCalled =>
      if address = 0 then some (s.setPc w .wakeReturned)
      else some (s.setPc w (.wakeLock all address))
    | _ => none
  | .wakeSection w =>
    match s.pc w with
    | .wakeLock all address =>
      let r := s.wakeLoop w all address
      some (r.1.setPending w r.2)
    | _ => none
  | .setEvent w =>
    match s.pc w with
    | .signalling (p :: rest) => some ((s.signal p).setPending w rest)
    | _ => none
  | .store address value => some { s with memory := Function.update s.memory address value }

end Futex
end ClamavWin32
