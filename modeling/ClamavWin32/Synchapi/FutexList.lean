import ClamavWin32.Synchapi.Futex
import ClamavWin32.Synchapi.IntrusiveList

/-!
# The futex queue as it is in memory

`WaitOnAddress`, `WakeByAddressSingle` and `WakeByAddressAll` once more, over the intrusive lists
of `src/legacy/shared/list.h`: a queue is the `struct list` in a static variable and the ones in
the `struct futex_entry` of the calls that wait, each on the stack of its thread. A function that
dereferences a null pointer, or the frame of a call that has returned, has no result here.

* `LinkedState`: what `State` is over queues that are lists;
* `wakeByAddressSingle`, `wakeByAddressAll`: the two loops, by the links; `fuel` bounds their
  rounds;
* `linkedStep`: the steps, one for each step of `step`.
-/

namespace ClamavWin32
namespace Futex

open CircularList IntrusiveList

variable {C : Type*}

/-! ## The state -/

/-- Where there is a `struct list`. -/
inductive Node (C : Type*) where
  | queue (q : Fin 256)
  /-- In the entry of a call. -/
  | entry (c : C)
  deriving DecidableEq

/-- `LIST_ENTRY`: the entry around its links; there is none around a queue. -/
def Node.entry? : Node C → Option C
  | .queue _ => none
  | .entry c => some c

/-- The state of `State`, with the links in place of the queues. The frame of a call exists
while its links do. -/
structure LinkedState (C : Type*) where
  memory : Addr → Word
  links : CircularList.Memory (Node C)
  entry : C → FutexEntry
  events : EventTable C
  pc : C → Pc C
  removedBy : C → Option C
  signals : List (Signal C)

namespace LinkedState

/-- The static variables are zero, and no call has a frame. -/
def init (memory : Addr → Word) : LinkedState C where
  memory := memory
  links
    | .queue _ => some ⟨none, none⟩
    | .entry _ => none
  entry := fun _ => ⟨0, 0⟩
  events := fun _ => none
  pc := fun _ => .notCalled
  removedBy := fun _ => none
  signals := []

variable [DecidableEq C] (t : LinkedState C)

def setPc (c : C) (p : Pc C) : LinkedState C := { t with pc := Function.update t.pc c p }

def setLinks (links : CircularList.Memory (Node C)) : LinkedState C := { t with links := links }

/-- `WaitOnAddress` begins: what is in its frame is what was on the stack. -/
def enterFrame (c : C) (stack : Links (Node C)) : LinkedState C :=
  t.setLinks (Function.update t.links (.entry c) (some stack))

/-- `WaitOnAddress` returns. -/
def leaveFrame (c : C) (result : Bool) : LinkedState C :=
  (t.setLinks (Function.update t.links (.entry c) none)).setPc c (.waitReturned result)

/-- The fields of an entry that are not links, while the frame exists. -/
def readEntry (c : C) : Option FutexEntry := (t.links (.entry c)).map fun _ => t.entry c

/-- `if (!queue->queue.next) list_init (&queue->queue)` -/
def initQueue (q : Fin 256) : Option (LinkedState C) :=
  match t.links (.queue q) with
  | none => none
  | some links =>
    if links.next = none then (list_init t.links (.queue q)).map t.setLinks else some t

/-- `list_add_tail (&queue->queue, &entry.entry)` after the entry was filled in. -/
def enqueue (c : C) (address : Addr) (event : Handle) : Option (LinkedState C) := do
  let t := { t with entry := Function.update t.entry c ⟨address, event⟩ }
  let t ← t.initQueue (getFutexQueue address)
  (list_add_tail t.links (.queue (getFutexQueue address)) (.entry c)).map t.setLinks

/-- `list_remove (&entry.entry)` -/
def listRemove (c : C) : Option (LinkedState C) :=
  (list_remove t.links (.entry c)).map t.setLinks

/-- `entry->address = NULL; list_remove (&entry->entry)` by the wake call `w`. -/
def dequeue (w c : C) : Option (LinkedState C) :=
  (t.readEntry c).bind fun entry =>
    let t : LinkedState C :=
      { t with
        entry := Function.update t.entry c { entry with address := 0 }
        removedBy := Function.update t.removedBy c (some w) }
    t.listRemove c

/-- `SetEvent (event)` -/
def signal (p : Pending C) : LinkedState C :=
  { t with
    events := t.events.signal p.event
    signals := t.signals ++ [⟨p.call, t.events.owner p.event⟩] }

/-! ## The loops -/

/-- The loop of `WakeByAddressSingle`, from `cursor` on. -/
def wakeByAddressSingle (w : C) (address : Addr) :
    ℕ → Node C → LinkedState C → Option (LinkedState C × List (Pending C))
  | 0, _, _ => none
  | fuel + 1, cursor, t =>
    if cursor = .queue (getFutexQueue address) then some (t, [])
    else
      cursor.entry?.bind fun c =>
      (t.readEntry c).bind fun entry =>
      if entry.address = address then
        (t.dequeue w c).map fun t => (t, [⟨entry.event, c⟩])
      else
        (t.links.next cursor).bind fun next => wakeByAddressSingle w address fuel next t

/-- The loop of `WakeByAddressAll`: `next` was read before the entry at `cursor` is removed. -/
def wakeByAddressAll (w : C) (address : Addr) :
    ℕ → Node C → Node C → LinkedState C → List (Pending C) →
      Option (LinkedState C × List (Pending C))
  | 0, _, _, _, _ => none
  | fuel + 1, cursor, next, t, buf =>
    if cursor = .queue (getFutexQueue address) then some (t, buf)
    else
      cursor.entry?.bind fun c =>
      (t.readEntry c).bind fun entry =>
      if entry.address = address then
        (t.dequeue w c).bind fun t =>
        (t.readEntry c).bind fun entry =>
        (t.links.next next).bind fun next' =>
        if buf.length < eventsSize then
          wakeByAddressAll w address fuel next next' t (buf ++ [⟨entry.event, c⟩])
        else
          wakeByAddressAll w address fuel next next' (t.signal ⟨entry.event, c⟩) buf
      else
        (t.links.next next).bind fun next' =>
        wakeByAddressAll w address fuel next next' t buf

/-- The spin-lock section of a wake call, with the events it leaves to be set. -/
def wakeLoop (fuel : ℕ) (w : C) (all : Bool) (address : Addr) :
    Option (LinkedState C × List (Pending C)) := do
  let t ← t.initQueue (getFutexQueue address)
  let first ← t.links.next (.queue (getFutexQueue address))
  if all then
    wakeByAddressAll w address fuel first (← t.links.next first) t []
  else
    wakeByAddressSingle w address fuel first t

/-- A wake call goes on to its next `SetEvent`, or returns. -/
def setPending (w : C) (events : List (Pending C)) : LinkedState C :=
  t.setPc w (if events = [] then .wakeReturned else .signalling events)

end LinkedState

variable [DecidableEq C]

/-- One atomic step; `stack` is what the frame of a call finds on the stack. -/
def linkedStep (fuel : ℕ) (stack : C → Links (Node C)) (t : LinkedState C) :
    Action C → Option (LinkedState C)
  | .callWait c address compare size ms =>
    match t.pc c with
    | .notCalled =>
      if size ≠ 1 ∧ size ≠ 2 ∧ size ≠ 4 ∧ size ≠ 8 then
        some (t.setPc c (.waitReturned false))
      else
        some ((t.enterFrame c (stack c)).setPc c (.waitLock address compare size ms))
    | _ => none
  | .waitSection c created =>
    match t.pc c with
    | .waitLock address compare size ms =>
      if address = 0 then none
      else if compareAddr (t.memory address) compare size = false then
        some (t.leaveFrame c true)
      else if created = 0 then
        some (t.leaveFrame c false)
      else if t.events created ≠ none then none
      else
        let t : LinkedState C := { t with events := t.events.create created c }
        (t.enqueue c address created).map fun t => t.setPc c (.waiting address ms)
    | _ => none
  | .endWait c r =>
    match t.pc c with
    | .waiting address ms =>
      if r.MayEnd t.events (t.entry c).event ms then
        some ({ t with events := r.after t.events (t.entry c).event }.setPc c
          (.ended address r))
      else none
    | _ => none
  | .closeHandle c =>
    match t.pc c with
    | .ended address r =>
      some ({ t with events := t.events.close (t.entry c).event }.setPc c (.closed address r))
    | _ => none
  | .readAddress c =>
    match t.pc c with
    | .closed address r =>
      if (t.entry c).address ≠ 0 then some (t.setPc c (.relock address r))
      else some (t.leaveFrame c (r ≠ .timeout))
    | _ => none
  | .relockSection c =>
    match t.pc c with
    | .relock _ r =>
      if (t.entry c).address ≠ 0 then (t.listRemove c).map fun t => t.leaveFrame c (r ≠ .timeout)
      else some (t.leaveFrame c (r ≠ .timeout))
    | _ => none
  | .callWake w all address =>
    match t.pc w with
    | .notCalled =>
      if address = 0 then some (t.setPc w .wakeReturned)
      else some (t.setPc w (.wakeLock all address))
    | _ => none
  | .wakeSection w =>
    match t.pc w with
    | .wakeLock all address =>
      (t.wakeLoop fuel w all address).map fun r => r.1.setPending w r.2
    | _ => none
  | .setEvent w =>
    match t.pc w with
    | .signalling (p :: rest) => some ((t.signal p).setPending w rest)
    | _ => none
  | .store address value => some { t with memory := Function.update t.memory address value }

end Futex
end ClamavWin32
