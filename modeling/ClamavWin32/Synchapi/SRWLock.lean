import ClamavWin32.Synchapi.FutexTheorems

/-!
# The slim reader/writer lock on top of the futex queue

`AcquireSRWLockExclusive` and `ReleaseSRWLockExclusive` of
`src/legacy/shared/synchapi.c`, for any number of threads and one lock. The lock word
`SRWLock->Ptr` lives in the memory of the futex model at the address `lock`: `0` is free,
`1` is held, `2` is held with the contended mark. A thread that waits or wakes is inside a
call of the futex model, so its steps there are steps of that model.

Each Interlocked operation is one step. A thread of the model alternates between
`AcquireSRWLockExclusive` and `ReleaseSRWLockExclusive`, and releases only what its own
acquire returned with.
-/

namespace ClamavWin32
namespace SRWLock

variable {T C : Type*} [DecidableEq T] [DecidableEq C]

/-- Where a thread stands. -/
inductive Pc (C : Type*) where
  /-- Outside both functions, without the lock. -/
  | idle
  /-- At the first compare-and-swap of `AcquireSRWLockExclusive`. -/
  | firstSwap
  /-- At the second one, with what the first one returned. -/
  | secondSwap (state : Word)
  /-- About to call `WaitOnAddress`. -/
  | callWait
  /-- Inside `WaitOnAddress`, as the call `c` of the futex model. -/
  | inWait (c : C)
  /-- Between the return of its acquire and the exchange of its release. -/
  | holding
  /-- Inside the `WakeByAddressSingle` of its release, as the call `w`. -/
  | inWake (w : C)
  deriving DecidableEq

structure State (T C : Type*) where
  futex : Futex.State C
  pc : T → Pc C

inductive Action (T C : Type*) where
  | acquire (t : T)
  | firstSwap (t : T)
  | secondSwap (t : T)
  | callWait (t : T) (c : C)
  | futex (t : T) (a : Futex.Action C)
  | waitReturned (t : T)
  | release (t : T) (w : C)
  | wakeReturned (t : T)
  deriving DecidableEq

/-- A lock that is free, with no thread near it; the rest of memory is arbitrary. -/
def State.init (lock : Addr) (memory : Addr → Word) : State T C where
  futex := .init (Function.update memory lock 0)
  pc := fun _ => .idle

namespace State

/-- `SRWLock->Ptr`. -/
def ptr (lock : Addr) (s : State T C) : Word := s.futex.memory lock

def setPtr (lock : Addr) (s : State T C) (v : Word) : State T C :=
  { s with futex := { s.futex with memory := Function.update s.futex.memory lock v } }

def setPc (s : State T C) (t : T) (p : Pc C) : State T C :=
  { s with pc := Function.update s.pc t p }

end State

/-- `InterlockedCompareExchangePointer (&SRWLock->Ptr, exchange, comperand)`. -/
def interlockedCompareExchange (lock : Addr) (s : State T C) (exchange comperand : Word) :
    Word × State T C :=
  (s.ptr lock, if s.ptr lock = comperand then s.setPtr lock exchange else s)

/-- `InterlockedExchangePointer (&SRWLock->Ptr, value)`. -/
def interlockedExchange (lock : Addr) (s : State T C) (value : Word) : Word × State T C :=
  (s.ptr lock, s.setPtr lock value)

/-- One atomic step of a thread; `ptrSize` is `sizeof (PVOID)`. -/
def step (lock : Addr) (ptrSize : ℕ) (s : State T C) : Action T C → Option (State T C)
  | .acquire t =>
    match s.pc t with
    | .idle => some (s.setPc t .firstSwap)
    | _ => none
  | .firstSwap t =>
    match s.pc t with
    | .firstSwap =>
      match interlockedCompareExchange lock s 1 0 with
      | (state, s') =>
        if state = 0 then some (s'.setPc t .holding)
        else if state ≠ 2 then some (s'.setPc t (.secondSwap state))
        else some (s'.setPc t .callWait)
    | _ => none
  | .secondSwap t =>
    match s.pc t with
    | .secondSwap state =>
      match interlockedCompareExchange lock s 2 state with
      | (state, s') =>
        if state = 0 then some (s'.setPc t .holding)
        else some (s'.setPc t .callWait)
    | _ => none
  | .callWait t c =>
    match s.pc t with
    | .callWait =>
      (Futex.step s.futex (.callWait c lock 2 ptrSize INFINITE)).map fun f =>
        { s with futex := f }.setPc t (.inWait c)
    | _ => none
  | .futex t a =>
    match s.pc t with
    | .inWait c | .inWake c =>
      if a.caller = some c then (Futex.step s.futex a).map fun f => { s with futex := f }
      else none
    | _ => none
  | .waitReturned t =>
    match s.pc t with
    | .inWait c =>
      match s.futex.pc c with
      | .waitReturned _ => some (s.setPc t .firstSwap)
      | _ => none
    | _ => none
  | .release t w =>
    match s.pc t with
    | .holding =>
      match interlockedExchange lock s 0 with
      | (old, s') =>
        if old = 2 then
          (Futex.step s'.futex (.callWake w false lock)).map fun f =>
            { s' with futex := f }.setPc t (.inWake w)
        else some (s'.setPc t .idle)
    | _ => none
  | .wakeReturned t =>
    match s.pc t with
    | .inWake w =>
      match s.futex.pc w with
      | .wakeReturned => some (s.setPc t .idle)
      | _ => none
    | _ => none

end SRWLock
end ClamavWin32
