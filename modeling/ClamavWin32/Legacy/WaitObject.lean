import ClamavWin32.Semantics.OwnerTable
import ClamavWin32.Semantics.TransitionSystem
import ClamavWin32.Win32

/-!
# Registered waits

`RegisterWaitForSingleObject_compat`, `UnregisterWaitEx_compat` and the thread between them, from
`src/legacy/4.0/kernel32.c`. Each registration has a `WAIT_CONTEXT` on the heap, an event that
cancels its wait, and a thread that waits and then calls back. Any number of threads make calls,
and a callback may make some itself.

* A step is one call of the system, with what the code does around it: addresses and handle
  values are used again once they are free, and an access through a pointer or a handle that
  meets something else is a fault (`State.fault`), and nothing follows it;
* the label of a step has what the system answers, and which wait object a client passes;
* `Once` is what a client has to keep to, `Safe` the property.
-/

namespace ClamavWin32
namespace WaitObject

def ERROR_OUTOFMEMORY : ErrorCode := 14

def ERROR_NOT_SUPPORTED : ErrorCode := 50

def INVALID_HANDLE_VALUE : Handle := 0xFFFFFFFF

/-- `NtCurrentProcess ()` -/
def NtCurrentProcess : Handle := 0xFFFFFFFF

/-- `NtCurrentThread ()` -/
def NtCurrentThread : Handle := 0xFFFFFFFE

def WT_EXECUTEONLYONCE : UInt32 := 0x8

/-! ## Data -/

/-- `WAIT_CONTEXT` -/
structure WaitContext where
  hObject : Handle
  hCancelEvent : Handle
  Callback : Addr
  Context : Addr
  dwMilliseconds : ℕ
  hThread : Handle
  deriving DecidableEq

/-- What `HEAP_ZERO_MEMORY` leaves in it. -/
def WaitContext.zero : WaitContext := ⟨0, 0, 0, 0, 0, 0⟩

/-- The arguments of `RegisterWaitForSingleObject_compat`. -/
structure Request where
  hObject : Handle
  Callback : Addr
  Context : Addr
  dwMilliseconds : ℕ
  dwFlags : UInt32
  /-- `phNewWaitObject` is not a null pointer. -/
  phNewWaitObject : Bool
  deriving DecidableEq

/-- The context of a request, its event and its thread. -/
def Request.context (q : Request) (hCancelEvent hThread : Handle) : WaitContext where
  hObject := q.hObject
  hCancelEvent := hCancelEvent
  Callback := q.Callback
  Context := q.Context
  dwMilliseconds := q.dwMilliseconds
  hThread := hThread

/-- The two objects of a registration that have a handle. -/
inductive Kind where
  | cancelEvent
  | thread
  deriving DecidableEq

/-- What `WaitForMultipleObjects` returns for the object and the event. -/
inductive WaitAnyResult where
  /-- `WAIT_OBJECT_0` -/
  | object0
  /-- `WAIT_OBJECT_0 + 1` -/
  | object1
  /-- `WAIT_ABANDONED_0` -/
  | abandoned0
  /-- `WAIT_TIMEOUT` -/
  | timeout
  /-- `WAIT_FAILED` -/
  | failed
  deriving DecidableEq

/-- A call `Callback (Context, timedOut)`. -/
structure CallbackCall where
  callback : Addr
  context : Addr
  timedOut : Bool
  deriving DecidableEq

/-! ## The parties

The calls are the values of `C`. A registration is named by the call that makes it. -/

/-- How far `UnregisterWaitEx_compat` is: before `SetEvent (ctx->hCancelEvent)`, in
`WaitForSingleObject (ctx->hThread, INFINITE)`, before either `CloseHandle`, before
`SetEvent (hCompletionEvent)`, and before `HeapFree`. -/
inductive Stage where
  | setCancel
  | joinThread
  | closeCancel
  | closeThread
  | complete
  | heapFree
  deriving DecidableEq

/-- How far a call is. An error is the last error that the code itself sets, if it sets one. -/
inductive Pc (C : Type*) where
  | notCalled
  /-- `HeapAlloc` has returned a block. -/
  | allocated (ctx : Addr)
  /-- The context is filled in. -/
  | created (ctx : Addr)
  /-- `_beginthreadex` has returned a handle. -/
  | started (ctx : Addr) (thread : Handle)
  /-- With the wait object, if the client has asked for it. -/
  | registered (result : Except (Option ErrorCode) (Option Addr))
  | unregistering (stage : Stage) (c : C) (ctx : Addr) (hCompletionEvent : Handle)
  | unregistered (result : Except (Option ErrorCode) Unit)
  deriving DecidableEq

/-- How far `WaitThreadProc` is. -/
inductive ThreadPc (C : Type*) where
  | notCreated
  | starting (ctx : Addr)
  | waiting (ctx : Addr) (hObject hCancelEvent : Handle) (dwMilliseconds : ℕ)
  /-- The wait is over, and the callback is to be called. -/
  | woken (ctx : Addr) (timedOut : Bool)
  /-- In the callback, which may be in a call of `UnregisterWaitEx_compat`. -/
  | callback (busy : Option C)
  | ended
  deriving DecidableEq

/-- The memory and the handles, where the calls and the threads are, and what has happened:
which call was given the wait object of a registration, in whose callback a call was made, and
what was called back. -/
structure State (C : Type*) where
  heap : OwnerTable Addr C WaitContext
  /-- The handles of the registrations; an event has its signal. -/
  handles : OwnerTable Handle (C × Kind) Bool
  pc : C → Pc C
  thread : C → ThreadPc C
  request : C → Option Request
  takenBy : C → Option C
  caller : C → Option C
  calls : C → List CallbackCall
  completed : List C
  fault : Bool

variable {C : Type*}

namespace State

/-- No call was made. -/
def init : State C where
  heap := fun _ => none
  handles := fun _ => none
  pc := fun _ => .notCalled
  thread := fun _ => .notCreated
  request := fun _ => none
  takenBy := fun _ => none
  caller := fun _ => none
  calls := fun _ => []
  completed := []
  fault := false

variable [DecidableEq C] (s : State C)

def setPc (c : C) (p : Pc C) : State C := { s with pc := Function.update s.pc c p }

def setThread (c : C) (p : ThreadPc C) : State C :=
  { s with thread := Function.update s.thread c p }

def setBlock (ctx : Addr) (entry : Option (C × WaitContext)) : State C :=
  { s with heap := Function.update s.heap ctx entry }

def setHandle (h : Handle) (entry : Option ((C × Kind) × Bool)) : State C :=
  { s with handles := Function.update s.handles h entry }

/-- Something is accessed that is no longer there. -/
def faults : State C := { s with fault := true }

/-- `*ctx` -/
def withContext (c : C) (ctx : Addr) (k : WaitContext → Option (State C)) : Option (State C) :=
  match s.heap.read ctx c with
  | none => some s.faults
  | some x => k x

/-- An access to an object by its handle. -/
def withHandle (c : C) (kind : Kind) (h : Handle) (k : Option (State C)) : Option (State C) :=
  match s.handles.read h (c, kind) with
  | none => some s.faults
  | some _ => k

/-! ## `RegisterWaitForSingleObject_compat` -/

/-- The checks of the arguments. -/
def checkRequest (q : Request) : Option ErrorCode :=
  if q.hObject = 0 ∨ q.hObject = NtCurrentProcess ∨ q.hObject = NtCurrentThread ∨
      q.Callback = 0 then some ERROR_INVALID_PARAMETER
  else if q.dwFlags &&& WT_EXECUTEONLYONCE = 0 then some ERROR_NOT_SUPPORTED
  else none

/-- The call begins; `ctx` is what `HeapAlloc` returns. -/
def register (c : C) (q : Request) (ctx : Addr) : Option (State C) :=
  match checkRequest q with
  | some e => some (s.setPc c (.registered (.error (some e))))
  | none =>
    if ctx = 0 then some (s.setPc c (.registered (.error (some ERROR_OUTOFMEMORY))))
    else if s.heap ctx ≠ none then none
    else
      let s : State C := { s with request := Function.update s.request c (some q) }
      some ((s.setBlock ctx (some (c, .zero))).setPc c (.allocated ctx))

/-- `CreateEvent`, and the context is filled in. -/
def createEvent (c : C) (q : Request) (ctx : Addr) (event : Handle) : Option (State C) :=
  s.withContext c ctx fun _ =>
    if event = 0 then some ((s.setBlock ctx none).setPc c (.registered (.error none)))
    else if s.handles event ≠ none then none
    else
      some (((s.setHandle event (some ((c, .cancelEvent), false))).setBlock ctx
        (some (c, q.context event 0))).setPc c (.created ctx))

/-- `_beginthreadex` -/
def beginThread (c : C) (ctx : Addr) (thread : Handle) : Option (State C) :=
  s.withContext c ctx fun x =>
    if thread = 0 then
      s.withHandle c .cancelEvent x.hCancelEvent
        (some (((s.setHandle x.hCancelEvent none).setBlock ctx none).setPc c
          (.registered (.error none))))
    else if s.handles thread ≠ none then none
    else
      some (((s.setHandle thread (some ((c, .thread), false))).setThread c (.starting ctx)).setPc c
        (.started ctx thread))

/-- `ctx->hThread` is set, and the wait object is given to the client. -/
def publish (c : C) (q : Request) (ctx : Addr) (thread : Handle) : Option (State C) :=
  s.withContext c ctx fun x =>
    some ((s.setBlock ctx (some (c, { x with hThread := thread }))).setPc c
      (.registered (.ok (if q.phNewWaitObject then some ctx else none))))

/-! ## `WaitThreadProc` -/

/-- `handles` is filled in, and `WaitForMultipleObjects` is called. -/
def startWait (c : C) (ctx : Addr) : Option (State C) :=
  s.withContext c ctx fun x =>
    some (s.setThread c (.waiting ctx x.hObject x.hCancelEvent x.dwMilliseconds))

/-- The wait ends: `object1` needs the signal of the event, `timeout` a timeout. -/
def endWait (c : C) (ctx : Addr) (hCancelEvent : Handle) (dwMilliseconds : ℕ) :
    WaitAnyResult → Option (State C)
  | .object0 => s.withHandle c .cancelEvent hCancelEvent (some (s.setThread c (.woken ctx false)))
  | .object1 =>
    s.withHandle c .cancelEvent hCancelEvent
      (if s.handles.read hCancelEvent (c, .cancelEvent) = some true then
        some (s.setThread c .ended)
      else none)
  | .timeout =>
    s.withHandle c .cancelEvent hCancelEvent
      (if dwMilliseconds ≠ INFINITE then some (s.setThread c (.woken ctx true)) else none)
  | .abandoned0 | .failed =>
    s.withHandle c .cancelEvent hCancelEvent (some (s.setThread c .ended))

/-- `ctx->Callback (ctx->Context, timedOut)` -/
def callCallback (c : C) (ctx : Addr) (timedOut : Bool) : Option (State C) :=
  s.withContext c ctx fun x =>
    some ({ s with
        calls := Function.update s.calls c (⟨x.Callback, x.Context, timedOut⟩ :: s.calls c)
      }.setThread c (.callback none))

/-! ## `UnregisterWaitEx_compat` -/

/-- The call returns, and the callback it was made in goes on. -/
def returnTo (u : C) : State C :=
  match s.caller u with
  | none => s
  | some d => s.setThread d (.callback none)

/-- The call begins, in the callback of `caller` if there is one: the wait object is a null
pointer, or that of the registration `wait`. -/
def callUnregister (u : C) (wait : Option (C × Addr)) (hCompletionEvent : Handle)
    (caller : Option C) : State C :=
  match wait with
  | none => s.setPc u (.unregistered (.error (some ERROR_INVALID_PARAMETER)))
  | some (c, ctx) =>
    if hCompletionEvent = INVALID_HANDLE_VALUE then s.setPc u (.unregistered (.error none))
    else
      let s : State C :=
        { s with
          takenBy := Function.update s.takenBy c (some u)
          caller := Function.update s.caller u caller }
      let s := s.setPc u (.unregistering .setCancel c ctx hCompletionEvent)
      match caller with
      | none => s
      | some d => s.setThread d (.callback (some u))

/-- The next step of the call. -/
def unregisterStep (u c : C) (ctx : Addr) (hCompletionEvent : Handle) :
    Stage → Option (State C)
  | .setCancel =>
    s.withContext c ctx fun x =>
      -- `assert (ctx->hCancelEvent)`
      if x.hCancelEvent = 0 then some s.faults
      else
        s.withHandle c .cancelEvent x.hCancelEvent
          (some ((s.setHandle x.hCancelEvent (some ((c, .cancelEvent), true))).setPc u
            (.unregistering .joinThread c ctx hCompletionEvent)))
  | .joinThread =>
    s.withContext c ctx fun x =>
      s.withHandle c .thread x.hThread
        (if s.thread c = .ended then
          some (s.setPc u (.unregistering .closeCancel c ctx hCompletionEvent))
        else none)
  | .closeCancel =>
    s.withContext c ctx fun x =>
      s.withHandle c .cancelEvent x.hCancelEvent
        (some ((s.setHandle x.hCancelEvent none).setPc u
          (.unregistering .closeThread c ctx hCompletionEvent)))
  | .closeThread =>
    s.withContext c ctx fun x =>
      s.withHandle c .thread x.hThread
        (some ((s.setHandle x.hThread none).setPc u
          (.unregistering .complete c ctx hCompletionEvent)))
  | .complete =>
    let s : State C := if hCompletionEvent ≠ 0 then { s with completed := c :: s.completed } else s
    some (s.setPc u (.unregistering .heapFree c ctx hCompletionEvent))
  | .heapFree =>
    s.withContext c ctx fun _ =>
      some (((s.setBlock ctx none).setPc u (.unregistered (.ok ()))).returnTo u)

end State

/-! ## Steps -/

/-- Who moves, with what the system answers: a call of `RegisterWaitForSingleObject_compat`, the
thread of a registration, or a call of `UnregisterWaitEx_compat`. -/
inductive Label (C : Type*) where
  | register (c : C) (q : Request) (ctx : Addr)
  | createEvent (c : C) (event : Handle)
  | beginThread (c : C) (thread : Handle)
  | publish (c : C)
  | startWait (c : C)
  | endWait (c : C) (result : WaitAnyResult)
  | callCallback (c : C)
  | returnCallback (c : C)
  /-- A client passes the wait object that the call `wait` has given it, or a null pointer. -/
  | callUnregister (u : C) (wait : Option C) (hCompletionEvent : Handle) (caller : Option C)
  | unregister (u : C)
  deriving DecidableEq

/-- The wait object that a client has of a registration. -/
def Pc.waitObject : Pc C → Option Addr
  | .registered (.ok w) => w
  | _ => none

variable [DecidableEq C]

/-- One step, if the party can take it. -/
def step (s : State C) (label : Label C) : Option (State C) :=
  if s.fault then none
  else
    match label with
    | .register c q ctx =>
      match s.pc c with
      | .notCalled => s.register c q ctx
      | _ => none
    | .createEvent c event =>
      match s.pc c, s.request c with
      | .allocated ctx, some q => s.createEvent c q ctx event
      | _, _ => none
    | .beginThread c thread =>
      match s.pc c with
      | .created ctx => s.beginThread c ctx thread
      | _ => none
    | .publish c =>
      match s.pc c, s.request c with
      | .started ctx thread, some q => s.publish c q ctx thread
      | _, _ => none
    | .startWait c =>
      match s.thread c with
      | .starting ctx => s.startWait c ctx
      | _ => none
    | .endWait c result =>
      match s.thread c with
      | .waiting ctx _ hCancelEvent dwMilliseconds =>
        s.endWait c ctx hCancelEvent dwMilliseconds result
      | _ => none
    | .callCallback c =>
      match s.thread c with
      | .woken ctx timedOut => s.callCallback c ctx timedOut
      | _ => none
    | .returnCallback c =>
      if s.thread c = .callback none then some (s.setThread c .ended) else none
    | .callUnregister u wait hCompletionEvent caller =>
      if s.pc u ≠ .notCalled ∨ (∃ d ∈ caller, s.thread d ≠ .callback none) then none
      else
        match wait with
        | none => some (s.callUnregister u none hCompletionEvent caller)
        | some c =>
          match (s.pc c).waitObject with
          | none => none
          | some ctx => some (s.callUnregister u (some (c, ctx)) hCompletionEvent caller)
    | .unregister u =>
      match s.pc u with
      | .unregistering stage c ctx hCompletionEvent =>
        s.unregisterStep u c ctx hCompletionEvent stage
      | _ => none

/-! ## The contract and the property -/

/-- A client passes a wait object only as long as no call was given it. -/
def Once (s : State C) (label : Label C) (_ : State C) : Prop :=
  match label with
  | .callUnregister _ (some c) h _ => h = INVALID_HANDLE_VALUE ∨ s.takenBy c = none
  | _ => True

instance (s : State C) (label : Label C) (s' : State C) : Decidable (Once s label s') := by
  cases label with
  | callUnregister u wait h caller => cases wait <;> unfold Once <;> infer_instance
  | _ => exact .isTrue trivial

/-- The registration has failed, or the call that was given its wait object has returned. -/
def Over (s : State C) (c : C) : Prop :=
  (∃ e, s.pc c = .registered (.error e)) ∨
    ∃ u, s.takenBy c = some u ∧ s.pc u = .unregistered (.ok ())

/-- What holds whatever the threads do. -/
structure Safe (s : State C) : Prop where
  /-- Nothing was accessed that was not there, and no handle closed that was not open. -/
  fault : s.fault = false
  once : ∀ c, (s.calls c).length ≤ 1
  asked : ∀ c, ∀ call ∈ s.calls c, ∃ q, s.request c = some q ∧ call.callback = q.Callback ∧
    call.context = q.Context ∧ (call.timedOut = true → q.dwMilliseconds ≠ INFINITE)
  /-- When the wait object is gone, the callback is not running, and never will. -/
  joined : ∀ c u, s.takenBy c = some u → s.pc u = .unregistered (.ok ()) → s.thread c = .ended
  completed : ∀ c ∈ s.completed, s.thread c = .ended
  released : ∀ c, Over s c → (∀ ctx x, s.heap ctx ≠ some (c, x)) ∧
    ∀ h kind b, s.handles h ≠ some ((c, kind), b)
  /-- A wait object that a client has can be used. -/
  kept : ∀ c ctx, (s.pc c).waitObject = some ctx → s.takenBy c = none →
    ∃ x, s.heap ctx = some (c, x) ∧ s.handles x.hCancelEvent = some ((c, .cancelEvent), false) ∧
      ∃ b, s.handles x.hThread = some ((c, .thread), b)

end WaitObject
end ClamavWin32
