import ClamavWin32.Semantics.TransitionSystem
import ClamavWin32.Win32

/-!
# One-time initialisation

`InitOnceBeginInitialize`, `InitOnceComplete` and `InitOnceExecuteOnce` of
`src/legacy/shared/runonce.c` on one `INIT_ONCE`, for any number of calls. The word
`pInitOnce->Ptr` holds a state in its two low bits and above them the address of the last
waiter's cell, or the context.

A process is one call of one of the three functions. A call inside
`InitOnceBeginInitialize` has the variable `next` on its stack, at a non-zero aligned
address that no other such call has; `owner` says which call that is, until the function
returns. What a cell holds outlives its owner, as on a real stack.

A step is one read of `Ptr`, one compare-and-swap of it, one write or read of a cell, or
the return of the callback with what it leaves in `*lpContext`. The loop of
`InitOnceComplete` over the cells makes one step a cell.

`succeeded` is history that no step reads: the contexts of the callbacks that returned
success, in order.
-/

namespace ClamavWin32
namespace InitOnce

variable {C : Type*} [DecidableEq C]

/-! ## The word -/

/-- `RTLP_RUN_ONCE_STATE` -/
inductive RunOnceState where
  | initializing
  | progress
  | complete
  | async
  deriving DecidableEq

/-- `val & INIT_ONCE_MASK` -/
def runOnceState (val : Word) : RunOnceState :=
  match val % 4 with
  | 0 => .initializing
  | 1 => .progress
  | 2 => .complete
  | _ => .async

/-- `val & ~INIT_ONCE_MASK` -/
def addressBits (val : Word) : Word := val / 4 * 4

def RTLP_RUN_ONCE_PROGRESS : Word := 1

def RTLP_RUN_ONCE_COMPLETE : Word := 2

def RTLP_RUN_ONCE_ASYNC : Word := 3

/-! ## The flags -/

def RTL_RUN_ONCE_CHECK_ONLY : ℕ := 1

def RTL_RUN_ONCE_ASYNC : ℕ := 2

def INIT_ONCE_INIT_FAILED : ℕ := 4

/-- `dwFlags & flag` -/
def hasFlag (dwFlags flag : ℕ) : Bool := dwFlags &&& flag != 0

/-! ## Calls -/

/-- What the loop of `InitOnceBeginInitialize` works with: whether it was called by
`InitOnceExecuteOnce`, its flag, and the address of its variable `next`. -/
structure BeginFrame where
  execute : Bool
  async : Bool
  cell : Addr
  deriving DecidableEq

/-- What the loop of `InitOnceComplete` works with: its flag, the word it is to store, and
what the call returns once that is done. -/
structure CompleteFrame where
  async : Bool
  word : Word
  result : Bool
  deriving DecidableEq

/-- Where a call stands. -/
inductive Pc where
  | notCalled
  /-- `InitOnceBeginInitialize` with the flag `RTL_RUN_ONCE_CHECK_ONLY`. -/
  | checkOnly
  /-- At the top of the loop of `InitOnceBeginInitialize`. -/
  | beginRead (f : BeginFrame)
  /-- At the compare-and-swap of the case `INITIALIZING`. -/
  | beginSwap (f : BeginFrame)
  /-- At the assignment to `next` of the case `PROGRESS`. -/
  | beginStore (f : BeginFrame) (val : Word)
  /-- At the compare-and-swap of the case `PROGRESS`. -/
  | beginEnqueue (f : BeginFrame) (val : Word)
  /-- `InitOnceExecuteOnce` runs its callback. -/
  | callback
  /-- At the top of the loop of `InitOnceComplete`. -/
  | completeRead (f : CompleteFrame)
  /-- At one of its compare-and-swaps. -/
  | completeSwap (f : CompleteFrame) (val : Word)
  /-- At the read of the cell at `val`, which is not `0`. -/
  | walking (f : CompleteFrame) (val : Addr)
  /-- Returned, with the last error if the call has set it. -/
  | returned (result : Bool) (lastError : Option ErrorCode)
  deriving DecidableEq

structure State (C : Type*) where
  ptr : Word
  cells : Addr → Word
  owner : Addr → Option C
  pc : C → Pc
  /-- `*lpPending` -/
  pending : C → Bool
  /-- `*lpContext`, or `none` if `lpContext` is `NULL`. -/
  lpContext : C → Option Word
  succeeded : List Word

/-- A zeroed `INIT_ONCE` and no call yet; memory holds anything. -/
def State.init (cells : Addr → Word) : State C where
  ptr := 0
  cells := cells
  owner := fun _ => none
  pc := fun _ => .notCalled
  pending := fun _ => false
  lpContext := fun _ => none
  succeeded := []

inductive Action (C : Type*) where
  | callBegin (c : C) (dwFlags : ℕ) (cell : Addr) (lpContext : Option Word)
  | callComplete (c : C) (dwFlags : ℕ) (context : Word)
  | callExecute (c : C) (cell : Addr) (lpContext : Option Word)
  | readPtr (c : C)
  | swap (c : C)
  | storeNext (c : C)
  | callbackReturns (c : C) (result : Bool) (left : Word)
  | readCell (c : C)
  deriving DecidableEq

namespace State

def setPc (s : State C) (c : C) (p : Pc) : State C :=
  { s with pc := Function.update s.pc c p }

/-- The stack has room for a `next` of one more call at the address. -/
def FreeCell (s : State C) (cell : Addr) : Prop :=
  cell ≠ 0 ∧ cell % 4 = 0 ∧ s.owner cell = none

instance (s : State C) (cell : Addr) : Decidable (s.FreeCell cell) := by
  unfold FreeCell
  infer_instance

/-- The call enters the loop of `InitOnceBeginInitialize`. -/
def enterBegin (s : State C) (c : C) (f : BeginFrame) (lpContext : Option Word) : State C :=
  { s with
    owner := Function.update s.owner f.cell (some c)
    lpContext := Function.update s.lpContext c lpContext }.setPc c (.beginRead f)

/-- `InitOnceBeginInitialize` fails. -/
def beginFails (s : State C) (c : C) (f : BeginFrame) : State C :=
  { s with owner := Function.update s.owner f.cell none }.setPc c
    (.returned false (some ERROR_INVALID_PARAMETER))

/-- `InitOnceBeginInitialize` succeeds with `*lpPending = pending`; in
`InitOnceExecuteOnce` the callback is next if that is `TRUE`. -/
def beginReturns (s : State C) (c : C) (f : BeginFrame) (pending : Bool) : State C :=
  { s with
    owner := Function.update s.owner f.cell none
    pending := Function.update s.pending c pending }.setPc c
      (if f.execute && pending then .callback else .returned true none)

/-- `if (lpContext) *lpContext = context` -/
def setContext (s : State C) (c : C) (context : Word) : State C :=
  { s with lpContext := Function.update s.lpContext c ((s.lpContext c).map fun _ => context) }

/-- `lpContext ? *lpContext : NULL` -/
def contextArg (s : State C) (c : C) : Word := (s.lpContext c).getD 0

/-- The loop of `InitOnceComplete` over the cells, about to test `val`. -/
def walkFrom (s : State C) (c : C) (f : CompleteFrame) (val : Addr) : State C :=
  s.setPc c (if val = 0 then .returned f.result none else .walking f val)

end State

/-- The checks of `InitOnceComplete` on its arguments: the word to store, or nothing for
`ERROR_INVALID_PARAMETER`. -/
def completeArgs (initFailed async : Bool) (context : Word) : Option Word :=
  if context % 4 ≠ 0 then none
  else if initFailed then
    if context ≠ 0 ∨ async then none else some context
  else some (context ||| RTLP_RUN_ONCE_COMPLETE)

/-- `InitOnceComplete` with the given arguments, from its call to its loop; `result` is
what the call of the model returns once it is done. -/
def State.enterComplete (s : State C) (c : C) (initFailed async : Bool) (context : Word)
    (result : Bool) : State C :=
  match completeArgs initFailed async context with
  | none => s.setPc c (.returned false (some ERROR_INVALID_PARAMETER))
  | some word => s.setPc c (.completeRead ⟨async, word, result⟩)

/-- One atomic step. -/
def step (s : State C) : Action C → Option (State C)
  | .callBegin c dwFlags cell lpContext =>
    match s.pc c with
    | .notCalled =>
      let async := hasFlag dwFlags RTL_RUN_ONCE_ASYNC
      if hasFlag dwFlags RTL_RUN_ONCE_CHECK_ONLY then
        if async then some (s.setPc c (.returned false (some ERROR_INVALID_PARAMETER)))
        else
          some ({ s with lpContext := Function.update s.lpContext c lpContext }.setPc c .checkOnly)
      else if s.FreeCell cell then some (s.enterBegin c ⟨false, async, cell⟩ lpContext)
      else none
    | _ => none
  | .callComplete c dwFlags context =>
    match s.pc c with
    | .notCalled =>
      some (s.enterComplete c (hasFlag dwFlags INIT_ONCE_INIT_FAILED)
        (hasFlag dwFlags RTL_RUN_ONCE_ASYNC) context true)
    | _ => none
  | .callExecute c cell lpContext =>
    match s.pc c with
    | .notCalled =>
      if s.FreeCell cell then some (s.enterBegin c ⟨true, false, cell⟩ lpContext)
      else none
    | _ => none
  | .readPtr c =>
    match s.pc c with
    | .checkOnly =>
      if runOnceState s.ptr ≠ .complete then
        some (s.setPc c (.returned false (some ERROR_GEN_FAILURE)))
      else
        some ({ s.setContext c (addressBits s.ptr) with
          pending := Function.update s.pending c false }.setPc c (.returned true none))
    | .beginRead f =>
      match runOnceState s.ptr with
      | .initializing => some (s.setPc c (.beginSwap f))
      | .progress =>
        if f.async then some (s.beginFails c f)
        else some (s.setPc c (.beginStore f s.ptr))
      | .complete => some ((s.setContext c (addressBits s.ptr)).beginReturns c f false)
      | .async =>
        if f.async then some (s.beginReturns c f true)
        else some (s.beginFails c f)
    | .completeRead f =>
      match runOnceState s.ptr with
      | .progress => some (s.setPc c (.completeSwap f s.ptr))
      | .async =>
        if f.async then some (s.setPc c (.completeSwap f s.ptr))
        else some (s.setPc c (.returned false (some ERROR_INVALID_PARAMETER)))
      | _ => some (s.setPc c (.returned false (some ERROR_GEN_FAILURE)))
    | _ => none
  | .swap c =>
    match s.pc c with
    | .beginSwap f =>
      if s.ptr = 0 then
        some ({ s with
          ptr := if f.async then RTLP_RUN_ONCE_ASYNC else RTLP_RUN_ONCE_PROGRESS }.beginReturns
            c f true)
      else some (s.setPc c (.beginRead f))
    | .beginEnqueue f val =>
      some ({ s with
        ptr := if s.ptr = val then f.cell ||| RTLP_RUN_ONCE_PROGRESS else s.ptr }.setPc c
          (.beginRead f))
    | .completeSwap f val =>
      if s.ptr = val then
        if runOnceState val = .progress then
          some ({ s with ptr := f.word }.walkFrom c f (addressBits val))
        else some ({ s with ptr := f.word }.setPc c (.returned f.result none))
      else some (s.setPc c (.completeRead f))
    | _ => none
  | .storeNext c =>
    match s.pc c with
    | .beginStore f val =>
      some ({ s with cells := Function.update s.cells f.cell (addressBits val) }.setPc c
        (.beginEnqueue f val))
    | _ => none
  | .callbackReturns c result left =>
    match s.pc c with
    | .callback =>
      let s' := s.setContext c left
      let context := s'.contextArg c
      some ({ s' with
        succeeded := if result then s.succeeded ++ [context] else s.succeeded }.enterComplete c
          (!result) false context result)
    | _ => none
  | .readCell c =>
    match s.pc c with
    | .walking f val => some (s.walkFrom c f (s.cells val))
    | _ => none

end InitOnce
end ClamavWin32
