import ClamavWin32.Fls.Registry
import ClamavWin32.Semantics.TransitionSystem

/-!
# `FlsFree` while threads exit

The thread library hands a record to `fls_destroy_value` before the destructor takes the lock,
and `FlsFree` walks the list of records without it. Any number of threads exit, each running
its destructors one after the other, while one call of `FlsFree` is under way.

* A step is the entry of a destructor, a section under the lock, the deletion of the key, a
  callback or a `HeapFree`; what `FlsFree` reads of its list is a step of its own, so that it
  may come right after the step before it or right before the next one;
* a step that touches a freed block is a fault (`Race.fault`), and nothing follows it;
* `Safe` is the property, and `Timely` the condition on the destructors under which it holds.
-/

namespace ClamavWin32
namespace Fls

/-! ## The parties -/

/-- How far a thread is with a destructor: it runs none, it was handed a record for a key, it
has unlinked the record, or it has freed it and the callback is still to be called. -/
inductive ExitPc where
  | running
  | entered (key : PthreadKey) (value : Addr)
  | unlinked (value callback data : Addr)
  | freed (value callback data : Addr)
  deriving DecidableEq

/-- How far the call of `FlsFree` is. In the loop, `values` is the variable of that name, and
`value` the record that the loop is at. -/
inductive FreePc where
  | called
  | found (key : Addr)
  | kept (key : Addr)
  | deleted (key : Addr)
  | walking (key values : Addr)
  | calling (key value values : Addr)
  | freeing (key value values : Addr)
  | returned (result : Bool)
  deriving DecidableEq

/-- The memory and the thread library, where each thread and the call are, the records whose
pointers were passed to a callback, and whether a freed block was touched. -/
structure Race (T : Type*) where
  mem : Memory
  pthread : Pthread T
  index : PthreadKey
  pc : T → ExitPc
  free : FreePc
  passed : List Addr
  fault : Bool

/-- `FlsFree` is called with the index, and no thread is in a destructor. -/
def Race.start {T : Type*} (s : State T) (index : PthreadKey) : Race T where
  mem := s.mem
  pthread := s.pthread
  index := index
  pc _ := .running
  free := .called
  passed := []
  fault := false

/-- Who moves: the thread library hands a thread its value for a key, a thread goes on with its
destructor, or the call of `FlsFree` goes on; `result` is what `pthread_key_delete` returns. -/
inductive Move (T : Type*) where
  | enter (thread : T) (key : PthreadKey)
  | destroy (thread : T)
  | free (result : ℕ)

variable {T : Type*}

/-- A freed block is touched. -/
def Race.faults (s : Race T) : Race T := { s with fault := true }

section

variable [DecidableEq T]

def Race.setPc (s : Race T) (thread : T) (pc : ExitPc) : Race T :=
  { s with pc := Function.update s.pc thread pc }

/-- The next step of `fls_destroy_value`. -/
def destroyStep (s : Race T) (thread : T) : ExitPc → Option (Race T)
  | .running => none
  | .entered _ value =>
    match destroyLocked s.mem value with
    | none => some s.faults
    | some (m, callback, data) =>
      some ({ s with mem := m }.setPc thread (.unlinked value callback data))
  | .unlinked value callback data =>
    match s.mem.heapFreeValue value with
    | none => some s.faults
    | some m =>
      some ({ s with mem := m }.setPc thread
        (if callback ≠ 0 ∧ data ≠ 0 then .freed value callback data else .running))
  | .freed value _ _ => some ({ s with passed := value :: s.passed }.setPc thread .running)

end

/-- The next step of `FlsFree`. -/
def freeStep (s : Race T) (result : ℕ) : FreePc → Option (Race T)
  | .called =>
    match freeLocked s.mem s.index with
    | none => some s.faults
    | some (m, key) =>
      some { s with mem := m, free := if key = 0 then .returned false else .found key }
  | .found key =>
    match s.mem.flsKey key with
    | none => some s.faults
    | some k =>
      if result ≠ 0 then some { s with free := .kept key }
      else some { s with pthread := s.pthread.delete k.key, free := .deleted key }
  | .kept key =>
    match freeRelink s.mem key with
    | none => some s.faults
    | some m => some { s with mem := m, free := .returned false }
  | .deleted key =>
    match s.mem.flsKey key with
    | none => some s.faults
    | some k => some { s with free := .walking key k.values }
  | .walking key values =>
    if values = 0 then
      match s.mem.heapFreeKey key with
      | none => some s.faults
      | some m => some { s with mem := m, free := .returned true }
    else
      match s.mem.flsKey key, s.mem.flsValue values with
      | some k, some v =>
        some { s with free := if k.callback ≠ 0 ∧ v.value ≠ 0 then .calling key values v.next
                              else .freeing key values v.next }
      | _, _ => some s.faults
  | .calling key value values =>
    -- the arguments of the call are read again
    match s.mem.flsKey key, s.mem.flsValue value with
    | some _, some _ =>
      some { s with passed := value :: s.passed, free := .freeing key value values }
    | _, _ => some s.faults
  | .freeing key value values =>
    match s.mem.heapFreeValue value with
    | none => some s.faults
    | some m => some { s with mem := m, free := .walking key values }
  | .returned _ => none

/-- One step, if the party can take it. -/
def raceStep [DecidableEq T] (s : Race T) (move : Move T) : Option (Race T) :=
  if s.fault then none
  else
    match move with
    | .enter thread key =>
      if s.pc thread = .running ∧ s.pthread.live key = true ∧ s.pthread.slot thread key ≠ 0 then
        some ({ s with pthread := s.pthread.setspecific thread key 0 }.setPc thread
          (.entered key (s.pthread.slot thread key)))
      else none
    | .destroy thread => destroyStep s thread (s.pc thread)
    | .free result => freeStep s result s.free

/-! ## The property and the condition -/

/-- No freed block was touched, and no stored pointer was passed to a callback twice. -/
structure Safe (s : Race T) : Prop where
  fault : s.fault = false
  passed : s.passed.Nodup

instance (s : Race T) : Decidable (Safe s) :=
  decidable_of_iff (s.fault = false ∧ s.passed.Nodup)
    ⟨fun h => ⟨h.1, h.2⟩, fun h => ⟨h.1, h.2⟩⟩

/-- A destructor that was handed `value` for the key `n` may take the lock: if it is the key
that `FlsFree` frees, `FlsFree` has not read the list of its records yet, or it is still at the
first record of the list, and neither that one nor the next one is `value`. -/
def MayUnlink (s : Race T) (n : PthreadKey) (value : Addr) : Prop :=
  match s.free with
  | .called | .found _ | .kept _ | .deleted _ | .returned false => True
  | .walking key values =>
    n = s.index → s.mem.loadValue (.values key) = some values ∧ value ≠ values
  | .calling key first values | .freeing key first values =>
    n = s.index → s.mem.loadValue (.values key) = some first ∧ value ≠ first ∧ value ≠ values
  | .returned true => n ≠ s.index

instance (s : Race T) (n : PthreadKey) (value : Addr) : Decidable (MayUnlink s n value) :=
  match hfree : s.free with
  | .called | .found _ | .kept _ | .deleted _ | .returned false =>
    .isTrue (by rw [MayUnlink, hfree]; trivial)
  | .walking key values =>
    decidable_of_iff
      (n = s.index → s.mem.loadValue (.values key) = some values ∧ value ≠ values)
      (by rw [MayUnlink, hfree])
  | .calling key first values | .freeing key first values =>
    decidable_of_iff
      (n = s.index →
        s.mem.loadValue (.values key) = some first ∧ value ≠ first ∧ value ≠ values)
      (by rw [MayUnlink, hfree])
  | .returned true => decidable_of_iff (n ≠ s.index) (by rw [MayUnlink, hfree])

/-- The condition on a step. -/
def Timely (s : Race T) (move : Move T) (_ : Race T) : Prop :=
  match move with
  | .destroy thread => ∀ n value, s.pc thread = .entered n value → MayUnlink s n value
  | .enter .. | .free _ => True

instance (s : Race T) (move : Move T) (s' : Race T) : Decidable (Timely s move s') :=
  match move with
  | .enter .. | .free _ => .isTrue trivial
  | .destroy thread =>
    match hpc : s.pc thread with
    | .entered n value =>
      decidable_of_iff (MayUnlink s n value) (by simp [Timely, hpc])
    | .running | .unlinked .. | .freed .. => .isTrue (by simp [Timely, hpc])

end Fls
end ClamavWin32
