import ClamavWin32.Semantics.LinkList
import ClamavWin32.Semantics.TransitionSystem
import ClamavWin32.Win32

/-!
# Fiber local storage over `pthread` keys

`fibersapi.c` keeps a list of the keys that `FlsAlloc` made, and for each of them the list of
its records, one for each thread that has a value. A record is the value that the thread has
for the key in the thread library, which hands it to `fls_destroy_value` when the thread exits.

* A function has no value where it reads, writes or frees a block that is not allocated;
* what the heap and the thread library answer is in the operations (`Op`), and what they
  promise is `Op.Documented`;
* each operation runs to completion: `step` takes the state before it to the state after it.
-/

namespace ClamavWin32
namespace Fls

/-- The type `pthread_key_t`, a number of 32 bits as an index is. -/
abbrev PthreadKey := UInt32

def ENOMEM : ℕ := 12

def TRUE : UInt32 := 1

/-! ## The records in memory -/

/-- The type `struct fls_value`. -/
structure FlsValue where
  owner : Addr
  next : Addr
  value : Addr
  deriving DecidableEq

/-- The type `struct fls_key`. -/
structure FlsKey where
  next : Addr
  values : Addr
  key : PthreadKey
  callback : Addr
  deriving DecidableEq

/-- The blocks that are allocated, the global `fls_keys`, and the number of blocks there have
been, which bounds how far a loop over a list goes. -/
structure Memory where
  fls_keys : Addr
  flsKey : Addr → Option FlsKey
  flsValue : Addr → Option FlsValue
  blocks : ℕ

/-- Where the address of a key is stored. -/
inductive KeyLink where
  | fls_keys
  | next (key : Addr)
  deriving DecidableEq

/-- Where the address of a record is stored. -/
inductive ValueLink where
  | values (key : Addr)
  | next (value : Addr)
  deriving DecidableEq

namespace Memory

/-- The memory with another block, or none, for a key. -/
def putKey (m : Memory) (key : Addr) (block : Option FlsKey) : Memory :=
  { m with flsKey := Function.update m.flsKey key block }

/-- The memory with another block, or none, for a record. -/
def putValue (m : Memory) (value : Addr) (block : Option FlsValue) : Memory :=
  { m with flsValue := Function.update m.flsValue value block }

/-- A change of a key. -/
def setKey (m : Memory) (key : Addr) (f : FlsKey → FlsKey) : Option Memory :=
  (m.flsKey key).map fun k => m.putKey key (some (f k))

/-- A change of a record. -/
def setValue (m : Memory) (value : Addr) (f : FlsValue → FlsValue) : Option Memory :=
  (m.flsValue value).map fun v => m.putValue value (some (f v))

def loadKey (m : Memory) : KeyLink → Option Addr
  | .fls_keys => some m.fls_keys
  | .next key => (m.flsKey key).map FlsKey.next

def storeKey (m : Memory) : KeyLink → Addr → Option Memory
  | .fls_keys, a => some { m with fls_keys := a }
  | .next key, a => m.setKey key fun k => { k with next := a }

def loadValue (m : Memory) : ValueLink → Option Addr
  | .values key => (m.flsKey key).map FlsKey.values
  | .next value => (m.flsValue value).map FlsValue.next

def storeValue (m : Memory) : ValueLink → Addr → Option Memory
  | .values key, a => m.setKey key fun k => { k with values := a }
  | .next value, a => m.setValue value fun v => { v with next := a }

/-- A block that `HeapAlloc` may return. -/
def Fresh (m : Memory) (a : Addr) : Prop :=
  a ≠ 0 ∧ m.flsKey a = none ∧ m.flsValue a = none

instance (m : Memory) (a : Addr) : Decidable (m.Fresh a) :=
  inferInstanceAs (Decidable (_ ∧ _))

/-- The block is allocated as a key, cleared. -/
def heapAllocKey (m : Memory) (a : Addr) : Memory :=
  { m.putKey a (some ⟨0, 0, 0, 0⟩) with blocks := m.blocks + 1 }

/-- The block is allocated as a record, cleared. -/
def heapAllocValue (m : Memory) (a : Addr) : Memory :=
  { m.putValue a (some ⟨0, 0, 0⟩) with blocks := m.blocks + 1 }

def heapFreeKey (m : Memory) (a : Addr) : Option Memory :=
  (m.flsKey a).map fun _ => m.putKey a none

def heapFreeValue (m : Memory) (a : Addr) : Option Memory :=
  (m.flsValue a).map fun _ => m.putValue a none

end Memory

/-! ## The lists -/

/-- The loop over `fls_keys` up to the key with the number, with the link it was read from. -/
def seekKey (m : Memory) (index : PthreadKey) : Option (KeyLink × Addr) :=
  seek m.loadKey .next (fun key => (m.flsKey key).map fun k => k.key == index) (m.blocks + 1)
    .fls_keys

def fls_find_key (m : Memory) (index : PthreadKey) : Option Addr :=
  (seekKey m index).map Prod.snd

def fls_unlink_value (m : Memory) (value : Addr) : Option Memory :=
  (m.flsValue value).bind fun v =>
    match seek m.loadValue .next (fun a => some (a == value)) (m.blocks + 1)
      (.values v.owner) with
    | none => none
    | some (cursor, found) =>
      -- a record that is not on the list of its owner stays as it is
      if found = 0 then some m else m.storeValue cursor v.next

/-- A call of a callback. -/
structure Call where
  callback : Addr
  data : Addr
  deriving DecidableEq, Repr

/-- The call that is made if there is a callback and the pointer is not `NULL`. -/
def callsOf (callback data : Addr) : List Call :=
  if callback ≠ 0 ∧ data ≠ 0 then [⟨callback, data⟩] else []

/-- What `fls_destroy_value` does under the lock: the record is unlinked, the callback and the
pointer are read. -/
def destroyLocked (m : Memory) (value : Addr) : Option (Memory × Addr × Addr) :=
  (fls_unlink_value m value).bind fun m' =>
    (m'.flsValue value).bind fun v =>
      (m'.flsKey v.owner).map fun key => (m', key.callback, v.value)

def fls_destroy_value (m : Memory) (value : Addr) : Option (Memory × List Call) :=
  if value = 0 then some (m, [])
  else
    match destroyLocked m value with
    | none => none
    | some (m', callback, data) =>
      (m'.heapFreeValue value).map fun m'' => (m'', callsOf callback data)

/-! ## The state -/

/-- The keys of the thread library and the values that the threads have for them. -/
structure Pthread (T : Type*) where
  live : PthreadKey → Bool
  slot : T → PthreadKey → Addr

namespace Pthread

variable {T : Type*}

/-- A fresh key reads `NULL` in every thread. -/
def create (p : Pthread T) (key : PthreadKey) : Pthread T where
  live := Function.update p.live key true
  slot t n := if n = key then 0 else p.slot t n

def delete (p : Pthread T) (key : PthreadKey) : Pthread T :=
  { p with live := Function.update p.live key false }

def setspecific [DecidableEq T] (p : Pthread T) (thread : T) (key : PthreadKey) (a : Addr) :
    Pthread T :=
  { p with slot := fun t n => if t = thread ∧ n = key then a else p.slot t n }

lemma slot_create_of_ne (p : Pthread T) (t : T) {n n' : PthreadKey} (h : n' ≠ n) :
    (p.create n).slot t n' = p.slot t n' :=
  if_neg h

section

variable [DecidableEq T] (p : Pthread T) {t t' : T} {n n' : PthreadKey}

@[simp] lemma slot_setspecific_self (a : Addr) : (p.setspecific t n a).slot t n = a :=
  if_pos ⟨rfl, rfl⟩

lemma slot_setspecific_of_ne (a : Addr) (h : ¬(t' = t ∧ n' = n)) :
    (p.setspecific t n a).slot t' n' = p.slot t' n' :=
  if_neg h

variable {p}

/-- A slot that is not empty once another was cleared holds what it held. -/
lemma slot_of_cleared (h : (p.setspecific t n 0).slot t' n' ≠ 0) :
    ¬(t' = t ∧ n' = n) ∧ (p.setspecific t n 0).slot t' n' = p.slot t' n' := by
  have hne : ¬(t' = t ∧ n' = n) := by
    rintro ⟨rfl, rfl⟩
    exact h (slot_setspecific_self p 0)
  exact ⟨hne, slot_setspecific_of_ne p 0 hne⟩

/-- Slots with one value had one value before another was cleared. -/
lemma slot_eq_of_cleared {t₁ t₂ : T} (h₁ : (p.setspecific t n 0).slot t₁ n' ≠ 0)
    (heq : (p.setspecific t n 0).slot t₁ n' = (p.setspecific t n 0).slot t₂ n') :
    p.slot t₁ n' ≠ 0 ∧ p.slot t₁ n' = p.slot t₂ n' := by
  have h₂ : (p.setspecific t n 0).slot t₂ n' ≠ 0 := heq ▸ h₁
  have heq₁ := (slot_of_cleared h₁).2
  have heq₂ := (slot_of_cleared h₂).2
  rw [heq₁] at h₁ heq
  rw [heq₂] at heq
  exact ⟨h₁, heq⟩

end

end Pthread

/-- The memory, the thread library, and the calls of callbacks so far. -/
structure State (T : Type*) where
  mem : Memory
  pthread : Pthread T
  calls : List Call

/-- There are no keys yet. -/
def State.initial {T : Type*} : State T where
  mem := ⟨0, fun _ => none, fun _ => none, 0⟩
  pthread := ⟨fun _ => false, fun _ _ => 0⟩
  calls := []

/-- What a call returns: the index or `TRUE`, or the last error that it sets. -/
abbrev Outcome := Except ErrorCode UInt32

/-- The last error for what a function of the thread library returns. -/
def lastError (result : ℕ) : ErrorCode :=
  if result = ENOMEM then ERROR_NOT_ENOUGH_MEMORY else ERROR_INVALID_PARAMETER

/-! ## The functions -/

variable {T : Type*}

/-- Takes the block that `HeapAlloc` returns and what `pthread_key_create` returns. -/
def flsAlloc (s : State T) (lpCallback : Addr) (block : Option Addr)
    (created : Except ℕ PthreadKey) : Option (State T × Outcome) :=
  match block with
  | none => some (s, .error ERROR_NOT_ENOUGH_MEMORY)
  | some key =>
    let m := s.mem.heapAllocKey key
    match created with
    | .error result =>
      -- nothing links to the block yet
      (m.heapFreeKey key).map fun m' => ({ s with mem := m' }, .error (lastError result))
    | .ok n =>
      (m.setKey key fun k =>
        { k with key := n, callback := lpCallback, next := m.fls_keys }).map fun m' =>
          ({ s with mem := { m' with fls_keys := key }, pthread := s.pthread.create n }, .ok n)

section

variable [DecidableEq T]

/-- The end of `FlsSetValue`, after the record has its value in `m`. -/
def storeSlot (s : State T) (m : Memory) (thread : T) (key : PthreadKey) (value : Addr)
    (allocated : Bool) (result : ℕ) : Option (State T × Outcome) :=
  if result = 0 then
    some ({ s with mem := m, pthread := s.pthread.setspecific thread key value }, .ok TRUE)
  else if allocated then
    -- the new record is taken back
    (fls_unlink_value m value).bind fun m' =>
      (m'.heapFreeValue value).map fun m'' =>
        ({ s with mem := m'' }, .error (lastError result))
  else some ({ s with mem := m }, .error (lastError result))

/-- The part of `FlsSetValue` for a thread that has no record for the key `k` at `key`. -/
def storeNew (s : State T) (thread : T) (key : Addr) (k : FlsKey) (lpFlsData : Addr)
    (block : Option Addr) (result : ℕ) : Option (State T × Outcome) :=
  match block with
  | none => some (s, .error ERROR_NOT_ENOUGH_MEMORY)
  | some value =>
    ((s.mem.heapAllocValue value).setValue value fun _ =>
      ⟨key, k.values, lpFlsData⟩).bind fun m =>
        (m.storeValue (.values key) value).bind fun m' =>
          storeSlot s m' thread k.key value true result

/-- Takes the thread that calls it, the block that `HeapAlloc` returns and what
`pthread_setspecific` returns. -/
def flsSetValue (s : State T) (thread : T) (dwFlsIndex : PthreadKey) (lpFlsData : Addr)
    (block : Option Addr) (result : ℕ) : Option (State T × Outcome) :=
  (fls_find_key s.mem dwFlsIndex).bind fun key =>
    if key = 0 then some (s, .error ERROR_INVALID_PARAMETER)
    else
      (s.mem.flsKey key).bind fun k =>
        let value := s.pthread.slot thread k.key
        if lpFlsData = 0 then
          if value = 0 then some (s, .ok TRUE)
          else if result ≠ 0 then some (s, .error (lastError result))
          else
            -- the slot is cleared first, so the record is in nobody's hands
            (fls_unlink_value s.mem value).bind fun m =>
              (m.heapFreeValue value).map fun m' =>
                ({ s with mem := m', pthread := s.pthread.setspecific thread k.key 0 },
                  .ok TRUE)
        else if value = 0 then storeNew s thread key k lpFlsData block result
        else
          (s.mem.setValue value fun v => { v with value := lpFlsData }).bind fun m =>
            storeSlot s m thread k.key value false result

end

/-- What `FlsFree` does under the lock first: the key is unlinked, if there is one. -/
def freeLocked (m : Memory) (dwFlsIndex : PthreadKey) : Option (Memory × Addr) :=
  match seekKey m dwFlsIndex with
  | none => none
  | some (cursor, key) =>
    if key = 0 then some (m, 0)
    else
      (m.flsKey key).bind fun k => (m.storeKey cursor k.next).map fun m' => (m', key)

/-- What `FlsFree` does under the lock when the key could not be deleted. -/
def freeRelink (m : Memory) (key : Addr) : Option Memory :=
  (m.storeKey (.next key) m.fls_keys).map fun m' => { m' with fls_keys := key }

/-- The loop of `FlsFree` over the records, from `values` on. -/
def freeValues (key : Addr) : ℕ → Memory → Addr → Option (Memory × List Call)
  | 0, _, _ => none
  | fuel + 1, m, values =>
    if values = 0 then some (m, [])
    else
      -- the next record is read before this one is freed
      (m.flsValue values).bind fun v =>
        (m.flsKey key).bind fun k =>
          (m.heapFreeValue values).bind fun m' =>
            (freeValues key fuel m' v.next).map fun rest =>
              (rest.1, callsOf k.callback v.value ++ rest.2)

/-- Takes what `pthread_key_delete` returns. -/
def flsFree (s : State T) (dwFlsIndex : PthreadKey) (result : ℕ) :
    Option (State T × Outcome) :=
  match freeLocked s.mem dwFlsIndex with
  | none => none
  | some (m, key) =>
    if key = 0 then some (s, .error ERROR_INVALID_PARAMETER)
    else
      (m.flsKey key).bind fun k =>
        if result ≠ 0 then
          -- the key goes back on the list, at its front
          (freeRelink m key).map fun m' =>
            ({ s with mem := m' }, .error ERROR_INVALID_PARAMETER)
        else
          (freeValues key (m.blocks + 1) m k.values).bind fun freed =>
            (freed.1.heapFreeKey key).map fun m' =>
              ({ mem := m', pthread := s.pthread.delete k.key, calls := s.calls ++ freed.2 },
                .ok TRUE)

/-- The thread library hands the values of a thread to the destructor, key by key. -/
def threadExit [DecidableEq T] (thread : T) : State T → List PthreadKey → Option (State T)
  | s, [] => some s
  | s, key :: order =>
    (fls_destroy_value s.mem (s.pthread.slot thread key)).bind fun destroyed =>
      threadExit thread
        { mem := destroyed.1
          pthread := s.pthread.setspecific thread key 0
          calls := s.calls ++ destroyed.2 } order

/-! ## The operations -/

/-- An operation, with what the heap and the thread library answer. -/
inductive Op (T : Type*) where
  | flsAlloc (lpCallback : Addr) (block : Option Addr) (created : Except ℕ PthreadKey)
  | flsSetValue (thread : T) (dwFlsIndex : PthreadKey) (lpFlsData : Addr)
      (block : Option Addr) (result : ℕ)
  | flsFree (dwFlsIndex : PthreadKey) (result : ℕ)
  | threadExit (thread : T) (order : List PthreadKey)

/-- What the heap and the thread library promise: a block that is allocated was free, a key
that is created is none of the live ones, and the destructor is called once for each live key
for which the thread that exits has a value. -/
def Op.Documented (s : State T) : Op T → Prop
  | .flsAlloc _ block created =>
    (∀ a ∈ block, s.mem.Fresh a) ∧ ∀ n, created = .ok n → s.pthread.live n = false
  | .flsSetValue _ _ _ block _ => ∀ a ∈ block, s.mem.Fresh a
  | .flsFree .. => True
  | .threadExit thread order =>
    order.Nodup ∧
      ∀ n, n ∈ order ↔ s.pthread.live n = true ∧ s.pthread.slot thread n ≠ 0

/-- An operation and what it returns; the exit of a thread returns nothing. -/
def exec [DecidableEq T] (s : State T) : Op T → Option (State T × Outcome)
  | .flsAlloc lpCallback block created => flsAlloc s lpCallback block created
  | .flsSetValue thread dwFlsIndex lpFlsData block result =>
    flsSetValue s thread dwFlsIndex lpFlsData block result
  | .flsFree dwFlsIndex result => flsFree s dwFlsIndex result
  | .threadExit thread order => (threadExit thread s order).map fun s' => (s', .ok TRUE)

/-- The state after an operation. -/
def step [DecidableEq T] (s : State T) (op : Op T) : Option (State T) :=
  (exec s op).map Prod.fst

end Fls
end ClamavWin32
