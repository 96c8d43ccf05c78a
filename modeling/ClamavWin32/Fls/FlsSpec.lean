import ClamavWin32.Fls.Fls
import Mathlib.Data.List.Nodup

/-!
# What fiber local storage is for

A table with one row for each thread and one column for each key. A key has a callback, and an
entry is the pointer that the thread stored last. An entry leaves the table when it is
replaced, when its thread exits or when its key is freed, and in the last two cases it is
passed to the callback of the key.

* `Spec.next` and `Spec.outcome`: the table after an operation, and what the operation returns;
* `Spec.Passes`: which entries an operation passes to a callback;
* `Spec.stored_between`: between two calls for one thread and key, something is stored there.
-/

namespace ClamavWin32
namespace Fls

/-- The callbacks of the keys there are, and the entries of the table. -/
structure Spec (T : Type*) where
  callback : PthreadKey → Option Addr
  value : T → PthreadKey → Option Addr

/-- An entry that is passed to a callback. -/
structure Heard (T : Type*) where
  thread : T
  key : PthreadKey
  callback : Addr
  data : Addr
  deriving DecidableEq

/-- The call that is made for it. -/
def Heard.call {T : Type*} (h : Heard T) : Call := ⟨h.callback, h.data⟩

namespace Spec

variable {T : Type*}

def initial : Spec T := ⟨fun _ => none, fun _ _ => none⟩

/-- The call of `FlsSetValue` replaces the entry. A pointer that replaces another one is in the
table before `pthread_setspecific` can fail. -/
def Stores (a : Spec T) (thread : T) (n : PthreadKey) (lpFlsData : Addr) (block : Option Addr)
    (result : ℕ) : Prop :=
  (a.callback n).isSome ∧
    if lpFlsData = 0 then result = 0
    else (a.value thread n).isSome ∨ block.isSome ∧ result = 0

instance (a : Spec T) (thread : T) (n : PthreadKey) (lpFlsData : Addr) (block : Option Addr)
    (result : ℕ) : Decidable (a.Stores thread n lpFlsData block result) :=
  inferInstanceAs (Decidable (_ ∧ _))

/-- The call of `FlsFree` frees the key. -/
def Frees (a : Spec T) (n : PthreadKey) (result : ℕ) : Prop :=
  (a.callback n).isSome ∧ result = 0

instance (a : Spec T) (n : PthreadKey) (result : ℕ) : Decidable (a.Frees n result) :=
  inferInstanceAs (Decidable (_ ∧ _))

/-- The table with another entry, or none, for a thread and a key. -/
def set [DecidableEq T] (a : Spec T) (thread : T) (n : PthreadKey) (v : Option Addr) : Spec T :=
  { a with value := fun t n' => if t = thread ∧ n' = n then v else a.value t n' }

/-- The table after an operation. -/
def next [DecidableEq T] (a : Spec T) : Op T → Spec T
  | .flsAlloc lpCallback (some _) (.ok n) =>
    { callback := Function.update a.callback n (some lpCallback)
      value := fun t n' => if n' = n then none else a.value t n' }
  | .flsAlloc _ _ _ => a
  | .flsSetValue thread n lpFlsData block result =>
    if a.Stores thread n lpFlsData block result then
      a.set thread n (if lpFlsData = 0 then none else some lpFlsData)
    else a
  | .flsFree n result =>
    if a.Frees n result then
      { callback := Function.update a.callback n none
        value := fun t n' => if n' = n then none else a.value t n' }
    else a
  | .threadExit thread _ =>
    { a with value := fun t n => if t = thread then none else a.value t n }

/-- What the operation returns. -/
def outcome (a : Spec T) : Op T → Outcome
  | .flsAlloc _ none _ => .error ERROR_NOT_ENOUGH_MEMORY
  | .flsAlloc _ (some _) (.error result) => .error (lastError result)
  | .flsAlloc _ (some _) (.ok n) => .ok n
  | .flsSetValue thread n lpFlsData block result =>
    if a.callback n = none then .error ERROR_INVALID_PARAMETER
    else if lpFlsData = 0 ∧ a.value thread n = none then .ok TRUE
    else if a.value thread n = none ∧ block = none then .error ERROR_NOT_ENOUGH_MEMORY
    else if result = 0 then .ok TRUE
    else .error (lastError result)
  | .flsFree n result => if a.Frees n result then .ok TRUE else .error ERROR_INVALID_PARAMETER
  | .threadExit _ _ => .ok TRUE

/-- The operation ends the entry of the thread for the key: the thread exits, or the key is
freed. -/
def Ends (a : Spec T) (t : T) (n : PthreadKey) : Op T → Prop
  | .flsFree n' result => n = n' ∧ a.Frees n' result
  | .threadExit thread _ => t = thread
  | .flsAlloc .. | .flsSetValue .. => False

/-- The operation passes the entry to the callback of its key. -/
structure Passes (a : Spec T) (op : Op T) (h : Heard T) : Prop where
  ends : a.Ends h.thread h.key op
  callback : a.callback h.key = some h.callback
  called : h.callback ≠ 0
  data : a.value h.thread h.key = some h.data

/-- The operation stores a pointer that is not `NULL` for the thread and the key. -/
def StoresFor (a : Spec T) (t : T) (n : PthreadKey) (op : Op T) : Prop :=
  ∃ lpFlsData block result, op = .flsSetValue t n lpFlsData block result ∧
    lpFlsData ≠ 0 ∧ a.Stores t n lpFlsData block result

/-! ## The calls that an operation makes -/

/-- The entry of the thread for the key, if it is passed to a callback when it ends. -/
def entry (a : Spec T) (t : T) (n : PthreadKey) : Option (Heard T) :=
  (a.callback n).bind fun cb =>
    if cb = 0 then none else (a.value t n).map fun d => ⟨t, n, cb, d⟩

/-- The entries among some threads and keys that are passed when they end. -/
def heard (a : Spec T) (pairs : List (T × PthreadKey)) : List (Heard T) :=
  pairs.filterMap fun pair => a.entry pair.1 pair.2

lemma entry_eq_some {a : Spec T} {t : T} {n : PthreadKey} {h : Heard T} :
    a.entry t n = some h ↔ (h.thread = t ∧ h.key = n) ∧
      a.callback n = some h.callback ∧ h.callback ≠ 0 ∧ a.value t n = some h.data := by
  rw [entry, Option.bind_eq_some_iff]
  constructor
  · rintro ⟨cb, hcb, hentry⟩
    split at hentry
    · cases hentry
    · rename_i hne
      obtain ⟨d, hd, rfl⟩ := Option.map_eq_some_iff.mp hentry
      exact ⟨⟨rfl, rfl⟩, hcb, hne, hd⟩
  · rintro ⟨⟨rfl, rfl⟩, hcb, hne, hd⟩
    refine ⟨h.callback, hcb, ?_⟩
    rw [if_neg hne, hd, Option.map_some]

lemma mem_heard {a : Spec T} {pairs : List (T × PthreadKey)} {h : Heard T} :
    h ∈ a.heard pairs ↔ (h.thread, h.key) ∈ pairs ∧
      a.callback h.key = some h.callback ∧ h.callback ≠ 0 ∧
        a.value h.thread h.key = some h.data := by
  rw [heard, List.mem_filterMap]
  constructor
  · rintro ⟨pair, hmem, hentry⟩
    obtain ⟨⟨hthread, hkey⟩, hrest⟩ := entry_eq_some.mp hentry
    rw [hthread, hkey]
    exact ⟨hmem, hrest⟩
  · rintro ⟨hmem, hrest⟩
    exact ⟨_, hmem, entry_eq_some.mpr ⟨⟨rfl, rfl⟩, hrest⟩⟩

lemma nodup_heard (a : Spec T) {pairs : List (T × PthreadKey)} (h : pairs.Nodup) :
    (a.heard pairs).Nodup := by
  apply List.Nodup.filterMap _ h
  intro pair pair' e he he'
  obtain ⟨hthread, hkey⟩ := (entry_eq_some.mp he).1
  obtain ⟨hthread', hkey'⟩ := (entry_eq_some.mp he').1
  exact Prod.ext (hthread.symm.trans hthread') (hkey.symm.trans hkey')

/-- The calls are those that the code makes when it asks for the callback and the pointer. -/
lemma map_call_heard (a : Spec T) {pairs : List (T × PthreadKey)}
    (h : ∀ t n d, a.value t n = some d → d ≠ 0) :
    (a.heard pairs).map Heard.call = pairs.flatMap fun pair =>
      callsOf ((a.callback pair.2).getD 0) ((a.value pair.1 pair.2).getD 0) := by
  induction pairs with
  | nil => rfl
  | cons pair pairs ih =>
    rw [List.flatMap_cons, ← ih, heard, List.filterMap_cons, entry]
    cases hcb : a.callback pair.2 with
    | none =>
      rw [Option.bind_none, Option.getD_none, callsOf, if_neg fun hn => hn.1 rfl]
      rfl
    | some cb =>
      rw [Option.bind_some, Option.getD_some, callsOf]
      by_cases hzero : cb = 0
      · rw [if_pos hzero, if_neg fun hn => hn.1 hzero]
        rfl
      · rw [if_neg hzero]
        cases hd : a.value pair.1 pair.2 with
        | none =>
          rw [Option.map_none, Option.getD_none, if_neg fun hn => hn.2 rfl]
          rfl
        | some d =>
          rw [Option.map_some, Option.getD_some, if_pos ⟨hzero, h _ _ d hd⟩]
          rfl

variable [DecidableEq T]

/-- The table after some operations. -/
def after (ops : List (Op T)) : Spec T := ops.foldl next initial

/-- An entry that is ended is in the table no more. -/
lemma value_of_ends {a : Spec T} {t : T} {n : PthreadKey} {op : Op T} (h : a.Ends t n op) :
    (a.next op).value t n = none := by
  cases op with
  | flsAlloc => cases h
  | flsSetValue => cases h
  | flsFree n' result =>
    obtain ⟨rfl, hfrees⟩ := h
    rw [next, if_pos hfrees]
    dsimp only
    rw [if_pos rfl]
  | threadExit thread order =>
    rw [next]
    dsimp only
    rw [if_pos (show t = thread from h)]

/-- An entry comes into the table only when it is stored. -/
lemma storesFor_of_value {a : Spec T} {t : T} {n : PthreadKey} {op : Op T}
    (hnone : a.value t n = none) (hsome : (a.next op).value t n ≠ none) :
    a.StoresFor t n op := by
  cases op with
  | flsAlloc lpCallback block created =>
    match block, created with
    | none, _ => exact absurd hnone hsome
    | some _, .error _ => exact absurd hnone hsome
    | some _, .ok n' =>
      rw [next] at hsome
      dsimp only at hsome
      split at hsome
      · exact absurd rfl hsome
      · exact absurd hnone hsome
  | flsSetValue thread n' lpFlsData block result =>
    rw [next] at hsome
    split at hsome
    · rename_i hstores
      rw [set] at hsome
      dsimp only at hsome
      split at hsome
      · rename_i hsame
        obtain ⟨rfl, rfl⟩ := hsame
        refine ⟨lpFlsData, block, result, rfl, ?_, hstores⟩
        intro h0
        rw [if_pos h0] at hsome
        exact hsome rfl
      · exact absurd hnone hsome
    · exact absurd hnone hsome
  | flsFree n' result =>
    rw [next] at hsome
    split at hsome
    · dsimp only at hsome
      split at hsome
      · exact absurd rfl hsome
      · exact absurd hnone hsome
    · exact absurd hnone hsome
  | threadExit thread order =>
    rw [next] at hsome
    dsimp only at hsome
    split at hsome
    · exact absurd rfl hsome
    · exact absurd hnone hsome

lemma after_take_succ {ops : List (Op T)} {i : ℕ} {op : Op T} (h : ops[i]? = some op) :
    after (ops.take (i + 1)) = (after (ops.take i)).next op := by
  rw [List.take_add_one, h, after, List.foldl_append]
  rfl

/-- **A pointer is passed once.** Between two operations that pass an entry of one thread and
key to a callback, a pointer is stored there. -/
theorem stored_between {ops : List (Op T)} {i j : ℕ} {op op' : Op T} {h h' : Heard T}
    (hij : i < j) (hop : ops[i]? = some op) (hpass : (after (ops.take i)).Passes op h)
    (hop' : ops[j]? = some op') (hpass' : (after (ops.take j)).Passes op' h')
    (hthread : h.thread = h'.thread) (hkey : h.key = h'.key) :
    ∃ k op'', i < k ∧ k < j ∧ ops[k]? = some op'' ∧
      (after (ops.take k)).StoresFor h.thread h.key op'' := by
  have hsome : (after (ops.take j)).value h.thread h.key ≠ none := by
    rw [hthread, hkey, hpass'.data]
    exact Option.some_ne_none _
  have hlength : j < ops.length := (List.getElem?_eq_some_iff.mp hop').1
  clear hop' hpass' hthread hkey
  -- the last operation before `j` that put the entry into the table
  induction j, hij using Nat.le_induction with
  | base =>
    rw [after_take_succ hop, value_of_ends hpass.ends] at hsome
    exact absurd rfl hsome
  | succ j hj ih =>
    by_cases hnone : (after (ops.take j)).value h.thread h.key = none
    · have hlt : j < ops.length := by omega
      have hget : ops[j]? = some ops[j] := List.getElem?_eq_getElem hlt
      rw [after_take_succ hget] at hsome
      exact ⟨j, ops[j], hj, Nat.lt_succ_self j, hget, storesFor_of_value hnone hsome⟩
    · obtain ⟨k, op'', hik, hkj, hrest⟩ := ih hnone (by omega)
      exact ⟨k, op'', hik, by omega, hrest⟩

end Spec
end Fls
end ClamavWin32
