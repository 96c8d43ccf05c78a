import ClamavWin32.Fls.CallbackTheorems

/-!
# Calls that fail

A call fails when `FlsAlloc` returns `FLS_OUT_OF_INDEXES`, or `FlsSetValue` or `FlsFree`
returns `FALSE`. What it leaves is compared with what was there as tables: the keys with their
callbacks, and what every thread has stored.

* `Fails`: what the caller takes for a failure;
* `Spec.Loses`: the calls that fail and change the table;
* `failing_unchanged_iff`: all others leave it as it was.
-/

namespace ClamavWin32
namespace Fls

open TransitionSystem

variable {T : Type*}

def FLS_OUT_OF_INDEXES : UInt32 := 0xFFFFFFFF

def FALSE : UInt32 := 0

/-- What the operation returns when it fails; the exit of a thread returns nothing. -/
def Op.failure : Op T → Option UInt32
  | .flsAlloc .. => some FLS_OUT_OF_INDEXES
  | .flsSetValue .. | .flsFree .. => some FALSE
  | .threadExit .. => none

/-- The number that a call returns. -/
def returned (failure : UInt32) : Outcome → UInt32
  | .ok result => result
  | .error _ => failure

/-- The call returns what is documented to mean a failure. -/
def Fails (op : Op T) (outcome : Outcome) : Prop :=
  ∃ failure, op.failure = some failure ∧ returned failure outcome = failure

/-- The call fails and changes the table: the pointer of the thread is replaced and
`pthread_setspecific` fails, or the number of the new key is `FLS_OUT_OF_INDEXES`. -/
def Spec.Loses (a : Spec T) : Op T → Prop
  | .flsAlloc _ block created => block ≠ none ∧ created = .ok FLS_OUT_OF_INDEXES
  | .flsSetValue thread dwFlsIndex lpFlsData _ result =>
    a.callback dwFlsIndex ≠ none ∧ a.value thread dwFlsIndex ≠ none ∧ lpFlsData ≠ 0 ∧
      a.value thread dwFlsIndex ≠ some lpFlsData ∧ result ≠ 0
  | .flsFree .. | .threadExit .. => False

variable [DecidableEq T]

namespace Spec

variable {a : Spec T} {thread : T} {n : PthreadKey} {lpCallback lpFlsData : Addr}
  {block : Option Addr} {created : Except ℕ PthreadKey} {result : ℕ}

/-- The table is as it was if the call fails. -/
def Unchanged (a : Spec T) (op : Op T) : Prop := Fails op (a.outcome op) → a.next op = a

lemma unchanged_of_next {op : Op T} (h : a.next op = a) : a.Unchanged op := fun _ => h

/-- An entry that is set to something else is changed. -/
lemma set_eq_iff {v : Option Addr} : a.set thread n v = a ↔ a.value thread n = v := by
  constructor
  · intro hset
    rw [← hset, set]
    dsimp only
    rw [if_pos ⟨rfl, rfl⟩]
  · exact set_same

/-- `FlsAlloc` changes the table when it makes a key. -/
lemma flsAlloc_unchanged_iff (hfresh : ∀ n, created = .ok n → a.callback n = none) :
    a.Unchanged (.flsAlloc lpCallback block created) ↔
      ¬a.Loses (.flsAlloc lpCallback block created) := by
  cases block with
  | none => exact iff_of_true (unchanged_of_next rfl) fun h => h.1 rfl
  | some key =>
    cases created with
    | error e => exact iff_of_true (unchanged_of_next rfl) fun h => nomatch h.2
    | ok n =>
      have hchanged : a.next (.flsAlloc lpCallback (some key) (.ok n)) ≠ a := by
        intro hnext
        have hcallback := hfresh n rfl
        rw [← hnext] at hcallback
        change Function.update a.callback n (some lpCallback) n = none at hcallback
        rw [Function.update_self] at hcallback
        cases hcallback
      constructor
      · rintro hsame ⟨-, hn⟩
        exact hchanged (hsame ⟨FLS_OUT_OF_INDEXES, rfl, Except.ok.inj hn⟩)
      · rintro hloses ⟨failure, hfailure, hreturned⟩
        obtain rfl := Option.some.inj hfailure
        exact absurd ⟨Option.some_ne_none key, congrArg Except.ok hreturned⟩ hloses

omit [DecidableEq T] in
/-- A call that stores its pointer returns what `pthread_setspecific` does. -/
lemma outcome_of_stores (h : a.Stores thread n lpFlsData block result) :
    a.outcome (.flsSetValue thread n lpFlsData block result) =
      if result = 0 then .ok TRUE else .error (lastError result) := by
  obtain ⟨hcallback, hstored⟩ := h
  have hne : a.callback n ≠ none := Option.isSome_iff_ne_none.1 hcallback
  by_cases hnull : lpFlsData = 0
  · rw [if_pos hnull] at hstored
    rw [outcome, if_neg hne, if_pos hstored]
    by_cases hvalue : a.value thread n = none
    · rw [if_pos ⟨hnull, hvalue⟩]
    · rw [if_neg fun h => hvalue h.2, if_neg fun h => hvalue h.1]
  · rw [if_neg hnull] at hstored
    apply outcome_flsSetValue hne (fun h => absurd h hnull)
    intro hvalue hblock
    rw [hvalue, hblock] at hstored
    exact hstored.elim Bool.false_ne_true fun h => Bool.false_ne_true h.1

/-- `FlsSetValue` changes the table when it replaces a pointer by another one. -/
lemma flsSetValue_unchanged_iff :
    a.Unchanged (.flsSetValue thread n lpFlsData block result) ↔
      ¬a.Loses (.flsSetValue thread n lpFlsData block result) := by
  by_cases hstores : a.Stores thread n lpFlsData block result
  · have hnext : a.next (.flsSetValue thread n lpFlsData block result) =
        a.set thread n (if lpFlsData = 0 then none else some lpFlsData) := if_pos hstores
    rw [Unchanged, hnext, set_eq_iff, outcome_of_stores hstores]
    obtain ⟨hcallback, hstored⟩ := hstores
    by_cases hresult : result = 0
    · rw [if_pos hresult]
      refine iff_of_true ?_ fun hloses => hloses.2.2.2.2 hresult
      rintro ⟨failure, hfailure, hreturned⟩
      obtain rfl := Option.some.inj hfailure
      cases hreturned
    · have hnull : lpFlsData ≠ 0 := fun h => hresult (by rwa [if_pos h] at hstored)
      rw [if_neg hnull] at hstored
      have hvalue : a.value thread n ≠ none :=
        hstored.elim Option.isSome_iff_ne_none.1 fun h => absurd h.2 hresult
      rw [if_neg hresult, if_neg hnull]
      constructor
      · intro hsame hloses
        exact hloses.2.2.2.1 (hsame ⟨FALSE, rfl, rfl⟩)
      · intro hloses _
        by_contra hne
        exact hloses ⟨Option.isSome_iff_ne_none.1 hcallback, hvalue, hnull, hne, hresult⟩
  · -- what is not stored is not lost
    have hloses : ¬a.Loses (.flsSetValue thread n lpFlsData block result) := by
      rintro ⟨hcallback, hvalue, hnull, -, -⟩
      apply hstores
      refine ⟨Option.isSome_iff_ne_none.2 hcallback, ?_⟩
      rw [if_neg hnull]
      exact Or.inl (Option.isSome_iff_ne_none.2 hvalue)
    exact iff_of_true (unchanged_of_next (if_neg hstores)) hloses

/-- `FlsFree` changes the table when it succeeds. -/
lemma flsFree_unchanged : a.Unchanged (.flsFree n result) := by
  rintro ⟨failure, hfailure, hreturned⟩
  obtain rfl := Option.some.inj hfailure
  rw [outcome] at hreturned
  rw [next]
  by_cases hfrees : a.Frees n result
  · rw [if_pos hfrees] at hreturned
    cases hreturned
  · rw [if_neg hfrees]

/-- The calls that fail leave the table as it was, but for those that lose a pointer or a key. -/
theorem unchanged_iff {op : Op T} (hfresh : ∀ lpCallback block n,
    op = .flsAlloc lpCallback block (.ok n) → a.callback n = none) :
    a.Unchanged op ↔ ¬a.Loses op := by
  cases op with
  | flsAlloc lpCallback block created =>
    apply flsAlloc_unchanged_iff
    intro n hcreated
    exact hfresh lpCallback block n (by rw [hcreated])
  | flsSetValue => exact flsSetValue_unchanged_iff
  | flsFree => exact iff_of_true flsFree_unchanged id
  | threadExit =>
    apply iff_of_true _ id
    rintro ⟨failure, hfailure, -⟩
    cases hfailure

end Spec

/-! ## The calls of the code -/

variable {s : State T} {op : Op T}

omit [DecidableEq T] in
/-- A key that is not live is none of the registered ones. -/
lemma State.callback_of_not_live (h : s.Rests) {n : PthreadKey} (hn : s.pthread.live n = false) :
    s.abs.callback n = none := by
  obtain ⟨ks, vs, h⟩ := h
  apply State.callback_none h
  intro k hk
  have hlive := (h.live n).2 ⟨k, h.keyPlaced k n hk, hk⟩
  rw [hn] at hlive
  cases hlive

/-- A call that fails leaves the keys, their callbacks and what the threads have stored as they
were if and only if it is none of those that lose a pointer or a key. -/
theorem failing_unchanged_iff (h : s.Rests) (hdoc : op.Documented s) :
    ∃ s' outcome, exec s op = some (s', outcome) ∧
      ((Fails op outcome → s'.abs = s.abs) ↔ ¬s.abs.Loses op) := by
  obtain ⟨s', outcome, hexec, hrefines⟩ := exec_refines h hdoc
  refine ⟨s', outcome, hexec, ?_⟩
  rw [hrefines.outcome, hrefines.abs]
  apply Spec.unchanged_iff
  rintro lpCallback block n rfl
  exact State.callback_of_not_live h (hdoc.2 n rfl)

/-! ## A key with one pointer -/

/-- The thread 0 has stored a pointer for a key. -/
def onePointerOps : List (Op (Fin 3)) :=
  [.flsAlloc 7 (some 100) (.ok 1), .flsSetValue 0 1 55 (some 200) 0]

def onePointer : State (Fin 3) := (run step State.initial onePointerOps).getD State.initial

lemma run_onePointerOps : run step State.initial onePointerOps = some onePointer := rfl

lemma onePointerOps_documented :
    EveryLabel step (fun s op => op.Documented s) State.initial onePointerOps := by
  refine ⟨⟨?_, fun n _ => rfl⟩, fun s hs => ⟨?_, fun _ _ => trivial⟩⟩
  · intro a ha
    obtain rfl := Option.some.inj ha
    decide
  · intro a ha
    obtain rfl := Option.some.inj ha
    obtain rfl := Option.some.inj hs
    decide

lemma onePointer_rests : onePointer.Rests :=
  (everyState_rests onePointerOps_documented).last run_onePointerOps

/-- The thread 1 stores a pointer, `pthread_setspecific` fails, and the new record is taken
back. -/
theorem taken_back :
    ∃ s' outcome, exec onePointer (.flsSetValue 1 1 66 (some 300) ENOMEM) = some (s', outcome) ∧
      ((Fails (.flsSetValue 1 1 66 (some 300) ENOMEM : Op (Fin 3)) outcome →
        s'.abs = onePointer.abs) ↔
          ¬onePointer.abs.Loses (.flsSetValue 1 1 66 (some 300) ENOMEM)) := by
  apply failing_unchanged_iff onePointer_rests
  intro a ha
  obtain rfl := Option.some.inj ha
  decide

/-- The thread 0 replaces its pointer, `pthread_setspecific` fails, and the new pointer stays. -/
theorem failing_not_unchanged :
    run step State.initial onePointerOps = some onePointer ∧
      EveryLabel step (fun s op => op.Documented s) State.initial onePointerOps ∧
        ∃ s' outcome, exec onePointer (.flsSetValue 0 1 77 none ENOMEM) = some (s', outcome) ∧
          Fails (.flsSetValue 0 1 77 none ENOMEM : Op (Fin 3)) outcome ∧
            onePointer.abs.value 0 1 = some 55 ∧ s'.abs.value 0 1 = some 77 ∧
              s'.abs ≠ onePointer.abs := by
  refine ⟨run_onePointerOps, onePointerOps_documented, _, _, rfl, ⟨FALSE, rfl, rfl⟩, ?_, ?_, ?_⟩
  · decide
  · decide
  intro hsame
  have hvalue := congrFun (congrFun (congrArg Spec.value hsame) 0) 1
  exact absurd hvalue (by decide)

end Fls
end ClamavWin32
