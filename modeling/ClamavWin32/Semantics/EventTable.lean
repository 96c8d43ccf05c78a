import Mathlib.Logic.Function.Basic
import Mathlib.Tactic.Common

/-!
# A handle table of auto-reset events

`EventTable ι` maps handle values to event objects. Handle `0` is `NULL` and never names an
object. A closed handle value may be given out again by a later `create`, so an object
remembers who created it (`owner : ι`, which the program cannot read): a signal meant for
the event of one owner that reaches the event of another is visible in the table.

A wait takes the signal with it (`consume`), as an auto-reset event does.
-/

namespace ClamavWin32

/-- The value of a handle; `0` is `NULL`. -/
abbrev Handle := ℕ

/-- An auto-reset event object. -/
structure EventObject (ι : Type*) where
  owner : ι
  signalled : Bool
  deriving DecidableEq

/-- The open event handles of a process. -/
abbrev EventTable (ι : Type*) := Handle → Option (EventObject ι)

namespace EventTable

variable {ι : Type*}

/-- A new unsignalled event under the handle value `h`. -/
def create (evs : EventTable ι) (h : Handle) (owner : ι) : EventTable ι :=
  Function.update evs h (some ⟨owner, false⟩)

/-- `SetEvent`: without effect on a handle that is not open. -/
def signal (evs : EventTable ι) (h : Handle) : EventTable ι :=
  Function.update evs h ((evs h).map fun e => { e with signalled := true })

/-- What a wait that ends with the signal does: it resets the event. -/
def consume (evs : EventTable ι) (h : Handle) : EventTable ι :=
  Function.update evs h ((evs h).map fun e => { e with signalled := false })

/-- `CloseHandle`. -/
def close (evs : EventTable ι) (h : Handle) : EventTable ι :=
  Function.update evs h none

/-- The event under `h` is open and signalled. -/
def Signalled (evs : EventTable ι) (h : Handle) : Prop :=
  (evs h).any fun e => e.signalled

instance (evs : EventTable ι) (h : Handle) : Decidable (evs.Signalled h) :=
  inferInstanceAs (Decidable (_ = true))

/-- The owner of the open event under `h`. -/
def owner (evs : EventTable ι) (h : Handle) : Option ι :=
  (evs h).map EventObject.owner

/-! ## Owners

Only `create` and `close` change who owns the event under a handle value. -/

@[simp] lemma owner_signal (evs : EventTable ι) (h h' : Handle) :
    (evs.signal h).owner h' = evs.owner h' := by
  by_cases hh : h' = h
  · subst hh
    cases he : evs h' <;> simp [owner, signal, he]
  · simp [owner, signal, hh]

@[simp] lemma owner_consume (evs : EventTable ι) (h h' : Handle) :
    (evs.consume h).owner h' = evs.owner h' := by
  by_cases hh : h' = h
  · subst hh
    cases he : evs h' <;> simp [owner, consume, he]
  · simp [owner, consume, hh]

@[simp] lemma owner_create_self (evs : EventTable ι) (h : Handle) (i : ι) :
    (evs.create h i).owner h = some i := by
  simp [owner, create]

lemma owner_create_of_ne (evs : EventTable ι) {h h' : Handle} (i : ι) (hne : h' ≠ h) :
    (evs.create h i).owner h' = evs.owner h' := by
  simp [owner, create, hne]

/-- A handle value that is free before `create` is not one that already had an owner. -/
lemma owner_create_of_owner {evs : EventTable ι} {h h' : Handle} {i j : ι}
    (hfree : evs h = none) (ho : evs.owner h' = some j) :
    (evs.create h i).owner h' = some j := by
  by_cases hh : h' = h
  · subst hh
    rw [owner, hfree] at ho
    cases ho
  · rw [owner_create_of_ne evs i hh, ho]

lemma owner_close_of_ne (evs : EventTable ι) {h h' : Handle} (hne : h' ≠ h) :
    (evs.close h).owner h' = evs.owner h' := by
  simp [owner, close, hne]

/-! ## Signals -/

lemma signalled_signal_self {evs : EventTable ι} {h : Handle} {i : ι}
    (ho : evs.owner h = some i) : (evs.signal h).Signalled h := by
  obtain ⟨e, he, -⟩ := Option.map_eq_some_iff.mp ho
  simp [Signalled, signal, he]

/-- A signal leaves signalled what was signalled. -/
lemma Signalled.signal {evs : EventTable ι} {h' : Handle} (hs : evs.Signalled h') (h : Handle) :
    (evs.signal h).Signalled h' := by
  by_cases hh : h' = h
  · subst hh
    cases he : evs h' with
    | none => simp [Signalled, he] at hs
    | some e => simp [Signalled, EventTable.signal, he]
  · simpa [Signalled, EventTable.signal, hh] using hs

lemma signalled_signal_of_ne {evs : EventTable ι} {h h' : Handle} (hne : h' ≠ h) :
    (evs.signal h).Signalled h' ↔ evs.Signalled h' := by
  simp [Signalled, EventTable.signal, hne]

lemma not_signalled_create_self (evs : EventTable ι) (h : Handle) (i : ι) :
    ¬ (evs.create h i).Signalled h := by
  simp [Signalled, create]

lemma signalled_consume_of_ne {evs : EventTable ι} {h h' : Handle} (hne : h' ≠ h) :
    (evs.consume h).Signalled h' ↔ evs.Signalled h' := by
  simp [Signalled, consume, hne]

lemma signalled_close_of_ne {evs : EventTable ι} {h h' : Handle} (hne : h' ≠ h) :
    (evs.close h).Signalled h' ↔ evs.Signalled h' := by
  simp [Signalled, close, hne]

lemma signalled_create_of_ne {evs : EventTable ι} {h h' : Handle} (i : ι) (hne : h' ≠ h) :
    (evs.create h i).Signalled h' ↔ evs.Signalled h' := by
  simp [Signalled, create, hne]

end EventTable
end ClamavWin32
