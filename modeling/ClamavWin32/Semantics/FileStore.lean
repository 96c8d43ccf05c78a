import Mathlib.Data.List.Basic
import Mathlib.Logic.Function.Basic
import Mathlib.Tactic.Common

/-!
# Files and what a program does to them

A file store tells for each directory entry what the file there holds, `none` where there
is no file.

* `perform` is the store after a list of operations;
* `OwnFiles` says that a program creates files only where there are none, and writes or
  removes only files that it created or that were its own from the start;
* `perform_of_ownFiles`: such a program leaves every other file as it was.
-/

namespace ClamavWin32

inductive FileOp (ε δ : Type*) where
  /-- A file is created at the entry. -/
  | create (e : ε) (d : δ)
  /-- What the entry holds is replaced; `none` removes the file. -/
  | replace (e : ε) (d : Option δ)
  deriving DecidableEq, Repr

namespace FileOp

variable {ε δ : Type*} [DecidableEq ε]

/-- The store after the operations. -/
def perform (files : ε → Option δ) : List (FileOp ε δ) → ε → Option δ
  | [] => files
  | .create e d :: ops => perform (Function.update files e (some d)) ops
  | .replace e d :: ops => perform (Function.update files e d) ops

/-- The entries of the files created, the last one first. -/
def created (own : List ε) : List (FileOp ε δ) → List ε
  | [] => own
  | .create e _ :: ops => created (e :: own) ops
  | .replace _ _ :: ops => created own ops

/-- Files are created only where there are none, and only files in `own` or created before
are written or removed. -/
def OwnFiles (files : ε → Option δ) (own : List ε) : List (FileOp ε δ) → Prop
  | [] => True
  | .create e d :: ops =>
    files e = none ∧ OwnFiles (Function.update files e (some d)) (e :: own) ops
  | .replace e d :: ops => e ∈ own ∧ OwnFiles (Function.update files e d) own ops

@[simp] lemma perform_nil (files : ε → Option δ) : perform files [] = files := rfl

@[simp] lemma ownFiles_nil (files : ε → Option δ) (own : List ε) : OwnFiles files own [] :=
  trivial

lemma perform_append (files : ε → Option δ) (xs ys : List (FileOp ε δ)) :
    perform files (xs ++ ys) = perform (perform files xs) ys := by
  induction xs generalizing files with
  | nil => rfl
  | cons op xs ih =>
    match op with
    | .create e d => exact ih _
    | .replace e d => exact ih _

/-- One after the other, what was created first is the program's own for what follows. -/
lemma ownFiles_append {files : ε → Option δ} {own : List ε} {xs ys : List (FileOp ε δ)} :
    OwnFiles files own (xs ++ ys) ↔
      OwnFiles files own xs ∧ OwnFiles (perform files xs) (created own xs) ys := by
  induction xs generalizing files own with
  | nil => exact (iff_of_eq (true_and _)).symm
  | cons op xs ih =>
    match op with
    | .create e d =>
      show (_ ∧ OwnFiles _ _ (xs ++ ys)) ↔ (_ ∧ OwnFiles _ _ xs) ∧ _
      rw [ih, and_assoc]
      rfl
    | .replace e d =>
      show (_ ∧ OwnFiles _ _ (xs ++ ys)) ↔ (_ ∧ OwnFiles _ _ xs) ∧ _
      rw [ih, and_assoc]
      rfl

/-- **Frame.** A file that existed before and is not the program's own is as it was. -/
theorem perform_of_ownFiles {files : ε → Option δ} {own : List ε} {ops : List (FileOp ε δ)}
    (hops : OwnFiles files own ops) {x : ε} (hx : files x ≠ none) (hown : x ∉ own) :
    perform files ops x = files x := by
  induction ops generalizing files own with
  | nil => rfl
  | cons op ops ih =>
    match op with
    | .create e d =>
      obtain ⟨hfree, hrest⟩ := hops
      -- there was no file at the new entry, so it is another one
      have hne : x ≠ e := by
        intro heq
        rw [heq] at hx
        exact hx hfree
      have hsame : Function.update files e (some d) x = files x :=
        Function.update_of_ne hne _ _
      show perform (Function.update files e (some d)) ops x = files x
      rw [ih hrest, hsame]
      · rw [hsame]
        exact hx
      · rw [List.mem_cons, not_or]
        exact ⟨hne, hown⟩
    | .replace e d =>
      obtain ⟨he, hrest⟩ := hops
      have hne : x ≠ e := by
        intro heq
        rw [heq] at hown
        exact hown he
      have hsame : Function.update files e d x = files x := Function.update_of_ne hne _ _
      show perform (Function.update files e d) ops x = files x
      rw [ih hrest, hsame]
      · rw [hsame]
        exact hx
      · exact hown

end FileOp
end ClamavWin32
