import ClamavWin32.Semantics.EventTable
import Mathlib.Algebra.Order.Ring.Nat

/-!
# What the models share of the Windows API

Addresses, memory words, error codes, wide strings, and what `WaitForSingleObject` may
return for an event.
-/

namespace ClamavWin32

/-- A memory address; `0` is `NULL`. -/
abbrev Addr := ℕ

/-- The contents of a watched memory cell, up to eight bytes. -/
abbrev Word := ℕ

/-- A `DWORD` or a `LONG`, as its 32 bits. -/
abbrev ErrorCode := UInt32

def ERROR_SUCCESS : ErrorCode := 0

def ERROR_NOT_ENOUGH_MEMORY : ErrorCode := 8

def ERROR_GEN_FAILURE : ErrorCode := 31

def ERROR_INVALID_PARAMETER : ErrorCode := 87

def ERROR_BUFFER_OVERFLOW : ErrorCode := 111

def ERROR_TIMEOUT : ErrorCode := 1460

/-- The size of a path buffer. -/
def MAX_PATH : ℕ := 260

/-- The timeout that never expires. -/
def INFINITE : ℕ := 0xFFFFFFFF

/-- The queues of waiters are numbered by the 256 values of `Fin 256`. -/
instance neZero_256 : NeZero 256 := ⟨by decide⟩

/-- The example runs have up to three threads or calls, the values of `Fin 3`. -/
instance neZero_3 : NeZero 3 := ⟨by decide⟩

/-! ## Integers -/

/-- The `int` or `LONG` that the low 32 bits of an integer are. -/
def int32 (x : ℤ) : ℤ := (x + 2 ^ 31) % 2 ^ 32 - 2 ^ 31

/-- An integer that fits an `int` is not changed. -/
lemma int32_of_fits {x : ℤ} (hlo : -2 ^ 31 ≤ x) (hhi : x < 2 ^ 31) : int32 x = x := by
  unfold int32
  omega

/-! ## Strings -/

/-- A `char` string, without its terminator. -/
abbrev CString := List UInt8

/-- A `wchar_t` string, without its terminator. -/
abbrev WString := List UInt16

/-- The literal `L"s"`. -/
def wide (s : String) : WString := s.toList.map fun c => UInt16.ofNat c.toNat

/-- The string that begins at a pointer into a buffer, given as the characters from there
on. -/
def cString (buffer : List UInt16) : WString := buffer.takeWhile (· ≠ 0)

/-- `wcsncmp (a, b, n) == 0` -/
def wcsncmpEq (a b : WString) (n : ℕ) : Bool := a.take n == b.take n

/-- A comparison over the whole length of its first argument tests for a prefix. -/
lemma wcsncmpEq_length (a b : WString) : wcsncmpEq a b a.length = true ↔ a <+: b := by
  rw [wcsncmpEq, beq_iff_eq, List.take_length, List.prefix_iff_eq_take]

/-! ## Waits -/

/-- What `WaitForSingleObject` returns for one handle. -/
inductive WaitResult where
  /-- `WAIT_OBJECT_0` -/
  | object0
  /-- `WAIT_TIMEOUT` -/
  | timeout
  /-- `WAIT_FAILED` -/
  | failed
  deriving DecidableEq

/-- `WaitForSingleObject (h, ms)` may end with `r`: with the signal if the event is
signalled, with a timeout if there is one, and with a failure at any time. -/
def WaitResult.MayEnd {ι : Type*} (evs : EventTable ι) (h : Handle) (ms : ℕ) :
    WaitResult → Prop
  | .object0 => evs.Signalled h
  | .timeout => ms ≠ INFINITE
  | .failed => True

instance {ι : Type*} (evs : EventTable ι) (h : Handle) (ms : ℕ) (r : WaitResult) :
    Decidable (r.MayEnd evs h ms) := by
  cases r <;> unfold WaitResult.MayEnd <;> infer_instance

/-- The events after a wait on `h` ended with the result: the signal resets its event. -/
def WaitResult.after {ι : Type*} (evs : EventTable ι) (h : Handle) :
    WaitResult → EventTable ι
  | .object0 => evs.consume h
  | _ => evs

end ClamavWin32
