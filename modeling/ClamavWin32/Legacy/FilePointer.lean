import ClamavWin32.Win32

/-!
# File offsets of 64 bits

`SetFilePointerEx` and `GetFileSizeEx` of `src/legacy/4.0/kernel32.c`, for systems that have
only `SetFilePointer` and `GetFileSize`. These take and return 64-bit values in two halves, the
high one by reference; the value `0xFFFFFFFF` of the low half is also their mark of a failure,
which is told apart by the last error.

* `LargeInteger.quadPart`: the value of the two halves;
* `SetFilePointer.Documented`, `GetFileSize.Documented`: what the system's functions promise.
-/

namespace ClamavWin32
namespace FilePointer

def NO_ERROR : ErrorCode := 0

def INVALID_SET_FILE_POINTER : UInt32 := 0xFFFFFFFF

def INVALID_FILE_SIZE : UInt32 := 0xFFFFFFFF

/-- `LARGE_INTEGER` -/
structure LargeInteger where
  LowPart : UInt32
  HighPart : Int32
  deriving DecidableEq, Repr

/-- `QuadPart`, which lies over the two halves. -/
def LargeInteger.quadPart (li : LargeInteger) : ℤ :=
  li.HighPart.toInt * 2 ^ 32 + li.LowPart.toNat

/-- An open file. -/
structure OpenFile where
  size : ℕ
  position : ℕ
  size_lt : size < 2 ^ 63
  position_lt : position < 2 ^ 63
  deriving DecidableEq, Repr

/-- `dwMoveMethod` -/
inductive MoveMethod where
  | FILE_BEGIN
  | FILE_CURRENT
  | FILE_END
  deriving DecidableEq, Repr

/-- Where a move begins. -/
def OpenFile.start (file : OpenFile) : MoveMethod → ℕ
  | .FILE_BEGIN => 0
  | .FILE_CURRENT => file.position
  | .FILE_END => file.size

/-- Where a move should end. -/
def OpenFile.target (file : OpenFile) (distance : LargeInteger) (method : MoveMethod) : ℤ :=
  file.start method + distance.quadPart

/-- A position that a file can have. -/
def IsPosition (target : ℤ) : Prop := 0 ≤ target ∧ target < 2 ^ 63

instance (target : ℤ) : Decidable (IsPosition target) := inferInstanceAs (Decidable (_ ∧ _))

/-! ## The functions of the system -/

/-- What `SetFilePointer` returns, what it stores in the high half, what `GetLastError` returns
then, and the file. -/
structure Moved where
  value : UInt32
  high : Int32
  lastError : ErrorCode
  file : OpenFile

abbrev SetFilePointer := OpenFile → UInt32 → Int32 → MoveMethod → Moved

/-- The file is moved to a position that it can have, and to no other. The value may be the mark
of a failure in both cases, the last error is none in one of them only. -/
structure SetFilePointer.Documented (setFilePointer : SetFilePointer) : Prop where
  size_eq (file : OpenFile) (low : UInt32) (high : Int32) (method : MoveMethod) :
    (setFilePointer file low high method).file.size = file.size
  moves (file : OpenFile) (low : UInt32) (high : Int32) (method : MoveMethod)
    (h : IsPosition (file.target ⟨low, high⟩ method)) :
    let moved := setFilePointer file low high method
    moved.file.position = file.target ⟨low, high⟩ method ∧
    LargeInteger.quadPart ⟨moved.value, moved.high⟩ = file.target ⟨low, high⟩ method ∧
    (moved.value = INVALID_SET_FILE_POINTER → moved.lastError = NO_ERROR)
  fails (file : OpenFile) (low : UInt32) (high : Int32) (method : MoveMethod)
    (h : ¬IsPosition (file.target ⟨low, high⟩ method)) :
    let moved := setFilePointer file low high method
    moved.file.position = file.position ∧
    moved.value = INVALID_SET_FILE_POINTER ∧ moved.lastError ≠ NO_ERROR

/-- What `GetFileSize` returns, what it stores in the high half, and what `GetLastError` returns
then. -/
structure Sized where
  value : UInt32
  high : UInt32
  lastError : ErrorCode

abbrev GetFileSize := OpenFile → Sized

structure GetFileSize.Documented (getFileSize : GetFileSize) : Prop where
  sizes (file : OpenFile) :
    (getFileSize file).high.toNat * 2 ^ 32 + (getFileSize file).value.toNat = file.size
  succeeds (file : OpenFile) :
    (getFileSize file).value = INVALID_FILE_SIZE → (getFileSize file).lastError = NO_ERROR

/-! ## The functions of the code -/

/-- `SetFilePointerEx`: what it returns, what it stores if `lpNewFilePointer` is not `NULL`, and
the file. -/
def setFilePointerEx (setFilePointer : SetFilePointer) (file : OpenFile)
    (liDistanceToMove : LargeInteger) (lpNewFilePointer : Bool) (dwMoveMethod : MoveMethod) :
    Bool × Option LargeInteger × OpenFile :=
  let moved := setFilePointer file liDistanceToMove.LowPart liDistanceToMove.HighPart dwMoveMethod
  let liDistanceToMove : LargeInteger := ⟨moved.value, moved.high⟩
  if liDistanceToMove.LowPart = INVALID_SET_FILE_POINTER then (false, none, moved.file)
  else (true, if lpNewFilePointer then some liDistanceToMove else none, moved.file)

/-- `GetFileSizeEx`: what it stores, `none` where it returns `FALSE`. -/
def getFileSizeEx (getFileSize : GetFileSize) (file : OpenFile) : Option LargeInteger :=
  let sized := getFileSize file
  let low := sized.value
  let high := sized.high
  if low = INVALID_FILE_SIZE then
    if sized.lastError ≠ NO_ERROR then none
    else some ⟨low, high.toInt32⟩
  else some ⟨low, high.toInt32⟩

end FilePointer
end ClamavWin32
