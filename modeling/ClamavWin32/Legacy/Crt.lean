import ClamavWin32.Win32
import ClamavWin32.Semantics.MultiByte

/-!
# Conversion of wide strings

`wcstombs_s_compat` of `src/src/legacy/shared/crt.c`. What a wide character is converted to
depends on the locale, and is a parameter. Sizes are natural numbers: no string in memory has as
many bytes that its size, with the terminator, would not fit a `size_t`.

* `wcstombsLength`, `wcstombs`: the function of the C library, without and with a buffer;
* `wcstombs_s_compat`: both modes of the function.
-/

namespace ClamavWin32
namespace Crt

/-- `errno_t` -/
abbrev Errno := ℕ

def EINVAL : Errno := 22

def EILSEQ : Errno := 42

/-- The bytes of a wide character in the locale, `none` if it has none there. -/
abbrev Wctomb := UInt16 → Option (List UInt8)

/-- The bytes that are stored at the beginning of a buffer. -/
def store (mbstr bytes : List UInt8) : List UInt8 := bytes ++ mbstr.drop bytes.length

/-- `wcstombs` without a buffer: the length of the converted string, `none` for
`(size_t) -1`. -/
def wcstombsLength (wctomb : Wctomb) (wcstr : WString) : Option ℕ :=
  (MultiByte.convertAll wctomb wcstr).map List.length

/-- `wcstombs` with a buffer: it stores at most `n` bytes, and a terminator if this is one of
them. The terminator is not counted. -/
def wcstombs (wctomb : Wctomb) (mbstr : List UInt8) (wcstr : WString) (n : ℕ) :
    Option ℕ × List UInt8 :=
  match MultiByte.convertWithin wctomb n wcstr with
  | (bytes, .converted) =>
    (some bytes.length, store mbstr (if bytes.length < n then bytes ++ [0] else bytes))
  | (bytes, .full) => (some bytes.length, store mbstr bytes)
  | (bytes, .failed) => (none, store mbstr bytes)

/-- What the function returns and leaves. -/
structure Result where
  returned : Errno
  /-- `errno`, if it is set. -/
  errno : Option Errno
  /-- `*pReturnValue` -/
  pReturnValue : Option ℕ
  /-- The buffer. -/
  mbstr : Option (List UInt8)
  deriving DecidableEq, Repr

/-- `if (pReturnValue != NULL) *pReturnValue = value;` -/
def report (pReturnValue : Option ℕ) (value : ℕ) : Option ℕ := pReturnValue.map fun _ => value

/-- `wcstombs_s_compat`. A pointer that is `NULL` is `none`. -/
def wcstombs_s_compat (wctomb : Wctomb) (pReturnValue : Option ℕ) (mbstr : Option (List UInt8))
    (sizeInBytes : ℕ) (wcstr : Option WString) (count : ℕ) : Result :=
  match mbstr, wcstr with
  | none, none => ⟨EINVAL, some EINVAL, pReturnValue, none⟩
  | none, some wcstr =>
    if sizeInBytes = 0 then
      match wcstombsLength wctomb wcstr with
      | none => ⟨EILSEQ, some EILSEQ, pReturnValue, none⟩
      -- with the terminator
      | some result => ⟨0, none, report pReturnValue (result + 1), none⟩
    else ⟨EINVAL, some EINVAL, pReturnValue, none⟩
  | some mbstr, none =>
    if 0 < sizeInBytes then ⟨EINVAL, some EINVAL, pReturnValue, some (mbstr.set 0 0)⟩
    else ⟨EINVAL, some EINVAL, pReturnValue, some mbstr⟩
  | some mbstr, some wcstr =>
    if sizeInBytes = 0 then ⟨EINVAL, some EINVAL, pReturnValue, some mbstr⟩
    else
      let max_convert := if count < sizeInBytes then count else sizeInBytes - 1
      match wcstombs wctomb mbstr wcstr max_convert with
      | (none, mbstr) => ⟨EILSEQ, some EILSEQ, report pReturnValue 0, some (mbstr.set 0 0)⟩
      -- without the terminator
      | (some result, mbstr) =>
        ⟨0, none, report pReturnValue result,
          some (mbstr.set (if result < sizeInBytes then result else sizeInBytes - 1) 0)⟩

end Crt
end ClamavWin32
