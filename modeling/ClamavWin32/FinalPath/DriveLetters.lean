import ClamavWin32.Win32
import Mathlib.Data.List.Infix

/-!
# The drive letter of an NT device

`UncPath` and `BasepGetVolumeDosLetterNameFromNTNameAndFileName` of
`src/legacy/shared/getfinalpathnamebyhandlew.c`.

The letters in use, the device that each one stands for and its type are a
`DriveEnvironment`, and so is which allocations succeed. A function of the code that
returns `TRUE` and a `VolumeName`, or `FALSE` and a last error, is an `Except` here.
-/

namespace ClamavWin32
namespace FinalPath

/-! ## The drives -/

def DRIVE_REMOTE : UInt32 := 4

@[ext]
structure DriveLetter where
  char : UInt16
  ne_zero : char ≠ 0

/-- `X:\` and its terminator, for the letter `X`. -/
def driveString (letter : DriveLetter) : List UInt16 := [letter.char, 58, 92, 0]

structure DriveEnvironment where
  /-- The letters in the order in which `GetLogicalDriveStringsW` lists them, unless it
  fails. -/
  logicalDrives : Option (List DriveLetter)
  /-- The target of a device name such as `X:`. -/
  queryDosDeviceW : WString → Option WString
  getDriveTypeW : WString → UInt32
  /-- Whether the allocation of so many bytes succeeds. -/
  rtlAllocateHeap : ℕ → Bool

/-- `GetLogicalDriveStringsW`: the return value, and the characters that it stores before
the terminator of the list. A list longer than the buffer is not stored, and its length
with the terminator is returned. -/
def DriveEnvironment.getLogicalDriveStringsW (env : DriveEnvironment) (nBufferLength : ℕ) :
    ℕ × List UInt16 :=
  match env.logicalDrives with
  | none => (0, [])
  | some letters =>
    let strings := letters.flatMap driveString
    if strings.length ≤ nBufferLength then (strings.length, strings)
    else (strings.length + 1, [])

/-! ## The code -/

/-- `UncPath` -/
def uncPath (env : DriveEnvironment) : Except ErrorCode WString :=
  if env.rtlAllocateHeap 16 then .ok (wide "\\\\?\\UNC") else .error ERROR_NOT_ENOUGH_MEMORY

/-- The copy of `\\?\X:` in which the letter is replaced. -/
def letterPath (env : DriveEnvironment) (letter : UInt16) : Except ErrorCode WString :=
  if env.rtlAllocateHeap 14 then .ok ((wide "\\\\?\\X:").set 4 letter)
  else .error ERROR_NOT_ENOUGH_MEMORY

def lanmanRedirector : WString := wide "\\Device\\LanmanRedirector\\;"

/-- The target `\Device\LanmanRedirector\;X:0000000000000000\host\share` is that of the
letter, and the name of the file begins with the path in it. -/
def isShareOf (letter : UInt16) (targetDevice fileName : WString) : Bool :=
  let path := (targetDevice.drop 28).dropWhile (· ≠ 92)
  28 < targetDevice.length && targetDevice[26]? == some letter &&
    targetDevice[27]? == some 58 && !path.isEmpty && wcsncmpEq path fileName path.length

/-- The body of the loop, for the drive that begins with the letter: what it returns, or
`none` if it goes on. -/
def tryDrive (env : DriveEnvironment) (src fileName : WString) (letter : UInt16)
    (driveLetter : WString) : Option (Except ErrorCode WString) :=
  match env.queryDosDeviceW driveLetter with
  | none => none
  | some targetDevice =>
    if wcsncmpEq src targetDevice src.length then
      let (bFound, bRemote) :=
        if lanmanRedirector <:+: targetDevice then
          let sameShare := isShareOf letter targetDevice fileName
          (sameShare, sameShare)
        else (true, env.getDriveTypeW driveLetter == DRIVE_REMOTE)
      if bFound then some (if bRemote then uncPath env else letterPath env letter)
      else none
    else none

/-- The loop; `drive` is what the buffer holds from the pointer on. -/
def scanDrives (env : DriveEnvironment) (src fileName : WString) :
    List UInt16 → Except ErrorCode WString
  | [] => uncPath env
  | letter :: rest =>
    if letter = 0 then uncPath env
    else
      match tryDrive env src fileName letter (cString (letter :: rest.take 1)) with
      | some result => result
      -- the next string begins after the terminator of this one
      | none => scanDrives env src fileName (rest.drop ((cString rest).length + 1))
termination_by drive => drive.length
decreasing_by simp only [List.length_drop, List.length_cons]; omega

/-- `BasepGetVolumeDosLetterNameFromNTNameAndFileName` -/
def basepGetVolumeDosLetterNameFromNTNameAndFileName (env : DriveEnvironment)
    (src fileName : WString) : Except ErrorCode WString :=
  let (driveCount, szLogicalDrives) := env.getLogicalDriveStringsW (MAX_PATH - 1)
  if driveCount = 0 ∨ driveCount ≥ MAX_PATH then .error ERROR_BUFFER_OVERFLOW
  else scanDrives env src fileName szLogicalDrives

end FinalPath
end ClamavWin32
