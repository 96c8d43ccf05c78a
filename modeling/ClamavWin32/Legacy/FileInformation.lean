import ClamavWin32.Win32
import Mathlib.Logic.Function.Basic

/-!
# Setting what is known of a file, by its handle

`SetFileInformationByHandle` of `src/legacy/shared/fileapi.c`, for systems that do not have it.
Times, attributes and deletion are handed to `NtSetInformationFile`; a file is renamed by its
path, which is asked for by its handle.

* `setFileInformationByHandle`: what it returns, the last error that it sets, and its calls;
* `SysCall.after`: what a call does to the open handles of the process.
-/

namespace ClamavWin32
namespace FileInformation

def ERROR_OUTOFMEMORY : ErrorCode := 14

def ERROR_NOT_SUPPORTED : ErrorCode := 50

def ERROR_INSUFFICIENT_BUFFER : ErrorCode := 122

def MOVEFILE_REPLACE_EXISTING : UInt32 := 1

/-- `FILE_BASIC_INFO` -/
structure FileBasicInfo where
  CreationTime : Int64
  LastAccessTime : Int64
  LastWriteTime : Int64
  ChangeTime : Int64
  FileAttributes : UInt32
  deriving DecidableEq, Repr

/-- `FILE_RENAME_INFO` -/
structure FileRenameInfo where
  ReplaceIfExists : Bool
  /-- In bytes. -/
  FileNameLength : UInt32
  /-- The characters from the beginning of the name on, and what is behind them. -/
  FileName : List UInt16
  deriving DecidableEq, Repr

/-- `FILE_DISPOSITION_INFO` -/
structure FileDispositionInfo where
  DeleteFile : Bool
  deriving DecidableEq, Repr

/-- `FileInformationClass`, with what `lpFileInformation` points to. -/
inductive Information where
  | basic (info : FileBasicInfo)
  | rename (info : FileRenameInfo)
  | renameEx (info : FileRenameInfo)
  | disposition (info : FileDispositionInfo)
  | other (infoClass : ℕ)
  deriving DecidableEq, Repr

inductive SysCall where
  | CloseHandle (hObject : Addr)
  | MoveFileExW (lpExistingFileName lpNewFileName : WString) (dwFlags : UInt32)
  | NtSetInformationFile (hFile : Addr) (info : Information)
  deriving DecidableEq, Repr

/-- What the system answers, and the sizes of the structures. -/
structure Environment where
  sizeofBasicInfo : ℕ
  sizeofRenameInfo : ℕ
  sizeofDispositionInfo : ℕ
  rtlAllocateHeap : Bool
  /-- The error of the status that is returned, `none` if it is a success. -/
  ntSetInformationFile : Option ErrorCode
  /-- What `GetFinalPathNameByHandleW` returns, and the characters of the buffer then. -/
  getFinalPathNameByHandleW : ℕ
  sourcePath : List UInt16
  moveFileExW : Bool

/-- `SetFileInformationByHandle`, the end of the branches that hand their structure to
`NtSetInformationFile`. -/
def setByNt (env : Environment) (hFile : Addr) (info : Information) :
    Bool × Option ErrorCode × List SysCall :=
  if !env.rtlAllocateHeap then (false, some ERROR_OUTOFMEMORY, [])
  else
    match env.ntSetInformationFile with
    | none => (true, none, [.NtSetInformationFile hFile info])
    | some error => (false, some error, [.NtSetInformationFile hFile info])

/-- `SetFileInformationByHandle`, the branch for the two classes of a new name. -/
def renameByPath (env : Environment) (hFile : Addr) (win32RenameInfo : FileRenameInfo)
    (dwBufferSize : ℕ) : Bool × Option ErrorCode × List SysCall :=
  if dwBufferSize < env.sizeofRenameInfo then (false, some ERROR_INSUFFICIENT_BUFFER, [])
  else if env.getFinalPathNameByHandleW = 0 then (false, none, [])
  else
    let moveFlags := if win32RenameInfo.ReplaceIfExists then MOVEFILE_REPLACE_EXISTING else 0
    (env.moveFileExW, none,
      [.CloseHandle hFile,
        .MoveFileExW (cString env.sourcePath) (cString win32RenameInfo.FileName) moveFlags])

/-- `SetFileInformationByHandle`: what it returns, the last error if it sets it, and the calls
that change something. `none` is `INVALID_HANDLE_VALUE` or `NULL`. -/
def setFileInformationByHandle (env : Environment) (hFile : Option Addr)
    (lpFileInformation : Option Information) (dwBufferSize : ℕ) :
    Bool × Option ErrorCode × List SysCall :=
  match hFile, lpFileInformation with
  | some hFile, some info =>
    match info with
    | .basic _ =>
      if dwBufferSize < env.sizeofBasicInfo then (false, some ERROR_INSUFFICIENT_BUFFER, [])
      else setByNt env hFile info
    | .rename win32RenameInfo => renameByPath env hFile win32RenameInfo dwBufferSize
    | .renameEx win32RenameInfo => renameByPath env hFile win32RenameInfo dwBufferSize
    | .disposition _ =>
      if dwBufferSize < env.sizeofDispositionInfo then
        (false, some ERROR_INSUFFICIENT_BUFFER, [])
      else setByNt env hFile info
    | .other _ => (false, some ERROR_NOT_SUPPORTED, [])
  | _, _ => (false, some ERROR_INVALID_PARAMETER, [])

/-! ## The handles of the process -/

/-- The open handles, and the file that each refers to. -/
abbrev Handles (φ : Type*) := Addr → Option φ

variable {φ : Type*}

/-- The handles after a call. -/
def SysCall.after (handles : Handles φ) : SysCall → Handles φ
  | .CloseHandle hObject => Function.update handles hObject none
  | .MoveFileExW _ _ _ => handles
  | .NtSetInformationFile _ _ => handles

def handlesAfter (handles : Handles φ) (calls : List SysCall) : Handles φ :=
  calls.foldl SysCall.after handles

end FileInformation
end ClamavWin32
