import ClamavWin32.FinalPath.DriveLetters
import ClamavWin32.FinalPath.LongPath

/-!
# The final path of a handle

`GetFinalPathNameByHandleW` of `src/legacy/shared/getfinalpathnamebyhandlew.c` with the
functions that find the name of the object, of the file and of the volume.

What the system answers to the calls for one handle is an `Environment`: a query that is
repeated is answered round by round. A function that loops takes the number of rounds it may
make, and its result is `none` if it has not returned by then or if what it does is
undefined. Otherwise it is an `Except`, whose errors are last errors.
-/

namespace ClamavWin32
namespace FinalPath

def ERROR_INVALID_FUNCTION : ErrorCode := 1

def ERROR_PATH_NOT_FOUND : ErrorCode := 3

def ERROR_ACCESS_DENIED : ErrorCode := 5

def ERROR_INVALID_HANDLE : ErrorCode := 6

def ERROR_NOT_SUPPORTED : ErrorCode := 50

def ERROR_INVALID_LEVEL : ErrorCode := 124

def ERROR_MORE_DATA : ErrorCode := 234

def ERROR_NO_SYSTEM_RESOURCES : ErrorCode := 1450

/-! ## The system -/

def STATUS_BUFFER_OVERFLOW : UInt32 := 0x80000005

/-- `NT_SUCCESS` -/
def NT_SUCCESS (status : UInt32) : Bool := status < 0x80000000

/-- An answer to `NtQueryObject` or `NtQueryInformationFile`. -/
structure NameQuery where
  status : UInt32
  /-- The characters of the name, which nothing terminates. -/
  name : List UInt16
  deriving DecidableEq, Repr

/-- An answer to `DeviceIoControl`. -/
structure Ioctl (α : Type*) where
  success : Bool
  /-- `GetLastError ()` after the call: a call that succeeds does not set it. -/
  lastError : ErrorCode
  output : α

/-- `FILE_INFORMATION_CLASS` -/
inductive FileInformationClass where
  | FileNameInformation
  | FileNormalizedNameInformation
  deriving DecidableEq, Repr

/-- What is allocated on the heap of the process, the drive letters apart. -/
inductive Allocation where
  | NtObjectName
  | fileName (cls : FileInformationClass)
  | MountPoint
  | MountPoints
  | VolumeName
  | TargetName
  | Buffer
  | normalizedName
  deriving DecidableEq, Repr

structure Environment where
  /-- `osvi.dwMajorVersion` -/
  majorVersion : ℕ
  /-- Whether an allocation made in a round of its loop succeeds. -/
  rtlAllocateHeap : Allocation → ℕ → Bool
  ntQueryObject : ℕ → NameQuery
  ntQueryInformationFile : FileInformationClass → ℕ → NameQuery
  rtlNtStatusToDosError : UInt32 → ErrorCode
  /-- Whether the mount manager can be opened. -/
  createFile : Bool
  /-- `IOCTL_MOUNTMGR_QUERY_POINTS`: the symbolic links to a device. -/
  queryPoints : WString → ℕ → Ioctl (List (List UInt16))
  /-- `IOCTL_MOUNTMGR_QUERY_DOS_VOLUME_PATH` -/
  queryDosVolumePath : WString → ℕ → Ioctl (List UInt16)
  iswalpha : UInt16 → Bool
  drives : DriveEnvironment
  longPath : LongPathEnvironment

/-! ## Names -/

/-- The loop of `BasepGetObjectNTName` and `BasepGetFileNameInformation`, from a round on. -/
def queryName (env : Environment) (allocation : Allocation) (ask : ℕ → NameQuery) :
    ℕ → ℕ → Option (Except ErrorCode WString)
  | 0, _ => none
  | n + 1, round =>
    if !env.rtlAllocateHeap allocation round then some (.error ERROR_NO_SYSTEM_RESOURCES)
    else
      let answer := ask round
      if answer.status = STATUS_BUFFER_OVERFLOW then queryName env allocation ask n (round + 1)
      else if !NT_SUCCESS answer.status then
        some (.error (env.rtlNtStatusToDosError answer.status))
      else some (.ok (cString answer.name))

/-- `BasepGetObjectNTName` -/
def basepGetObjectNTName (env : Environment) (rounds : ℕ) : Option (Except ErrorCode WString) :=
  queryName env .NtObjectName env.ntQueryObject rounds 0

/-- `BasepGetFileNameInformation` -/
def basepGetFileNameInformation (env : Environment) (rounds : ℕ)
    (cls : FileInformationClass) : Option (Except ErrorCode WString) :=
  queryName env (.fileName cls) (env.ntQueryInformationFile cls) rounds 0

/-! ## Volumes -/

/-- The loop around `DeviceIoControl`, from a round on; `success` is that of the last one.
Without a buffer what follows a success is undefined. -/
def ioctlLoop {α : Type*} (env : Environment) (allocation : Allocation) (ask : ℕ → Ioctl α) :
    ℕ → ℕ → Bool → Option (Except ErrorCode α)
  | 0, _, _ => none
  | n + 1, round, success =>
    if !env.rtlAllocateHeap allocation round then
      if success then none else some (.error ERROR_NOT_ENOUGH_MEMORY)
    else
      let answer := ask round
      if answer.lastError = ERROR_MORE_DATA then
        ioctlLoop env allocation ask n (round + 1) answer.success
      else if !answer.success then some (.error answer.lastError)
      else some (.ok answer.output)

/-- `MOUNTMGR_IS_VOLUME_NAME2` -/
def mountmgrIsVolumeName2 (buffer : List UInt16) : Bool :=
  (buffer.length = 48 || (buffer.length = 49 && charAt buffer 48 = 92)) &&
  charAt buffer 0 = 92 && (charAt buffer 1 = 63 || charAt buffer 1 = 92) &&
  wide "?\\Volume\x7b" == (buffer.drop 2).take 9 &&
  charAt buffer 19 = 45 && charAt buffer 24 = 45 && charAt buffer 29 = 45 &&
  charAt buffer 34 = 45 && charAt buffer 47 = 125

/-- The loop over the mount points, from the `i`-th one on: `result` and `*VolumeName`. The
loop goes on behind a volume name, and an allocation that fails ends it. -/
def scanMountPoints (env : Environment) :
    ℕ → List (List UInt16) → Bool → Option WString → Bool × Option WString
  | _, [], result, volumeName => (result, volumeName)
  | i, symbolicLinkName :: points, result, volumeName =>
    if !mountmgrIsVolumeName2 symbolicLinkName then
      scanMountPoints env (i + 1) points result volumeName
    else if !env.rtlAllocateHeap .VolumeName i then (result, none)
    else scanMountPoints env (i + 1) points true (some (cString (symbolicLinkName.set 1 92)))

/-- `BasepGetVolumeGUIDFromNTName`; `TRUE` may leave `NULL` in `*VolumeName`. -/
def basepGetVolumeGUIDFromNTName (env : Environment) (rounds : ℕ) (src : WString) :
    Option (Except ErrorCode (Option WString)) :=
  if env.majorVersion < 5 then some (.error ERROR_NOT_SUPPORTED)
  else if !env.createFile then some (.error ERROR_NOT_SUPPORTED)
  else if !env.rtlAllocateHeap .MountPoint 0 then some (.error ERROR_NOT_ENOUGH_MEMORY)
  else
    match ioctlLoop env .MountPoints (env.queryPoints src) rounds 0 false with
    | none => none
    | some (.error e) => some (.error e)
    | some (.ok points) =>
      match scanMountPoints env 0 points false none with
      | (true, volumeName) => some (.ok volumeName)
      | (false, _) => some (.error ERROR_NOT_SUPPORTED)

/-- `BasepGetVolumeDosLetterNameFromNTName` -/
def basepGetVolumeDosLetterNameFromNTName (env : Environment) (rounds : ℕ) (src : WString) :
    Option (Except ErrorCode WString) :=
  if wcsnicmpEq src (wide "\\Device\\Mup") 11 then some (uncPath env.drives)
  else if wcsnicmpEq src (wide "\\??\\") 4 ∧ src.length = 6 ∧ charAt src 5 = 58 ∧
      env.iswalpha (charAt src 4) then
    some (letterPath env.drives (charAt src 4))
  else if env.majorVersion < 5 then some (.error ERROR_NOT_SUPPORTED)
  else if !env.createFile then some (.error ERROR_NOT_SUPPORTED)
  else if !env.rtlAllocateHeap .TargetName 0 then some (.error ERROR_NOT_ENOUGH_MEMORY)
  else
    match ioctlLoop env .Buffer (env.queryDosVolumePath src) rounds 0 false with
    | none => none
    | some (.error e) => some (.error e)
    | some (.ok fileName) =>
      if mountmgrIsVolumeName2 fileName then some (.error ERROR_PATH_NOT_FOUND)
      else some (.ok (cString (wide "\\\\?\\" ++ fileName)))

/-! ## The flags -/

def VOLUME_NAME_GUID : UInt32 := 1

def VOLUME_NAME_NT : UInt32 := 2

def VOLUME_NAME_NONE : UInt32 := 4

def FILE_NAME_OPENED : UInt32 := 8

/-- `VOLUME_NAME_TYPE` -/
inductive VolumeNameType where
  | GUID
  | NT
  | DOS
  deriving DecidableEq, Repr

def hasFlag (dwFlags flag : UInt32) : Bool := dwFlags &&& flag != 0

/-- The type that the flags ask for, `none` if they are not valid. -/
def volumeNameType (dwFlags : UInt32) : Option VolumeNameType :=
  if dwFlags &&& ~~~(FILE_NAME_OPENED ||| VOLUME_NAME_GUID ||| VOLUME_NAME_NONE |||
      VOLUME_NAME_NT) != 0 then none
  else
    match hasFlag dwFlags VOLUME_NAME_GUID, hasFlag dwFlags VOLUME_NAME_NT,
      hasFlag dwFlags VOLUME_NAME_NONE with
    | true, false, false => some .GUID
    | false, true, false => some .NT
    | false, false, true => some .DOS
    | false, false, false => some .DOS
    | _, _, _ => none

/-! ## GetFinalPathNameByHandleW -/

/-- The largest size that the `StringCch` functions accept. -/
def STRSAFE_MAX_CCH : ℕ := 2147483647

/-- The name of the volume of the object `NtObjectName` and the name of the file in it. -/
def queryNames (env : Environment) (rounds : ℕ) :
    Option (Except ErrorCode (WString × WString)) :=
  match basepGetObjectNTName env rounds with
  | none => none
  | some (.error e) => some (.error e)
  | some (.ok ntObjectName) =>
    match basepGetFileNameInformation env rounds .FileNameInformation with
    | none => none
    | some (.error e) => some (.error e)
    | some (.ok fileName) =>
      if charAt fileName 0 ≠ 92 then some (.error ERROR_ACCESS_DENIED)
      -- the terminator would be stored in front of the name
      else if ntObjectName.length < fileName.length then none
      else some (.ok (ntObjectName.take (ntObjectName.length - fileName.length), fileName))

/-- The `switch` over the type: `VolumeName`, which may be `NULL`. -/
def volumeName (env : Environment) (rounds : ℕ) (type : VolumeNameType)
    (ntObjectName fileName : WString) : Option (Except ErrorCode (Option WString)) :=
  match type with
  | .GUID =>
    match basepGetVolumeGUIDFromNTName env rounds ntObjectName with
    | some (.error e) =>
      some (.error (if e = ERROR_INVALID_FUNCTION then ERROR_PATH_NOT_FOUND else e))
    | r => r
  | .NT => some (.ok (some ntObjectName))
  | .DOS =>
    match basepGetVolumeDosLetterNameFromNTName env rounds ntObjectName with
    | none => none
    | some (.ok name) => some (.ok (some name))
    | some (.error e) =>
      if e ≠ ERROR_INVALID_FUNCTION ∧ e ≠ ERROR_NOT_SUPPORTED then some (.error e)
      else
        some ((basepGetVolumeDosLetterNameFromNTNameAndFileName env.drives ntObjectName
          fileName).map some)

/-- `Source` and `Dest` of the normalisation: where the path given to `GetLongPathNameW`
begins. -/
def longPathSource (env : Environment) (rounds : ℕ) (type : VolumeNameType)
    (volumeName : Option WString) : Option (Except ErrorCode (Option WString)) :=
  match type, volumeName with
  -- the object name was given up for the name of the volume
  | .NT, some srcName =>
    match basepGetVolumeDosLetterNameFromNTName env rounds srcName with
    | none => none
    | some (.ok dest) => some (.ok (some dest))
    | some (.error e) =>
      if e = ERROR_NOT_ENOUGH_MEMORY then some (.error e)
      else
        match basepGetVolumeGUIDFromNTName env rounds srcName with
        | some (.ok none) => some (.ok (some srcName))
        | r => r
  | _, volumeName => some (.ok volumeName)

/-- The errors after which the normalised name is asked of `GetLongPathNameW`. -/
def notNormalized (e : ErrorCode) : Bool :=
  e == ERROR_INVALID_PARAMETER || e == ERROR_INVALID_LEVEL || e == ERROR_NOT_SUPPORTED ||
    e == ERROR_INVALID_FUNCTION

/-- What is known of the path when its length is computed. -/
inductive Found where
  /-- `LongPathLength`, where `GetLongPathNameW` asks for a larger buffer. -/
  | longPathLength (length : ℕ)
  | names (volumeName : Option WString) (fileName : WString)
  deriving DecidableEq, Repr

/-- The part of the normalisation that calls `GetLongPathNameW`. What it finds is stored, but
the name of the file is not replaced by it. -/
def viaLongPath (env : Environment) (rounds : ℕ) (type : VolumeNameType)
    (volumeName : Option WString) (fileName : WString) : Option (Except ErrorCode Found) :=
  match longPathSource env rounds type volumeName with
  | none => none
  | some (.error e) => some (.error e)
  -- `wcslen (NULL)`
  | some (.ok none) => none
  | some (.ok (some source)) =>
    let length := fileName.length + source.length + 1
    if !env.rtlAllocateHeap .normalizedName 0 then some (.error ERROR_NOT_ENOUGH_MEMORY)
    -- no string is copied to the block
    else if STRSAFE_MAX_CCH < length then none
    else
      match getLongPathNameW env.longPath (source ++ fileName) length with
      | .error e => some (.error e)
      | .ok (longPathLength, normalizedName) =>
        if length ≤ longPathLength then
          -- `Dest` was there unless it is the volume name
          let destlen := ((volumeName.map List.length).getD 0)
          some (.ok (.longPathLength (destlen + (longPathLength - source.length))))
        -- the length of what is moved to the front of the block would be negative
        else if normalizedName.length + 1 < source.length then none
        else some (.ok (.names volumeName fileName))

/-- The normalisation of the name of the file. -/
def normalize (env : Environment) (rounds : ℕ) (dwFlags : UInt32) (type : VolumeNameType)
    (volumeName : Option WString) (fileName : WString) : Option (Except ErrorCode Found) :=
  if hasFlag dwFlags FILE_NAME_OPENED then some (.ok (.names volumeName fileName))
  else
    match basepGetFileNameInformation env rounds .FileNormalizedNameInformation with
    | none => none
    | some (.ok normalizedName) => some (.ok (.names volumeName normalizedName))
    | some (.error e) =>
      if notNormalized e then viaLongPath env rounds type volumeName fileName
      else some (.error e)

/-- `GetFinalPathNameByHandleW` up to where the length of the path is computed. -/
def findPath (env : Environment) (rounds : ℕ) (hFile : Option Addr) (dwFlags : UInt32) :
    Option (Except ErrorCode Found) :=
  match hFile, volumeNameType dwFlags with
  | none, _ => some (.error ERROR_INVALID_HANDLE)
  | some _, none => some (.error ERROR_INVALID_PARAMETER)
  | some _, some type =>
    match queryNames env rounds with
    | none => none
    | some (.error e) => some (.error e)
    | some (.ok (ntObjectName, fileName)) =>
      match volumeName env rounds type ntObjectName fileName with
      | none => none
      | some (.error e) => some (.error e)
      | some (.ok name) => normalize env rounds dwFlags type name fileName

/-! ## The buffer -/

/-- The buffer with `s` and a terminator from an index on, as far as it reaches. -/
def storeString (buffer : List UInt16) (index : ℕ) (s : WString) : List UInt16 :=
  let stored := s.take (buffer.length - index - 1) ++ [0]
  buffer.take index ++ stored ++ buffer.drop (index + stored.length)

/-- `StringCchCopyW`, for a buffer of `cchDest` characters. -/
def stringCchCopyW (buffer : List UInt16) (s : WString) : List UInt16 :=
  if buffer.length = 0 ∨ STRSAFE_MAX_CCH < buffer.length then buffer
  else storeString buffer 0 s

/-- `StringCchCatW`, for a buffer of `cchDest` characters that holds a string. -/
def stringCchCatW (buffer : List UInt16) (s : WString) : List UInt16 :=
  if buffer.length = 0 ∨ STRSAFE_MAX_CCH < buffer.length then buffer
  else storeString buffer (cString buffer).length s

/-- What `GetFinalPathNameByHandleW` returns, the last error if it is set, and the buffer. -/
structure Result where
  ret : UInt32
  lastError : Option ErrorCode
  buffer : List UInt16
  deriving DecidableEq, Repr

/-- The end of `GetFinalPathNameByHandleW`. -/
def storePath (volumeName : Option WString) (fileName : WString) (buffer : List UInt16) :
    Result :=
  let result := ((volumeName.map List.length).getD 0) + fileName.length
  if result + 1 ≤ buffer.length then
    let buffer := buffer.set 0 0
    let buffer := match volumeName with
      | some name => stringCchCopyW buffer name
      | none => buffer
    ⟨UInt32.ofNat result, none, stringCchCatW buffer fileName⟩
  else ⟨UInt32.ofNat (result + 1), some ERROR_NOT_ENOUGH_MEMORY, buffer⟩

/-- `GetFinalPathNameByHandleW`, for a buffer of `cchFilePath` characters. -/
def getFinalPathNameByHandleW (env : Environment) (rounds : ℕ) (hFile : Option Addr)
    (buffer : List UInt16) (dwFlags : UInt32) : Option Result :=
  match findPath env rounds hFile dwFlags with
  | none => none
  | some (.error e) => some ⟨0, some e, buffer⟩
  | some (.ok (.longPathLength length)) =>
    some ⟨UInt32.ofNat (length + 1), some ERROR_SUCCESS, buffer⟩
  | some (.ok (.names volumeName fileName)) => some (storePath volumeName fileName buffer)

end FinalPath
end ClamavWin32
