import ClamavWin32.FinalPath.FinalPathName
import ClamavWin32.Semantics.ResourceLedger

/-!
# The ledger of a final path

`GetFinalPathNameByHandleW` and the functions that find its names, with the blocks that they
allocate and free and the device that they open and close.

Each function here is the one of the same name with the list of what it acquires and releases
in front of its return. A pointer to a block is the string in it and the resource that it is.
`RtlFreeHeap` of `NULL` does nothing and is left out. `GetLongPathNameW` frees its own blocks.
-/

namespace ClamavWin32
namespace FinalPath

open ResourceEvent

/-! ## Resources -/

inductive Resource where
  /-- A block that is allocated in a round of its loop. -/
  | block (allocation : Allocation) (round : ℕ)
  /-- The block for the path of a drive or for `\\?\UNC`. -/
  | drivePath
  /-- The handle to the mount manager. -/
  | device
  deriving DecidableEq, Repr

abbrev Event := ResourceEvent Resource

/-- A string in a block. -/
structure Block where
  name : WString
  resource : Resource

/-- `if (p) RtlFreeHeap(GetProcessHeap(), 0, p)` -/
def freeHeap : Option Resource → List Event
  | none => []
  | some resource => [release resource]

/-! ## Names -/

/-- The loop of `BasepGetObjectNTName` and `BasepGetFileNameInformation`. -/
def queryNameRun (env : Environment) (allocation : Allocation) (ask : ℕ → NameQuery) :
    ℕ → ℕ → Option (Except ErrorCode Block × List Event)
  | 0, _ => none
  | n + 1, round =>
    if !env.rtlAllocateHeap allocation round then some (.error ERROR_NO_SYSTEM_RESOURCES, [])
    else
      let answer := ask round
      let resource : Resource := .block allocation round
      if answer.status = STATUS_BUFFER_OVERFLOW then
        -- the next round frees the block before it allocates one
        (queryNameRun env allocation ask n (round + 1)).map fun (result, events) =>
          (result, acquire resource :: release resource :: events)
      else if !NT_SUCCESS answer.status then
        some (.error (env.rtlNtStatusToDosError answer.status),
          [acquire resource, release resource])
      else some (.ok ⟨cString answer.name, resource⟩, [acquire resource])

/-- `BasepGetObjectNTName` -/
def objectNTNameRun (env : Environment) (rounds : ℕ) :
    Option (Except ErrorCode Block × List Event) :=
  queryNameRun env .NtObjectName env.ntQueryObject rounds 0

/-- `BasepGetFileNameInformation` -/
def fileNameInformationRun (env : Environment) (rounds : ℕ) (cls : FileInformationClass) :
    Option (Except ErrorCode Block × List Event) :=
  queryNameRun env (.fileName cls) (env.ntQueryInformationFile cls) rounds 0

/-! ## Volumes -/

/-- The loop around `DeviceIoControl`, with the buffer that there is behind it. -/
def ioctlLoopRun {α : Type*} (env : Environment) (allocation : Allocation) (ask : ℕ → Ioctl α) :
    ℕ → ℕ → Bool → Option (Except (ErrorCode × Option Resource) (α × Resource) × List Event)
  | 0, _, _ => none
  | n + 1, round, success =>
    if !env.rtlAllocateHeap allocation round then
      if success then none else some (.error (ERROR_NOT_ENOUGH_MEMORY, none), [])
    else
      let answer := ask round
      let resource : Resource := .block allocation round
      if answer.lastError = ERROR_MORE_DATA then
        (ioctlLoopRun env allocation ask n (round + 1) answer.success).map fun (result, events) =>
          (result, acquire resource :: release resource :: events)
      else if !answer.success then
        some (.error (answer.lastError, some resource), [acquire resource])
      else some (.ok (answer.output, resource), [acquire resource])

/-- The loop over the mount points. It stores a block in `*VolumeName` without looking at the
one that is there. -/
def scanMountPointsRun (env : Environment) :
    ℕ → List (List UInt16) → Bool → Option Block → Bool × Option Block × List Event
  | _, [], result, volumeName => (result, volumeName, [])
  | i, symbolicLinkName :: points, result, volumeName =>
    if !mountmgrIsVolumeName2 symbolicLinkName then
      scanMountPointsRun env (i + 1) points result volumeName
    else if !env.rtlAllocateHeap .VolumeName i then (result, none, [])
    else
      let resource : Resource := .block .VolumeName i
      let (result, volumeName, events) := scanMountPointsRun env (i + 1) points true
        (some ⟨cString (symbolicLinkName.set 1 92), resource⟩)
      (result, volumeName, acquire resource :: events)

/-- `BasepGetVolumeGUIDFromNTName` -/
def volumeGUIDRun (env : Environment) (rounds : ℕ) (src : WString) :
    Option (Except ErrorCode (Option Block) × List Event) :=
  let mountPoint : Resource := .block .MountPoint 0
  if env.majorVersion < 5 then some (.error ERROR_NOT_SUPPORTED, [])
  else if !env.createFile then some (.error ERROR_NOT_SUPPORTED, [])
  else if !env.rtlAllocateHeap .MountPoint 0 then
    some (.error ERROR_NOT_ENOUGH_MEMORY, [acquire .device, release .device])
  else
    match ioctlLoopRun env .MountPoints (env.queryPoints src) rounds 0 false with
    | none => none
    | some (.error (e, mountPoints), events) =>
      some (.error e, [acquire .device, acquire mountPoint] ++ events ++ [release .device] ++
        [release mountPoint] ++ freeHeap mountPoints)
    | some (.ok (points, mountPoints), events) =>
      let (result, volumeName, scanned) := scanMountPointsRun env 0 points false none
      let events := [acquire .device, acquire mountPoint] ++ events ++ [release .device] ++
        scanned ++ [release mountPoint] ++ [release mountPoints]
      some (if result then .ok volumeName else .error ERROR_NOT_SUPPORTED, events)

/-- `UncPath`, or the path of a drive. -/
def drivePathRun (result : Except ErrorCode WString) : Except ErrorCode Block × List Event :=
  match result with
  | .error e => (.error e, [])
  | .ok name => (.ok ⟨name, .drivePath⟩, [acquire .drivePath])

/-- `BasepGetVolumeDosLetterNameFromNTName` -/
def volumeDosLetterRun (env : Environment) (rounds : ℕ) (src : WString) :
    Option (Except ErrorCode Block × List Event) :=
  let targetName : Resource := .block .TargetName 0
  if wcsnicmpEq src (wide "\\Device\\Mup") 11 then some (drivePathRun (uncPath env.drives))
  else if wcsnicmpEq src (wide "\\??\\") 4 ∧ src.length = 6 ∧ charAt src 5 = 58 ∧
      env.iswalpha (charAt src 4) then
    some (drivePathRun (letterPath env.drives (charAt src 4)))
  else if env.majorVersion < 5 then some (.error ERROR_NOT_SUPPORTED, [])
  else if !env.createFile then some (.error ERROR_NOT_SUPPORTED, [])
  -- the device is not closed
  else if !env.rtlAllocateHeap .TargetName 0 then
    some (.error ERROR_NOT_ENOUGH_MEMORY, [acquire .device])
  else
    match ioctlLoopRun env .Buffer (env.queryDosVolumePath src) rounds 0 false with
    | none => none
    | some (.error (e, buffer), events) =>
      some (.error e, [acquire .device, acquire targetName] ++ events ++ [release .device] ++
        [release targetName] ++ freeHeap buffer)
    | some (.ok (fileName, buffer), events) =>
      let events := [acquire .device, acquire targetName] ++ events ++ [release .device] ++
        [release targetName]
      if mountmgrIsVolumeName2 fileName then
        some (.error ERROR_PATH_NOT_FOUND, events ++ [release buffer])
      else some (.ok ⟨cString (wide "\\\\?\\" ++ fileName), buffer⟩, events)

/-! ## GetFinalPathNameByHandleW -/

/-- The `switch` over the type. For `VOLUME_NAME_NT` the block of the object name becomes that
of the volume name. -/
def volumeNameRun (env : Environment) (rounds : ℕ) (type : VolumeNameType)
    (ntObjectName : Block) (fileName : WString) :
    Option (Except ErrorCode (Option Block) × List Event) :=
  match type with
  | .GUID =>
    match volumeGUIDRun env rounds ntObjectName.name with
    | some (.error e, events) =>
      some (.error (if e = ERROR_INVALID_FUNCTION then ERROR_PATH_NOT_FOUND else e), events)
    | r => r
  | .NT => some (.ok (some ntObjectName), [])
  | .DOS =>
    match volumeDosLetterRun env rounds ntObjectName.name with
    | none => none
    | some (.ok name, events) => some (.ok (some name), events)
    | some (.error e, events) =>
      if e ≠ ERROR_INVALID_FUNCTION ∧ e ≠ ERROR_NOT_SUPPORTED then some (.error e, events)
      else
        let (result, allocated) := drivePathRun (basepGetVolumeDosLetterNameFromNTNameAndFileName
          env.drives ntObjectName.name fileName)
        some (result.map some, events ++ allocated)

/-- `Source` and `Dest` of the normalisation. -/
def longPathSourceRun (env : Environment) (rounds : ℕ) (type : VolumeNameType)
    (volumeName : Option WString) :
    Option (Except ErrorCode (Option WString × Option Resource) × List Event) :=
  match type, volumeName with
  | .NT, some srcName =>
    match volumeDosLetterRun env rounds srcName with
    | none => none
    | some (.ok dest, events) => some (.ok (some dest.name, some dest.resource), events)
    | some (.error e, events) =>
      if e = ERROR_NOT_ENOUGH_MEMORY then some (.error e, events)
      else
        match volumeGUIDRun env rounds srcName with
        | none => none
        | some (.error e, events') => some (.error e, events ++ events')
        | some (.ok none, events') => some (.ok (some srcName, none), events ++ events')
        | some (.ok (some dest), events') =>
          some (.ok (some dest.name, some dest.resource), events ++ events')
  | _, volumeName => some (.ok (volumeName, none), [])

/-- The part of the normalisation that calls `GetLongPathNameW`. The block with the long path
is freed unless a long path was stored in it. -/
def viaLongPathRun (env : Environment) (rounds : ℕ) (type : VolumeNameType)
    (volumeName : Option WString) (fileName : WString) :
    Option (Except ErrorCode Found × List Event) :=
  match longPathSourceRun env rounds type volumeName with
  | none => none
  | some (.error e, events) => some (.error e, events)
  | some (.ok (none, _), _) => none
  | some (.ok (some source, dest), events) =>
    let length := fileName.length + source.length + 1
    let resource : Resource := .block .normalizedName 0
    if !env.rtlAllocateHeap .normalizedName 0 then
      some (.error ERROR_NOT_ENOUGH_MEMORY, events ++ freeHeap dest)
    else if STRSAFE_MAX_CCH < length then none
    else
      match getLongPathNameW env.longPath (source ++ fileName) length with
      | .error e =>
        some (.error e, events ++ [acquire resource] ++ [release resource] ++ freeHeap dest)
      | .ok (longPathLength, normalizedName) =>
        if length ≤ longPathLength then
          let destlen := ((volumeName.map List.length).getD 0)
          some (.ok (.longPathLength (destlen + (longPathLength - source.length))),
            events ++ [acquire resource] ++ [release resource] ++ freeHeap dest)
        else if normalizedName.length + 1 < source.length then none
        else
          some (.ok (.names volumeName fileName), events ++ [acquire resource] ++ freeHeap dest)

/-- The normalisation of the name of the file, with the block that the name is in then. -/
def normalizeRun (env : Environment) (rounds : ℕ) (dwFlags : UInt32) (type : VolumeNameType)
    (volumeName : Option WString) (fileName : Block) :
    Option (Except ErrorCode Found × Resource × List Event) :=
  if hasFlag dwFlags FILE_NAME_OPENED then
    some (.ok (.names volumeName fileName.name), fileName.resource, [])
  else
    match fileNameInformationRun env rounds .FileNormalizedNameInformation with
    | none => none
    | some (.ok normalizedName, events) =>
      some (.ok (.names volumeName normalizedName.name), normalizedName.resource,
        events ++ [release fileName.resource])
    | some (.error e, events) =>
      if notNormalized e then
        (viaLongPathRun env rounds type volumeName fileName.name).map fun (result, events') =>
          (result, fileName.resource, events ++ events')
      else some (.error e, fileName.resource, events)

/-- The label `cleanup`. -/
def cleanup (ntObjectName fileName volumeName : Option Resource) : List Event :=
  freeHeap ntObjectName ++ freeHeap fileName ++ freeHeap volumeName

/-- The block that `NtObjectName` points to behind the `switch`. -/
def keptObject (type : VolumeNameType) (ntObjectName : Block) : Option Resource :=
  match type with
  | .NT => none
  | _ => some ntObjectName.resource

/-- `GetFinalPathNameByHandleW` from behind the check of the lengths on. -/
def splitRun (env : Environment) (rounds : ℕ) (dwFlags : UInt32) (type : VolumeNameType)
    (ntObjectName fileName : Block) : Option (Except ErrorCode Found × List Event) :=
  match volumeNameRun env rounds type ntObjectName fileName.name with
  | none => none
  | some (.error e, events) =>
    some (.error e,
      events ++ cleanup (keptObject type ntObjectName) (some fileName.resource) none)
  | some (.ok volumeName, events) =>
    match normalizeRun env rounds dwFlags type (volumeName.map Block.name) fileName with
    | none => none
    | some (result, resource, events') =>
      some (result, events ++ events' ++ cleanup (keptObject type ntObjectName) (some resource)
        (volumeName.map Block.resource))

/-- `GetFinalPathNameByHandleW`; what is stored in the caller's buffer takes no block. -/
def findPathRun (env : Environment) (rounds : ℕ) (hFile : Option Addr) (dwFlags : UInt32) :
    Option (Except ErrorCode Found × List Event) :=
  match hFile, volumeNameType dwFlags with
  | none, _ => some (.error ERROR_INVALID_HANDLE, [])
  | some _, none => some (.error ERROR_INVALID_PARAMETER, [])
  | some _, some type =>
    match objectNTNameRun env rounds with
    | none => none
    | some (.error e, events) => some (.error e, events)
    | some (.ok ntObjectName, events) =>
      match fileNameInformationRun env rounds .FileNameInformation with
      | none => none
      | some (.error e, events') =>
        some (.error e, events ++ events' ++ [release ntObjectName.resource])
      | some (.ok fileName, events') =>
        if charAt fileName.name 0 ≠ 92 then
          some (.error ERROR_ACCESS_DENIED,
            events ++ events' ++ [release ntObjectName.resource] ++ [release fileName.resource])
        else if ntObjectName.name.length < fileName.name.length then none
        else
          let src := ntObjectName.name.take (ntObjectName.name.length - fileName.name.length)
          (splitRun env rounds dwFlags type ⟨src, ntObjectName.resource⟩ fileName).map
            fun (result, events'') => (result, events ++ events' ++ events'')

/-- What `GetFinalPathNameByHandleW` returns, with its events. -/
def getFinalPathNameByHandleWRun (env : Environment) (rounds : ℕ) (hFile : Option Addr)
    (buffer : List UInt16) (dwFlags : UInt32) : Option (Result × List Event) :=
  match findPathRun env rounds hFile dwFlags with
  | none => none
  | some (.error e, events) => some (⟨0, some e, buffer⟩, events)
  | some (.ok (.longPathLength length), events) =>
    some (⟨UInt32.ofNat (length + 1), some ERROR_SUCCESS, buffer⟩, events)
  | some (.ok (.names volumeName fileName), events) =>
    some (storePath volumeName fileName buffer, events)

end FinalPath
end ClamavWin32
