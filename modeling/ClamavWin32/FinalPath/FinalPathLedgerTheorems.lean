import ClamavWin32.FinalPath.FinalPathLedger
import ClamavWin32.FinalPath.FinalPathNameTheorems

/-!
# The ledger and the final path

A function with its events does what it does without them.

* `volumeGUIDRun_fst`, `volumeDosLetterRun_fst`, `normalizeRun_fst`: the helpers;
* `getFinalPathNameByHandleWRun_fst`: the function itself.
-/

namespace ClamavWin32
namespace FinalPath

variable {env : Environment} {rounds : ℕ} {hFile : Option Addr} {dwFlags : UInt32}

lemma queryNameRun_fst {allocation : Allocation} {ask : ℕ → NameQuery} {n round : ℕ} :
    (queryNameRun env allocation ask n round).map (fun r => r.1.map Block.name) =
      queryName env allocation ask n round := by
  induction n generalizing round with
  | zero => rfl
  | succ n ih =>
    rw [queryNameRun, queryName]
    by_cases halloc : (!env.rtlAllocateHeap allocation round) = true
    · rw [if_pos halloc, if_pos halloc]
      rfl
    · rw [if_neg halloc, if_neg halloc]
      dsimp only
      by_cases hmore : (ask round).status = STATUS_BUFFER_OVERFLOW
      · rw [if_pos hmore, if_pos hmore, ← ih, Option.map_map]
        rfl
      · rw [if_neg hmore, if_neg hmore]
        split
        · rfl
        · rfl

lemma objectNTNameRun_fst :
    (objectNTNameRun env rounds).map (fun r => r.1.map Block.name) =
      basepGetObjectNTName env rounds := queryNameRun_fst

lemma fileNameInformationRun_fst {cls : FileInformationClass} :
    (fileNameInformationRun env rounds cls).map (fun r => r.1.map Block.name) =
      basepGetFileNameInformation env rounds cls := queryNameRun_fst

/-- What the loop yields, without the buffer. -/
def ioctlResult {α : Type*} : Except (ErrorCode × Option Resource) (α × Resource) →
    Except ErrorCode α
  | .error (e, _) => .error e
  | .ok (output, _) => .ok output

lemma ioctlLoopRun_fst {α : Type*} {allocation : Allocation} {ask : ℕ → Ioctl α} {n round : ℕ}
    {success : Bool} :
    (ioctlLoopRun env allocation ask n round success).map (fun r => ioctlResult r.1) =
      ioctlLoop env allocation ask n round success := by
  induction n generalizing round success with
  | zero => rfl
  | succ n ih =>
    rw [ioctlLoopRun, ioctlLoop]
    by_cases halloc : (!env.rtlAllocateHeap allocation round) = true
    · rw [if_pos halloc, if_pos halloc]
      split
      · rfl
      · rfl
    · rw [if_neg halloc, if_neg halloc]
      dsimp only
      by_cases hmore : (ask round).lastError = ERROR_MORE_DATA
      · rw [if_pos hmore, if_pos hmore, ← ih, Option.map_map]
        rfl
      · rw [if_neg hmore, if_neg hmore]
        split
        · rfl
        · rfl

lemma scanMountPointsRun_fst {i : ℕ} {points : List (List UInt16)} {result : Bool}
    {volumeName : Option Block} :
    ((scanMountPointsRun env i points result volumeName).1,
        (scanMountPointsRun env i points result volumeName).2.1.map Block.name) =
      scanMountPoints env i points result (volumeName.map Block.name) := by
  induction points generalizing i result volumeName with
  | nil => rfl
  | cons link points ih =>
    rw [scanMountPointsRun, scanMountPoints]
    by_cases hvolume : (!mountmgrIsVolumeName2 link) = true
    · rw [if_pos hvolume, if_pos hvolume]
      exact ih
    · rw [if_neg hvolume, if_neg hvolume]
      by_cases halloc : (!env.rtlAllocateHeap .VolumeName i) = true
      · rw [if_pos halloc, if_pos halloc]
        rfl
      · rw [if_neg halloc, if_neg halloc]
        exact ih

lemma volumeGUIDRun_fst {src : WString} :
    (volumeGUIDRun env rounds src).map (fun r => r.1.map (Option.map Block.name)) =
      basepGetVolumeGUIDFromNTName env rounds src := by
  rw [volumeGUIDRun, basepGetVolumeGUIDFromNTName, ← ioctlLoopRun_fst]
  dsimp only
  split
  · rfl
  · split
    · rfl
    · split
      · rfl
      · cases hloop : ioctlLoopRun env .MountPoints (env.queryPoints src) rounds 0 false with
        | none => rfl
        | some r =>
          obtain ⟨result, events⟩ := r
          cases result with
          | error e => rfl
          | ok output =>
            obtain ⟨points, mountPoints⟩ := output
            have hscan : scanMountPoints env 0 points false none = _ :=
              (@scanMountPointsRun_fst env 0 points false none).symm
            cases hrun : scanMountPointsRun env 0 points false none with
            | mk result scanned =>
              rw [hrun] at hscan
              simp only [Option.map_some, ioctlResult, hrun, hscan]
              cases result with
              | false => rfl
              | true => rfl

lemma drivePathRun_fst (result : Except ErrorCode WString) :
    (drivePathRun result).1.map Block.name = result := by
  cases result with
  | error e => rfl
  | ok name => rfl

lemma volumeDosLetterRun_fst {src : WString} :
    (volumeDosLetterRun env rounds src).map (fun r => r.1.map Block.name) =
      basepGetVolumeDosLetterNameFromNTName env rounds src := by
  rw [volumeDosLetterRun, basepGetVolumeDosLetterNameFromNTName, ← ioctlLoopRun_fst]
  dsimp only
  split
  · exact congrArg some (drivePathRun_fst _)
  · split
    · exact congrArg some (drivePathRun_fst _)
    · split
      · rfl
      · split
        · rfl
        · split
          · rfl
          · cases hloop : ioctlLoopRun env .Buffer (env.queryDosVolumePath src) rounds 0 false with
            | none => rfl
            | some r =>
              obtain ⟨result, events⟩ := r
              cases result with
              | error e => rfl
              | ok output =>
                obtain ⟨fileName, buffer⟩ := output
                simp only [Option.map_some, ioctlResult]
                split
                · rfl
                · rfl

lemma volumeNameRun_fst {type : VolumeNameType} {ntObjectName : Block} {fileName : WString} :
    (volumeNameRun env rounds type ntObjectName fileName).map
        (fun r => r.1.map (Option.map Block.name)) =
      volumeName env rounds type ntObjectName.name fileName := by
  cases type with
  | NT => rfl
  | GUID =>
    rw [volumeNameRun, volumeName, ← volumeGUIDRun_fst]
    cases volumeGUIDRun env rounds ntObjectName.name with
    | none => rfl
    | some r =>
      obtain ⟨result, events⟩ := r
      cases result with
      | error e => rfl
      | ok name => rfl
  | DOS =>
    rw [volumeNameRun, volumeName, ← volumeDosLetterRun_fst]
    cases volumeDosLetterRun env rounds ntObjectName.name with
    | none => rfl
    | some r =>
      obtain ⟨result, events⟩ := r
      cases result with
      | ok name => rfl
      | error e =>
        simp only [Option.map_some, Except.map]
        split
        · rfl
        · simp only [Option.map_some]
          cases basepGetVolumeDosLetterNameFromNTNameAndFileName env.drives ntObjectName.name
              fileName with
          | error e => rfl
          | ok name => rfl

lemma longPathSourceRun_fst {type : VolumeNameType} {name : Option WString} :
    (longPathSourceRun env rounds type name).map (fun r => r.1.map Prod.fst) =
      longPathSource env rounds type name := by
  cases type with
  | GUID => rfl
  | DOS => rfl
  | NT =>
    cases name with
    | none => rfl
    | some srcName =>
      simp only [longPathSourceRun, longPathSource]
      rw [← volumeDosLetterRun_fst, ← volumeGUIDRun_fst]
      cases volumeDosLetterRun env rounds srcName with
      | none => rfl
      | some r =>
        obtain ⟨result, events⟩ := r
        cases result with
        | ok dest => rfl
        | error e =>
          simp only [Option.map_some, Except.map]
          split
          · rfl
          · cases volumeGUIDRun env rounds srcName with
            | none => rfl
            | some r =>
              obtain ⟨result, events'⟩ := r
              cases result with
              | error e => rfl
              | ok dest =>
                cases dest with
                | none => rfl
                | some dest => rfl

lemma viaLongPathRun_fst {type : VolumeNameType} {name : Option WString} {fileName : WString} :
    (viaLongPathRun env rounds type name fileName).map Prod.fst =
      viaLongPath env rounds type name fileName := by
  rw [viaLongPathRun, viaLongPath, ← longPathSourceRun_fst]
  cases longPathSourceRun env rounds type name with
  | none => rfl
  | some r =>
    obtain ⟨result, events⟩ := r
    cases result with
    | error e => rfl
    | ok found =>
      obtain ⟨source, dest⟩ := found
      cases source with
      | none => rfl
      | some source =>
        simp only [Option.map_some, Except.map]
        split
        · rfl
        · split
          · rfl
          · cases getLongPathNameW env.longPath (source ++ fileName)
                (fileName.length + source.length + 1) with
            | error e => rfl
            | ok long =>
              simp only
              split
              · rfl
              · split
                · rfl
                · rfl

lemma normalizeRun_fst {type : VolumeNameType} {name : Option WString} {fileName : Block} :
    (normalizeRun env rounds dwFlags type name fileName).map Prod.fst =
      normalize env rounds dwFlags type name fileName.name := by
  rw [normalizeRun, normalize, ← fileNameInformationRun_fst]
  split
  · rfl
  · cases fileNameInformationRun env rounds .FileNormalizedNameInformation with
    | none => rfl
    | some r =>
      obtain ⟨result, events⟩ := r
      cases result with
      | ok normalizedName => rfl
      | error e =>
        simp only [Option.map_some, Except.map]
        split
        · rw [← viaLongPathRun_fst, Option.map_map]
          rfl
        · rfl

lemma findPathRun_fst :
    (findPathRun env rounds hFile dwFlags).map Prod.fst = findPath env rounds hFile dwFlags := by
  unfold findPathRun findPath queryNames
  rw [← objectNTNameRun_fst, ← fileNameInformationRun_fst]
  cases hFile with
  | none => rfl
  | some hFile =>
    cases volumeNameType dwFlags with
    | none => rfl
    | some type =>
      cases objectNTNameRun env rounds with
      | none => rfl
      | some r =>
        obtain ⟨result, events⟩ := r
        cases result with
        | error e => rfl
        | ok ntObjectName =>
          cases fileNameInformationRun env rounds .FileNameInformation with
          | none => rfl
          | some r =>
            obtain ⟨result, events'⟩ := r
            cases result with
            | error e => rfl
            | ok fileName =>
              simp only [Option.map_some, Except.map]
              split
              · rfl
              · split
                · rfl
                · -- from here on the object name ends where the name of the file begins
                  generalize ntObjectName.name.take
                    (ntObjectName.name.length - fileName.name.length) = src
                  have hname := @volumeNameRun_fst env rounds type ⟨src, ntObjectName.resource⟩
                    fileName.name
                  simp only [splitRun, ← hname]
                  cases volumeNameRun env rounds type ⟨src, ntObjectName.resource⟩
                      fileName.name with
                  | none => rfl
                  | some r =>
                    obtain ⟨result, events''⟩ := r
                    cases result with
                    | error e => rfl
                    | ok name =>
                      simp only [Option.map_some, Except.map]
                      rw [← normalizeRun_fst]
                      cases normalizeRun env rounds dwFlags type (name.map Block.name) fileName with
                      | none => rfl
                      | some r => rfl

/-- **The run** does what the function does. -/
theorem getFinalPathNameByHandleWRun_fst (buffer : List UInt16) :
    (getFinalPathNameByHandleWRun env rounds hFile buffer dwFlags).map Prod.fst =
      getFinalPathNameByHandleW env rounds hFile buffer dwFlags := by
  rw [getFinalPathNameByHandleWRun, getFinalPathNameByHandleW, ← findPathRun_fst]
  cases findPathRun env rounds hFile dwFlags with
  | none => rfl
  | some r =>
    obtain ⟨result, events⟩ := r
    cases result with
    | error e => rfl
    | ok found =>
      cases found with
      | longPathLength length => rfl
      | names name fileName => rfl

end FinalPath
end ClamavWin32
