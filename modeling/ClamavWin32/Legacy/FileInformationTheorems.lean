import ClamavWin32.Legacy.FileInformation

/-!
# Renaming a file by its handle

* `UsesName`: a target is the name of the request, by its length;
* `Honours`: a call uses the name of its request, and leaves the caller's handle as it was;
* `handlesAfter_of_not_rename`: no other request closes a handle;
* `usesName_cString_iff`: when the name is what stands before the first terminator;
* `honours_iff`: a request is honoured only where nothing is renamed.
-/

namespace ClamavWin32
namespace FileInformation

variable {φ : Type*}

/-- The target is exactly the first `FileNameLength` bytes of `FileName`. -/
def UsesName (target : WString) (info : FileRenameInfo) : Prop :=
  2 * target.length = info.FileNameLength.toNat ∧ target <+: info.FileName

/-- Each target is the name of the request, and the handle is open on the same file as before. -/
structure Honours (handles : Handles φ) (hFile : Addr) (info : FileRenameInfo)
    (calls : List SysCall) : Prop where
  target : ∀ source target flags, .MoveFileExW source target flags ∈ calls →
    UsesName target info
  handle : handlesAfter handles calls hFile = handles hFile

/-- The request for a new name, in one of its two classes. -/
def renameRequest (ex : Bool) (info : FileRenameInfo) : Information :=
  if ex then .renameEx info else .rename info

lemma setFileInformationByHandle_rename (env : Environment) (hFile : Addr) (ex : Bool)
    (info : FileRenameInfo) (dwBufferSize : ℕ) :
    setFileInformationByHandle env (some hFile) (some (renameRequest ex info)) dwBufferSize =
      renameByPath env hFile info dwBufferSize := by
  cases ex <;> rfl

/-! ## The other requests -/

/-- **Frame.** A request that is not for a new name closes no handle. -/
lemma handlesAfter_of_not_rename (env : Environment) (handles : Handles φ)
    (hFile : Option Addr) (info : Information) (dwBufferSize : ℕ)
    (hinfo : ∀ ex name, info ≠ renameRequest ex name) :
    handlesAfter handles
      (setFileInformationByHandle env hFile (some info) dwBufferSize).2.2 = handles := by
  -- what reaches `NtSetInformationFile` closes nothing
  have hnt (h : Addr) : handlesAfter handles (setByNt env h info).2.2 = handles := by
    unfold setByNt
    cases env.rtlAllocateHeap with
    | false => rfl
    | true => cases env.ntSetInformationFile <;> rfl
  rcases hFile with _ | hFile
  · rfl
  cases info with
  | basic basicInfo =>
    unfold setFileInformationByHandle
    by_cases hsize : dwBufferSize < env.sizeofBasicInfo
    · simp only [if_pos hsize]
      rfl
    · simp only [if_neg hsize]
      exact hnt hFile
  | rename name => exact absurd rfl (hinfo false name)
  | renameEx name => exact absurd rfl (hinfo true name)
  | disposition dispositionInfo =>
    unfold setFileInformationByHandle
    by_cases hsize : dwBufferSize < env.sizeofDispositionInfo
    · simp only [if_pos hsize]
      rfl
    · simp only [if_neg hsize]
      exact hnt hFile
  | other infoClass => rfl

/-! ## The request for a new name -/

section

variable {env : Environment} {hFile : Addr} {info : FileRenameInfo} {dwBufferSize : ℕ}

/-- Where the path is found, the handle is closed and the file is moved. -/
lemma calls_renameByPath (hsize : env.sizeofRenameInfo ≤ dwBufferSize)
    (hpath : env.getFinalPathNameByHandleW ≠ 0) :
    (renameByPath env hFile info dwBufferSize).2.2 =
      [.CloseHandle hFile,
        .MoveFileExW (cString env.sourcePath) (cString info.FileName)
          (if info.ReplaceIfExists then MOVEFILE_REPLACE_EXISTING else 0)] := by
  rw [renameByPath, if_neg (not_lt.mpr hsize), if_neg hpath]

/-- Else nothing is done. -/
lemma calls_renameByPath_nil
    (h : dwBufferSize < env.sizeofRenameInfo ∨ env.getFinalPathNameByHandleW = 0) :
    (renameByPath env hFile info dwBufferSize).2.2 = [] := by
  rw [renameByPath]
  by_cases hsize : dwBufferSize < env.sizeofRenameInfo
  · rw [if_pos hsize]
  · rw [if_neg hsize, if_pos (h.resolve_left hsize)]

/-- The target is the name of the request just if a terminator stands behind it and none
within. -/
lemma usesName_cString_iff (info : FileRenameInfo) :
    UsesName (cString info.FileName) info ↔
      2 * (cString info.FileName).length = info.FileNameLength.toNat :=
  and_iff_left (List.takeWhile_prefix _)

end

/-- **Renaming by a handle**: for a handle that is open, a request is honoured if and only if
it is rejected for its size or the path of the file is not found. In every other case the
handle is closed. -/
theorem honours_iff (env : Environment) (handles : Handles φ) (hFile : Addr) (file : φ)
    (hopen : handles hFile = some file) (ex : Bool) (info : FileRenameInfo)
    (dwBufferSize : ℕ) :
    Honours handles hFile info
      (setFileInformationByHandle env (some hFile) (some (renameRequest ex info))
        dwBufferSize).2.2 ↔
    dwBufferSize < env.sizeofRenameInfo ∨ env.getFinalPathNameByHandleW = 0 := by
  rw [setFileInformationByHandle_rename]
  constructor
  · intro hhonours
    by_contra hnot
    rw [not_or, not_lt] at hnot
    -- the handle is closed before the file is moved, and the file is not opened again
    have hhandle := hhonours.handle
    rw [calls_renameByPath hnot.1 hnot.2, hopen] at hhandle
    have hclosed : handlesAfter handles
        [.CloseHandle hFile,
          .MoveFileExW (cString env.sourcePath) (cString info.FileName)
            (if info.ReplaceIfExists then MOVEFILE_REPLACE_EXISTING else 0)] hFile = none := by
      show Function.update handles hFile none hFile = none
      exact Function.update_self hFile none handles
    rw [hclosed] at hhandle
    exact absurd hhandle (Option.some_ne_none file).symm
  · intro hnothing
    rw [calls_renameByPath_nil hnothing]
    refine ⟨?_, rfl⟩
    intro source target flags hmem
    exact absurd hmem List.not_mem_nil

/-- The answers to a request for a file that is found, or not, and that can be moved. -/
def moving (found : Bool) : Environment where
  sizeofBasicInfo := 40
  sizeofRenameInfo := 24
  sizeofDispositionInfo := 1
  rtlAllocateHeap := true
  ntSetInformationFile := none
  getFinalPathNameByHandleW := if found then 12 else 0
  sourcePath := wide "\\\\?\\C:\\a.txt" ++ [0]
  moveFileExW := true

/-- The name `b`, and behind it what was in the memory before. -/
def sampleRename : FileRenameInfo := ⟨false, 2, [98, 0x4141, 0]⟩

/-- The handle 4 is open on the file 7. -/
def sampleHandles : Handles ℕ := fun h => if h = 4 then some 7 else none

/-- A file whose path is not found stays as it is. -/
theorem honours_notFound :
    Honours sampleHandles 4 sampleRename
      (setFileInformationByHandle (moving false) (some 4)
        (some (renameRequest false sampleRename)) 26).2.2 :=
  (honours_iff (moving false) sampleHandles 4 7 rfl false sampleRename 26).mpr (Or.inr rfl)

/-- A file is moved to a name that goes on behind its length, and its handle is closed. -/
theorem rename_closes :
    setFileInformationByHandle (moving true) (some 4)
        (some (renameRequest false sampleRename)) 26 =
      (true, none, [.CloseHandle 4, .MoveFileExW (wide "\\\\?\\C:\\a.txt") [98, 0x4141] 0]) ∧
    ¬UsesName [98, 0x4141] sampleRename ∧
    handlesAfter sampleHandles
      (setFileInformationByHandle (moving true) (some 4)
        (some (renameRequest false sampleRename)) 26).2.2 4 = none ∧
    ¬Honours sampleHandles 4 sampleRename
      (setFileInformationByHandle (moving true) (some 4)
        (some (renameRequest false sampleRename)) 26).2.2 := by
  have hclosed : handlesAfter sampleHandles
      (setFileInformationByHandle (moving true) (some 4)
        (some (renameRequest false sampleRename)) 26).2.2 4 = none := by decide
  refine ⟨by decide, ?_, hclosed, ?_⟩
  · rintro ⟨hlength, -⟩
    exact absurd hlength (by decide)
  · intro hhonours
    have hhandle := hhonours.handle
    rw [hclosed] at hhandle
    exact absurd hhandle (by decide)

end FileInformation
end ClamavWin32
