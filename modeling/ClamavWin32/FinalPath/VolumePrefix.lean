import ClamavWin32.FinalPath.FinalPathName
import Mathlib.Data.List.TakeWhile

/-!
# Volume names

Whatever way the name of a volume is found in, it is a path into the device namespace, so
that `GetLongPathNameW` leaves what begins with it alone. Only the name that was asked for
as it is in the object manager is not, and where `BasepGetVolumeGUIDFromNTName` succeeds
without a name (`guid_null_iff`) there is none.
-/

namespace ClamavWin32
namespace FinalPath

variable {env : Environment} {rounds : ℕ}

/-! ## Strings -/

lemma zero_notMem_cString (buffer : List UInt16) : 0 ∉ cString buffer := by
  intro h
  have hne := List.mem_takeWhile_imp h
  simp at hne

lemma length_cString_le (buffer : List UInt16) : (cString buffer).length ≤ buffer.length :=
  (List.takeWhile_prefix _).length_le

/-- A string is read up to its end. -/
lemma cString_append {s rest : List UInt16} (hs : 0 ∉ s) :
    cString (s ++ rest) = s ++ cString rest := by
  unfold cString
  rw [List.takeWhile_append_of_pos]
  intro c hc
  rw [decide_eq_true_eq]
  intro h0
  rw [h0] at hc
  exact hs hc

/-! ## What the queries answer -/

/-- No name that the system gives has more than 32767 characters. -/
structure Environment.Documented (env : Environment) : Prop where
  ntQueryObject : ∀ round, (env.ntQueryObject round).name.length < 2 ^ 15
  ntQueryInformationFile : ∀ cls round,
    (env.ntQueryInformationFile cls round).name.length < 2 ^ 15
  queryPoints : ∀ src round, ∀ link ∈ (env.queryPoints src round).output,
    link.length < 2 ^ 15
  queryDosVolumePath : ∀ src round, (env.queryDosVolumePath src round).output.length < 2 ^ 15

/-- The name found is that of an answer. -/
lemma queryName_eq_ok {allocation : Allocation} {ask : ℕ → NameQuery} {n round : ℕ}
    {name : WString} (h : queryName env allocation ask n round = some (.ok name)) :
    ∃ k, name = cString (ask k).name := by
  induction n generalizing round with
  | zero => cases h
  | succ n ih =>
    rw [queryName] at h
    by_cases halloc : (!env.rtlAllocateHeap allocation round) = true
    · rw [if_pos halloc] at h
      cases h
    · rw [if_neg halloc] at h
      by_cases hmore : (ask round).status = STATUS_BUFFER_OVERFLOW
      · simp only [if_pos hmore] at h
        exact ih h
      · simp only [if_neg hmore] at h
        by_cases hstatus : (!NT_SUCCESS (ask round).status) = true
        · rw [if_pos hstatus] at h
          cases h
        · rw [if_neg hstatus] at h
          exact ⟨round, (Except.ok.inj (Option.some.inj h)).symm⟩

/-- What the control code yields is an answer of the driver. -/
lemma ioctlLoop_eq_ok {α : Type*} {allocation : Allocation} {ask : ℕ → Ioctl α}
    {n round : ℕ} {success : Bool} {output : α}
    (h : ioctlLoop env allocation ask n round success = some (.ok output)) :
    ∃ k, output = (ask k).output := by
  induction n generalizing round success with
  | zero => cases h
  | succ n ih =>
    rw [ioctlLoop] at h
    by_cases halloc : (!env.rtlAllocateHeap allocation round) = true
    · rw [if_pos halloc] at h
      split at h <;> cases h
    · rw [if_neg halloc] at h
      by_cases hmore : (ask round).lastError = ERROR_MORE_DATA
      · simp only [if_pos hmore] at h
        exact ih h
      · simp only [if_neg hmore] at h
        by_cases hsuccess : (!(ask round).success) = true
        · rw [if_pos hsuccess] at h
          cases h
        · rw [if_neg hsuccess] at h
          exact ⟨round, (Except.ok.inj (Option.some.inj h)).symm⟩

/-! ## Paths into the device namespace -/

/-- The name of a volume that `GetLongPathNameW` takes for a device. -/
structure DeviceName (name : WString) : Prop where
  isDevicePath : IsDevicePath name
  zero_notMem : 0 ∉ name
  length_lt : name.length < 2 ^ 15 + 4

lemma deviceName_uncPath {drives : DriveEnvironment} {name : WString}
    (h : uncPath drives = .ok name) : DeviceName name := by
  rw [uncPath] at h
  split at h
  · obtain rfl := Except.ok.inj h
    constructor
    · exact ⟨wide "UNC", rfl⟩
    · decide
    · decide
  · cases h

lemma deviceName_letterPath {drives : DriveEnvironment} {letter : UInt16} {name : WString}
    (hletter : letter ≠ 0) (h : letterPath drives letter = .ok name) : DeviceName name := by
  rw [letterPath] at h
  split at h
  · obtain rfl := Except.ok.inj h
    have hname : (wide "\\\\?\\X:").set 4 letter = [92, 92, 63, 92, letter, 58] := rfl
    rw [hname]
    constructor
    · exact ⟨[letter, 58], rfl⟩
    · simpa [eq_comm] using hletter
    · show 6 < 2 ^ 15 + 4
      omega
  · cases h

/-- A drive letter, or the path of a remote file. -/
lemma tryDrive_cases {drives : DriveEnvironment} {src fileName driveLetter : WString}
    {letter : UInt16} {result : Except ErrorCode WString}
    (h : tryDrive drives src fileName letter driveLetter = some result) :
    result = uncPath drives ∨ result = letterPath drives letter := by
  have hfound (found : Bool × Bool)
      (h : (if found.1 then some (if found.2 then uncPath drives else letterPath drives letter)
        else none) = some result) :
      result = uncPath drives ∨ result = letterPath drives letter := by
    match found with
    | (true, true) => exact Or.inl (Option.some.inj h).symm
    | (true, false) => exact Or.inr (Option.some.inj h).symm
    | (false, _) => cases h
  rw [tryDrive] at h
  split at h
  · cases h
  · split at h
    · exact hfound _ h
    · cases h

lemma deviceName_tryDrive {drives : DriveEnvironment} {src fileName driveLetter : WString}
    {letter : UInt16} (hletter : letter ≠ 0) {name : WString}
    (h : tryDrive drives src fileName letter driveLetter = some (.ok name)) :
    DeviceName name := by
  rcases tryDrive_cases h with hunc | hpath
  · exact deviceName_uncPath hunc.symm
  · exact deviceName_letterPath hletter hpath.symm

lemma deviceName_scanDrives {drives : DriveEnvironment} {src fileName : WString}
    {drive : List UInt16} {name : WString}
    (h : scanDrives drives src fileName drive = .ok name) : DeviceName name := by
  fun_induction scanDrives drives src fileName drive with
  | case1 => exact deviceName_uncPath h
  | case2 => exact deviceName_uncPath h
  | case3 letter rest hletter result htry =>
    rw [h] at htry
    exact deviceName_tryDrive hletter htry
  | case4 letter rest hletter htry ih => exact ih h

lemma deviceName_fallback {drives : DriveEnvironment} {src fileName name : WString}
    (h : basepGetVolumeDosLetterNameFromNTNameAndFileName drives src fileName = .ok name) :
    DeviceName name := by
  rw [basepGetVolumeDosLetterNameFromNTNameAndFileName] at h
  simp only at h
  split at h
  · cases h
  · exact deviceName_scanDrives h

/-- A character of a string is no terminator. -/
lemma charAt_ne_zero {s : WString} (hs : 0 ∉ s) {i : ℕ} (hi : i < s.length) :
    charAt s i ≠ 0 := by
  rw [charAt, List.getElem?_eq_getElem hi, Option.getD_some]
  intro h0
  have hmem := List.getElem_mem hi
  rw [h0] at hmem
  exact hs hmem

lemma deviceName_dosLetter (hdoc : env.Documented) {src name : WString} (hsrc : 0 ∉ src)
    (h : basepGetVolumeDosLetterNameFromNTName env rounds src = some (.ok name)) :
    DeviceName name := by
  rw [basepGetVolumeDosLetterNameFromNTName] at h
  split at h
  · exact deviceName_uncPath (Option.some.inj h)
  · split at h
    · rename_i hletter
      apply deviceName_letterPath _ (Option.some.inj h)
      exact charAt_ne_zero hsrc (by omega)
    · split at h
      · cases h
      · split at h
        · cases h
        · split at h
          · cases h
          · split at h
            · cases h
            · cases h
            · rename_i fileName hioctl
              split at h
              · cases h
              · obtain rfl := Except.ok.inj (Option.some.inj h)
                obtain ⟨k, rfl⟩ := ioctlLoop_eq_ok hioctl
                have hlength := hdoc.queryDosVolumePath src k
                have hle := length_cString_le (env.queryDosVolumePath src k).output
                rw [cString_append (by decide)]
                constructor
                · exact List.prefix_append _ _
                · rw [List.mem_append, not_or]
                  exact ⟨by decide, zero_notMem_cString _⟩
                · rw [List.length_append]
                  show 4 + _ < 2 ^ 15 + 4
                  omega

/-! ## Mount points -/

/-- The first `V` for which `A` fails comes after another one, or after what was `before`. -/
def FailsAfter (V : ℕ → Prop) (A : ℕ → Bool) (before : Prop) : Prop :=
  ∃ j, V j ∧ A j = false ∧ (∀ k < j, V k → A k = true) ∧ (before ∨ ∃ k < j, V k)

section FailsAfter

variable {V : ℕ → Prop} {A : ℕ → Bool} {before : Prop}

lemma failsAfter_of_not (hV : ¬V 0) :
    FailsAfter V A before ↔ FailsAfter (fun k => V (k + 1)) (fun k => A (k + 1)) before := by
  constructor
  · rintro ⟨j, hj, hfails, hok, hbefore⟩
    obtain ⟨j, rfl⟩ : ∃ i, j = i + 1 := by
      apply Nat.exists_eq_succ_of_ne_zero
      rintro rfl
      exact hV hj
    refine ⟨j, hj, hfails, fun k hk => hok (k + 1) (by omega), hbefore.imp_right ?_⟩
    rintro ⟨k, hk, hVk⟩
    cases k with
    | zero => exact absurd hVk hV
    | succ k => exact ⟨k, by omega, hVk⟩
  · rintro ⟨j, hj, hfails, hok, hbefore⟩
    refine ⟨j + 1, hj, hfails, ?_, hbefore.imp_right ?_⟩
    · intro k hk hVk
      cases k with
      | zero => exact absurd hVk hV
      | succ k => exact hok k (by omega) hVk
    · rintro ⟨k, hk, hVk⟩
      exact ⟨k + 1, by omega, hVk⟩

lemma failsAfter_of_fails (hV : V 0) (hA : A 0 = false) : FailsAfter V A before ↔ before := by
  constructor
  · rintro ⟨j, -, -, hok, hbefore | ⟨k, hk, -⟩⟩
    · exact hbefore
    · rw [hok 0 (by omega) hV] at hA
      cases hA
  · intro hbefore
    refine ⟨0, hV, hA, ?_, Or.inl hbefore⟩
    intro k hk
    omega

lemma failsAfter_of_ok (hV : V 0) (hA : A 0 = true) :
    FailsAfter V A before ↔ FailsAfter (fun k => V (k + 1)) (fun k => A (k + 1)) True := by
  constructor
  · rintro ⟨j, hj, hfails, hok, -⟩
    cases j with
    | zero =>
      rw [hA] at hfails
      cases hfails
    | succ j => exact ⟨j, hj, hfails, fun k hk => hok (k + 1) (by omega), Or.inl trivial⟩
  · rintro ⟨j, hj, hfails, hok, -⟩
    refine ⟨j + 1, hj, hfails, ?_, Or.inr ⟨0, Nat.succ_pos j, hV⟩⟩
    intro k hk hVk
    cases k with
    | zero => exact hA
    | succ k => exact hok k (by omega) hVk

end FailsAfter

/-- The mount point at an index is the name of a volume. -/
def VolumeAt (points : List (List UInt16)) (i : ℕ) : Prop :=
  ∃ link, points[i]? = some link ∧ mountmgrIsVolumeName2 link = true

lemma volumeAt_zero {link : List UInt16} {points : List (List UInt16)} :
    VolumeAt (link :: points) 0 ↔ mountmgrIsVolumeName2 link = true := by
  unfold VolumeAt
  simp

/-- When the loop ends with `TRUE` and `NULL`. -/
lemma scanMountPoints_eq_null {i : ℕ} {points : List (List UInt16)} {result : Bool}
    {volumeName : Option WString} (hname : result = true → volumeName ≠ none) :
    scanMountPoints env i points result volumeName = (true, none) ↔
      FailsAfter (VolumeAt points) (fun k => env.rtlAllocateHeap .VolumeName (k + i))
        (result = true) := by
  induction points generalizing i result volumeName with
  | nil =>
    constructor
    · intro h
      obtain ⟨rfl, rfl⟩ := Prod.mk.inj h
      exact absurd rfl (hname rfl)
    · rintro ⟨j, ⟨link, hlink, -⟩, -⟩
      cases hlink
  | cons link points ih =>
    have hshift : (fun k => env.rtlAllocateHeap .VolumeName (k + 1 + i)) =
        fun k => env.rtlAllocateHeap .VolumeName (k + (i + 1)) := by
      funext k
      rw [Nat.add_right_comm, Nat.add_assoc]
    rw [scanMountPoints]
    by_cases hvolume : mountmgrIsVolumeName2 link = true
    · rw [if_neg (by rw [hvolume]; decide)]
      cases halloc : env.rtlAllocateHeap .VolumeName i with
      | false =>
        rw [if_pos (by decide), failsAfter_of_fails (volumeAt_zero.mpr hvolume)]
        · simp
        · rw [Nat.zero_add, halloc]
      | true =>
        rw [if_neg (by decide), ih fun _ => Option.some_ne_none _,
          failsAfter_of_ok (volumeAt_zero.mpr hvolume), hshift]
        · simp only
          rfl
        · rw [Nat.zero_add, halloc]
    · rw [if_pos (by simpa using hvolume), ih hname,
        failsAfter_of_not (fun h => hvolume (volumeAt_zero.mp h)), hshift]
      rfl

/-- A name that the loop leaves is that of a mount point. -/
lemma scanMountPoints_eq_name {i : ℕ} {points : List (List UInt16)} {result result' : Bool}
    {volumeName : Option WString} {name : WString}
    (h : scanMountPoints env i points result volumeName = (result', some name)) :
    volumeName = some name ∨ ∃ link ∈ points, mountmgrIsVolumeName2 link = true ∧
      name = cString (link.set 1 92) := by
  induction points generalizing i result volumeName with
  | nil => exact Or.inl (Prod.mk.inj h).2
  | cons link points ih =>
    have hlater : (∃ l ∈ points, mountmgrIsVolumeName2 l = true ∧ name = cString (l.set 1 92)) →
        ∃ l ∈ link :: points, mountmgrIsVolumeName2 l = true ∧ name = cString (l.set 1 92) := by
      rintro ⟨l, hl, hname⟩
      exact ⟨l, List.mem_cons_of_mem _ hl, hname⟩
    rw [scanMountPoints] at h
    split at h
    · exact (ih h).imp_right hlater
    · split at h
      · cases (Prod.mk.inj h).2
      · rename_i hvolume _
        rcases ih h with hname | hlink
        · right
          refine ⟨link, List.mem_cons_self, by simpa using hvolume, ?_⟩
          exact (Option.some.inj hname).symm
        · exact Or.inr (hlater hlink)

/-- The name made of a mount point. -/
lemma deviceName_link {link : List UInt16} (hvolume : mountmgrIsVolumeName2 link = true)
    (hlength : link.length < 2 ^ 15) : DeviceName (cString (link.set 1 92)) := by
  simp only [mountmgrIsVolumeName2, Bool.and_eq_true, decide_eq_true_eq, beq_iff_eq] at hvolume
  obtain ⟨⟨⟨⟨⟨⟨⟨⟨-, hfirst⟩, -⟩, hname⟩, -⟩, -⟩, -⟩, -⟩, -⟩ := hvolume
  match link with
  | [] => cases hfirst
  | [_] => cases hname
  | a :: b :: rest =>
    have hrest : rest = wide "?\\Volume\x7b" ++ rest.drop 9 := by
      have hsplit := (List.take_append_drop 9 rest).symm
      have htake : rest.take 9 = wide "?\\Volume\x7b" := hname.symm
      rwa [htake] at hsplit
    have ha : a = 92 := hfirst
    have hset : (a :: b :: rest).set 1 92 =
        wide "\\\\?\\Volume\x7b" ++ rest.drop 9 := by
      rw [hrest, ha]
      rfl
    have hle := length_cString_le ((a :: b :: rest).set 1 92)
    rw [List.length_set] at hle
    constructor
    · rw [hset, cString_append (by decide)]
      exact ⟨wide "Volume\x7b" ++ cString (rest.drop 9), rfl⟩
    · exact zero_notMem_cString _
    · omega

/-- The links to a device that the mount manager names lose their name. -/
def LosesName (env : Environment) (rounds : ℕ) (src : WString) : Prop :=
  ∃ points, ioctlLoop env .MountPoints (env.queryPoints src) rounds 0 false =
      some (.ok points) ∧
    FailsAfter (VolumeAt points) (env.rtlAllocateHeap .VolumeName) False

/-- `BasepGetVolumeGUIDFromNTName` succeeds without a name if and only if the block for a
name is not allocated after that for an earlier one was. -/
lemma guid_null_iff {src : WString} :
    basepGetVolumeGUIDFromNTName env rounds src = some (.ok none) ↔
      5 ≤ env.majorVersion ∧ env.createFile = true ∧
        env.rtlAllocateHeap .MountPoint 0 = true ∧ LosesName env rounds src := by
  rw [basepGetVolumeGUIDFromNTName]
  by_cases hversion : env.majorVersion < 5
  · rw [if_pos hversion]
    exact iff_of_false nofun fun h => absurd h.1 (by omega)
  rw [if_neg hversion]
  cases hcreate : env.createFile with
  | false => exact iff_of_false nofun fun h => Bool.false_ne_true h.2.1
  | true =>
    cases halloc : env.rtlAllocateHeap .MountPoint 0 with
    | false => exact iff_of_false nofun fun h => Bool.false_ne_true h.2.2.1
    | true =>
      have hversion' : 5 ≤ env.majorVersion := by omega
      simp only [hversion', Bool.not_true, Bool.false_eq_true, if_false, true_and, LosesName]
      match ioctlLoop env .MountPoints (env.queryPoints src) rounds 0 false with
      | none => simp
      | some (.error e) => simp
      | some (.ok points) =>
        have hnull := @scanMountPoints_eq_null env 0 points false none nofun
        simp only [Nat.add_zero, Bool.false_eq_true] at hnull
        simp only [Option.some.injEq, Except.ok.injEq, exists_eq_left', ← hnull]
        match scanMountPoints env 0 points false none with
        | (true, none) => simp
        | (true, some name) => simp
        | (false, name) => simp

lemma deviceName_guid (hdoc : env.Documented) {src name : WString}
    (h : basepGetVolumeGUIDFromNTName env rounds src = some (.ok (some name))) :
    DeviceName name := by
  rw [basepGetVolumeGUIDFromNTName] at h
  split at h
  · cases h
  · split at h
    · cases h
    · split at h
      · cases h
      · split at h
        · cases h
        · cases h
        · rename_i points hioctl
          split at h
          · rename_i volumeName hscan
            obtain rfl := Except.ok.inj (Option.some.inj h)
            rcases scanMountPoints_eq_name hscan with hnone | ⟨link, hlink, hvolume, rfl⟩
            · cases hnone
            · obtain ⟨k, rfl⟩ := ioctlLoop_eq_ok hioctl
              exact deviceName_link hvolume (hdoc.queryPoints src k link hlink)
          · cases h

/-- **Volume names.** Any name of a volume but that in the object manager is a path into the
device namespace. -/
theorem deviceName_volumeName (hdoc : env.Documented) {type : VolumeNameType}
    (htype : type ≠ .NT) {src fileName name : WString} (hsrc : 0 ∉ src)
    (h : volumeName env rounds type src fileName = some (.ok (some name))) :
    DeviceName name := by
  cases type with
  | NT => exact absurd rfl htype
  | GUID =>
    rw [volumeName] at h
    split at h
    · cases h
    · exact deviceName_guid hdoc h
  | DOS =>
    rw [volumeName] at h
    split at h
    · cases h
    · rename_i name' hname
      obtain rfl := Option.some.inj (Except.ok.inj (Option.some.inj h))
      exact deviceName_dosLetter hdoc hsrc hname
    · split at h
      · cases h
      · cases hfallback : basepGetVolumeDosLetterNameFromNTNameAndFileName env.drives src
            fileName with
        | error e =>
          rw [hfallback] at h
          cases h
        | ok name' =>
          rw [hfallback] at h
          obtain rfl := Option.some.inj (Except.ok.inj (Option.some.inj h))
          exact deviceName_fallback hfallback

end FinalPath
end ClamavWin32
