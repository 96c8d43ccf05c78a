import ClamavWin32.FinalPath.DriveLetters

/-!
# When the drive letter is that of the device

* `scanDrives_flatMap`: over the strings of `GetLogicalDriveStringsW`, the loop tries one
  letter after the other.
* `namesRightVolume_iff`: the function yields a letter of the device that it is given if
  and only if, before such a letter, no letter matches. A letter matches when its target
  begins with the name of the device, so `HarddiskVolume10` matches `HarddiskVolume1`.
-/

namespace ClamavWin32
namespace FinalPath

variable {env : DriveEnvironment} {src fileName : WString}

/-! ## What the function is to do -/

/-- `X:` -/
def DriveLetter.name (letter : DriveLetter) : WString := [letter.char, 58]

/-- `\\?\X:` -/
def DriveLetter.path (letter : DriveLetter) : WString := wide "\\\\?\\" ++ letter.name

/-- The device that a letter stands for. -/
def DriveEnvironment.target (env : DriveEnvironment) (letter : DriveLetter) :
    Option WString :=
  env.queryDosDeviceW letter.name

def DriveEnvironment.IsLocal (env : DriveEnvironment) (letter : DriveLetter) : Prop :=
  env.getDriveTypeW letter.name ≠ DRIVE_REMOTE

/-- The device is the target of a local letter. -/
def HasLocalLetter (env : DriveEnvironment) (src : WString) : Prop :=
  ∃ letters, env.logicalDrives = some letters ∧
    ∃ letter ∈ letters, env.target letter = some src ∧ env.IsLocal letter

/-- The function succeeds and yields a letter whose target is the device. -/
def YieldsExactLetter (env : DriveEnvironment) (src fileName : WString) : Prop :=
  ∃ letters, env.logicalDrives = some letters ∧
    ∃ letter ∈ letters, env.target letter = some src ∧
      basepGetVolumeDosLetterNameFromNTNameAndFileName env src fileName = .ok letter.path

/-- A device that has a local letter is resolved to a letter of its own. -/
def NamesRightVolume (env : DriveEnvironment) (src fileName : WString) : Prop :=
  HasLocalLetter env src → YieldsExactLetter env src fileName

/-! ## When it does -/

/-- The target of the letter begins with the name of the device; if it is a share of
`LanmanRedirector`, it is the one that the file is on. -/
def Matches (env : DriveEnvironment) (src fileName : WString) (letter : DriveLetter) : Prop :=
  ∃ target, env.target letter = some target ∧ src <+: target ∧
    (lanmanRedirector <:+: target → isShareOf letter.char target fileName = true)

/-- The list fits its buffer, the path is allocated, and before the first letter that
matches there is none: that letter is local, and its target is the device. -/
def ExactLetterFirst (env : DriveEnvironment) (src fileName : WString) : Prop :=
  ∃ before letter after, env.logicalDrives = some (before ++ letter :: after) ∧
    (before ++ letter :: after).length ≤ 64 ∧
    (∀ other ∈ before, ¬ Matches env src fileName other) ∧
    env.target letter = some src ∧ env.IsLocal letter ∧
    ¬ lanmanRedirector <:+: src ∧ env.rtlAllocateHeap 14 = true

/-! ## One letter -/

lemma letterPath_char (letter : DriveLetter) :
    letterPath env letter.char =
      if env.rtlAllocateHeap 14 then .ok letter.path else .error ERROR_NOT_ENOUGH_MEMORY :=
  rfl

lemma path_inj {letter letter' : DriveLetter} :
    letter.path = letter'.path ↔ letter = letter' := by
  constructor
  · intro h
    have hname : letter.name = letter'.name := List.append_cancel_left h
    exact DriveLetter.ext (List.cons.inj hname).1
  · intro h
    rw [h]

/-- The path of a remote file is not that of a letter. -/
lemma uncPath_ne_path (letter : DriveLetter) : uncPath env ≠ .ok letter.path := by
  intro h
  rw [uncPath] at h
  split at h
  · have hlength := congrArg List.length (Except.ok.inj h)
    simp [DriveLetter.path, DriveLetter.name, wide] at hlength
  · cases h

/-- The body of the loop goes on if and only if the letter does not match. -/
lemma tryDrive_eq_none (letter : DriveLetter) :
    tryDrive env src fileName letter.char letter.name = none ↔
      ¬ Matches env src fileName letter := by
  rw [tryDrive, Matches, DriveEnvironment.target]
  rcases env.queryDosDeviceW letter.name with _ | target
  · simp
  have hstarts := wcsncmpEq_length src target
  by_cases hsrc : src <+: target
  · by_cases hlanman : lanmanRedirector <:+: target
    · simp [hstarts.mpr hsrc, hsrc, hlanman]
    · simp [hstarts.mpr hsrc, hsrc, hlanman]
  · simp [hstarts, hsrc]

/-- The body of the loop returns the path of a letter if and only if that is the letter it
tries, the letter matches, it is local and no share, and the path is allocated. -/
lemma tryDrive_eq_path (letter letter' : DriveLetter) :
    tryDrive env src fileName letter.char letter.name = some (.ok letter'.path) ↔
      letter = letter' ∧ env.rtlAllocateHeap 14 = true ∧ env.IsLocal letter ∧
        ∃ target, env.target letter = some target ∧ src <+: target ∧
          ¬ lanmanRedirector <:+: target := by
  rw [tryDrive, DriveEnvironment.target, DriveEnvironment.IsLocal, letterPath_char]
  rcases env.queryDosDeviceW letter.name with _ | target
  · simp
  have hstarts := wcsncmpEq_length src target
  by_cases hsrc : src <+: target
  · by_cases hlanman : lanmanRedirector <:+: target
    · -- a share has no path of a letter
      by_cases hshare : isShareOf letter.char target fileName = true
      · simp [hstarts.mpr hsrc, hlanman, hshare, uncPath_ne_path]
      · simp [hstarts.mpr hsrc, hlanman, hshare]
    · by_cases hremote : env.getDriveTypeW letter.name = DRIVE_REMOTE
      · simp [hstarts.mpr hsrc, hlanman, hremote, uncPath_ne_path]
      · by_cases halloc : env.rtlAllocateHeap 14 = true
        · simp [hstarts.mpr hsrc, hsrc, hlanman, hremote, halloc, path_inj]
        · simp [hstarts.mpr hsrc, hlanman, hremote, halloc]
  · simp [hstarts, hsrc]

/-! ## The loop -/

/-- Over the strings of the letters, the loop returns what the first letter that matches
makes it return. -/
lemma scanDrives_flatMap (letters : List DriveLetter) :
    scanDrives env src fileName (letters.flatMap driveString) =
      (letters.findSome? fun letter =>
        tryDrive env src fileName letter.char letter.name).getD (uncPath env) := by
  induction letters with
  | nil => simp [scanDrives]
  | cons letter letters ih =>
    have hrest : driveString letter ++ letters.flatMap driveString =
      letter.char :: 58 :: 92 :: 0 :: letters.flatMap driveString := rfl
    rw [List.flatMap_cons, hrest, scanDrives, if_neg letter.ne_zero]
    have hname : cString (letter.char :: [58]) = letter.name := by
      simp [cString, DriveLetter.name, letter.ne_zero]
    have hlength : (cString (58 :: 92 :: 0 :: letters.flatMap driveString)).length = 2 := by
      simp [cString]
    simp only [List.take_succ_cons, List.take_zero, hname, hlength, List.drop_succ_cons,
      List.drop_zero, List.findSome?_cons]
    rcases tryDrive env src fileName letter.char letter.name with _ | result
    · exact ih
    · rfl

/-! ## The function -/

lemma length_flatMap_driveString (letters : List DriveLetter) :
    (letters.flatMap driveString).length = 4 * letters.length := by
  induction letters with
  | nil => rfl
  | cons letter letters ih =>
    rw [List.flatMap_cons, List.length_append, ih, List.length_cons]
    simp only [driveString, List.length_cons, List.length_nil]
    omega

/-- With a list of 1 to 64 letters the function scans it. -/
lemma basep_eq_scan {letters : List DriveLetter} (hdrives : env.logicalDrives = some letters)
    (hnonempty : letters ≠ []) (hlength : letters.length ≤ 64) :
    basepGetVolumeDosLetterNameFromNTNameAndFileName env src fileName =
      (letters.findSome? fun letter =>
        tryDrive env src fileName letter.char letter.name).getD (uncPath env) := by
  have hpos : 0 < letters.length := List.length_pos_iff.mpr hnonempty
  have hfits : 4 * letters.length ≤ MAX_PATH - 1 := by
    rw [MAX_PATH]
    omega
  have hcount : ¬ (4 * letters.length = 0 ∨ 4 * letters.length ≥ MAX_PATH) := by
    rw [MAX_PATH] at hfits ⊢
    omega
  simp only [basepGetVolumeDosLetterNameFromNTNameAndFileName,
    DriveEnvironment.getLogicalDriveStringsW, hdrives, length_flatMap_driveString, if_pos hfits,
    if_neg hcount, scanDrives_flatMap]

/-- A longer list is an error. -/
lemma basep_eq_error {letters : List DriveLetter} (hdrives : env.logicalDrives = some letters)
    (hlength : ¬ letters.length ≤ 64) :
    basepGetVolumeDosLetterNameFromNTNameAndFileName env src fileName =
      .error ERROR_BUFFER_OVERFLOW := by
  have hfits : ¬ 4 * letters.length ≤ MAX_PATH - 1 := by
    rw [MAX_PATH]
    omega
  have hcount : 4 * letters.length + 1 = 0 ∨ 4 * letters.length + 1 ≥ MAX_PATH := by
    rw [MAX_PATH] at hfits ⊢
    omega
  simp only [basepGetVolumeDosLetterNameFromNTNameAndFileName,
    DriveEnvironment.getLogicalDriveStringsW, hdrives, length_flatMap_driveString, if_neg hfits,
    if_pos hcount]

/-- The function yields an exact letter if and only if such a letter is the first match. -/
lemma yieldsExactLetter_iff :
    YieldsExactLetter env src fileName ↔ ExactLetterFirst env src fileName := by
  constructor
  · rintro ⟨letters, hdrives, letter, hletter, htarget, hresult⟩
    have hlength : letters.length ≤ 64 := by
      by_contra hlong
      rw [basep_eq_error hdrives hlong] at hresult
      cases hresult
    rw [basep_eq_scan hdrives (List.ne_nil_of_mem hletter) hlength] at hresult
    rcases hscan : letters.findSome? fun letter =>
      tryDrive env src fileName letter.char letter.name with _ | result
    · -- no letter matches, and the path is that of a remote file
      rw [hscan] at hresult
      exact absurd hresult (uncPath_ne_path letter)
    · rw [hscan] at hresult
      obtain rfl : result = .ok letter.path := hresult
      obtain ⟨before, first, after, hsplit, hfirst, hbefore⟩ :=
        List.findSome?_eq_some_iff.mp hscan
      obtain ⟨rfl, halloc, hlocal, target, htarget', _, hshare⟩ :=
        (tryDrive_eq_path first letter).mp hfirst
      obtain rfl : target = src := Option.some.inj (htarget'.symm.trans htarget)
      subst hsplit
      exact ⟨before, first, after, hdrives, hlength,
        fun other hother => (tryDrive_eq_none other).mp (hbefore other hother),
        htarget, hlocal, hshare, halloc⟩
  · rintro ⟨before, letter, after, hdrives, hlength, hbefore, htarget, hlocal, hshare, halloc⟩
    have hfirst : tryDrive env src fileName letter.char letter.name = some (.ok letter.path) :=
      (tryDrive_eq_path letter letter).mpr
        ⟨rfl, halloc, hlocal, src, htarget, List.prefix_rfl, hshare⟩
    have hscan : (before ++ letter :: after).findSome? (fun letter =>
        tryDrive env src fileName letter.char letter.name) = some (.ok letter.path) :=
      List.findSome?_eq_some_iff.mpr ⟨before, letter, after, rfl, hfirst,
        fun other hother => (tryDrive_eq_none other).mpr (hbefore other hother)⟩
    refine ⟨before ++ letter :: after, hdrives, letter, by simp, htarget, ?_⟩
    rw [basep_eq_scan hdrives (by simp) hlength, hscan]
    rfl

/-- A device with a local letter is resolved to a letter of its own if and only if such a
letter is the first one that matches. -/
theorem namesRightVolume_iff :
    NamesRightVolume env src fileName ↔
      (HasLocalLetter env src → ExactLetterFirst env src fileName) := by
  rw [NamesRightVolume, yieldsExactLetter_iff]

/-! ## Two volumes of one disk -/

def letterC : DriveLetter := ⟨67, by decide⟩

def letterD : DriveLetter := ⟨68, by decide⟩

/-- `C:` is the tenth volume and `D:` the first one. -/
def twoVolumes : DriveEnvironment where
  logicalDrives := some [letterC, letterD]
  queryDosDeviceW := fun name =>
    if name = letterC.name then some (wide "\\Device\\HarddiskVolume10")
    else if name = letterD.name then some (wide "\\Device\\HarddiskVolume1")
    else none
  getDriveTypeW := fun _ => 3
  rtlAllocateHeap := fun _ => true

/-- A file of the first volume is taken for one of the tenth. -/
theorem wrong_volume_named :
    HasLocalLetter twoVolumes (wide "\\Device\\HarddiskVolume1") ∧
      basepGetVolumeDosLetterNameFromNTNameAndFileName twoVolumes
        (wide "\\Device\\HarddiskVolume1") (wide "\\a.exe") = .ok letterC.path ∧
      ¬ NamesRightVolume twoVolumes (wide "\\Device\\HarddiskVolume1") (wide "\\a.exe") := by
  have hlocal : HasLocalLetter twoVolumes (wide "\\Device\\HarddiskVolume1") :=
    ⟨[letterC, letterD], rfl, letterD, by simp, by decide +kernel,
      (by decide : (3 : UInt32) ≠ DRIVE_REMOTE)⟩
  have hresult : basepGetVolumeDosLetterNameFromNTNameAndFileName twoVolumes
      (wide "\\Device\\HarddiskVolume1") (wide "\\a.exe") = .ok letterC.path := by
    have hdrives : twoVolumes.logicalDrives = some [letterC, letterD] := rfl
    rw [basep_eq_scan hdrives (by simp) (by decide)]
    decide +kernel
  refine ⟨hlocal, hresult, ?_⟩
  intro hright
  obtain ⟨_, _, letter, _, htarget, hyields⟩ := hright hlocal
  rw [hresult] at hyields
  obtain rfl := path_inj.mp (Except.ok.inj hyields)
  exact absurd htarget (by decide +kernel)

end FinalPath
end ClamavWin32
