import ClamavWin32.FinalPath.FinalPathNameTheorems

/-!
# Where the name of the object is split

`GetFinalPathNameByHandleW` ends `NtObjectName` in front of the name of the file. Where the
name of the file is not the shorter one it sets `ERROR_BAD_PATHNAME`, and goes on.

* `splitIndex` is the index of the terminator that it stores.
* `splitsInRange_iff` says when that is in the string, and when the error is what the caller
  gets.
-/

namespace ClamavWin32
namespace FinalPath

def ERROR_BAD_PATHNAME : ErrorCode := 161

/-! ## The property -/

/-- `wcslen(NtObjectName) - wcslen(fileName)`, where a `size_t` has so many bits. -/
def splitIndex (bits : ℕ) (ntObjectName fileName : WString) : BitVec bits :=
  BitVec.ofNat bits ntObjectName.length - BitVec.ofNat bits fileName.length

/-- The last error that the comparison of the two lengths sets. -/
def comparisonError (ntObjectName fileName : WString) : Option ErrorCode :=
  if ntObjectName.length ≤ fileName.length then some ERROR_BAD_PATHNAME else none

/-- What the caller of `GetFinalPathNameByHandleW` gets for two names: the last error of the
comparison is that of the call unless a later one is set. -/
def resultFor (env : Environment) (rounds : ℕ) (hFile : Addr) (buffer : List UInt16)
    (dwFlags : UInt32) (ntObjectName fileName : WString) : Option Result :=
  (getFinalPathNameByHandleW env rounds (some hFile) buffer dwFlags).map fun result =>
    { result with lastError := result.lastError.or (comparisonError ntObjectName fileName) }

/-- The name of the object is written to where it is, and names that do not fit are the error
that is returned. -/
structure SplitsInRange (bits : ℕ) (env : Environment) (rounds : ℕ) (hFile : Addr)
    (buffer : List UInt16) (dwFlags : UInt32) (ntObjectName fileName : WString) : Prop where
  index_le : (splitIndex bits ntObjectName fileName).toNat ≤ ntObjectName.length
  badPathname : ntObjectName.length ≤ fileName.length →
    resultFor env rounds hFile buffer dwFlags ntObjectName fileName =
      some ⟨0, some ERROR_BAD_PATHNAME, buffer⟩

/-- One of the calls that follow fails with `ERROR_BAD_PATHNAME` itself, where nothing is left
of the name of the object. -/
inductive FailsAnyway (env : Environment) (rounds : ℕ) (dwFlags : UInt32) (fileName : WString) :
    VolumeNameType → Prop where
  | volumeGUID :
    basepGetVolumeGUIDFromNTName env rounds [] = some (.error ERROR_BAD_PATHNAME) →
    FailsAnyway env rounds dwFlags fileName .GUID
  | dosLetter :
    basepGetVolumeDosLetterNameFromNTName env rounds [] = some (.error ERROR_BAD_PATHNAME) →
    FailsAnyway env rounds dwFlags fileName .DOS
  | normalizedName {type : VolumeNameType} {name : Option WString} :
    volumeName env rounds type [] fileName = some (.ok name) →
    hasFlag dwFlags FILE_NAME_OPENED = false →
    basepGetFileNameInformation env rounds .FileNormalizedNameInformation =
      some (.error ERROR_BAD_PATHNAME) →
    FailsAnyway env rounds dwFlags fileName type
  | source {type : VolumeNameType} {name : Option WString} :
    volumeName env rounds type [] fileName = some (.ok name) →
    NotNormalized env rounds dwFlags →
    longPathSource env rounds type name = some (.error ERROR_BAD_PATHNAME) →
    FailsAnyway env rounds dwFlags fileName type
  | longPathName {type : VolumeNameType} {name : Option WString} {source : WString} :
    volumeName env rounds type [] fileName = some (.ok name) →
    NotNormalized env rounds dwFlags →
    longPathSource env rounds type name = some (.ok (some source)) →
    env.rtlAllocateHeap .normalizedName 0 = true →
    fileName.length + source.length + 1 ≤ STRSAFE_MAX_CCH →
    getLongPathNameW env.longPath (source ++ fileName) (fileName.length + source.length + 1) =
      .error ERROR_BAD_PATHNAME →
    FailsAnyway env rounds dwFlags fileName type

/-! ## The index -/

/-- The index is in the string where the name of the file is not the longer one. -/
lemma splitIndex_le {bits : ℕ} {ntObjectName fileName : WString}
    (h : fileName.length ≤ ntObjectName.length) :
    (splitIndex bits ntObjectName fileName).toNat ≤ ntObjectName.length := by
  obtain ⟨rest, hrest⟩ := Nat.exists_eq_add_of_le h
  have hindex : splitIndex bits ntObjectName fileName = BitVec.ofNat bits rest := by
    rw [splitIndex, hrest, BitVec.ofNat_add, BitVec.add_comm, BitVec.add_sub_cancel]
  rw [hindex, BitVec.toNat_ofNat]
  calc rest % 2 ^ bits ≤ rest := Nat.mod_le _ _
    _ ≤ ntObjectName.length := by omega

/-- It is behind the string where the name of the file is the longer one. -/
lemma length_lt_splitIndex {bits : ℕ} {ntObjectName fileName : WString}
    (h : ntObjectName.length < fileName.length) (hmemory : fileName.length < 2 ^ bits) :
    ntObjectName.length < (splitIndex bits ntObjectName fileName).toNat := by
  rw [splitIndex, BitVec.toNat_sub, BitVec.toNat_ofNat, BitVec.toNat_ofNat,
    Nat.mod_eq_of_lt hmemory, Nat.mod_eq_of_lt (h.trans hmemory), Nat.mod_eq_of_lt]
  · omega
  · omega

/-! ## Errors -/

variable {env : Environment} {rounds : ℕ} {dwFlags : UInt32}

/-- How the search through the drive letters fails. -/
lemma scanDrives_error {drives : DriveEnvironment} {src fileName : WString}
    {drive : List UInt16} {e : ErrorCode} (h : scanDrives drives src fileName drive = .error e) :
    e = ERROR_NOT_ENOUGH_MEMORY := by
  have hunc (h : uncPath drives = .error e) : e = ERROR_NOT_ENOUGH_MEMORY := by
    rw [uncPath] at h
    split at h
    · cases h
    · exact (Except.error.inj h).symm
  have hletter {letter : UInt16} (h : letterPath drives letter = .error e) :
      e = ERROR_NOT_ENOUGH_MEMORY := by
    rw [letterPath] at h
    split at h
    · cases h
    · exact (Except.error.inj h).symm
  fun_induction scanDrives drives src fileName drive with
  | case1 => exact hunc h
  | case2 => exact hunc h
  | case3 letter rest _ result htry =>
    rcases tryDrive_cases htry with hresult | hresult
    · exact hunc (hresult.symm.trans h)
    · exact hletter (hresult.symm.trans h)
  | case4 letter rest _ _ ih => exact ih h

lemma fallback_ne_badPathname {drives : DriveEnvironment} {src fileName : WString} :
    basepGetVolumeDosLetterNameFromNTNameAndFileName drives src fileName ≠
      .error ERROR_BAD_PATHNAME := by
  intro h
  rw [basepGetVolumeDosLetterNameFromNTNameAndFileName] at h
  dsimp only at h
  split at h
  · cases Except.error.inj h
  · cases scanDrives_error h

/-- How the volume of an object with an empty name is not found. -/
lemma volumeName_eq_badPathname {type : VolumeNameType} {fileName : WString}
    (h : volumeName env rounds type [] fileName = some (.error ERROR_BAD_PATHNAME)) :
    FailsAnyway env rounds dwFlags fileName type := by
  cases type with
  | GUID =>
    rw [volumeName] at h
    split at h
    · rename_i e hguid
      have he : (if e = ERROR_INVALID_FUNCTION then ERROR_PATH_NOT_FOUND else e) =
          ERROR_BAD_PATHNAME := Except.error.inj (Option.some.inj h)
      split at he
      · cases he
      · rw [he] at hguid
        exact .volumeGUID hguid
    · exact .volumeGUID h
  | NT => cases h
  | DOS =>
    rw [volumeName] at h
    split at h
    · cases h
    · cases h
    · rename_i e hletter
      split at h
      · obtain rfl := Except.error.inj (Option.some.inj h)
        exact .dosLetter hletter
      · have hfallback := Option.some.inj h
        cases hresult : basepGetVolumeDosLetterNameFromNTNameAndFileName env.drives []
            fileName with
        | ok name =>
          rw [hresult] at hfallback
          cases hfallback
        | error e' =>
          rw [hresult] at hfallback
          obtain rfl := Except.error.inj hfallback
          exact absurd hresult fallback_ne_badPathname

/-- How the normalisation fails. -/
lemma normalize_eq_badPathname {type : VolumeNameType} {name : Option WString}
    {fileName : WString} (hname : volumeName env rounds type [] fileName = some (.ok name))
    (h : normalize env rounds dwFlags type name fileName = some (.error ERROR_BAD_PATHNAME)) :
    FailsAnyway env rounds dwFlags fileName type := by
  cases hflag : hasFlag dwFlags FILE_NAME_OPENED with
  | true =>
    rw [normalize, hflag] at h
    cases h
  | false =>
    rw [normalize, hflag, if_neg Bool.false_ne_true] at h
    -- the error is the one of a call, and handed on
    split at h
    · cases h
    · cases h
    · rename_i e hnormalized
      by_cases htolerated : notNormalized e = true
      · rw [if_pos htolerated, viaLongPath] at h
        have hnot : NotNormalized env rounds dwFlags := ⟨hflag, e, hnormalized, htolerated⟩
        split at h
        · cases h
        · rename_i e' hsource
          obtain rfl := Except.error.inj (Option.some.inj h)
          exact .source hname hnot hsource
        · cases h
        · rename_i source hsource
          dsimp only at h
          split at h
          · cases h
          · rename_i halloc
            split at h
            · cases h
            · split at h
              · rename_i e' hpath
                obtain rfl := Except.error.inj (Option.some.inj h)
                exact .longPathName hname hnot hsource (by simpa using halloc) (by omega) hpath
              · split at h
                · cases h
                · split at h
                  · cases h
                  · cases h
      · rw [if_neg htolerated] at h
        obtain rfl := Except.error.inj (Option.some.inj h)
        exact .normalizedName hname hflag hnormalized

/-- What fails anyway, fails. -/
lemma FailsAnyway.findPath_eq {type : VolumeNameType} {fileName : WString} {hFile : Addr}
    (hfails : FailsAnyway env rounds dwFlags fileName type)
    (htype : volumeNameType dwFlags = some type)
    (hnames : queryNames env rounds = some (.ok ([], fileName))) :
    findPath env rounds (some hFile) dwFlags = some (.error ERROR_BAD_PATHNAME) := by
  have hnormalize {name : Option WString}
      (hname : volumeName env rounds type [] fileName = some (.ok name)) :
      findPath env rounds (some hFile) dwFlags =
        normalize env rounds dwFlags type name fileName := by
    simp only [findPath, htype, hnames, hname]
  have hlongPath {name : Option WString} (hnot : NotNormalized env rounds dwFlags)
      (hname : volumeName env rounds type [] fileName = some (.ok name)) :
      findPath env rounds (some hFile) dwFlags = viaLongPath env rounds type name fileName :=
    (hnormalize hname).trans (normalize_of_notNormalized hnot type name fileName).1
  cases hfails with
  | volumeGUID hguid =>
    have hname : volumeName env rounds .GUID [] fileName = some (.error ERROR_BAD_PATHNAME) := by
      rw [volumeName, hguid]
      rfl
    simp only [findPath, htype, hnames, hname]
  | dosLetter hletter =>
    have hname : volumeName env rounds .DOS [] fileName = some (.error ERROR_BAD_PATHNAME) := by
      rw [volumeName, hletter]
      rfl
    simp only [findPath, htype, hnames, hname]
  | normalizedName hname hflag hnormalized =>
    rw [hnormalize hname, normalize, hflag, if_neg Bool.false_ne_true, hnormalized]
    rfl
  | source hname hnot hsource =>
    rw [hlongPath hnot hname, viaLongPath, hsource]
  | longPathName hname hnot hsource halloc hsize hpath =>
    rw [hlongPath hnot hname, viaLongPath, hsource]
    simp only [halloc, Bool.not_true, Bool.false_eq_true, if_false, if_neg (not_lt.mpr hsize),
      hpath]

/-! ## The result -/

/-- A path that is found is neither empty nor a failure for the length of the name. -/
lemma storePath_ne_failure {name : Option WString} {fileName : WString}
    (hfile : charAt fileName 0 = 92) {buffer : List UInt16} (hsize : buffer.length < 2 ^ 32) :
    (storePath name fileName buffer).ret ≠ 0 ∨
      (storePath name fileName buffer).lastError = some ERROR_NOT_ENOUGH_MEMORY := by
  by_cases hroom : ((name.map List.length).getD 0) + fileName.length < buffer.length
  · left
    intro hret
    rw [storePath_of_fits hroom] at hret
    have hpos : 0 < fileName.length := length_pos_of_charAt hfile
    have hzero : (((name.map List.length).getD 0) + fileName.length) % 2 ^ 32 = 0 :=
      congrArg UInt32.toNat hret
    rw [Nat.mod_eq_of_lt (by omega)] at hzero
    omega
  · right
    rw [storePath_of_larger (by omega)]

/-- The call fails with `ERROR_BAD_PATHNAME` only where what finds the path does. -/
lemma resultFor_eq_iff (hbackslash : BackslashFirst env rounds) {hFile : Addr}
    {buffer : List UInt16} (hsize : buffer.length < 2 ^ 32) {ntObjectName fileName : WString} :
    resultFor env rounds hFile buffer dwFlags ntObjectName fileName =
        some ⟨0, some ERROR_BAD_PATHNAME, buffer⟩ ↔
      findPath env rounds (some hFile) dwFlags = some (.error ERROR_BAD_PATHNAME) := by
  rw [resultFor, getFinalPathNameByHandleW]
  cases h : findPath env rounds (some hFile) dwFlags with
  | none => simp
  | some path =>
    cases path with
    | error e => simp
    | ok found =>
      have hne : (some (.ok found) : Option (Except ErrorCode Found)) ≠
          some (.error ERROR_BAD_PATHNAME) := by
        intro heq
        cases heq
      apply iff_of_false _ hne
      intro hresult
      cases found with
      | longPathLength length => cases (Result.mk.inj (Option.some.inj hresult)).2.1
      | names name fileName =>
        obtain ⟨hret, herror, -⟩ := Result.mk.inj (Option.some.inj hresult)
        rcases @storePath_ne_failure name fileName (charAt_of_findPath hbackslash h) buffer
          hsize with hne | hlarge
        · exact hne hret
        · rw [hlarge] at herror
          cases herror

/-- **The split** is in range, and names that do not fit are reported, if and only if the name
of the file is the shorter one, or both have one length and a later call fails with the same
error. -/
theorem splitsInRange_iff (bits : ℕ) (hFile : Addr) {buffer : List UInt16}
    (hsize : buffer.length < 2 ^ 32) {type : VolumeNameType}
    (htype : volumeNameType dwFlags = some type) {ntObjectName fileName : WString}
    (hobject : basepGetObjectNTName env rounds = some (.ok ntObjectName))
    (hfile : basepGetFileNameInformation env rounds .FileNameInformation = some (.ok fileName))
    (hfirst : charAt fileName 0 = 92) (hbackslash : BackslashFirst env rounds) :
    SplitsInRange bits env rounds hFile buffer dwFlags ntObjectName fileName ↔
      fileName.length < ntObjectName.length ∨
        fileName.length = ntObjectName.length ∧
          FailsAnyway env rounds dwFlags fileName type := by
  have hnames : queryNames env rounds =
      if ntObjectName.length < fileName.length then none
      else some (.ok (ntObjectName.take (ntObjectName.length - fileName.length), fileName)) := by
    simp only [queryNames, hobject, hfile, ne_eq, hfirst, not_true_eq_false, if_false]
  constructor
  · rintro ⟨-, hbad⟩
    rcases Nat.lt_trichotomy fileName.length ntObjectName.length with hlt | heq | hgt
    · exact Or.inl hlt
    · right
      refine ⟨heq, ?_⟩
      rw [if_neg (by omega), heq, Nat.sub_self, List.take_zero] at hnames
      have hpath := (resultFor_eq_iff hbackslash hsize).mp (hbad (by omega))
      simp only [findPath, htype, hnames] at hpath
      split at hpath
      · cases hpath
      · rename_i e hname
        obtain rfl := Except.error.inj (Option.some.inj hpath)
        exact volumeName_eq_badPathname hname
      · rename_i name hname
        exact normalize_eq_badPathname hname hpath
    · -- nothing is defined behind a terminator that is stored elsewhere
      rw [if_pos hgt] at hnames
      have hpath := (resultFor_eq_iff hbackslash hsize).mp (hbad (by omega))
      simp only [findPath, htype, hnames] at hpath
      cases hpath
  · intro h
    constructor
    · exact splitIndex_le (by omega)
    · intro hle
      obtain ⟨heq, hfails⟩ := h.resolve_left (by omega)
      rw [if_neg (by omega), heq, Nat.sub_self, List.take_zero] at hnames
      exact (resultFor_eq_iff hbackslash hsize).mpr (hfails.findPath_eq htype hnames)

/-- The name of a file on a volume is split off. -/
theorem splitsInRange_twoNames :
    SplitsInRange 64 (twoNames fun _ => true) 1 1 [] 0 (wide "\\Device\\HarddiskVolume1\\a")
      (wide "\\a") :=
  (splitsInRange_iff 64 1 (by decide) (rfl : volumeNameType 0 = some .DOS) rfl rfl rfl
    (backslashFirst_twoNames _)).mpr (Or.inl (by decide))

/-! ## Names of one length -/

/-- The root directory of a device whose name is the name of the file. -/
def sameNames : Environment := { twoNames fun _ => true with
  ntQueryObject := fun _ => ⟨0, wide "\\a"⟩ }

/-- `VOLUME_NAME_NT` finds the name of the file, with nothing in front of it. A name that is
longer by one character would put the terminator far behind the string. -/
theorem sameNames_not_splitsInRange :
    basepGetObjectNTName sameNames 1 = some (.ok (wide "\\a")) ∧
    basepGetFileNameInformation sameNames 1 .FileNameInformation = some (.ok (wide "\\a")) ∧
    resultFor sameNames 1 1 (List.replicate 4 0) VOLUME_NAME_NT (wide "\\a") (wide "\\a") =
      some ⟨2, some ERROR_BAD_PATHNAME, wide "\\a" ++ [0, 0]⟩ ∧
    (wide "\\a").length < (splitIndex 64 (wide "\\a") (wide "\\ab")).toNat ∧
    ¬SplitsInRange 64 sameNames 1 1 (List.replicate 4 0) VOLUME_NAME_NT (wide "\\a")
      (wide "\\a") := by
  have hresult : resultFor sameNames 1 1 (List.replicate 4 0) VOLUME_NAME_NT (wide "\\a")
      (wide "\\a") = some ⟨2, some ERROR_BAD_PATHNAME, wide "\\a" ++ [0, 0]⟩ := by
    decide +kernel
  refine ⟨by decide +kernel, by decide +kernel, hresult,
    length_lt_splitIndex (by decide) (by decide), ?_⟩
  rintro ⟨-, hbad⟩
  have hfails := hresult.symm.trans (hbad le_rfl)
  cases congrArg Result.ret (Option.some.inj hfails)

end FinalPath
end ClamavWin32
