import ClamavWin32.FinalPath.VolumePrefix

/-!
# When the size protocol converges

`GetFinalPathNameByHandleW` stores the path and returns its length, or it returns the size
of the buffer that it needs and a call with that size stores the path.

* `findPath_names_iff`, `findPath_null_iff`, `findPath_longPath_iff`: what is known of the
  path when its length is computed;
* `holds_storePath`: the path in the buffer;
* `converges_iff`: the three ways in which the protocol fails.
-/

namespace ClamavWin32
namespace FinalPath

variable {env : Environment} {rounds : ℕ} {hFile : Option Addr} {dwFlags : UInt32}

/-! ## The property -/

/-- The buffer holds the string and its terminator. -/
structure Holds (buffer : List UInt16) (s : WString) : Prop where
  stored : s ++ [0] <+: buffer
  read : cString buffer = s

/-- The name of the file: as it was opened if the flags ask for that, and otherwise the
normalised name if the system gives it. -/
def IsFileName (env : Environment) (rounds : ℕ) (dwFlags : UInt32) (opened fileName : WString) :
    Prop :=
  match hasFlag dwFlags FILE_NAME_OPENED,
    basepGetFileNameInformation env rounds .FileNormalizedNameInformation with
  | false, some (.ok normalizedName) => fileName = normalizedName
  | _, _ => fileName = opened

/-- The final path is made of the name of the volume and the name of the file in it. -/
def IsFinalPath (env : Environment) (rounds : ℕ) (dwFlags : UInt32) (name fileName : WString) :
    Prop :=
  ∃ type src opened, volumeNameType dwFlags = some type ∧
    queryNames env rounds = some (.ok (src, opened)) ∧
    volumeName env rounds type src opened = some (.ok (some name)) ∧
    IsFileName env rounds dwFlags opened fileName

/-- The size protocol for one buffer. -/
structure Converges (env : Environment) (rounds : ℕ) (hFile : Option Addr)
    (buffer : List UInt16) (dwFlags : UInt32) : Prop where
  /-- A path that fits is in the buffer. -/
  fits : ∀ result, getFinalPathNameByHandleW env rounds hFile buffer dwFlags = some result →
    0 < result.ret → result.ret.toNat < buffer.length →
      ∃ name fileName, IsFinalPath env rounds dwFlags name fileName ∧
        result.ret.toNat = (name ++ fileName).length ∧ Holds result.buffer (name ++ fileName)
  /-- Where it does not fit, it fits a buffer of the size returned. -/
  larger : ∀ result, getFinalPathNameByHandleW env rounds hFile buffer dwFlags = some result →
    0 < result.ret → buffer.length ≤ result.ret.toNat →
      result.buffer = buffer ∧
      ∀ second : List UInt16, second.length = result.ret.toNat → ∃ result',
        getFinalPathNameByHandleW env rounds hFile second dwFlags = some result' ∧
        result'.ret = result.ret - 1 ∧
        ∃ name fileName, IsFinalPath env rounds dwFlags name fileName ∧
          result'.ret.toNat = (name ++ fileName).length ∧
          Holds result'.buffer (name ++ fileName)
  /-- The size that `GetLongPathNameW` asks for is never reported. -/
  notLongPath : ∀ length, findPath env rounds hFile dwFlags ≠ some (.ok (.longPathLength length))

/-- The normalised name of the file begins with a backslash, as the other one is seen to. -/
def BackslashFirst (env : Environment) (rounds : ℕ) : Prop :=
  ∀ normalizedName, basepGetFileNameInformation env rounds .FileNormalizedNameInformation =
    some (.ok normalizedName) → charAt normalizedName 0 = 92

/-! ## When it fails -/

/-- What `GetLongPathNameW` returns and stores for the path that begins with `source`. -/
def LongPathIs (env : Environment) (source fileName : WString) (length : ℕ) (path : WString) :
    Prop :=
  env.rtlAllocateHeap .normalizedName 0 = true ∧
    fileName.length + source.length + 1 ≤ STRSAFE_MAX_CCH ∧
    getLongPathNameW env.longPath (source ++ fileName) (fileName.length + source.length + 1) =
      .ok (length, path)

/-- The system does not give the normalised name, for a reason that is tolerated. -/
def NotNormalized (env : Environment) (rounds : ℕ) (dwFlags : UInt32) : Prop :=
  hasFlag dwFlags FILE_NAME_OPENED = false ∧
    ∃ e, basepGetFileNameInformation env rounds .FileNormalizedNameInformation =
      some (.error e) ∧ notNormalized e = true

/-- The name is to be as opened, or the system gives the normalised one. -/
def NameGiven (env : Environment) (rounds : ℕ) (dwFlags : UInt32) : Prop :=
  hasFlag dwFlags FILE_NAME_OPENED = true ∨ ∃ normalizedName,
    basepGetFileNameInformation env rounds .FileNormalizedNameInformation =
      some (.ok normalizedName)

/-- Both names are found. -/
def PathKnown (env : Environment) (rounds : ℕ) (hFile : Option Addr) (dwFlags : UInt32) :
    Prop :=
  hFile ≠ none ∧ ∃ type src opened name, volumeNameType dwFlags = some type ∧
    queryNames env rounds = some (.ok (src, opened)) ∧
    volumeName env rounds type src opened = some (.ok (some name)) ∧
    (NameGiven env rounds dwFlags ∨ NotNormalized env rounds dwFlags ∧
      ∃ source length path,
        longPathSource env rounds type (some name) = some (.ok (some source)) ∧
        LongPathIs env source opened length path ∧
        length < opened.length + source.length + 1 ∧ source.length ≤ path.length + 1)

/-- The name of the volume is lost, and the name of the file is found. -/
def PrefixLost (env : Environment) (rounds : ℕ) (hFile : Option Addr) (dwFlags : UInt32) :
    Prop :=
  hFile ≠ none ∧ volumeNameType dwFlags = some .GUID ∧ ∃ src opened,
    queryNames env rounds = some (.ok (src, opened)) ∧
    basepGetVolumeGUIDFromNTName env rounds src = some (.ok none) ∧
    NameGiven env rounds dwFlags

/-- The name of the volume is lost where a path into the device namespace was to be made of
it, and `GetLongPathNameW` finds a longer form of the path that begins with the name of the
volume in the object manager. -/
def LongPathAsked (env : Environment) (rounds : ℕ) (hFile : Option Addr) (dwFlags : UInt32) :
    Prop :=
  hFile ≠ none ∧ volumeNameType dwFlags = some .NT ∧ ∃ src opened e length path,
    queryNames env rounds = some (.ok (src, opened)) ∧
    NotNormalized env rounds dwFlags ∧
    basepGetVolumeDosLetterNameFromNTName env rounds src = some (.error e) ∧
    e ≠ ERROR_NOT_ENOUGH_MEMORY ∧
    basepGetVolumeGUIDFromNTName env rounds src = some (.ok none) ∧
    LongPathIs env src opened length path ∧ opened.length + src.length + 1 ≤ length

/-! ## The names -/

/-- What the system answers, where the two names are found. -/
lemma queryNames_eq_names {src opened : WString}
    (h : queryNames env rounds = some (.ok (src, opened))) :
    ∃ ntObjectName, basepGetObjectNTName env rounds = some (.ok ntObjectName) ∧
      basepGetFileNameInformation env rounds .FileNameInformation = some (.ok opened) ∧
      charAt opened 0 = 92 ∧ opened.length ≤ ntObjectName.length ∧
      src = ntObjectName.take (ntObjectName.length - opened.length) := by
  rw [queryNames] at h
  split at h
  · cases h
  · cases h
  · rename_i ntObjectName hobject
    split at h
    · cases h
    · cases h
    · rename_i fileName hfile
      split at h
      · cases h
      · split at h
        · cases h
        · rename_i hbackslash hlength
          obtain ⟨rfl, rfl⟩ := Prod.mk.inj (Except.ok.inj (Option.some.inj h))
          exact ⟨ntObjectName, hobject, hfile, by simpa using hbackslash, by omega, rfl⟩

/-- The names are strings of the object and of the file. -/
lemma queryNames_eq_ok (hdoc : env.Documented) {src opened : WString}
    (h : queryNames env rounds = some (.ok (src, opened))) :
    0 ∉ src ∧ src.length < 2 ^ 15 ∧ 0 ∉ opened ∧ opened.length < 2 ^ 15 ∧
      charAt opened 0 = 92 := by
  obtain ⟨ntObjectName, hobject, hfile, hbackslash, -, rfl⟩ := queryNames_eq_names h
  obtain ⟨k, rfl⟩ := queryName_eq_ok hobject
  obtain ⟨l, rfl⟩ := queryName_eq_ok hfile
  have hobjectName := hdoc.ntQueryObject k
  have hfileName := hdoc.ntQueryInformationFile .FileNameInformation l
  have hlength := length_cString_le (env.ntQueryObject k).name
  have hlength' := length_cString_le (env.ntQueryInformationFile .FileNameInformation l).name
  refine ⟨?_, ?_, zero_notMem_cString _, by omega, hbackslash⟩
  · intro hmem
    exact zero_notMem_cString _ (List.mem_of_mem_take hmem)
  · rw [List.length_take]
    omega

/-- The normalised name is a string. -/
lemma normalizedName_eq_ok (hdoc : env.Documented) {normalizedName : WString}
    (h : basepGetFileNameInformation env rounds .FileNormalizedNameInformation =
      some (.ok normalizedName)) :
    0 ∉ normalizedName ∧ normalizedName.length < 2 ^ 15 := by
  obtain ⟨k, rfl⟩ := queryName_eq_ok h
  have hname := hdoc.ntQueryInformationFile .FileNormalizedNameInformation k
  have hlength :=
    length_cString_le (env.ntQueryInformationFile .FileNormalizedNameInformation k).name
  exact ⟨zero_notMem_cString _, by omega⟩

/-- The name of a volume is a string. -/
lemma volumeName_isString (hdoc : env.Documented) {type : VolumeNameType}
    {src opened name : WString} (hnames : queryNames env rounds = some (.ok (src, opened)))
    (h : volumeName env rounds type src opened = some (.ok (some name))) :
    0 ∉ name ∧ name.length < 2 ^ 15 + 4 := by
  obtain ⟨hsrc, hlength, -⟩ := queryNames_eq_ok hdoc hnames
  by_cases htype : type = .NT
  · rw [htype, volumeName] at h
    obtain rfl := Option.some.inj (Except.ok.inj (Option.some.inj h))
    exact ⟨hsrc, by omega⟩
  · have hdevice := deviceName_volumeName hdoc htype hsrc h
    exact ⟨hdevice.zero_notMem, hdevice.length_lt⟩

/-- The name of a file is a string. -/
lemma IsFileName.isString (hdoc : env.Documented) {src opened fileName : WString}
    (hnames : queryNames env rounds = some (.ok (src, opened)))
    (h : IsFileName env rounds dwFlags opened fileName) :
    0 ∉ fileName ∧ fileName.length < 2 ^ 15 := by
  obtain ⟨-, -, hopened, hlength, -⟩ := queryNames_eq_ok hdoc hnames
  rw [IsFileName] at h
  split at h
  · rename_i normalizedName _ hnormalized
    rw [h]
    exact normalizedName_eq_ok hdoc hnormalized
  · rw [h]
    exact ⟨hopened, hlength⟩

/-! ## The normalisation -/

/-- The name is that which the system gives. -/
lemma normalize_of_nameGiven (hgiven : NameGiven env rounds dwFlags) (type : VolumeNameType)
    (name : Option WString) (opened : WString) :
    ∃ fileName, normalize env rounds dwFlags type name opened =
      some (.ok (.names name fileName)) ∧ IsFileName env rounds dwFlags opened fileName := by
  rw [normalize]
  cases hflag : hasFlag dwFlags FILE_NAME_OPENED with
  | true =>
    refine ⟨opened, rfl, ?_⟩
    rw [IsFileName, hflag]
  | false =>
    rcases hgiven with htrue | ⟨normalizedName, hnormalized⟩
    · rw [hflag] at htrue
      cases htrue
    · refine ⟨normalizedName, ?_, ?_⟩
      · rw [if_neg Bool.false_ne_true, hnormalized]
      · rw [IsFileName, hflag, hnormalized]

/-- The name is asked of `GetLongPathNameW`. -/
lemma normalize_of_notNormalized (h : NotNormalized env rounds dwFlags) (type : VolumeNameType)
    (name : Option WString) (opened : WString) :
    normalize env rounds dwFlags type name opened = viaLongPath env rounds type name opened ∧
      IsFileName env rounds dwFlags opened opened := by
  obtain ⟨hflag, e, hnormalized, htolerated⟩ := h
  rw [normalize, hflag, if_neg Bool.false_ne_true, hnormalized, IsFileName, hflag, hnormalized]
  exact ⟨if_pos htolerated, rfl⟩

/-- There are these two ways. -/
lemma nameGiven_or {type : VolumeNameType} {name : Option WString} {opened : WString}
    {found : Found} (h : normalize env rounds dwFlags type name opened = some (.ok found)) :
    NameGiven env rounds dwFlags ∨ NotNormalized env rounds dwFlags := by
  cases hflag : hasFlag dwFlags FILE_NAME_OPENED with
  | true => exact Or.inl (Or.inl hflag)
  | false =>
    rw [normalize, hflag, if_neg Bool.false_ne_true] at h
    split at h
    · cases h
    · rename_i normalizedName hnormalized
      exact Or.inl (Or.inr ⟨normalizedName, hnormalized⟩)
    · rename_i e hnormalized
      by_cases htolerated : notNormalized e = true
      · exact Or.inr ⟨hflag, e, hnormalized, htolerated⟩
      · rw [if_neg htolerated] at h
        cases h

/-- What is found by way of `GetLongPathNameW`. -/
lemma viaLongPath_eq_ok {type : VolumeNameType} {name : Option WString} {opened : WString}
    {found : Found} :
    viaLongPath env rounds type name opened = some (.ok found) ↔ ∃ source length path,
      longPathSource env rounds type name = some (.ok (some source)) ∧
      LongPathIs env source opened length path ∧
      (opened.length + source.length + 1 ≤ length ∧
          found = .longPathLength
            (((name.map List.length).getD 0) + (length - source.length)) ∨
        length < opened.length + source.length + 1 ∧ source.length ≤ path.length + 1 ∧
          found = .names name opened) := by
  rw [viaLongPath]
  match longPathSource env rounds type name with
  | none => simp
  | some (.error e) => simp
  | some (.ok none) => simp
  | some (.ok (some source)) =>
    -- what is looked for has one value, so the block and the call of the right side are these
    have hsame : ∀ {source' : WString}, (some (.ok (some source)) :
        Option (Except ErrorCode (Option WString))) = some (.ok (some source')) →
        source' = source :=
      fun hsource => (Option.some.inj (Except.ok.inj (Option.some.inj hsource))).symm
    cases halloc : env.rtlAllocateHeap .normalizedName 0 with
    | false =>
      simp only [Bool.not_false, if_true]
      constructor
      · intro h
        cases Option.some.inj h
      · rintro ⟨source', length, path, -, ⟨halloc', -⟩, -⟩
        rw [halloc] at halloc'
        cases halloc'
    | true =>
      by_cases hsize : STRSAFE_MAX_CCH < opened.length + source.length + 1
      · simp only [Bool.not_true, Bool.false_eq_true, if_false, if_pos hsize]
        constructor
        · intro h
          cases h
        · rintro ⟨source', length, path, hsource, ⟨-, hsize', -⟩, -⟩
          rw [hsame hsource] at hsize'
          omega
      · have hsize' : opened.length + source.length + 1 ≤ STRSAFE_MAX_CCH := by omega
        match hpath : getLongPathNameW env.longPath (source ++ opened)
            (opened.length + source.length + 1) with
        | .error e =>
          simp only [Bool.not_true, Bool.false_eq_true, if_false, hsize, hpath]
          constructor
          · intro h
            cases Option.some.inj h
          · rintro ⟨source', length, path, hsource, ⟨-, -, hpath'⟩, -⟩
            rw [hsame hsource, hpath] at hpath'
            cases hpath'
        | .ok (length, path) =>
          simp only [Bool.not_true, Bool.false_eq_true, if_false, hsize, hpath]
          constructor
          · intro h
            refine ⟨source, length, path, rfl, ⟨halloc, hsize', hpath⟩, ?_⟩
            split at h
            · rename_i hlonger
              exact Or.inl ⟨hlonger, (Except.ok.inj (Option.some.inj h)).symm⟩
            · split at h
              · cases h
              · rename_i hlonger hshorter
                exact Or.inr ⟨by omega, by omega, (Except.ok.inj (Option.some.inj h)).symm⟩
          · rintro ⟨source', length', path', hsource, ⟨-, -, hpath'⟩, hfound⟩
            obtain rfl := hsame hsource
            obtain ⟨rfl, rfl⟩ := Prod.mk.inj (Except.ok.inj (hpath.symm.trans hpath'))
            rcases hfound with ⟨hlonger, rfl⟩ | ⟨hfits, hmoved, rfl⟩
            · rw [if_pos hlonger]
            · rw [if_neg (by omega), if_neg (by omega)]

/-- What is asked of `GetLongPathNameW` begins in the device namespace, unless the name of
the volume there is lost. -/
lemma longPathSource_cases (hdoc : env.Documented) {type : VolumeNameType}
    {src opened name source : WString} (hnames : queryNames env rounds = some (.ok (src, opened)))
    (hname : volumeName env rounds type src opened = some (.ok (some name)))
    (h : longPathSource env rounds type (some name) = some (.ok (some source))) :
    IsDevicePath source ∨ type = .NT ∧ source = src ∧
      basepGetVolumeGUIDFromNTName env rounds src = some (.ok none) ∧
      ∃ e, basepGetVolumeDosLetterNameFromNTName env rounds src = some (.error e) ∧
        e ≠ ERROR_NOT_ENOUGH_MEMORY := by
  obtain ⟨hsrc, -⟩ := queryNames_eq_ok hdoc hnames
  by_cases htype : type = .NT
  · rw [htype, volumeName] at hname
    obtain rfl := Option.some.inj (Except.ok.inj (Option.some.inj hname))
    simp only [longPathSource, htype] at h
    split at h
    · cases h
    · rename_i dest hdest
      obtain rfl := Option.some.inj (Except.ok.inj (Option.some.inj h))
      exact Or.inl (deviceName_dosLetter hdoc hsrc hdest).isDevicePath
    · rename_i e hletter
      split at h
      · cases h
      · rename_i he
        split at h
        · rename_i hguid
          obtain rfl := Option.some.inj (Except.ok.inj (Option.some.inj h))
          exact Or.inr ⟨htype, rfl, hguid, e, hletter, he⟩
        · exact Or.inl (deviceName_guid hdoc h).isDevicePath
  · have hsource : longPathSource env rounds type (some name) = some (.ok (some name)) := by
      cases type with
      | NT => exact absurd rfl htype
      | GUID => rfl
      | DOS => rfl
    rw [hsource] at h
    obtain rfl := Option.some.inj (Except.ok.inj (Option.some.inj h))
    exact Or.inl (deviceName_volumeName hdoc htype hsrc hname).isDevicePath

/-- A path into the device namespace is as long as it was. -/
lemma LongPathIs.length_eq {source opened path : WString} {length : ℕ}
    (h : LongPathIs env source opened length path) (hsource : IsDevicePath source) :
    length = source.length + opened.length := by
  obtain ⟨-, -, hpath⟩ := h
  have hdevice : IsDevicePath (source ++ opened) := hsource.trans (List.prefix_append _ _)
  have hbuffer : (source ++ opened).length < opened.length + source.length + 1 := by
    rw [List.length_append]
    omega
  rw [getLongPathNameW_of_isDevicePath env.longPath hdevice hbuffer] at hpath
  cases hattributes : env.longPath.getFileAttributesW (source ++ opened) with
  | error e =>
    rw [hattributes] at hpath
    cases hpath
  | ok attributes =>
    rw [hattributes] at hpath
    have hlength := (Prod.mk.inj (Except.ok.inj hpath)).1
    rw [← hlength, List.length_append]

/-- The name of a volume is lost only where a GUID was asked for. -/
lemma volumeName_eq_null {type : VolumeNameType} {src opened : WString}
    (h : volumeName env rounds type src opened = some (.ok none)) :
    type = .GUID ∧ basepGetVolumeGUIDFromNTName env rounds src = some (.ok none) := by
  cases type with
  | NT => cases h
  | GUID =>
    rw [volumeName] at h
    split at h
    · cases h
    · exact ⟨rfl, h⟩
  | DOS =>
    rw [volumeName] at h
    split at h
    · cases h
    · cases h
    · split at h
      · cases h
      · cases hfallback : basepGetVolumeDosLetterNameFromNTNameAndFileName env.drives src
            opened with
        | error e =>
          rw [hfallback] at h
          cases h
        | ok name =>
          rw [hfallback] at h
          cases h

/-! ## What is known of the path -/

lemma findPath_eq_ok {found : Found} :
    findPath env rounds hFile dwFlags = some (.ok found) ↔ hFile ≠ none ∧
      ∃ type src opened name, volumeNameType dwFlags = some type ∧
        queryNames env rounds = some (.ok (src, opened)) ∧
        volumeName env rounds type src opened = some (.ok name) ∧
        normalize env rounds dwFlags type name opened = some (.ok found) := by
  unfold findPath
  match hFile, htype : volumeNameType dwFlags with
  | none, _ => simp
  | some _, none => simp
  | some _, some type =>
    match hnames : queryNames env rounds with
    | none => simp
    | some (.error e) => simp
    | some (.ok (src, opened)) =>
      match hname : volumeName env rounds type src opened with
      | none => simp [hname]
      | some (.error e) => simp [hname]
      | some (.ok name) => simp [hname]

/-- **The larger size.** `GetLongPathNameW` asks for it only where the name of the volume is
lost. -/
lemma findPath_longPath_iff (hdoc : env.Documented) :
    (∃ length, findPath env rounds hFile dwFlags = some (.ok (.longPathLength length))) ↔
      LongPathAsked env rounds hFile dwFlags := by
  constructor
  · rintro ⟨length, h⟩
    obtain ⟨hvalid, type, src, opened, name, htype, hnames, hname, hnormalize⟩ :=
      findPath_eq_ok.mp h
    rcases nameGiven_or hnormalize with hgiven | hnot
    · obtain ⟨fileName, hgiven', -⟩ := normalize_of_nameGiven hgiven type name opened
      rw [hgiven'] at hnormalize
      cases hnormalize
    · rw [(normalize_of_notNormalized hnot type name opened).1] at hnormalize
      obtain ⟨source, size, path, hsource, hpath, hfound⟩ := viaLongPath_eq_ok.mp hnormalize
      rcases hfound with ⟨hlonger, -⟩ | ⟨-, -, hfound⟩
      · cases name with
        | none =>
          obtain ⟨hguid, -⟩ := volumeName_eq_null hname
          rw [hguid] at hsource
          cases hsource
        | some name =>
          rcases longPathSource_cases hdoc hnames hname hsource with
            hdevice | ⟨hnt, rfl, hguid, e, hletter, he⟩
          · have hlength := hpath.length_eq hdevice
            omega
          · rw [hnt] at htype
            exact ⟨hvalid, htype, source, opened, e, size, path, hnames, hnot, hletter, he, hguid,
              hpath, hlonger⟩
      · cases hfound
  · rintro ⟨hvalid, htype, src, opened, e, size, path, hnames, hnot, hletter, he, hguid, hpath,
      hlonger⟩
    have hsource : longPathSource env rounds .NT (some src) = some (.ok (some src)) := by
      simp only [longPathSource, hletter, if_neg he, hguid]
    have hvia := viaLongPath_eq_ok.mpr ⟨src, size, path, hsource, hpath, Or.inl ⟨hlonger, rfl⟩⟩
    rw [← (normalize_of_notNormalized hnot .NT (some src) opened).1] at hvia
    exact ⟨_, findPath_eq_ok.mpr ⟨hvalid, .NT, src, opened, some src, htype, hnames, rfl, hvia⟩⟩

/-- Where the names come from. -/
lemma names_of_findPath {name : Option WString} {fileName : WString}
    (h : findPath env rounds hFile dwFlags = some (.ok (.names name fileName))) :
    hFile ≠ none ∧ ∃ type src opened, volumeNameType dwFlags = some type ∧
      queryNames env rounds = some (.ok (src, opened)) ∧
      volumeName env rounds type src opened = some (.ok name) ∧
      IsFileName env rounds dwFlags opened fileName ∧
      (NameGiven env rounds dwFlags ∨ NotNormalized env rounds dwFlags ∧
        ∃ source length path, longPathSource env rounds type name = some (.ok (some source)) ∧
          LongPathIs env source opened length path ∧
          length < opened.length + source.length + 1 ∧ source.length ≤ path.length + 1) := by
  obtain ⟨hvalid, type, src, opened, name', htype, hnames, hname, hnormalize⟩ :=
    findPath_eq_ok.mp h
  refine ⟨hvalid, type, src, opened, htype, hnames, ?_⟩
  rcases nameGiven_or hnormalize with hgiven | hnot
  · obtain ⟨fileName', hgiven', hfile⟩ := normalize_of_nameGiven hgiven type name' opened
    rw [hgiven'] at hnormalize
    obtain ⟨rfl, rfl⟩ := Found.names.inj (Except.ok.inj (Option.some.inj hnormalize))
    exact ⟨hname, hfile, Or.inl hgiven⟩
  · obtain ⟨hvia, hfile⟩ := normalize_of_notNormalized hnot type name' opened
    rw [hvia] at hnormalize
    obtain ⟨source, size, path, hsource, hpath, hfound⟩ := viaLongPath_eq_ok.mp hnormalize
    rcases hfound with ⟨-, hfound⟩ | ⟨hfits, hmoved, hfound⟩
    · cases hfound
    · obtain ⟨rfl, rfl⟩ := Found.names.inj hfound
      exact ⟨hname, hfile, Or.inr ⟨hnot, source, size, path, hsource, hpath, hfits, hmoved⟩⟩

/-- **No name of the volume.** -/
lemma findPath_null_iff :
    (∃ fileName, findPath env rounds hFile dwFlags = some (.ok (.names none fileName))) ↔
      PrefixLost env rounds hFile dwFlags := by
  constructor
  · rintro ⟨fileName, h⟩
    obtain ⟨hvalid, type, src, opened, htype, hnames, hname, -, hway⟩ := names_of_findPath h
    obtain ⟨rfl, hguid⟩ := volumeName_eq_null hname
    rcases hway with hgiven | ⟨-, source, length, path, hsource, -⟩
    · exact ⟨hvalid, htype, src, opened, hnames, hguid, hgiven⟩
    · cases hsource
  · rintro ⟨hvalid, htype, src, opened, hnames, hguid, hgiven⟩
    obtain ⟨fileName, hnormalize, -⟩ := normalize_of_nameGiven hgiven .GUID none opened
    refine ⟨fileName, findPath_eq_ok.mpr ⟨hvalid, .GUID, src, opened, none, htype, hnames, ?_,
      hnormalize⟩⟩
    rw [volumeName, hguid]

/-- **Both names** make up the final path. -/
lemma isFinalPath_of_findPath {name fileName : WString}
    (h : findPath env rounds hFile dwFlags = some (.ok (.names (some name) fileName))) :
    IsFinalPath env rounds dwFlags name fileName ∧ PathKnown env rounds hFile dwFlags := by
  obtain ⟨hvalid, type, src, opened, htype, hnames, hname, hfile, hway⟩ := names_of_findPath h
  exact ⟨⟨type, src, opened, htype, hnames, hname, hfile⟩, hvalid, type, src, opened, name,
    htype, hnames, hname, hway⟩

lemma findPath_of_pathKnown (h : PathKnown env rounds hFile dwFlags) :
    ∃ name fileName,
      findPath env rounds hFile dwFlags = some (.ok (.names (some name) fileName)) := by
  obtain ⟨hvalid, type, src, opened, name, htype, hnames, hname, hgiven | ⟨hnot, hlong⟩⟩ := h
  · obtain ⟨fileName, hnormalize, -⟩ := normalize_of_nameGiven hgiven type (some name) opened
    exact ⟨name, fileName, findPath_eq_ok.mpr ⟨hvalid, type, src, opened, some name, htype,
      hnames, hname, hnormalize⟩⟩
  · obtain ⟨source, size, path, hsource, hpath, hfits, hmoved⟩ := hlong
    refine ⟨name, opened, findPath_eq_ok.mpr ⟨hvalid, type, src, opened, some name, htype,
      hnames, hname, ?_⟩⟩
    rw [(normalize_of_notNormalized hnot type (some name) opened).1]
    exact viaLongPath_eq_ok.mpr ⟨source, size, path, hsource, hpath,
      Or.inr ⟨hfits, hmoved, rfl⟩⟩

/-! ## The buffer -/

/-- A string and its terminator are stored where there is room. -/
lemma storeString_eq {v s : WString} {rest : List UInt16} (hroom : s.length < rest.length) :
    storeString (v ++ rest) v.length s = v ++ s ++ [0] ++ rest.drop (s.length + 1) := by
  have hspace : s.length ≤ (v ++ rest).length - v.length - 1 := by
    rw [List.length_append]
    omega
  rw [storeString, List.take_of_length_le hspace, List.take_left', List.length_append]
  · show v ++ (s ++ [0]) ++ (v ++ rest).drop (v.length + (s.length + 1)) = _
    rw [List.drop_append, List.append_assoc v s]
    simp
  · rfl

/-- What was stored is read back. -/
lemma holds_append {s : WString} (hs : 0 ∉ s) (rest : List UInt16) :
    Holds (s ++ [0] ++ rest) s where
  stored := List.prefix_append _ _
  read := by
    rw [List.append_assoc, cString_append hs]
    show s ++ cString (0 :: rest) = s
    rw [cString, List.takeWhile_cons_of_neg (by simp), List.append_nil]

/-- **The path in the buffer.** -/
lemma holds_storePath {name fileName : WString} {buffer : List UInt16}
    (hstring : 0 ∉ name ++ fileName) (hroom : (name ++ fileName).length < buffer.length)
    (hsize : buffer.length ≤ STRSAFE_MAX_CCH) :
    Holds (storePath (some name) fileName buffer).buffer (name ++ fileName) := by
  rw [List.length_append] at hroom
  have hname : 0 ∉ name := fun h => hstring (List.mem_append_left _ h)
  have hlength : (buffer.set 0 0).length = buffer.length := List.length_set
  have hcopy : stringCchCopyW (buffer.set 0 0) name =
      name ++ [0] ++ (buffer.set 0 0).drop (name.length + 1) := by
    rw [stringCchCopyW, if_neg (by omega)]
    exact @storeString_eq [] name (buffer.set 0 0) (by omega)
  have hcat : stringCchCatW (stringCchCopyW (buffer.set 0 0) name) fileName =
      name ++ fileName ++ [0] ++
        ([0] ++ (buffer.set 0 0).drop (name.length + 1)).drop (fileName.length + 1) := by
    have hsame : (name ++ [0] ++ (buffer.set 0 0).drop (name.length + 1)).length =
        buffer.length := by
      rw [List.length_append, List.length_append, List.length_drop, hlength,
        List.length_singleton]
      omega
    rw [hcopy, stringCchCatW, hsame, if_neg (by omega), (holds_append hname _).read,
      List.append_assoc name [0]]
    apply storeString_eq
    rw [List.length_append, List.length_drop, hlength, List.length_singleton]
    omega
  have hfits : (((some name).map List.length).getD 0) + fileName.length + 1 ≤ buffer.length := by
    show name.length + fileName.length + 1 ≤ buffer.length
    omega
  rw [storePath, if_pos hfits]
  show Holds (stringCchCatW (stringCchCopyW (buffer.set 0 0) name) fileName) _
  rw [hcat]
  exact holds_append hstring _

/-- The sizes that `StringCch` does not accept leave an empty string in the buffer. -/
lemma cString_storePath {name fileName : WString} {buffer : List UInt16}
    (hroom : (name ++ fileName).length < buffer.length)
    (hsize : STRSAFE_MAX_CCH < buffer.length) :
    cString (storePath (some name) fileName buffer).buffer = [] := by
  rw [List.length_append] at hroom
  have hlength : (buffer.set 0 0).length = buffer.length := List.length_set
  have hfits : (((some name).map List.length).getD 0) + fileName.length + 1 ≤ buffer.length := by
    show name.length + fileName.length + 1 ≤ buffer.length
    omega
  rw [storePath, if_pos hfits]
  show cString (stringCchCatW (stringCchCopyW (buffer.set 0 0) name) fileName) = []
  rw [stringCchCopyW, hlength, if_pos (Or.inr hsize), stringCchCatW, hlength,
    if_pos (Or.inr hsize)]
  cases buffer with
  | nil => rfl
  | cons c rest => rfl

/-! ## The result -/

/-- The length of a path that is a string fits a `DWORD`. -/
lemma toNat_ret {n : ℕ} (hn : n < 2 ^ 17) : (UInt32.ofNat n).toNat = n :=
  UInt32.toNat_ofNat_of_lt' (by
    show n < 2 ^ 32
    omega)

/-- What is returned for a path that fits. -/
lemma storePath_of_fits {name : Option WString} {fileName : WString} {buffer : List UInt16}
    (hroom : ((name.map List.length).getD 0) + fileName.length < buffer.length) :
    (storePath name fileName buffer).ret =
      UInt32.ofNat (((name.map List.length).getD 0) + fileName.length) := by
  rw [storePath, if_pos (by omega)]

/-- What is returned for a path that does not fit. -/
lemma storePath_of_larger {name : Option WString} {fileName : WString} {buffer : List UInt16}
    (hroom : buffer.length ≤ ((name.map List.length).getD 0) + fileName.length) :
    storePath name fileName buffer =
      ⟨UInt32.ofNat (((name.map List.length).getD 0) + fileName.length + 1),
        some ERROR_NOT_ENOUGH_MEMORY, buffer⟩ := by
  rw [storePath, if_neg (by omega)]

/-- The name of a file begins with a backslash. -/
lemma charAt_of_findPath (hbackslash : BackslashFirst env rounds) {name : Option WString}
    {fileName : WString}
    (h : findPath env rounds hFile dwFlags = some (.ok (.names name fileName))) :
    charAt fileName 0 = 92 := by
  obtain ⟨-, type, src, opened, -, hnames, -, hfile, -⟩ := names_of_findPath h
  obtain ⟨-, -, -, hopened, -⟩ := queryNames_eq_names hnames
  rw [IsFileName] at hfile
  split at hfile
  · rename_i normalizedName _ hnormalized
    rw [hfile]
    exact hbackslash normalizedName hnormalized
  · rw [hfile]
    exact hopened

/-- A string that begins with a backslash is not empty. -/
lemma length_pos_of_charAt {s : WString} (h : charAt s 0 = 92) : 0 < s.length := by
  apply List.length_pos_of_ne_nil
  rintro rfl
  exact absurd h (by decide)

/-- The names that are found are strings, and that of the file is not empty. -/
lemma length_of_findPath (hdoc : env.Documented) (hbackslash : BackslashFirst env rounds)
    {name : Option WString} {fileName : WString}
    (h : findPath env rounds hFile dwFlags = some (.ok (.names name fileName))) :
    0 < fileName.length ∧
      ((name.map List.length).getD 0) + fileName.length + 1 < 2 ^ 17 ∧
      ∀ volume, name = some volume → 0 ∉ volume ++ fileName := by
  obtain ⟨-, type, src, opened, -, hnames, hname, hfile, -⟩ := names_of_findPath h
  obtain ⟨hzero, hlength⟩ := hfile.isString hdoc hnames
  have hpos : 0 < fileName.length := length_pos_of_charAt (charAt_of_findPath hbackslash h)
  cases name with
  | none =>
    refine ⟨hpos, ?_, nofun⟩
    show 0 + fileName.length + 1 < 2 ^ 17
    omega
  | some volume =>
    obtain ⟨hzero', hlength'⟩ := volumeName_isString hdoc hnames hname
    refine ⟨hpos, ?_, ?_⟩
    · show volume.length + fileName.length + 1 < 2 ^ 17
      omega
    · intro volume' hvolume
      obtain rfl := Option.some.inj hvolume
      rw [List.mem_append, not_or]
      exact ⟨hzero', hzero⟩

/-- The path in two names is stored as it is found. -/
lemma getFinalPathNameByHandleW_of_names {name : Option WString} {fileName : WString}
    (h : findPath env rounds hFile dwFlags = some (.ok (.names name fileName)))
    (buffer : List UInt16) :
    getFinalPathNameByHandleW env rounds hFile buffer dwFlags =
      some (storePath name fileName buffer) := by
  rw [getFinalPathNameByHandleW, h]

lemma total_length (name fileName : WString) :
    (((some name).map List.length).getD 0) + fileName.length = (name ++ fileName).length :=
  List.length_append.symm

/-- A path whose names are known is stored, and its size is returned if it does not fit. -/
lemma converges_of_names (hdoc : env.Documented) (hbackslash : BackslashFirst env rounds)
    {name fileName : WString}
    (h : findPath env rounds hFile dwFlags = some (.ok (.names (some name) fileName)))
    {buffer : List UInt16} (hsize : buffer.length ≤ STRSAFE_MAX_CCH) :
    Converges env rounds hFile buffer dwFlags := by
  obtain ⟨hpos, hlength, hstring⟩ := length_of_findPath hdoc hbackslash h
  obtain ⟨hpath, -⟩ := isFinalPath_of_findPath h
  have hresult := getFinalPathNameByHandleW_of_names h
  have htotal := total_length name fileName
  rw [htotal] at hlength
  -- a buffer that is larger than the path
  have hstored {buffer : List UInt16} (hroom : (name ++ fileName).length < buffer.length)
      (hsize : buffer.length ≤ STRSAFE_MAX_CCH) :
      (storePath (some name) fileName buffer).ret = UInt32.ofNat (name ++ fileName).length ∧
        Holds (storePath (some name) fileName buffer).buffer (name ++ fileName) := by
    refine ⟨?_, holds_storePath (hstring name rfl) hroom hsize⟩
    rw [← htotal] at hroom ⊢
    exact storePath_of_fits hroom
  constructor
  · intro result hget hret hfits
    obtain rfl := Option.some.inj ((hresult buffer).symm.trans hget)
    have hroom : (name ++ fileName).length < buffer.length := by
      by_contra hlarge
      rw [storePath_of_larger (by omega), htotal, toNat_ret (by omega)] at hfits
      omega
    obtain ⟨hret', hholds⟩ := hstored hroom hsize
    refine ⟨name, fileName, hpath, ?_, hholds⟩
    rw [hret', toNat_ret (by omega)]
  · intro result hget hret hlarge
    obtain rfl := Option.some.inj ((hresult buffer).symm.trans hget)
    have hnoroom : buffer.length ≤ (name ++ fileName).length := by
      by_contra hroom
      rw [(hstored (by omega) hsize).1, toNat_ret (by omega)] at hlarge
      omega
    rw [storePath_of_larger (by omega), htotal] at hlarge ⊢
    refine ⟨rfl, ?_⟩
    intro second hsecond
    rw [toNat_ret (by omega)] at hsecond
    have hsecond' : second.length ≤ STRSAFE_MAX_CCH := by
      rw [STRSAFE_MAX_CCH]
      omega
    obtain ⟨hret', hholds⟩ := hstored (by omega) hsecond'
    refine ⟨_, hresult second, ?_, name, fileName, hpath, ?_, hholds⟩
    · rw [hret']
      show UInt32.ofNat _ = UInt32.ofNat (_ + 1) - 1
      rw [UInt32.ofNat_add]
      exact (UInt32.add_sub_cancel _ _).symm
    · rw [hret', toNat_ret (by omega)]
  · intro length hlong
    rw [h] at hlong
    cases hlong

/-- A path without the name of the volume is no final path. -/
lemma not_converges_of_null (hdoc : env.Documented) (hbackslash : BackslashFirst env rounds)
    {fileName : WString}
    (h : findPath env rounds hFile dwFlags = some (.ok (.names none fileName)))
    (buffer : List UInt16) : ¬Converges env rounds hFile buffer dwFlags := by
  intro hconverges
  obtain ⟨hpos, hlength, -⟩ := length_of_findPath hdoc hbackslash h
  obtain ⟨-, type, src, opened, htype, hnames, hnull, -⟩ := names_of_findPath h
  -- no volume was found, so there is no path that could be promised
  have hnone (name fileName' : WString) : ¬IsFinalPath env rounds dwFlags name fileName' := by
    rintro ⟨type', src', opened', htype', hnames', hname, -⟩
    obtain rfl := Option.some.inj (htype.symm.trans htype')
    obtain ⟨rfl, rfl⟩ :=
      Prod.mk.inj (Except.ok.inj (Option.some.inj (hnames.symm.trans hnames')))
    rw [hnull] at hname
    cases hname
  have hresult := getFinalPathNameByHandleW_of_names h buffer
  have htotal : (((none : Option WString).map List.length).getD 0) + fileName.length =
      fileName.length := Nat.zero_add _
  rw [htotal] at hlength
  have hret {n : ℕ} (hn : 0 < n) (hn' : n < 2 ^ 17) : 0 < UInt32.ofNat n := by
    rw [UInt32.lt_iff_toNat_lt, toNat_ret hn']
    exact hn
  -- a length is returned all the same, for a small buffer as for a large one
  by_cases hroom : fileName.length < buffer.length
  · have hstored : (storePath none fileName buffer).ret = UInt32.ofNat fileName.length := by
      rw [storePath_of_fits (by omega), htotal]
    have hfits : (storePath none fileName buffer).ret.toNat < buffer.length := by
      rw [hstored, toNat_ret (by omega)]
      exact hroom
    have hpositive : 0 < (storePath none fileName buffer).ret := by
      rw [hstored]
      exact hret hpos (by omega)
    obtain ⟨name, fileName', hpath, -⟩ := hconverges.fits _ hresult hpositive hfits
    exact hnone name fileName' hpath
  · have hstored : (storePath none fileName buffer).ret =
        UInt32.ofNat (fileName.length + 1) := by
      rw [storePath_of_larger (by omega), htotal]
    have hlarge : buffer.length ≤ (storePath none fileName buffer).ret.toNat := by
      rw [hstored, toNat_ret (by omega)]
      omega
    have hpositive : 0 < (storePath none fileName buffer).ret := by
      rw [hstored]
      exact hret (Nat.succ_pos _) (by omega)
    obtain ⟨-, hsecond⟩ := hconverges.larger _ hresult hpositive hlarge
    obtain ⟨-, -, -, name, fileName', hpath, -⟩ :=
      hsecond (List.replicate _ 0) List.length_replicate
    exact hnone name fileName' hpath

/-- A buffer that `StringCch` does not accept holds no path. -/
lemma not_converges_of_tooLarge (hdoc : env.Documented) (hbackslash : BackslashFirst env rounds)
    {name fileName : WString}
    (h : findPath env rounds hFile dwFlags = some (.ok (.names (some name) fileName)))
    {buffer : List UInt16} (hsize : STRSAFE_MAX_CCH < buffer.length) :
    ¬Converges env rounds hFile buffer dwFlags := by
  intro hconverges
  obtain ⟨hpos, hlength, -⟩ := length_of_findPath hdoc hbackslash h
  have htotal := total_length name fileName
  rw [htotal] at hlength
  have hnonempty : 0 < (name ++ fileName).length := by
    rw [List.length_append]
    omega
  have hroom : (name ++ fileName).length < buffer.length := by
    rw [STRSAFE_MAX_CCH] at hsize
    omega
  have hresult := getFinalPathNameByHandleW_of_names h buffer
  have hstored : (storePath (some name) fileName buffer).ret =
      UInt32.ofNat (name ++ fileName).length := by
    rw [← htotal]
    apply storePath_of_fits
    omega
  have hret : (storePath (some name) fileName buffer).ret.toNat =
      (name ++ fileName).length := by
    rw [hstored, toNat_ret (by omega)]
  have hpositive : 0 < (storePath (some name) fileName buffer).ret := by
    rw [UInt32.lt_iff_toNat_lt, hret]
    exact hnonempty
  -- the path fits, and the length is returned, but the buffer holds the empty string
  obtain ⟨name', fileName', -, hlength', hholds⟩ :=
    hconverges.fits _ hresult hpositive (hret.trans_lt hroom)
  have hempty := hholds.read
  rw [cString_storePath hroom hsize] at hempty
  rw [← hempty, hret] at hlength'
  exact absurd hlength' (by
    rw [List.length_nil]
    omega)

/-- A call that fails has nothing to fulfil. -/
lemma converges_of_ret_zero {buffer : List UInt16}
    (hzero : ∀ result, getFinalPathNameByHandleW env rounds hFile buffer dwFlags = some result →
      result.ret = 0)
    (hlong : ∀ length, findPath env rounds hFile dwFlags ≠ some (.ok (.longPathLength length))) :
    Converges env rounds hFile buffer dwFlags where
  fits := by
    intro result hget hret
    rw [hzero result hget] at hret
    exact absurd hret (by decide)
  larger := by
    intro result hget hret
    rw [hzero result hget] at hret
    exact absurd hret (by decide)
  notLongPath := hlong

/-- **The size protocol** converges unless the `StringCch` functions refuse the size of the
buffer, or the name of the volume is lost. -/
theorem converges_iff (hdoc : env.Documented) (hbackslash : BackslashFirst env rounds)
    (hFile : Option Addr) (buffer : List UInt16) (dwFlags : UInt32) :
    Converges env rounds hFile buffer dwFlags ↔
      ¬(PathKnown env rounds hFile dwFlags ∧ STRSAFE_MAX_CCH < buffer.length) ∧
      ¬PrefixLost env rounds hFile dwFlags ∧ ¬LongPathAsked env rounds hFile dwFlags := by
  constructor
  · intro hconverges
    refine ⟨?_, ?_, ?_⟩
    · rintro ⟨hknown, hsize⟩
      obtain ⟨name, fileName, h⟩ := findPath_of_pathKnown hknown
      exact not_converges_of_tooLarge hdoc hbackslash h hsize hconverges
    · intro hlost
      obtain ⟨fileName, h⟩ := findPath_null_iff.mpr hlost
      exact not_converges_of_null hdoc hbackslash h buffer hconverges
    · intro hasked
      obtain ⟨length, h⟩ := (findPath_longPath_iff hdoc).mpr hasked
      exact hconverges.notLongPath length h
  · rintro ⟨hsize, hlost, hasked⟩
    have hlong (length : ℕ) :
        findPath env rounds hFile dwFlags ≠ some (.ok (.longPathLength length)) :=
      fun h => hasked ((findPath_longPath_iff hdoc).mp ⟨length, h⟩)
    -- only a path in two names is stored, all other ends return 0
    match h : findPath env rounds hFile dwFlags with
    | none =>
      apply converges_of_ret_zero _ hlong
      intro result hget
      rw [getFinalPathNameByHandleW, h] at hget
      cases hget
    | some (.error e) =>
      apply converges_of_ret_zero _ hlong
      intro result hget
      rw [getFinalPathNameByHandleW, h] at hget
      rw [← Option.some.inj hget]
    | some (.ok (.longPathLength length)) => exact absurd h (hlong length)
    | some (.ok (.names none fileName)) =>
      exact absurd (findPath_null_iff.mp ⟨fileName, h⟩) hlost
    | some (.ok (.names (some name) fileName)) =>
      apply converges_of_names hdoc hbackslash h
      by_contra hlarge
      exact hsize ⟨(isFinalPath_of_findPath h).2, by omega⟩

/-! ## A volume with two names -/

/-- The file `\a` of a volume that the mount manager gives two names; `alloc` tells which of
their blocks are allocated. -/
def twoNames (alloc : ℕ → Bool) : Environment where
  majorVersion := 5
  rtlAllocateHeap := fun allocation round =>
    match allocation with
    | .VolumeName => alloc round
    | _ => true
  ntQueryObject := fun _ => ⟨0, wide "\\Device\\HarddiskVolume1\\a"⟩
  ntQueryInformationFile := fun _ _ => ⟨0, wide "\\a"⟩
  rtlNtStatusToDosError := fun _ => ERROR_GEN_FAILURE
  createFile := true
  queryPoints := fun _ _ => ⟨true, 0,
    [wide "\\??\\Volume\x7b01234567-0123-0123-0123-0123456789ab\x7d",
     wide "\\??\\Volume\x7b76543210-0123-0123-0123-0123456789ab\x7d"]⟩
  queryDosVolumePath := fun _ _ => ⟨true, 0, wide "C:"⟩
  iswalpha := fun c => 97 ≤ toLower c && toLower c ≤ 122
  drives := ⟨some [], fun _ => none, fun _ => 3, fun _ => true⟩
  longPath := ⟨fun _ => .ok 0, fun name => .ok name, true, true⟩

lemma documented_twoNames (alloc : ℕ → Bool) : (twoNames alloc).Documented where
  ntQueryObject := fun _ =>
    (by decide +kernel : (wide "\\Device\\HarddiskVolume1\\a").length < 2 ^ 15)
  ntQueryInformationFile := fun _ _ => (by decide +kernel : (wide "\\a").length < 2 ^ 15)
  queryPoints := fun _ _ => (by decide +kernel : ∀ link ∈
    [wide "\\??\\Volume\x7b01234567-0123-0123-0123-0123456789ab\x7d",
     wide "\\??\\Volume\x7b76543210-0123-0123-0123-0123456789ab\x7d"], link.length < 2 ^ 15)
  queryDosVolumePath := fun _ _ => (by decide +kernel : (wide "C:").length < 2 ^ 15)

lemma backslashFirst_twoNames (alloc : ℕ → Bool) : BackslashFirst (twoNames alloc) 1 := by
  intro normalizedName h
  have hname : basepGetFileNameInformation (twoNames alloc) 1 .FileNormalizedNameInformation =
      some (.ok (wide "\\a")) := rfl
  obtain rfl := Except.ok.inj (Option.some.inj (hname.symm.trans h))
  rfl

/-- With `VOLUME_NAME_DOS` the path is `\\?\C:\a`. -/
theorem converges_twoNames :
    Converges (twoNames fun _ => true) 1 (some 1) (List.replicate 16 0) 0 ∧
      getFinalPathNameByHandleW (twoNames fun _ => true) 1 (some 1) (List.replicate 16 0) 0 =
        some ⟨8, none, wide "\\\\?\\C:\\a" ++ List.replicate 8 0⟩ := by
  have htype : volumeNameType 0 = some .DOS := rfl
  refine ⟨(converges_iff (documented_twoNames _) (backslashFirst_twoNames _) (some 1)
    (List.replicate 16 0) 0).mpr ⟨?_, ?_, ?_⟩, by decide +kernel⟩
  · rintro ⟨-, hsize⟩
    exact absurd hsize (by decide)
  · rintro ⟨-, hguid, -⟩
    rw [htype] at hguid
    cases hguid
  · rintro ⟨-, hnt, -⟩
    rw [htype] at hnt
    cases hnt

/-- With `VOLUME_NAME_GUID` and `FILE_NAME_OPENED`, and without a block for the second name,
only `\a` is stored. -/
theorem not_converges_twoNames :
    getFinalPathNameByHandleW (twoNames (· == 0)) 1 (some 1) (List.replicate 8 0)
        (VOLUME_NAME_GUID ||| FILE_NAME_OPENED) =
      some ⟨2, none, [92, 97, 0, 0, 0, 0, 0, 0]⟩ ∧
    ¬Converges (twoNames (· == 0)) 1 (some 1) (List.replicate 8 0)
      (VOLUME_NAME_GUID ||| FILE_NAME_OPENED) := by
  refine ⟨by decide +kernel, ?_⟩
  have hpath : findPath (twoNames (· == 0)) 1 (some 1) (VOLUME_NAME_GUID ||| FILE_NAME_OPENED) =
      some (.ok (.names none (wide "\\a"))) := rfl
  exact not_converges_of_null (documented_twoNames _) (backslashFirst_twoNames _) hpath _

end FinalPath
end ClamavWin32
