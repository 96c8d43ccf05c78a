import ClamavWin32.FinalPath.FinalPathNameTheorems

/-!
# The normalised name

Where `FILE_NAME_OPENED` is not asked for, the name of the file in the path is to be the one
that the system reports for each of its components. `GetFinalPathNameByHandleW` takes it from
`FileNormalizedNameInformation`, or else from `GetLongPathNameW`.

* `ReturnsPath` is a call that stores a path.
* `Reported` is a name whose components are those that `FindFirstFileW` finds.
* `reported_iff` says when the name in the path is one.
-/

namespace ClamavWin32
namespace FinalPath

variable {env : Environment} {rounds : ℕ} {hFile : Option Addr} {dwFlags : UInt32}

/-! ## The property -/

/-- A part of a path between two separators or ends of it. -/
structure IsComponent (before component after : WString) : Prop where
  ne_nil : component ≠ []
  noSeparator : ∀ c ∈ component, isSeparator c = false
  begins : ∀ c ∈ before.getLast?, isSeparator c = true
  ends : ∀ c ∈ after.head?, isSeparator c = true

/-- Every component of a name on the volume `root` is the name of the file that is found for
the path up to there. -/
def Reported (env : Environment) (root fileName : WString) : Prop :=
  ∀ before component after, fileName = before ++ component ++ after →
    IsComponent before component after →
    env.longPath.findFirstFileW (root ++ before ++ component) = .ok component

/-- The call succeeds: a path fits the buffer, is in it, and its length is returned. -/
structure ReturnsPath (result : Result) (buffer : List UInt16) (volumeName fileName : WString) :
    Prop where
  pos : 0 < result.ret
  fits : result.ret.toNat < buffer.length
  noError : result.lastError = none
  length_eq : result.ret.toNat = (volumeName ++ fileName).length
  holds : Holds result.buffer (volumeName ++ fileName)

/-! ## The path in the buffer -/

/-- Without the name of a volume the path is stored as it is with an empty one. -/
lemma storePath_null (fileName : WString) (buffer : List UInt16) :
    storePath none fileName buffer = storePath (some []) fileName buffer := by
  have hempty : stringCchCopyW (buffer.set 0 0) [] = buffer.set 0 0 := by
    rw [stringCchCopyW]
    split
    · rfl
    · rename_i hsize
      cases buffer with
      | nil => exact absurd (Or.inl rfl) hsize
      | cons c rest => simp [storeString]
  have hlength : (((some ([] : WString)).map List.length).getD 0) + fileName.length =
      (((none : Option WString).map List.length).getD 0) + fileName.length := rfl
  rw [storePath, storePath, hlength]
  simp only [hempty]

/-- A path that is stored without an error fits. -/
lemma fits_of_storePath {name : Option WString} {fileName : WString} {buffer : List UInt16}
    (h : (storePath name fileName buffer).lastError = none) :
    ((name.map List.length).getD 0) + fileName.length < buffer.length := by
  by_contra hlarge
  rw [storePath_of_larger (by omega)] at h
  cases h

/-- What is read from the buffer is what was stored. -/
lemma ReturnsPath.eq_of_storePath {name volume fileName found : WString} {buffer : List UInt16}
    (h : ReturnsPath (storePath (some name) found buffer) buffer volume fileName)
    (hstring : 0 ∉ name ++ found) : volume ++ fileName = name ++ found := by
  have hroom := fits_of_storePath h.noError
  have htotal : (((some name).map List.length).getD 0) + found.length =
      (name ++ found).length := List.length_append.symm
  rw [htotal] at hroom
  by_cases hsize : buffer.length ≤ STRSAFE_MAX_CCH
  · exact h.holds.read.symm.trans (holds_storePath hstring hroom hsize).read
  · -- nothing is stored, but the length of the path is not zero
    have hread := h.holds.read
    rw [cString_storePath hroom (by omega)] at hread
    have hlength := h.length_eq
    rw [← hread, List.length_nil] at hlength
    have hpos := UInt32.lt_iff_toNat_lt.mp h.pos
    rw [hlength] at hpos
    exact absurd hpos (Nat.lt_irrefl _)

/-- The name in the path is the normalised one if the system gives it, and otherwise the name
as it was opened. -/
lemma fileName_of_returnsPath (hdoc : env.Documented) {type : VolumeNameType}
    (htype : volumeNameType dwFlags = some type) {src opened : WString}
    (hnames : queryNames env rounds = some (.ok (src, opened))) {volume : Option WString}
    (hname : volumeName env rounds type src opened = some (.ok volume))
    {buffer : List UInt16} {result : Result} {fileName : WString}
    (hresult : getFinalPathNameByHandleW env rounds hFile buffer dwFlags = some result)
    (hreturns : ReturnsPath result buffer (volume.getD []) fileName) :
    IsFileName env rounds dwFlags opened fileName := by
  rw [getFinalPathNameByHandleW] at hresult
  split at hresult
  · cases hresult
  · rw [← Option.some.inj hresult] at hreturns
    cases hreturns.noError
  · rw [← Option.some.inj hresult] at hreturns
    cases hreturns.noError
  · rename_i name found hpath
    obtain ⟨-, type', src', opened', htype', hnames', hname', hfile, -⟩ := names_of_findPath hpath
    obtain rfl := Option.some.inj (htype.symm.trans htype')
    obtain ⟨rfl, rfl⟩ :=
      Prod.mk.inj (Except.ok.inj (Option.some.inj (hnames.symm.trans hnames')))
    obtain rfl := Except.ok.inj (Option.some.inj (hname.symm.trans hname'))
    obtain ⟨hzero, -⟩ := hfile.isString hdoc hnames
    rw [← Option.some.inj hresult] at hreturns
    have hpaths : volume.getD [] ++ fileName = volume.getD [] ++ found := by
      cases volume with
      | none =>
        rw [storePath_null] at hreturns
        exact hreturns.eq_of_storePath hzero
      | some name =>
        obtain ⟨hzero', -⟩ := volumeName_isString hdoc hnames hname
        apply hreturns.eq_of_storePath
        rw [List.mem_append, not_or]
        exact ⟨hzero', hzero⟩
    rw [List.append_cancel_left hpaths]
    exact hfile

/-- **The normalised name.** The path that is returned has the names that the system reports if
and only if the system itself gives the normalised name, or these are the names by which the
file was opened. -/
theorem reported_iff (hdoc : env.Documented) {root : WString}
    (hnormalized : ∀ name, basepGetFileNameInformation env rounds .FileNormalizedNameInformation =
      some (.ok name) → Reported env root name)
    (hflag : hasFlag dwFlags FILE_NAME_OPENED = false) {type : VolumeNameType}
    (htype : volumeNameType dwFlags = some type) {src opened : WString}
    (hnames : queryNames env rounds = some (.ok (src, opened))) {volume : Option WString}
    (hname : volumeName env rounds type src opened = some (.ok volume))
    {buffer : List UInt16} {result : Result} {fileName : WString}
    (hresult : getFinalPathNameByHandleW env rounds hFile buffer dwFlags = some result)
    (hreturns : ReturnsPath result buffer (volume.getD []) fileName) :
    Reported env root fileName ↔
      (∃ name, basepGetFileNameInformation env rounds .FileNormalizedNameInformation =
        some (.ok name)) ∨ Reported env root opened := by
  have hfile := fileName_of_returnsPath hdoc htype hnames hname hresult hreturns
  rw [IsFileName, hflag] at hfile
  split at hfile
  · rename_i name _ hgiven
    rw [hfile]
    exact iff_of_true (hnormalized name hgiven) (Or.inl ⟨name, hgiven⟩)
  · rename_i hnotGiven
    rw [hfile]
    apply (or_iff_right _).symm
    rintro ⟨name, hgiven⟩
    exact hnotGiven name rfl hgiven

/-! ## A directory with a short name -/

/-- The directory `\Program Files` of a system without normalised names, opened by a name. -/
def programFiles (opened : WString) : Environment := { twoNames fun _ => true with
  ntQueryObject := fun _ => ⟨0, wide "\\Device\\HarddiskVolume1" ++ opened⟩
  ntQueryInformationFile := fun cls _ =>
    match cls with
    | .FileNameInformation => ⟨0, opened⟩
    | .FileNormalizedNameInformation => ⟨0xC000000D, []⟩
  rtlNtStatusToDosError := fun _ => ERROR_INVALID_PARAMETER
  longPath := ⟨fun _ => .ok 16, fun _ => .ok (wide "Program Files"), true, true⟩ }

/-- The test runs through the characters of the name, not through all that there are. -/
lemma noSeparator_of_all {name : WString} (h : name.all (fun c => !isSeparator c) = true) :
    ∀ c ∈ name, isSeparator c = false := by
  intro c hc
  simpa using List.all_eq_true.mp h c hc

/-- The only component of a name in the root directory. -/
lemma eq_of_isComponent {name before component after : WString}
    (hname : ∀ c ∈ name, isSeparator c = false)
    (h : 92 :: name = before ++ component ++ after) (hc : IsComponent before component after) :
    before = [92] ∧ component = name := by
  obtain ⟨hne, hno, hbegins, hends⟩ := hc
  cases before with
  | nil =>
    -- the separator would be in the component
    cases component with
    | nil => exact absurd rfl hne
    | cons c rest =>
      have hfirst := hno c List.mem_cons_self
      rw [← (List.cons.inj h).1] at hfirst
      exact absurd hfirst (by decide)
  | cons c before =>
    obtain ⟨rfl, hrest⟩ := List.cons.inj h
    rw [List.append_eq, List.append_eq] at hrest
    have hbefore : before = [] := by
      by_contra hsome
      have hlast := hbegins (before.getLast hsome) (by
        rw [List.getLast?_cons, List.getLast?_eq_getLast_of_ne_nil hsome]
        rfl)
      have hmem : before.getLast hsome ∈ name := by
        rw [hrest]
        exact List.mem_append_left _ (List.mem_append_left _ (List.getLast_mem hsome))
      rw [hname _ hmem] at hlast
      cases hlast
    have hafter : after = [] := by
      cases after with
      | nil => rfl
      | cons c rest =>
        have hsep := hends c rfl
        have hmem : c ∈ name := by
          rw [hrest]
          exact List.mem_append_right _ List.mem_cons_self
        rw [hname c hmem] at hsep
        cases hsep
    rw [hbefore, hafter, List.nil_append, List.append_nil] at hrest
    exact ⟨congrArg _ hbefore, hrest.symm⟩

/-- A name in the root directory is reported where the system finds it by itself. -/
lemma reported_of_root {root name : WString} (hname : ∀ c ∈ name, isSeparator c = false)
    (hfind : env.longPath.findFirstFileW (root ++ [92] ++ name) = .ok name) :
    Reported env root (92 :: name) := by
  intro before component after hsplit hcomponent
  obtain ⟨rfl, rfl⟩ := eq_of_isComponent hname hsplit hcomponent
  exact hfind

lemma documented_programFiles {opened : WString} (hopened : opened.length < 2 ^ 14) :
    (programFiles opened).Documented where
  ntQueryObject := by
    intro round
    show (wide "\\Device\\HarddiskVolume1" ++ opened).length < 2 ^ 15
    have hdevice : (wide "\\Device\\HarddiskVolume1").length = 23 := by decide +kernel
    rw [List.length_append, hdevice]
    omega
  ntQueryInformationFile := by
    intro cls round
    cases cls with
    | FileNameInformation =>
      show opened.length < 2 ^ 15
      omega
    | FileNormalizedNameInformation => exact (by decide : 0 < 2 ^ 15)
  queryPoints := (documented_twoNames fun _ => true).queryPoints
  queryDosVolumePath := (documented_twoNames fun _ => true).queryDosVolumePath

/-- Opened by its long name, the directory is found under it. -/
theorem reported_programFiles :
    Reported (programFiles (wide "\\Program Files")) (wide "\\\\?\\C:")
      (wide "\\Program Files") := by
  have hresult : getFinalPathNameByHandleW (programFiles (wide "\\Program Files")) 1 (some 1)
      (List.replicate 24 0) 0 =
        some ⟨20, none, wide "\\\\?\\C:\\Program Files" ++ List.replicate 4 0⟩ := by
    decide +kernel
  have hreturns : ReturnsPath ⟨20, none, wide "\\\\?\\C:\\Program Files" ++ List.replicate 4 0⟩
      (List.replicate 24 0) (wide "\\\\?\\C:") (wide "\\Program Files") :=
    ⟨by decide, by decide +kernel, rfl, by decide +kernel, ⟨by decide +kernel, by decide +kernel⟩⟩
  have hnormalized (name : WString) (h : basepGetFileNameInformation
      (programFiles (wide "\\Program Files")) 1 .FileNormalizedNameInformation =
        some (.ok name)) :
      Reported (programFiles (wide "\\Program Files")) (wide "\\\\?\\C:") name := by
    cases h
  refine (reported_iff (documented_programFiles (by decide)) hnormalized rfl
    (rfl : volumeNameType 0 = some .DOS) rfl rfl hresult hreturns).mpr (Or.inr ?_)
  exact reported_of_root (noSeparator_of_all (by decide +kernel)) rfl

/-- Opened by its short name, it is found under that. -/
theorem programFiles_not_reported :
    getFinalPathNameByHandleW (programFiles (wide "\\PROGRA~1")) 1 (some 1)
        (List.replicate 24 0) 0 =
      some ⟨15, none, wide "\\\\?\\C:\\PROGRA~1" ++ List.replicate 9 0⟩ ∧
    (programFiles (wide "\\PROGRA~1")).longPath.findFirstFileW (wide "\\\\?\\C:\\PROGRA~1") =
      .ok (wide "Program Files") ∧
    ¬Reported (programFiles (wide "\\PROGRA~1")) (wide "\\\\?\\C:") (wide "\\PROGRA~1") := by
  refine ⟨by decide +kernel, rfl, ?_⟩
  intro hreported
  have hbegins (c : UInt16) (hc : c ∈ [(92 : UInt16)].getLast?) : isSeparator c = true := by
    obtain rfl := Option.some.inj hc
    rfl
  have hfind := hreported [92] (wide "PROGRA~1") [] rfl
    ⟨by decide +kernel, noSeparator_of_all (by decide +kernel), hbegins, nofun⟩
  exact absurd (Except.ok.inj hfind) (by decide +kernel)

end FinalPath
end ClamavWin32
