import ClamavWin32.Win32
import Mathlib.Tactic.Common

/-!
# The long form of a path

`GetLongPathNameW` of `src/legacy/shared/getlongpathnamew.c` and what it calls, for a buffer
that the path itself is in: every component that may be a short name is replaced by the name
under which the system finds it.

Pointers into the path are offsets from its start. What the system answers is a
`LongPathEnvironment`.
-/

namespace ClamavWin32
namespace FinalPath

/-- The character at an index, which is 0 behind the end of a string. -/
def charAt (s : WString) (i : ℕ) : UInt16 := s[i]?.getD 0

/-- `\` or `/` -/
def isSeparator (c : UInt16) : Bool := c == 92 || c == 47

/-! ## The type of a path -/

/-- `RTL_PATH_TYPE` -/
inductive RtlPathType where
  | UncAbsolute
  | DriveAbsolute
  | DriveRelative
  | Rooted
  | Relative
  | LocalDevice
  | RootLocalDevice
  deriving DecidableEq, Repr

/-- `RtlDetermineDosPathNameType_U` -/
def rtlDetermineDosPathNameType_U (path : WString) : RtlPathType :=
  if !isSeparator (charAt path 0) then
    if charAt path 0 = 0 ∨ charAt path 1 ≠ 58 then .Relative
    else if isSeparator (charAt path 2) then .DriveAbsolute
    else .DriveRelative
  else if !isSeparator (charAt path 1) then .Rooted
  else if charAt path 2 ≠ 46 ∧ charAt path 2 ≠ 63 then .UncAbsolute
  else if isSeparator (charAt path 3) then .LocalDevice
  else if charAt path 3 ≠ 0 then .UncAbsolute
  else .RootLocalDevice

/-- A letter `A` to `Z` in lower case, other characters as they are. -/
def toLower (c : UInt16) : UInt16 := if 65 ≤ c ∧ c ≤ 90 then c + 32 else c

/-- `wcsnicmp (a, b, n) == 0` -/
def wcsnicmpEq (a b : WString) (n : ℕ) : Bool :=
  wcsncmpEq (a.map toLower) (b.map toLower) n

/-- The loop of `SkipPathTypeIndicator_U`: the characters up to the end of the string or
behind its `i`-th separator. -/
def skipSeparators : ℕ → WString → ℕ
  | 0, _ => 0
  | _, [] => 0
  | i + 1, c :: path =>
    if isSeparator c then 1 + skipSeparators i path else 1 + skipSeparators (i + 1) path

/-- `SkipPathTypeIndicator_U`, `none` for `NULL`. -/
def skipPathTypeIndicator_U (path : WString) : Option ℕ :=
  match rtlDetermineDosPathNameType_U path with
  | .UncAbsolute =>
    -- compared with the path as a whole, which begins with two separators
    let returnPath := if wcsnicmpEq path (wide "?\\UNC") 5 then 8 else 2
    some (returnPath + skipSeparators 2 (path.drop returnPath))
  | .DriveAbsolute => some 3
  | .DriveRelative => some 2
  | .Rooted => some 1
  | .Relative => some 0
  | .LocalDevice | .RootLocalDevice => none

/-! ## Components -/

/-- The loop of `IsLongName_U` over the rest of a name, of which `i` characters were read. -/
def isLongNameLoop : WString → ℕ → Bool → Bool
  | [], _, _ => false
  | c :: rest, i, bExt =>
    if c = 46 ∧ (bExt ∨ rest.length > 3) then true
    else
      let bExt := bExt || c == 46
      if 8 ≤ i ∧ !bExt then true else isLongNameLoop rest (i + 1) bExt

/-- `IsLongName_U` -/
def isLongName_U (fileName : WString) : Bool :=
  if fileName.length = 0 ∨ 12 < fileName.length ∨ charAt fileName 0 = 46 then true
  else isLongNameLoop fileName 0 false

/-- `FindLFNorSFN_U` with `UseShort` set to `FALSE`: the first component that is not a long
name, from its `First` character up to `Last`. `path` is what lies behind the first `offset`
characters. -/
def findLFNorSFN_U (offset : ℕ) (path : WString) : Option (ℕ × ℕ) :=
  let lead := (path.takeWhile isSeparator).length
  let rest := path.drop lead
  if rest.length = 0 then none
  else
    let length := 1 + (rest.tail.takeWhile fun c => !isSeparator c).length
    if !isLongName_U (rest.take length) then some (offset + lead, offset + lead + length)
    else if rest.length ≤ length then none
    else findLFNorSFN_U (offset + lead + length + 1) (rest.drop (length + 1))
termination_by path.length
decreasing_by
  have hrest : rest.length = path.length - lead := List.length_drop
  have hdrop : (rest.drop (length + 1)).length = rest.length - (length + 1) := List.length_drop
  show (rest.drop (length + 1)).length < path.length
  omega

/-- What is found is a part of the path behind `offset`. -/
lemma findLFNorSFN_U_bounds {offset : ℕ} {path : WString} {first last : ℕ}
    (h : findLFNorSFN_U offset path = some (first, last)) :
    offset ≤ first ∧ first < last ∧ last ≤ offset + path.length := by
  fun_induction findLFNorSFN_U offset path with
  | case1 => cases h
  | case2 offset path lead rest hrest length hlong =>
    have htake := (rest.tail.takeWhile_prefix fun c => !isSeparator c).length_le
    have hlength : rest.length = path.length - lead := List.length_drop
    rw [List.length_tail] at htake
    simp only [Option.some.injEq, Prod.mk.injEq] at h
    omega
  | case3 => cases h
  | case4 offset path lead rest hrest length hlong hmore ih =>
    have hlength : rest.length = path.length - lead := List.length_drop
    have hih := ih h
    rw [List.length_drop] at hih
    omega

/-! ## The long path -/

/-- What is answered to one call of `GetLongPathNameW`. -/
structure LongPathEnvironment where
  getFileAttributesW : WString → Except ErrorCode UInt32
  /-- The name of the file that is found. -/
  findFirstFileW : WString → Except ErrorCode WString
  /-- Whether `lpFileName` and `Buffer` are allocated. -/
  allocFileName : Bool
  allocBuffer : Bool

/-- What is stored at `Dst` after `piece`, the last part of a text of `returnLength`
characters, if that fits. -/
def storePiece (cchBuffer returnLength : ℕ) (dst piece : WString) : WString :=
  if returnLength < cchBuffer then dst ++ piece else dst

/-- The loop of `GetLongPathNameW`: the component from `first` to `last` is the next one to
be replaced, and what lies before `src` was. Returns `ReturnLength` and what is stored at
`Dst`. -/
def longPathLoop (env : LongPathEnvironment) (path : WString) (cchBuffer src first last : ℕ)
    (returnLength : ℕ) (dst : WString) : Except ErrorCode (ℕ × WString) :=
  let before := (path.take first).drop src
  let returnLength := returnLength + before.length
  let dst := storePiece cchBuffer returnLength dst before
  match env.findFirstFileW (path.take last) with
  | .error e => .error e
  | .ok cFileName =>
    let name := if cFileName.length ≠ 0 then cFileName else (path.take last).drop first
    let returnLength := returnLength + name.length
    let dst := storePiece cchBuffer returnLength dst name
    match _hnext : findLFNorSFN_U last (path.drop last) with
    | some (first', last') =>
      longPathLoop env path cchBuffer last first' last' returnLength dst
    | none =>
      let rest := path.drop last
      let returnLength := returnLength + rest.length
      .ok (returnLength, storePiece cchBuffer returnLength dst rest)
termination_by path.length - last
decreasing_by
  have hbounds := findLFNorSFN_U_bounds _hnext
  rw [List.length_drop] at hbounds
  omega

/-- `GetLongPathNameW (path, path, cchBuffer)`: what is returned, and the path that the
buffer holds afterwards. -/
def getLongPathNameW (env : LongPathEnvironment) (path : WString) (cchBuffer : ℕ) :
    Except ErrorCode (ℕ × WString) :=
  match env.getFileAttributesW path with
  | .error e => .error e
  | .ok _ =>
    match (skipPathTypeIndicator_U path).bind fun i => findLFNorSFN_U i (path.drop i) with
    | none => .ok (if path.length < cchBuffer then path.length else path.length + 1, path)
    | some (first, last) =>
      if !env.allocFileName then .error ERROR_NOT_ENOUGH_MEMORY
      else if 0 < cchBuffer ∧ !env.allocBuffer then .error ERROR_NOT_ENOUGH_MEMORY
      else
        match longPathLoop env path cchBuffer 0 first last 0 [] with
        | .error e => .error e
        | .ok (returnLength, dst) =>
          if returnLength < cchBuffer then .ok (returnLength, dst)
          else .ok (returnLength + 1, path)

/-- A path into the device namespace. -/
def IsDevicePath (path : WString) : Prop := wide "\\\\?\\" <+: path

/-- **Device paths.** No component of a path into the device namespace is looked up. -/
lemma getLongPathNameW_of_isDevicePath (env : LongPathEnvironment) {path : WString}
    (hpath : IsDevicePath path) {cchBuffer : ℕ} (hbuffer : path.length < cchBuffer) :
    getLongPathNameW env path cchBuffer =
      (env.getFileAttributesW path).map fun _ => (path.length, path) := by
  obtain ⟨rest, rfl⟩ := hpath
  have hskip : skipPathTypeIndicator_U (wide "\\\\?\\" ++ rest) = none := rfl
  rw [getLongPathNameW, hskip, Option.bind_none]
  cases env.getFileAttributesW (wide "\\\\?\\" ++ rest) with
  | error e => rfl
  | ok attributes =>
    show Except.ok (if _ < cchBuffer then _ else _, _) = _
    rw [if_pos hbuffer]
    rfl

end FinalPath
end ClamavWin32
