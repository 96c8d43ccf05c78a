import ClamavWin32.FinalPath.LongPath

/-!
# The long form of a path in a buffer

`GetLongPathNameW` of `src/legacy/shared/getlongpathnamew.c` for any buffer, which may be
`NULL`, may be apart from the path or may overlap it.

The characters of the caller's memory are a function of their addresses, in characters. The
blocks that the function allocates for itself are values: `lpFileName` is the path as it is on
entry, and what is stored in the block or the buffer at `Dst` is a string that grows at its
end.

`longForm` says what a long path is.
-/

namespace ClamavWin32
namespace FinalPath

/-! ## Memory -/

/-- The characters at the addresses of the process. -/
abbrev Memory := Addr → UInt16

/-- `memmove (p, s, s.length)` -/
def Memory.store (memory : Memory) (p : Addr) (s : List UInt16) : Memory := fun a =>
  if p ≤ a ∧ a < p + s.length then charAt s (a - p) else memory a

/-- The string that begins at an address. -/
structure HoldsAt (memory : Memory) (p : Addr) (s : WString) : Prop where
  chars : ∀ i < s.length, memory (p + i) = charAt s i
  terminator : memory (p + s.length) = 0

/-! ## The code -/

/-- The first component of the path that is to be replaced, if the path has a part that can be
and that is not empty. -/
def findFirst (path : WString) : Option (ℕ × ℕ) :=
  (skipPathTypeIndicator_U path).bind fun i => findLFNorSFN_U i (path.drop i)

/-- The loop of `GetLongPathNameW` and the piece behind the last component that was replaced:
`ReturnLength`, unless a file is not found, and what is stored at `Dst`. -/
def longPathRun (env : LongPathEnvironment) (path : WString) (cchBuffer src first last : ℕ)
    (returnLength : ℕ) (dst : WString) : Except ErrorCode ℕ × WString :=
  let before := (path.take first).drop src
  let returnLength := returnLength + before.length
  let dst := storePiece cchBuffer returnLength dst before
  match env.findFirstFileW (path.take last) with
  | .error e => (.error e, dst)
  | .ok cFileName =>
    let name := if cFileName.length ≠ 0 then cFileName else (path.take last).drop first
    let returnLength := returnLength + name.length
    let dst := storePiece cchBuffer returnLength dst name
    match _hnext : findLFNorSFN_U last (path.drop last) with
    | some (first', last') =>
      longPathRun env path cchBuffer last first' last' returnLength dst
    | none =>
      let rest := path.drop last
      let returnLength := returnLength + rest.length
      (.ok returnLength, storePiece cchBuffer returnLength dst rest)
termination_by path.length - last
decreasing_by
  have hbounds := findLFNorSFN_U_bounds _hnext
  rw [List.length_drop] at hbounds
  omega

/-- The arguments of `GetLongPathNameW`, with the string at the first one. -/
structure LongPathCall where
  lpszShortPath : Addr
  path : WString
  lpszLongPath : Addr
  cchBuffer : UInt32

/-- The buffer overlaps the path, or ends where the path begins. -/
def LongPathCall.overlaps (call : LongPathCall) : Bool :=
  let length := call.path.length + 1
  (call.lpszLongPath ≥ call.lpszShortPath && call.lpszLongPath < call.lpszShortPath + length) ||
    (call.lpszLongPath < call.lpszShortPath &&
      call.lpszLongPath + call.cchBuffer.toNat ≥ call.lpszShortPath)

/-- The number of characters that may be stored: there are none at `NULL`. -/
def LongPathCall.room (call : LongPathCall) : ℕ :=
  if call.lpszLongPath = 0 then 0 else call.cchBuffer.toNat

/-- What `GetLongPathNameW` returns, the last error if it is set, and the memory. -/
structure LongPathResult where
  ret : UInt32
  lastError : Option ErrorCode
  memory : Memory

/-- `GetLongPathNameW` -/
def LongPathCall.getLongPathNameW (call : LongPathCall) (env : LongPathEnvironment)
    (memory : Memory) : LongPathResult :=
  if call.lpszShortPath = 0 then ⟨0, some ERROR_INVALID_PARAMETER, memory⟩
  else
    match env.getFileAttributesW call.path with
    | .error e => ⟨0, some e, memory⟩
    | .ok _ =>
      match findFirst call.path with
      | none =>
        let returnLength := call.path.length
        if returnLength < call.room then
          ⟨UInt32.ofNat returnLength, none,
            if call.lpszLongPath ≠ call.lpszShortPath then
              memory.store call.lpszLongPath (call.path ++ [0])
            else memory⟩
        else ⟨UInt32.ofNat (returnLength + 1), none, memory⟩
      | some (first, last) =>
        if !env.allocFileName then ⟨0, some ERROR_NOT_ENOUGH_MEMORY, memory⟩
        else
          -- what is stored goes to a block of its own first
          let shadow := 0 < call.room && call.overlaps
          if shadow && !env.allocBuffer then ⟨0, some ERROR_NOT_ENOUGH_MEMORY, memory⟩
          else
            match longPathRun env call.path call.room 0 first last 0 [] with
            | (.error e, dst) =>
              ⟨0, some e, if shadow then memory else memory.store call.lpszLongPath dst⟩
            | (.ok returnLength, dst) =>
              if returnLength < call.room then
                ⟨UInt32.ofNat returnLength, none, memory.store call.lpszLongPath (dst ++ [0])⟩
              else
                ⟨UInt32.ofNat (returnLength + 1), none,
                  if shadow then memory else memory.store call.lpszLongPath dst⟩

/-! ## The long path -/

/-- A name of the form 8.3: one to eight characters, and then perhaps a dot and up to three
characters, none of which is a dot. -/
def IsShortName (name : WString) : Prop :=
  let base := name.takeWhile (· ≠ 46)
  let extension := name.dropWhile (· ≠ 46)
  1 ≤ base.length ∧ base.length ≤ 8 ∧ extension.length ≤ 4 ∧ 46 ∉ extension.tail

instance (name : WString) : Decidable (IsShortName name) :=
  inferInstanceAs (Decidable (_ ∧ _ ∧ _ ∧ _))

/-- The name that a component is replaced by, where `before` is what lies before it in the
path. -/
def longName (findFirstFileW : WString → Except ErrorCode WString) (before component : WString) :
    Except ErrorCode WString :=
  if IsShortName component then
    (findFirstFileW (before ++ component)).map fun cFileName =>
      if cFileName = [] then component else cFileName
  else .ok component

/-- What lies behind `before` in the path, with every component of the form 8.3 replaced by the
name that is found for it. -/
def longForm (findFirstFileW : WString → Except ErrorCode WString) (before : WString) :
    WString → Except ErrorCode WString
  | [] => .ok []
  | c :: rest =>
    if isSeparator c then (longForm findFirstFileW (before ++ [c]) rest).map (c :: ·)
    else
      let component := c :: rest.takeWhile fun c => !isSeparator c
      let after := rest.dropWhile fun c => !isSeparator c
      match longName findFirstFileW before component with
      | .error e => .error e
      | .ok name => (longForm findFirstFileW (before ++ component) after).map (name ++ ·)
termination_by rest => rest.length
decreasing_by
  · exact Nat.lt_succ_self _
  · have hle := (rest.dropWhile_suffix fun c => !isSeparator c).length_le
    exact Nat.lt_succ_of_le hle

/-- The long path: its components behind the indicator of its type are the long names, and a
path without such an indicator is as it was. -/
def longPath (findFirstFileW : WString → Except ErrorCode WString) (path : WString) :
    Except ErrorCode WString :=
  match skipPathTypeIndicator_U path with
  | none => .ok path
  | some i => (longForm findFirstFileW (path.take i) (path.drop i)).map (path.take i ++ ·)

end FinalPath
end ClamavWin32
