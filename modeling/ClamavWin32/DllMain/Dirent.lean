import ClamavWin32.ScanMem.ScanFile
import ClamavWin32.Semantics.Utf16
import ClamavWin32.TzApi.SystemTime
import Mathlib.Data.List.DropRight

/-!
# Directory streams

`opendir`, `readdir` and `rewinddir` of `src/dllmain/dirent.c`. The names of a directory are
UTF-16; `readdir` converts them to UTF-8, into a field of `MAX_PATH` bytes.

* `Dir`: a stream, whose search handle is the list of what it has not delivered yet;
* `readLoop`: the loop of `readdir` from a call of `FindNextFile` on;
* `readNth`: what the successive calls of `readdir` return.
-/

namespace ClamavWin32
namespace Dirent

open ScanMem (Build)
open TzApi (FileTime)

/-- What the functions set `errno` to. -/
inductive Errno where
  /-- It is not set. -/
  | unset
  /-- It is set to 0. -/
  | zero
  | ENOENT
  | ENOMEM
  | ENOTDIR
  | ENAMETOOLONG
  deriving DecidableEq, Repr

/-- What is used of a `WIN32_FIND_DATA`. -/
structure FindData where
  cFileName : WString
  dwFileAttributes : UInt32
  ftCreationTime : FileTime
  nFileSizeLow : UInt32
  deriving DecidableEq, Repr

inductive FileType where
  | DT_BLOCK
  | DT_CHR
  | DT_DIR
  | DT_FIFO
  | DT_LNK
  | DT_REG
  | DT_SOCK
  | DT_UNKNOWN
  deriving DecidableEq, Repr

/-- `struct dirent` -/
structure DirEntry where
  d_ino : UInt16
  d_type : FileType
  d_name : CString
  deriving DecidableEq, Repr

/-- `DIR` -/
structure Dir where
  /-- `none` is `INVALID_HANDLE_VALUE`. -/
  dh : Option (List FindData)
  /-- The pattern of the search. -/
  entry : WString
  deriving DecidableEq, Repr

/-- What is answered to the calls of `opendir`. -/
structure OpendirCalls where
  /-- Whether the path is a directory, `none` if `w32_stat` fails. -/
  w32_stat : Option Bool
  malloc : Bool
  uncpath : Option WString
  deriving DecidableEq, Repr

/-- `opendir` -/
def opendir (build : Build) (calls : OpendirCalls) : Except Errno Dir :=
  match calls.w32_stat with
  | none => .error .unset
  | some isDir =>
    if !isDir then .error .ENOTDIR
    else if !calls.malloc then .error .ENOMEM
    else
      match calls.uncpath with
      | none => .error .unset
      | some wpath =>
        let entry := wpath.take (build.MAX_PATH - 1)
        if build.MAX_PATH - 5 ≤ entry.length then .error .ENAMETOOLONG
        else .ok { dh := none, entry := entry.rdropWhile (· == 0x5C) ++ wide "\\*.*" }

def FILE_ATTRIBUTE_DIRECTORY : UInt32 := 0x10

/-- `WideCharToMultiByte (CP_UTF8, 0, .., -1, .., MAX_PATH - 1, ..)`: the string is converted
if it fits the buffer with its terminator. -/
def wideCharToMultiByte (conv : Utf8Conversion) (build : Build) (name : WString) :
    Option CString :=
  if (conv.convert name).length + 1 ≤ build.MAX_PATH - 1 then some (conv.convert name) else none

/-- `d_ino`, which is never 0. -/
def inode (wfd : FindData) : UInt16 :=
  let d_ino := (wfd.ftCreationTime.dwLowDateTime ^^^ wfd.nFileSizeLow).toUInt16
  if d_ino = 0 then 0x1337 else d_ino

/-- An entry as `readdir` fills it in. -/
def dirEntry (wfd : FindData) (d_name : CString) : DirEntry where
  d_ino := inode wfd
  d_type := if wfd.dwFileAttributes &&& FILE_ATTRIBUTE_DIRECTORY ≠ 0 then .DT_DIR else .DT_REG
  d_name := d_name

/-- `readdir`, its loop with a search that has these files left: the entry that it returns, and
what is left then. -/
def readLoop (conv : Utf8Conversion) (build : Build) :
    List FindData → Except Errno DirEntry × List FindData
  | [] => (.error .zero, [])
  | wfd :: rest =>
    match wideCharToMultiByte conv build wfd.cFileName with
    | some d_name => (.ok (dirEntry wfd d_name), rest)
    | none => readLoop conv build rest

/-- `readdir`, where `findFirstFile` lists the files that match a pattern. -/
def readdir (conv : Utf8Conversion) (build : Build) (findFirstFile : WString → List FindData)
    (dirp : Dir) : Except Errno DirEntry × Dir :=
  match dirp.dh with
  | none =>
    match findFirstFile dirp.entry with
    | [] => (.error .ENOENT, dirp)
    | wfd :: rest =>
      let (ent, rest) := readLoop conv build (wfd :: rest)
      (ent, { dirp with dh := some rest })
  | some rest =>
    let (ent, rest) := readLoop conv build rest
    (ent, { dirp with dh := some rest })

/-- `rewinddir` -/
def rewinddir (dirp : Dir) : Dir := { dirp with dh := none }

/-- The stream after so many calls of `readdir`. -/
def dirAfter (conv : Utf8Conversion) (build : Build) (findFirstFile : WString → List FindData) :
    ℕ → Dir → Dir
  | 0, dirp => dirp
  | n + 1, dirp =>
    dirAfter conv build findFirstFile n (readdir conv build findFirstFile dirp).2

/-- What the call of `readdir` after so many others returns, `none` is `NULL`. -/
def readNth (conv : Utf8Conversion) (build : Build) (findFirstFile : WString → List FindData)
    (n : ℕ) (dirp : Dir) : Option DirEntry :=
  (readdir conv build findFirstFile (dirAfter conv build findFirstFile n dirp)).1.toOption

end Dirent
end ClamavWin32
