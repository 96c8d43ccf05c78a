import ClamavWin32.Actions.ActionSource
import ClamavWin32.Semantics.FileStore
import Mathlib.Data.Nat.Digits.Defs

/-!
# Actions on infected files

`actsetup` and the actions of `win32actions.c`: an infected file is moved or copied to the
target directory under a name that `getdest` finds free there, or it is removed.

What the C library, the system and libclamav answer is a `System`. A `World` holds the files
and the statics the actions change, and remembers the calls that were made: those that
concern files, the strings that were formatted, the resource events and the log.
-/

namespace ClamavWin32
namespace Actions

/-! ## The system -/

/-- What a file holds. -/
abbrev Data := List UInt8

inductive Errno where
  | EEXIST
  /-- Any other error. -/
  | other (code : ℕ)
  deriving DecidableEq, Repr

/-- How `open (.., O_WRONLY | O_CREAT | O_EXCL, 0600)` ends. -/
inductive OpenResult where
  | opened (fd : ℕ)
  | failed (errno : Errno)
  deriving DecidableEq, Repr

/-- What is answered to the calls of one action. -/
structure System (ε : Type*) where
  /-- The width of `size_t`. -/
  ptrBits : ℕ
  /-- The directory entry that a path names; several paths may name one entry. -/
  entry : CString → ε
  basename : CString → CString
  /-- `S_ISDIR` of what `stat` tells of a path, `none` if it fails. -/
  stat : CString → Option Bool
  /-- `none` if memory ran out. -/
  strdup : CString → Option Addr
  malloc : ℕ → Option Addr
  /-- The answer to each attempt to create a file where there is none. -/
  create : ℕ → OpenResult
  /-- What `filecopy` returns and what it leaves in the destination. -/
  filecopy : ℤ × Option Data
  /-- What `traverse_unlink` returns; it has removed the file if this is 0. -/
  traverse_unlink : ℤ

/-- A call that concerns files, and how it ended. -/
inductive FileCall where
  | openExcl (path : CString) (result : OpenResult)
  | filecopy (src dest : CString) (ret : ℤ) (left : Option Data)
  | unlink (path : CString) (ret : ℤ)
  deriving DecidableEq, Repr

/-- What a call does to the files. -/
def FileCall.ops {ε : Type*} (entry : CString → ε) : FileCall → List (FileOp ε Data)
  | .openExcl path (.opened _) => [.create (entry path) []]
  | .openExcl _ (.failed _) => []
  | .filecopy _ dest _ left => [.replace (entry dest) left]
  | .unlink path ret => if ret = 0 then [.replace (entry path) none] else []

/-- A string that `sprintf` wrote into a block. -/
structure Print where
  /-- The bytes that were asked of `malloc` for the block. -/
  size : ℕ
  text : CString
  deriving DecidableEq, Repr

/-- The string and its terminator lie in the block. -/
def Print.Fits (p : Print) : Prop := p.text.length + 1 ≤ p.size

instance (p : Print) : Decidable p.Fits := inferInstanceAs (Decidable (_ ≤ _))

inductive LogLevel where
  | LOGG_ERROR
  | LOGG_INFO
  deriving DecidableEq, Repr

inductive LogArg where
  /-- A string, `none` for `NULL`. -/
  | string (s : Option CString)
  /-- `strerror (errno)` -/
  | strerror
  deriving DecidableEq, Repr

/-- A call of `logg`. -/
structure LogLine where
  level : LogLevel
  format : String
  args : List LogArg
  deriving DecidableEq, Repr

/-- The files, the counters of failures, and what was done so far. -/
structure World (ε : Type*) where
  disk : ε → Option Data
  notmoved : UInt32
  notremoved : UInt32
  calls : List FileCall
  prints : List Print
  events : List Event
  log : List LogLine

namespace World

variable {ε : Type*} [DecidableEq ε]

/-- The world before an action. -/
def start (disk : ε → Option Data) (notmoved notremoved : UInt32) : World ε :=
  ⟨disk, notmoved, notremoved, [], [], [], []⟩

/-- The world after a call that concerns files. -/
def call (sys : System ε) (w : World ε) (c : FileCall) : World ε :=
  { w with
    disk := FileOp.perform w.disk (c.ops sys.entry)
    calls := w.calls ++ [c] }

def sprintf (w : World ε) (size : ℕ) (text : CString) : World ε :=
  { w with prints := w.prints ++ [⟨size, text⟩] }

def acquire (w : World ε) (r : Resource) : World ε :=
  { w with events := w.events ++ [.acquire r] }

def release (w : World ε) (r : Resource) : World ε :=
  { w with events := w.events ++ [.release r] }

def logg (w : World ε) (level : LogLevel) (format : String) (args : List LogArg) : World ε :=
  { w with log := w.log ++ [⟨level, format, args⟩] }

end World

/-! ## Setup -/

inductive Action where
  | action_move
  | action_copy
  | action_remove
  deriving DecidableEq, Repr

/-- The options that `actsetup` reads: the argument of each that is enabled. -/
structure Opts where
  move : Option CString
  copy : Option CString
  remove : Bool
  deriving DecidableEq, Repr

/-- `action`, `actarget` and `targlen` -/
structure Statics where
  action : Option Action
  /-- `none` is `NULL`. -/
  actarget : Option CString
  targlen : ℤ
  deriving DecidableEq, Repr

/-- The statics when the program starts. -/
def Statics.init : Statics := ⟨none, none, 0⟩

variable {ε : Type*}

/-- `isdir`, and what it logs. -/
def isdir (sys : System ε) (actarget : CString) : Bool × List LogLine :=
  if sys.stat actarget ≠ some true then
    (false, [⟨.LOGG_ERROR, "'%s' doesn't exist or is not a directory\n",
      [.string (some actarget)]⟩])
  else (true, [])

/-- `actsetup`: what it returns, the statics it leaves, and what is logged. -/
def actsetup (sys : System ε) (opts : Opts) (s : Statics) : ℤ × Statics × List LogLine :=
  match opts.move.or opts.copy with
  | some strarg =>
    let s := { s with actarget := some strarg }
    match isdir sys strarg with
    | (false, log) => (1, s, log)
    | (true, log) =>
      (0,
        { s with
          action := some (if opts.move.isSome then .action_move else .action_copy)
          targlen := int32 strarg.length },
        log)
  | none =>
    if opts.remove then (0, { s with action := some .action_remove }, []) else (0, s, [])

/-! ## Finding a free name -/

variable [DecidableEq ε]

/-- `PATHSEP` -/
def PATHSEP : CString := [92]

/-- `".%03u"` -/
def suffix (i : ℕ) : CString :=
  46 :: ((Nat.digits 10 i).reverse.map fun d => 48 + UInt8.ofNat d).leftpad 3 48

/-- `action_source_filename` -/
def action_source_filename : Option ActionSource → Option CString
  | none => none
  | some source =>
    match source.action_path with
    | some path => if path.text ≠ [] then some path.text else source.display_path.map (·.text)
    | none => source.display_path.map (·.text)

/-- `open` with `O_EXCL` fails where there is a file. -/
def openExcl (sys : System ε) (attempt : ℕ) (path : CString) (w : World ε) :
    OpenResult × World ε :=
  let result :=
    match w.disk (sys.entry path), sys.create attempt with
    | some _, .opened _ => .failed .EEXIST
    | _, answer => answer
  (result, w.call sys (.openExcl path result))

/-- The search of `getdest` from its `i`-th round on, with `n` rounds left before `i` is 1000,
and the two blocks that it frees. -/
def getdestSearch (sys : System ε) (actarget filename : CString) (size : ℕ)
    (tmps newname : Addr) : ℕ → ℕ → CString → World ε → (ℤ × Option HeapString) × World ε
  | 0, _, _, w => ((-1, none), (w.release (.block tmps)).release (.block newname))
  | n + 1, i, name, w =>
    match openExcl sys i name w with
    | (.opened fd, w) =>
      ((fd, some ⟨newname, name⟩), (w.acquire (.descriptor fd)).release (.block tmps))
    | (.failed .EEXIST, w) =>
      let next := actarget ++ PATHSEP ++ filename ++ suffix i
      getdestSearch sys actarget filename size tmps newname n (i + 1) next (w.sprintf size next)
    | (.failed (.other _), w) =>
      ((-1, none), (w.release (.block tmps)).release (.block newname))

/-- `getdest`: the descriptor it returns, and `*newname`. -/
def getdest (sys : System ε) (s : Statics) (fullpath : CString) (w : World ε) :
    (ℤ × Option HeapString) × World ε :=
  match sys.strdup fullpath with
  | none => ((-1, none), w)
  | some tmps =>
    let w := w.acquire (.block tmps)
    let filename := sys.basename fullpath
    let actarget := s.actarget.getD []
    let size := ((s.targlen + filename.length + 6) % 2 ^ sys.ptrBits).toNat
    match sys.malloc size with
    | none => ((-1, none), w.release (.block tmps))
    | some newname =>
      let name := actarget ++ PATHSEP ++ filename
      getdestSearch sys actarget filename size tmps newname 999 1 name
        ((w.acquire (.block newname)).sprintf size name)

/-! ## The actions -/

/-- `filecopy` -/
def filecopy (sys : System ε) (src dest : CString) (w : World ε) : ℤ × World ε :=
  (sys.filecopy.1, w.call sys (.filecopy src dest sys.filecopy.1 sys.filecopy.2))

/-- `traverse_unlink` -/
def traverse_unlink (sys : System ε) (path : CString) (w : World ε) : ℤ × World ε :=
  (sys.traverse_unlink, w.call sys (.unlink path sys.traverse_unlink))

/-- The lines at the end of an action that close `fd` and free `nuname`. -/
def cleanup (fd : ℤ) (nuname : Option HeapString) (w : World ε) : World ε :=
  let w := if 0 ≤ fd then w.release (.descriptor fd) else w
  match nuname with
  | some name => w.release (.block name.block)
  | none => w

/-- `if (nuname) traverse_unlink (nuname);` -/
def unlinkDest (sys : System ε) (nuname : Option HeapString) (w : World ε) : World ε :=
  match nuname with
  | some name => (traverse_unlink sys name.text w).2
  | none => w

/-- The copy of a file: `nuname` is not `NULL` where `fd` is not negative. -/
def copyTo (sys : System ε) (filename : CString) (fd : ℤ) (nuname : Option HeapString)
    (w : World ε) : Bool × World ε :=
  if fd < 0 then (false, w)
  else
    let (ret, w) := filecopy sys filename ((nuname.map (·.text)).getD []) w
    (ret == 0, w)

/-- `action_move` -/
def action_move (sys : System ε) (s : Statics) (source : Option ActionSource) (w : World ε) :
    World ε :=
  match action_source_filename source with
  | none => w
  | some filename =>
    let ((fd, nuname), w) := getdest sys s filename w
    match copyTo sys filename fd nuname w with
    | (false, w) =>
      let w := w.logg .LOGG_ERROR "Can't move file %s to %s\n"
        [.string (some filename), .string (nuname.map (·.text))]
      let w := { w with notmoved := w.notmoved + 1 }
      cleanup fd nuname (unlinkDest sys nuname w)
    | (true, w) =>
      let (ret, w) := traverse_unlink sys filename w
      let w :=
        if ret ≠ 0 then
          w.logg .LOGG_ERROR "Can't unlink '%s' after copy: %s\n"
            [.string (some filename), .strerror]
        else
          w.logg .LOGG_INFO "%s: moved to '%s'\n"
            [.string (some filename), .string (nuname.map (·.text))]
      cleanup fd nuname w

/-- `action_copy` -/
def action_copy (sys : System ε) (s : Statics) (source : Option ActionSource) (w : World ε) :
    World ε :=
  match action_source_filename source with
  | none => { w with notmoved := w.notmoved + 1 }
  | some filename =>
    let ((fd, nuname), w) := getdest sys s filename w
    match copyTo sys filename fd nuname w with
    | (false, w) =>
      let w := w.logg .LOGG_ERROR "Can't copy file '%s'\n" [.string (some filename)]
      let w := { w with notmoved := w.notmoved + 1 }
      cleanup fd nuname (unlinkDest sys nuname w)
    | (true, w) =>
      let w := w.logg .LOGG_INFO "%s: copied to '%s'\n"
        [.string (some filename), .string (nuname.map (·.text))]
      cleanup fd nuname w

/-- `action_remove` -/
def action_remove (sys : System ε) (source : Option ActionSource) (w : World ε) : World ε :=
  match action_source_filename source with
  | none => w
  | some filename =>
    let (ret, w) := traverse_unlink sys filename w
    if ret ≠ 0 then
      let w := w.logg .LOGG_ERROR "Can't remove file '%s'\n" [.string (some filename)]
      { w with notremoved := w.notremoved + 1 }
    else w.logg .LOGG_INFO "%s: Removed.\n" [.string (some filename)]

end Actions
end ClamavWin32
