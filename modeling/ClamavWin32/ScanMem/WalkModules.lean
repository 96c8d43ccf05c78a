import ClamavWin32.ScanMem.ScanCallback

/-!
# Walking the modules of all processes

`walkmodules` of the memory scanner (`scanmem.c`) enumerates the processes into an array of
1024 identifiers and the modules of each process into an array of 1024 handles, and calls a
callback for every module it can query until the callback returns a non-zero value for
that process.

The callback is any function on a state. The elements of the two arrays that are read are
recorded together with the number of elements that were stored before.
-/

namespace ClamavWin32
namespace ScanMem

open Actions
open Actions.ClError

/-- The number of elements of `procs` and of `mods`. -/
def ARRAY_LENGTH : ℕ := 1024

/-- The processors the port is built for. -/
inductive Arch where
  | x86
  | x64
  deriving DecidableEq, Repr

/-- `sizeof (HMODULE)` -/
def Arch.sizeofHMODULE : Arch → ℕ
  | .x86 => 4
  | .x64 => 8

/-- `sizeof (DWORD)` -/
def sizeofDWORD : ℕ := 4

/-- A running process, and what the system answers about it and its modules. -/
structure Process (ω : Type*) where
  pid : ℕ
  /-- `OpenProcess` succeeds. -/
  openProcess : Bool
  /-- All its modules, `none` if they cannot be enumerated. -/
  modules : Option (List Addr)
  /-- The first `GetModuleBaseName`, for the program. -/
  exeName : Addr → Option WString
  baseName : Addr → Option WString
  fileName : Addr → Option WString
  /-- `lpBaseOfDll` and `SizeOfImage` -/
  information : Addr → Option (Addr × ℕ)
  /-- What is answered to the calls the callback makes for the module at an index. -/
  answers : ℕ → ω
  /-- The size that all handles need fits a `DWORD`. -/
  fits : ∀ ms ∈ modules, ms.length < 2 ^ 29

/-- One call of the callback. -/
structure Visit (ω : Type*) where
  proc : ProcessEntry
  me32 : ModuleEntry
  answers : ω

/-- A read of an element of one of the two arrays. -/
structure ArrayRead where
  index : ℕ
  /-- How many elements the system stored into the array. -/
  stored : ℕ
  deriving DecidableEq, Repr

def ArrayRead.InBounds (r : ArrayRead) : Prop := r.index < r.stored

instance (r : ArrayRead) : Decidable r.InBounds := inferInstanceAs (Decidable (_ < _))

/-- The state of a walk: that of the callback, the array of modules, and what happened. -/
structure Walk (σ ω : Type*) where
  state : σ
  mods : ℕ → Addr
  visits : List (Visit ω)
  reads : List ArrayRead

variable {σ ω : Type*}

/-- The read of an element. -/
def Walk.read (w : Walk σ ω) (index stored : ℕ) : Walk σ ω :=
  { w with reads := w.reads ++ [⟨index, stored⟩] }

/-- A call of the callback. -/
def Walk.call (w : Walk σ ω) (v : Visit ω) (state : σ) : Walk σ ω :=
  { w with state := state, visits := w.visits ++ [v] }

/-- `EnumProcessModules` stores as many handles as there is room for. -/
def storeModules (mods : ℕ → Addr) (ms : List Addr) : ℕ → Addr := fun j =>
  if j < ARRAY_LENGTH then (ms[j]?).getD (mods j) else mods j

/-- The number of handles `EnumProcessModules` stores. -/
def storedModules (ms : List Addr) : ℕ := min ARRAY_LENGTH ms.length

/-- `mneeded`: the size all handles need, even if they do not fit. -/
def mneeded (arch : Arch) (ms : List Addr) : ℕ := arch.sizeofHMODULE * ms.length

/-- The entries for a module handle, if the module can be queried. -/
def Process.visit (p : Process ω) (szExeFile : WString) (j : ℕ) (h : Addr) :
    Option (Visit ω) :=
  match p.baseName h with
  | none => none
  | some szModule =>
    match p.fileName h with
    | none => none
    | some szExePath =>
      match p.information h with
      | none => none
      | some (lpBaseOfDll, sizeOfImage) =>
        some
          { proc := ⟨szExeFile, p.pid⟩
            me32 :=
              { szModule := szModule
                szExePath := szExePath
                hModule := h
                th32ProcessID := p.pid
                modBaseAddr := lpBaseOfDll
                modBaseSize := sizeOfImage }
            answers := p.answers j }

variable (callback : Visit ω → σ → ℤ × σ)

/-- `walkmodules`, the loop over the modules of a process, from index `j` on. -/
def moduleLoop (p : Process ω) (szExeFile : WString) (stored : ℕ) :
    (remaining : ℕ) → (j : ℕ) → Walk σ ω → Walk σ ω
  | 0, _, w => w
  | remaining + 1, j, w =>
    let w := w.read j stored
    match p.visit szExeFile j (w.mods j) with
    | none => moduleLoop p szExeFile stored remaining (j + 1) w
    | some v =>
      let (rc, state) := callback v w.state
      let w := w.call v state
      if rc ≠ 0 then w else moduleLoop p szExeFile stored remaining (j + 1) w

/-- `walkmodules`, the body of the loop over the processes. -/
def visitProcess (arch : Arch) (p : Process ω) (w : Walk σ ω) : Walk σ ω :=
  if p.pid = 0 then w
  else if !p.openProcess then w
  else
    match p.modules with
    | none => w
    | some ms =>
      let w := { w with mods := storeModules w.mods ms }
      let w := w.read 0 (storedModules ms)
      match p.exeName (w.mods 0) with
      | none => w
      | some szExeFile =>
        moduleLoop callback p szExeFile (storedModules ms)
          (mneeded arch ms / arch.sizeofHMODULE) 0 w

/-- `walkmodules`, the loop over the processes stored, from index `i` on. -/
def processLoop (arch : Arch) (procs : List (Process ω)) :
    (remaining : ℕ) → (i : ℕ) → Walk σ ω → Walk σ ω
  | 0, _, w => w
  | remaining + 1, i, w =>
    let w := w.read i procs.length
    let w :=
      match procs[i]? with
      | some p => visitProcess callback arch p w
      | none => w
    processLoop arch procs remaining (i + 1) w

/-- `walkmodules`, for the processes that are running (`none` if `EnumProcesses` fails), what
is on the stack where `mods` lies, and the state of the callback. -/
def walkmodules (arch : Arch) (running : Option (List (Process ω))) (stack : ℕ → Addr)
    (state : σ) : ℤ × Walk σ ω :=
  let w : Walk σ ω := ⟨state, stack, [], []⟩
  match running with
  | none => (-1, w)
  | some running =>
    -- `EnumProcesses` stores as many identifiers as there is room for, and says so
    let procs := running.take ARRAY_LENGTH
    let needed := sizeofDWORD * procs.length
    (0, processLoop callback arch procs (needed / sizeofDWORD) 0 w)

/-! ## Scanning the memory -/

/-- What `scanmem` meets: the machine, and what is answered to its own calls. -/
structure Machine where
  arch : Arch
  dconnect : ℤ
  running : Option (List (Process CallbackCalls))
  stack : ℕ → Addr

/-- The callback `scanmem` passes to `walkmodules`. -/
def scanVisit (cfg : Config) (v : Visit CallbackCalls) (s : ScanState) : ℤ × ScanState :=
  scanmem_cb cfg ⟨v.proc, v.me32, v.answers⟩ s

/-- The walk of `scanmem`. -/
def scanWalk (cfg : Config) (machine : Machine) (s : ScanState) :
    ℤ × Walk ScanState CallbackCalls :=
  walkmodules (scanVisit cfg) machine.arch machine.running machine.stack s

/-- `scanmem`: what it returns, `none` for `-1`, and the state, in which the cache is freed.
What `walkmodules` returns is not used. -/
def scanmem (cfg : Config) (machine : Machine) (info : MemInfo) (notmoved notremoved : ℕ) :
    Option ClError × ScanState :=
  let s : ScanState := .initial info notmoved notremoved
  if cfg.d && decide (machine.dconnect < 0) then
    (none, { s with info := { info with errors := info.errors + 1 } })
  else
    let (_, w) := scanWalk cfg machine s
    (some w.state.res, { w.state with files := [] })

end ScanMem
end ClamavWin32
