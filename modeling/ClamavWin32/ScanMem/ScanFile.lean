import ClamavWin32.Actions.ActionSource

/-!
# Scanning one file

`scanfile` of the memory scanner (`scanmem.c`): it opens the source of a later quarantine
action, opens the file to scan unless that is the source itself, has it scanned by the
engine or by the daemon, and hands the source to its caller when the file is infected.

What the system, the engine and the daemon answer to the calls of one `scanfile` is a
`ScanFileCalls`; the calls that matter to the outcome are recorded in `ScanState.calls` in
the order in which they are made.
-/

namespace ClamavWin32
namespace ScanMem

open Actions
open Actions.ClError

/-- `cl_verdict_t` -/
inductive Verdict where
  | NOTHING_FOUND
  | TRUSTED
  | STRONG_INDICATOR
  | POTENTIALLY_UNWANTED
  deriving DecidableEq, Repr

/-- How the daemon is asked to scan; `FILDES` needs `HAVE_FD_PASSING`, which is not
defined. -/
inductive ScanType where
  | STREAM
  | MULTI
  | ALLMATCH
  | CONT
  deriving DecidableEq, Repr

/-- The builds of the port: `platform.h` redefines `MAX_PATH` for those that need not run
on old systems. -/
inductive Build where
  | winxp
  | vista
  deriving DecidableEq, Repr

def Build.MAX_PATH : Build → ℕ
  | .winxp => ClamavWin32.MAX_PATH
  | .vista => 4096

/-- The command line of a scan, and what does not change while it runs. -/
structure Config where
  build : Build
  /-- How `_tcsicmp` folds a character. -/
  tolower : UInt16 → UInt16
  /-- `action != NULL`: infected files are moved, copied or removed. -/
  action : Bool
  /-- `info->d`: the daemon scans. -/
  d : Bool
  kill : Bool
  unload : Bool
  exclude : Bool
  remove : Bool
  stream : Bool
  multiscan : Bool
  allmatch : Bool

/-- An entry of the scan cache, `tc_filelist_t`. -/
structure CacheEntry where
  filename : WString
  res : ClError
  deriving DecidableEq, Repr

/-- The calls whose order and arguments matter. -/
inductive Call where
  /-- A call of `action_source_open_path` that succeeded with this source. -/
  | action_source_open_path (source : ActionSource)
  | action_source_close (source : ActionSource)
  | safe_open (path : CString) (fd : ℤ)
  | close (fd : ℤ)
  | cl_scandesc_ex (fd : ℤ) (filename : CString) (status : ClError) (verdict : Verdict)
  /-- The daemon scans the path, or the source if there is one, and the error counter
  grows by the last argument. -/
  | dsresult (scantype : ScanType) (path : CString) (source : Option ActionSource)
      (scan_result errors : ℤ)
  | action (source : ActionSource)
  | TerminateProcess (pid : ℕ)
  | CreateRemoteThread (pid : ℕ) (hModule : Addr)
  deriving DecidableEq, Repr

/-- The counters of `struct mem_info`. -/
structure MemInfo where
  files : ℕ
  ifiles : ℕ
  errors : ℤ
  deriving DecidableEq, Repr

/-- What a memory scan changes: `tc_scanmem_data`, the counters of `struct mem_info` and of
the actions, and the calls made so far. -/
structure ScanState where
  files : List CacheEntry
  res : ClError
  processes : ℕ
  modules : ℕ
  info : MemInfo
  notmoved : ℕ
  notremoved : ℕ
  calls : List Call
  deriving DecidableEq, Repr

/-- The state after the calls. -/
def ScanState.log (s : ScanState) (calls : List Call) : ScanState :=
  { s with calls := s.calls ++ calls }

/-- What is answered to the calls of one `scanfile`. -/
structure ScanFileCalls where
  open_path : OpenPathCalls
  safe_open : ℤ
  dconnect : ℤ
  dsresult : ℤ
  /-- What `dsresult` adds to the error counter. -/
  dsresult_errors : ℤ
  cl_scandesc_ex : ClError
  verdict : Verdict
  /-- What `action` adds to `notmoved` and to `notremoved`. -/
  action : ℕ × ℕ
  deriving DecidableEq, Repr

/-- The arguments of `scanfile` that are paths; `none` is `NULL`. -/
structure ScanFileArgs where
  filename : CString
  scan_open_path : Option CString
  action_target : Option CString
  action_open_path : Option CString
  action_open_path_required : Bool
  deriving DecidableEq, Repr

def ScanFileArgs.scan_path (args : ScanFileArgs) : CString :=
  args.scan_open_path.getD args.filename

def ScanFileArgs.action_display_filename (args : ScanFileArgs) : CString :=
  args.action_target.getD args.filename

def ScanFileArgs.action_target_is_scan_target (args : ScanFileArgs) : Bool :=
  (args.action_target == none || args.action_target == some args.filename) &&
  (args.action_open_path == none || args.action_open_path == some args.scan_path)

/-- The file an action would be applied to, as `scanfile` knows it. -/
structure ActionTarget where
  action_source : ActionSource
  have_action_source : Bool
  action_source_open_failed : Bool
  deriving DecidableEq, Repr

/-- `scanfile`, the source of a later action: opened from the resolved path, or by its name
unless a resolved path is required. -/
def openActionSource (calls : ScanFileCalls) (args : ScanFileArgs) :
    ClError × ActionSource × List Event :=
  match args.action_open_path with
  | some path => action_source_open_path calls.open_path args.action_display_filename path
  | none =>
    if args.action_open_path_required then (CL_EOPEN, action_source_init, [])
    else action_source_open calls.open_path args.action_display_filename

/-- `scanfile`, where it opens the source of a later action. -/
def openActionTarget (cfg : Config) (calls : ScanFileCalls) (args : ScanFileArgs) :
    ActionTarget :=
  if !cfg.action then ⟨action_source_init, false, false⟩
  else
    let (action_source_status, action_source, _) := openActionSource calls args
    if action_source_status ≠ CL_SUCCESS then ⟨action_source, false, true⟩
    else ⟨action_source, true, false⟩

/-- The call that opened the source, if it succeeded. -/
def ActionTarget.opened (t : ActionTarget) : List Call :=
  if t.have_action_source then [.action_source_open_path t.action_source] else []

/-- `if (have_action_source) action_source_close (&action_source)` -/
def ActionTarget.close (t : ActionTarget) : List Call :=
  if t.have_action_source then [.action_source_close t.action_source] else []

/-- `scan_uses_action_source`: the source itself is scanned. -/
def ActionTarget.isScanned (t : ActionTarget) (args : ScanFileArgs) : Bool :=
  t.have_action_source && args.action_target_is_scan_target

/-- `scanfile`, how the daemon is asked to scan. -/
def scantype (cfg : Config) (scan_uses_action_source : Bool) : ScanType :=
  if scan_uses_action_source then .STREAM
  else if cfg.stream then .STREAM
  else if cfg.multiscan then .MULTI
  else if cfg.allmatch then .ALLMATCH
  else .CONT

/-- `scanfile`, the scan by the daemon: the status and whether the file is infected. -/
def scanByDaemon (cfg : Config) (calls : ScanFileCalls) (scan_path : CString)
    (source : Option ActionSource) (s : ScanState) : ClError × Bool × ScanState :=
  let scan_errors_before := s.info.errors
  let s := s.log [.dsresult (scantype cfg source.isSome) scan_path source calls.dsresult
    calls.dsresult_errors]
  let s := { s with info := { s.info with errors := s.info.errors + calls.dsresult_errors } }
  if 0 < calls.dsresult then
    (CL_VIRUS, true, { s with info := { s.info with ifiles := s.info.ifiles + 1 } })
  else if calls.dsresult < 0 ∨ scan_errors_before < s.info.errors then (CL_EOPEN, false, s)
  else (CL_CLEAN, false, s)

/-- `scanfile`, the scan by the engine: the status and whether the file is infected. The
verdict overrides the status the engine returned. -/
def scanByEngine (calls : ScanFileCalls) (fd : ℤ) (filename : CString) (s : ScanState) :
    ClError × Bool × ScanState :=
  let s := s.log [.cl_scandesc_ex fd filename calls.cl_scandesc_ex calls.verdict]
  match calls.verdict with
  | .NOTHING_FOUND => (CL_CLEAN, false, s)
  | .TRUSTED => (CL_CLEAN, false, s)
  | .STRONG_INDICATOR | .POTENTIALLY_UNWANTED =>
    (CL_VIRUS, true, { s with info := { s.info with ifiles := s.info.ifiles + 1 } })

/-- `scanfile`, after the scan: an infected file's source goes to the caller if it asks for
it (`infected_action_source` is not `NULL`), or to `action`. -/
def settleAction (cfg : Config) (calls : ScanFileCalls) (infected : Bool) (t : ActionTarget)
    (s : ScanState) (infected_action_source : Option ActionSource) :
    ActionTarget × ScanState × Option ActionSource :=
  if infected && cfg.action then
    if t.have_action_source then
      match infected_action_source with
      | some _ =>
        (⟨action_source_init, false, t.action_source_open_failed⟩, s, some t.action_source)
      | none =>
        let s := s.log [.action t.action_source]
        (t, { s with
          notmoved := s.notmoved + calls.action.1
          notremoved := s.notremoved + calls.action.2 }, none)
    else if t.action_source_open_failed then
      if cfg.remove then
        (t, { s with notremoved := s.notremoved + 1 }, infected_action_source)
      else (t, { s with notmoved := s.notmoved + 1 }, infected_action_source)
    else (t, s, infected_action_source)
  else (t, s, infected_action_source)

/-- `scanfile`: the status, the state, and `*infected_action_source`. -/
def scanfile (cfg : Config) (calls : ScanFileCalls) (args : ScanFileArgs) (s : ScanState)
    (infected_action_source : Option ActionSource) :
    ClError × ScanState × Option ActionSource :=
  let t := openActionTarget cfg calls args
  let s := s.log t.opened
  let scan_uses_action_source := t.isScanned args
  if !scan_uses_action_source && calls.safe_open == -1 then
    (CL_EOPEN, s.log t.close, infected_action_source)
  else
    let fd := if scan_uses_action_source then t.action_source.scan_fd else calls.safe_open
    let s := s.log (if scan_uses_action_source then [] else [.safe_open args.scan_path fd])
    let closeFd : List Call := if scan_uses_action_source then [] else [.close fd]
    if cfg.d && decide (calls.dconnect < 0) then
      let s := { s with info := { s.info with errors := s.info.errors + 1 } }
      (CL_EOPEN, s.log (closeFd ++ t.close), infected_action_source)
    else
      let (status, infected, s) :=
        if cfg.d then
          scanByDaemon cfg calls args.scan_path
            (if scan_uses_action_source then some t.action_source else none) s
        else scanByEngine calls fd args.filename s
      let s := s.log closeFd
      let (t, s, infected_action_source) :=
        settleAction cfg calls infected t s infected_action_source
      (status, s.log t.close, infected_action_source)

end ScanMem
end ClamavWin32
