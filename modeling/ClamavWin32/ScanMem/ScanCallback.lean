import ClamavWin32.ScanMem.ScanFile

/-!
# Scanning one module in memory

`scanmem_cb` of the memory scanner (`scanmem.c`), called once for every module of every
process: it makes the module's path usable, looks it up in the cache of this scan, and
otherwise scans the file, and a dump of the module from memory when the file is packed.
An infected process is killed or the module unloaded, and the action is applied.

* `lookup_cache`, `insert_cache`: the cache, a list that grows at its end;
* `moduleName`: the name a module is looked up, resolved and scanned by;
* `scanModule`, `scanDump`, `scanFresh`: what is done for a module not in the cache;
* `scanmem_cb`: the callback, and `step`, one callback as a step of a scan.
-/

namespace ClamavWin32
namespace ScanMem

open Actions
open Actions.ClError

def ERROR_CALL_NOT_IMPLEMENTED : ErrorCode := 120

/-! ## The cache -/

/-- `!_tcsicmp (a, b)` -/
def tcsicmpEq (tolower : UInt16 → UInt16) (a b : WString) : Bool :=
  a.map tolower == b.map tolower

/-- `lookup_cache`: the result stored for a name, if there is one. -/
def lookup_cache (tolower : UInt16 → UInt16) : List CacheEntry → WString → Option ClError
  | [], _ => none
  | current :: next, filename =>
    if tcsicmpEq tolower filename current.filename then some current.res
    else lookup_cache tolower next filename

/-- `insert_cache`: the new entry comes last; `malloc` tells if there is memory for it. -/
def insert_cache (maxPath : ℕ) (malloc : Bool) :
    List CacheEntry → WString → ClError → List CacheEntry
  | [], filename, res => if malloc then [⟨filename.take (maxPath - 1), res⟩] else []
  | current :: next, filename, res =>
    current :: insert_cache maxPath malloc next filename res

/-! ## Processes and modules -/

/-- What is used of a `PROCESSENTRY32`. -/
structure ProcessEntry where
  szExeFile : WString
  th32ProcessID : ℕ
  deriving DecidableEq, Repr

/-- What is used of a `MODULEENTRY32`. -/
structure ModuleEntry where
  szModule : WString
  szExePath : WString
  hModule : Addr
  th32ProcessID : ℕ
  modBaseAddr : Addr
  modBaseSize : ℕ
  deriving DecidableEq, Repr

/-- What is answered to the calls of `kill_process`. -/
structure KillCalls where
  getCurrentProcessId : ℕ
  openProcess : Bool
  deriving DecidableEq, Repr

/-- `kill_process` -/
def kill_process (calls : KillCalls) (pid : ℕ) : ℤ × List Call :=
  if calls.getCurrentProcessId = pid then (1, [])
  else if calls.openProcess then (1, [.TerminateProcess pid])
  else (1, [])

/-- What is answered to the calls of `unload_module`. -/
structure UnloadCalls where
  getCurrentProcessId : ℕ
  openProcess : Bool
  /-- The last error, or whether the wait for the thread timed out. -/
  createRemoteThread : Except ErrorCode Bool
  kill : KillCalls
  deriving Repr

/-- `unload_module` -/
def unload_module (calls : UnloadCalls) (pid : ℕ) (hModule : Addr) : ℤ × List Call :=
  if calls.getCurrentProcessId = pid then (1, [])
  else if !calls.openProcess then (1, [])
  else
    match calls.createRemoteThread with
    | .ok timeout =>
      if timeout then
        let (rc, killed) := kill_process calls.kill pid
        (rc, .CreateRemoteThread pid hModule :: killed)
      else (0, [.CreateRemoteThread pid hModule])
    | .error res => if res = ERROR_CALL_NOT_IMPLEMENTED then (-1, []) else (1, [])

/-- What is answered to the calls of `dump_pe`. -/
structure DumpCalls where
  openProcess : Bool
  malloc : Bool
  readProcessMemory : Bool
  createFile : Bool
  writeFile : Bool
  open_osfhandle : ℤ
  deriving DecidableEq, Repr

/-- `dump_pe`: the descriptor of the dump, or a negative number. What is written is the
module after `align_pe`. -/
def dump_pe (calls : DumpCalls) : ℤ :=
  if !calls.openProcess then -1
  else if !calls.malloc then -1
  else if !calls.readProcessMemory then -1
  else if !calls.createFile then -1
  else if calls.writeFile then calls.open_osfhandle
  else -1

/-! ## The callback -/

/-- What is answered to the calls of one `scanmem_cb`. -/
structure CallbackCalls where
  /-- What is left in the buffer for a string. -/
  expandEnvironmentStrings : WString → WString
  /-- `none` if the name cannot be converted. -/
  wideCharToMultiByte : Option CString
  chkpath : CString → Bool
  /-- Whether `CreateFile` opens the module to resolve its path. -/
  createFile : Bool
  get_filepath_from_handle : ClError × Option CString
  module_scan : ScanFileCalls
  is_packed : Bool
  gentemp : Option CString
  dump : DumpCalls
  dump_scan : ScanFileCalls
  /-- Whether `insert_cache` gets memory. -/
  malloc : Bool
  kill : KillCalls
  unload : UnloadCalls
  /-- What `action` adds to `notmoved` and to `notremoved`. -/
  action : ℕ × ℕ

/-- One call of `scanmem_cb`. -/
structure Callback where
  proc : ProcessEntry
  me32 : ModuleEntry
  calls : CallbackCalls

/-- `scanmem_resolve_action_path`, for a path that is not `NULL`. -/
def scanmem_resolve_action_path (calls : CallbackCalls) : ClError × Option CString :=
  if !calls.createFile then (CL_EOPEN, none) else calls.get_filepath_from_handle

/-- `scanmem_cb`, the special cases: what it puts into `modulename`. -/
def moduleName (cfg : Config) (cb : Callback) : WString :=
  let path := cb.me32.szExePath
  let maxPath := cfg.build.MAX_PATH
  if wcsncmpEq path (wide "\\??\\") 4 then
    -- the length is a `size_t`, which wraps below zero
    (path.drop 4).take (((maxPath : ℤ) - path.length - 4) % 2 ^ 32).toNat |>.take maxPath
  else if wcsncmpEq path (wide "\\SystemRoot\\") 12 then
    let expandmodule := (wide "%SystemRoot%\\" ++ path.drop 12).take (maxPath - 1)
    (cb.calls.expandEnvironmentStrings expandmodule).take maxPath
  else path.take maxPath

/-- Whether the module is the program of its process. -/
def isprocess (cfg : Config) (cb : Callback) : Bool :=
  tcsicmpEq cfg.tolower cb.proc.szExeFile (moduleName cfg cb) ||
  tcsicmpEq cfg.tolower cb.proc.szExeFile cb.me32.szModule

/-- How a module that is not in the cache is to be scanned. -/
structure ModuleTarget where
  module_scan_path : CString
  module_action_open_path : Option CString
  module_excluded : Bool
  deriving DecidableEq, Repr

/-- `scanmem_cb`, the check for exclusion and the path of a later action. -/
def resolveModule (cfg : Config) (cb : Callback) (modulenameA : CString) : ModuleTarget :=
  let module_filter_enabled := cfg.d || cfg.exclude
  let module_excluded := module_filter_enabled && cb.calls.chkpath modulenameA
  if cfg.action && !module_excluded then
    match scanmem_resolve_action_path cb.calls with
    | (CL_SUCCESS, some resolved_modulename) =>
      ⟨resolved_modulename, some resolved_modulename,
        if module_filter_enabled then cb.calls.chkpath resolved_modulename
        else module_excluded⟩
    | _ => ⟨modulenameA, none, module_excluded⟩
  else ⟨modulenameA, none, module_excluded⟩

/-- The state after `scan_data->res = res`. -/
def ScanState.setRes (s : ScanState) (res : ClError) : ScanState := { s with res := res }

/-- `scan_data->res = scanfile (.., &deferred_action_source)` -/
def scanAs (cfg : Config) (calls : ScanFileCalls) (args : ScanFileArgs) (s : ScanState)
    (deferred : ActionSource) : ScanState × ActionSource :=
  let (res, s, deferred') := scanfile cfg calls args s (some deferred)
  (s.setRes res, deferred'.getD deferred)

/-- The arguments for the module's file. -/
def moduleArgs (cfg : Config) (modulenameA : CString) (target : ModuleTarget) :
    ScanFileArgs where
  filename := modulenameA
  scan_open_path := some target.module_scan_path
  action_target := some modulenameA
  action_open_path := target.module_action_open_path
  action_open_path_required := cfg.action

/-- The arguments for a dump of the module. -/
def dumpArgs (cfg : Config) (modulenameA : CString) (target : ModuleTarget)
    (dumped : CString) : ScanFileArgs where
  filename := dumped
  scan_open_path := some dumped
  action_target := some modulenameA
  action_open_path := target.module_action_open_path
  action_open_path_required := cfg.action

/-- `scanmem_cb`, the scan of the module's file. -/
def scanModule (cfg : Config) (cb : Callback) (modulenameA : CString) (target : ModuleTarget)
    (s : ScanState) (deferred : ActionSource) : ScanState × ActionSource :=
  if target.module_excluded then (s, deferred)
  else scanAs cfg cb.calls.module_scan (moduleArgs cfg modulenameA target) s deferred

/-- The file a packed module is dumped to, if that works; no file can be created without a
name. -/
def dumpedFile (calls : CallbackCalls) : Option CString :=
  if 0 < dump_pe calls.dump then calls.gentemp else none

/-- `scanmem_cb`, the scan of a dump of a packed module. -/
def scanDump (cfg : Config) (cb : Callback) (modulenameA : CString) (target : ModuleTarget)
    (s : ScanState) (deferred : ActionSource) : ScanState × ActionSource :=
  if !target.module_excluded && s.res == CL_CLEAN && cb.calls.is_packed then
    match dumpedFile cb.calls with
    | some dumped =>
      scanAs cfg cb.calls.dump_scan (dumpArgs cfg modulenameA target dumped) s deferred
    | none => (s, deferred)
  else (s, deferred)

/-- `scanmem_cb`, what becomes of the result: it is stored if it is clean, or if it is
infected and no action is to be retried. -/
def cacheResult (cfg : Config) (cb : Callback) (s : ScanState) : ScanState :=
  if s.res == CL_CLEAN || (s.res == CL_VIRUS && !cfg.action) then
    { s with files :=
        insert_cache cfg.build.MAX_PATH cb.calls.malloc s.files (moduleName cfg cb) s.res }
  else s

/-- `scanmem_cb`, a module that is not in the cache is counted. -/
def countModule (cfg : Config) (cb : Callback) (s : ScanState) : ScanState :=
  { s with
    processes := s.processes + if isprocess cfg cb then 1 else 0
    modules := s.modules + if isprocess cfg cb then 0 else 1
    info := { s.info with files := s.info.files + 1 }
    res := CL_CLEAN }

/-- `scanmem_cb`, all that is done for a module that is not in the cache. -/
def scanFresh (cfg : Config) (cb : Callback) (modulenameA : CString) (s : ScanState)
    (deferred : ActionSource) : ScanState × ActionSource :=
  let s := countModule cfg cb s
  let target := resolveModule cfg cb modulenameA
  let (s, deferred) := scanModule cfg cb modulenameA target s deferred
  let (s, deferred) := scanDump cfg cb modulenameA target s deferred
  (cacheResult cfg cb s, deferred)

/-- `scanmem_cb`, the attempt to get an infected program or module out of memory. -/
def unloadInfected (cfg : Config) (cb : Callback) : ℤ × List Call :=
  if isprocess cfg cb && cfg.kill then kill_process cb.calls.kill cb.proc.th32ProcessID
  else if cfg.unload then
    unload_module cb.calls.unload cb.proc.th32ProcessID cb.me32.hModule
  else (0, [])

/-- Whether `unload_module` is called and reports that it is not supported. -/
def unloadUnsupported (cfg : Config) (cb : Callback) : Bool :=
  !(isprocess cfg cb && cfg.kill) && cfg.unload &&
    (unload_module cb.calls.unload cb.proc.th32ProcessID cb.me32.hModule).1 == -1

/-- `scanmem_cb`, what is done about an infected module. -/
def reactInfected (cfg : Config) (cb : Callback) (cache_hit : Bool) (s : ScanState)
    (deferred : ActionSource) : ℤ × ScanState :=
  if s.res == CL_VIRUS then
    let (rc, unloaded) := unloadInfected cfg cb
    let s := s.log unloaded
    if unloadUnsupported cfg cb then (rc, s)
    else if cfg.action && !cache_hit && deferred.scan_fd != -1 then
      let s := s.log [.action deferred]
      (rc, { s with
        notmoved := s.notmoved + cb.calls.action.1
        notremoved := s.notremoved + cb.calls.action.2 })
    else (rc, s)
  else (0, s)

/-- `scanmem_cb`, from its label `done` on. -/
def closeDeferred (s : ScanState) (deferred : ActionSource) : ScanState :=
  if deferred.scan_fd != -1 then s.log [.action_source_close deferred] else s

/-- `scanmem_cb`: what it returns, and the state. -/
def scanmem_cb (cfg : Config) (cb : Callback) (s : ScanState) : ℤ × ScanState :=
  let s := s.setRes CL_CLEAN
  match cb.calls.wideCharToMultiByte with
  | none => (0, s)
  | some modulenameA =>
    match lookup_cache cfg.tolower s.files (moduleName cfg cb) with
    | some cached_result =>
      let (rc, s) :=
        reactInfected cfg cb true (s.setRes cached_result) action_source_init
      (rc, closeDeferred s action_source_init)
    | none =>
      let (s, deferred) := scanFresh cfg cb modulenameA s action_source_init
      let (rc, s) := reactInfected cfg cb false s deferred
      (rc, closeDeferred s deferred)

/-- One callback, as a step of a memory scan. -/
def step (cfg : Config) (s : ScanState) (cb : Callback) : Option ScanState :=
  some (scanmem_cb cfg cb s).2

/-- What a memory scan starts from, for the counters before it. -/
def ScanState.initial (info : MemInfo) (notmoved notremoved : ℕ) : ScanState where
  files := []
  res := CL_CLEAN
  processes := 0
  modules := 0
  info := info
  notmoved := notmoved
  notremoved := notremoved
  calls := []

end ScanMem
end ClamavWin32
