import ClamavWin32.ScanMem.ScanCallback
import ClamavWin32.ScanMem.ScanFileTheorems

/-!
# What one callback does

`scanmem_cb` in its three cases: the module's name cannot be converted, the module is in the
cache, or it is processed afresh.

* `scanmem_cb_of_unconverted`, `scanmem_cb_of_hit`, `scanmem_cb_of_miss`: the three cases;
* `freshResult`: the result for a module that is processed afresh, from what is answered
  to the calls;
* `res_of_miss`, `files_of_miss`: that result is recorded, and stored under a condition.
-/

namespace ClamavWin32
namespace ScanMem

open Actions
open Actions.ClError

variable {cfg : Config} {cb : Callback} {s : ScanState}

@[simp] lemma calls_log (s : ScanState) (calls : List Call) :
    (s.log calls).calls = s.calls ++ calls := rfl

@[simp] lemma res_setRes (s : ScanState) (res : ClError) : (s.setRes res).res = res := rfl

@[simp] lemma files_setRes (s : ScanState) (res : ClError) : (s.setRes res).files = s.files :=
  rfl

@[simp] lemma calls_setRes (s : ScanState) (res : ClError) : (s.setRes res).calls = s.calls :=
  rfl

/-! ## The scans of a module -/

lemma scanAs_eq (cfg : Config) (calls : ScanFileCalls) (args : ScanFileArgs) (s : ScanState)
    (deferred : ActionSource) :
    scanAs cfg calls args s deferred =
      ({ s with
          res := calls.status cfg args
          info := calls.info cfg args s.info
          notmoved := s.notmoved + if calls.misses cfg args && !cfg.remove then 1 else 0
          notremoved := s.notremoved + if calls.misses cfg args && cfg.remove then 1 else 0
          calls := s.calls ++ scanfileCalls cfg calls args },
        if calls.hands cfg args then (openActionTarget cfg calls args).action_source
          else deferred) := by
  rw [scanAs, scanfile_eq]
  rfl

/-- The dump that is scanned after the module's file was found clean. -/
def scannedDump (cfg : Config) (cb : Callback) (modulenameA : CString) : Option CString :=
  let target := resolveModule cfg cb modulenameA
  if !target.module_excluded && cb.calls.is_packed &&
      cb.calls.module_scan.status cfg (moduleArgs cfg modulenameA target) == CL_CLEAN then
    dumpedFile cb.calls
  else none

/-- The result for a module that is not in the cache. -/
def freshResult (cfg : Config) (cb : Callback) (modulenameA : CString) : ClError :=
  let target := resolveModule cfg cb modulenameA
  if target.module_excluded then CL_CLEAN
  else
    match scannedDump cfg cb modulenameA with
    | some dumped => cb.calls.dump_scan.status cfg (dumpArgs cfg modulenameA target dumped)
    | none => cb.calls.module_scan.status cfg (moduleArgs cfg modulenameA target)

/-- What the scan of the module's file, if it is made, leaves. -/
def afterModule (cfg : Config) (cb : Callback) (modulenameA : CString) (s : ScanState) :
    ScanState × ActionSource :=
  scanModule cfg cb modulenameA (resolveModule cfg cb modulenameA) (countModule cfg cb s)
    action_source_init

/-- What both scans, as far as they are made, leave. -/
def afterScans (cfg : Config) (cb : Callback) (modulenameA : CString) (s : ScanState) :
    ScanState × ActionSource :=
  scanDump cfg cb modulenameA (resolveModule cfg cb modulenameA)
    (afterModule cfg cb modulenameA s).1 (afterModule cfg cb modulenameA s).2

lemma scanFresh_eq (modulenameA : CString) :
    scanFresh cfg cb modulenameA s action_source_init =
      (cacheResult cfg cb (afterScans cfg cb modulenameA s).1,
        (afterScans cfg cb modulenameA s).2) := rfl

lemma afterModule_of_excluded {modulenameA : CString}
    (hexcluded : (resolveModule cfg cb modulenameA).module_excluded = true) :
    afterModule cfg cb modulenameA s = (countModule cfg cb s, action_source_init) := by
  rw [afterModule, scanModule, if_pos hexcluded]

lemma afterModule_of_included {modulenameA : CString}
    (hincluded : (resolveModule cfg cb modulenameA).module_excluded = false) :
    afterModule cfg cb modulenameA s =
      scanAs cfg cb.calls.module_scan
        (moduleArgs cfg modulenameA (resolveModule cfg cb modulenameA))
        (countModule cfg cb s) action_source_init := by
  rw [afterModule, scanModule, if_neg (by rw [hincluded]; exact Bool.false_ne_true)]

lemma afterScans_eq (modulenameA : CString) :
    afterScans cfg cb modulenameA s =
      match scannedDump cfg cb modulenameA with
      | some dumped =>
        scanAs cfg cb.calls.dump_scan
          (dumpArgs cfg modulenameA (resolveModule cfg cb modulenameA) dumped)
          (afterModule cfg cb modulenameA s).1 (afterModule cfg cb modulenameA s).2
      | none => afterModule cfg cb modulenameA s := by
  rw [afterScans, scanDump, scannedDump]
  cases hexcluded : (resolveModule cfg cb modulenameA).module_excluded with
  | true => simp
  | false =>
    rw [afterModule_of_included hexcluded, scanAs_eq]
    cases hpacked : cb.calls.is_packed <;>
      cases hclean : cb.calls.module_scan.status cfg
        (moduleArgs cfg modulenameA (resolveModule cfg cb modulenameA)) == CL_CLEAN <;>
      cases dumpedFile cb.calls <;> simp

lemma scannedDump_eq_some {modulenameA dumped : CString}
    (hdump : scannedDump cfg cb modulenameA = some dumped) :
    (resolveModule cfg cb modulenameA).module_excluded = false ∧
      cb.calls.module_scan.status cfg
        (moduleArgs cfg modulenameA (resolveModule cfg cb modulenameA)) = CL_CLEAN ∧
      cb.calls.is_packed = true ∧ dumpedFile cb.calls = some dumped := by
  rw [scannedDump] at hdump
  simp only [Bool.and_eq_true, Bool.not_eq_true', beq_iff_eq] at hdump
  split_ifs at hdump with hscanned
  exact ⟨hscanned.1.1, hscanned.2, hscanned.1.2, hdump⟩

lemma scannedDump_of_excluded {modulenameA : CString}
    (hexcluded : (resolveModule cfg cb modulenameA).module_excluded = true) :
    scannedDump cfg cb modulenameA = none := by
  simp [scannedDump, hexcluded]

lemma res_afterScans (modulenameA : CString) :
    (afterScans cfg cb modulenameA s).1.res = freshResult cfg cb modulenameA := by
  rw [afterScans_eq, freshResult]
  rcases hdump : scannedDump cfg cb modulenameA with _ | dumped
  · cases hexcluded : (resolveModule cfg cb modulenameA).module_excluded with
    | true => simp [afterModule_of_excluded hexcluded, countModule]
    | false => simp [afterModule_of_included hexcluded, scanAs_eq]
  · simp [(scannedDump_eq_some hdump).1, scanAs_eq]

/-- The scans leave the cache and the number of files alone. -/
lemma files_afterScans (modulenameA : CString) :
    (afterScans cfg cb modulenameA s).1.files = s.files ∧
    (afterScans cfg cb modulenameA s).1.info.files = s.info.files + 1 := by
  have hmodule : (afterModule cfg cb modulenameA s).1.files = s.files ∧
      (afterModule cfg cb modulenameA s).1.info.files = s.info.files + 1 := by
    cases hexcluded : (resolveModule cfg cb modulenameA).module_excluded with
    | true => simp [afterModule_of_excluded hexcluded, countModule]
    | false =>
      simp [afterModule_of_included hexcluded, scanAs_eq, ScanFileCalls.info, countModule]
  rw [afterScans_eq]
  rcases scannedDump cfg cb modulenameA with _ | dumped
  · exact hmodule
  · simpa [scanAs_eq, ScanFileCalls.info] using hmodule

/-! ## The reaction to the result -/

/-- The action is applied to the source that was handed over. -/
def actsOn (cfg : Config) (cb : Callback) (cache_hit : Bool) (res : ClError)
    (deferred : ActionSource) : Bool :=
  res == CL_VIRUS && !unloadUnsupported cfg cb && cfg.action && !cache_hit &&
    deferred.scan_fd != -1

/-- The calls of the reaction to a result. -/
def reactionCalls (cfg : Config) (cb : Callback) (cache_hit : Bool) (res : ClError)
    (deferred : ActionSource) : List Call :=
  (if res == CL_VIRUS then (unloadInfected cfg cb).2 else []) ++
    if actsOn cfg cb cache_hit res deferred then [.action deferred] else []

lemma reactInfected_eq (cache_hit : Bool) (deferred : ActionSource) :
    reactInfected cfg cb cache_hit s deferred =
      (if s.res == CL_VIRUS then (unloadInfected cfg cb).1 else 0,
        { s with
          calls := s.calls ++ reactionCalls cfg cb cache_hit s.res deferred
          notmoved := s.notmoved +
            if actsOn cfg cb cache_hit s.res deferred then cb.calls.action.1 else 0
          notremoved := s.notremoved +
            if actsOn cfg cb cache_hit s.res deferred then cb.calls.action.2 else 0 }) := by
  rw [reactInfected, reactionCalls, actsOn]
  cases hvirus : s.res == CL_VIRUS with
  | false => simp
  | true =>
    cases hunload : unloadUnsupported cfg cb with
    | true => simp [ScanState.log]
    | false =>
      cases haction : cfg.action && !cache_hit && deferred.scan_fd != -1 with
      | false => simp_all [ScanState.log]
      | true => simp_all [ScanState.log]

lemma mem_kill_process {calls : KillCalls} {pid : ℕ} {call : Call}
    (hcall : call ∈ (kill_process calls pid).2) : call = .TerminateProcess pid := by
  rw [kill_process] at hcall
  split_ifs at hcall
  · cases hcall
  · exact List.mem_singleton.mp hcall
  · cases hcall

/-- Unloading a module starts a thread, and may terminate its process. -/
lemma mem_unload_module {calls : UnloadCalls} {pid : ℕ} {hModule : Addr} {call : Call}
    (hcall : call ∈ (unload_module calls pid hModule).2) :
    call = .TerminateProcess pid ∨ call = .CreateRemoteThread pid hModule := by
  rw [unload_module] at hcall
  split_ifs at hcall
  · cases hcall
  · cases hcall
  · rcases hthread : calls.createRemoteThread with err | timeout
    · rw [hthread] at hcall
      by_cases herr : err = ERROR_CALL_NOT_IMPLEMENTED <;> simp [herr] at hcall
    · rw [hthread] at hcall
      cases timeout with
      | true =>
        rcases List.mem_cons.mp hcall with hcall | hcall
        · exact Or.inr hcall
        · exact Or.inl (mem_kill_process hcall)
      | false => exact Or.inr (List.mem_singleton.mp hcall)

/-- Getting an infected module out of memory terminates a process or starts a thread. -/
lemma mem_unloadInfected {call : Call} (hcall : call ∈ (unloadInfected cfg cb).2) :
    (∃ pid, call = .TerminateProcess pid) ∨
      ∃ pid hModule, call = .CreateRemoteThread pid hModule := by
  rw [unloadInfected] at hcall
  split_ifs at hcall
  · exact Or.inl ⟨_, mem_kill_process hcall⟩
  · rcases mem_unload_module hcall with hcall | hcall
    · exact Or.inl ⟨_, hcall⟩
    · exact Or.inr ⟨_, _, hcall⟩
  · cases hcall

/-! ## The three cases -/

/-- A name that cannot be converted ends the callback. -/
lemma scanmem_cb_of_unconverted (hconv : cb.calls.wideCharToMultiByte = none) :
    scanmem_cb cfg cb s = (0, s.setRes CL_CLEAN) := by
  rw [scanmem_cb, hconv]

/-- A module in the cache gets the result stored. -/
lemma scanmem_cb_of_hit {modulenameA : CString} {cached_result : ClError}
    (hconv : cb.calls.wideCharToMultiByte = some modulenameA)
    (hhit : lookup_cache cfg.tolower s.files (moduleName cfg cb) = some cached_result) :
    scanmem_cb cfg cb s =
      (if cached_result == CL_VIRUS then (unloadInfected cfg cb).1 else 0,
        { s with
          res := cached_result
          calls := s.calls ++
            if cached_result == CL_VIRUS then (unloadInfected cfg cb).2 else [] }) := by
  rw [scanmem_cb, hconv]
  simp only [files_setRes, hhit]
  rw [reactInfected_eq, closeDeferred]
  simp [reactionCalls, actsOn, ScanState.setRes]

/-- A module that is not in the cache is processed afresh. -/
lemma scanmem_cb_of_miss {modulenameA : CString}
    (hconv : cb.calls.wideCharToMultiByte = some modulenameA)
    (hmiss : lookup_cache cfg.tolower s.files (moduleName cfg cb) = none) :
    scanmem_cb cfg cb s =
      ((reactInfected cfg cb false (cacheResult cfg cb (afterScans cfg cb modulenameA s).1)
          (afterScans cfg cb modulenameA s).2).1,
        closeDeferred
          (reactInfected cfg cb false (cacheResult cfg cb (afterScans cfg cb modulenameA s).1)
            (afterScans cfg cb modulenameA s).2).2
          (afterScans cfg cb modulenameA s).2) := by
  rw [scanmem_cb, hconv]
  simp only [files_setRes, hmiss]
  rw [scanFresh_eq]
  rfl

/-- A result is stored if it is clean, or if it is infected and no action is configured. -/
def Cached (cfg : Config) (res : ClError) : Prop :=
  res = CL_CLEAN ∨ (res = CL_VIRUS ∧ cfg.action = false)

instance (cfg : Config) (res : ClError) : Decidable (Cached cfg res) :=
  inferInstanceAs (Decidable (_ ∨ _))

lemma cacheResult_eq :
    cacheResult cfg cb s =
      { s with files :=
          if Cached cfg s.res then
            insert_cache cfg.build.MAX_PATH cb.calls.malloc s.files (moduleName cfg cb) s.res
          else s.files } := by
  have hcond : (s.res == CL_CLEAN || (s.res == CL_VIRUS && !cfg.action)) = true ↔
      Cached cfg s.res := by
    simp [Cached]
  rw [cacheResult]
  by_cases hcached : Cached cfg s.res
  · rw [if_pos (hcond.mpr hcached), if_pos hcached]
  · rw [if_neg (mt hcond.mp hcached), if_neg hcached]

/-- The calls that close the source handed over, if there is one. -/
def closeCalls (deferred : ActionSource) : List Call :=
  if deferred.scan_fd != -1 then [.action_source_close deferred] else []

/-- The state after a module that is not in the cache. -/
lemma state_of_miss {modulenameA : CString}
    (hconv : cb.calls.wideCharToMultiByte = some modulenameA)
    (hmiss : lookup_cache cfg.tolower s.files (moduleName cfg cb) = none) :
    (scanmem_cb cfg cb s).2 =
      { (afterScans cfg cb modulenameA s).1 with
        files :=
          if Cached cfg (freshResult cfg cb modulenameA) then
            insert_cache cfg.build.MAX_PATH cb.calls.malloc s.files (moduleName cfg cb)
              (freshResult cfg cb modulenameA)
          else s.files
        calls := (afterScans cfg cb modulenameA s).1.calls ++
          (reactionCalls cfg cb false (freshResult cfg cb modulenameA)
            (afterScans cfg cb modulenameA s).2 ++
          closeCalls (afterScans cfg cb modulenameA s).2)
        notmoved := (afterScans cfg cb modulenameA s).1.notmoved +
          if actsOn cfg cb false (freshResult cfg cb modulenameA)
              (afterScans cfg cb modulenameA s).2 then cb.calls.action.1 else 0
        notremoved := (afterScans cfg cb modulenameA s).1.notremoved +
          if actsOn cfg cb false (freshResult cfg cb modulenameA)
              (afterScans cfg cb modulenameA s).2 then cb.calls.action.2 else 0 } := by
  have hfiles : (afterScans cfg cb modulenameA s).1.files = s.files :=
    (files_afterScans modulenameA).1
  rw [scanmem_cb_of_miss hconv hmiss, reactInfected_eq, cacheResult_eq, closeDeferred,
    closeCalls, ← res_afterScans (s := s), ← hfiles]
  by_cases hclose : ((afterScans cfg cb modulenameA s).2.scan_fd != -1) = true
  · rw [if_pos hclose, if_pos hclose]
    simp [ScanState.log]
  · rw [if_neg hclose, if_neg hclose, List.append_nil]

/-- The result for a module that is not in the cache is recorded. -/
lemma res_of_miss {modulenameA : CString}
    (hconv : cb.calls.wideCharToMultiByte = some modulenameA)
    (hmiss : lookup_cache cfg.tolower s.files (moduleName cfg cb) = none) :
    (scanmem_cb cfg cb s).2.res = freshResult cfg cb modulenameA := by
  rw [state_of_miss hconv hmiss]
  exact res_afterScans modulenameA

/-- The result for a module that is not in the cache is stored under a condition. -/
lemma files_of_miss {modulenameA : CString}
    (hconv : cb.calls.wideCharToMultiByte = some modulenameA)
    (hmiss : lookup_cache cfg.tolower s.files (moduleName cfg cb) = none) :
    (scanmem_cb cfg cb s).2.files =
      if Cached cfg (freshResult cfg cb modulenameA) then
        insert_cache cfg.build.MAX_PATH cb.calls.malloc s.files (moduleName cfg cb)
          (freshResult cfg cb modulenameA)
      else s.files := by
  rw [state_of_miss hconv hmiss]

/-- The calls that scan the dump, if one is scanned. -/
def dumpScanCalls (cfg : Config) (cb : Callback) (modulenameA : CString) : List Call :=
  match scannedDump cfg cb modulenameA with
  | some dumped =>
    scanfileCalls cfg cb.calls.dump_scan
      (dumpArgs cfg modulenameA (resolveModule cfg cb modulenameA) dumped)
  | none => []

/-- The calls for a module that is neither in the cache nor excluded. -/
lemma calls_of_miss {modulenameA : CString}
    (hconv : cb.calls.wideCharToMultiByte = some modulenameA)
    (hmiss : lookup_cache cfg.tolower s.files (moduleName cfg cb) = none)
    (hincluded : (resolveModule cfg cb modulenameA).module_excluded = false) :
    (scanmem_cb cfg cb s).2.calls =
      s.calls ++ (scanfileCalls cfg cb.calls.module_scan
          (moduleArgs cfg modulenameA (resolveModule cfg cb modulenameA)) ++
        (dumpScanCalls cfg cb modulenameA ++
          (reactionCalls cfg cb false (freshResult cfg cb modulenameA)
            (afterScans cfg cb modulenameA s).2 ++
          closeCalls (afterScans cfg cb modulenameA s).2))) := by
  have hscans : (afterScans cfg cb modulenameA s).1.calls =
      s.calls ++ (scanfileCalls cfg cb.calls.module_scan
          (moduleArgs cfg modulenameA (resolveModule cfg cb modulenameA)) ++
        dumpScanCalls cfg cb modulenameA) := by
    rw [afterScans_eq, dumpScanCalls]
    rcases scannedDump cfg cb modulenameA with _ | dumped <;>
      simp [afterModule_of_included hincluded, scanAs_eq, countModule]
  rw [state_of_miss hconv hmiss]
  simp only [hscans, List.append_assoc]

/-! ## A sample module -/

/-- A scan of the programs in memory, with an action or without. -/
def sampleConfig (action : Bool) : Config where
  build := .winxp
  tolower := id
  action := action
  d := false
  kill := false
  unload := false
  exclude := true
  remove := false
  stream := false
  multiscan := false
  allmatch := false

/-- A file that can be opened, and what the engine answers for it. -/
def sampleScan (status : ClError) (verdict : Verdict) : ScanFileCalls where
  open_path :=
    { strdup_display := some 0x1000
      strdup_action := some 0x2000
      safe_open := 3
      fstat := true
      is_reg := true
      get_osfhandle := some 0x10
      duplicate_handle := some ⟨0x14, by decide⟩ }
  safe_open := 4
  dconnect := 5
  dsresult := 0
  dsresult_errors := 0
  cl_scandesc_ex := status
  verdict := verdict
  action := (0, 0)

/-- A file that can not be opened. -/
def sampleLocked : ScanFileCalls :=
  { sampleScan .CL_CLEAN .NOTHING_FOUND with safe_open := -1 }

/-- The name of the sample modules, and the path it resolves to. -/
def samplePath : CString := [67, 58, 92, 97]

def sampleResolved : CString := [68, 58, 92, 97]

/-- The module `C:\a` of the process 8, not packed, which resolves to a path that is excluded
from the scan or not. -/
def sampleCallback (createFile excluded : Bool) (scan : ScanFileCalls) : Callback where
  proc := ⟨[98], 8⟩
  me32 :=
    { szModule := [97]
      szExePath := [67, 58, 92, 97]
      hModule := 0x400000
      th32ProcessID := 8
      modBaseAddr := 0x400000
      modBaseSize := 0x1000 }
  calls :=
    { expandEnvironmentStrings := id
      wideCharToMultiByte := some samplePath
      chkpath := fun path => excluded && path == sampleResolved
      createFile := createFile
      get_filepath_from_handle := (.CL_CLEAN, some sampleResolved)
      module_scan := scan
      is_packed := false
      gentemp := none
      dump := ⟨true, true, true, true, true, 5⟩
      dump_scan := sampleLocked
      malloc := true
      kill := ⟨1, true⟩
      unload := ⟨1, true, .ok false, ⟨1, true⟩⟩
      action := (0, 0) }

/-- The start of a scan, with all counters at zero. -/
def sampleStart : ScanState := .initial ⟨0, 0, 0⟩ 0 0

end ScanMem
end ClamavWin32
