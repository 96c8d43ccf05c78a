import ClamavWin32.ScanMem.ScanCallbackTheorems
import ClamavWin32.Semantics.ResourceLedger

/-!
# What a dump acquires and releases

`dump_pe` and the part of `scanmem_cb` that scans a dump, with the events of the resources:
the handle of the process, the memory for the module, the file, the descriptor that takes its
handle over, and the name of the file.

* `dump_peRun`: `dump_pe` with its events;
* `scanDumpRun`: the scan of a dump with its events, among them those of the scan;
* `dumpEvents`: the events of one call of `scanmem_cb`.
-/

namespace ClamavWin32
namespace ScanMem

open Actions
open Actions.ClError

inductive DumpResource where
  /-- The handle of the process. -/
  | process
  /-- The memory that the module is read into. -/
  | buffer
  /-- The handle of the file. -/
  | file
  | descriptor (fd : ℤ)
  /-- The file on the disk. -/
  | dump (filename : CString)
  /-- The memory with the name of the file. -/
  | name
  deriving DecidableEq, Repr

abbrev DumpEvent := ResourceEvent DumpResource

/-- `dump_pe`; without a name no file is created. A descriptor that `_open_osfhandle` returns
takes the handle over. -/
def dump_peRun (calls : DumpCalls) (filename : Option CString) : ℤ × List DumpEvent :=
  if !calls.openProcess then (-1, [])
  else if !calls.malloc then (-1, [.acquire .process])
  else if !calls.readProcessMemory then
    (-1, [.acquire .process, .acquire .buffer, .release .buffer, .release .process])
  else
    match filename with
    | none => (-1, [.acquire .process, .acquire .buffer, .release .process, .release .buffer])
    | some filename =>
      if !calls.createFile then
        (-1, [.acquire .process, .acquire .buffer, .release .process, .release .buffer])
      else
        let created : List DumpEvent :=
          [.acquire .process, .acquire .buffer, .release .process, .acquire .file,
            .acquire (.dump filename)]
        if calls.writeFile then
          let ret := calls.open_osfhandle
          if 0 ≤ ret then
            (ret, created ++ [.release .file, .acquire (.descriptor ret), .release .buffer])
          else (ret, created ++ [.release .buffer])
        else (-1, created ++ [.release .buffer])

/-- What a call of the scan opens or closes. -/
def Call.event : Call → Option DumpEvent
  | .safe_open _ fd => some (.acquire (.descriptor fd))
  | .close fd => some (.release (.descriptor fd))
  | _ => none

/-- `scanmem_cb`, the scan of a dump of a packed module. -/
def scanDumpRun (cfg : Config) (cb : Callback) (modulenameA : CString) (target : ModuleTarget)
    (s : ScanState) (deferred : ActionSource) : (ScanState × ActionSource) × List DumpEvent :=
  if !target.module_excluded && s.res == CL_CLEAN && cb.calls.is_packed then
    let named : List DumpEvent :=
      if cb.calls.gentemp.isSome then [.acquire .name] else []
    let freed : List DumpEvent :=
      if cb.calls.gentemp.isSome then [.release .name] else []
    let (fd, events) := dump_peRun cb.calls.dump cb.calls.gentemp
    if 0 < fd then
      let dumped := cb.calls.gentemp.getD []
      let scanned :=
        scanAs cfg cb.calls.dump_scan (dumpArgs cfg modulenameA target dumped) s deferred
      let scanEvents := (scanned.1.calls.drop s.calls.length).filterMap Call.event
      (scanned, named ++ events ++ [.release (.descriptor fd)] ++ scanEvents ++
        [.release (.dump dumped)] ++ freed)
    else ((s, deferred), named ++ events ++ freed)
  else ((s, deferred), [])

/-- The events of one call of `scanmem_cb`. -/
def dumpEvents (cfg : Config) (cb : Callback) (s : ScanState) : List DumpEvent :=
  match cb.calls.wideCharToMultiByte with
  | none => []
  | some modulenameA =>
    match lookup_cache cfg.tolower s.files (moduleName cfg cb) with
    | some _ => []
    | none =>
      let module := afterModule cfg cb modulenameA (s.setRes CL_CLEAN)
      (scanDumpRun cfg cb modulenameA (resolveModule cfg cb modulenameA) module.1 module.2).2

end ScanMem
end ClamavWin32
