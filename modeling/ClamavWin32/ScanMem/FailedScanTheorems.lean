import ClamavWin32.ScanMem.CacheTheorems

/-!
# Failed scans and clean results

A clean result should mean that every scan made of the module ended without an error and
found nothing. The daemon's errors are not lost, but the engine's are: `scanByEngine` lets
the verdict override the status, so a scan that failed before it found anything counts as
clean.

* `CleanOnlyIfScanned`: what a clean result should mean;
* `HidesFailure`: the callbacks for which it does not;
* `cleanOnlyIfScanned_iff`: the two exclude each other, and one of them holds;
* `failed_scan_iff`: the same over a run of callbacks.
-/

namespace ClamavWin32
namespace ScanMem

open Actions
open Actions.ClError
open TransitionSystem

variable {cfg : Config} {cb : Callback} {s : ScanState}

/-- If the call is a scan, it ended without an error and found nothing. -/
def Call.FoundNothing : Call → Prop
  | .cl_scandesc_ex _ _ status verdict =>
    status = CL_SUCCESS ∧ (verdict = .NOTHING_FOUND ∨ verdict = .TRUSTED)
  | .dsresult _ _ _ scan_result errors => scan_result = 0 ∧ errors ≤ 0
  | _ => True

/-- A callback records a clean result, or puts one into the cache, only if the module is
excluded or every scan made of it ended without an error and found nothing. -/
def CleanOnlyIfScanned (cfg : Config) (s : ScanState) (cb : Callback) (s' : ScanState) : Prop :=
  (s'.res = CL_CLEAN ∨ ∃ e ∈ s'.files, e ∉ s.files ∧ e.res = CL_CLEAN) →
    (∃ modulenameA, cb.calls.wideCharToMultiByte = some modulenameA ∧
      (resolveModule cfg cb modulenameA).module_excluded = true) ∨
    ∀ trace, s'.calls = s.calls ++ trace → ∀ call ∈ trace, call.FoundNothing

/-- The engine is to scan a module that is neither in the cache nor excluded, and one of its
scans ends with an error although none finds an infection and a dump, if there is one, can
be opened. -/
def HidesFailure (cfg : Config) (s : ScanState) (cb : Callback) : Prop :=
  cfg.d = false ∧ ∃ modulenameA, cb.calls.wideCharToMultiByte = some modulenameA ∧
    lookup_cache cfg.tolower s.files (moduleName cfg cb) = none ∧
    (resolveModule cfg cb modulenameA).module_excluded = false ∧
    cb.calls.module_scan.scans cfg
      (moduleArgs cfg modulenameA (resolveModule cfg cb modulenameA)) = true ∧
    cb.calls.module_scan.infected cfg = false ∧
    match if cb.calls.is_packed then dumpedFile cb.calls else none with
    | none => cb.calls.module_scan.failed cfg = true
    | some dumped =>
      cb.calls.dump_scan.scans cfg
        (dumpArgs cfg modulenameA (resolveModule cfg cb modulenameA) dumped) = true ∧
      cb.calls.dump_scan.infected cfg = false ∧
      (cb.calls.module_scan.failed cfg = true ∨ cb.calls.dump_scan.failed cfg = true)

/-- A scan that is made finds nothing if it neither fails nor finds an infection. -/
lemma foundNothing_scanCall {calls : ScanFileCalls} {args : ScanFileArgs} :
    (scanCall cfg calls args).FoundNothing ↔
      calls.failed cfg = false ∧ calls.infected cfg = false := by
  rw [scanCall, ScanFileCalls.failed, ScanFileCalls.infected]
  cases cfg.d with
  | true =>
    simp only [if_true, Call.FoundNothing, decide_eq_false_iff_not]
    omega
  | false =>
    simp only [Bool.false_eq_true, if_false, Call.FoundNothing]
    cases calls.verdict <;> simp

/-- Of the calls of one `scanfile` only the scan matters. -/
lemma foundNothing_scanfileCalls (calls : ScanFileCalls) (args : ScanFileArgs) :
    (∀ call ∈ scanfileCalls cfg calls args, call.FoundNothing) ↔
      (calls.scans cfg args = true → calls.failed cfg = false ∧ calls.infected cfg = false) := by
  have hopened : ∀ call ∈ (openActionTarget cfg calls args).opened, call.FoundNothing := by
    rw [ActionTarget.opened]
    split_ifs <;> simp [Call.FoundNothing]
  have hclose : ∀ call ∈ (if calls.hands cfg args then [] else
      (openActionTarget cfg calls args).close), call.FoundNothing := by
    rw [ActionTarget.close]
    split_ifs <;> simp [Call.FoundNothing]
  have hfile : (∀ call ∈ fileCalls cfg calls args, call.FoundNothing) ↔
      (calls.scans cfg args = true → (scanCall cfg calls args).FoundNothing) := by
    rw [fileCalls]
    cases hscans : calls.scans cfg args <;>
      cases hscanned : (openActionTarget cfg calls args).isScanned args
    · by_cases hfd : calls.safe_open = -1 <;> simp [hfd, Call.FoundNothing]
    · simp
    · have hfd : calls.safe_open ≠ -1 := by
        intro hfd
        simp [ScanFileCalls.scans, hscanned, hfd] at hscans
      simp [hfd, Call.FoundNothing]
    · simp
  rw [scanfileCalls, List.forall_mem_append, List.forall_mem_append, hfile,
    foundNothing_scanCall]
  exact ⟨fun h => h.1.2, fun h => ⟨⟨hopened, h⟩, hclose⟩⟩

/-- The reaction to a result makes no scan. -/
lemma foundNothing_reactionCalls (res : ClError) (deferred : ActionSource) :
    ∀ call ∈ reactionCalls cfg cb false res deferred ++ closeCalls deferred,
      call.FoundNothing := by
  intro call hcall
  rcases List.mem_append.mp hcall with hcall | hcall
  · rcases List.mem_append.mp hcall with hcall | hcall
    · split_ifs at hcall
      · rcases mem_unloadInfected hcall with ⟨_, rfl⟩ | ⟨_, _, rfl⟩ <;> trivial
      · cases hcall
    · split_ifs at hcall
      · rw [List.mem_singleton.mp hcall]
        trivial
      · cases hcall
  · rw [closeCalls] at hcall
    split_ifs at hcall
    · rw [List.mem_singleton.mp hcall]
      trivial
    · cases hcall

/-- A module that is excluded, in the cache, or whose name cannot be converted is not
scanned. -/
lemma cleanOnlyIfScanned_of_noScan {s' : ScanState} {trace : List Call}
    (hcalls : s'.calls = s.calls ++ trace) (hnone : ∀ call ∈ trace, call.FoundNothing) :
    CleanOnlyIfScanned cfg s cb s' := by
  refine fun _ => Or.inr fun trace' htrace' => ?_
  rw [hcalls, List.append_cancel_left_eq] at htrace'
  exact htrace' ▸ hnone

/-- What is put into the cache is the result recorded. -/
lemma res_of_stored {e : CacheEntry} (hnew : e ∈ (scanmem_cb cfg cb s).2.files)
    (hold : e ∉ s.files) : (scanmem_cb cfg cb s).2.res = e.res := by
  rcases hconv : cb.calls.wideCharToMultiByte with _ | modulenameA
  · rw [scanmem_cb_of_unconverted hconv] at hnew
    exact absurd hnew hold
  rcases hlookup : lookup_cache cfg.tolower s.files (moduleName cfg cb) with _ | cached_result
  · rw [files_of_miss hconv hlookup, insert_cache_eq] at hnew
    rw [res_of_miss hconv hlookup]
    split_ifs at hnew
    · rcases List.mem_append.mp hnew with hnew | hnew
      · exact absurd hnew hold
      · rw [List.mem_singleton.mp hnew]
    · exact absurd hnew hold
    · exact absurd hnew hold
  · rw [scanmem_cb_of_hit hconv hlookup] at hnew
    exact absurd hnew hold

/-- A callback for a module that is neither in the cache nor excluded. -/
lemma cleanOnlyIfScanned_of_miss {modulenameA : CString}
    (hconv : cb.calls.wideCharToMultiByte = some modulenameA)
    (hmiss : lookup_cache cfg.tolower s.files (moduleName cfg cb) = none)
    (hincluded : (resolveModule cfg cb modulenameA).module_excluded = false) :
    CleanOnlyIfScanned cfg s cb (scanmem_cb cfg cb s).2 ↔
      (freshResult cfg cb modulenameA = CL_CLEAN →
        (∀ call ∈ scanfileCalls cfg cb.calls.module_scan
          (moduleArgs cfg modulenameA (resolveModule cfg cb modulenameA)), call.FoundNothing) ∧
        ∀ call ∈ dumpScanCalls cfg cb modulenameA, call.FoundNothing) := by
  have hres := res_of_miss hconv hmiss
  have hcalls := calls_of_miss hconv hmiss hincluded
  constructor
  · intro hclean hfresh
    rcases hclean (Or.inl (hres.trans hfresh)) with ⟨name, hname, hexcluded⟩ | hscans
    · rw [hconv, Option.some.injEq] at hname
      rw [← hname, hincluded] at hexcluded
      cases hexcluded
    · have hall := hscans _ hcalls
      rw [List.forall_mem_append, List.forall_mem_append] at hall
      exact ⟨hall.1, hall.2.1⟩
  · intro hscans hclean
    have hfresh : freshResult cfg cb modulenameA = CL_CLEAN := by
      rw [← hres]
      rcases hclean with hclean | ⟨e, hnew, hold, hclean⟩
      · exact hclean
      · rw [res_of_stored hnew hold, hclean]
    obtain ⟨hmodule, hdump⟩ := hscans hfresh
    refine cleanOnlyIfScanned_of_noScan hcalls ?_ hclean
    rw [List.forall_mem_append, List.forall_mem_append]
    exact ⟨hmodule, hdump, foundNothing_reactionCalls _ _⟩

/-- The dump is scanned whenever the engine finds nothing in a packed file. -/
lemma scannedDump_eq {modulenameA : CString} (hd : cfg.d = false)
    (hincluded : (resolveModule cfg cb modulenameA).module_excluded = false)
    (hscans : cb.calls.module_scan.scans cfg
      (moduleArgs cfg modulenameA (resolveModule cfg cb modulenameA)) = true)
    (hinfected : cb.calls.module_scan.infected cfg = false) :
    scannedDump cfg cb modulenameA =
      if cb.calls.is_packed then dumpedFile cb.calls else none := by
  simp [scannedDump, hincluded, ScanFileCalls.status, hscans, hinfected, hd]

/-- After a clean result every scan was made, found no infection, and did not fail if it was
the daemon's. -/
lemma scans_of_clean {modulenameA : CString}
    (hincluded : (resolveModule cfg cb modulenameA).module_excluded = false)
    (hclean : freshResult cfg cb modulenameA = CL_CLEAN) :
    cb.calls.module_scan.status cfg
        (moduleArgs cfg modulenameA (resolveModule cfg cb modulenameA)) = CL_CLEAN ∧
      ∀ dumped, scannedDump cfg cb modulenameA = some dumped →
        cb.calls.dump_scan.status cfg
          (dumpArgs cfg modulenameA (resolveModule cfg cb modulenameA) dumped) = CL_CLEAN := by
  rw [freshResult, hincluded] at hclean
  rcases hdump : scannedDump cfg cb modulenameA with _ | dumped
  · rw [hdump] at hclean
    exact ⟨hclean, fun _ h => by cases h⟩
  · rw [hdump] at hclean
    refine ⟨(scannedDump_eq_some hdump).2.1, fun _ h => ?_⟩
    rw [← Option.some.inj h]
    exact hclean

/-- A module that is neither in the cache nor excluded hides a failure of the engine exactly
if its result is clean although one of its scans failed. -/
lemma hidesFailure_of_miss {modulenameA : CString}
    (hconv : cb.calls.wideCharToMultiByte = some modulenameA)
    (hmiss : lookup_cache cfg.tolower s.files (moduleName cfg cb) = none)
    (hincluded : (resolveModule cfg cb modulenameA).module_excluded = false) :
    HidesFailure cfg s cb ↔
      cfg.d = false ∧ freshResult cfg cb modulenameA = CL_CLEAN ∧
        (cb.calls.module_scan.failed cfg = true ∨
          ∃ dumped, scannedDump cfg cb modulenameA = some dumped ∧
            cb.calls.dump_scan.failed cfg = true) := by
  simp only [HidesFailure, hconv, Option.some.injEq, exists_eq_left', hmiss, hincluded,
    true_and]
  refine and_congr_right fun hd => ?_
  by_cases hscan : cb.calls.module_scan.scans cfg
      (moduleArgs cfg modulenameA (resolveModule cfg cb modulenameA)) = true ∧
      cb.calls.module_scan.infected cfg = false
  · rw [freshResult, hincluded, ← scannedDump_eq hd hincluded hscan.1 hscan.2]
    rcases scannedDump cfg cb modulenameA with _ | dumped
    · simp [status_eq_clean, hscan.1, hscan.2, hd]
    · simp [status_eq_clean, hscan.1, hscan.2, hd, and_assoc]
  · refine iff_of_false (fun h => hscan ⟨h.1, h.2.1⟩) fun h => hscan ?_
    have hstatus := (scans_of_clean hincluded h.1).1
    rw [status_eq_clean] at hstatus
    exact ⟨hstatus.1, hstatus.2.1⟩

/-- **When a failed scan is taken for a clean one**, in one callback. -/
theorem cleanOnlyIfScanned_iff (cfg : Config) (s : ScanState) (cb : Callback) :
    CleanOnlyIfScanned cfg s cb (scanmem_cb cfg cb s).2 ↔ ¬HidesFailure cfg s cb := by
  rcases hconv : cb.calls.wideCharToMultiByte with _ | modulenameA
  · -- the name is not converted
    have hcalls : (scanmem_cb cfg cb s).2.calls = s.calls ++ [] := by
      rw [scanmem_cb_of_unconverted hconv, calls_setRes, List.append_nil]
    have hnoScan : ∀ call ∈ ([] : List Call), call.FoundNothing :=
      fun call hcall => absurd hcall List.not_mem_nil
    refine iff_of_true (cleanOnlyIfScanned_of_noScan hcalls hnoScan) ?_
    rintro ⟨-, modulenameA, hsome, -⟩
    rw [hconv] at hsome
    cases hsome
  rcases hlookup : lookup_cache cfg.tolower s.files (moduleName cfg cb) with _ | cached_result
  · cases hexcluded : (resolveModule cfg cb modulenameA).module_excluded with
    | true =>
      refine iff_of_true (fun _ => Or.inl ⟨modulenameA, hconv, hexcluded⟩) ?_
      rintro ⟨-, name, hname, -, hincluded, -⟩
      rw [hconv, Option.some.injEq] at hname
      rw [← hname, hexcluded] at hincluded
      cases hincluded
    | false =>
      rw [cleanOnlyIfScanned_of_miss hconv hlookup hexcluded,
        hidesFailure_of_miss hconv hlookup hexcluded, foundNothing_scanfileCalls,
        dumpScanCalls]
      by_cases hclean : freshResult cfg cb modulenameA = CL_CLEAN
      · obtain ⟨hmodule, hdump⟩ := scans_of_clean hexcluded hclean
        rw [status_eq_clean] at hmodule
        rcases hdumped : scannedDump cfg cb modulenameA with _ | dumped
        · cases hd : cfg.d <;> simp_all
        · have hdump := hdump dumped hdumped
          rw [status_eq_clean] at hdump
          simp only [foundNothing_scanfileCalls]
          cases hd : cfg.d <;> simp_all
      · exact iff_of_true (fun h => absurd h hclean) fun h => hclean h.2.1
  · -- the module is in the cache
    obtain ⟨trace, hcalls, htrace⟩ :=
      (answeredFromCache_of_hits ⟨by rw [hconv]; rfl, hlookup⟩).calls
    refine iff_of_true (cleanOnlyIfScanned_of_noScan hcalls fun call hcall => ?_) ?_
    · rcases htrace call hcall with ⟨_, rfl⟩ | ⟨_, _, rfl⟩ <;> trivial
    · rintro ⟨-, -, -, hmiss, -⟩
      rw [hlookup] at hmiss
      cases hmiss

/-- **When a failed scan is taken for a clean one**, over any run of callbacks. -/
theorem failed_scan_iff (cfg : Config) (s : ScanState) (cbs : List Callback) :
    EveryStep (step cfg) (CleanOnlyIfScanned cfg) s cbs ↔
      EveryStep (step cfg) (fun s cb _ => ¬HidesFailure cfg s cb) s cbs := by
  refine everyStep_congr ?_ s cbs
  rintro s cb s' ⟨⟩
  exact cleanOnlyIfScanned_iff cfg s cb

/-- The engine runs out of memory before it finds anything: the module is recorded and
stored as clean. -/
theorem failed_scan_cached :
    (scanmem_cb (sampleConfig false)
        (sampleCallback true false (sampleScan .CL_EMEM .NOTHING_FOUND)) sampleStart).2.files =
      [⟨[67, 58, 92, 97], CL_CLEAN⟩] ∧
    ¬EveryStep (step (sampleConfig false)) (CleanOnlyIfScanned (sampleConfig false)) sampleStart
      [sampleCallback true false (sampleScan .CL_EMEM .NOTHING_FOUND)] := by
  refine ⟨by decide +kernel, fun hall => ?_⟩
  have hclean := (hall _ rfl).1
  rw [cleanOnlyIfScanned_iff] at hclean
  exact hclean ⟨rfl, samplePath, rfl, rfl, rfl, rfl, rfl, rfl⟩

end ScanMem
end ClamavWin32
