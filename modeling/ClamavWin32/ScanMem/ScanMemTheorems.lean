import ClamavWin32.ScanMem.WalkModulesTheorems
import ClamavWin32.ScanMem.ScanCallbackTheorems

/-!
# What the scan of the memory reports

`scanmem` returns the result that its last callback recorded, and does not look at what
`walkmodules` returns: an infection counts only if the last module is infected, too.

* `FindsInfected`: a callback finds its module infected, in the cache or by a scan;
* `ReportsInfections`: what the result of a scan should say;
* `scanmem_eq`: the result is the one that the run of the callbacks ends with;
* `reportsInfections_iff`: when the result says what it should.
-/

namespace ClamavWin32
namespace ScanMem

open Actions
open Actions.ClError
open TransitionSystem

variable {cfg : Config} {cb : Callback} {s : ScanState}

/-! ## One callback -/

/-- A callback finds its module infected: the cache says so, or the scan of its file or of
its dump. -/
def FindsInfected (cfg : Config) (s : ScanState) (cb : Callback) : Prop :=
  ∃ modulenameA, cb.calls.wideCharToMultiByte = some modulenameA ∧
    match lookup_cache cfg.tolower s.files (moduleName cfg cb) with
    | some cached_result => cached_result = CL_VIRUS
    | none =>
      let target := resolveModule cfg cb modulenameA
      target.module_excluded = false ∧
        (cb.calls.module_scan.finds cfg (moduleArgs cfg modulenameA target) = true ∨
          ∃ dumped, scannedDump cfg cb modulenameA = some dumped ∧
            cb.calls.dump_scan.finds cfg (dumpArgs cfg modulenameA target dumped) = true)

lemma freshResult_eq_virus {modulenameA : CString} :
    freshResult cfg cb modulenameA = CL_VIRUS ↔
      (resolveModule cfg cb modulenameA).module_excluded = false ∧
        (cb.calls.module_scan.finds cfg
            (moduleArgs cfg modulenameA (resolveModule cfg cb modulenameA)) = true ∨
          ∃ dumped, scannedDump cfg cb modulenameA = some dumped ∧
            cb.calls.dump_scan.finds cfg
              (dumpArgs cfg modulenameA (resolveModule cfg cb modulenameA) dumped) = true) := by
  rw [freshResult]
  cases hexcluded : (resolveModule cfg cb modulenameA).module_excluded with
  | true => simp
  | false =>
    rcases hdump : scannedDump cfg cb modulenameA with _ | dumped
    · simp [status_eq_virus]
    · -- the module's file was found clean
      have hclean := (scannedDump_eq_some hdump).2.1
      have hfinds : cb.calls.module_scan.finds cfg
          (moduleArgs cfg modulenameA (resolveModule cfg cb modulenameA)) ≠ true := by
        rw [Ne, ← status_eq_virus, hclean]
        decide
      simp [status_eq_virus, hfinds]

/-- A callback records an infection if and only if it finds one. -/
lemma res_eq_virus_iff :
    (scanmem_cb cfg cb s).2.res = CL_VIRUS ↔ FindsInfected cfg s cb := by
  rw [FindsInfected]
  rcases hconv : cb.calls.wideCharToMultiByte with _ | modulenameA
  · rw [scanmem_cb_of_unconverted hconv]
    simp
  rcases hlookup : lookup_cache cfg.tolower s.files (moduleName cfg cb) with _ | cached_result
  · rw [res_of_miss hconv hlookup, freshResult_eq_virus]
    simp
  · rw [scanmem_cb_of_hit hconv hlookup]
    simp

/-! ## The run of the callbacks -/

/-- The callback for a visit. -/
def Visit.toCallback (v : Visit CallbackCalls) : Callback := ⟨v.proc, v.me32, v.answers⟩

/-- The daemon is to scan, and cannot be reached. -/
def NoDaemon (cfg : Config) (machine : Machine) : Prop :=
  cfg.d = true ∧ machine.dconnect < 0

/-- The callbacks of a scan. -/
def scanCallbacks (cfg : Config) (machine : Machine) (s : ScanState) : List Callback :=
  if cfg.d && decide (machine.dconnect < 0) then []
  else (scanWalk cfg machine s).2.visits.map Visit.toCallback

/-- Some callback of a run finds its module infected. -/
def SomeInfected (cfg : Config) (s : ScanState) (cbs : List Callback) : Prop :=
  ∃ pre cb post t, cbs = pre ++ cb :: post ∧ run (step cfg) s pre = some t ∧
    FindsInfected cfg t cb

/-- The last callback of a run finds its module infected. -/
def LastInfected (cfg : Config) (s : ScanState) (cbs : List Callback) : Prop :=
  ∃ pre cb t, cbs = pre ++ [cb] ∧ run (step cfg) s pre = some t ∧ FindsInfected cfg t cb

/-- A scan that finds an infection returns `CL_VIRUS`, and one that returns `CL_CLEAN` did
enumerate the processes and found none. -/
def ReportsInfections (cfg : Config) (machine : Machine) (info : MemInfo)
    (notmoved notremoved : ℕ) : Prop :=
  let s := ScanState.initial info notmoved notremoved
  let infected := SomeInfected cfg s (scanCallbacks cfg machine s)
  (infected → (scanmem cfg machine info notmoved notremoved).1 = some CL_VIRUS) ∧
  ((scanmem cfg machine info notmoved notremoved).1 = some CL_CLEAN →
    machine.running.isSome = true ∧ ¬infected)

lemma someInfected_of_last {cbs : List Callback} (hlast : LastInfected cfg s cbs) :
    SomeInfected cfg s cbs := by
  obtain ⟨pre, cb, t, hcbs, hrun, hfinds⟩ := hlast
  exact ⟨pre, cb, [], t, hcbs, hrun, hfinds⟩

lemma not_someInfected_nil : ¬SomeInfected cfg s [] := by
  rintro ⟨pre, cb, post, t, hcbs, -, -⟩
  exact absurd hcbs.symm (by simp)

/-- Every callback is a step. -/
lemma exists_run_step (cfg : Config) (s : ScanState) (cbs : List Callback) :
    ∃ t, run (step cfg) s cbs = some t := by
  induction cbs generalizing s with
  | nil => exact ⟨s, rfl⟩
  | cons cb cbs ih => exact ih _

lemma run_callStep (vs : List (Visit CallbackCalls)) (s : ScanState) :
    run (callStep (scanVisit cfg)) s vs = run (step cfg) s (vs.map Visit.toCallback) := by
  induction vs generalizing s with
  | nil => rfl
  | cons v vs ih => exact ih _

/-- **The result of a scan** is the one that the run of its callbacks ends with. -/
lemma scanmem_eq {machine : Machine} (hdaemon : ¬NoDaemon cfg machine) (info : MemInfo)
    (notmoved notremoved : ℕ) :
    ∃ t, run (step cfg) (.initial info notmoved notremoved)
        (scanCallbacks cfg machine (.initial info notmoved notremoved)) = some t ∧
      (scanmem cfg machine info notmoved notremoved).1 = some t.res := by
  have hcond : ¬(cfg.d && decide (machine.dconnect < 0)) = true := by
    rw [Bool.and_eq_true, decide_eq_true_eq]
    exact hdaemon
  rw [scanCallbacks, if_neg hcond, ← run_callStep, scanmem, if_neg hcond]
  exact ⟨_, walkmodules_follows (scanVisit cfg) machine.arch machine.running machine.stack _, rfl⟩

lemma scanmem_of_noDaemon {machine : Machine} (hdaemon : NoDaemon cfg machine)
    (info : MemInfo) (notmoved notremoved : ℕ) :
    (scanmem cfg machine info notmoved notremoved).1 = none ∧
      scanCallbacks cfg machine (.initial info notmoved notremoved) = [] := by
  have hcond : (cfg.d && decide (machine.dconnect < 0)) = true := by
    rw [Bool.and_eq_true, decide_eq_true_eq]
    exact hdaemon
  rw [scanCallbacks, if_pos hcond, scanmem, if_pos hcond]
  exact ⟨rfl, rfl⟩

/-- Without processes there is no callback. -/
lemma scanCallbacks_of_notRunning {machine : Machine} (hrunning : machine.running = none)
    (s : ScanState) : scanCallbacks cfg machine s = [] := by
  rw [scanCallbacks, scanWalk, hrunning]
  exact ite_self []

/-- A run that does not end with the first state ends with the result of its last
callback. -/
lemma res_run_eq_virus {info : MemInfo} {notmoved notremoved : ℕ} {t : ScanState}
    {cbs : List Callback}
    (hrun : run (step cfg) (.initial info notmoved notremoved) cbs = some t) :
    t.res = CL_VIRUS ↔ LastInfected cfg (.initial info notmoved notremoved) cbs := by
  rcases List.eq_nil_or_concat cbs with rfl | ⟨pre, cb, rfl⟩
  · rw [run_nil, Option.some.injEq] at hrun
    rw [← hrun]
    refine iff_of_false nofun fun hlast => ?_
    exact not_someInfected_nil (someInfected_of_last hlast)
  · obtain ⟨u, hu⟩ := exists_run_step cfg (.initial info notmoved notremoved) pre
    rw [List.concat_eq_append, run_append, hu, Option.bind_some] at hrun
    cases hrun
    rw [show (scanmem_cb cfg cb u).2.res = CL_VIRUS ↔ _ from res_eq_virus_iff]
    constructor
    · exact fun hfinds => ⟨pre, cb, u, List.concat_eq_append, hu, hfinds⟩
    · rintro ⟨pre', cb', u', hsplit, hu', hfinds⟩
      rw [List.concat_eq_append] at hsplit
      obtain ⟨rfl, hcb⟩ := List.append_inj' hsplit rfl
      cases hcb
      rw [hu, Option.some.injEq] at hu'
      exact hu' ▸ hfinds

/-- **When a scan reports what it found**: the daemon cannot be reached, or the processes are
enumerated and, if any callback finds an infection, the last one does. -/
theorem reportsInfections_iff (cfg : Config) (machine : Machine) (info : MemInfo)
    (notmoved notremoved : ℕ) :
    ReportsInfections cfg machine info notmoved notremoved ↔
      NoDaemon cfg machine ∨
      (machine.running.isSome = true ∧
        (SomeInfected cfg (.initial info notmoved notremoved)
            (scanCallbacks cfg machine (.initial info notmoved notremoved)) →
          LastInfected cfg (.initial info notmoved notremoved)
            (scanCallbacks cfg machine (.initial info notmoved notremoved)))) := by
  rw [ReportsInfections]
  by_cases hdaemon : NoDaemon cfg machine
  · -- nothing is scanned
    obtain ⟨hres, hcbs⟩ := scanmem_of_noDaemon hdaemon info notmoved notremoved
    rw [hres, hcbs]
    exact iff_of_true ⟨fun h => absurd h not_someInfected_nil, nofun⟩ (Or.inl hdaemon)
  obtain ⟨t, hrun, hres⟩ := scanmem_eq hdaemon info notmoved notremoved
  have hvirus := res_run_eq_virus hrun
  simp only [hres, Option.some.injEq, hvirus, or_iff_right hdaemon]
  rcases hrunning : machine.running with _ | running
  · -- the processes cannot be enumerated
    rw [scanCallbacks_of_notRunning hrunning, run_nil, Option.some.injEq] at hrun
    refine iff_of_false (fun h => ?_) fun h => Bool.false_ne_true h.1
    exact Bool.false_ne_true (h.2 (hrun ▸ rfl)).1
  · rw [Option.isSome_some]
    refine ⟨fun h => ⟨rfl, h.1⟩, fun h => ⟨h.2, fun hclean => ⟨rfl, fun hsome => ?_⟩⟩⟩
    have hinfected := hvirus.mpr (h.2 hsome)
    rw [hclean] at hinfected
    cases hinfected

/-- A machine with one process of two modules, the first of which is infected. -/
def sampleMachine : Machine where
  arch := .x64
  dconnect := 0
  running := some [{
    pid := 8
    openProcess := true
    modules := some [0x400000, 0x500000]
    exeName := fun _ => some [98]
    baseName := fun _ => some [97]
    fileName := fun h => some (if h = 0x400000 then [67, 58, 92, 97] else [67, 58, 92, 98])
    information := fun h => some (h, 0x1000)
    answers := fun j => (sampleCallback true false
      (sampleScan .CL_CLEAN (if j = 0 then .STRONG_INDICATOR else .NOTHING_FOUND))).calls
    fits := by
      rintro ms ⟨⟩
      decide }]
  stack := fun _ => 0

/-- The second module is clean, and so is the result. -/
theorem infection_overwritten :
    (scanmem (sampleConfig false) sampleMachine ⟨0, 0, 0⟩ 0 0).1 = some CL_CLEAN ∧
    ¬ReportsInfections (sampleConfig false) sampleMachine ⟨0, 0, 0⟩ 0 0 := by
  have hres : (scanmem (sampleConfig false) sampleMachine ⟨0, 0, 0⟩ 0 0).1 = some CL_CLEAN := by
    decide +kernel
  refine ⟨hres, fun hreports => (hreports.2 hres).2 ?_⟩
  exact ⟨[], _, _, _, rfl, rfl, samplePath, rfl, rfl, Or.inl rfl⟩

end ScanMem
end ClamavWin32
