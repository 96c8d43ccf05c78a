import ClamavWin32.ScanMem.ScanFile

/-!
# What scanning one file does

The outcome of `scanfile` as a function of what is answered to its calls:

* `scanfile_eq`: the status, the counters, the calls made and the source handed over;
* `openActionTarget_cases`: which source a later action would get.
-/

namespace ClamavWin32
namespace ScanMem

open Actions
open Actions.ClError

/-! ## The answers of the engine and of the daemon -/

/-- The scan of the file ends with an infection. -/
def ScanFileCalls.infected (cfg : Config) (calls : ScanFileCalls) : Bool :=
  if cfg.d then decide (0 < calls.dsresult)
  else calls.verdict == .STRONG_INDICATOR || calls.verdict == .POTENTIALLY_UNWANTED

/-- The scan of the file ends with an error. -/
def ScanFileCalls.failed (cfg : Config) (calls : ScanFileCalls) : Bool :=
  if cfg.d then decide (calls.dsresult < 0 ∨ 0 < calls.dsresult_errors)
  else calls.cl_scandesc_ex != CL_SUCCESS

/-- The file is scanned: it can be opened, and the daemon answers if it is to scan. -/
def ScanFileCalls.scans (cfg : Config) (calls : ScanFileCalls) (args : ScanFileArgs) : Bool :=
  ((openActionTarget cfg calls args).isScanned args || calls.safe_open != -1) &&
  !(cfg.d && decide (calls.dconnect < 0))

/-- The call that scans the file. -/
def scanCall (cfg : Config) (calls : ScanFileCalls) (args : ScanFileArgs) : Call :=
  let t := openActionTarget cfg calls args
  if cfg.d then
    .dsresult (scantype cfg (t.isScanned args)) args.scan_path
      (if t.isScanned args then some t.action_source else none) calls.dsresult
      calls.dsresult_errors
  else
    .cl_scandesc_ex (if t.isScanned args then t.action_source.scan_fd else calls.safe_open)
      args.filename calls.cl_scandesc_ex calls.verdict

/-- The calls from the opening of the file to scan to its closing. -/
def fileCalls (cfg : Config) (calls : ScanFileCalls) (args : ScanFileArgs) : List Call :=
  let t := openActionTarget cfg calls args
  let scan := if calls.scans cfg args then [scanCall cfg calls args] else []
  if t.isScanned args then scan
  else if calls.safe_open = -1 then []
  else .safe_open args.scan_path calls.safe_open :: scan ++ [.close calls.safe_open]

/-- What `scanfile` returns. -/
def ScanFileCalls.status (cfg : Config) (calls : ScanFileCalls) (args : ScanFileArgs) :
    ClError :=
  if calls.scans cfg args then
    if calls.infected cfg then CL_VIRUS
    else if cfg.d && calls.failed cfg then CL_EOPEN
    else CL_CLEAN
  else CL_EOPEN

/-- An infection is found. -/
def ScanFileCalls.finds (cfg : Config) (calls : ScanFileCalls) (args : ScanFileArgs) : Bool :=
  calls.scans cfg args && calls.infected cfg

/-- An infection is found and there is a source to apply the action to. -/
def ScanFileCalls.hands (cfg : Config) (calls : ScanFileCalls) (args : ScanFileArgs) : Bool :=
  calls.finds cfg args && (openActionTarget cfg calls args).have_action_source

/-- An infection is found, but there is no source to apply the action to. -/
def ScanFileCalls.misses (cfg : Config) (calls : ScanFileCalls) (args : ScanFileArgs) : Bool :=
  calls.finds cfg args && cfg.action && !(openActionTarget cfg calls args).have_action_source

lemma status_eq_virus {cfg : Config} {calls : ScanFileCalls} {args : ScanFileArgs} :
    calls.status cfg args = CL_VIRUS ↔ calls.finds cfg args = true := by
  rw [ScanFileCalls.status, ScanFileCalls.finds]
  cases calls.scans cfg args <;> cases calls.infected cfg <;>
    cases cfg.d && calls.failed cfg <;> simp

/-- The status is clean after a scan that found nothing, unless the daemon failed. -/
lemma status_eq_clean {cfg : Config} {calls : ScanFileCalls} {args : ScanFileArgs} :
    calls.status cfg args = CL_CLEAN ↔
      calls.scans cfg args = true ∧ calls.infected cfg = false ∧
        ¬(cfg.d = true ∧ calls.failed cfg = true) := by
  rw [ScanFileCalls.status]
  cases calls.scans cfg args <;> cases calls.infected cfg <;> cases cfg.d <;>
    cases calls.failed cfg <;> simp

/-! ## The source of a later action -/

lemma openActionTarget_of_noAction {cfg : Config} (haction : cfg.action = false)
    (calls : ScanFileCalls) (args : ScanFileArgs) :
    openActionTarget cfg calls args = ⟨action_source_init, false, false⟩ := by
  simp [openActionTarget, haction]

/-- With an action configured, the source is either there or was not opened. -/
lemma action_source_open_failed_eq (cfg : Config) (calls : ScanFileCalls)
    (args : ScanFileArgs) :
    (openActionTarget cfg calls args).action_source_open_failed =
      (cfg.action && !(openActionTarget cfg calls args).have_action_source) := by
  rw [openActionTarget]
  cases cfg.action with
  | false => rfl
  | true => by_cases hstatus : (openActionSource calls args).1 = CL_SUCCESS <;> simp [hstatus]

lemma action_of_have {cfg : Config} {calls : ScanFileCalls} {args : ScanFileArgs}
    (hsource : (openActionTarget cfg calls args).have_action_source = true) :
    cfg.action = true := by
  cases haction : cfg.action with
  | true => rfl
  | false =>
    rw [openActionTarget_of_noAction haction] at hsource
    cases hsource

/-- A source is opened from the resolved path, and by the name only if no resolved path is
required. -/
lemma openedFrom_of_have {cfg : Config} {calls : ScanFileCalls} {args : ScanFileArgs}
    (hsource : (openActionTarget cfg calls args).have_action_source = true) :
    (openActionTarget cfg calls args).action_source.OpenedFrom args.action_display_filename
        (args.action_open_path.getD args.action_display_filename) ∧
      (args.action_open_path = none → args.action_open_path_required = false) := by
  have haction := action_of_have hsource
  have hstatus : (openActionSource calls args).1 = CL_SUCCESS := by
    by_contra hne
    simp [openActionTarget, haction, hne] at hsource
  have htarget : (openActionTarget cfg calls args).action_source =
      (openActionSource calls args).2.1 := by
    simp [openActionTarget, haction, hstatus]
  have hopen (path : CString)
      (heq : openActionSource calls args =
        action_source_open_path calls.open_path args.action_display_filename path) :
      (openActionSource calls args).2.1.OpenedFrom args.action_display_filename path := by
    obtain ⟨status, source, events, hspec, -, hsuccess, -⟩ :=
      action_source_open_path_spec calls.open_path args.action_display_filename path
    rw [heq, hspec] at hstatus ⊢
    exact (hsuccess hstatus).1
  rw [htarget]
  rcases hpath : args.action_open_path with _ | path
  · have hrequired : args.action_open_path_required = false := by
      cases hreq : args.action_open_path_required with
      | false => rfl
      | true => simp [openActionSource, hpath, hreq] at hstatus
    exact ⟨hopen _ (by simp [openActionSource, hpath, hrequired, action_source_open]),
      fun _ => hrequired⟩
  · exact ⟨hopen path (by simp [openActionSource, hpath]), nofun⟩

/-! ## The outcome -/

/-- The calls of one `scanfile`. -/
def scanfileCalls (cfg : Config) (calls : ScanFileCalls) (args : ScanFileArgs) : List Call :=
  (openActionTarget cfg calls args).opened ++ fileCalls cfg calls args ++
    if calls.hands cfg args then [] else (openActionTarget cfg calls args).close

/-- The counters of `struct mem_info` after `scanfile`. -/
def ScanFileCalls.info (cfg : Config) (calls : ScanFileCalls) (args : ScanFileArgs)
    (info : MemInfo) : MemInfo :=
  { info with
    ifiles := info.ifiles + if calls.finds cfg args then 1 else 0
    errors := info.errors +
      if !cfg.d || ((openActionTarget cfg calls args).isScanned args = false ∧
          calls.safe_open = -1) then 0
      else if calls.dconnect < 0 then 1
      else calls.dsresult_errors }

lemma scanByDaemon_eq {cfg : Config} (hd : cfg.d = true) (calls : ScanFileCalls)
    (path : CString) (source : Option ActionSource) (s : ScanState) :
    scanByDaemon cfg calls path source s =
      (if calls.infected cfg then CL_VIRUS else if calls.failed cfg then CL_EOPEN else CL_CLEAN,
        calls.infected cfg,
        { s with
          info := { s.info with
            ifiles := s.info.ifiles + if calls.infected cfg then 1 else 0
            errors := s.info.errors + calls.dsresult_errors }
          calls := s.calls ++ [.dsresult (scantype cfg source.isSome) path source
            calls.dsresult calls.dsresult_errors] }) := by
  simp only [scanByDaemon, ScanFileCalls.infected, ScanFileCalls.failed, hd, if_true,
    decide_eq_true_eq, ScanState.log, lt_add_iff_pos_right]
  by_cases hvirus : 0 < calls.dsresult
  · simp [hvirus]
  · by_cases hfail : calls.dsresult < 0 ∨ 0 < calls.dsresult_errors <;> simp [hvirus, hfail]

lemma scanByEngine_eq {cfg : Config} (hd : cfg.d = false) (calls : ScanFileCalls) (fd : ℤ)
    (filename : CString) (s : ScanState) :
    scanByEngine calls fd filename s =
      (if calls.infected cfg then CL_VIRUS else CL_CLEAN, calls.infected cfg,
        { s with
          info := { s.info with
            ifiles := s.info.ifiles + if calls.infected cfg then 1 else 0 }
          calls := s.calls ++
            [.cl_scandesc_ex fd filename calls.cl_scandesc_ex calls.verdict] }) := by
  simp only [scanByEngine, ScanFileCalls.infected, hd, ScanState.log]
  cases calls.verdict <;> rfl

/-- What is done with the source after the scan, for a caller that takes it. -/
lemma settleAction_eq (cfg : Config) (calls : ScanFileCalls) (infected : Bool)
    (t : ActionTarget) (s : ScanState) (deferred : ActionSource)
    (hfailed : t.action_source_open_failed = (cfg.action && !t.have_action_source))
    (hhave : t.have_action_source = true → cfg.action = true) :
    settleAction cfg calls infected t s (some deferred) =
      (if infected && t.have_action_source then
          ⟨action_source_init, false, t.action_source_open_failed⟩ else t,
        { s with
          notmoved := s.notmoved +
            if infected && cfg.action && !t.have_action_source && !cfg.remove then 1 else 0
          notremoved := s.notremoved +
            if infected && cfg.action && !t.have_action_source && cfg.remove then 1 else 0 },
        some (if infected && t.have_action_source then t.action_source else deferred)) := by
  rw [settleAction, hfailed]
  cases hsource : t.have_action_source with
  | true =>
    rw [hhave hsource]
    cases infected <;> simp
  | false =>
    cases infected <;> cases cfg.action <;> cases cfg.remove <;> simp

/-- A source that was handed over is not closed. -/
lemma close_of_handed (handed : Prop) [Decidable handed] (t : ActionTarget) (failed : Bool) :
    (if handed then (⟨action_source_init, false, failed⟩ : ActionTarget) else t).close =
      if handed then [] else t.close := by
  split_ifs <;> rfl

/-- **The outcome of `scanfile`** for a caller that takes the source of an infected file. -/
theorem scanfile_eq (cfg : Config) (calls : ScanFileCalls) (args : ScanFileArgs)
    (s : ScanState) (deferred : ActionSource) :
    scanfile cfg calls args s (some deferred) =
      (calls.status cfg args,
        { s with
          info := calls.info cfg args s.info
          notmoved := s.notmoved + if calls.misses cfg args && !cfg.remove then 1 else 0
          notremoved := s.notremoved + if calls.misses cfg args && cfg.remove then 1 else 0
          calls := s.calls ++ scanfileCalls cfg calls args },
        some (if calls.hands cfg args then (openActionTarget cfg calls args).action_source
          else deferred)) := by
  have hfailed := action_source_open_failed_eq cfg calls args
  have hhave := @action_of_have cfg calls args
  by_cases hopen : (openActionTarget cfg calls args).isScanned args = false ∧
      calls.safe_open = -1
  · -- the file cannot be opened
    have hscans : calls.scans cfg args = false := by
      simp [ScanFileCalls.scans, hopen.1, hopen.2]
    simp [scanfile, ScanFileCalls.status, ScanFileCalls.info, ScanFileCalls.misses,
      ScanFileCalls.hands, ScanFileCalls.finds, fileCalls, scanfileCalls, hscans, hopen.1,
      hopen.2, ScanState.log]
  have hopened : ((openActionTarget cfg calls args).isScanned args ||
      calls.safe_open != -1) = true := by
    rw [Bool.or_eq_true, bne_iff_ne]
    by_contra hnot
    rw [not_or, Bool.not_eq_true, not_not] at hnot
    exact hopen hnot
  have hfd (hscanned : (openActionTarget cfg calls args).isScanned args = false) :
      calls.safe_open ≠ -1 := fun hfd => hopen ⟨hscanned, hfd⟩
  by_cases hdaemon : cfg.d = true ∧ calls.dconnect < 0
  · -- the daemon does not answer
    have hscans : calls.scans cfg args = false := by
      simp [ScanFileCalls.scans, hdaemon.1, hdaemon.2]
    cases hscanned : (openActionTarget cfg calls args).isScanned args <;>
      simp [scanfile, ScanFileCalls.status, ScanFileCalls.info, ScanFileCalls.misses,
        ScanFileCalls.hands, ScanFileCalls.finds, fileCalls, scanfileCalls, hscans, hscanned,
        hfd, hdaemon.1, hdaemon.2, ScanState.log]
  have hscans : calls.scans cfg args = true := by
    rw [ScanFileCalls.scans, hopened, Bool.true_and, Bool.not_eq_true',
      Bool.and_eq_false_imp, ← Bool.not_eq_true']
    simpa using hdaemon
  -- the file is scanned, by the daemon or by the engine
  cases hd : cfg.d with
  | true =>
    have hconn : ¬calls.dconnect < 0 := fun h => hdaemon ⟨hd, h⟩
    cases hscanned : (openActionTarget cfg calls args).isScanned args <;>
      simp [scanfile, ScanFileCalls.status, ScanFileCalls.info, ScanFileCalls.misses,
        ScanFileCalls.hands, ScanFileCalls.finds, fileCalls, scanfileCalls, scanCall, hscans,
        hscanned, hfd, hd, hconn, ScanState.log, scanByDaemon_eq hd,
        settleAction_eq _ _ _ _ _ _ hfailed hhave, close_of_handed]
  | false =>
    cases hscanned : (openActionTarget cfg calls args).isScanned args <;>
      simp [scanfile, ScanFileCalls.status, ScanFileCalls.info, ScanFileCalls.misses,
        ScanFileCalls.hands, ScanFileCalls.finds, fileCalls, scanfileCalls, scanCall, hscans,
        hscanned, hfd, hd, ScanState.log, scanByEngine_eq hd,
        settleAction_eq _ _ _ _ _ _ hfailed hhave,
        close_of_handed]

end ScanMem
end ClamavWin32
