import ClamavWin32.ScanMem.ScanCallbackTheorems

/-!
# Quarantine accounting

With an action configured, an infected module is either acted upon, through a source that
was opened before the scan that found the infection, or it is counted as not moved or not
removed. No source stays open.

* `sourcesAfter`: the action sources that are open after some calls;
* `Accounted`: what is known of a callback once its scans are made;
* `quarantine_accounting`: the outcome of a callback for a module that is not in the cache.
-/

namespace ClamavWin32
namespace ScanMem

open Actions
open Actions.ClError

variable {cfg : Config} {cb : Callback} {s : ScanState}

/-! ## Calls and action sources -/

/-- What a call opens or closes. -/
def Call.sourceEvent : Call → Option (ResourceEvent ActionSource)
  | .action_source_open_path source => some (.acquire source)
  | .action_source_close source => some (.release source)
  | _ => none

/-- The source a call applies the action to. -/
def Call.acted : Call → Option ActionSource
  | .action source => some source
  | _ => none

/-- The call is a scan that finds an infection. -/
def Call.findsInfection : Call → Bool
  | .cl_scandesc_ex _ _ _ verdict =>
    verdict == .STRONG_INDICATOR || verdict == .POTENTIALLY_UNWANTED
  | .dsresult _ _ _ scan_result _ => decide (0 < scan_result)
  | _ => false

/-- The call scans what the source's descriptor refers to. -/
def Call.Reads (source : ActionSource) : Call → Prop
  | .cl_scandesc_ex fd _ _ _ => fd = source.scan_fd
  | .dsresult _ _ scanned _ _ => scanned = some source
  | _ => False

/-- The action sources that are open after the calls, if each of them was closed at most
once and none before it was opened. -/
def sourcesAfter (calls : List Call) : Option (List ActionSource) :=
  ResourceEvent.ledger [] (calls.filterMap Call.sourceEvent)

/-- Calls that do not open or close a source. -/
def NoSource (calls : List Call) : Prop := calls.filterMap Call.sourceEvent = []

/-- Calls that do not apply the action. -/
def NoAction (calls : List Call) : Prop := calls.filterMap Call.acted = []

lemma sourcesAfter_append_of_noSource {calls more : List Call} (hmore : NoSource more) :
    sourcesAfter (calls ++ more) = sourcesAfter calls := by
  rw [sourcesAfter, List.filterMap_append, hmore, List.append_nil, sourcesAfter]

lemma NoAction.append {calls more : List Call} (hcalls : NoAction calls)
    (hmore : NoAction more) : NoAction (calls ++ more) := by
  rw [NoAction, List.filterMap_append, hcalls, hmore]
  rfl

/-- Calls made while no source is open. -/
lemma sourcesAfter_append {calls more : List Call} (hcalls : sourcesAfter calls = some []) :
    sourcesAfter (calls ++ more) = sourcesAfter more := by
  rw [sourcesAfter] at hcalls
  rw [sourcesAfter, List.filterMap_append, ResourceEvent.ledger_append, hcalls,
    Option.bind_some, sourcesAfter]

/-! ## One scan -/

lemma findsInfection_scanCall (calls : ScanFileCalls) (args : ScanFileArgs) :
    (scanCall cfg calls args).findsInfection = calls.infected cfg := by
  rw [scanCall, ScanFileCalls.infected]
  cases cfg.d <;> rfl

lemma reads_scanCall {calls : ScanFileCalls} {args : ScanFileArgs}
    (hscanned : (openActionTarget cfg calls args).isScanned args = true) :
    (scanCall cfg calls args).Reads (openActionTarget cfg calls args).action_source := by
  rw [scanCall]
  cases cfg.d <;> simp [Call.Reads, hscanned]

lemma scanCall_sourceEvent (calls : ScanFileCalls) (args : ScanFileArgs) :
    (scanCall cfg calls args).sourceEvent = none := by
  rw [scanCall]
  cases cfg.d <;> rfl

lemma scanCall_acted (calls : ScanFileCalls) (args : ScanFileArgs) :
    (scanCall cfg calls args).acted = none := by
  rw [scanCall]
  cases cfg.d <;> rfl

@[simp] lemma sourceEvent_safe_open (path : CString) (fd : ℤ) :
    (Call.safe_open path fd).sourceEvent = none := rfl

@[simp] lemma sourceEvent_close (fd : ℤ) : (Call.close fd).sourceEvent = none := rfl

@[simp] lemma acted_safe_open (path : CString) (fd : ℤ) :
    (Call.safe_open path fd).acted = none := rfl

@[simp] lemma acted_close (fd : ℤ) : (Call.close fd).acted = none := rfl

lemma noSource_fileCalls (calls : ScanFileCalls) (args : ScanFileArgs) :
    NoSource (fileCalls cfg calls args) := by
  rw [NoSource, fileCalls]
  cases calls.scans cfg args <;>
    cases (openActionTarget cfg calls args).isScanned args <;>
    by_cases hfd : calls.safe_open = -1 <;>
    simp [hfd, scanCall_sourceEvent]

lemma noAction_fileCalls (calls : ScanFileCalls) (args : ScanFileArgs) :
    NoAction (fileCalls cfg calls args) := by
  rw [NoAction, fileCalls]
  cases calls.scans cfg args <;>
    cases (openActionTarget cfg calls args).isScanned args <;>
    by_cases hfd : calls.safe_open = -1 <;>
    simp [hfd, scanCall_acted]

/-- A scan that is made is among the calls, and the calls before it open no source. -/
lemma fileCalls_split {calls : ScanFileCalls} {args : ScanFileArgs}
    (hscans : calls.scans cfg args = true) :
    ∃ pre post, fileCalls cfg calls args = pre ++ scanCall cfg calls args :: post ∧
      NoSource pre := by
  rw [fileCalls, hscans]
  cases hscanned : (openActionTarget cfg calls args).isScanned args with
  | true => exact ⟨[], [], by simp, rfl⟩
  | false =>
    have hfd : calls.safe_open ≠ -1 := by
      intro hfd
      simp [ScanFileCalls.scans, hscanned, hfd] at hscans
    exact ⟨[.safe_open args.scan_path calls.safe_open], [.close calls.safe_open],
      by simp [hfd], rfl⟩

lemma noAction_scanfileCalls (calls : ScanFileCalls) (args : ScanFileArgs) :
    NoAction (scanfileCalls cfg calls args) := by
  refine NoAction.append (NoAction.append ?_ (noAction_fileCalls calls args)) ?_
  · rw [ActionTarget.opened]
    split_ifs <;> rfl
  · rw [ActionTarget.close]
    split_ifs <;> rfl

/-- A source that is opened is closed, unless it is handed over. -/
lemma sourcesAfter_scanfileCalls (calls : ScanFileCalls) (args : ScanFileArgs) :
    sourcesAfter (scanfileCalls cfg calls args) =
      some (if calls.hands cfg args then [(openActionTarget cfg calls args).action_source]
        else []) := by
  have hfile : (fileCalls cfg calls args).filterMap Call.sourceEvent = [] :=
    noSource_fileCalls calls args
  rw [sourcesAfter, scanfileCalls, ScanFileCalls.hands]
  cases hsource : (openActionTarget cfg calls args).have_action_source <;>
    cases hfinds : calls.finds cfg args <;>
    simp [ActionTarget.opened, ActionTarget.close, hsource, hfile, Call.sourceEvent]

/-- The scan that finds an infection is made while the source is open, if there is one. -/
lemma scanfileCalls_split {calls : ScanFileCalls} {args : ScanFileArgs}
    (hfinds : calls.finds cfg args = true) :
    ∃ pre post, scanfileCalls cfg calls args = pre ++ scanCall cfg calls args :: post ∧
      sourcesAfter pre =
        some (if (openActionTarget cfg calls args).have_action_source then
          [(openActionTarget cfg calls args).action_source] else []) := by
  rw [ScanFileCalls.finds, Bool.and_eq_true] at hfinds
  obtain ⟨pre, post, hsplit, hpre⟩ := fileCalls_split hfinds.1
  refine ⟨(openActionTarget cfg calls args).opened ++ pre,
    post ++ if calls.hands cfg args then [] else (openActionTarget cfg calls args).close,
    ?_, ?_⟩
  · rw [scanfileCalls, hsplit]
    simp
  · rw [sourcesAfter_append_of_noSource hpre, ActionTarget.opened]
    split_ifs <;> rfl

/-! ## What is known once the scans are made -/

/-- No action failed in between. -/
def SameCounters (s s' : ScanState) : Prop :=
  s'.notmoved = s.notmoved ∧ s'.notremoved = s.notremoved

/-- One more file was not moved, or one more was not removed. -/
def OneMoreFailed (s s' : ScanState) : Prop :=
  (s'.notmoved = s.notmoved + 1 ∧ s'.notremoved = s.notremoved) ∨
  (s'.notmoved = s.notmoved ∧ s'.notremoved = s.notremoved + 1)

/-- The source was opened from the path the module's name resolves to. -/
def SafeSource (cb : Callback) (modulenameA : CString) (source : ActionSource) : Prop :=
  ∃ resolved, scanmem_resolve_action_path cb.calls = (CL_SUCCESS, some resolved) ∧
    source.OpenedFrom modulenameA resolved

/-- The scan is that of the dump. -/
def FromDump (cfg : Config) (cb : Callback) (modulenameA : CString) (scan : Call) : Prop :=
  ∃ dumped, scannedDump cfg cb modulenameA = some dumped ∧
    scan = scanCall cfg cb.calls.dump_scan
      (dumpArgs cfg modulenameA (resolveModule cfg cb modulenameA) dumped)

/-- What is known of a callback that has led from `s` to the state and the source `r`
through the calls, once its scans are made. -/
structure Accounted (cfg : Config) (cb : Callback) (modulenameA : CString) (s : ScanState)
    (r : ScanState × ActionSource) (trace : List Call) : Prop where
  calls : r.1.calls = s.calls ++ trace
  noAction : NoAction trace
  clean : r.1.res ≠ CL_VIRUS →
    r.2 = action_source_init ∧ sourcesAfter trace = some [] ∧ SameCounters s r.1
  infected : r.1.res = CL_VIRUS →
    ∃ pre scan post, trace = pre ++ scan :: post ∧ scan.findsInfection = true ∧
      ((r.2 = action_source_init ∧ sourcesAfter pre = some [] ∧ sourcesAfter trace = some [] ∧
          OneMoreFailed s r.1) ∨
        (SafeSource cb modulenameA r.2 ∧ sourcesAfter pre = some [r.2] ∧
          sourcesAfter trace = some [r.2] ∧
          (scan.Reads r.2 ∨ FromDump cfg cb modulenameA scan) ∧ SameCounters s r.1))

/-- The path of a later action is what the module's name resolves to. -/
lemma module_action_open_path_eq_some {modulenameA resolved : CString}
    (hpath : (resolveModule cfg cb modulenameA).module_action_open_path = some resolved) :
    scanmem_resolve_action_path cb.calls = (CL_SUCCESS, some resolved) ∧
      (resolveModule cfg cb modulenameA).module_scan_path = resolved := by
  rw [resolveModule] at hpath ⊢
  by_cases haction :
      (cfg.action && !((cfg.d || cfg.exclude) && cb.calls.chkpath modulenameA)) = true
  · rw [if_pos haction] at hpath ⊢
    split at hpath
    · next path hresolve =>
      rw [hresolve]
      simp only [Option.some.injEq] at hpath
      exact ⟨by rw [hpath], hpath⟩
    · cases hpath
  · rw [if_neg haction] at hpath
    cases hpath

/-- One scan, made while no source is open. -/
lemma accounted_scanAs (haction : cfg.action = true) {modulenameA : CString}
    {calls : ScanFileCalls} {args : ScanFileArgs} {s₁ : ScanState} {trace : List Call}
    (htarget : args.action_target = some modulenameA)
    (hpath : args.action_open_path = (resolveModule cfg cb modulenameA).module_action_open_path)
    (hrequired : args.action_open_path_required = cfg.action)
    (hscan : (openActionTarget cfg calls args).have_action_source = true →
      (openActionTarget cfg calls args).isScanned args = true ∨
        FromDump cfg cb modulenameA (scanCall cfg calls args))
    (hcalls : s₁.calls = s.calls ++ trace) (hact : NoAction trace)
    (hsources : sourcesAfter trace = some []) (hcounters : SameCounters s s₁) :
    Accounted cfg cb modulenameA s (scanAs cfg calls args s₁ action_source_init)
      (trace ++ scanfileCalls cfg calls args) := by
  rw [scanAs_eq]
  refine ⟨?_, hact.append (noAction_scanfileCalls calls args), fun hclean => ?_,
    fun hvirus => ?_⟩
  · simp [hcalls, scanfileCalls]
  · -- nothing is found
    have hfinds : calls.finds cfg args = false := by
      rw [← Bool.not_eq_true, ← status_eq_virus]
      exact hclean
    have hhands : calls.hands cfg args = false := by simp [ScanFileCalls.hands, hfinds]
    have hmisses : calls.misses cfg args = false := by simp [ScanFileCalls.misses, hfinds]
    refine ⟨by simp [hhands], ?_, ?_⟩
    · rw [sourcesAfter_append hsources, sourcesAfter_scanfileCalls, hhands]
      rfl
    · simpa [SameCounters, hmisses] using hcounters
  · have hfinds : calls.finds cfg args = true := status_eq_virus.mp hvirus
    obtain ⟨pre, post, hsplit, hpre⟩ := scanfileCalls_split hfinds
    have hinfected : calls.infected cfg = true := by
      rw [ScanFileCalls.finds, Bool.and_eq_true] at hfinds
      exact hfinds.2
    refine ⟨trace ++ pre, scanCall cfg calls args, post, by rw [hsplit, List.append_assoc],
      by rw [findsInfection_scanCall, hinfected], ?_⟩
    rw [sourcesAfter_append hsources, sourcesAfter_append hsources, hpre,
      sourcesAfter_scanfileCalls]
    cases hsource : (openActionTarget cfg calls args).have_action_source with
    | false =>
      -- the infection is counted
      have hhands : calls.hands cfg args = false := by simp [ScanFileCalls.hands, hsource]
      have hmisses : calls.misses cfg args = true := by
        simp [ScanFileCalls.misses, hfinds, haction, hsource]
      refine Or.inl ⟨by simp [hhands], by simp, by simp [hhands], ?_⟩
      cases hremove : cfg.remove with
      | true => exact Or.inr (by simpa [hmisses, hremove, SameCounters] using hcounters)
      | false => exact Or.inl (by simpa [hmisses, hremove, SameCounters] using hcounters)
    | true =>
      -- the source is handed over
      have hhands : calls.hands cfg args = true := by
        simp [ScanFileCalls.hands, hfinds, hsource]
      have hmisses : calls.misses cfg args = false := by
        simp [ScanFileCalls.misses, hsource]
      obtain ⟨hopened, hnone⟩ := openedFrom_of_have hsource
      refine Or.inr ⟨?_, by simp [hhands], by simp [hhands], ?_, ?_⟩
      · rcases hresolved : args.action_open_path with _ | resolved
        · rw [hnone hresolved, haction] at hrequired
          cases hrequired
        · rw [hresolved] at hpath
          refine ⟨resolved, (module_action_open_path_eq_some hpath.symm).1, ?_⟩
          simpa [hhands, hresolved, ScanFileArgs.action_display_filename, htarget]
            using hopened
      · rcases hscan hsource with hscanned | hdump
        · exact Or.inl (by simpa [hhands] using reads_scanCall hscanned)
        · exact Or.inr hdump
      · simpa [SameCounters, hmisses] using hcounters

/-- A source for the module's file is itself what is scanned. -/
lemma isScanned_moduleArgs {modulenameA : CString} {t : ActionTarget}
    (hsource : t.have_action_source = true) :
    t.isScanned (moduleArgs cfg modulenameA (resolveModule cfg cb modulenameA)) = true := by
  rw [ActionTarget.isScanned, hsource, Bool.true_and, ScanFileArgs.action_target_is_scan_target]
  rcases hpath : (resolveModule cfg cb modulenameA).module_action_open_path with _ | resolved
  · simp [moduleArgs, hpath]
  · simp [moduleArgs, hpath, (module_action_open_path_eq_some hpath).2, ScanFileArgs.scan_path]

/-- The scans of a module that is not in the cache. -/
lemma accounted_afterScans (haction : cfg.action = true) (modulenameA : CString) :
    ∃ trace, Accounted cfg cb modulenameA s (afterScans cfg cb modulenameA s) trace := by
  rw [afterScans_eq]
  cases hexcluded : (resolveModule cfg cb modulenameA).module_excluded with
  | true =>
    refine ⟨[], ?_⟩
    rw [scannedDump_of_excluded hexcluded]
    simp only [afterModule_of_excluded hexcluded]
    refine ⟨by simp [countModule], rfl, fun _ => ⟨rfl, rfl, rfl, rfl⟩, fun hvirus => ?_⟩
    cases hvirus
  | false =>
    have hmodule : Accounted cfg cb modulenameA s (afterModule cfg cb modulenameA s)
        ([] ++ scanfileCalls cfg cb.calls.module_scan
          (moduleArgs cfg modulenameA (resolveModule cfg cb modulenameA))) := by
      rw [afterModule_of_included hexcluded]
      exact accounted_scanAs haction rfl rfl rfl
        (fun hsource => Or.inl (isScanned_moduleArgs hsource))
        (by simp [countModule]) rfl rfl ⟨rfl, rfl⟩
    rcases hdump : scannedDump cfg cb modulenameA with _ | dumped
    · exact ⟨_, hmodule⟩
    · -- the file was found clean, so its source is closed by now
      obtain ⟨-, hclean, -, -⟩ := scannedDump_eq_some hdump
      have hres : (afterModule cfg cb modulenameA s).1.res = CL_CLEAN := by
        rw [afterModule_of_included hexcluded, scanAs_eq]
        exact hclean
      obtain ⟨hdeferred, hsources, hcounters⟩ := hmodule.clean (by rw [hres]; decide)
      simp only [hdeferred]
      exact ⟨_, accounted_scanAs haction rfl rfl rfl
        (fun _ => Or.inr ⟨dumped, hdump, rfl⟩) hmodule.calls hmodule.noAction hsources
        hcounters⟩

/-! ## The whole callback -/

/-- Getting an infected module out of memory involves no source. -/
lemma unloadInfected_calls :
    NoSource (unloadInfected cfg cb).2 ∧ NoAction (unloadInfected cfg cb).2 := by
  rw [NoSource, NoAction, List.filterMap_eq_nil_iff, List.filterMap_eq_nil_iff]
  constructor <;>
  · intro call hcall
    rcases mem_unloadInfected hcall with ⟨pid, rfl⟩ | ⟨pid, hModule, rfl⟩ <;> rfl

/-- The reaction to an infection, as far as sources are concerned. -/
lemma reactionCalls_of_virus (haction : cfg.action = true) (deferred : ActionSource) :
    NoSource (reactionCalls cfg cb false CL_VIRUS deferred) ∧
      (reactionCalls cfg cb false CL_VIRUS deferred).filterMap Call.acted =
        if unloadUnsupported cfg cb ∨ deferred.scan_fd = -1 then [] else [deferred] := by
  obtain ⟨hsource, hact⟩ := @unloadInfected_calls cfg cb
  rw [NoSource] at hsource ⊢
  rw [NoAction] at hact
  rw [reactionCalls, actsOn, List.filterMap_append, List.filterMap_append]
  by_cases hunload : unloadUnsupported cfg cb = true <;>
    by_cases hfd : deferred.scan_fd = -1 <;>
    simp [hsource, hact, hunload, hfd, haction, Call.sourceEvent, Call.acted]

/-- What is promised of a callback for a module that is not in the cache: every action
source is closed; an infected module is acted upon or counted; another one is neither. -/
def QuarantineAccounted (cfg : Config) (cb : Callback) (s : ScanState) : Prop :=
  ∃ trace, (scanmem_cb cfg cb s).2.calls = s.calls ++ trace ∧
    -- every source that is opened is closed, exactly once
    sourcesAfter trace = some [] ∧
    ((scanmem_cb cfg cb s).2.res ≠ CL_VIRUS →
      NoAction trace ∧ SameCounters s (scanmem_cb cfg cb s).2) ∧
    ((scanmem_cb cfg cb s).2.res = CL_VIRUS →
      ∃ pre scan post, trace = pre ++ scan :: post ∧ scan.findsInfection = true ∧
        -- no source could be opened for the scan
        ((sourcesAfter pre = some [] ∧ NoAction trace ∧
            OneMoreFailed s (scanmem_cb cfg cb s).2) ∨
          -- a source was opened before the scan
          ∃ modulenameA source, cb.calls.wideCharToMultiByte = some modulenameA ∧
            SafeSource cb modulenameA source ∧ sourcesAfter pre = some [source] ∧
            (scan.Reads source ∨ FromDump cfg cb modulenameA scan) ∧
            trace.filterMap Call.acted = if unloadUnsupported cfg cb then [] else [source]))

/-- **Quarantine accounting.** With an action configured, for a module that is not in the
cache. -/
theorem quarantine_accounting (cfg : Config) (cb : Callback) (s : ScanState)
    (haction : cfg.action = true)
    (hmiss : lookup_cache cfg.tolower s.files (moduleName cfg cb) = none) :
    QuarantineAccounted cfg cb s := by
  rcases hconv : cb.calls.wideCharToMultiByte with _ | modulenameA
  · rw [QuarantineAccounted, scanmem_cb_of_unconverted hconv]
    exact ⟨[], by simp, rfl, fun _ => ⟨rfl, rfl, rfl⟩, nofun⟩
  -- the trace is the one of the scans, and what the result is answered with
  obtain ⟨trace, hacc⟩ := @accounted_afterScans cfg cb s haction modulenameA
  have hres : (afterScans cfg cb modulenameA s).1.res = freshResult cfg cb modulenameA :=
    res_afterScans modulenameA
  rw [QuarantineAccounted, state_of_miss hconv hmiss, hres]
  refine ⟨trace ++ (reactionCalls cfg cb false (freshResult cfg cb modulenameA)
    (afterScans cfg cb modulenameA s).2 ++ closeCalls (afterScans cfg cb modulenameA s).2),
    by rw [hacc.calls, List.append_assoc], ?_⟩
  by_cases hvirus : freshResult cfg cb modulenameA = CL_VIRUS
  · have hsplit (pre : List Call) (scan : Call) (post more : List Call) :
        (pre ++ scan :: post) ++ more = pre ++ scan :: (post ++ more) := by
      rw [List.append_assoc, List.cons_append]
    obtain ⟨hsource, hact⟩ :=
      @reactionCalls_of_virus cfg cb haction (afterScans cfg cb modulenameA s).2
    obtain ⟨pre, scan, post, rfl, hfinds, ⟨hdeferred, hpre, hsources, hcounters⟩ |
      ⟨hsafe, hpre, hsources, hreads, -⟩⟩ := hacc.infected (hres.trans hvirus)
    · -- there is no source: the failure is counted
      rw [hdeferred] at hsource hact
      rw [hvirus, hdeferred]
      have hclose : closeCalls action_source_init = [] := rfl
      have hreaction : NoAction (reactionCalls cfg cb false CL_VIRUS action_source_init) := by
        rw [NoAction, hact]
        exact if_pos (Or.inr rfl)
      rw [hclose, List.append_nil]
      refine ⟨?_, fun h => absurd rfl h, fun _ => ⟨pre, scan, _, hsplit _ _ _ _, hfinds,
        Or.inl ⟨hpre, hacc.noAction.append hreaction, ?_⟩⟩⟩
      · rw [sourcesAfter_append_of_noSource hsource, hsources]
      · simpa [actsOn, OneMoreFailed] using hcounters
    · -- the source is acted upon, and closed
      obtain ⟨resolved, hresolve, hopened⟩ := hsafe
      have hfd : (afterScans cfg cb modulenameA s).2.scan_fd ≠ -1 := by
        have := hopened.scan_fd
        omega
      have hclose : closeCalls (afterScans cfg cb modulenameA s).2 =
          [.action_source_close (afterScans cfg cb modulenameA s).2] := by
        rw [closeCalls, if_pos (bne_iff_ne.mpr hfd)]
      rw [hvirus, hclose]
      refine ⟨?_, fun h => absurd rfl h, fun _ => ⟨pre, scan, _, hsplit _ _ _ _, hfinds,
        Or.inr ⟨modulenameA, _, hconv, ⟨resolved, hresolve, hopened⟩, hpre, hreads, ?_⟩⟩⟩
      · rw [← List.append_assoc, sourcesAfter, List.filterMap_append,
          ResourceEvent.ledger_append]
        rw [← sourcesAfter_append_of_noSource hsource, sourcesAfter] at hsources
        rw [hsources]
        exact ResourceEvent.ledger_release_head _ _ _
      · have hnoAction := hacc.noAction
        rw [NoAction] at hnoAction
        rw [List.filterMap_append, hnoAction, List.nil_append, List.filterMap_append, hact]
        simp [hfd, Call.acted]
  · -- no source is left open, and nothing is done
    obtain ⟨hdeferred, hsources, hcounters⟩ := hacc.clean (by rwa [hres])
    have hreaction : reactionCalls cfg cb false (freshResult cfg cb modulenameA)
        (afterScans cfg cb modulenameA s).2 = [] := by
      simp [reactionCalls, actsOn, hvirus]
    rw [hreaction, hdeferred]
    refine ⟨by simpa [closeCalls] using hsources, fun _ => ⟨?_, ?_⟩,
      fun h => absurd h hvirus⟩
    · simpa [closeCalls] using hacc.noAction
    · simpa [actsOn, hvirus, SameCounters] using hcounters

/-- An infected module whose source can be opened. -/
theorem quarantine_accounting_sample :
    (sampleConfig true).action = true ∧
    lookup_cache (sampleConfig true).tolower sampleStart.files
      (moduleName (sampleConfig true)
        (sampleCallback true false (sampleScan .CL_CLEAN .STRONG_INDICATOR))) = none ∧
    QuarantineAccounted (sampleConfig true)
      (sampleCallback true false (sampleScan .CL_CLEAN .STRONG_INDICATOR)) sampleStart :=
  ⟨rfl, rfl, quarantine_accounting _ _ _ rfl rfl⟩

end ScanMem
end ClamavWin32
