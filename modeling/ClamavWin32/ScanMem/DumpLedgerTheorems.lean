import ClamavWin32.ScanMem.DumpLedger

/-!
# What a dump leaves behind

* `DumpLeaks`: a resource is left that no variable refers to any longer;
* `leaves_dump_pe`: what `dump_pe` hands to its caller;
* `releases_scan`: a scan closes what it opens;
* `scanDumpRun_fst`: without its events, the scan of a dump is the one of the other results;
* `dumpReleased_iff`: when everything is released.
-/

namespace ClamavWin32
namespace ScanMem

open Actions
open Actions.ClError
open ResourceEvent

/-- A dump is lost: the module does not fit the memory, or the file is created and not written,
or it has no descriptor above 0. -/
def DumpLeaks (calls : DumpCalls) (filename : Option CString) : Prop :=
  calls.openProcess = true ∧
    (calls.malloc = true → calls.readProcessMemory = true ∧ filename ≠ none ∧
      calls.createFile = true ∧ (calls.writeFile = true → calls.open_osfhandle ≤ 0))

/-! ## `dump_pe` -/

/-- What `dump_pe` hands to a caller that takes descriptors above 0 only. -/
def handedOver (calls : DumpCalls) (filename : Option CString) : List DumpResource :=
  if 0 < (dump_peRun calls filename).1 then
    [.descriptor (dump_peRun calls filename).1, .dump (filename.getD [])]
  else []

lemma dump_peRun_fst (calls : DumpCalls) (filename : CString) :
    (dump_peRun calls (some filename)).1 = dump_pe calls := by
  simp only [dump_peRun, dump_pe]
  split_ifs <;> rfl

lemma dump_peRun_none (calls : DumpCalls) : (dump_peRun calls none).1 = -1 := by
  unfold dump_peRun
  split_ifs <;> rfl

lemma dumpedFile_eq (calls : CallbackCalls) :
    dumpedFile calls =
      if 0 < (dump_peRun calls.dump calls.gentemp).1 then calls.gentemp else none := by
  rw [dumpedFile]
  cases calls.gentemp with
  | none => split_ifs <;> rfl
  | some filename => rw [dump_peRun_fst]

/-- The module is read, and the handle of its process is closed. -/
lemma leaves_read :
    Leaves ([.acquire .process, .acquire .buffer, .release .process] : List DumpEvent)
      [.buffer] False := by
  have hread : Leaves ([.acquire .process, .acquire .buffer] : List DumpEvent)
      ([.buffer] ++ .process :: []) False :=
    (Leaves.nil.acquire DumpResource.process).acquire DumpResource.buffer
  exact hread.release_middle

/-- The file is created, and both of its resources are still there. -/
lemma leaves_created (filename : CString) :
    Leaves ([.acquire .process, .acquire .buffer, .release .process, .acquire .file,
      .acquire (.dump filename)] : List DumpEvent) [.dump filename, .file, .buffer] False :=
  (leaves_read.acquire .file).acquire (.dump filename)

/-- The file is created, and no descriptor takes it over. -/
lemma leaves_unwritten (filename : CString) :
    Leaves ([.acquire .process, .acquire .buffer, .release .process, .acquire .file,
      .acquire (.dump filename)] ++ [.release .buffer] : List DumpEvent) [] True := by
  have hcreated : Leaves ([.acquire .process, .acquire .buffer, .release .process, .acquire .file,
      .acquire (.dump filename)] : List DumpEvent)
      ([.dump filename, .file] ++ .buffer :: []) False :=
    leaves_created filename
  exact hcreated.release_middle.lose.lose

/-- The file is created, and its descriptor takes the handle over. -/
lemma leaves_written (filename : CString) (fd : ℤ) :
    Leaves ([.acquire .process, .acquire .buffer, .release .process, .acquire .file,
      .acquire (.dump filename)] ++
        [.release .file, .acquire (.descriptor fd), .release .buffer] : List DumpEvent)
      [.descriptor fd, .dump filename] False := by
  have hcreated : Leaves ([.acquire .process, .acquire .buffer, .release .process, .acquire .file,
      .acquire (.dump filename)] : List DumpEvent) ([.dump filename] ++ .file :: [.buffer]) False :=
    leaves_created filename
  have htaken : Leaves (([.acquire .process, .acquire .buffer, .release .process, .acquire .file,
      .acquire (.dump filename)] ++ [.release .file]) ++ [.acquire (.descriptor fd)] :
        List DumpEvent)
      ([.descriptor fd, .dump filename] ++ .buffer :: []) False :=
    hcreated.release_middle.acquire (.descriptor fd)
  exact htaken.release_middle

/-- **What `dump_pe` leaves**: the descriptor and the file for its caller, or nothing, unless
something is lost. -/
lemma leaves_dump_pe (calls : DumpCalls) (filename : Option CString) :
    Leaves (dump_peRun calls filename).2 (handedOver calls filename)
      (DumpLeaks calls filename) := by
  obtain ⟨openProcess, malloc, readProcessMemory, createFile, writeFile, fd⟩ := calls
  rcases openProcess with _ | _
  · apply Leaves.nil.congr
    simp [DumpLeaks]
  rcases malloc with _ | _
  · apply (Leaves.nil.acquire DumpResource.process).lose.congr
    simp [DumpLeaks]
  rcases readProcessMemory with _ | _
  · apply (((Leaves.nil.acquire DumpResource.process).acquire .buffer).release).release.congr
    simp [DumpLeaks]
  rcases filename with _ | filename
  · apply leaves_read.release.congr
    simp [DumpLeaks]
  rcases createFile with _ | _
  · apply leaves_read.release.congr
    simp [DumpLeaks]
  rcases writeFile with _ | _
  · apply (leaves_unwritten filename).congr
    simp [DumpLeaks]
  by_cases hfd : 0 ≤ fd
  · have hrun : dump_peRun ⟨true, true, true, true, true, fd⟩ (some filename) =
        (fd, [.acquire .process, .acquire .buffer, .release .process, .acquire .file,
          .acquire (.dump filename)] ++
            [.release .file, .acquire (.descriptor fd), .release .buffer]) :=
      if_pos hfd
    rw [handedOver, hrun]
    by_cases hpos : 0 < fd
    · rw [if_pos hpos]
      apply (leaves_written filename fd).congr
      simp [DumpLeaks, hpos]
    · -- the caller does not take the descriptor 0
      rw [if_neg hpos]
      apply (leaves_written filename fd).lose.lose.congr
      simpa [DumpLeaks] using hpos
  · have hrun : dump_peRun ⟨true, true, true, true, true, fd⟩ (some filename) =
        (fd, [.acquire .process, .acquire .buffer, .release .process, .acquire .file,
          .acquire (.dump filename)] ++ [.release .buffer]) :=
      if_neg hfd
    rw [handedOver, hrun, if_neg (by omega)]
    apply (leaves_unwritten filename).congr
    simp [DumpLeaks]
    omega

/-! ## The scan of the dump -/

/-- A source of a later action is not a descriptor of the scan. -/
lemma filterMap_opened (t : ActionTarget) :
    t.opened.filterMap Call.event = [] ∧ t.close.filterMap Call.event = [] := by
  rw [ActionTarget.opened, ActionTarget.close]
  cases t.have_action_source <;> exact ⟨rfl, rfl⟩

/-- A scan closes what it opens. -/
lemma releases_scan (cfg : Config) (calls : ScanFileCalls) (args : ScanFileArgs) :
    Releases ((scanfileCalls cfg calls args).filterMap Call.event) := by
  have hscan : (if calls.scans cfg args then [scanCall cfg calls args] else []).filterMap
      Call.event = [] := by
    rw [scanCall]
    cases calls.scans cfg args <;> cases cfg.d <;> rfl
  have hclose : (if calls.hands cfg args then [] else
      (openActionTarget cfg calls args).close).filterMap Call.event = [] := by
    cases calls.hands cfg args with
    | false => exact (filterMap_opened _).2
    | true => rfl
  rw [scanfileCalls, List.filterMap_append, List.filterMap_append, (filterMap_opened _).1,
    List.nil_append, hclose, List.append_nil]
  cases hscanned : (openActionTarget cfg calls args).isScanned args with
  | true =>
    simp only [fileCalls, hscanned, if_true, hscan]
    rfl
  | false =>
    by_cases hopen : calls.safe_open = -1
    · simp only [fileCalls, hscanned, hopen, Bool.false_eq_true, if_false, if_true]
      rfl
    · simp only [fileCalls, hscanned, Bool.false_eq_true, if_false, if_neg hopen,
        List.cons_append, List.filterMap_cons, List.filterMap_append, hscan, Call.event]
      exact releases_pair (DumpResource.descriptor calls.safe_open)

section

variable (cfg : Config) (cb : Callback) (modulenameA : CString) (target : ModuleTarget)
  (s : ScanState) (deferred : ActionSource)

/-- Without its events, the scan of a dump is `scanDump`. -/
lemma scanDumpRun_fst :
    (scanDumpRun cfg cb modulenameA target s deferred).1 =
      scanDump cfg cb modulenameA target s deferred := by
  rw [scanDumpRun, scanDump, dumpedFile_eq]
  cases hentered : !target.module_excluded && s.res == CL_CLEAN && cb.calls.is_packed with
  | false => rfl
  | true =>
    simp only [if_true]
    cases hname : cb.calls.gentemp with
    | none => simp [dump_peRun_none]
    | some dumped =>
      by_cases hfd : 0 < (dump_peRun cb.calls.dump (some dumped)).1 <;> simp [hfd]

/-- The events of the scan of a dump are those of `scanfile`. -/
lemma scanEvents_eq (args : ScanFileArgs) :
    ((scanAs cfg cb.calls.dump_scan args s deferred).1.calls.drop s.calls.length) =
      scanfileCalls cfg cb.calls.dump_scan args := by
  rw [scanAs_eq]
  exact List.drop_left

/-- The descriptor and the file are released before the name, if there are any. -/
lemma releases_scanDumpRun
    (hentered : (!target.module_excluded && s.res == CL_CLEAN && cb.calls.is_packed) = true) :
    Releases (scanDumpRun cfg cb modulenameA target s deferred).2 ↔
      ¬DumpLeaks cb.calls.dump cb.calls.gentemp := by
  apply Leaves.ownsNothing
  have hdump := leaves_dump_pe cb.calls.dump cb.calls.gentemp
  rw [scanDumpRun, if_pos hentered]
  cases hname : cb.calls.gentemp with
  | none =>
    rw [hname] at hdump
    simpa [handedOver, dump_peRun_none] using hdump
  | some dumped =>
    rw [hname] at hdump
    have hnamed := (Leaves.nil.acquire DumpResource.name).append hdump
    rw [handedOver] at hnamed
    simp only [false_or] at hnamed
    by_cases hfd : 0 < (dump_peRun cb.calls.dump (some dumped)).1
    · rw [if_pos hfd] at hnamed
      have hscan := Leaves.nil.after (releases_scan cfg cb.calls.dump_scan
        (dumpArgs cfg modulenameA target dumped))
      have hall := (hnamed.release.append hscan).release.release
      simpa [hfd, scanEvents_eq] using hall
    · rw [if_neg hfd] at hnamed
      simpa [hfd] using hnamed.release

end

/-! ## The callback -/

/-- The module is packed, and a dump of it is to be scanned. -/
def Dumps (cfg : Config) (cb : Callback) (s : ScanState) : Prop :=
  ∃ modulenameA, cb.calls.wideCharToMultiByte = some modulenameA ∧
    lookup_cache cfg.tolower s.files (moduleName cfg cb) = none ∧
    (resolveModule cfg cb modulenameA).module_excluded = false ∧
    cb.calls.module_scan.status cfg
      (moduleArgs cfg modulenameA (resolveModule cfg cb modulenameA)) = CL_CLEAN ∧
    cb.calls.is_packed = true

/-- **What a dump leaves behind**: once the callback has finished with a packed module,
everything is released if and only if nothing is lost in `dump_pe` or between it and its
caller. -/
theorem dumpReleased_iff (cfg : Config) (cb : Callback) (s : ScanState) :
    Releases (dumpEvents cfg cb s) ↔
      (Dumps cfg cb s → ¬DumpLeaks cb.calls.dump cb.calls.gentemp) := by
  have hnothing (hevents : dumpEvents cfg cb s = []) (hnot : ¬Dumps cfg cb s) :
      Releases (dumpEvents cfg cb s) ↔
        (Dumps cfg cb s → ¬DumpLeaks cb.calls.dump cb.calls.gentemp) := by
    rw [hevents]
    exact iff_of_true rfl fun h => absurd h hnot
  rcases hconv : cb.calls.wideCharToMultiByte with _ | modulenameA
  · apply hnothing
    · simp [dumpEvents, hconv]
    · simp [Dumps, hconv]
  rcases hlookup : lookup_cache cfg.tolower s.files (moduleName cfg cb) with _ | cached_result
  · have hevents : dumpEvents cfg cb s =
        (scanDumpRun cfg cb modulenameA (resolveModule cfg cb modulenameA)
          (afterModule cfg cb modulenameA (s.setRes CL_CLEAN)).1
          (afterModule cfg cb modulenameA (s.setRes CL_CLEAN)).2).2 := by
      simp [dumpEvents, hconv, hlookup]
    have hentered : (!(resolveModule cfg cb modulenameA).module_excluded &&
        (afterModule cfg cb modulenameA (s.setRes CL_CLEAN)).1.res == CL_CLEAN &&
        cb.calls.is_packed) = true ↔ Dumps cfg cb s := by
      simp only [Dumps, hconv, hlookup, Option.some.injEq, exists_eq_left', true_and]
      cases hexcluded : (resolveModule cfg cb modulenameA).module_excluded with
      | true => simp
      | false => simp [afterModule_of_included hexcluded, scanAs_eq]
    by_cases hdumps : Dumps cfg cb s
    · rw [hevents, releases_scanDumpRun _ _ _ _ _ _ (hentered.mpr hdumps)]
      exact ⟨fun h _ => h, fun h => h hdumps⟩
    · apply hnothing _ hdumps
      rw [hevents, scanDumpRun, if_neg (mt hentered.mp hdumps)]
  · apply hnothing
    · simp [dumpEvents, hconv, hlookup]
    · simp [Dumps, hlookup]

/-- A packed module of the sample process, and the calls of its dump. -/
def packedModule (dump : DumpCalls) : Callback :=
  { sampleCallback true false (sampleScan .CL_CLEAN .NOTHING_FOUND) with
    calls :=
      { (sampleCallback true false (sampleScan .CL_CLEAN .NOTHING_FOUND)).calls with
        is_packed := true
        gentemp := some [116]
        dump := dump } }

/-- Without memory for the module, the handle of its process stays open; and a file that cannot
be written stays open on the disk. -/
theorem dump_leftBehind :
    dumpEvents (sampleConfig true) (packedModule ⟨true, false, true, true, true, 5⟩) sampleStart =
      [.acquire .name, .acquire .process, .release .name] ∧
    ¬Releases (dumpEvents (sampleConfig true) (packedModule ⟨true, false, true, true, true, 5⟩)
      sampleStart) ∧
    ledger [] (dumpEvents (sampleConfig true) (packedModule ⟨true, true, true, true, false, 5⟩)
      sampleStart) = some [.dump [116], .file] := by
  decide

end ScanMem
end ClamavWin32
