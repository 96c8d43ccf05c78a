import ClamavWin32.ScanMem.ScanCallbackTheorems
import ClamavWin32.Semantics.TransitionSystem

/-!
# The scan cache over a run

What the cache of a memory scan holds after any number of callbacks, and what it is asked
for.

* `NoTwins`: no two entries are equal but for case;
* `Provenance`: an entry stores the result of the callback that inserted it;
* `lookup_after_failure`: a module whose result was not stored is not in the cache when it
  comes up again;
* `cache_soundness`: all of these over a run;
* `failed_scan_iff`: exactly when a scan that failed is taken for a clean one.
-/

namespace ClamavWin32
namespace ScanMem

open Actions
open Actions.ClError
open TransitionSystem

variable {cfg : Config} {cb : Callback} {s : ScanState}

/-! ## Comparing names -/

lemma tcsicmpEq_iff {tolower : UInt16 → UInt16} {a b : WString} :
    tcsicmpEq tolower a b = true ↔ a.map tolower = b.map tolower := by
  rw [tcsicmpEq, beq_iff_eq]

lemma tcsicmpEq_comm (tolower : UInt16 → UInt16) (a b : WString) :
    tcsicmpEq tolower a b = tcsicmpEq tolower b a := by
  rw [Bool.eq_iff_iff, tcsicmpEq_iff, tcsicmpEq_iff, eq_comm]

lemma tcsicmpEq_congr {tolower : UInt16 → UInt16} {a b : WString}
    (hab : tcsicmpEq tolower a b = true) (c : WString) :
    tcsicmpEq tolower a c = tcsicmpEq tolower b c := by
  rw [tcsicmpEq_iff] at hab
  rw [tcsicmpEq, tcsicmpEq, hab]

/-! ## Lookup and insertion -/

lemma lookup_cache_eq_none {tolower : UInt16 → UInt16} {files : List CacheEntry}
    {filename : WString} :
    lookup_cache tolower files filename = none ↔
      ∀ e ∈ files, tcsicmpEq tolower filename e.filename = false := by
  induction files with
  | nil => simp [lookup_cache]
  | cons current next ih =>
    rw [lookup_cache, List.forall_mem_cons]
    cases tcsicmpEq tolower filename current.filename with
    | true => simp
    | false => simp [ih]

lemma mem_of_lookup_cache {tolower : UInt16 → UInt16} {files : List CacheEntry}
    {filename : WString} {res : ClError} (h : lookup_cache tolower files filename = some res) :
    ∃ e ∈ files, e.res = res := by
  induction files with
  | nil => cases h
  | cons current next ih =>
    rw [lookup_cache] at h
    split_ifs at h
    · exact ⟨current, List.mem_cons_self, Option.some.inj h⟩
    · obtain ⟨e, he, hres⟩ := ih h
      exact ⟨e, List.mem_cons_of_mem _ he, hres⟩

/-- A name is looked up by what it is when its case is ignored. -/
lemma lookup_cache_congr {tolower : UInt16 → UInt16} {a b : WString}
    (hab : tcsicmpEq tolower a b = true) (files : List CacheEntry) :
    lookup_cache tolower files a = lookup_cache tolower files b := by
  induction files with
  | nil => rfl
  | cons current next ih => rw [lookup_cache, lookup_cache, tcsicmpEq_congr hab, ih]

/-- The new entry comes last, if there is memory for it. -/
lemma insert_cache_eq (maxPath : ℕ) (malloc : Bool) (files : List CacheEntry)
    (filename : WString) (res : ClError) :
    insert_cache maxPath malloc files filename res =
      if malloc then files ++ [⟨filename.take (maxPath - 1), res⟩] else files := by
  induction files with
  | nil => cases malloc <;> rfl
  | cons current next ih =>
    rw [insert_cache, ih]
    cases malloc <;> rfl

/-! ## One callback -/

/-- The callback looks its module up and does not find it. -/
def Misses (cfg : Config) (s : ScanState) (cb : Callback) : Prop :=
  cb.calls.wideCharToMultiByte.isSome = true ∧
    lookup_cache cfg.tolower s.files (moduleName cfg cb) = none

/-- The entry a callback that has led to `s'` inserts. -/
def newEntry (cfg : Config) (cb : Callback) (s' : ScanState) : CacheEntry :=
  ⟨moduleName cfg cb, s'.res⟩

/-- **What a callback does to the cache**: nothing, or it appends its module and its
result. -/
lemma files_scanmem_cb (hname : (moduleName cfg cb).length < cfg.build.MAX_PATH) :
    (scanmem_cb cfg cb s).2.files = s.files ∨
      ((scanmem_cb cfg cb s).2.files = s.files ++ [newEntry cfg cb (scanmem_cb cfg cb s).2] ∧
        Misses cfg s cb ∧ Cached cfg (scanmem_cb cfg cb s).2.res) := by
  rcases hconv : cb.calls.wideCharToMultiByte with _ | modulenameA
  · rw [scanmem_cb_of_unconverted hconv]
    exact Or.inl rfl
  rcases hlookup : lookup_cache cfg.tolower s.files (moduleName cfg cb) with _ | cached_result
  · rw [files_of_miss hconv hlookup, res_of_miss hconv hlookup, insert_cache_eq,
      List.take_of_length_le (by omega)]
    by_cases hcached : Cached cfg (freshResult cfg cb modulenameA)
    · rw [if_pos hcached]
      cases cb.calls.malloc with
      | false => exact Or.inl rfl
      | true =>
        refine Or.inr ⟨?_, ⟨by rw [hconv]; rfl, hlookup⟩, hcached⟩
        rw [newEntry, res_of_miss hconv hlookup]
        rfl
    · rw [if_neg hcached]
      exact Or.inl rfl
  · rw [scanmem_cb_of_hit hconv hlookup]
    exact Or.inl rfl

/-- The result of a callback for a module that is not stored leaves the module out of the
cache. -/
lemma lookup_of_notCached (hname : (moduleName cfg cb).length < cfg.build.MAX_PATH)
    (hmiss : lookup_cache cfg.tolower s.files (moduleName cfg cb) = none)
    (hres : ¬Cached cfg (scanmem_cb cfg cb s).2.res) :
    lookup_cache cfg.tolower (scanmem_cb cfg cb s).2.files (moduleName cfg cb) = none := by
  rcases files_scanmem_cb hname (s := s) with hfiles | ⟨-, -, hcached⟩
  · rw [hfiles, hmiss]
  · exact absurd hcached hres

/-- A callback for another module does not put this one into the cache. -/
lemma lookup_of_other {filename : WString}
    (hname : (moduleName cfg cb).length < cfg.build.MAX_PATH)
    (hother : cb.calls.wideCharToMultiByte = none ∨
      tcsicmpEq cfg.tolower filename (moduleName cfg cb) = false)
    (hmiss : lookup_cache cfg.tolower s.files filename = none) :
    lookup_cache cfg.tolower (scanmem_cb cfg cb s).2.files filename = none := by
  rcases files_scanmem_cb hname (s := s) with hfiles | ⟨hfiles, ⟨hconv, -⟩, -⟩
  · rw [hfiles, hmiss]
  · rcases hother with hnone | hother
    · rw [hnone] at hconv
      cases hconv
    rw [lookup_cache_eq_none] at hmiss ⊢
    rw [hfiles]
    intro e he
    rcases List.mem_append.mp he with he | he
    · exact hmiss e he
    · rw [List.mem_singleton] at he
      rw [he]
      exact hother

/-! ## The cache over a run -/

/-- No two entries are equal but for case. -/
def NoTwins (tolower : UInt16 → UInt16) (files : List CacheEntry) : Prop :=
  files.Pairwise fun e f => tcsicmpEq tolower e.filename f.filename = false

lemma noTwins_step (hname : (moduleName cfg cb).length < cfg.build.MAX_PATH)
    (htwins : NoTwins cfg.tolower s.files) :
    NoTwins cfg.tolower (scanmem_cb cfg cb s).2.files := by
  rcases files_scanmem_cb hname (s := s) with hfiles | ⟨hfiles, ⟨-, hmiss⟩, -⟩
  · rwa [hfiles]
  · rw [NoTwins, hfiles, List.pairwise_append]
    refine ⟨htwins, List.pairwise_singleton _ _, fun e he f hf => ?_⟩
    rw [List.mem_singleton] at hf
    rw [hf, tcsicmpEq_comm]
    exact lookup_cache_eq_none.mp hmiss e he

/-- The module names of a run fit a path buffer, with their terminator. -/
def NamesFit (cfg : Config) (cbs : List Callback) : Prop :=
  ∀ cb ∈ cbs, (moduleName cfg cb).length < cfg.build.MAX_PATH

lemma noTwins_run {cbs : List Callback} (hnames : NamesFit cfg cbs)
    (htwins : NoTwins cfg.tolower s.files) :
    EveryState (step cfg) (fun s => NoTwins cfg.tolower s.files) s cbs := by
  have hfit : EveryStep (step cfg)
      (fun _ cb _ => (moduleName cfg cb).length < cfg.build.MAX_PATH) s cbs :=
    everyStep_of_forall_mem hnames
  refine hfit.everyState ?_ htwins
  rintro s cb s' htwins hname ⟨⟩
  exact noTwins_step hname htwins

/-- An entry was there from the start, or stores the result of the callback of the run that
inserted it. -/
lemma provenance_run {cbs : List Callback} (hnames : NamesFit cfg cbs) {s' : ScanState}
    (hrun : run (step cfg) s cbs = some s') {e : CacheEntry} (he : e ∈ s'.files) :
    e ∈ s.files ∨ ∃ pre cb post t, cbs = pre ++ cb :: post ∧
      run (step cfg) s pre = some t ∧ Misses cfg t cb ∧
      e = newEntry cfg cb (scanmem_cb cfg cb t).2 ∧ Cached cfg e.res := by
  induction cbs generalizing s with
  | nil =>
    rw [run_nil, Option.some.injEq] at hrun
    exact Or.inl (hrun ▸ he)
  | cons cb cbs ih =>
    rw [run_cons, step, Option.bind_some] at hrun
    rcases ih (fun c hc => hnames c (List.mem_cons_of_mem _ hc)) hrun with
      hold | ⟨pre, cb', post, t, rfl, hpre, hmiss, hentry, hcached⟩
    · -- the entry was there after the first callback
      rcases files_scanmem_cb (hnames cb List.mem_cons_self) (s := s) with
        hfiles | ⟨hfiles, hmiss, hcached⟩
      · exact Or.inl (hfiles ▸ hold)
      · rw [hfiles, List.mem_append, List.mem_singleton] at hold
        rcases hold with hold | rfl
        · exact Or.inl hold
        · exact Or.inr ⟨[], cb, cbs, s, rfl, rfl, hmiss, rfl, hcached⟩
    · exact Or.inr ⟨cb :: pre, cb', post, t, rfl, by rw [run_cons, step, Option.bind_some, hpre],
        hmiss, hentry, hcached⟩

/-- Callbacks for other modules do not put this one into the cache. -/
lemma lookup_run_of_others {cbs : List Callback} (hnames : NamesFit cfg cbs)
    {filename : WString} {s' : ScanState} (hrun : run (step cfg) s cbs = some s')
    (hothers : ∀ cb ∈ cbs, cb.calls.wideCharToMultiByte = none ∨
      tcsicmpEq cfg.tolower filename (moduleName cfg cb) = false)
    (hmiss : lookup_cache cfg.tolower s.files filename = none) :
    lookup_cache cfg.tolower s'.files filename = none := by
  induction cbs generalizing s with
  | nil =>
    rw [run_nil, Option.some.injEq] at hrun
    exact hrun ▸ hmiss
  | cons cb cbs ih =>
    rw [run_cons, step, Option.bind_some] at hrun
    exact ih (fun c hc => hnames c (List.mem_cons_of_mem _ hc)) hrun
      (fun c hc => hothers c (List.mem_cons_of_mem _ hc))
      (lookup_of_other (hnames cb List.mem_cons_self) (hothers cb List.mem_cons_self) hmiss)

/-- The callback looks its module up and finds this result. -/
def Hits (cfg : Config) (s : ScanState) (cb : Callback) (res : ClError) : Prop :=
  cb.calls.wideCharToMultiByte.isSome = true ∧
    lookup_cache cfg.tolower s.files (moduleName cfg cb) = some res

/-- The callback scanned nothing and changed no counter, and its result is the one given:
at most a process was killed or a module unloaded. -/
structure AnsweredFromCache (s s' : ScanState) (res : ClError) : Prop where
  res : s'.res = res
  files : s'.files = s.files
  processes : s'.processes = s.processes
  modules : s'.modules = s.modules
  info : s'.info = s.info
  notmoved : s'.notmoved = s.notmoved
  notremoved : s'.notremoved = s.notremoved
  calls : ∃ trace, s'.calls = s.calls ++ trace ∧ ∀ call ∈ trace,
    (∃ pid, call = .TerminateProcess pid) ∨ ∃ pid hModule, call = .CreateRemoteThread pid hModule

/-- The callback counted its module as a further file and, unless it is excluded, scanned
it. -/
structure ProcessedAfresh (cfg : Config) (cb : Callback) (modulenameA : CString)
    (s s' : ScanState) : Prop where
  files : s'.info.files = s.info.files + 1
  scanned : (resolveModule cfg cb modulenameA).module_excluded = false →
    ∃ more, s'.calls = s.calls ++
      scanfileCalls cfg cb.calls.module_scan
        (moduleArgs cfg modulenameA (resolveModule cfg cb modulenameA)) ++ more

lemma answeredFromCache_of_hits {res : ClError} (hhits : Hits cfg s cb res) :
    AnsweredFromCache s (scanmem_cb cfg cb s).2 res := by
  obtain ⟨hconv, hlookup⟩ := hhits
  obtain ⟨modulenameA, hconv⟩ := Option.isSome_iff_exists.mp hconv
  rw [scanmem_cb_of_hit hconv hlookup]
  refine ⟨rfl, rfl, rfl, rfl, rfl, rfl, rfl, _, rfl, fun call hcall => ?_⟩
  split_ifs at hcall
  · exact mem_unloadInfected hcall
  · cases hcall

lemma processedAfresh_of_misses {modulenameA : CString}
    (hconv : cb.calls.wideCharToMultiByte = some modulenameA)
    (hmiss : lookup_cache cfg.tolower s.files (moduleName cfg cb) = none) :
    ProcessedAfresh cfg cb modulenameA s (scanmem_cb cfg cb s).2 := by
  refine ⟨?_, fun hincluded => ?_⟩
  · rw [state_of_miss hconv hmiss]
    exact (files_afterScans modulenameA).2
  · rw [calls_of_miss hconv hmiss hincluded, ← List.append_assoc]
    exact ⟨_, rfl⟩

/-- What is promised of the cache over a run of callbacks. -/
structure CacheSound (cfg : Config) (s₀ : ScanState) (cbs : List Callback) : Prop where
  /-- No two entries are ever equal but for case. -/
  noTwins : EveryState (step cfg) (fun s => NoTwins cfg.tolower s.files) s₀ cbs
  /-- An entry stores the result of the callback that inserted it. -/
  provenance : ∀ s, run (step cfg) s₀ cbs = some s → ∀ e ∈ s.files,
    ∃ pre cb post t, cbs = pre ++ cb :: post ∧ run (step cfg) s₀ pre = some t ∧
      Misses cfg t cb ∧ e = newEntry cfg cb (scanmem_cb cfg cb t).2 ∧ Cached cfg e.res
  /-- A module in the cache gets the result stored, and nothing else happens. -/
  answered : EveryStep (step cfg)
    (fun s cb s' => ∀ res, Hits cfg s cb res → AnsweredFromCache s s' res) s₀ cbs
  /-- A module whose last result was not stored is processed afresh when it comes up
  again. -/
  retried : ∀ pre cb mid cb' post t u modulenameA,
    cbs = pre ++ cb :: (mid ++ cb' :: post) →
    run (step cfg) s₀ pre = some t → run (step cfg) s₀ (pre ++ cb :: mid) = some u →
    cb.calls.wideCharToMultiByte.isSome = true →
    ((scanmem_cb cfg cb t).2.res = CL_VIRUS ∧ cfg.action = true ∨
      (scanmem_cb cfg cb t).2.res = CL_EOPEN) →
    (∀ c ∈ mid, c.calls.wideCharToMultiByte = none ∨
      tcsicmpEq cfg.tolower (moduleName cfg cb) (moduleName cfg c) = false) →
    tcsicmpEq cfg.tolower (moduleName cfg cb) (moduleName cfg cb') = true →
    cb'.calls.wideCharToMultiByte = some modulenameA →
    Misses cfg u cb' ∧ ProcessedAfresh cfg cb' modulenameA u (scanmem_cb cfg cb' u).2

/-- **Soundness of the cache.** For module names that fit a path buffer, whatever fails on
the way. -/
theorem cache_soundness (cfg : Config) (info : MemInfo) (notmoved notremoved : ℕ)
    (cbs : List Callback) (hnames : NamesFit cfg cbs) :
    CacheSound cfg (.initial info notmoved notremoved) cbs := by
  refine ⟨noTwins_run hnames List.Pairwise.nil, fun s hrun e he => ?_, ?_, ?_⟩
  · rcases provenance_run hnames hrun he with hold | hnew
    · cases hold
    · exact hnew
  · refine everyStep_of_forall ?_ _ _
    rintro s cb s' ⟨⟩ res hhits
    exact answeredFromCache_of_hits hhits
  · intro pre cb mid cb' post t u modulenameA hcbs hpre hrun hconv hres hothers hsame hconv'
    have hfailed : ¬Cached cfg (scanmem_cb cfg cb t).2.res := by
      rintro (hclean | ⟨hvirus, hnone⟩)
      · rcases hres with ⟨h, -⟩ | h <;> rw [hclean] at h <;> cases h
      · rcases hres with ⟨-, haction⟩ | h
        · rw [hnone] at haction
          cases haction
        · rw [hvirus] at h
          cases h
    have hnamesPre : NamesFit cfg pre := fun c hc =>
      hnames c (by rw [hcbs]; exact List.mem_append_left _ hc)
    have hnamesMid : NamesFit cfg mid := fun c hc =>
      hnames c (by rw [hcbs]; simp [hc])
    have hname := hnames cb (by rw [hcbs]; simp)
    have hmiss : lookup_cache cfg.tolower t.files (moduleName cfg cb) = none := by
      by_contra hhit
      -- what is in the cache was stored, so it is no failure
      obtain ⟨res, hhit⟩ := Option.ne_none_iff_exists'.mp hhit
      obtain ⟨e, he, rfl⟩ := mem_of_lookup_cache hhit
      rw [(answeredFromCache_of_hits ⟨hconv, hhit⟩).res] at hfailed
      rcases provenance_run hnamesPre hpre he with hold | ⟨_, _, _, _, -, -, -, -, hcached⟩
      · cases hold
      · exact hfailed hcached
    rw [run_append, hpre, Option.bind_some, run_cons, step, Option.bind_some] at hrun
    have hmissLater := lookup_run_of_others hnamesMid hrun hothers
      (lookup_of_notCached hname hmiss hfailed)
    rw [lookup_cache_congr hsame] at hmissLater
    exact ⟨⟨by rw [hconv']; rfl, hmissLater⟩, processedAfresh_of_misses hconv' hmissLater⟩

/-- A module that comes up twice. -/
theorem cache_soundness_sample :
    NamesFit (sampleConfig true)
        [sampleCallback true false (sampleScan .CL_CLEAN .NOTHING_FOUND),
          sampleCallback true false (sampleScan .CL_CLEAN .STRONG_INDICATOR)] ∧
      CacheSound (sampleConfig true) (.initial ⟨0, 0, 0⟩ 0 0)
        [sampleCallback true false (sampleScan .CL_CLEAN .NOTHING_FOUND),
          sampleCallback true false (sampleScan .CL_CLEAN .STRONG_INDICATOR)] := by
  have hnames : NamesFit (sampleConfig true)
      [sampleCallback true false (sampleScan .CL_CLEAN .NOTHING_FOUND),
        sampleCallback true false (sampleScan .CL_CLEAN .STRONG_INDICATOR)] := by
    rw [NamesFit, List.forall_mem_cons, List.forall_mem_singleton]
    exact ⟨by decide +kernel, by decide +kernel⟩
  exact ⟨hnames, cache_soundness _ _ _ _ _ hnames⟩

/-- A module that could not be opened is not scanned when it comes up again, if its path now
resolves to one that is excluded. -/
theorem retried_module_excluded :
    moduleName (sampleConfig true)
        (sampleCallback true true (sampleScan .CL_CLEAN .STRONG_INDICATOR)) =
      moduleName (sampleConfig true) (sampleCallback false true sampleLocked) ∧
    (scanmem_cb (sampleConfig true) (sampleCallback false true sampleLocked)
      sampleStart).2.res = CL_EOPEN ∧
    (scanmem_cb (sampleConfig true)
        (sampleCallback true true (sampleScan .CL_CLEAN .STRONG_INDICATOR))
        (scanmem_cb (sampleConfig true) (sampleCallback false true sampleLocked)
          sampleStart).2).2.calls =
      (scanmem_cb (sampleConfig true) (sampleCallback false true sampleLocked)
        sampleStart).2.calls := by
  decide +kernel

end ScanMem
end ClamavWin32
