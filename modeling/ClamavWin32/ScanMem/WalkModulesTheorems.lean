import ClamavWin32.ScanMem.WalkModules
import ClamavWin32.Semantics.TransitionSystem

/-!
# What the walk over the modules misses

The walk is complete and reads only what was stored exactly if the arrays suffice:
`walkmodules` takes the number of modules from the size they all need, and the number of
processes from the size that was stored.

* `expectedVisits`: the calls of the callback a complete walk makes;
* `ArraysSuffice`: no process has to be cut off, and every process that is looked into
  reports a module and has no more of them than are looked at;
* `walkmodules_follows`: the state of the callback is the one its calls lead to;
* `walkmodules_iff`: the walk makes the expected calls and stays in bounds if and only if
  the arrays suffice.
-/

namespace ClamavWin32
namespace ScanMem

open TransitionSystem

variable {σ ω : Type*}

/-! ## The complete walk -/

/-- The calls for the modules at the indices from `j` on that can be queried. -/
def Process.visitsFrom (p : Process ω) (szExeFile : WString) : ℕ → List Addr → List (Visit ω)
  | _, [] => []
  | j, h :: ms => (p.visit szExeFile j h).toList ++ p.visitsFrom szExeFile (j + 1) ms

/-- The modules of a process that can be opened and enumerated. -/
def Process.enumerated (p : Process ω) : Option (List Addr) :=
  if p.pid = 0 then none else if !p.openProcess then none else p.modules

/-- The calls for all modules of a process, if it can be opened and queried. -/
def Process.allVisits (p : Process ω) : List (Visit ω) :=
  match p.enumerated with
  | none => []
  | some ms =>
    match ms.head?.bind p.exeName with
    | none => []
    | some szExeFile => p.visitsFrom szExeFile 0 ms

variable (callback : Visit ω → σ → ℤ × σ)

/-- The calls made, and the state, when the callback is called until it returns non-zero. -/
def callUntil : σ → List (Visit ω) → List (Visit ω) × σ
  | s, [] => ([], s)
  | s, v :: vs =>
    let (rc, s) := callback v s
    if rc ≠ 0 then ([v], s)
    else
      let (made, s) := callUntil s vs
      (v :: made, s)

/-- The callback returns non-zero for one of the calls. -/
def stops : σ → List (Visit ω) → Bool
  | _, [] => false
  | s, v :: vs =>
    let (rc, s) := callback v s
    rc ≠ 0 || stops s vs

/-- The calls a complete walk over the processes makes, and the state it leads to. -/
def expectedVisits : σ → List (Process ω) → List (Visit ω) × σ
  | s, [] => ([], s)
  | s, p :: ps =>
    let (made, s) := callUntil callback s p.allVisits
    let (rest, s) := expectedVisits s ps
    (made ++ rest, s)

/-- The array of modules suffices for a process: it reports a module, and it has no more
than there is room for, or the callback returns non-zero for one of those. -/
def ProcessFits (s : σ) (p : Process ω) : Prop :=
  ∀ ms, p.enumerated = some ms → ms ≠ [] ∧
    ∀ szExeFile, ms.head?.bind p.exeName = some szExeFile →
      ms.length ≤ ARRAY_LENGTH ∨
        stops callback s (p.visitsFrom szExeFile 0 (ms.take ARRAY_LENGTH)) = true

/-- The array of modules suffices for every one of the processes. -/
def ModulesFit : σ → List (Process ω) → Prop
  | _, [] => True
  | s, p :: ps =>
    ProcessFits callback s p ∧ ModulesFit (callUntil callback s p.allVisits).2 ps

/-- Both arrays suffice: that of the modules, and that of the processes, beyond which there
is nothing to call the callback for. -/
def ArraysSuffice (s : σ) (running : List (Process ω)) : Prop :=
  ModulesFit callback s (running.take ARRAY_LENGTH) ∧
    ∀ p ∈ running.drop ARRAY_LENGTH, p.allVisits = []

variable {callback}

/-! ## Calling until the callback returns non-zero -/

lemma callUntil_cons_of_ne {s : σ} {v : Visit ω} (hrc : (callback v s).1 ≠ 0)
    (vs : List (Visit ω)) : callUntil callback s (v :: vs) = ([v], (callback v s).2) := by
  rw [callUntil]
  exact if_pos hrc

lemma callUntil_cons_of_eq {s : σ} {v : Visit ω} (hrc : (callback v s).1 = 0)
    (vs : List (Visit ω)) :
    callUntil callback s (v :: vs) =
      (v :: (callUntil callback (callback v s).2 vs).1,
        (callUntil callback (callback v s).2 vs).2) := by
  rw [callUntil]
  exact if_neg (not_not.mpr hrc)

lemma stops_cons_of_ne {s : σ} {v : Visit ω} (hrc : (callback v s).1 ≠ 0)
    (vs : List (Visit ω)) : stops callback s (v :: vs) = true := by
  simp [stops, hrc]

lemma stops_cons_of_eq {s : σ} {v : Visit ω} (hrc : (callback v s).1 = 0)
    (vs : List (Visit ω)) :
    stops callback s (v :: vs) = stops callback (callback v s).2 vs := by
  simp [stops, hrc]

lemma callUntil_append (s : σ) (vs us : List (Visit ω)) :
    callUntil callback s (vs ++ us) =
      if stops callback s vs then callUntil callback s vs
      else
        ((callUntil callback s vs).1 ++ (callUntil callback (callUntil callback s vs).2 us).1,
          (callUntil callback (callUntil callback s vs).2 us).2) := by
  induction vs generalizing s with
  | nil => simp [callUntil, stops]
  | cons v vs ih =>
    rw [List.cons_append]
    by_cases hrc : (callback v s).1 = 0
    · rw [callUntil_cons_of_eq hrc, stops_cons_of_eq hrc, callUntil_cons_of_eq hrc, ih]
      split_ifs <;> rfl
    · rw [callUntil_cons_of_ne hrc, stops_cons_of_ne hrc, callUntil_cons_of_ne hrc, if_pos rfl]

/-- There is a call if there is a module to call the callback for. -/
lemma callUntil_fst_eq_nil {s : σ} {vs : List (Visit ω)} :
    (callUntil callback s vs).1 = [] ↔ vs = [] := by
  cases vs with
  | nil => simp [callUntil]
  | cons v vs =>
    by_cases hrc : (callback v s).1 = 0
    · simp [callUntil_cons_of_eq hrc]
    · simp [callUntil_cons_of_ne hrc]

lemma visitsFrom_append (p : Process ω) (szExeFile : WString) (j : ℕ) (ms ns : List Addr) :
    p.visitsFrom szExeFile j (ms ++ ns) =
      p.visitsFrom szExeFile j ms ++ p.visitsFrom szExeFile (j + ms.length) ns := by
  induction ms generalizing j with
  | nil => simp [Process.visitsFrom]
  | cons h ms ih =>
    rw [List.cons_append, Process.visitsFrom, Process.visitsFrom, ih, List.append_assoc,
      List.length_cons, Nat.add_right_comm, ← Nat.add_assoc]

/-! ## The loop over the modules -/

/-- Every read was of an element that was stored. -/
def Walk.InBounds (w : Walk σ ω) : Prop := ∀ r ∈ w.reads, r.InBounds

/-- The reads of a walk are among those of a later one. -/
def Walk.ReadsIn (w w' : Walk σ ω) : Prop := ∀ r ∈ w.reads, r ∈ w'.reads

lemma Walk.ReadsIn.trans {w w' w'' : Walk σ ω} (h : w.ReadsIn w') (h' : w'.ReadsIn w'') :
    w.ReadsIn w'' := fun r hr => h' r (h r hr)

lemma readsIn_read (w : Walk σ ω) (index stored : ℕ) : w.ReadsIn (w.read index stored) :=
  fun _ hr => List.mem_append_left _ hr

lemma readsIn_moduleLoop_succ {p : Process ω} {szExeFile : WString} {stored remaining : ℕ}
    (hrest : ∀ j (w : Walk σ ω),
      w.ReadsIn (moduleLoop callback p szExeFile stored remaining j w))
    (j : ℕ) (w : Walk σ ω) :
    (w.read j stored).ReadsIn
      (moduleLoop callback p szExeFile stored (remaining + 1) j w) := by
  rw [moduleLoop]
  rcases p.visit szExeFile j ((w.read j stored).mods j) with _ | v
  · exact hrest _ _
  · by_cases hrc : (callback v (w.read j stored).state).1 ≠ 0
    · simp only [if_pos hrc]
      exact fun _ hr => hr
    · simp only [if_neg hrc]
      exact fun r hr => hrest _ _ r hr

/-- What was read stays read. -/
lemma readsIn_moduleLoop (p : Process ω) (szExeFile : WString) (stored remaining j : ℕ)
    (w : Walk σ ω) : w.ReadsIn (moduleLoop callback p szExeFile stored remaining j w) := by
  induction remaining generalizing j w with
  | zero => exact fun _ hr => hr
  | succ remaining ih => exact (readsIn_read w j stored).trans (readsIn_moduleLoop_succ ih j w)

/-- **The loop over the modules**, as far as the handles at the next indices are known. -/
lemma moduleLoop_known (p : Process ω) (szExeFile : WString) (stored : ℕ) (ms : List Addr)
    (rest j : ℕ) (w : Walk σ ω) (hmods : ∀ (i : ℕ) (hi : i < ms.length), w.mods (j + i) = ms[i]) :
    ∃ w' : Walk σ ω,
      w'.state = (callUntil callback w.state (p.visitsFrom szExeFile j ms)).2 ∧
      w'.visits = w.visits ++ (callUntil callback w.state (p.visitsFrom szExeFile j ms)).1 ∧
      w'.mods = w.mods ∧
      (∀ r ∈ w'.reads, r ∈ w.reads ∨ (r.index < j + ms.length ∧ r.stored = stored)) ∧
      moduleLoop callback p szExeFile stored (ms.length + rest) j w =
        if stops callback w.state (p.visitsFrom szExeFile j ms) then w'
        else moduleLoop callback p szExeFile stored rest (j + ms.length) w' := by
  induction ms generalizing j w with
  | nil =>
    refine ⟨w, rfl, by simp [Process.visitsFrom, callUntil], rfl, fun r hr => Or.inl hr, ?_⟩
    simp [Process.visitsFrom, stops]
  | cons h ms ih =>
    have hhead : (w.read j stored).mods j = h := hmods 0 (Nat.zero_lt_succ _)
    have htail : ∀ (i : ℕ) (hi : i < ms.length), w.mods (j + 1 + i) = ms[i] := by
      intro i hi
      have hmod := hmods (i + 1) (Nat.succ_lt_succ hi)
      rw [List.getElem_cons_succ] at hmod
      rw [← hmod, Nat.add_assoc, Nat.add_comm 1 i]
    -- what is read here and in the rest of the list
    have hread {w₁ w' : Walk σ ω} (hw₁ : w₁.reads = w.reads ++ [⟨j, stored⟩])
        (hreads : ∀ r ∈ w'.reads,
          r ∈ w₁.reads ∨ (r.index < j + 1 + ms.length ∧ r.stored = stored)) :
        ∀ r ∈ w'.reads,
          r ∈ w.reads ∨ (r.index < j + (h :: ms).length ∧ r.stored = stored) := by
      intro r hr
      rw [List.length_cons]
      rcases hreads r hr with hr | ⟨hlt, hstored⟩
      · rw [hw₁, List.mem_append, List.mem_singleton] at hr
        rcases hr with hr | rfl
        · exact Or.inl hr
        · exact Or.inr ⟨by simp only; omega, rfl⟩
      · exact Or.inr ⟨by omega, hstored⟩
    rw [List.length_cons, Nat.add_right_comm, moduleLoop, hhead, Process.visitsFrom]
    rcases p.visit szExeFile j h with _ | v
    · -- the module cannot be queried
      obtain ⟨w', hstate, hvisits, hmods', hreads, hloop⟩ :=
        ih (j + 1) (w.read j stored) htail
      refine ⟨w', hstate, hvisits, hmods', hread rfl hreads, ?_⟩
      rw [show j + (ms.length + 1) = j + 1 + ms.length by omega]
      exact hloop
    · have hlist : (some v).toList ++ p.visitsFrom szExeFile (j + 1) ms =
          v :: p.visitsFrom szExeFile (j + 1) ms := rfl
      rw [hlist]
      by_cases hrc : (callback v w.state).1 ≠ 0
      · -- the callback ends the loop
        rw [callUntil_cons_of_ne hrc, stops_cons_of_ne hrc]
        have hrc' : (callback v (w.read j stored).state).1 ≠ 0 := hrc
        refine ⟨(w.read j stored).call v (callback v w.state).2, rfl, rfl, rfl,
          hread rfl fun r hr => Or.inl hr, ?_⟩
        simp only [if_pos hrc']
        rfl
      · obtain ⟨w', hstate, hvisits, hmods', hreads, hloop⟩ :=
          ih (j + 1) ((w.read j stored).call v (callback v w.state).2) htail
        have hrc' : ¬(callback v (w.read j stored).state).1 ≠ 0 := hrc
        rw [callUntil_cons_of_eq (not_not.mp hrc), stops_cons_of_eq (not_not.mp hrc)]
        refine ⟨w', hstate, ?_, hmods', hread rfl hreads, ?_⟩
        · rw [hvisits]
          exact List.append_assoc _ _ _
        · rw [show j + (ms.length + 1) = j + 1 + ms.length by omega]
          simp only [if_neg hrc']
          exact hloop

/-! ## One process -/

/-- The walk once the modules of a process are stored and the first one is looked at. -/
def Walk.enumerate (w : Walk σ ω) (ms : List Addr) : Walk σ ω :=
  ({ w with mods := storeModules w.mods ms } : Walk σ ω).read 0 (storedModules ms)

lemma visitProcess_eq (arch : Arch) (p : Process ω) (w : Walk σ ω) :
    visitProcess callback arch p w =
      match p.enumerated with
      | none => w
      | some ms =>
        match p.exeName (storeModules w.mods ms 0) with
        | none => w.enumerate ms
        | some szExeFile =>
          moduleLoop callback p szExeFile (storedModules ms) ms.length 0 (w.enumerate ms) := by
  have hlength (ms : List Addr) : mneeded arch ms / arch.sizeofHMODULE = ms.length := by
    rw [mneeded]
    cases arch <;> exact Nat.mul_div_cancel_left _ (by decide)
  rw [visitProcess, Process.enumerated]
  split_ifs
  · rfl
  · rfl
  · rcases p.modules with _ | ms
    · rfl
    · simp only [hlength, Walk.read]
      rcases p.exeName (storeModules w.mods ms 0) with _ | szExeFile <;> rfl

/-- The handles that were stored are those of the modules. -/
lemma storeModules_take (mods : ℕ → Addr) (ms : List Addr) (i : ℕ)
    (hi : i < (ms.take ARRAY_LENGTH).length) :
    storeModules mods ms (0 + i) = (ms.take ARRAY_LENGTH)[i] := by
  rw [List.length_take] at hi
  rw [Nat.zero_add, storeModules, if_pos (by omega), List.getElem_take,
    List.getElem?_eq_getElem (by omega), Option.getD_some]

/-- The first handle is stored if there is one. -/
lemma storeModules_cons (mods : ℕ → Addr) (h : Addr) (ms : List Addr) :
    storeModules mods (h :: ms) 0 = h := rfl

lemma inBounds_enumerate {w : Walk σ ω} {ms : List Addr} (hne : ms ≠ []) (hw : w.InBounds) :
    (w.enumerate ms).InBounds := by
  intro r hr
  rcases List.mem_append.mp hr with hr | hr
  · exact hw r hr
  · rw [List.mem_singleton.mp hr, ArrayRead.InBounds, storedModules, lt_min_iff]
    exact ⟨Nat.zero_lt_succ _, List.length_pos_iff.mpr hne⟩

/-- The loop over the modules, as far as their handles are stored. -/
lemma moduleLoop_stored (p : Process ω) (szExeFile : WString) (ms : List Addr)
    (w : Walk σ ω) :
    ∃ w' : Walk σ ω,
      w'.state = (callUntil callback w.state
        (p.visitsFrom szExeFile 0 (ms.take ARRAY_LENGTH))).2 ∧
      w'.visits = w.visits ++ (callUntil callback w.state
        (p.visitsFrom szExeFile 0 (ms.take ARRAY_LENGTH))).1 ∧
      ((w.enumerate ms).InBounds → w'.InBounds) ∧
      moduleLoop callback p szExeFile (storedModules ms) ms.length 0 (w.enumerate ms) =
        if stops callback w.state (p.visitsFrom szExeFile 0 (ms.take ARRAY_LENGTH)) then w'
        else moduleLoop callback p szExeFile (storedModules ms) (ms.length - ARRAY_LENGTH)
          (storedModules ms) w' := by
  obtain ⟨w', hstate, hvisits, -, hreads, hloop⟩ :=
    moduleLoop_known p szExeFile (storedModules ms) (ms.take ARRAY_LENGTH)
      (ms.length - ARRAY_LENGTH) 0 (w.enumerate ms) (storeModules_take w.mods ms)
  rw [List.length_take] at hreads hloop
  refine ⟨w', hstate, hvisits, fun hw r hr => ?_, ?_⟩
  · rcases hreads r hr with hr | ⟨hlt, hstored⟩
    · exact hw r hr
    · rw [ArrayRead.InBounds, hstored, storedModules]
      omega
  · rw [show min ARRAY_LENGTH ms.length + (ms.length - ARRAY_LENGTH) = ms.length by omega,
      Nat.zero_add] at hloop
    exact hloop

/-- A process for which the array suffices is walked completely. -/
lemma visitProcess_of_fits {arch : Arch} {p : Process ω} {w : Walk σ ω}
    (hfits : ProcessFits callback w.state p) :
    (visitProcess callback arch p w).state = (callUntil callback w.state p.allVisits).2 ∧
    (visitProcess callback arch p w).visits =
      w.visits ++ (callUntil callback w.state p.allVisits).1 ∧
    (w.InBounds → (visitProcess callback arch p w).InBounds) := by
  rw [visitProcess_eq, Process.allVisits]
  rcases henum : p.enumerated with _ | ms
  · simp [callUntil]
  obtain ⟨hne, hfit⟩ := hfits ms henum
  obtain ⟨h, rest, rfl⟩ := List.exists_cons_of_ne_nil hne
  simp only [storeModules_cons, List.head?_cons, Option.bind_some] at hfit ⊢
  rcases hexe : p.exeName h with _ | szExeFile
  · exact ⟨rfl, by simp [callUntil, Walk.enumerate, Walk.read], inBounds_enumerate hne⟩
  obtain ⟨w', hstate, hvisits, hbounds, hloop⟩ :=
    moduleLoop_stored p szExeFile (h :: rest) w
  have hcalls : callUntil callback w.state (p.visitsFrom szExeFile 0 (h :: rest)) =
      callUntil callback w.state
        (p.visitsFrom szExeFile 0 ((h :: rest).take ARRAY_LENGTH)) := by
    rcases hfit szExeFile hexe with hshort | hstops
    · rw [List.take_of_length_le hshort]
    · conv_lhs => rw [← List.take_append_drop ARRAY_LENGTH (h :: rest), visitsFrom_append]
      rw [callUntil_append, if_pos hstops]
  have hend : moduleLoop callback p szExeFile (storedModules (h :: rest)) (h :: rest).length 0
      (w.enumerate (h :: rest)) = w' := by
    rw [hloop]
    rcases hfit szExeFile hexe with hshort | hstops
    · rw [Nat.sub_eq_zero_of_le hshort]
      exact ite_self w'
    · rw [if_pos hstops]
  simp only [hend, hcalls]
  exact ⟨hstate, hvisits, fun hw => hbounds (inBounds_enumerate hne hw)⟩

/-- What was read stays read. -/
lemma readsIn_visitProcess (arch : Arch) (p : Process ω) (w : Walk σ ω) :
    w.ReadsIn (visitProcess callback arch p w) := by
  rw [visitProcess_eq]
  cases p.enumerated with
  | none => exact fun _ hr => hr
  | some ms =>
    have hread : w.ReadsIn (w.enumerate ms) := readsIn_read _ 0 _
    simp only
    cases p.exeName (storeModules w.mods ms 0) with
    | none => exact hread
    | some szExeFile => exact hread.trans (readsIn_moduleLoop _ _ _ _ _ _)

/-- A process for which the array does not suffice makes the walk read what was not
stored. -/
lemma visitProcess_of_not_fits {arch : Arch} {p : Process ω} {w : Walk σ ω}
    (hfits : ¬ProcessFits callback w.state p) : ¬(visitProcess callback arch p w).InBounds := by
  rw [ProcessFits] at hfits
  push Not at hfits
  obtain ⟨ms, henum, hms⟩ := hfits
  rw [visitProcess_eq, henum]
  intro hbounds
  rcases ms with _ | ⟨h, rest⟩
  · -- there is no first module
    have hread : (⟨0, 0⟩ : ArrayRead) ∈ (w.enumerate []).reads :=
      List.mem_append_right _ (List.mem_singleton.mpr rfl)
    cases hexe : p.exeName (storeModules w.mods [] 0) with
    | none =>
      simp only [hexe] at hbounds
      exact absurd (hbounds _ hread) (lt_irrefl 0)
    | some szExeFile =>
      simp only [hexe] at hbounds
      exact absurd (hbounds _ hread) (lt_irrefl 0)
  · -- the loop goes on behind the end of the array
    obtain ⟨szExeFile, hexe, hlong, hstops⟩ := hms (List.cons_ne_nil h rest)
    rw [List.head?_cons, Option.bind_some] at hexe
    obtain ⟨w', -, -, -, hloop⟩ := @moduleLoop_stored σ ω callback p szExeFile (h :: rest) w
    simp only [storeModules_cons, hexe, hloop, if_neg hstops] at hbounds
    obtain ⟨k, hk⟩ : ∃ k, (h :: rest).length - ARRAY_LENGTH = k + 1 :=
      ⟨(h :: rest).length - ARRAY_LENGTH - 1, by omega⟩
    rw [hk] at hbounds
    have hread := @readsIn_moduleLoop_succ σ ω callback p szExeFile (storedModules (h :: rest)) k
      (fun j w => readsIn_moduleLoop p szExeFile (storedModules (h :: rest)) k j w)
      (storedModules (h :: rest)) w' _ (List.mem_append_right _ (List.mem_singleton.mpr rfl))
    exact absurd (hbounds _ hread) (lt_irrefl _)

/-! ## The state of the callback -/

/-- One call of the callback, as a step of a run. -/
def callStep (callback : Visit ω → σ → ℤ × σ) (s : σ) (v : Visit ω) : Option σ :=
  some (callback v s).2

/-- The state is the one that the calls made lead to. -/
def Walk.Follows (callback : Visit ω → σ → ℤ × σ) (s : σ) (w : Walk σ ω) : Prop :=
  run (callStep callback) s w.visits = some w.state

lemma follows_call {s : σ} {w : Walk σ ω} (hw : w.Follows callback s) (v : Visit ω) :
    (w.call v (callback v w.state).2).Follows callback s := by
  rw [Walk.Follows] at hw
  rw [Walk.Follows, Walk.call, run_append, hw]
  rfl

lemma follows_moduleLoop {s : σ} {p : Process ω} {szExeFile : WString} {stored remaining : ℕ}
    (j : ℕ) (w : Walk σ ω) (hw : w.Follows callback s) :
    (moduleLoop callback p szExeFile stored remaining j w).Follows callback s := by
  induction remaining generalizing j w with
  | zero => exact hw
  | succ remaining ih =>
    rw [moduleLoop]
    have hread : (w.read j stored).Follows callback s := hw
    rcases p.visit szExeFile j ((w.read j stored).mods j) with _ | v
    · exact ih _ _ hread
    · have hcall := follows_call hread v
      by_cases hrc : (callback v (w.read j stored).state).1 ≠ 0
      · simp only [if_pos hrc]
        exact hcall
      · simp only [if_neg hrc]
        exact ih _ _ hcall

lemma follows_visitProcess {s : σ} {arch : Arch} {p : Process ω} {w : Walk σ ω}
    (hw : w.Follows callback s) : (visitProcess callback arch p w).Follows callback s := by
  rw [visitProcess_eq]
  cases p.enumerated with
  | none => exact hw
  | some ms =>
    have henum : (w.enumerate ms).Follows callback s := hw
    simp only
    cases p.exeName (storeModules w.mods ms 0) with
    | none => exact henum
    | some szExeFile => exact follows_moduleLoop _ _ henum

lemma follows_processLoop {s : σ} {arch : Arch} {procs : List (Process ω)} (remaining i : ℕ)
    (w : Walk σ ω) (hw : w.Follows callback s) :
    (processLoop callback arch procs remaining i w).Follows callback s := by
  induction remaining generalizing i w with
  | zero => exact hw
  | succ remaining ih =>
    rw [processLoop]
    have hread : (w.read i procs.length).Follows callback s := hw
    cases procs[i]? with
    | none => exact ih _ _ hread
    | some p => exact ih _ _ (follows_visitProcess hread)

/-- **The walk is a run of its callback.** -/
theorem walkmodules_follows (callback : Visit ω → σ → ℤ × σ) (arch : Arch)
    (running : Option (List (Process ω))) (stack : ℕ → Addr) (s : σ) :
    (walkmodules callback arch running stack s).2.Follows callback s := by
  cases running with
  | none => rfl
  | some running => exact follows_processLoop _ _ _ rfl

/-! ## All processes -/

lemma processLoop_succ {arch : Arch} {procs : List (Process ω)} {i : ℕ} {p : Process ω}
    (hp : procs[i]? = some p) (remaining : ℕ) (w : Walk σ ω) :
    processLoop callback arch procs (remaining + 1) i w =
      processLoop callback arch procs remaining (i + 1)
        (visitProcess callback arch p (w.read i procs.length)) := by
  rw [processLoop, hp]

/-- What was read stays read. -/
lemma readsIn_processLoop (arch : Arch) (procs : List (Process ω)) (remaining i : ℕ)
    (w : Walk σ ω) : w.ReadsIn (processLoop callback arch procs remaining i w) := by
  induction remaining generalizing i w with
  | zero => exact fun _ hr => hr
  | succ remaining ih =>
    rw [processLoop]
    cases procs[i]? with
    | none => exact (readsIn_read w i _).trans (ih _ _)
    | some p =>
      exact ((readsIn_read w i _).trans (readsIn_visitProcess arch p _)).trans (ih _ _)

/-- The loop over the processes, from index `i` on: the walk is complete and in bounds if the
modules fit, and not in bounds otherwise. -/
lemma processLoop_spec {arch : Arch} {procs : List (Process ω)} (remaining i : ℕ)
    (w : Walk σ ω) (hlength : i + remaining = procs.length) (hw : w.InBounds) :
    (ModulesFit callback w.state (procs.drop i) →
      (processLoop callback arch procs remaining i w).visits =
          w.visits ++ (expectedVisits callback w.state (procs.drop i)).1 ∧
        (processLoop callback arch procs remaining i w).InBounds) ∧
    (¬ModulesFit callback w.state (procs.drop i) →
      ¬(processLoop callback arch procs remaining i w).InBounds) := by
  induction remaining generalizing i w with
  | zero =>
    rw [List.drop_of_length_le (by omega)]
    exact ⟨fun _ => ⟨by simp [processLoop, expectedVisits], hw⟩, fun h => absurd trivial h⟩
  | succ remaining ih =>
    have hi : i < procs.length := by omega
    rw [processLoop_succ (List.getElem?_eq_getElem hi), List.drop_eq_getElem_cons hi]
    have hread : (w.read i procs.length).InBounds := by
      intro r hr
      rcases List.mem_append.mp hr with hr | hr
      · exact hw r hr
      · rw [List.mem_singleton.mp hr]
        exact hi
    -- what has been read outside of an array stays read, whatever follows
    by_cases hfits : ProcessFits callback w.state procs[i]
    · obtain ⟨hstate, hvisits, hbounds⟩ :=
        @visitProcess_of_fits σ ω callback arch procs[i] (w.read i procs.length) hfits
      obtain ⟨hfit, hnot⟩ := ih (i + 1) (visitProcess callback arch procs[i]
        (w.read i procs.length)) (by omega) (hbounds hread)
      rw [hstate] at hfit hnot
      refine ⟨fun h => ?_, fun h => hnot fun hrest => h ⟨hfits, hrest⟩⟩
      obtain ⟨hcomplete, hin⟩ := hfit h.2
      refine ⟨?_, hin⟩
      rw [hcomplete, hvisits, expectedVisits, List.append_assoc]
      rfl
    · refine ⟨fun h => absurd h.1 hfits, fun _ hin => ?_⟩
      have hnot : ¬(visitProcess callback arch procs[i] (w.read i procs.length)).InBounds :=
        visitProcess_of_not_fits hfits
      exact hnot fun r hr => hin r (readsIn_processLoop _ _ _ _ _ r hr)

/-- A walk calls the callback for all modules of all processes, in order, and reads only what
was stored. -/
def CompleteInBounds (callback : Visit ω → σ → ℤ × σ) (arch : Arch)
    (running : Option (List (Process ω))) (stack : ℕ → Addr) (s : σ) : Prop :=
  (walkmodules callback arch running stack s).2.visits =
      (expectedVisits callback s (running.getD [])).1 ∧
    (walkmodules callback arch running stack s).2.InBounds

lemma expectedVisits_append (s : σ) (ps qs : List (Process ω)) :
    (expectedVisits callback s (ps ++ qs)).1 =
      (expectedVisits callback s ps).1 ++
        (expectedVisits callback (expectedVisits callback s ps).2 qs).1 := by
  induction ps generalizing s with
  | nil => rfl
  | cons p ps ih => simp [expectedVisits, ih]

lemma expectedVisits_eq_nil {s : σ} {ps : List (Process ω)} :
    (expectedVisits callback s ps).1 = [] ↔ ∀ p ∈ ps, p.allVisits = [] := by
  induction ps generalizing s with
  | nil => simp [expectedVisits]
  | cons p ps ih => simp [expectedVisits, ih, callUntil_fst_eq_nil]

/-- **When the walk is complete and in bounds.** -/
theorem walkmodules_iff (callback : Visit ω → σ → ℤ × σ) (arch : Arch)
    (running : Option (List (Process ω))) (stack : ℕ → Addr) (s : σ) :
    CompleteInBounds callback arch running stack s ↔
      ArraysSuffice callback s (running.getD []) := by
  rw [CompleteInBounds, ArraysSuffice]
  cases running with
  | none =>
    simp only [Option.getD_none, List.take_nil, List.drop_nil, ModulesFit, true_and]
    exact iff_of_true ⟨rfl, nofun⟩ nofun
  | some running =>
    have hcount : sizeofDWORD * (running.take ARRAY_LENGTH).length / sizeofDWORD =
        (running.take ARRAY_LENGTH).length := Nat.mul_div_cancel_left _ (by decide)
    simp only [walkmodules, Option.getD_some, hcount]
    obtain ⟨hfit, hnot⟩ := @processLoop_spec σ ω callback arch (running.take ARRAY_LENGTH)
      (running.take ARRAY_LENGTH).length 0 ⟨s, stack, [], []⟩ (Nat.zero_add _) nofun
    rw [List.drop_zero] at hfit hnot
    by_cases hmodules : ModulesFit callback s (running.take ARRAY_LENGTH)
    · obtain ⟨hvisits, hbounds⟩ := hfit hmodules
      have hall := @expectedVisits_append σ ω callback s (running.take ARRAY_LENGTH)
        (running.drop ARRAY_LENGTH)
      rw [List.take_append_drop] at hall
      rw [hvisits, hall, List.nil_append, List.self_eq_append_right, expectedVisits_eq_nil]
      exact ⟨fun h => ⟨hmodules, h.1⟩, fun h => ⟨h.2, hbounds⟩⟩
    · exact iff_of_false (fun h => hnot hmodules h.2) fun h => hmodules h.1

/-- The walk when only one process is running. -/
lemma walkmodules_singleton (arch : Arch) (p : Process ω) (stack : ℕ → Addr) (s : σ) :
    (walkmodules callback arch (some [p]) stack s).2 =
      visitProcess callback arch p ((⟨s, stack, [], []⟩ : Walk σ ω).read 0 1) := by
  have hcount : sizeofDWORD * ([p].take ARRAY_LENGTH).length / sizeofDWORD = 1 :=
    Nat.mul_div_cancel_left 1 (by decide)
  simp only [walkmodules, hcount]
  rw [processLoop_succ rfl, processLoop]
  rfl

/-- A process with one module more than the array has room for, all of them the same. -/
def crowdedProcess : Process Unit where
  pid := 8
  openProcess := true
  modules := some (List.replicate 1025 0x10000)
  exeName := fun _ => some []
  baseName := fun _ => some []
  fileName := fun _ => some []
  information := fun h => some (h, 0x1000)
  answers := fun _ => ()
  fits := by
    rintro ms ⟨⟩
    rw [List.length_replicate]
    decide

/-- A callback that never asks for another process. -/
def goOn (_ : Visit Unit) (s : Unit) : ℤ × Unit := (0, s)

lemma stops_goOn (s : Unit) (vs : List (Visit Unit)) : stops goOn s vs = false := by
  induction vs generalizing s with
  | nil => rfl
  | cons v vs ih => rw [stops_cons_of_eq rfl, ih]

/-- Module 1024 of the process is looked up behind the end of the array. -/
theorem crowdedProcess_not_inBounds :
    ¬CompleteInBounds goOn .x64 (some [crowdedProcess]) (fun _ => 0) () := by
  have hfits : ¬ProcessFits goOn () crowdedProcess := by
    intro hfits
    obtain ⟨-, hfit⟩ := hfits _ rfl
    rcases hfit [] rfl with hlength | hstops
    · rw [List.length_replicate, ARRAY_LENGTH] at hlength
      exact absurd hlength (by decide)
    · rw [stops_goOn] at hstops
      exact Bool.false_ne_true hstops
  rintro ⟨-, hbounds⟩
  rw [walkmodules_singleton] at hbounds
  exact visitProcess_of_not_fits hfits hbounds

end ScanMem
end ClamavWin32
