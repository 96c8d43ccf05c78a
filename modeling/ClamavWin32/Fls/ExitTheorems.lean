import ClamavWin32.Fls.FlsTheorems

/-!
# `FlsFree` and the exit of a thread are operations of the table

* `flsFree_refines`: the loop over the records of the key calls the callback for the entry of
  each thread that has one;
* `threadExit_eq`, `threadExit_refines`: the destructors of a thread take its entries out one
  after the other, and call the callbacks for them;
* `exec_refines`: every operation is one of the table.
-/

namespace ClamavWin32
namespace Fls

variable {T : Type*} [DecidableEq T] {s : State T} {ks : List Addr} {vs : Addr → List Addr}

/-! ## `FlsFree` -/

/-- What an operation passes is what it ends of the table. -/
lemma Refines.of_heard {s' : State T} {op : Op T} {outcome : Outcome}
    (h : Registry s.mem s.pthread ks vs) (hrests : s'.Rests)
    (houtcome : outcome = s.abs.outcome op) (habs : s'.abs = s.abs.next op)
    {pairs : List (T × PthreadKey)} (hnodup : pairs.Nodup)
    (hpairs : ∀ t n, (s.abs.callback n).isSome → (s.abs.value t n).isSome →
      ((t, n) ∈ pairs ↔ s.abs.Ends t n op))
    (hcalls : s'.calls = s.calls ++ pairs.flatMap fun pair =>
      callsOf ((s.abs.callback pair.2).getD 0) ((s.abs.value pair.1 pair.2).getD 0)) :
    Refines s op s' outcome where
  rests := hrests
  outcome := houtcome
  abs := habs
  calls := by
    refine ⟨s.abs.heard pairs, s.abs.nodup_heard hnodup, ?_, ?_⟩
    · intro e
      rw [Spec.mem_heard]
      constructor
      · rintro ⟨hmem, hcb, hne, hd⟩
        exact ⟨(hpairs _ _ (hcb ▸ rfl) (hd ▸ rfl)).mp hmem, hcb, hne, hd⟩
      · intro hpasses
        refine ⟨(hpairs _ _ (hpasses.callback ▸ rfl) (hpasses.data ▸ rfl)).mpr hpasses.ends,
          hpasses.callback, hpasses.called, hpasses.data⟩
    · rw [hcalls, Spec.map_call_heard]
      intro t n d hd
      obtain ⟨k, -, hdata⟩ := Option.bind_eq_some_iff.mp hd
      exact h.stored _ _ hdata

section

variable {k : Addr} {n : PthreadKey} {result : ℕ}

/-- The key cannot be deleted. -/
lemma flsFree_kept (h : Registry s.mem s.pthread ks vs) (hk : s.mem.number k = some n)
    (hresult : result ≠ 0) :
    ∃ s' outcome, flsFree s n result = some (s', outcome) ∧
      Refines s (.flsFree n result) s' outcome := by
  obtain ⟨pre, post, rfl, hpre⟩ := h.split hk
  obtain ⟨m₁, hlocked, hvalues, hblocks, hnumber, hcallback, hload, hkeys⟩ :=
    Memory.freeLocked_eq h.keys h.keysBound hk hpre
  obtain ⟨key, hkey, -⟩ := Memory.flsKey_of_number (hnumber ▸ hk)
  obtain ⟨m₂, hrelink, hvalues', hblocks', hnumber', hcallback', hload', hkeys'⟩ :=
    Memory.freeRelink_eq (hnumber ▸ hk)
  have hmem : k ∉ pre ++ post := by
    have hnodup := List.nodup_middle.mp h.keys.nodup
    exact (List.nodup_cons.mp hnodup).1
  -- the key is put back at the head of the list, with the same keys behind it
  have hsame : ∀ k', k' ∈ k :: (pre ++ post) ↔ k' ∈ pre ++ k :: post := by
    intro k'
    exact List.perm_middle.symm.mem_iff
  have h' : Registry m₂ s.pthread (k :: (pre ++ post)) vs := by
    refine h.congr (h.toLists.congr (fun k' hk' => (hsame k').mp hk') ?_ ?_ ?_) ?_ ?_ hsame ?_ ?_ ?_
    · rw [hvalues'.owner, hvalues.owner]
    · rw [hload', hload]
    · rw [hblocks', hblocks]
    · apply hkeys.push (h.key_ne_zero hk)
      · rw [hkeys', Function.update_self]
      · rw [hkeys', Function.update_of_ne (KeyLink.noConfusion), Function.update_self]
        rfl
      · intro k' hk'
        have hne : k' ≠ k := fun heq => hmem (heq ▸ hk')
        rw [hkeys', Function.update_of_ne (KeyLink.noConfusion),
          Function.update_of_ne (keyLink_next_injective.ne hne)]
    · rw [hblocks', hblocks, ← List.perm_middle.length_eq]
      exact h.keysBound
    · rw [hnumber', hnumber]
    · rw [hvalues'.owner, hvalues.owner]
    · rw [hvalues'.data, hvalues.data]
      exact h.stored
  have hfrees : ¬ s.abs.Frees n result := fun hfrees => hresult hfrees.2
  refine ⟨{ s with mem := m₂ }, .error ERROR_INVALID_PARAMETER, ?_,
    .of_same ⟨_, _, h'⟩ ?_ ?_ rfl fun e he => hfrees he.ends.2⟩
  · rw [flsFree, hlocked]
    dsimp only
    rw [if_neg (h.key_ne_zero hk), hkey, Option.bind_some, if_pos hresult, hrelink,
      Option.map_some]
  · rw [Spec.outcome, if_neg hfrees]
  · rw [Spec.next, if_neg hfrees]
    exact State.abs_same { s with mem := m₂ } h h' (hnumber'.trans hnumber)
      (hcallback'.trans hcallback) (hvalues'.data.trans hvalues.data) rfl

omit [DecidableEq T] in
/-- **What `FlsFree` does to the memory.** The key is unlinked, its records are freed one after
the other, and then it is. -/
lemma Registry.freeKey {m : Memory} {p : Pthread T} (h : Registry m p ks vs) {cb : Addr}
    (hk : m.number k = some n) (hcb : m.callback k = some cb) :
    ∃ m₁ m₂ m' key ks', freeLocked m n = some (m₁, k) ∧ m₁.flsKey k = some key ∧
      key.key = n ∧
      freeValues k (m₁.blocks + 1) m₁ key.values =
        some (m₂, (vs k).flatMap fun r => callsOf cb ((m.data r).getD 0)) ∧
      m₂.heapFreeKey k = some m' ∧ Registry m' (p.delete n) ks' vs ∧
      m'.number = Function.update m.number k none ∧
      m'.callback = Function.update m.callback k none ∧
      ∀ r, m'.data r = if r ∈ vs k then none else m.data r := by
  obtain ⟨pre, post, rfl, hpre⟩ := h.split hk
  obtain ⟨m₁, hlocked, hvalues, hblocks, hnumber, hcallback, hload, hkeys⟩ :=
    Memory.freeLocked_eq h.keys h.keysBound hk hpre
  have hks := h.keyPlaced k n hk
  obtain ⟨key, hkey, hn⟩ := Memory.flsKey_of_number (hnumber ▸ hk)
  -- the loop over the records
  have hlist := h.values k hks
  rw [← hload] at hlist
  obtain ⟨a, ha, hfrom⟩ := ListAt.iff_listFrom.mp hlist
  obtain rfl := Option.some.inj ((Memory.loadValue_values hkey).symm.trans ha)
  have howner : ∀ r ∈ vs k, m₁.owner r = some k := by
    rw [hvalues.owner]
    exact h.owner k hks
  have hbound : (vs k).length < m₁.blocks + 1 := by
    rw [hblocks]
    exact Nat.lt_succ_of_le (h.bound k hks)
  obtain ⟨m₂, hloop, hkeys₂, hblocks₂, howner₂, hdata₂, hload₂⟩ :=
    Memory.freeValues_eq hfrom hbound howner (hcallback ▸ hcb)
  have hnumber₂ : m₂.number k = some n := by rw [hkeys₂.number, hnumber, hk]
  obtain ⟨m₃, hfree, hvalues₃, hblocks₃, hnumber₃, hcallback₃, hkeys₃, hload₃⟩ :=
    Memory.free_key hnumber₂
  have hmem : k ∉ pre ++ post := by
    have hnodup := List.nodup_middle.mp h.keys.nodup
    exact (List.nodup_cons.mp hnodup).1
  have hothers : ∀ k', k' ∈ pre ++ post ↔ k' ∈ pre ++ k :: post ∧ k' ≠ k := by
    intro k'
    rw [List.perm_middle.mem_iff, List.mem_cons]
    constructor
    · intro hk'
      exact ⟨Or.inr hk', fun heq => hmem (heq ▸ hk')⟩
    · rintro ⟨hk' | hk', hne⟩
      · exact absurd hk' hne
      · exact hk'
  have hnumber' : m₃.number = Function.update m.number k none := by
    rw [hnumber₃, hkeys₂.number, hnumber]
  have hcallback' : m₃.callback = Function.update m.callback k none := by
    rw [hcallback₃, hkeys₂.callback, hcallback]
  have hdata' : ∀ r, m₃.data r = if r ∈ vs k then none else m.data r := by
    intro r
    rw [hvalues₃.data, hdata₂, hvalues.data]
  refine ⟨m₁, m₂, m₃, key, pre ++ post, hlocked, hkey, hn, hvalues.data ▸ hloop, hfree, ?_,
    hnumber', hcallback', hdata'⟩
  refine h.dropKey hk hothers ?_ ?_ ?_ hnumber' ?_ hdata' ?_
  · rw [hblocks₃, hblocks₂, hblocks]
    have hlength := h.keysBound
    rw [List.perm_middle.length_eq, List.length_cons] at hlength
    omega
  · apply hkeys.frame
    · rw [hkeys₃, Function.update_of_ne (KeyLink.noConfusion), hkeys₂.loadKey]
    · intro k' hk'
      have hne : k' ≠ k := fun heq => hmem (heq ▸ hk')
      rw [hkeys₃, Function.update_of_ne (keyLink_next_injective.ne hne), hkeys₂.loadKey]
  · rw [hblocks₃, hblocks₂, hblocks]
  · intro r
    rw [hvalues₃.owner, howner₂, hvalues.owner]
  · intro l hl hr
    rw [hload₃, Function.update_of_ne hl, hload₂ l hr, hload]

omit [DecidableEq T] in
/-- A state in which a key is gone with its records stands for the table without the key. -/
lemma State.abs_dropKey (h : Registry s.mem s.pthread ks vs) {m' : Memory} {ks' : List Addr}
    (calls : List Call) (hk : s.mem.number k = some n)
    (h' : Registry m' (s.pthread.delete n) ks' vs)
    (hnumber : m'.number = Function.update s.mem.number k none)
    (hcallback : m'.callback = Function.update s.mem.callback k none)
    (hdata : ∀ r, m'.data r = if r ∈ vs k then none else s.mem.data r) :
    (⟨m', s.pthread.delete n, calls⟩ : State T).abs =
      { callback := Function.update s.abs.callback n none
        value := fun t n' => if n' = n then none else s.abs.value t n' } := by
  have hks := h.keyPlaced k n hk
  refine State.abs_eq (s := ⟨m', s.pthread.delete n, calls⟩) h' ?_ ?_
  · intro k' n' hk'
    change m'.number k' = some n' at hk'
    show Function.update s.abs.callback n none n' = m'.callback k' ∧
      ∀ t, (if n' = n then none else s.abs.value t n') = m'.data (s.pthread.slot t n')
    rw [hnumber] at hk'
    by_cases hkk : k' = k
    · rw [hkk, Function.update_self] at hk'
      cases hk'
    · rw [Function.update_of_ne hkk] at hk'
      have hnn : n' ≠ n := by
        intro hnn
        exact hkk (h.injective k' k n (hnn ▸ hk') hk)
      rw [hcallback, Function.update_of_ne hkk, Function.update_of_ne hnn]
      refine ⟨State.callback_eq h hk', ?_⟩
      intro t
      rw [if_neg hnn, State.value_eq h hk', hdata, if_neg]
      intro hrk
      -- the slot for another key holds no record of this one
      have hne : s.pthread.slot t n' ≠ 0 := (h.values k hks).ne_zero hrk
      have hmem' := h.slotted k' n' hk' t hne
      have hsame := h.owner k' (h.keyPlaced k' n' hk') _ hmem'
      rw [h.owner k hks _ hrk] at hsame
      exact hkk (Option.some.inj hsame).symm
  · intro n' hn'
    change ∀ k', m'.number k' ≠ some n' at hn'
    show Function.update s.abs.callback n none n' = none ∧
      ∀ t, (if n' = n then none else s.abs.value t n') = none
    by_cases hnn : n' = n
    · rw [hnn, Function.update_self]
      exact ⟨rfl, fun t => if_pos rfl⟩
    · have hold : ∀ k', s.mem.number k' ≠ some n' := by
        intro k' hk'
        apply hn' k'
        rw [hnumber, Function.update_of_ne, hk']
        intro hkk
        rw [hkk, hk] at hk'
        exact hnn (Option.some.inj hk').symm
      rw [Function.update_of_ne hnn]
      refine ⟨State.callback_none h hold, ?_⟩
      intro t
      rw [if_neg hnn]
      exact State.value_none h hold t

/-- The key is freed with its records. -/
lemma flsFree_frees (h : Registry s.mem s.pthread ks vs) (hk : s.mem.number k = some n) :
    ∃ s' outcome, flsFree s n 0 = some (s', outcome) ∧
      Refines s (.flsFree n 0) s' outcome := by
  obtain ⟨cb, hcb, habscb⟩ := State.isSome_callback h hk
  obtain ⟨m₁, m₂, m', key, ks', hlocked, hkey, hn, hloop, hfree, h', hnumber, hcallback,
    hdata⟩ := h.freeKey hk hcb
  have hfrees : s.abs.Frees n 0 := ⟨habscb ▸ rfl, rfl⟩
  -- the threads that hold a value, in the order of their records
  obtain ⟨ts, hts, hnodup, hholders⟩ := h.exists_holders hk
  have hpairs : (ts.map fun t => (t, n)).Nodup :=
    hnodup.map fun t t' heq => (Prod.mk.inj heq).1
  refine ⟨⟨m', s.pthread.delete n,
      s.calls ++ (vs k).flatMap fun r => callsOf cb ((s.mem.data r).getD 0)⟩, .ok TRUE, ?_,
    .of_heard h ⟨_, _, h'⟩ ?_ ?_ hpairs ?_ ?_⟩
  · rw [flsFree, hlocked]
    dsimp only
    rw [if_neg (h.key_ne_zero hk), hkey, Option.bind_some, if_neg (not_not.mpr rfl), hloop,
      Option.bind_some, hfree, Option.map_some, hn]
  · rw [Spec.outcome, if_pos hfrees]
  · rw [Spec.next, if_pos hfrees]
    exact State.abs_dropKey h _ hk h' hnumber hcallback hdata
  · intro t n' hcb' hv
    rw [List.mem_map]
    constructor
    · rintro ⟨t', -, heq⟩
      obtain ⟨-, rfl⟩ := Prod.mk.inj heq
      exact ⟨rfl, hfrees⟩
    · rintro ⟨rfl, -⟩
      refine ⟨t, (hholders t).mpr ?_, rfl⟩
      intro hslot
      rw [State.value_of_no_slot h hk hslot] at hv
      cases hv
  · rw [← hts, List.flatMap_map, List.flatMap_map]
    apply congrArg fun calls => s.calls ++ calls
    apply List.flatMap_congr
    intro t ht
    rw [habscb, Option.getD_some, State.value_eq h hk]

theorem flsFree_refines (h : Registry s.mem s.pthread ks vs) :
    ∃ s' outcome, flsFree s n result = some (s', outcome) ∧
      Refines s (.flsFree n result) s' outcome := by
  by_cases hn : ∃ k, s.mem.number k = some n
  · obtain ⟨k, hk⟩ := hn
    by_cases hresult : result = 0
    · rw [hresult]
      exact flsFree_frees h hk
    · exact flsFree_kept h hk hresult
  · have hnone := not_exists.mp hn
    have hfrees : ¬ s.abs.Frees n result := by
      intro hfrees
      have hsome := hfrees.1
      rw [State.callback_none h hnone] at hsome
      cases hsome
    refine ⟨s, .error ERROR_INVALID_PARAMETER, ?_,
      .of_same ⟨ks, vs, h⟩ ?_ ?_ rfl fun e he => hfrees he.ends.2⟩
    · rw [flsFree, freeLocked, Memory.seekKey_not_found h.keys h.keysBound (h.number_ne hnone)]
      dsimp only
      rw [if_pos rfl]
      dsimp only
      rw [if_pos rfl]
    · rw [Spec.outcome, if_neg hfrees]
    · rw [Spec.next, if_neg hfrees]

end

/-! ## The exit of a thread -/

/-- The entries of a thread for some keys are taken out. -/
lemma Spec.foldl_set (a : Spec T) (t : T) (order : List PthreadKey) :
    (order.foldl (fun a n => a.set t n none) a).callback = a.callback ∧
      ∀ t' n, (order.foldl (fun a n => a.set t n none) a).value t' n =
        if t' = t ∧ n ∈ order then none else a.value t' n := by
  induction order generalizing a with
  | nil =>
    refine ⟨rfl, ?_⟩
    intro t' n
    rw [if_neg fun hn => List.not_mem_nil hn.2]
    rfl
  | cons n₀ order ih =>
    obtain ⟨hcallback, hvalue⟩ := ih (a.set t n₀ none)
    refine ⟨hcallback, ?_⟩
    intro t' n
    rw [List.foldl_cons, hvalue]
    by_cases hlater : t' = t ∧ n ∈ order
    · rw [if_pos hlater, if_pos ⟨hlater.1, List.mem_cons_of_mem n₀ hlater.2⟩]
    · rw [if_neg hlater]
      show (if t' = t ∧ n = n₀ then none else a.value t' n) = _
      by_cases hsame : t' = t ∧ n = n₀
      · rw [if_pos hsame, if_pos ⟨hsame.1, hsame.2 ▸ List.mem_cons_self⟩]
      · rw [if_neg hsame, if_neg]
        rintro ⟨hthread, hmem⟩
        rcases List.mem_cons.mp hmem with heq | hmem
        · exact hsame ⟨hthread, heq⟩
        · exact hlater ⟨hthread, hmem⟩

/-- **The destructors of a thread.** One after the other they take its entries out. -/
theorem threadExit_eq {t : T} {order : List PthreadKey} (h : Registry s.mem s.pthread ks vs)
    (hnodup : order.Nodup)
    (hslots : ∀ n ∈ order, ∃ k, s.mem.number k = some n ∧ s.pthread.slot t n ≠ 0) :
    ∃ s' vs', threadExit t s order = some s' ∧ Registry s'.mem s'.pthread ks vs' ∧
      s'.abs = order.foldl (fun a n => a.set t n none) s.abs ∧
      s'.calls = s.calls ++ order.flatMap fun n =>
        callsOf ((s.abs.callback n).getD 0) ((s.abs.value t n).getD 0) := by
  induction order generalizing s vs with
  | nil =>
    refine ⟨s, vs, rfl, h, rfl, ?_⟩
    rw [List.flatMap_nil, List.append_nil]
  | cons n order ih =>
    obtain ⟨hn, hnodup⟩ := List.nodup_cons.mp hnodup
    obtain ⟨k, hk, hslot⟩ := hslots n List.mem_cons_self
    obtain ⟨d, hdata, -, hvalue⟩ := State.value_of_slot h hk hslot
    obtain ⟨cb, hcb, habscb⟩ := State.isSome_callback h hk
    obtain ⟨m', hdestroy, hreleased⟩ := h.toLists.destroy (h.keyPlaced k n hk)
      (h.slotted k n hk t hslot) hdata hcb
    have h' := h.clear hk hslot hreleased
    have habs := State.abs_clear h (s.calls ++ callsOf cb d) hk hslot hreleased
    -- the destructor of one key leaves the slots of the others
    have hslots' : ∀ n' ∈ order, ∃ k', m'.number k' = some n' ∧
        (s.pthread.setspecific t n 0).slot t n' ≠ 0 := by
      intro n' hn'
      obtain ⟨k', hk', hslot'⟩ := hslots n' (List.mem_cons_of_mem n hn')
      refine ⟨k', hreleased.keys.number ▸ hk', ?_⟩
      rw [Pthread.slot_setspecific_of_ne]
      · exact hslot'
      · rintro ⟨-, rfl⟩
        exact hn hn'
    obtain ⟨s', vs', hexit, hrests, habs', hcalls⟩ :=
      ih (s := ⟨m', s.pthread.setspecific t n 0, s.calls ++ callsOf cb d⟩) h' hnodup hslots'
    refine ⟨s', vs', ?_, hrests, ?_, ?_⟩
    · rw [threadExit, hdestroy, Option.bind_some]
      exact hexit
    · rw [habs', habs]
      rfl
    · rw [hcalls, List.append_assoc, List.flatMap_cons, habscb, hvalue, Option.getD_some,
        Option.getD_some, habs]
      apply congrArg fun calls => s.calls ++ (callsOf cb d ++ calls)
      apply List.flatMap_congr
      intro n' hn'
      show callsOf ((s.abs.callback n').getD 0)
        ((if t = t ∧ n' = n then none else s.abs.value t n').getD 0) = _
      rw [if_neg]
      rintro ⟨-, rfl⟩
      exact hn hn'

theorem threadExit_refines {t : T} {order : List PthreadKey}
    (h : Registry s.mem s.pthread ks vs) (hdoc : Op.Documented s (.threadExit t order)) :
    ∃ s', threadExit t s order = some s' ∧ Refines s (.threadExit t order) s' (.ok TRUE) := by
  obtain ⟨hnodup, horder⟩ := hdoc
  have hslots : ∀ n ∈ order, ∃ k, s.mem.number k = some n ∧ s.pthread.slot t n ≠ 0 := by
    intro n hn
    obtain ⟨hlive, hslot⟩ := (horder n).mp hn
    obtain ⟨k, -, hk⟩ := (h.live n).mp hlive
    exact ⟨k, hk, hslot⟩
  -- the thread has an entry only for the keys in the order
  have hentry : ∀ n, (s.abs.value t n).isSome → n ∈ order := by
    intro n hsome
    by_cases hn : ∃ k, s.mem.number k = some n
    · obtain ⟨k, hk⟩ := hn
      refine (horder n).mpr ⟨(h.live n).mpr ⟨k, h.keyPlaced k n hk, hk⟩, ?_⟩
      intro hslot
      rw [State.value_of_no_slot h hk hslot] at hsome
      cases hsome
    · rw [State.value_none h (not_exists.mp hn)] at hsome
      cases hsome
  obtain ⟨s', vs', hexit, h', habs, hcalls⟩ := threadExit_eq h hnodup hslots
  have hpairs : (order.map fun n => (t, n)).Nodup :=
    hnodup.map fun n n' heq => (Prod.mk.inj heq).2
  refine ⟨s', hexit, .of_heard h ⟨_, _, h'⟩ rfl ?_ hpairs ?_ ?_⟩
  · obtain ⟨hcallback, hvalue⟩ := s.abs.foldl_set t order
    have hvalues : (order.foldl (fun a n => a.set t n none) s.abs).value =
        fun t' n => if t' = t then none else s.abs.value t' n := by
      ext1 t'
      ext1 n
      rw [hvalue]
      by_cases ht : t' = t
      · rw [if_pos ht]
        by_cases hn : n ∈ order
        · rw [if_pos ⟨ht, hn⟩]
        · rw [if_neg fun hmem => hn hmem.2, ht]
          cases hsome : s.abs.value t n with
          | none => rfl
          | some d => exact absurd (hentry n (hsome ▸ rfl)) hn
      · rw [if_neg ht, if_neg fun hmem => ht hmem.1]
    rw [habs, Spec.next, ← hvalues, ← hcallback]
  · intro t' n hcb hv
    rw [List.mem_map]
    constructor
    · rintro ⟨n', -, heq⟩
      exact (Prod.mk.inj heq).1.symm
    · intro hthread
      change t' = t at hthread
      rw [hthread] at hv ⊢
      exact ⟨n, hentry n hv, rfl⟩
  · rw [hcalls, List.flatMap_map]

/-! ## Every operation -/

/-- **Each operation is one of the table.** -/
theorem exec_refines {op : Op T} (h : s.Rests) (hdoc : op.Documented s) :
    ∃ s' outcome, exec s op = some (s', outcome) ∧ Refines s op s' outcome := by
  obtain ⟨ks, vs, h⟩ := h
  cases op with
  | flsAlloc lpCallback block created => exact flsAlloc_refines h hdoc
  | flsSetValue thread n lpFlsData block result => exact flsSetValue_refines h hdoc
  | flsFree n result => exact flsFree_refines h
  | threadExit thread order =>
    obtain ⟨s', hexit, hrefines⟩ := threadExit_refines h hdoc
    refine ⟨s', .ok TRUE, ?_, hrefines⟩
    rw [exec, hexit, Option.map_some]

end Fls
end ClamavWin32
