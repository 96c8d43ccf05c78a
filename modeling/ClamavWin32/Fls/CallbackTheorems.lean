import ClamavWin32.Fls.ExitTheorems

/-!
# Each callback is run once

The operations of a run follow one another, by any threads and in any order. The calls of the
callbacks are those of the table, in which a pointer is passed once, at the exit of its thread
or when its key is freed, and never after it has been replaced or taken out.

* `Passed a ops passed`: the entries that the operations pass, each with the index of its
  operation;
* `RecordsPlaced`: where the records are in a state at rest;
* `callbacks_once`: what holds of every run.
-/

namespace ClamavWin32
namespace Fls

open TransitionSystem

variable {T : Type*} [DecidableEq T]

/-! ## The entries that a run passes -/

/-- The entries that operations pass from the table `a` on, each once with the index of its
operation. -/
structure Passed (a : Spec T) (ops : List (Op T)) (passed : List (ℕ × Heard T)) : Prop where
  nodup : passed.Nodup
  mem_iff : ∀ i h, (i, h) ∈ passed ↔
    ∃ op, ops[i]? = some op ∧ ((ops.take i).foldl Spec.next a).Passes op h

/-- The entries of the first operation come before those of the others. -/
lemma Passed.cons {a : Spec T} {op : Op T} {ops : List (Op T)} {heard : List (Heard T)}
    {passed : List (ℕ × Heard T)} (hnodup : heard.Nodup)
    (hheard : ∀ h, h ∈ heard ↔ a.Passes op h) (hpassed : Passed (a.next op) ops passed) :
    Passed a (op :: ops)
      (heard.map (fun h => (0, h)) ++ passed.map fun e => (e.1 + 1, e.2)) where
  nodup := by
    apply List.nodup_append.mpr
    refine ⟨hnodup.map fun h h' heq => (Prod.mk.inj heq).2, hpassed.nodup.map ?_, ?_⟩
    · intro e e' heq
      obtain ⟨hindex, hentry⟩ := Prod.mk.inj heq
      exact Prod.ext (Nat.succ.inj hindex) hentry
    · intro e he e' he' heq
      obtain ⟨h, -, rfl⟩ := List.mem_map.mp he
      obtain ⟨e'', -, rfl⟩ := List.mem_map.mp he'
      exact Nat.succ_ne_zero _ (Prod.mk.inj heq).1.symm
  mem_iff i h := by
    rw [List.mem_append, List.mem_map, List.mem_map]
    -- the first operation has the index 0, the others have those behind it
    cases i with
    | zero =>
      constructor
      · rintro (⟨h', hmem, heq⟩ | ⟨e, -, heq⟩)
        · obtain ⟨-, rfl⟩ := Prod.mk.inj heq
          exact ⟨op, rfl, (hheard h').mp hmem⟩
        · exact absurd (Prod.mk.inj heq).1 (Nat.succ_ne_zero _)
      · rintro ⟨op', hop, hpasses⟩
        obtain rfl := Option.some.inj hop
        exact Or.inl ⟨h, (hheard h).mpr hpasses, rfl⟩
    | succ i =>
      rw [List.getElem?_cons_succ, List.take_succ_cons, List.foldl_cons, ← hpassed.mem_iff]
      constructor
      · rintro (⟨h', -, heq⟩ | ⟨e, hmem, heq⟩)
        · exact absurd (Prod.mk.inj heq).1.symm (Nat.succ_ne_zero _)
        · obtain ⟨hindex, rfl⟩ := Prod.mk.inj heq
          obtain rfl := Nat.succ.inj hindex
          exact hmem
      · intro hmem
        exact Or.inr ⟨(i, h), hmem, rfl⟩

/-! ## The property -/

/-- The key is on the list of the keys. -/
def IsKey (m : Memory) (k : Addr) : Prop :=
  ∃ ks, ListAt m.loadKey .next .fls_keys ks ∧ k ∈ ks

/-- The record is on the list of the key. -/
def OnList (m : Memory) (k r : Addr) : Prop :=
  ∃ xs, ListAt m.loadValue .next (.values k) xs ∧ r ∈ xs

/-- Every record is on the list of one key, and it is the value of one thread for that key. -/
def RecordsPlaced (s : State T) : Prop :=
  ∀ r v, s.mem.flsValue r = some v → ∃ k key, IsKey s.mem k ∧ s.mem.flsKey k = some key ∧
    OnList s.mem k r ∧ (∀ k', IsKey s.mem k' → OnList s.mem k' r → k' = k) ∧
      ∃! t, s.pthread.slot t key.key = r

/-- What the operations of a run have done to the table and to the callbacks. -/
structure CallbacksOnce (ops : List (Op T)) (s : State T) : Prop where
  table : s.abs = Spec.after ops
  calls : ∃ passed, Passed Spec.initial ops passed ∧ s.calls = passed.map fun e => e.2.call
  once : ∀ i j op op' (h h' : Heard T), i < j →
    ops[i]? = some op → (Spec.after (ops.take i)).Passes op h →
      ops[j]? = some op' → (Spec.after (ops.take j)).Passes op' h' →
        h.thread = h'.thread → h.key = h'.key →
          ∃ k op'', i < k ∧ k < j ∧ ops[k]? = some op'' ∧
            (Spec.after (ops.take k)).StoresFor h.thread h.key op''

/-- The call returns what the table says. -/
def Returns (s : State T) (op : Op T) (_ : State T) : Prop :=
  (exec s op).map Prod.snd = some (s.abs.outcome op)

/-! ## One operation -/

omit [DecidableEq T] in
lemma Registry.recordsPlaced {s : State T} {ks : List Addr} {vs : Addr → List Addr}
    (h : Registry s.mem s.pthread ks vs) : RecordsPlaced s := by
  intro r v hv
  have howner := Memory.owner_of_flsValue hv
  obtain ⟨hk, hmem⟩ := h.placed r _ howner
  obtain ⟨n, hn⟩ := h.number _ hk
  obtain ⟨key, hkey, rfl⟩ := Memory.flsKey_of_number hn
  obtain ⟨t, ht⟩ := h.held _ _ hn r hmem
  refine ⟨v.owner, key, ⟨ks, h.keys, hk⟩, hkey, ⟨vs v.owner, h.values _ hk, hmem⟩, ?_,
    t, ht, ?_⟩
  · rintro k' ⟨ks', hkeys, hk'⟩ ⟨xs, hlist, hr⟩
    obtain rfl := h.keys.unique hkeys
    obtain rfl := (h.values k' hk').unique hlist
    exact Option.some.inj ((h.owner k' hk' r hr).symm.trans howner)
  · intro t' ht'
    have hne : s.pthread.slot t' key.key ≠ 0 := by
      rw [ht']
      exact (h.values _ hk).ne_zero hmem
    exact h.single _ _ hn t' t hne (ht'.trans ht.symm)

/-- A documented operation is taken from a state at rest. -/
lemma step_refines {s : State T} {op : Op T} (h : s.Rests) (hdoc : op.Documented s) :
    ∃ s', step s op = some s' ∧ Refines s op s' (s.abs.outcome op) ∧ Returns s op s' := by
  obtain ⟨s', outcome, hexec, hrefines⟩ := exec_refines h hdoc
  refine ⟨s', ?_, hrefines.outcome ▸ hrefines, ?_⟩
  · rw [step, hexec, Option.map_some]
  · rw [Returns, hexec, Option.map_some, hrefines.outcome]

/-! ## Runs -/

/-- The calls of a run are those of the table. -/
theorem run_refines {s : State T} {ops : List (Op T)} (h : s.Rests)
    (hdoc : EveryLabel step (fun s op => op.Documented s) s ops) :
    ∃ s', run step s ops = some s' ∧ s'.abs = ops.foldl Spec.next s.abs ∧
      ∃ passed, Passed s.abs ops passed ∧
        s'.calls = s.calls ++ passed.map fun e => e.2.call := by
  induction ops generalizing s with
  | nil =>
    refine ⟨s, rfl, rfl, [], ⟨List.nodup_nil, ?_⟩, ?_⟩
    · intro i e
      refine iff_of_false List.not_mem_nil ?_
      rintro ⟨op, hop, -⟩
      rw [List.getElem?_nil] at hop
      cases hop
    · rw [List.map_nil, List.append_nil]
  | cons op ops ih =>
    obtain ⟨s₁, hstep, hrefines, -⟩ := step_refines h hdoc.1
    obtain ⟨s', hrun, habs, passed, hpassed, hcalls⟩ := ih hrefines.rests (hdoc.2 s₁ hstep)
    obtain ⟨heard, hnodup, hheard, hcalls₁⟩ := hrefines.calls
    rw [hrefines.abs] at hpassed
    refine ⟨s', ?_, ?_, _, hpassed.cons hnodup hheard, ?_⟩
    · rw [run_cons, hstep, Option.bind_some, hrun]
    · rw [habs, hrefines.abs, List.foldl_cons]
    · rw [hcalls, hcalls₁, List.append_assoc, List.map_append, List.map_map, List.map_map]
      rfl

/-- Every state of a run is at rest. -/
theorem everyState_rests {ops : List (Op T)}
    (hdoc : EveryLabel step (fun s op => op.Documented s) State.initial ops) :
    EveryState step State.Rests State.initial ops := by
  apply EveryStep.everyState _ hdoc.everyStep State.initial_rests
  intro s op s' h hop hstep
  obtain ⟨s'', hstep', hrefines, -⟩ := step_refines h hop
  obtain rfl := Option.some.inj (hstep.symm.trans hstep')
  exact hrefines.rests

/-- **Each callback is run once.** A run of documented operations, each to completion, is taken
to its end, returns what the table says, leaves every record on one list and in one slot, and
calls the callbacks for the entries that the table passes to them. -/
theorem callbacks_once {ops : List (Op T)}
    (hdoc : EveryLabel step (fun s op => op.Documented s) State.initial ops) :
    ∃ s, run step State.initial ops = some s ∧ CallbacksOnce ops s ∧
      EveryState step RecordsPlaced State.initial ops ∧
        EveryStep step Returns State.initial ops := by
  have hinitial : (State.initial : State T).abs = Spec.initial := rfl
  obtain ⟨s, hrun, habs, passed, hpassed, hcalls⟩ := run_refines State.initial_rests hdoc
  have hrests := everyState_rests hdoc
  refine ⟨s, hrun, ⟨habs, ⟨passed, hpassed, hcalls⟩, ?_⟩, ?_, ?_⟩
  · intro i j op op' e e' hij hop hpass hop' hpass' hthread hkey
    exact Spec.stored_between hij hop hpass hop' hpass' hthread hkey
  · apply hrests.mono
    rintro s ⟨ks, vs, h⟩
    exact h.recordsPlaced
  · apply hdoc.everyStep.imp _ hrests
    intro s op s' h hop _
    exact (step_refines h hop).choose_spec.2.2

/-- Two threads store a pointer, the first one replaces its own and exits, and the key is
freed. -/
def sampleOps : List (Op (Fin 3)) :=
  [.flsAlloc 7 (some 100) (.ok 1), .flsSetValue 0 1 55 (some 200) 0,
    .flsSetValue 1 1 66 (some 300) 0, .flsSetValue 0 1 77 none 0, .threadExit 0 [1],
    .flsFree 1 0]

theorem callbacks_once_sample :
    ∃ s, run step State.initial sampleOps = some s ∧ CallbacksOnce sampleOps s ∧
      EveryState step RecordsPlaced State.initial sampleOps ∧
        EveryStep step Returns State.initial sampleOps := by
  apply callbacks_once
  obtain ⟨s₁, h₁, hfresh₁, s₂, h₂, hfresh₂, s₃, h₃, s₄, h₄, hlive, hone, hslot⟩ :
      ∃ s₁, step (State.initial : State (Fin 3)) (.flsAlloc 7 (some 100) (.ok 1)) = some s₁ ∧
        s₁.mem.Fresh 200 ∧ ∃ s₂, step s₁ (.flsSetValue 0 1 55 (some 200) 0) = some s₂ ∧
          s₂.mem.Fresh 300 ∧ ∃ s₃, step s₂ (.flsSetValue 1 1 66 (some 300) 0) = some s₃ ∧
            ∃ s₄, step s₃ (.flsSetValue 0 1 77 none 0) = some s₄ ∧
              (∀ n, s₄.pthread.live n = true → n = 1) ∧ s₄.pthread.live 1 = true ∧
                s₄.pthread.slot 0 1 ≠ 0 := by
    refine ⟨_, rfl, by decide, _, rfl, by decide, _, rfl, _, rfl, ?_, by decide, by decide⟩
    intro n hn
    by_contra hne
    change Function.update (fun _ => false) (1 : PthreadKey) true n = true at hn
    rw [Function.update_of_ne hne] at hn
    cases hn
  have hnext : ∀ {s t : State (Fin 3)} {op ops}, step s op = some t →
      EveryLabel step (fun s op => op.Documented s) t ops →
        ∀ t' ∈ step s op, EveryLabel step (fun s op => op.Documented s) t' ops := by
    intro s t op ops hstep hrest t' ht'
    rw [Option.mem_def, hstep] at ht'
    exact Option.some.inj ht' ▸ hrest
  have hblock : ∀ {a : Addr} {m : Memory}, m.Fresh a → ∀ b ∈ some a, m.Fresh b := by
    intro a m hfresh b hb
    exact Option.some.inj hb ▸ hfresh
  refine ⟨⟨hblock (by decide), fun n _ => rfl⟩, hnext h₁ ⟨hblock hfresh₁, hnext h₂
    ⟨hblock hfresh₂, hnext h₃ ⟨nofun, hnext h₄ ⟨⟨List.nodup_singleton 1, ?_⟩, ?_⟩⟩⟩⟩⟩
  · intro n
    rw [List.mem_singleton]
    constructor
    · rintro rfl
      exact ⟨hone, hslot⟩
    · intro hn
      exact hlive n hn.1
  · intro s₅ _
    exact ⟨trivial, fun _ _ => trivial⟩

end Fls
end ClamavWin32
