import ClamavWin32.Fls.Registry

/-!
# `FlsAlloc` and `FlsSetValue` are operations of the table

From a state at rest an operation of the code runs to completion, returns what the table says,
leaves a state at rest that stands for the table after the operation, and calls the callbacks
for the entries that the operation ends (`Refines`). These two end none.

* `flsAlloc_refines`: a new key has no records, and a block that is not used is freed again;
* `flsSetValue_refines`: a record is put on the list of its key, changed, or taken off it.
-/

namespace ClamavWin32
namespace Fls

variable {T : Type*} {s : State T} {ks : List Addr} {vs : Addr → List Addr}

/-! ## What an operation has to do -/

/-- The state and the result are what the table says, and the new calls are those of the
entries that the operation passes. -/
structure Refines [DecidableEq T] (s : State T) (op : Op T) (s' : State T) (outcome : Outcome) :
    Prop where
  rests : s'.Rests
  outcome : outcome = s.abs.outcome op
  abs : s'.abs = s.abs.next op
  calls : ∃ heard : List (Heard T), heard.Nodup ∧ (∀ h, h ∈ heard ↔ s.abs.Passes op h) ∧
    s'.calls = s.calls ++ heard.map Heard.call

/-- A state stands for a table when they agree on the keys, and the table has nothing else. -/
lemma State.abs_eq (h : Registry s.mem s.pthread ks vs) {a : Spec T}
    (hkey : ∀ k n, s.mem.number k = some n →
      a.callback n = s.mem.callback k ∧ ∀ t, a.value t n = s.mem.data (s.pthread.slot t n))
    (hnone : ∀ n, (∀ k, s.mem.number k ≠ some n) →
      a.callback n = none ∧ ∀ t, a.value t n = none) : s.abs = a := by
  obtain ⟨callback, value⟩ := a
  have hcallback : s.abs.callback = callback := by
    ext1 n
    by_cases hn : ∃ k, s.mem.number k = some n
    · obtain ⟨k, hk⟩ := hn
      rw [State.callback_eq h hk]
      exact (hkey k n hk).1.symm
    · have hn' := not_exists.mp hn
      rw [State.callback_none h hn']
      exact (hnone n hn').1.symm
  have hvalue : s.abs.value = value := by
    ext1 t
    ext1 n
    by_cases hn : ∃ k, s.mem.number k = some n
    · obtain ⟨k, hk⟩ := hn
      rw [State.value_eq h hk]
      exact ((hkey k n hk).2 t).symm
    · have hn' := not_exists.mp hn
      rw [State.value_none h hn']
      exact ((hnone n hn').2 t).symm
  rw [← hcallback, ← hvalue]

/-- Two states with the same keys, pointers and slots stand for the same table. -/
lemma State.abs_same (s' : State T) {ks' : List Addr} {vs' : Addr → List Addr}
    (h : Registry s.mem s.pthread ks vs) (h' : Registry s'.mem s'.pthread ks' vs')
    (hnumber : s'.mem.number = s.mem.number) (hcallback : s'.mem.callback = s.mem.callback)
    (hdata : s'.mem.data = s.mem.data) (hslot : s'.pthread.slot = s.pthread.slot) :
    s'.abs = s.abs := by
  apply State.abs_eq h'
  · intro k n hk
    rw [hnumber] at hk
    rw [hcallback, hdata, hslot]
    exact ⟨State.callback_eq h hk, fun t => State.value_eq h hk t⟩
  · intro n hn
    rw [hnumber] at hn
    exact ⟨State.callback_none h hn, fun t => State.value_none h hn t⟩

/-- A key that is found has a callback, or none at `NULL`. -/
lemma State.isSome_callback (h : Registry s.mem s.pthread ks vs) {k : Addr} {n : PthreadKey}
    (hk : s.mem.number k = some n) : ∃ cb, s.mem.callback k = some cb ∧
      s.abs.callback n = some cb := by
  obtain ⟨key, hkey, -⟩ := Memory.flsKey_of_number hk
  refine ⟨key.callback, Memory.callback_of_flsKey hkey, ?_⟩
  rw [State.callback_eq h hk, Memory.callback_of_flsKey hkey]

lemma State.callback_ne_none (h : Registry s.mem s.pthread ks vs) {k : Addr} {n : PthreadKey}
    (hk : s.mem.number k = some n) : s.abs.callback n ≠ none := by
  obtain ⟨cb, -, hcb⟩ := State.isSome_callback h hk
  rw [hcb]
  exact Option.some_ne_none cb

/-- The thread has an entry if it has a record. -/
lemma State.value_of_slot (h : Registry s.mem s.pthread ks vs) {k : Addr} {n : PthreadKey}
    (hk : s.mem.number k = some n) {t : T} (hslot : s.pthread.slot t n ≠ 0) :
    ∃ d, s.mem.data (s.pthread.slot t n) = some d ∧ d ≠ 0 ∧ s.abs.value t n = some d := by
  have hmem := h.slotted k n hk t hslot
  obtain ⟨v, hv, -⟩ := Memory.flsValue_of_owner (h.owner k (h.keyPlaced k n hk) _ hmem)
  have hdata := Memory.data_of_flsValue hv
  refine ⟨v.value, hdata, h.stored _ _ hdata, ?_⟩
  rw [State.value_eq h hk, hdata]

lemma State.value_ne_none (h : Registry s.mem s.pthread ks vs) {k : Addr} {n : PthreadKey}
    (hk : s.mem.number k = some n) {t : T} (hslot : s.pthread.slot t n ≠ 0) :
    s.abs.value t n ≠ none := by
  obtain ⟨d, -, -, hvalue⟩ := State.value_of_slot h hk hslot
  rw [hvalue]
  exact Option.some_ne_none d

lemma State.value_of_no_slot (h : Registry s.mem s.pthread ks vs) {k : Addr} {n : PthreadKey}
    (hk : s.mem.number k = some n) {t : T} (hslot : s.pthread.slot t n = 0) :
    s.abs.value t n = none := by
  rw [State.value_eq h hk, hslot, h.data_zero]

/-- A state with the same keys, entries and calls. -/
lemma Refines.of_same [DecidableEq T] {s' : State T} {op : Op T} {outcome : Outcome}
    (hrests : s'.Rests) (houtcome : outcome = s.abs.outcome op) (habs : s'.abs = s.abs.next op)
    (hcalls : s'.calls = s.calls) (hnone : ∀ h, ¬ s.abs.Passes op h) :
    Refines s op s' outcome where
  rests := hrests
  outcome := houtcome
  abs := habs
  calls := by
    refine ⟨[], List.nodup_nil, ?_, ?_⟩
    · intro h
      exact iff_of_false List.not_mem_nil (hnone h)
    · rw [hcalls, List.map_nil, List.append_nil]

/-! ## `FlsAlloc` -/

/-- A new key has its callback and no entries. -/
lemma State.abs_addKey [DecidableEq T] (h : Registry s.mem s.pthread ks vs) {m' : Memory}
    {ks' : List Addr} {vs' : Addr → List Addr} {k lpCallback : Addr} {n : PthreadKey}
    (h' : Registry m' (s.pthread.create n) ks' vs') (hk : s.mem.number k = none)
    (hlive : s.pthread.live n = false)
    (hnumber : m'.number = Function.update s.mem.number k (some n))
    (hcallback : m'.callback = Function.update s.mem.callback k (some lpCallback))
    (hdata : m'.data = s.mem.data) :
    State.abs ⟨m', s.pthread.create n, s.calls⟩ =
      ⟨Function.update s.abs.callback n (some lpCallback),
        fun t n' => if n' = n then none else s.abs.value t n'⟩ := by
  apply @State.abs_eq T ⟨m', s.pthread.create n, s.calls⟩ ks' vs' h'
  · intro k' n' hk'
    change m'.number k' = some n' at hk'
    show Function.update s.abs.callback n (some lpCallback) n' = m'.callback k' ∧
      ∀ t, (if n' = n then none else s.abs.value t n') =
        m'.data (if n' = n then 0 else s.pthread.slot t n')
    rw [hnumber] at hk'
    rw [hcallback, hdata]
    by_cases hkk : k' = k
    · -- the new key has no values yet, since all its slots are 0
      rw [hkk, Function.update_self] at hk'
      rw [← Option.some.inj hk', hkk, Function.update_self, Function.update_self]
      refine ⟨rfl, fun t => ?_⟩
      rw [if_pos rfl, if_pos rfl, h.data_zero]
    · rw [Function.update_of_ne hkk] at hk'
      -- the number of an older key is live, and the new one was not
      have hnn : n' ≠ n := by
        intro hnn
        have hlive' := (h.live n').mpr ⟨k', h.keyPlaced k' n' hk', hk'⟩
        rw [hnn, hlive] at hlive'
        cases hlive'
      rw [Function.update_of_ne hkk, Function.update_of_ne hnn]
      refine ⟨State.callback_eq h hk', fun t => ?_⟩
      rw [if_neg hnn, if_neg hnn]
      exact State.value_eq h hk' t
  · intro n' hn'
    change ∀ k', m'.number k' ≠ some n' at hn'
    show Function.update s.abs.callback n (some lpCallback) n' = none ∧
      ∀ t, (if n' = n then none else s.abs.value t n') = none
    rw [hnumber] at hn'
    have hnn : n' ≠ n := by
      intro hnn
      apply hn' k
      rw [Function.update_self, hnn]
    have hold : ∀ k', s.mem.number k' ≠ some n' := by
      intro k' hk'
      apply hn' k'
      by_cases hkk : k' = k
      · rw [hkk, hk] at hk'
        cases hk'
      · rw [Function.update_of_ne hkk, hk']
    rw [Function.update_of_ne hnn]
    refine ⟨State.callback_none h hold, fun t => ?_⟩
    rw [if_neg hnn]
    exact State.value_none h hold t

theorem flsAlloc_refines [DecidableEq T] (h : Registry s.mem s.pthread ks vs) {lpCallback : Addr}
    {block : Option Addr} {created : Except ℕ PthreadKey}
    (hdoc : Op.Documented s (.flsAlloc lpCallback block created)) :
    ∃ s' outcome, flsAlloc s lpCallback block created = some (s', outcome) ∧
      Refines s (.flsAlloc lpCallback block created) s' outcome := by
  obtain ⟨hfresh, hlive⟩ := hdoc
  have hpasses : ∀ e, ¬ s.abs.Passes (.flsAlloc lpCallback block created) e := fun e he => he.ends
  match block, created with
  | none, created => exact ⟨s, _, rfl, .of_same ⟨ks, vs, h⟩ rfl rfl rfl hpasses⟩
  | some k, .error result =>
    obtain ⟨hk0, hk, hr⟩ := hfresh k rfl
    have hfree := Memory.alloc_free_key hk
    -- the memory is as before, up to the number of blocks there have been
    have h' : Registry { s.mem with blocks := s.mem.blocks + 1 } s.pthread ks vs :=
      h.congr (h.toLists.congr (fun _ hk => hk) rfl rfl (Nat.le_succ _)) h.keys
        (h.keysBound.trans (Nat.le_succ _)) (fun _ => Iff.rfl) rfl rfl h.stored
    refine ⟨{ s with mem := { s.mem with blocks := s.mem.blocks + 1 } }, _, ?_,
      .of_same ⟨ks, vs, h'⟩ rfl ?_ rfl hpasses⟩
    · rw [flsAlloc]
      dsimp only
      rw [hfree, Option.map_some]
      rfl
    · refine State.abs_same { s with mem := { s.mem with blocks := s.mem.blocks + 1 } }
        h h' rfl rfl rfl rfl
  | some k, .ok n =>
    obtain ⟨hk0, hk, hr⟩ := hfresh k rfl
    have hnumber : s.mem.number k = none := by rw [Memory.number, hk, Option.map_none]
    obtain ⟨m', halloc, hvalues, hblocks, hnumber', hcallback', hkeys, hload⟩ :=
      Memory.push_key s.mem k lpCallback n
    have h' := h.addKey hk0 hnumber (hlive n rfl) hvalues hblocks hnumber' hkeys hload
    refine ⟨⟨m', s.pthread.create n, s.calls⟩, .ok n, ?_, .of_same ⟨_, _, h'⟩ rfl ?_ rfl hpasses⟩
    · obtain ⟨m₁, hm₁, hm'⟩ := Option.map_eq_some_iff.mp halloc
      rw [flsAlloc, hm₁, Option.map_some, hm']
    · exact State.abs_addKey h h' hnumber (hlive n rfl) hnumber' hcallback' hvalues.data

/-! ## `FlsSetValue` -/

variable [DecidableEq T]

/-- A state that differs in one entry stands for the table that does. -/
lemma State.abs_set (s' : State T) {vs' : Addr → List Addr}
    (h : Registry s.mem s.pthread ks vs) (h' : Registry s'.mem s'.pthread ks vs')
    (hkeys : Memory.SameKeys s.mem s'.mem) {t : T} {n : PthreadKey} {v : Option Addr}
    (hn : s.abs.callback n ≠ none) (hv : s'.mem.data (s'.pthread.slot t n) = v)
    (hother : ∀ k' n' t', s.mem.number k' = some n' → ¬(t' = t ∧ n' = n) →
      s'.mem.data (s'.pthread.slot t' n') = s.mem.data (s.pthread.slot t' n')) :
    s'.abs = s.abs.set t n v := by
  apply State.abs_eq h'
  · intro k' n' hk'
    rw [hkeys.number] at hk'
    rw [hkeys.callback]
    refine ⟨State.callback_eq h hk', ?_⟩
    intro t'
    show (if t' = t ∧ n' = n then v else s.abs.value t' n') = _
    by_cases hsame : t' = t ∧ n' = n
    · rw [if_pos hsame, hsame.1, hsame.2, hv]
    · rw [if_neg hsame, hother k' n' t' hk' hsame]
      exact State.value_eq h hk' t'
  · intro n' hn'
    rw [hkeys.number] at hn'
    refine ⟨State.callback_none h hn', ?_⟩
    intro t'
    show (if t' = t ∧ n' = n then v else s.abs.value t' n') = none
    rw [if_neg, State.value_none h hn' t']
    rintro ⟨-, rfl⟩
    exact hn (State.callback_none h hn')

/-- A record is taken out and freed, and the entry with it. -/
lemma State.abs_clear (h : Registry s.mem s.pthread ks vs) {m' : Memory} (calls : List Call)
    {k : Addr} {n : PthreadKey} {t : T} (hk : s.mem.number k = some n)
    (hslot : s.pthread.slot t n ≠ 0)
    (hreleased : Released s.mem m' ks vs k (s.pthread.slot t n)) :
    (⟨m', s.pthread.setspecific t n 0, calls⟩ : State T).abs = s.abs.set t n none := by
  refine State.abs_set ⟨m', s.pthread.setspecific t n 0, calls⟩ h
    (h.clear hk hslot hreleased) hreleased.keys (State.callback_ne_none h hk) ?_ ?_
  · show m'.data ((s.pthread.setspecific t n 0).slot t n) = none
    rw [Pthread.slot_setspecific_self, hreleased.data, Function.update_of_ne (Ne.symm hslot),
      h.data_zero]
  · intro k' n' t' hk' hne
    show m'.data ((s.pthread.setspecific t n 0).slot t' n') = _
    rw [s.pthread.slot_setspecific_of_ne 0 hne, hreleased.data,
      Function.update_of_ne (h.slot_ne hk hk' hslot hne)]

/-- The call goes on with the key that it finds. -/
lemma flsSetValue_found (h : Registry s.mem s.pthread ks vs) {k : Addr} {key : FlsKey}
    (hkey : s.mem.flsKey k = some key) (thread : T) (lpFlsData : Addr) (block : Option Addr)
    (result : ℕ) :
    flsSetValue s thread key.key lpFlsData block result =
      if lpFlsData = 0 then
        if s.pthread.slot thread key.key = 0 then some (s, .ok TRUE)
        else if result ≠ 0 then some (s, .error (lastError result))
        else
          (fls_unlink_value s.mem (s.pthread.slot thread key.key)).bind fun m =>
            (m.heapFreeValue (s.pthread.slot thread key.key)).map fun m' =>
              ({ s with mem := m', pthread := s.pthread.setspecific thread key.key 0 }, .ok TRUE)
      else if s.pthread.slot thread key.key = 0 then
        storeNew s thread k key lpFlsData block result
      else
        (s.mem.setValue (s.pthread.slot thread key.key) fun v =>
          { v with value := lpFlsData }).bind fun m =>
            storeSlot s m thread key.key (s.pthread.slot thread key.key) false result := by
  have hk := Memory.number_of_flsKey hkey
  rw [flsSetValue, h.fls_find_key_eq hk, Option.bind_some, if_neg (h.key_ne_zero hk), hkey,
    Option.bind_some]

/-- An entry that is not there is not changed by taking it out. -/
lemma Spec.set_same {a : Spec T} {t : T} {n : PthreadKey} {v : Option Addr}
    (h : a.value t n = v) : a.set t n v = a := by
  have hvalue : (a.set t n v).value = a.value := by
    ext1 t'
    ext1 n'
    show (if t' = t ∧ n' = n then v else a.value t' n') = a.value t' n'
    by_cases hsame : t' = t ∧ n' = n
    · rw [if_pos hsame, hsame.1, hsame.2, h]
    · rw [if_neg hsame]
  rw [Spec.set] at hvalue ⊢
  dsimp only at hvalue
  rw [hvalue]

/-- A slot that is set to the record it holds. -/
lemma Pthread.setspecific_same (p : Pthread T) (t : T) (n : PthreadKey) :
    p.setspecific t n (p.slot t n) = p := by
  have hslots : (p.setspecific t n (p.slot t n)).slot = p.slot := by
    ext1 t'
    ext1 n'
    by_cases hsame : t' = t ∧ n' = n
    · rw [hsame.1, hsame.2, slot_setspecific_self]
    · rw [p.slot_setspecific_of_ne _ hsame]
  rw [Pthread.setspecific] at hslots ⊢
  dsimp only at hslots
  rw [hslots]

section

variable {k : Addr} {n : PthreadKey} {thread : T} {lpFlsData : Addr} {block : Option Addr}
  {result : ℕ}

omit [DecidableEq T] in
/-- A call that finds the key, and has a record or a block for one, returns what
`pthread_setspecific` does. -/
lemma Spec.outcome_flsSetValue {a : Spec T} (hcb : a.callback n ≠ none)
    (hset : lpFlsData = 0 → a.value thread n ≠ none)
    (halloc : a.value thread n = none → block ≠ none) :
    a.outcome (.flsSetValue thread n lpFlsData block result) =
      if result = 0 then .ok TRUE else .error (lastError result) := by
  rw [Spec.outcome, if_neg hcb, if_neg fun hn => hset hn.1 hn.2, if_neg fun hn => halloc hn.1 hn.2]

/-- A pointer is taken out. -/
lemma flsSetValue_null (h : Registry s.mem s.pthread ks vs) (hk : s.mem.number k = some n) :
    ∃ s' outcome, flsSetValue s thread n 0 block result = some (s', outcome) ∧
      Refines s (.flsSetValue thread n 0 block result) s' outcome := by
  have hpasses : ∀ e, ¬ s.abs.Passes (.flsSetValue thread n 0 block result) e :=
    fun e he => he.ends
  obtain ⟨key, hkey, rfl⟩ := Memory.flsKey_of_number hk
  have hcb := State.callback_ne_none h hk
  rw [flsSetValue_found h hkey, if_pos rfl]
  by_cases hslot : s.pthread.slot thread key.key = 0
  · -- there is no entry to be taken out
    have hvalue := State.value_of_no_slot h hk hslot
    rw [if_pos hslot]
    refine ⟨s, _, rfl, .of_same ⟨ks, vs, h⟩ ?_ ?_ rfl hpasses⟩
    · rw [Spec.outcome, if_neg hcb, if_pos ⟨rfl, hvalue⟩]
    · rw [Spec.next]
      split
      · rw [if_pos rfl, Spec.set_same hvalue]
      · rfl
  · have hvalue := State.value_ne_none h hk hslot
    have houtcome : s.abs.outcome (.flsSetValue thread key.key 0 block result) =
        if result = 0 then .ok TRUE else .error (lastError result) :=
      Spec.outcome_flsSetValue hcb (fun _ => hvalue) fun hnone => absurd hnone hvalue
    rw [if_neg hslot]
    by_cases hresult : result = 0
    · have hmem := h.slotted k key.key hk thread hslot
      obtain ⟨m', hrelease, hreleased⟩ := h.toLists.release (h.keyPlaced k _ hk) hmem
      obtain ⟨m₁, hunlink, hfree⟩ := Option.bind_eq_some_iff.mp hrelease
      rw [if_neg (not_not.mpr hresult), hunlink, Option.bind_some, hfree, Option.map_some]
      refine ⟨_, _, rfl, .of_same ⟨_, _, h.clear hk hslot hreleased⟩ ?_ ?_ rfl hpasses⟩
      · rw [houtcome, if_pos hresult]
      · rw [Spec.next, if_pos ⟨Option.isSome_iff_ne_none.mpr hcb, if_pos rfl ▸ hresult⟩,
          if_pos rfl]
        exact State.abs_clear h s.calls hk hslot hreleased
    · rw [if_pos hresult]
      refine ⟨s, _, rfl, .of_same ⟨ks, vs, h⟩ ?_ ?_ rfl hpasses⟩
      · rw [houtcome, if_neg hresult]
      · rw [Spec.next, if_neg]
        intro hstores
        have hzero := hstores.2
        rw [if_pos rfl] at hzero
        exact hresult hzero

/-- A thread that had no entry stores a pointer. -/
lemma flsSetValue_new (h : Registry s.mem s.pthread ks vs) (hk : s.mem.number k = some n)
    (hdata : lpFlsData ≠ 0) (hslot : s.pthread.slot thread n = 0)
    (hfresh : ∀ a ∈ block, s.mem.Fresh a) :
    ∃ s' outcome, flsSetValue s thread n lpFlsData block result = some (s', outcome) ∧
      Refines s (.flsSetValue thread n lpFlsData block result) s' outcome := by
  have hpasses : ∀ e, ¬ s.abs.Passes (.flsSetValue thread n lpFlsData block result) e :=
    fun e he => he.ends
  obtain ⟨key, hkey, rfl⟩ := Memory.flsKey_of_number hk
  have hcb := State.callback_ne_none h hk
  have hks := h.keyPlaced k _ hk
  have hvalue := State.value_of_no_slot h hk hslot
  rw [flsSetValue_found h hkey, if_neg hdata, if_pos hslot]
  match block with
  | none =>
    -- there is no memory for the record
    refine ⟨s, .error ERROR_NOT_ENOUGH_MEMORY, rfl, .of_same ⟨ks, vs, h⟩ ?_ ?_ rfl hpasses⟩
    · rw [Spec.outcome, if_neg hcb, if_neg fun hn => hdata hn.1, if_pos ⟨hvalue, rfl⟩]
    · rw [Spec.next, if_neg]
      intro hstores
      have hcases := hstores.2
      rw [if_neg hdata, hvalue] at hcases
      rcases hcases with hsome | hsome
      · cases hsome
      · cases hsome.1
  | some r =>
    -- the record is linked first, and stored in the slot then
    obtain ⟨hr0, -, hr⟩ := hfresh r rfl
    have hr' : s.mem.owner r = none := by rw [Memory.owner, hr, Option.map_none]
    have hd : s.mem.data r = none := by rw [Memory.data, hr, Option.map_none]
    obtain ⟨m', hpush, hkeys, hblocks, howner, hdata', hload⟩ :=
      Memory.push_value (r := r) (d := lpFlsData) hkey
    obtain ⟨m₁, hset, hstore⟩ := Option.bind_eq_some_iff.mp hpush
    have hlists := h.toLists.push hks hr0 hr' (Memory.loadValue_values hkey) howner hblocks hload
    have houtcome : s.abs.outcome (.flsSetValue thread key.key lpFlsData (some r) result) =
        if result = 0 then .ok TRUE else .error (lastError result) :=
      Spec.outcome_flsSetValue hcb (fun hzero => absurd hzero hdata)
        fun _ => Option.some_ne_none r
    rw [storeNew, hset, Option.bind_some, hstore, Option.bind_some, storeSlot]
    by_cases hresult : result = 0
    · rw [if_pos hresult]
      have h' := h.store hk hslot hr0 hr' hdata hkeys hblocks howner hdata' hlists
      refine ⟨_, _, rfl, .of_same ⟨_, _, h'⟩ ?_ ?_ rfl hpasses⟩
      · rw [houtcome, if_pos hresult]
      · rw [Spec.next, if_pos, if_neg hdata]
        · refine State.abs_set ⟨m', s.pthread.setspecific thread key.key r, s.calls⟩ h h'
            hkeys hcb ?_ ?_
          · show m'.data (if thread = thread ∧ key.key = key.key then r else _) = _
            rw [if_pos ⟨rfl, rfl⟩, hdata', Function.update_self]
          · intro k' n' t' hk' hne
            show m'.data (if t' = thread ∧ n' = key.key then r else s.pthread.slot t' n') = _
            rw [if_neg hne, hdata', Function.update_of_ne]
            intro heq
            have hmem := h.slotted k' n' hk' t' (heq ▸ hr0)
            rw [heq] at hmem
            rw [h.owner k' (h.keyPlaced k' n' hk') r hmem] at hr'
            cases hr'
        · refine ⟨Option.isSome_iff_ne_none.mpr hcb, ?_⟩
          rw [if_neg hdata]
          exact Or.inr ⟨rfl, hresult⟩
    · -- the record is taken back
      obtain ⟨m'', hrelease, h', hkeys', hdata''⟩ :=
        h.takeBack hks hr' hd hkeys hblocks howner hdata' hlists
      obtain ⟨m₂, hunlink, hfree⟩ := Option.bind_eq_some_iff.mp hrelease
      rw [if_neg hresult, if_pos rfl, hunlink, Option.bind_some, hfree, Option.map_some]
      refine ⟨⟨m'', s.pthread, s.calls⟩, _, rfl, .of_same ⟨_, _, h'⟩ ?_ ?_ rfl hpasses⟩
      · rw [houtcome, if_neg hresult]
      · rw [Spec.next, if_neg]
        · exact State.abs_same ⟨m'', s.pthread, s.calls⟩ h h' hkeys'.number
            hkeys'.callback hdata'' rfl
        · intro hstores
          have hcases := hstores.2
          rw [if_neg hdata, hvalue] at hcases
          rcases hcases with hsome | hsome
          · cases hsome
          · exact hresult hsome.2

/-- A thread replaces its entry. -/
lemma flsSetValue_replace (h : Registry s.mem s.pthread ks vs) (hk : s.mem.number k = some n)
    (hdata : lpFlsData ≠ 0) (hslot : s.pthread.slot thread n ≠ 0) :
    ∃ s' outcome, flsSetValue s thread n lpFlsData block result = some (s', outcome) ∧
      Refines s (.flsSetValue thread n lpFlsData block result) s' outcome := by
  have hpasses : ∀ e, ¬ s.abs.Passes (.flsSetValue thread n lpFlsData block result) e :=
    fun e he => he.ends
  obtain ⟨key, hkey, rfl⟩ := Memory.flsKey_of_number hk
  have hcb := State.callback_ne_none h hk
  have hks := h.keyPlaced k _ hk
  have hvalue := State.value_ne_none h hk hslot
  have howner := h.owner k hks _ (h.slotted k key.key hk thread hslot)
  obtain ⟨m', hset, hkeys, hblocks, howner', hdata', hload⟩ := Memory.set_data howner lpFlsData
  have h' : Registry m' s.pthread ks vs := by
    apply h.congr (h.toLists.congr (fun _ hk => hk) howner' hload (Nat.le_of_eq hblocks.symm))
    · rw [hkeys.loadKey]
      exact h.keys
    · rw [hblocks]
      exact h.keysBound
    · intro k'
      exact Iff.rfl
    · exact hkeys.number
    · exact howner'
    · intro r d' hr
      rw [hdata'] at hr
      by_cases hrr : r = s.pthread.slot thread key.key
      · rw [hrr, Function.update_self] at hr
        exact Option.some.inj hr ▸ hdata
      · rw [Function.update_of_ne hrr] at hr
        exact h.stored r d' hr
  -- the record keeps its place, and only its value changes
  have habs : (⟨m', s.pthread, s.calls⟩ : State T).abs =
      s.abs.next (.flsSetValue thread key.key lpFlsData block result) := by
    rw [Spec.next, if_pos, if_neg hdata]
    · refine State.abs_set ⟨m', s.pthread, s.calls⟩ h h' hkeys hcb ?_ ?_
      · show m'.data (s.pthread.slot thread key.key) = _
        rw [hdata', Function.update_self]
      · intro k' n' t' hk' hne
        show m'.data (s.pthread.slot t' n') = _
        rw [hdata', Function.update_of_ne (h.slot_ne hk hk' hslot hne)]
    · refine ⟨Option.isSome_iff_ne_none.mpr hcb, ?_⟩
      rw [if_neg hdata]
      exact Or.inl (Option.isSome_iff_ne_none.mpr hvalue)
  have houtcome : s.abs.outcome (.flsSetValue thread key.key lpFlsData block result) =
      if result = 0 then .ok TRUE else .error (lastError result) :=
    Spec.outcome_flsSetValue hcb (fun hzero => absurd hzero hdata)
      fun hnone => absurd hnone hvalue
  rw [flsSetValue_found h hkey, if_neg hdata, if_neg hslot, hset, Option.bind_some, storeSlot,
    Pthread.setspecific_same]
  by_cases hresult : result = 0
  · rw [if_pos hresult]
    refine ⟨_, _, rfl, .of_same ⟨_, _, h'⟩ ?_ habs rfl hpasses⟩
    rw [houtcome, if_pos hresult]
  · rw [if_neg hresult, if_neg Bool.false_ne_true]
    refine ⟨_, _, rfl, .of_same ⟨_, _, h'⟩ ?_ habs rfl hpasses⟩
    rw [houtcome, if_neg hresult]

theorem flsSetValue_refines (h : Registry s.mem s.pthread ks vs)
    (hdoc : Op.Documented s (.flsSetValue thread n lpFlsData block result)) :
    ∃ s' outcome, flsSetValue s thread n lpFlsData block result = some (s', outcome) ∧
      Refines s (.flsSetValue thread n lpFlsData block result) s' outcome := by
  by_cases hn : ∃ k, s.mem.number k = some n
  · obtain ⟨k, hk⟩ := hn
    by_cases hdata : lpFlsData = 0
    · rw [hdata]
      exact flsSetValue_null h hk
    · by_cases hslot : s.pthread.slot thread n = 0
      · exact flsSetValue_new h hk hdata hslot hdoc
      · exact flsSetValue_replace h hk hdata hslot
  · have hnone := not_exists.mp hn
    have hcallback := State.callback_none h hnone
    refine ⟨s, .error ERROR_INVALID_PARAMETER, ?_,
      .of_same ⟨ks, vs, h⟩ ?_ ?_ rfl fun e he => he.ends⟩
    · rw [flsSetValue, h.fls_find_key_none hnone, Option.bind_some, if_pos rfl]
    · rw [Spec.outcome, if_pos hcallback]
    · rw [Spec.next, if_neg]
      intro hstores
      have hsome := hstores.1
      rw [hcallback] at hsome
      cases hsome

end

end Fls
end ClamavWin32
