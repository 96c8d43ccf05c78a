import ClamavWin32.Fls.FlsMemory
import ClamavWin32.Fls.FlsSpec
import Mathlib.Data.Set.List

/-!
# The registry of the keys and the records

`Registry m p ks vs` says how the memory and the thread library fit together while no operation
is under way: `ks` are the keys on the list at `fls_keys`, `vs k` the records on the list of
the key `k`, and every record is the value of one thread for the key that owns it.

* `Lists` is the part about the lists of records alone;
* `Registry.fls_find_key_eq` and `fls_find_key_none`: what a call finds for an index;
* `State.abs` is the table that the state stands for.
-/

namespace ClamavWin32
namespace Fls

variable {T : Type*} {m m' : Memory} {p : Pthread T} {ks : List Addr} {vs : Addr → List Addr}

/-! ## The lists of records -/

/-- The lists of records of the keys `ks`. -/
structure Lists (m : Memory) (ks : List Addr) (vs : Addr → List Addr) : Prop where
  values : ∀ k ∈ ks, ListAt m.loadValue .next (.values k) (vs k)
  owner : ∀ k ∈ ks, ∀ r ∈ vs k, m.owner r = some k
  bound : ∀ k ∈ ks, (vs k).length ≤ m.blocks

/-- The lists with the record taken out. -/
def erased (vs : Addr → List Addr) (k r : Addr) : Addr → List Addr :=
  Function.update vs k ((vs k).erase r)

lemma erased_self (vs : Addr → List Addr) (k r : Addr) : erased vs k r k = (vs k).erase r :=
  Function.update_self ..

lemma erased_of_ne {k k' : Addr} (vs : Addr → List Addr) (r : Addr) (h : k' ≠ k) :
    erased vs k r k' = vs k' := Function.update_of_ne h _ _

lemma mem_of_mem_erased {k k' r r' : Addr} (h : r' ∈ erased vs k r k') : r' ∈ vs k' := by
  by_cases hk : k' = k
  · rw [hk, erased_self] at h
    rw [hk]
    exact List.mem_of_mem_erase h
  · rwa [erased_of_ne vs r hk] at h

lemma length_erased_le (vs : Addr → List Addr) (k r k' : Addr) :
    (erased vs k r k').length ≤ (vs k').length := by
  by_cases hk : k' = k
  · rw [hk, erased_self]
    exact List.length_erase_le
  · rw [erased_of_ne vs r hk]

/-- A record that is free stays so when another one is freed. -/
lemma update_none_of_none {owner : Addr → Option Addr} {b : Addr} (hb : owner b = none)
    (r : Addr) : Function.update owner r none b = none := by
  by_cases hbr : b = r
  · rw [hbr, Function.update_self]
  · rw [Function.update_of_ne hbr, hb]

namespace Lists

/-- A record is on the list of its owner only. -/
lemma not_mem (h : Lists m ks vs) {k k' r : Addr} (hk' : k' ∈ ks) (hr : m.owner r = some k)
    (hne : k' ≠ k) : r ∉ vs k' := by
  intro hmem
  have howner := h.owner k' hk' r hmem
  exact hne (Option.some.inj (howner.symm.trans hr))

lemma mem_erased (h : Lists m ks vs) {k k' r r' : Addr} (hk' : k' ∈ ks) :
    r' ∈ erased vs k r k' ↔ r' ∈ vs k' ∧ (k' = k → r' ≠ r) := by
  by_cases hk : k' = k
  · subst hk
    rw [erased_self, (h.values k' hk').nodup.mem_erase_iff]
    exact ⟨fun hmem => ⟨hmem.2, fun _ => hmem.1⟩, fun hmem => ⟨hmem.2 rfl, hmem.1⟩⟩
  · rw [erased_of_ne vs r hk]
    exact ⟨fun hmem => ⟨hmem, fun heq => absurd heq hk⟩, fun hmem => hmem.1⟩

/-- A record is taken out of the list of its owner. -/
theorem unlink (h : Lists m ks vs) {k r : Addr} (hr : r ≠ 0)
    (howner : m.owner r = some k) (hvalues : m'.owner = m.owner) (hblocks : m'.blocks = m.blocks)
    (hlist : ListAt m'.loadValue .next (.values k) ((vs k).erase r))
    (hother : ∀ l, m.loadValue l ≠ some r → m'.loadValue l = m.loadValue l) :
    Lists m' ks (erased vs k r) := by
  constructor
  · intro k' hk'
    by_cases hne : k' = k
    · rw [hne, erased_self]
      exact hlist
    · rw [erased_of_ne vs r hne]
      exact (h.values k' hk').frame_of_not_mem (h.not_mem hk' howner hne) hr hother
  · intro k' hk' r' hr'
    rw [hvalues]
    exact h.owner k' hk' r' (mem_of_mem_erased hr')
  · intro k' hk'
    rw [hblocks]
    exact (length_erased_le vs k r k').trans (h.bound k' hk')

/-- A record off the lists is freed. -/
theorem free (h : Lists m ks vs) {r : Addr} (hr : ∀ k ∈ ks, r ∉ vs k)
    (howner : m'.owner = Function.update m.owner r none) (hblocks : m'.blocks = m.blocks)
    (hload : m'.loadValue = Function.update m.loadValue (.next r) none) : Lists m' ks vs := by
  have hne : ∀ k ∈ ks, ∀ r' ∈ vs k, r' ≠ r := fun k hk r' hr' heq => hr k hk (heq ▸ hr')
  constructor
  · intro k hk
    apply (h.values k hk).frame
    · rw [hload, Function.update_of_ne (ValueLink.noConfusion)]
    · intro r' hr'
      rw [hload, Function.update_of_ne (valueLink_next_injective.ne (hne k hk r' hr'))]
  · intro k hk r' hr'
    rw [howner, Function.update_of_ne (hne k hk r' hr')]
    exact h.owner k hk r' hr'
  · intro k hk
    rw [hblocks]
    exact h.bound k hk

/-- A new record is put in front of the list of a key. -/
theorem push (h : Lists m ks vs) {k r a : Addr} (hk : k ∈ ks) (hr0 : r ≠ 0)
    (hr : m.owner r = none) (ha : m.loadValue (.values k) = some a)
    (howner : m'.owner = Function.update m.owner r (some k)) (hblocks : m'.blocks = m.blocks + 1)
    (hload : m'.loadValue = Function.update (Function.update m.loadValue (.next r) (some a))
      (.values k) (some r)) :
    Lists m' ks (Function.update vs k (r :: vs k)) := by
  -- the record has had no owner, so it is in none of the lists
  have hne : ∀ k' ∈ ks, ∀ r' ∈ vs k', r' ≠ r := by
    intro k' hk' r' hr' heq
    rw [heq] at hr'
    rw [h.owner k' hk' r hr'] at hr
    cases hr
  have hnext : ∀ k' ∈ ks, ∀ r' ∈ vs k', m'.loadValue (.next r') = m.loadValue (.next r') := by
    intro k' hk' r' hr'
    rw [hload, Function.update_of_ne (ValueLink.noConfusion),
      Function.update_of_ne (valueLink_next_injective.ne (hne k' hk' r' hr'))]
  constructor
  · intro k' hk'
    by_cases hkk : k' = k
    · subst hkk
      rw [Function.update_self]
      apply (h.values k' hk').push hr0
      · rw [hload, Function.update_self]
      · rw [hload, Function.update_of_ne (ValueLink.noConfusion), Function.update_self, ha]
      · exact hnext k' hk'
    · rw [Function.update_of_ne hkk]
      apply (h.values k' hk').frame _ (hnext k' hk')
      rw [hload, Function.update_of_ne (valueLink_values_injective.ne hkk),
        Function.update_of_ne (ValueLink.noConfusion)]
  · intro k' hk' r' hr'
    rw [howner]
    by_cases hkk : k' = k
    · subst hkk
      rw [Function.update_self] at hr'
      rcases List.mem_cons.mp hr' with rfl | hr'
      · exact Function.update_self ..
      · rw [Function.update_of_ne (hne k' hk' r' hr')]
        exact h.owner k' hk' r' hr'
    · rw [Function.update_of_ne hkk] at hr'
      rw [Function.update_of_ne (hne k' hk' r' hr')]
      exact h.owner k' hk' r' hr'
  · intro k' hk'
    have hbound := h.bound k' hk'
    rw [hblocks]
    by_cases hkk : k' = k
    · subst hkk
      rw [Function.update_self, List.length_cons]
      omega
    · rw [Function.update_of_ne hkk]
      omega

/-- Another memory, and fewer keys. -/
lemma congr (h : Lists m ks vs) {ks' : List Addr} (hsub : ∀ k ∈ ks', k ∈ ks)
    (howner : m'.owner = m.owner) (hload : m'.loadValue = m.loadValue)
    (hblocks : m.blocks ≤ m'.blocks) : Lists m' ks' vs := by
  constructor
  · intro k hk
    rw [hload]
    exact h.values k (hsub k hk)
  · intro k hk r hr
    rw [howner]
    exact h.owner k (hsub k hk) r hr
  · intro k hk
    exact (h.bound k (hsub k hk)).trans hblocks

/-- A new key has no records. -/
theorem addKey (h : Lists m ks vs) {k : Addr} (hne : ∀ k' ∈ ks, k' ≠ k)
    (hvalues : Memory.SameValues m m') (hblocks : m'.blocks = m.blocks + 1)
    (hload : m'.loadValue = Function.update m.loadValue (.values k) (some 0)) :
    Lists m' (k :: ks) (Function.update vs k []) := by
  have hvs : ∀ k' ∈ ks, Function.update vs k [] k' = vs k' := fun k' hk' =>
    Function.update_of_ne (hne k' hk') _ _
  constructor
  · intro k' hk'
    rcases List.mem_cons.mp hk' with rfl | hk'
    · rw [Function.update_self]
      show m'.loadValue (.values k') = some 0
      rw [hload, Function.update_self]
    · rw [hvs k' hk']
      apply (h.values k' hk').frame
      · rw [hload, Function.update_of_ne (valueLink_values_injective.ne (hne k' hk'))]
      · intro r hr
        rw [hload, Function.update_of_ne (ValueLink.noConfusion)]
  · intro k' hk' r hr
    rcases List.mem_cons.mp hk' with rfl | hk'
    · rw [Function.update_self] at hr
      cases hr
    · rw [hvs k' hk'] at hr
      rw [hvalues.owner]
      exact h.owner k' hk' r hr
  · intro k' hk'
    rcases List.mem_cons.mp hk' with rfl | hk'
    · rw [Function.update_self]
      exact Nat.zero_le _
    · rw [hvs k' hk', hblocks]
      exact (h.bound k' hk').trans (Nat.le_succ _)

/-- A key is gone, and its records with it. -/
theorem dropKey (h : Lists m ks vs) {k : Addr} {ks' : List Addr} (hk : k ∈ ks)
    (hmem : ∀ k', k' ∈ ks' ↔ k' ∈ ks ∧ k' ≠ k) (hblocks : m'.blocks = m.blocks)
    (howner : ∀ r, m'.owner r = if r ∈ vs k then none else m.owner r)
    (hload : ∀ l, l ≠ .values k → (∀ r ∈ vs k, l ≠ .next r) →
      m'.loadValue l = m.loadValue l) : Lists m' ks' vs := by
  -- the records of the other keys are not among those of this one
  have hother : ∀ k' ∈ ks', ∀ r ∈ vs k', r ∉ vs k := by
    intro k' hk' r hr hrk
    obtain ⟨hk', hne⟩ := (hmem k').mp hk'
    exact h.not_mem hk (h.owner k' hk' r hr) (Ne.symm hne) hrk
  constructor
  · intro k' hk'
    obtain ⟨hk'', hne⟩ := (hmem k').mp hk'
    apply (h.values k' hk'').frame
    · exact hload _ (valueLink_values_injective.ne hne) fun r _ => ValueLink.noConfusion
    · intro r hr
      apply hload _ ValueLink.noConfusion
      intro r' hr' heq
      exact hother k' hk' r hr (ValueLink.next.inj heq ▸ hr')
  · intro k' hk' r hr
    rw [howner, if_neg (hother k' hk' r hr)]
    exact h.owner k' ((hmem k').mp hk').1 r hr
  · intro k' hk'
    rw [hblocks]
    exact h.bound k' ((hmem k').mp hk').1

end Lists

/-- What becomes of the memory when a record is taken out of the list of its owner and freed. -/
structure Released (m m' : Memory) (ks : List Addr) (vs : Addr → List Addr) (k r : Addr) :
    Prop where
  keys : Memory.SameKeys m m'
  blocks : m'.blocks = m.blocks
  owner : m'.owner = Function.update m.owner r none
  data : m'.data = Function.update m.data r none
  lists : Lists m' ks (erased vs k r)

/-- A record that was taken out of the list of its owner is freed. -/
lemma Lists.released (h : Lists m ks vs) {k r : Addr} (hk : k ∈ ks) (hr : r ∈ vs k)
    (hkeys : Memory.SameKeys m m') (hvalues : Memory.SameValues m m')
    (hblocks : m'.blocks = m.blocks)
    (hlist : ListAt m'.loadValue .next (.values k) ((vs k).erase r))
    (hother : ∀ l, m.loadValue l ≠ some r → m'.loadValue l = m.loadValue l) :
    ∃ m'', m'.heapFreeValue r = some m'' ∧ Released m m'' ks vs k r := by
  have howner := h.owner k hk r hr
  have hlists : Lists m' ks (erased vs k r) :=
    h.unlink ((h.values k hk).ne_zero hr) howner hvalues.owner hblocks hlist hother
  obtain ⟨m'', hfree, hkeys', hblocks', howner', hdata', hload'⟩ :=
    Memory.free_value (hvalues.owner.symm ▸ howner)
  refine ⟨m'', hfree, hkeys.trans hkeys', hblocks'.trans hblocks, ?_, ?_, ?_⟩
  · rw [howner', hvalues.owner]
  · rw [hdata', hvalues.data]
  · refine hlists.free ?_ howner' hblocks' hload'
    intro k' hk' hmem
    have hmem' := (h.mem_erased hk').mp hmem
    have hkk : k' = k := Option.some.inj ((h.owner k' hk' r hmem'.1).symm.trans howner)
    exact hmem'.2 hkk rfl

/-- `FlsSetValue` takes a record back. -/
lemma Lists.release (h : Lists m ks vs) {k r : Addr} (hk : k ∈ ks) (hr : r ∈ vs k) :
    ∃ m', (fls_unlink_value m r).bind (fun m₁ => m₁.heapFreeValue r) = some m' ∧
      Released m m' ks vs k r := by
  obtain ⟨m₁, hunlink, hkeys, hvalues, hblocks, hlist, hother⟩ :=
    Memory.unlink_value (h.values k hk) (h.owner k hk r hr) hr (h.bound k hk)
  obtain ⟨m', hfree, hreleased⟩ := h.released hk hr hkeys hvalues hblocks hlist hother
  refine ⟨m', ?_, hreleased⟩
  rw [hunlink, Option.bind_some, hfree]

/-- **`fls_destroy_value`.** The record is taken out and freed, and the callback is called with
what it holds. -/
lemma Lists.destroy (h : Lists m ks vs) {k r d cb : Addr} (hk : k ∈ ks) (hr : r ∈ vs k)
    (hdata : m.data r = some d) (hcallback : m.callback k = some cb) :
    ∃ m', fls_destroy_value m r = some (m', callsOf cb d) ∧ Released m m' ks vs k r := by
  obtain ⟨m₁, hlocked, hkeys, hvalues, hblocks, hlist, hother⟩ :=
    Memory.destroyLocked_eq (h.values k hk) (h.owner k hk r hr) hr (h.bound k hk) hdata
      hcallback
  obtain ⟨m', hfree, hreleased⟩ := h.released hk hr hkeys hvalues hblocks hlist hother
  refine ⟨m', ?_, hreleased⟩
  rw [fls_destroy_value, if_neg ((h.values k hk).ne_zero hr), hlocked]
  dsimp only
  rw [hfree, Option.map_some]

/-! ## The registry -/

/-- The keys are on their list, every record is on the list of its owner, and the records of a
key are the values of the threads for it. -/
structure Registry (m : Memory) (p : Pthread T) (ks : List Addr) (vs : Addr → List Addr) :
    Prop extends Lists m ks vs where
  keys : ListAt m.loadKey .next .fls_keys ks
  keysBound : ks.length ≤ m.blocks
  keyPlaced : ∀ k n, m.number k = some n → k ∈ ks
  live : ∀ n, p.live n = true ↔ ∃ k ∈ ks, m.number k = some n
  number : ∀ k ∈ ks, ∃ n, m.number k = some n
  injective : ∀ k k' n, m.number k = some n → m.number k' = some n → k = k'
  placed : ∀ r k, m.owner r = some k → k ∈ ks ∧ r ∈ vs k
  stored : ∀ r d, m.data r = some d → d ≠ 0
  held : ∀ k n, m.number k = some n → ∀ r ∈ vs k, ∃ t, p.slot t n = r
  slotted : ∀ k n, m.number k = some n → ∀ t, p.slot t n ≠ 0 → p.slot t n ∈ vs k
  single : ∀ k n, m.number k = some n → ∀ t t', p.slot t n ≠ 0 → p.slot t n = p.slot t' n →
    t = t'

/-- The registry of a state at rest. -/
def State.Rests (s : State T) : Prop := ∃ ks vs, Registry s.mem s.pthread ks vs

namespace Registry

lemma key_ne_zero (h : Registry m p ks vs) {k : Addr} {n : PthreadKey}
    (hk : m.number k = some n) : k ≠ 0 := h.keys.ne_zero (h.keyPlaced k n hk)

lemma value_ne_zero (h : Registry m p ks vs) {r k : Addr} (hr : m.owner r = some k) :
    r ≠ 0 := by
  obtain ⟨hk, hmem⟩ := h.placed r k hr
  exact (h.values k hk).ne_zero hmem

/-- No record is at `NULL`. -/
lemma data_zero (h : Registry m p ks vs) : m.data 0 = none := by
  cases hdata : m.data 0 with
  | none => rfl
  | some d =>
    obtain ⟨v, hv, -⟩ := Option.map_eq_some_iff.mp hdata
    exact absurd rfl (h.value_ne_zero (Memory.owner_of_flsValue hv))

/-- An index that is no key has no key. -/
lemma number_ne (h : Registry m p ks vs) {index : PthreadKey}
    (hnone : ∀ k, m.number k ≠ some index) : ∀ k ∈ ks, ∃ n, m.number k = some n ∧ n ≠ index := by
  intro k hk
  obtain ⟨n, hn⟩ := h.number k hk
  refine ⟨n, hn, ?_⟩
  intro heq
  rw [heq] at hn
  exact hnone k hn

/-- The keys before a key, with other numbers. -/
lemma split (h : Registry m p ks vs) {k : Addr} {n : PthreadKey} (hk : m.number k = some n) :
    ∃ pre post, ks = pre ++ k :: post ∧ ∀ y ∈ pre, ∃ n', m.number y = some n' ∧ n' ≠ n := by
  obtain ⟨pre, post, heq⟩ := List.append_of_mem (h.keyPlaced k n hk)
  refine ⟨pre, post, heq, ?_⟩
  intro y hy
  have hmem : y ∈ ks := by
    rw [heq]
    exact List.mem_append_left _ hy
  obtain ⟨n', hn'⟩ := h.number y hmem
  refine ⟨n', hn', ?_⟩
  intro hnn
  rw [hnn] at hn'
  have hyk := h.injective y k n hn' hk
  have hnodup := h.keys.nodup
  rw [heq] at hnodup
  exact (List.nodup_append.mp hnodup).2.2 y hy k List.mem_cons_self hyk

/-- The key with the index is found. -/
lemma fls_find_key_eq (h : Registry m p ks vs) {k : Addr} {n : PthreadKey}
    (hk : m.number k = some n) : fls_find_key m n = some k := by
  obtain ⟨pre, post, rfl, hpre⟩ := h.split hk
  rw [fls_find_key, Memory.seekKey_found h.keys h.keysBound hk hpre, Option.map_some]

/-- No key is found for any other index. -/
lemma fls_find_key_none (h : Registry m p ks vs) {index : PthreadKey}
    (hnone : ∀ k, m.number k ≠ some index) : fls_find_key m index = some 0 := by
  rw [fls_find_key, Memory.seekKey_not_found h.keys h.keysBound (h.number_ne hnone),
    Option.map_some]

/-- Another memory with the same keys and records. -/
lemma congr (h : Registry m p ks vs) {ks' : List Addr} (hlists : Lists m' ks' vs)
    (hkeys : ListAt m'.loadKey .next .fls_keys ks') (hbound : ks'.length ≤ m'.blocks)
    (hmem : ∀ k, k ∈ ks' ↔ k ∈ ks) (hnumber : m'.number = m.number)
    (howner : m'.owner = m.owner) (hstored : ∀ r d, m'.data r = some d → d ≠ 0) :
    Registry m' p ks' vs where
  toLists := hlists
  keys := hkeys
  keysBound := hbound
  keyPlaced k n hk := (hmem k).mpr (h.keyPlaced k n (hnumber ▸ hk))
  live n := by
    rw [h.live n, hnumber]
    exact exists_congr fun k => and_congr_left' (hmem k).symm
  number k hk := by
    rw [hnumber]
    exact h.number k ((hmem k).mp hk)
  injective := hnumber ▸ h.injective
  placed r k hr := by
    rw [howner] at hr
    exact ⟨(hmem k).mpr (h.placed r k hr).1, (h.placed r k hr).2⟩
  stored := hstored
  held := hnumber ▸ h.held
  slotted := hnumber ▸ h.slotted
  single := hnumber ▸ h.single

/-- Another memory with the same keys, and other values of the threads for them. -/
lemma of_sameKeys (h : Registry m p ks vs) {p' : Pthread T} {vs' : Addr → List Addr}
    (hlists : Lists m' ks vs') (hkeys : Memory.SameKeys m m') (hblocks : m.blocks ≤ m'.blocks)
    (hlive : p'.live = p.live) (hplaced : ∀ r k, m'.owner r = some k → k ∈ ks ∧ r ∈ vs' k)
    (hstored : ∀ r d, m'.data r = some d → d ≠ 0)
    (hheld : ∀ k n, m.number k = some n → ∀ r ∈ vs' k, ∃ t, p'.slot t n = r)
    (hslotted : ∀ k n, m.number k = some n → ∀ t, p'.slot t n ≠ 0 → p'.slot t n ∈ vs' k)
    (hsingle : ∀ k n, m.number k = some n → ∀ t t', p'.slot t n ≠ 0 →
      p'.slot t n = p'.slot t' n → t = t') : Registry m' p' ks vs' where
  toLists := hlists
  keys := hkeys.loadKey ▸ h.keys
  keysBound := h.keysBound.trans hblocks
  keyPlaced := hkeys.number ▸ h.keyPlaced
  live n := by
    rw [hlive, hkeys.number]
    exact h.live n
  number := hkeys.number ▸ h.number
  injective := hkeys.number ▸ h.injective
  placed := hplaced
  stored := hstored
  held := hkeys.number ▸ hheld
  slotted := hkeys.number ▸ hslotted
  single := hkeys.number ▸ hsingle

/-- A new record that is taken back leaves the registry as it was. -/
lemma takeBack (h : Registry m p ks vs) {k r d : Addr} (hk : k ∈ ks) (hr : m.owner r = none)
    (hd : m.data r = none) (hkeys : Memory.SameKeys m m') (hblocks : m'.blocks = m.blocks + 1)
    (howner : m'.owner = Function.update m.owner r (some k))
    (hdata : m'.data = Function.update m.data r (some d))
    (hlists : Lists m' ks (Function.update vs k (r :: vs k))) :
    ∃ m'', (fls_unlink_value m' r).bind (fun m₁ => m₁.heapFreeValue r) = some m'' ∧
      Registry m'' p ks vs ∧ Memory.SameKeys m m'' ∧ m''.data = m.data := by
  have hmem : r ∈ Function.update vs k (r :: vs k) k := by
    rw [Function.update_self]
    exact List.mem_cons_self
  obtain ⟨m'', hrelease, hreleased⟩ := hlists.release hk hmem
  have hvs : erased (Function.update vs k (r :: vs k)) k r = vs := by
    rw [erased, Function.update_self, List.erase_cons_head, Function.update_idem,
      Function.update_eq_self]
  have howner' : m''.owner = m.owner := by
    rw [hreleased.owner, howner, Function.update_idem]
    exact Function.update_eq_self_iff.mpr hr.symm
  have hdata' : m''.data = m.data := by
    rw [hreleased.data, hdata, Function.update_idem]
    exact Function.update_eq_self_iff.mpr hd.symm
  have hkeys' := hkeys.trans hreleased.keys
  refine ⟨m'', hrelease, ?_, hkeys', hdata'⟩
  apply h.congr (hvs ▸ hreleased.lists)
  · rw [hkeys'.loadKey]
    exact h.keys
  · rw [hreleased.blocks, hblocks]
    exact h.keysBound.trans (Nat.le_succ _)
  · intro k'
    exact Iff.rfl
  · exact hkeys'.number
  · exact howner'
  · rw [hdata']
    exact h.stored

/-- Two slots for keys hold one record only if they are one slot. -/
lemma slot_ne (h : Registry m p ks vs) {k k' : Addr}
    {n n' : PthreadKey} {t t' : T} (hk : m.number k = some n) (hk' : m.number k' = some n')
    (hslot : p.slot t n ≠ 0) (hne : ¬(t' = t ∧ n' = n)) : p.slot t' n' ≠ p.slot t n := by
  intro heq
  have hmem := h.slotted k n hk t hslot
  have hmem' := h.slotted k' n' hk' t' (heq ▸ hslot)
  rw [heq] at hmem'
  have howner := h.owner k (h.keyPlaced k n hk) _ hmem
  obtain rfl := Option.some.inj
    ((h.owner k' (h.keyPlaced k' n' hk') _ hmem').symm.trans howner)
  obtain rfl := Option.some.inj (hk.symm.trans hk')
  exact hne ⟨(h.single k' n hk t t' hslot heq.symm).symm, rfl⟩

/-- The threads whose values the records of a key are. -/
lemma exists_holders (h : Registry m p ks vs) {k : Addr}
    {n : PthreadKey} (hk : m.number k = some n) :
    ∃ ts : List T, ts.map (fun t => p.slot t n) = vs k ∧ ts.Nodup ∧
      ∀ t, t ∈ ts ↔ p.slot t n ≠ 0 := by
  have hrange : vs k ∈ Set.range (List.map fun t => p.slot t n) := by
    rw [Set.range_list_map]
    exact h.held k n hk
  obtain ⟨ts, hts⟩ := hrange
  have hlist := h.values k (h.keyPlaced k n hk)
  refine ⟨ts, hts, ?_, ?_⟩
  · have hnodup := hlist.nodup
    rw [← hts] at hnodup
    exact hnodup.of_map
  · intro t
    constructor
    · intro ht
      apply hlist.ne_zero
      rw [← hts]
      exact List.mem_map_of_mem ht
    · intro ht
      have hmem := h.slotted k n hk t ht
      rw [← hts, List.mem_map] at hmem
      obtain ⟨t', ht', heq⟩ := hmem
      rw [h.single k n hk t t' ht heq.symm]
      exact ht'

/-- The record of a thread is taken out and freed, and the slot of the thread is cleared. -/
theorem clear [DecidableEq T] (h : Registry m p ks vs) {k : Addr} {n : PthreadKey} {t : T}
    (hk : m.number k = some n) (hslot : p.slot t n ≠ 0)
    (hreleased : Released m m' ks vs k (p.slot t n)) :
    Registry m' (p.setspecific t n 0) ks (erased vs k (p.slot t n)) := by
  refine h.of_sameKeys hreleased.lists hreleased.keys (Nat.le_of_eq hreleased.blocks.symm) rfl
    ?placed ?stored ?held ?slotted ?single
  case placed =>
    intro r k' hr
    rw [hreleased.owner] at hr
    by_cases hrr : r = p.slot t n
    · rw [hrr, Function.update_self] at hr
      cases hr
    · rw [Function.update_of_ne hrr] at hr
      obtain ⟨hk', hmem⟩ := h.placed r k' hr
      exact ⟨hk', (h.mem_erased hk').mpr ⟨hmem, fun _ => hrr⟩⟩
  case stored =>
    intro r d hr
    rw [hreleased.data] at hr
    by_cases hrr : r = p.slot t n
    · rw [hrr, Function.update_self] at hr
      cases hr
    · rw [Function.update_of_ne hrr] at hr
      exact h.stored r d hr
  case held =>
    -- the thread whose slot is cleared held only the record that is gone
    intro k' n' hk' r hr
    obtain ⟨hmem, hne⟩ := (h.mem_erased (h.keyPlaced k' n' hk')).mp hr
    obtain ⟨t', ht'⟩ := h.held k' n' hk' r hmem
    refine ⟨t', ?_⟩
    by_cases hsame : t' = t ∧ n' = n
    · obtain ⟨rfl, rfl⟩ := hsame
      exact absurd ht'.symm (hne (h.injective k' k n' hk' hk))
    · rw [p.slot_setspecific_of_ne 0 hsame, ht']
  case slotted =>
    intro k' n' hk' t' ht'
    obtain ⟨hsame, heq⟩ := Pthread.slot_of_cleared ht'
    rw [heq] at ht' ⊢
    apply (h.mem_erased (h.keyPlaced k' n' hk')).mpr
    exact ⟨h.slotted k' n' hk' t' ht', fun _ => h.slot_ne hk hk' hslot hsame⟩
  case single =>
    intro k' n' hk' t₁ t₂ ht₁ heq
    obtain ⟨hne₁, heq'⟩ := Pthread.slot_eq_of_cleared ht₁ heq
    exact h.single k' n' hk' t₁ t₂ hne₁ heq'

/-- A new record becomes the value of a thread that had none. -/
theorem store [DecidableEq T] (h : Registry m p ks vs) {k r d : Addr} {n : PthreadKey} {t : T}
    (hk : m.number k = some n) (hslot : p.slot t n = 0) (hr0 : r ≠ 0) (hr : m.owner r = none)
    (hd : d ≠ 0) (hkeys : Memory.SameKeys m m') (hblocks : m'.blocks = m.blocks + 1)
    (howner : m'.owner = Function.update m.owner r (some k))
    (hdata : m'.data = Function.update m.data r (some d))
    (hlists : Lists m' ks (Function.update vs k (r :: vs k))) :
    Registry m' (p.setspecific t n r) ks (Function.update vs k (r :: vs k)) := by
  have hmem : ∀ {k' r'}, r' ∈ Function.update vs k (r :: vs k) k' ↔
      r' ∈ vs k' ∨ k' = k ∧ r' = r := by
    intro k' r'
    by_cases hkk : k' = k
    · subst hkk
      rw [Function.update_self, List.mem_cons, or_comm]
      simp only [true_and]
    · rw [Function.update_of_ne hkk]
      simp only [hkk, false_and, or_false]
  -- no slot for a key held the record before
  have hunused : ∀ {k' n' t'}, m.number k' = some n' → p.slot t' n' ≠ r := by
    intro k' n' t' hk' heq
    have hmem' := h.slotted k' n' hk' t' (heq ▸ hr0)
    rw [heq] at hmem'
    rw [h.owner k' (h.keyPlaced k' n' hk') r hmem'] at hr
    cases hr
  refine h.of_sameKeys hlists hkeys (hblocks ▸ Nat.le_succ _) rfl
    ?placed ?stored ?held ?slotted ?single
  case placed =>
    intro r' k' hr'
    rw [howner] at hr'
    by_cases hrr : r' = r
    · rw [hrr, Function.update_self] at hr'
      obtain rfl := Option.some.inj hr'
      exact ⟨h.keyPlaced k n hk, hmem.mpr (Or.inr ⟨rfl, hrr⟩)⟩
    · rw [Function.update_of_ne hrr] at hr'
      obtain ⟨hk', hmem'⟩ := h.placed r' k' hr'
      exact ⟨hk', hmem.mpr (Or.inl hmem')⟩
  case stored =>
    intro r' d' hr'
    rw [hdata] at hr'
    by_cases hrr : r' = r
    · rw [hrr, Function.update_self] at hr'
      exact Option.some.inj hr' ▸ hd
    · rw [Function.update_of_ne hrr] at hr'
      exact h.stored r' d' hr'
  case held =>
    -- the thread had no record, so every other record stays in its slot
    intro k' n' hk' r' hr'
    rcases hmem.mp hr' with hr' | ⟨rfl, rfl⟩
    · obtain ⟨t', ht'⟩ := h.held k' n' hk' r' hr'
      refine ⟨t', ?_⟩
      rw [Pthread.slot_setspecific_of_ne, ht']
      rintro ⟨rfl, rfl⟩
      have hne := (h.values k' (h.keyPlaced k' n' hk')).ne_zero hr'
      exact hne (ht'.symm.trans hslot)
    · obtain rfl := Option.some.inj (hk.symm.trans hk')
      exact ⟨t, p.slot_setspecific_self r'⟩
  case slotted =>
    intro k' n' hk' t' ht'
    by_cases hsame : t' = t ∧ n' = n
    · obtain ⟨rfl, rfl⟩ := hsame
      rw [Pthread.slot_setspecific_self]
      exact hmem.mpr (Or.inr ⟨h.injective k' k n' hk' hk, rfl⟩)
    · rw [p.slot_setspecific_of_ne r hsame] at ht' ⊢
      exact hmem.mpr (Or.inl (h.slotted k' n' hk' t' ht'))
  case single =>
    intro k' n' hk' t₁ t₂ ht₁ heq
    by_cases hsame : t₁ = t ∧ n' = n
    · by_cases hsame₂ : t₂ = t ∧ n' = n
      · rw [hsame.1, hsame₂.1]
      · rw [p.slot_setspecific_of_ne r hsame₂, hsame.1, hsame.2,
          Pthread.slot_setspecific_self] at heq
        exact absurd heq.symm (hsame.2 ▸ hunused hk')
    · rw [p.slot_setspecific_of_ne r hsame] at ht₁ heq
      by_cases hsame₂ : t₂ = t ∧ n' = n
      · rw [hsame₂.1, hsame₂.2, Pthread.slot_setspecific_self] at heq
        exact absurd heq (hsame₂.2 ▸ hunused hk')
      · rw [p.slot_setspecific_of_ne r hsame₂] at heq
        exact h.single k' n' hk' t₁ t₂ ht₁ heq

/-- A new key has no records. -/
theorem addKey (h : Registry m p ks vs) {k : Addr} {n : PthreadKey} (hk0 : k ≠ 0)
    (hk : m.number k = none) (hn : p.live n = false) (hvalues : Memory.SameValues m m')
    (hblocks : m'.blocks = m.blocks + 1)
    (hnumber : m'.number = Function.update m.number k (some n))
    (hkeys : m'.loadKey = Function.update (Function.update m.loadKey (.next k)
      (some m.fls_keys)) .fls_keys (some k))
    (hload : m'.loadValue = Function.update m.loadValue (.values k) (some 0)) :
    Registry m' (p.create n) (k :: ks) (Function.update vs k []) := by
  have hne : ∀ k' ∈ ks, k' ≠ k := by
    intro k' hk' heq
    obtain ⟨n', hn'⟩ := h.number k' hk'
    rw [heq, hk] at hn'
    cases hn'
  have hvs : ∀ k' ∈ ks, Function.update vs k [] k' = vs k' := fun k' hk' =>
    Function.update_of_ne (hne k' hk') _ _
  -- a key that has a number is the new one, or one there was before with another number
  have hcases : ∀ k' n', m'.number k' = some n' →
      k' = k ∧ n' = n ∨ k' ≠ k ∧ n' ≠ n ∧ m.number k' = some n' := by
    intro k' n' hk'
    rw [hnumber] at hk'
    by_cases hkk : k' = k
    · rw [hkk, Function.update_self] at hk'
      exact Or.inl ⟨hkk, (Option.some.inj hk').symm⟩
    · rw [Function.update_of_ne hkk] at hk'
      refine Or.inr ⟨hkk, ?_, hk'⟩
      intro hnn
      have hlive := (h.live n').mpr ⟨k', h.keyPlaced k' n' hk', hk'⟩
      rw [hnn, hn] at hlive
      cases hlive
  have hlists := h.toLists.addKey hne hvalues hblocks hload
  refine
    { toLists := hlists, keys := ?keys, keysBound := ?keysBound, keyPlaced := ?keyPlaced,
      live := ?live, number := ?number, injective := ?injective, placed := ?placed,
      stored := ?stored, held := ?held, slotted := ?slotted, single := ?single }
  case keys =>
    apply h.keys.push hk0
    · rw [hkeys, Function.update_self]
    · rw [hkeys, Function.update_of_ne (KeyLink.noConfusion), Function.update_self]
      rfl
    · intro k' hk'
      rw [hkeys, Function.update_of_ne (KeyLink.noConfusion),
        Function.update_of_ne (keyLink_next_injective.ne (hne k' hk'))]
  case keysBound =>
    rw [hblocks, List.length_cons]
    exact Nat.succ_le_succ h.keysBound
  case keyPlaced =>
    intro k' n' hk'
    rcases hcases k' n' hk' with ⟨rfl, -⟩ | ⟨-, -, hk'⟩
    · exact List.mem_cons_self
    · exact List.mem_cons_of_mem k (h.keyPlaced k' n' hk')
  case live =>
    intro n'
    show Function.update p.live n true n' = true ↔ _
    by_cases hnn : n' = n
    · subst hnn
      rw [Function.update_self]
      refine iff_of_true rfl ⟨k, List.mem_cons_self, ?_⟩
      rw [hnumber, Function.update_self]
    · rw [Function.update_of_ne hnn, h.live n']
      constructor
      · rintro ⟨k', hk', hn'⟩
        refine ⟨k', List.mem_cons_of_mem k hk', ?_⟩
        rw [hnumber, Function.update_of_ne (hne k' hk'), hn']
      · rintro ⟨k', -, hn'⟩
        rcases hcases k' n' hn' with ⟨-, heq⟩ | ⟨-, -, hn'⟩
        · exact absurd heq hnn
        · exact ⟨k', h.keyPlaced k' n' hn', hn'⟩
  case number =>
    intro k' hk'
    rw [hnumber]
    rcases List.mem_cons.mp hk' with rfl | hk'
    · exact ⟨n, Function.update_self ..⟩
    · rw [Function.update_of_ne (hne k' hk')]
      exact h.number k' hk'
  case injective =>
    intro k₁ k₂ n' h₁ h₂
    rcases hcases k₁ n' h₁ with ⟨rfl, hn₁⟩ | ⟨-, hn₁, h₁⟩
    · rcases hcases k₂ n' h₂ with ⟨rfl, -⟩ | ⟨-, hn₂, -⟩
      · rfl
      · exact absurd hn₁ hn₂
    · rcases hcases k₂ n' h₂ with ⟨-, hn₂⟩ | ⟨-, -, h₂⟩
      · exact absurd hn₂ hn₁
      · exact h.injective k₁ k₂ n' h₁ h₂
  case placed =>
    intro r k' hr
    rw [hvalues.owner] at hr
    obtain ⟨hk', hmem⟩ := h.placed r k' hr
    exact ⟨List.mem_cons_of_mem k hk', (hvs k' hk').symm ▸ hmem⟩
  case stored =>
    rw [hvalues.data]
    exact h.stored
  case held =>
    intro k' n' hk' r hr
    rcases hcases k' n' hk' with ⟨rfl, -⟩ | ⟨hkk, hnn, hk'⟩
    · rw [Function.update_self] at hr
      cases hr
    · rw [Function.update_of_ne hkk] at hr
      obtain ⟨t, ht⟩ := h.held k' n' hk' r hr
      exact ⟨t, (p.slot_create_of_ne t hnn).trans ht⟩
  case slotted =>
    intro k' n' hk' t ht
    rcases hcases k' n' hk' with ⟨-, rfl⟩ | ⟨hkk, hnn, hk'⟩
    · exact absurd (if_pos rfl) ht
    · rw [p.slot_create_of_ne t hnn] at ht ⊢
      rw [Function.update_of_ne hkk]
      exact h.slotted k' n' hk' t ht
  case single =>
    intro k' n' hk' t t' ht heq
    rcases hcases k' n' hk' with ⟨-, rfl⟩ | ⟨hkk, hnn, hk'⟩
    · exact absurd (if_pos rfl) ht
    · rw [p.slot_create_of_ne t hnn] at ht heq
      rw [p.slot_create_of_ne t' hnn] at heq
      exact h.single k' n' hk' t t' ht heq

/-- A key is gone, and its records with it. -/
theorem dropKey (h : Registry m p ks vs) {k : Addr} {n : PthreadKey} {ks' : List Addr}
    (hk : m.number k = some n) (hmem : ∀ k', k' ∈ ks' ↔ k' ∈ ks ∧ k' ≠ k)
    (hlength : ks'.length ≤ m'.blocks) (hkeys : ListAt m'.loadKey .next .fls_keys ks')
    (hblocks : m'.blocks = m.blocks) (hnumber : m'.number = Function.update m.number k none)
    (howner : ∀ r, m'.owner r = if r ∈ vs k then none else m.owner r)
    (hdata : ∀ r, m'.data r = if r ∈ vs k then none else m.data r)
    (hload : ∀ l, l ≠ .values k → (∀ r ∈ vs k, l ≠ .next r) →
      m'.loadValue l = m.loadValue l) :
    Registry m' (p.delete n) ks' vs := by
  have hks : k ∈ ks := h.keyPlaced k n hk
  -- the keys that are left have their numbers from before
  have hnumber' : ∀ {k' n'}, m'.number k' = some n' → k' ≠ k ∧ m.number k' = some n' := by
    intro k' n' hk'
    rw [hnumber] at hk'
    by_cases hkk : k' = k
    · rw [hkk, Function.update_self] at hk'
      cases hk'
    · rw [Function.update_of_ne hkk] at hk'
      exact ⟨hkk, hk'⟩
  have hlists := h.toLists.dropKey hks hmem hblocks howner hload
  refine
    { toLists := hlists, keys := hkeys, keysBound := hlength, keyPlaced := ?keyPlaced,
      live := ?live, number := ?number, injective := ?injective, placed := ?placed,
      stored := ?stored, held := ?held, slotted := ?slotted, single := ?single }
  case keyPlaced =>
    intro k' n' hk'
    obtain ⟨hne, hk'⟩ := hnumber' hk'
    exact (hmem k').mpr ⟨h.keyPlaced k' n' hk', hne⟩
  case live =>
    intro n'
    show Function.update p.live n false n' = true ↔ _
    by_cases hnn : n' = n
    · subst hnn
      rw [Function.update_self]
      -- the number is no longer live, and no key has it: numbers are injective
      refine iff_of_false Bool.false_ne_true ?_
      rintro ⟨k', -, hk'⟩
      obtain ⟨hne, hk'⟩ := hnumber' hk'
      exact hne (h.injective k' k n' hk' hk)
    · rw [Function.update_of_ne hnn, h.live n']
      constructor
      · rintro ⟨k', hk', hn'⟩
        have hne : k' ≠ k := by
          intro heq
          rw [heq, hk] at hn'
          exact hnn (Option.some.inj hn').symm
        refine ⟨k', (hmem k').mpr ⟨hk', hne⟩, ?_⟩
        rw [hnumber, Function.update_of_ne hne, hn']
      · rintro ⟨k', hk', hn'⟩
        exact ⟨k', ((hmem k').mp hk').1, (hnumber' hn').2⟩
  case number =>
    intro k' hk'
    obtain ⟨hk', hne⟩ := (hmem k').mp hk'
    rw [hnumber, Function.update_of_ne hne]
    exact h.number k' hk'
  case injective =>
    intro k₁ k₂ n' h₁ h₂
    exact h.injective k₁ k₂ n' (hnumber' h₁).2 (hnumber' h₂).2
  case placed =>
    intro r k' hr
    rw [howner] at hr
    split at hr
    · cases hr
    · rename_i hrk
      obtain ⟨hk', hr'⟩ := h.placed r k' hr
      refine ⟨(hmem k').mpr ⟨hk', ?_⟩, hr'⟩
      intro heq
      exact hrk (heq ▸ hr')
  case stored =>
    intro r d hr
    rw [hdata] at hr
    split at hr
    · cases hr
    · exact h.stored r d hr
  case held =>
    intro k' n' hk' r hr
    exact h.held k' n' (hnumber' hk').2 r hr
  case slotted =>
    intro k' n' hk' t ht
    exact h.slotted k' n' (hnumber' hk').2 t ht
  case single =>
    intro k' n' hk' t t' ht heq
    exact h.single k' n' (hnumber' hk').2 t t' ht heq

end Registry

/-- Nothing is stored before the first call. -/
lemma State.initial_rests : (State.initial : State T).Rests := by
  refine ⟨[], fun _ => [], ⟨⟨nofun, nofun, nofun⟩, rfl, Nat.le_refl 0, nofun, ?_, nofun, nofun,
    nofun, nofun, nofun, nofun, nofun⟩⟩
  intro n
  refine iff_of_false Bool.false_ne_true ?_
  rintro ⟨k, hk, -⟩
  cases hk

/-! ## The table that a state stands for -/

/-- The key that a call with the index finds. -/
def State.findKey (s : State T) (index : PthreadKey) : Option Addr :=
  (fls_find_key s.mem index).filter fun k => k ≠ 0

/-- The callbacks of the keys that are found, and what the records of the threads hold. -/
def State.abs (s : State T) : Spec T where
  callback n := (s.findKey n).bind s.mem.callback
  value t n := (s.findKey n).bind fun _ => s.mem.data (s.pthread.slot t n)

section

variable {s : State T}

lemma State.findKey_eq (h : Registry s.mem s.pthread ks vs) {k : Addr} {n : PthreadKey}
    (hk : s.mem.number k = some n) : s.findKey n = some k := by
  rw [State.findKey, h.fls_find_key_eq hk, Option.filter_some,
    if_pos (decide_eq_true (h.key_ne_zero hk))]

lemma State.findKey_none (h : Registry s.mem s.pthread ks vs) {n : PthreadKey}
    (hnone : ∀ k, s.mem.number k ≠ some n) : s.findKey n = none := by
  rw [State.findKey, h.fls_find_key_none hnone]
  rfl

lemma State.callback_eq (h : Registry s.mem s.pthread ks vs) {k : Addr} {n : PthreadKey}
    (hk : s.mem.number k = some n) : s.abs.callback n = s.mem.callback k := by
  show (s.findKey n).bind _ = _
  rw [State.findKey_eq h hk, Option.bind_some]

lemma State.value_eq (h : Registry s.mem s.pthread ks vs) {k : Addr} {n : PthreadKey}
    (hk : s.mem.number k = some n) (t : T) :
    s.abs.value t n = s.mem.data (s.pthread.slot t n) := by
  show (s.findKey n).bind _ = _
  rw [State.findKey_eq h hk, Option.bind_some]

lemma State.callback_none (h : Registry s.mem s.pthread ks vs) {n : PthreadKey}
    (hnone : ∀ k, s.mem.number k ≠ some n) : s.abs.callback n = none := by
  show (s.findKey n).bind _ = _
  rw [State.findKey_none h hnone, Option.bind_none]

lemma State.value_none (h : Registry s.mem s.pthread ks vs) {n : PthreadKey}
    (hnone : ∀ k, s.mem.number k ≠ some n) (t : T) : s.abs.value t n = none := by
  show (s.findKey n).bind _ = _
  rw [State.findKey_none h hnone, Option.bind_none]

end

end Fls
end ClamavWin32
