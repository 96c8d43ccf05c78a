import ClamavWin32.Fls.WalkedList
import ClamavWin32.Fls.CallbackTheorems

/-!
# `FlsFree` is not safe against exiting threads

A thread that was handed its record can be suspended before it takes the lock. `FlsFree` then
finds the record on the list, passes its pointer to the callback and frees it, and the thread
goes on with a record that is no longer there (`lateRun`), or passes the pointer to the callback
once more (`twiceRun`).

* `RaceInv` is the ownership of the records: a record that is allocated is on one list, held by
  one destructor, or the one that the loop of `FlsFree` is at;
* `free_safe_of_timely`: when every destructor takes the lock in time (`Timely`), no run touches
  a freed block or passes a pointer twice.
-/

namespace ClamavWin32
namespace Fls

open TransitionSystem

variable {T : Type*}

/-! ## The invariant -/

/-- The record that a destructor was handed. -/
def ExitPc.value : ExitPc → Option Addr
  | .running => none
  | .entered _ value | .unlinked value _ _ | .freed value _ _ => some value

/-- The record whose pointer a destructor has still to pass. -/
def ExitPc.pending : ExitPc → Option Addr
  | .running | .entered .. => none
  | .unlinked value _ _ | .freed value _ _ => some value

/-- The key whose list is walked, and the record from which the rest can be reached. -/
def FreePc.current : FreePc → Option (Addr × Addr)
  | .walking key values => some (key, values)
  | .calling key value _ | .freeing key value _ => some (key, value)
  | _ => none

/-- The loop is at a record whose pointer is passed or which is freed. -/
lemma FreePc.current_of_at {free : FreePc} {k r v : Addr}
    (h : free = .calling k r v ∨ free = .freeing k r v) : free.current = some (k, r) := by
  rcases h with rfl | rfl
  · rfl
  · rfl

/-- The loop has freed the first record, or it is over. -/
def Began (m : Memory) (free : FreePc) : Prop :=
  free = .returned true ∨ ∃ k a, free.current = some (k, a) ∧ HeadFreed m k

/-- What a thread holds, where it stands in its destructor. -/
def ThreadOk (s : Race T) (ks : List Addr) (vs : Addr → List Addr) : ExitPc → Prop
  | .running => True
  | .entered n r =>
    (∃ k ∈ ks, s.mem.number k = some n ∧ r ∈ vs k) ∨ n = s.index ∧ Began s.mem s.free
  | .unlinked r _ _ => (∃ k, s.mem.owner r = some k) ∧ ∀ k ∈ ks, r ∉ vs k
  | .freed r _ _ => s.mem.owner r = none

/-- What the call of `FlsFree` knows where it stands. -/
def CallOk (s : Race T) (ks : List Addr) (vs : Addr → List Addr) : FreePc → Prop
  | .called => ListAt s.mem.loadKey .next .fls_keys ks ∧ ks.length ≤ s.mem.blocks
  | .found k | .kept k => k ∈ ks ∧ s.mem.number k = some s.index
  | .deleted k => k ∈ ks ∧ s.mem.number k = some s.index ∧ s.pthread.live s.index = false
  | .walking k _ => s.mem.number k = some s.index ∧ s.pthread.live s.index = false
  | .calling k r v | .freeing k r v =>
    s.mem.number k = some s.index ∧ s.pthread.live s.index = false ∧
      (∃ rest, vs k = r :: rest) ∧ s.mem.loadValue (.next r) = some v
  | .returned _ => True

/-- Who holds which record. -/
structure RaceInv (s : Race T) (ks : List Addr) (vs : Addr → List Addr) : Prop where
  walk : Walk s.mem ks vs s.free.current
  injective : ∀ k k' n, s.mem.number k = some n → s.mem.number k' = some n → k = k'
  live : ∀ n, s.pthread.live n = true → ∃ k ∈ ks, s.mem.number k = some n
  slotted : ∀ k ∈ ks, ∀ n, s.mem.number k = some n → s.pthread.live n = true →
    ∀ t, s.pthread.slot t n ≠ 0 → s.pthread.slot t n ∈ vs k
  single : ∀ n, s.pthread.live n = true → ∀ t t', s.pthread.slot t n ≠ 0 →
    s.pthread.slot t n = s.pthread.slot t' n → t = t'
  thread : ∀ t, ThreadOk s ks vs (s.pc t)
  apart : ∀ t t' r, (s.pc t).value = some r → (s.pc t').value = some r → t = t'
  unheld : ∀ t r, (s.pc t).value = some r → ∀ n, s.pthread.live n = true →
    ∀ t', s.pthread.slot t' n ≠ 0 → s.pthread.slot t' n ≠ r
  call : CallOk s ks vs s.free
  passedOnce : s.passed.Nodup
  passed : ∀ r ∈ s.passed, (∀ k ∈ ks, r ∈ vs k → ∃ v, s.free = .freeing k r v) ∧
    ∀ t, (s.pc t).pending ≠ some r
  fault : s.fault = false

/-- A record that is still to be passed is in the hands of its destructor. -/
lemma ExitPc.value_of_pending {pc : ExitPc} {r : Addr} (h : pc.pending = some r) :
    pc.value = some r := by
  cases pc with
  | running => cases h
  | entered => cases h
  | unlinked => exact h
  | freed => exact h

/-- The first record stays freed when other records are unlinked or freed. -/
lemma HeadFreed.mono {m m' : Memory} {k r k' : Addr} (h : HeadFreed m k)
    (hr : m.owner r = some k') (howner : ∀ b, m.owner b = none → m'.owner b = none)
    (hother : ∀ l, m.loadValue l ≠ some r → m'.loadValue l = m.loadValue l ∨ l = .next r) :
    HeadFreed m' k := by
  obtain ⟨b, hb, hb0, hfreed⟩ := h
  refine ⟨b, ?_, hb0, howner b hfreed⟩
  have hne : m.loadValue (.values k) ≠ some r := by
    intro heq
    obtain rfl := Option.some.inj (hb.symm.trans heq)
    rw [hfreed] at hr
    cases hr
  rcases hother _ hne with hsame | hnext
  · rw [hsame, hb]
  · cases hnext

/-- What the loop has begun it has begun still. -/
lemma Began.mono {m m' : Memory} {free : FreePc} {r k' : Addr} (h : Began m free)
    (hr : m.owner r = some k') (howner : ∀ b, m.owner b = none → m'.owner b = none)
    (hother : ∀ l, m.loadValue l ≠ some r → m'.loadValue l = m.loadValue l ∨ l = .next r) :
    Began m' free := by
  rcases h with hreturned | ⟨k, a, ha, hfreed⟩
  · exact Or.inl hreturned
  · exact Or.inr ⟨k, a, ha, hfreed.mono hr howner hother⟩

/-- What the call knows is about the keys, and about the record that the loop is at. -/
lemma CallOk.congr {s s' : Race T} {ks : List Addr} {vs vs' : Addr → List Addr} {free : FreePc}
    (h : CallOk s ks vs free) (hkeys : Memory.SameKeys s.mem s'.mem)
    (hblocks : s'.mem.blocks = s.mem.blocks) (hindex : s'.index = s.index)
    (hpthread : s'.pthread = s.pthread)
    (hlist : ∀ k r v, free = .calling k r v ∨ free = .freeing k r v →
      (∃ rest, vs k = r :: rest) → s.mem.loadValue (.next r) = some v →
        (∃ rest, vs' k = r :: rest) ∧ s'.mem.loadValue (.next r) = some v) :
    CallOk s' ks vs' free := by
  cases free with
  | called =>
    show ListAt s'.mem.loadKey _ _ _ ∧ _ ≤ s'.mem.blocks
    rw [hkeys.loadKey, hblocks]
    exact h
  | found | kept =>
    show _ ∧ s'.mem.number _ = _
    rw [hkeys.number, hindex]
    exact h
  | deleted =>
    show _ ∧ s'.mem.number _ = _ ∧ s'.pthread.live _ = _
    rw [hkeys.number, hindex, hpthread]
    exact h
  | walking =>
    show s'.mem.number _ = _ ∧ s'.pthread.live _ = _
    rw [hkeys.number, hindex, hpthread]
    exact h
  | calling k r v =>
    show s'.mem.number _ = _ ∧ s'.pthread.live _ = _ ∧ _ ∧ s'.mem.loadValue _ = _
    rw [hkeys.number, hindex, hpthread]
    exact ⟨h.1, h.2.1, hlist k r v (Or.inl rfl) h.2.2.1 h.2.2.2⟩
  | freeing k r v =>
    show s'.mem.number _ = _ ∧ s'.pthread.live _ = _ ∧ _ ∧ s'.mem.loadValue _ = _
    rw [hkeys.number, hindex, hpthread]
    exact ⟨h.1, h.2.1, hlist k r v (Or.inr rfl) h.2.2.1 h.2.2.2⟩
  | returned => trivial

/-- The loop has freed nothing where it is not under way. -/
lemma not_began {m : Memory} {free : FreePc} (hcurrent : free.current = none)
    (hreturned : free ≠ .returned true) : ¬ Began m free := by
  rintro (heq | ⟨k, a, heq, -⟩)
  · exact hreturned heq
  · rw [hcurrent] at heq
    cases heq

namespace RaceInv

variable {s : Race T} {ks : List Addr} {vs : Addr → List Addr}

/-- The loop walks the list of the key that is freed. -/
lemma number_of_current (h : RaceInv s ks vs) {k a : Addr} (ha : s.free.current = some (k, a)) :
    s.mem.number k = some s.index ∧ s.pthread.live s.index = false := by
  have hcall := h.call
  cases hfree : s.free with
  | walking | calling | freeing =>
    rw [hfree] at ha hcall
    obtain ⟨rfl, rfl⟩ := Prod.mk.inj (Option.some.inj ha)
    first
      | exact hcall
      | exact ⟨hcall.1, hcall.2.1⟩
  | called | found | kept | deleted | returned =>
    rw [hfree] at ha
    cases ha

end RaceInv

/-- A record that may be unlinked is not where the loop is, and the key links to that. -/
lemma MayUnlink.head {s : Race T} {n : PthreadKey} {k r a : Addr} (hmay : MayUnlink s n r)
    (hn : n = s.index) (ha : s.free.current = some (k, a)) :
    s.mem.loadValue (.values k) = some a ∧ r ≠ a := by
  rw [MayUnlink] at hmay
  cases hfree : s.free with
  | walking | calling | freeing =>
    rw [hfree] at ha hmay
    obtain ⟨rfl, rfl⟩ := Prod.mk.inj (Option.some.inj ha)
    first
      | exact hmay hn
      | exact ⟨(hmay hn).1, (hmay hn).2.1⟩
  | called | found | kept | deleted | returned =>
    rw [hfree] at ha
    cases ha

namespace RaceInv

variable {s : Race T} {ks : List Addr} {vs : Addr → List Addr}

/-- A thread that may take the lock was handed a record that is on its list. -/
lemma mem_of_entered (h : RaceInv s ks vs) {t : T} {n : PthreadKey} {r : Addr}
    (hpc : s.pc t = .entered n r) (hmay : MayUnlink s n r) :
    ∃ k ∈ ks, s.mem.number k = some n ∧ r ∈ vs k := by
  have hthread := h.thread t
  rw [hpc] at hthread
  rcases hthread with hmem | ⟨hn, hreturned | ⟨k, a, hcurrent, hfreed⟩⟩
  · exact hmem
  · rw [MayUnlink, hreturned] at hmay
    exact absurd hn hmay
  · exact absurd hfreed (h.walk.not_headFreed hcurrent (hmay.head hn hcurrent).1)

/-! ## The steps of a destructor -/

variable [DecidableEq T]

/-- The thread library hands a thread its value. -/
lemma enter (h : RaceInv s ks vs) {t : T} {n : PthreadKey} (hlive : s.pthread.live n = true)
    (hslot : s.pthread.slot t n ≠ 0) :
    RaceInv ({ s with pthread := s.pthread.setspecific t n 0 }.setPc t
      (.entered n (s.pthread.slot t n))) ks vs := by
  obtain ⟨k, hk, hn⟩ := h.live n hlive
  have hmem := h.slotted k hk n hn hlive t hslot
  have hpc : ∀ t', t' ≠ t → Function.update s.pc t (.entered n (s.pthread.slot t n)) t' =
      s.pc t' := fun t' ht' => Function.update_of_ne ht' _ _
  refine
    { walk := h.walk, injective := h.injective, live := h.live, slotted := ?slotted,
      single := ?single, thread := ?thread, apart := ?apart, unheld := ?unheld, call := h.call,
      passedOnce := h.passedOnce, passed := ?passed, fault := h.fault }
  case slotted =>
    intro k' hk' n' hn' hlive' t' ht'
    have heq := (Pthread.slot_of_cleared ht').2
    change (s.pthread.setspecific t n 0).slot t' n' ∈ vs k'
    rw [heq]
    exact h.slotted k' hk' n' hn' hlive' t' (heq ▸ ht')
  case single =>
    intro n' hlive' t₁ t₂ ht₁ heq
    obtain ⟨hne₁, heq'⟩ := Pthread.slot_eq_of_cleared ht₁ heq
    exact h.single n' hlive' t₁ t₂ hne₁ heq'
  case thread =>
    refine (Function.forall_update_iff s.pc fun _ pc => ThreadOk _ ks vs pc).mpr ⟨?_, ?_⟩
    · exact Or.inl ⟨k, hk, hn, hmem⟩
    · intro t' _
      exact h.thread t'
  case apart =>
    -- the record was in a slot, so no destructor held it
    intro t₁ t₂ r h₁ h₂
    change (Function.update s.pc t _ t₁).value = some r at h₁
    change (Function.update s.pc t _ t₂).value = some r at h₂
    by_cases ht₁ : t₁ = t
    · by_cases ht₂ : t₂ = t
      · rw [ht₁, ht₂]
      · rw [ht₁, Function.update_self] at h₁
        rw [hpc t₂ ht₂] at h₂
        exact absurd (Option.some.inj h₁) (h.unheld t₂ r h₂ n hlive t hslot)
    · rw [hpc t₁ ht₁] at h₁
      by_cases ht₂ : t₂ = t
      · rw [ht₂, Function.update_self] at h₂
        exact absurd (Option.some.inj h₂) (h.unheld t₁ r h₁ n hlive t hslot)
      · rw [hpc t₂ ht₂] at h₂
        exact h.apart t₁ t₂ r h₁ h₂
  case unheld =>
    -- slots with one record are slots for one key, and of one thread
    intro t₁ r h₁ n' hlive' t' ht'
    change (Function.update s.pc t _ t₁).value = some r at h₁
    obtain ⟨hsame, heq⟩ := Pthread.slot_of_cleared ht'
    have hne : s.pthread.slot t' n' ≠ 0 := heq ▸ ht'
    show (s.pthread.setspecific t n 0).slot t' n' ≠ r
    rw [heq]
    by_cases ht₁ : t₁ = t
    · rw [ht₁, Function.update_self] at h₁
      intro hr
      rw [← Option.some.inj h₁] at hr
      obtain ⟨k', hk', hn'⟩ := h.live n' hlive'
      have hmem' := h.slotted k' hk' n' hn' hlive' t' hne
      rw [hr] at hmem'
      have howner := h.walk.owner k' hk' _ hmem'
      rw [h.walk.owner k hk _ hmem] at howner
      obtain rfl := Option.some.inj howner
      obtain rfl := Option.some.inj (hn.symm.trans hn')
      exact hsame ⟨(h.single n hlive t t' hslot hr.symm).symm, rfl⟩
    · rw [hpc t₁ ht₁] at h₁
      exact h.unheld t₁ r h₁ n' hlive' t' hne
  case passed =>
    intro r hr
    refine ⟨(h.passed r hr).1,
      (Function.forall_update_iff s.pc fun _ pc => pc.pending ≠ some r).mpr ⟨nofun, ?_⟩⟩
    intro t' _
    exact (h.passed r hr).2 t'

omit [DecidableEq T] in
/-- The live keys are on the list when no key has changed its number. -/
lemma live_congr (h : RaceInv s ks vs) {m' : Memory} (hnumber : m'.number = s.mem.number)
    (n : PthreadKey) (hn : s.pthread.live n = true) : ∃ k ∈ ks, m'.number k = some n := by
  rw [hnumber]
  exact h.live n hn

omit [DecidableEq T] in
/-- A slot holds a record of its key when no key has changed its number. -/
lemma slotted_congr (h : RaceInv s ks vs) {m' : Memory} (hnumber : m'.number = s.mem.number)
    (k : Addr) (hk : k ∈ ks) (n : PthreadKey) (hn : m'.number k = some n)
    (hlive : s.pthread.live n = true) (t : T) (ht : s.pthread.slot t n ≠ 0) :
    s.pthread.slot t n ∈ vs k := by
  rw [hnumber] at hn
  exact h.slotted k hk n hn hlive t ht

omit [DecidableEq T] in
/-- What a thread holds does not depend on where the others are. -/
lemma threadOk_mono {s s' : Race T} {ks' : List Addr} {vs' : Addr → List Addr} {pc : ExitPc}
    (h : ThreadOk s ks vs pc) (hindex : s'.index = s.index)
    (hmem : ∀ n r, pc = .entered n r → ∀ k ∈ ks, s.mem.number k = some n → r ∈ vs k →
      (∃ k ∈ ks', s'.mem.number k = some n ∧ r ∈ vs' k) ∨ n = s.index ∧ Began s'.mem s'.free)
    (hbegan : Began s.mem s.free → Began s'.mem s'.free)
    (howner : ∀ r, pc.pending = some r → s'.mem.owner r = s.mem.owner r)
    (hoff : ∀ k ∈ ks', ∀ r ∈ vs' k, k ∈ ks ∧ r ∈ vs k) : ThreadOk s' ks' vs' pc := by
  cases pc with
  | running => trivial
  | entered n r =>
    rcases h with ⟨k, hk, hn, hr⟩ | ⟨hn, hb⟩
    · have hnext := hmem n r rfl k hk hn hr
      rw [← hindex] at hnext
      exact hnext
    · exact Or.inr ⟨hn.trans hindex.symm, hbegan hb⟩
  | unlinked r callback data =>
    obtain ⟨⟨k₀, hk₀⟩, hr⟩ := h
    refine ⟨⟨k₀, (howner r rfl).trans hk₀⟩, ?_⟩
    intro k hk hmem
    obtain ⟨hk', hr'⟩ := hoff k hk r hmem
    exact hr k hk' hr'
  | freed r callback data => exact (howner r rfl).trans h

/-- A destructor that goes on holds the record that it was handed, or none. -/
lemma value_update {pc : T → ExitPc} {t t' : T} {p : ExitPc} {r : Addr}
    (hp : ∀ r, p.value = some r → (pc t).value = some r)
    (h : (Function.update pc t p t').value = some r) : (pc t').value = some r := by
  by_cases ht : t' = t
  · rw [ht, Function.update_self] at h
    rw [ht]
    exact hp r h
  · rw [Function.update_of_ne ht] at h
    exact h

/-- No two destructors hold one record. -/
lemma apart_update (h : RaceInv s ks vs) {t : T} {p : ExitPc}
    (hp : ∀ r, p.value = some r → (s.pc t).value = some r) (t₁ t₂ : T) (r : Addr)
    (h₁ : (Function.update s.pc t p t₁).value = some r)
    (h₂ : (Function.update s.pc t p t₂).value = some r) : t₁ = t₂ :=
  h.apart t₁ t₂ r (value_update hp h₁) (value_update hp h₂)

/-- The record of a destructor is in no slot. -/
lemma unheld_update (h : RaceInv s ks vs) {t : T} {p : ExitPc}
    (hp : ∀ r, p.value = some r → (s.pc t).value = some r) (t₁ : T) (r : Addr)
    (h₁ : (Function.update s.pc t p t₁).value = some r) (n : PthreadKey)
    (hlive : s.pthread.live n = true) (t₂ : T) :
    s.pthread.slot t₂ n ≠ 0 → s.pthread.slot t₂ n ≠ r :=
  h.unheld t₁ r (value_update hp h₁) n hlive t₂

omit [DecidableEq T] in
/-- The record that the loop comes to next is the next one of the list. -/
lemma next_mem (h : RaceInv s ks vs) {k r v : Addr} {rest : List Addr}
    (hcurrent : s.free.current = some (k, r)) (hvs : vs k = r :: rest)
    (hnext : s.mem.loadValue (.next r) = some v) :
    v = 0 ∧ rest = [] ∨ ∃ rest', rest = v :: rest' := by
  obtain ⟨-, hlist, -⟩ := h.walk.walked k r hcurrent
  rw [hvs] at hlist
  obtain ⟨-, -, b, hb, hfrom⟩ := hlist.exists_rest
  obtain rfl := Option.some.inj (hnext.symm.trans hb)
  cases rest with
  | nil => exact Or.inl ⟨hfrom, rfl⟩
  | cons x rest' => exact Or.inr ⟨rest', by rw [hfrom.1]⟩

omit [DecidableEq T] in
/-- What `FlsFree` knows stays true when a record is unlinked that is not where the loop is. -/
lemma callOk_unlink (h : RaceInv s ks vs) {m' : Memory} {k r : Addr} {n : PthreadKey}
    (hk : k ∈ ks) (hn : s.mem.number k = some n) (hr : r ∈ vs k) (hmay : MayUnlink s n r)
    (hkeys : Memory.SameKeys s.mem m') (hblocks : m'.blocks = s.mem.blocks)
    (hother : ∀ l, s.mem.loadValue l ≠ some r → m'.loadValue l = s.mem.loadValue l)
    (s' : Race T) (hs' : s'.mem = m' ∧ s'.index = s.index ∧ s'.pthread = s.pthread) :
    CallOk s' ks (erased vs k r) s.free := by
  obtain ⟨rfl, hindex, hpthread⟩ := hs'
  have hr0 : r ≠ 0 := h.walk.ne_zero hk hr
  apply h.call.congr hkeys hblocks hindex hpthread
  rintro k₀ r₀ v hfree ⟨rest, hvs⟩ hnext
  have hcurrent := FreePc.current_of_at hfree
  have hne : n = s.index → r ≠ r₀ ∧ r ≠ v := by
    intro hn
    rw [MayUnlink] at hmay
    rcases hfree with heq | heq
    · rw [heq] at hmay
      exact (hmay hn).2
    · rw [heq] at hmay
      exact (hmay hn).2
  have hk₀ := (h.walk.walked k₀ r₀ hcurrent).1
  by_cases hkk : k₀ = k
  · -- the rest of the list that is walked loses the record, if it had it
    subst hkk
    have hindex' := Option.some.inj (hn.symm.trans (h.number_of_current hcurrent).1)
    obtain ⟨hr₀, hv⟩ := hne hindex'
    refine ⟨⟨rest.erase r, ?_⟩, ?_⟩
    · rw [erased_self, hvs, List.erase_cons_tail]
      rw [beq_iff_eq]
      exact Ne.symm hr₀
    · rw [hother _ _, hnext]
      rw [hnext]
      intro heq
      exact hv (Option.some.inj heq).symm
  · refine ⟨⟨rest, (erased_of_ne vs r hkk).trans hvs⟩, ?_⟩
    rw [hother _ _, hnext]
    rw [hnext]
    intro heq
    obtain rfl := Option.some.inj heq
    rcases h.next_mem hcurrent hvs hnext with ⟨hzero, -⟩ | ⟨rest', hrest⟩
    · exact hr0 hzero
    · have hmem' : v ∈ vs k₀ := by
        rw [hvs, hrest]
        exact List.mem_cons_of_mem r₀ List.mem_cons_self
      have howner := h.walk.owner k₀ hk₀ v hmem'
      rw [h.walk.owner k hk v hr] at howner
      exact hkk (Option.some.inj howner).symm

/-- **The locked section of a destructor.** -/
lemma lockSection (h : RaceInv s ks vs) {t : T} {n : PthreadKey} {r : Addr}
    (hpc : s.pc t = .entered n r) (hmay : MayUnlink s n r) :
    ∃ s' vs', destroyStep s t (.entered n r) = some s' ∧ RaceInv s' ks vs' := by
  obtain ⟨k, hk, hn, hr⟩ := h.mem_of_entered hpc hmay
  have hcurrent : ∀ a, s.free.current = some (k, a) →
      s.mem.loadValue (.values k) = some a ∧ r ≠ a := by
    intro a ha
    exact hmay.head (Option.some.inj (hn.symm.trans (h.number_of_current ha).1)) ha
  have hlist := h.walk.listAt hk fun a ha => (hcurrent a ha).1
  have howner := h.walk.owner k hk r hr
  obtain ⟨v, hv, -⟩ := Memory.flsValue_of_owner howner
  obtain ⟨key, hkey, -⟩ := Memory.flsKey_of_number hn
  obtain ⟨m', hlocked, hkeys, hvalues, hblocks, hlist', hother⟩ :=
    Memory.destroyLocked_eq hlist howner hr (h.walk.bound k hk) (Memory.data_of_flsValue hv)
      (Memory.callback_of_flsKey hkey)
  have hwalk := h.walk.unlink hk hr hcurrent hkeys.number hvalues.owner hblocks hlist' hother
  have hbegan (hb : Began s.mem s.free) : Began m' s.free := by
    apply hb.mono howner _ fun l hl => Or.inl (hother l hl)
    intro b hb
    rw [hvalues.owner, hb]
  -- the record is on the list of its owner only
  have hmem : ∀ {k' r'}, k' ∈ ks → (r' ∈ erased vs k r k' ↔ r' ∈ vs k' ∧ r' ≠ r) := by
    intro k' r' hk'
    by_cases hkk : k' = k
    · subst hkk
      rw [erased_self, (h.walk.nodup hk').mem_erase_iff, and_comm]
    · rw [erased_of_ne vs r hkk]
      refine ⟨fun hr' => ⟨hr', ?_⟩, fun hr' => hr'.1⟩
      intro heq
      have howner' := h.walk.owner k' hk' r' hr'
      rw [heq, howner] at howner'
      exact hkk (Option.some.inj howner').symm
  have hvalue : ∀ r', (ExitPc.unlinked r key.callback v.value).value = some r' →
      (s.pc t).value = some r' := by
    intro r' hr'
    rw [hpc]
    exact hr'
  refine ⟨({ s with mem := m' }.setPc t (.unlinked r key.callback v.value)), erased vs k r, ?step,
    { walk := hwalk, injective := hkeys.number ▸ h.injective,
      live := h.live_congr hkeys.number, slotted := ?slotted, single := h.single,
      thread := ?thread, apart := h.apart_update hvalue, unheld := h.unheld_update hvalue,
      call := ?call, passedOnce := h.passedOnce, passed := ?passed, fault := h.fault }⟩
  case step =>
    rw [destroyStep, hlocked]
  case slotted =>
    intro k' hk' n' hn' hlive t' ht'
    refine (hmem hk').mpr ⟨h.slotted_congr hkeys.number k' hk' n' hn' hlive t' ht', ?_⟩
    exact h.unheld t r (by rw [hpc]; rfl) n' hlive t' ht'
  case thread =>
    refine (Function.forall_update_iff s.pc fun _ pc => ThreadOk _ ks _ pc).mpr ⟨?_, ?_⟩
    · refine ⟨⟨k, ?_⟩, ?_⟩
      · show m'.owner r = some k
        rw [hvalues.owner, howner]
      · intro k' hk' hr'
        exact ((hmem hk').mp hr').2 rfl
    · intro t' ht
      refine threadOk_mono (h.thread t') rfl ?_ hbegan ?_ ?_
      · intro n' r' hpc' k' hk' hn' hr'
        refine Or.inl ⟨k', hk', ?_, (hmem hk').mpr ⟨hr', ?_⟩⟩
        · show m'.number k' = some n'
          rw [hkeys.number, hn']
        · intro heq
          exact ht (h.apart t' t r (by rw [hpc', heq]; rfl) (by rw [hpc]; rfl))
      · intro r' _
        show m'.owner r' = s.mem.owner r'
        rw [hvalues.owner]
      · intro k' hk' r' hr'
        exact ⟨hk', ((hmem hk').mp hr').1⟩
  case call =>
    exact h.callOk_unlink hk hn hr hmay hkeys hblocks hother _ ⟨rfl, rfl, rfl⟩
  case passed =>
    intro r' hr'
    obtain ⟨hfreeing, hpending⟩ := h.passed r' hr'
    refine ⟨fun k' hk' hmem' => hfreeing k' hk' ((hmem hk').mp hmem').1,
      (Function.forall_update_iff s.pc fun _ pc => pc.pending ≠ some r').mpr ⟨?_, ?_⟩⟩
    · intro heq
      obtain rfl := Option.some.inj heq
      -- the loop would be at this record
      obtain ⟨next, hfree⟩ := hfreeing k hk hr
      exact (hcurrent r (by rw [hfree]; rfl)).2 rfl
    · intro t' _
      exact hpending t'

/-- A destructor frees its record. -/
lemma heapFree (h : RaceInv s ks vs) {t : T} {r callback data : Addr}
    (hpc : s.pc t = .unlinked r callback data) :
    ∃ s', destroyStep s t (.unlinked r callback data) = some s' ∧ RaceInv s' ks vs := by
  have hthread := h.thread t
  rw [hpc] at hthread
  obtain ⟨⟨k₀, howner⟩, hoff⟩ := hthread
  obtain ⟨m', hfree, hkeys, hblocks, howner', -, hload⟩ := Memory.free_value howner
  have hwalk := h.walk.freeOff hoff hkeys.number howner' hblocks hload
  have hother : ∀ l, l ≠ .next r → m'.loadValue l = s.mem.loadValue l := by
    intro l hl
    rw [hload, Function.update_of_ne hl]
  have hbegan (hb : Began s.mem s.free) : Began m' s.free := by
    refine hb.mono howner ?_ ?_
    · intro b hb
      rw [howner']
      exact update_none_of_none hb r
    · intro l _
      by_cases hl : l = .next r
      · exact Or.inr hl
      · exact Or.inl (hother l hl)
  set pc : ExitPc := if callback ≠ 0 ∧ data ≠ 0 then .freed r callback data else .running
    with hpcDef
  have hpcCases : pc = .freed r callback data ∨ pc = .running := by
    rw [hpcDef]
    split
    · exact Or.inl rfl
    · exact Or.inr rfl
  have hvalue : ∀ r', pc.value = some r' → (s.pc t).value = some r' := by
    intro r' hr'
    rw [hpc]
    rcases hpcCases with heq | heq
    · rw [heq] at hr'
      exact hr'
    · rw [heq] at hr'
      cases hr'
  refine ⟨({ s with mem := m' }.setPc t pc), ?step,
    { walk := hwalk, injective := hkeys.number ▸ h.injective,
      live := h.live_congr hkeys.number, slotted := h.slotted_congr hkeys.number,
      single := h.single, thread := ?thread, apart := h.apart_update hvalue,
      unheld := h.unheld_update hvalue, call := ?call, passedOnce := h.passedOnce,
      passed := ?passed, fault := h.fault }⟩
  case step =>
    rw [destroyStep, hfree]
  case thread =>
    refine (Function.forall_update_iff s.pc fun _ pc => ThreadOk _ ks vs pc).mpr ⟨?_, ?_⟩
    · rcases hpcCases with heq | heq
      · rw [heq]
        show m'.owner r = none
        rw [howner', Function.update_self]
      · rw [heq]
        trivial
    · intro t' ht
      refine threadOk_mono (h.thread t') rfl ?_ hbegan ?_ fun k' hk' r' hr' => ⟨hk', hr'⟩
      · intro n' r' _ k' hk' hn' hr'
        refine Or.inl ⟨k', hk', ?_, hr'⟩
        show m'.number k' = some n'
        rw [hkeys.number, hn']
      · intro r' hr'
        show m'.owner r' = s.mem.owner r'
        rw [howner', Function.update_of_ne]
        intro heq
        have hvalue' := ExitPc.value_of_pending hr'
        rw [heq] at hvalue'
        exact ht (h.apart t' t r hvalue' (by rw [hpc]; rfl))
  case call =>
    refine @CallOk.congr T s _ ks vs vs s.free h.call hkeys hblocks rfl rfl ?_
    rintro k r₀ v hat ⟨rest, hvs⟩ hnext
    -- the record that the loop is at is on a list, and the one freed here is not
    have hk := (h.walk.walked k r₀ (FreePc.current_of_at hat)).1
    have hne : r₀ ≠ r := fun heq => hoff k hk (by rw [hvs, heq]; exact List.mem_cons_self)
    refine ⟨⟨rest, hvs⟩, ?_⟩
    show m'.loadValue (.next r₀) = some v
    rw [hother _ (valueLink_next_injective.ne hne), hnext]
  case passed =>
    intro r' hr'
    obtain ⟨hfreeing, hpending⟩ := h.passed r' hr'
    refine ⟨hfreeing,
      (Function.forall_update_iff s.pc fun _ pc => pc.pending ≠ some r').mpr ⟨?_, ?_⟩⟩
    · have hold := hpending t
      rw [hpc] at hold
      rcases hpcCases with heq | heq
      · rw [heq]
        exact hold
      · rw [heq]
        exact nofun
    · intro t' _
      exact hpending t'

/-- A destructor passes the pointer of its record. -/
lemma callback (h : RaceInv s ks vs) {t : T} {r callback data : Addr}
    (hpc : s.pc t = .freed r callback data) :
    ∃ s', destroyStep s t (.freed r callback data) = some s' ∧ RaceInv s' ks vs := by
  have hthread := h.thread t
  rw [hpc] at hthread
  have hfreed : s.mem.owner r = none := hthread
  have hoff : ∀ k ∈ ks, r ∉ vs k := by
    intro k hk hmem
    rw [h.walk.owner k hk r hmem] at hfreed
    cases hfreed
  have hvalue : ∀ r', ExitPc.running.value = some r' → (s.pc t).value = some r' := nofun
  refine ⟨_, rfl,
    { walk := h.walk, injective := h.injective, live := h.live, slotted := h.slotted,
      single := h.single, thread := ?thread, apart := h.apart_update hvalue,
      unheld := h.unheld_update hvalue, call := h.call, passedOnce := ?passedOnce,
      passed := ?passed, fault := h.fault }⟩
  case thread =>
    refine (Function.forall_update_iff s.pc fun _ pc => ThreadOk _ ks vs pc).mpr ⟨trivial, ?_⟩
    intro t' _
    exact h.thread t'
  case passedOnce =>
    -- a pointer that was passed has no destructor that is still to pass it
    refine List.nodup_cons.mpr ⟨?_, h.passedOnce⟩
    intro hr
    apply (h.passed r hr).2 t
    rw [hpc]
    rfl
  case passed =>
    intro r' hr'
    have hrest : ∀ t', (Function.update s.pc t .running t').pending = some r' → t' ≠ t ∧
        (s.pc t').pending = some r' := by
      intro t' ht'
      by_cases ht : t' = t
      · rw [ht, Function.update_self] at ht'
        cases ht'
      · rw [Function.update_of_ne ht] at ht'
        exact ⟨ht, ht'⟩
    rcases List.mem_cons.mp hr' with rfl | hr'
    · refine ⟨fun k hk hmem => absurd hmem (hoff k hk), ?_⟩
      intro t' ht'
      obtain ⟨ht, hpending⟩ := hrest t' ht'
      exact ht (h.apart t' t r' (ExitPc.value_of_pending hpending) (by rw [hpc]; rfl))
    · refine ⟨(h.passed r' hr').1, ?_⟩
      intro t' ht'
      exact (h.passed r' hr').2 t' (hrest t' ht').2

/-! ## The steps of `FlsFree` -/

omit [DecidableEq T] in
/-- The call goes on without a change of the records, before or between two of them. -/
lemma freeMove (h : RaceInv s ks vs) (m' : Memory) (live' : PthreadKey → Bool) (free' : FreePc)
    {free : FreePc} (hfree : s.free = free) (hnot : ∀ k r v, free ≠ .freeing k r v)
    (hvalues : Memory.SameValues s.mem m') (hnumber : m'.number = s.mem.number)
    (hlive : ∀ n, live' n = true → s.pthread.live n = true)
    (hwalk : Walk m' ks vs free'.current) (hbegan : Began s.mem free → Began m' free')
    (hcall : CallOk { s with mem := m', pthread := ⟨live', s.pthread.slot⟩, free := free' } ks vs
      free') :
    RaceInv { s with mem := m', pthread := ⟨live', s.pthread.slot⟩, free := free' } ks vs where
  walk := hwalk
  injective := hnumber ▸ h.injective
  live n hn := h.live_congr hnumber n (hlive n hn)
  slotted k hk n hn hl t ht := by
    change m'.number k = some n at hn
    rw [hnumber] at hn
    exact h.slotted k hk n hn (hlive n hl) t ht
  single n hn := h.single n (hlive n hn)
  thread t := by
    refine threadOk_mono (h.thread t) rfl ?_ (hfree ▸ hbegan) ?_ fun k hk r hr => ⟨hk, hr⟩
    · intro n r _ k hk hn hr
      refine Or.inl ⟨k, hk, ?_, hr⟩
      show m'.number k = some n
      rw [hnumber, hn]
    · intro r _
      show m'.owner r = s.mem.owner r
      rw [hvalues.owner]
  apart := h.apart
  unheld t r hr n hn := h.unheld t r hr n (hlive n hn)
  call := hcall
  passedOnce := h.passedOnce
  passed r hr := by
    refine ⟨?_, (h.passed r hr).2⟩
    intro k hk hmem
    obtain ⟨v, hv⟩ := (h.passed r hr).1 k hk hmem
    exact absurd (hfree.symm.trans hv) (hnot k r v)
  fault := h.fault

omit [DecidableEq T] in
/-- The call goes on, and the memory and the thread library are as before. -/
lemma freeStay (h : RaceInv s ks vs) (free' : FreePc) {free : FreePc} (hfree : s.free = free)
    (hnot : ∀ k r v, free ≠ .freeing k r v) (hwalk : Walk s.mem ks vs free'.current)
    (hbegan : Began s.mem free → Began s.mem free')
    (hcall : CallOk { s with free := free' } ks vs free') :
    RaceInv { s with free := free' } ks vs :=
  h.freeMove s.mem s.pthread.live free' hfree hnot ⟨rfl, rfl⟩ rfl (fun _ hn => hn) hwalk hbegan
    hcall

omit [DecidableEq T] in
/-- A record on a list has no destructor that is still to pass its pointer. -/
lemma pending_ne (h : RaceInv s ks vs) {k r : Addr} (hk : k ∈ ks) (hr : r ∈ vs k) (t : T) :
    (s.pc t).pending ≠ some r := by
  intro hpending
  have hthread := h.thread t
  cases hpc : s.pc t with
  | running | entered =>
    rw [hpc] at hpending
    cases hpending
  | unlinked r₀ =>
    rw [hpc] at hpending hthread
    obtain rfl := Option.some.inj hpending
    exact hthread.2 k hk hr
  | freed r₀ =>
    rw [hpc] at hpending hthread
    obtain rfl := Option.some.inj hpending
    have hnone : s.mem.owner r₀ = none := hthread
    rw [h.walk.owner k hk r₀ hr] at hnone
    cases hnone

omit [DecidableEq T] in
/-- **The first locked section of `FlsFree`.** -/
lemma unlinkKey (h : RaceInv s ks vs) (hfree : s.free = .called) (result : ℕ) :
    ∃ s', freeStep s result .called = some s' ∧ RaceInv s' ks vs := by
  have hcall := h.call
  have hwalk := h.walk
  rw [hfree] at hcall hwalk
  obtain ⟨hkeys, hbound⟩ := hcall
  have hnotBegan : ¬ Began s.mem .called := not_began rfl nofun
  by_cases hn : ∃ k ∈ ks, s.mem.number k = some s.index
  · -- the key is found, and unlinked
    obtain ⟨k, hk, hkn⟩ := hn
    obtain ⟨pre, post, rfl⟩ := List.append_of_mem hk
    have hpre : ∀ y ∈ pre, ∃ n, s.mem.number y = some n ∧ n ≠ s.index := by
      intro y hy
      obtain ⟨n, hyn⟩ := h.walk.number y (List.mem_append_left _ hy)
      refine ⟨n, hyn, ?_⟩
      intro heq
      rw [heq] at hyn
      exact (List.nodup_append.mp hkeys.nodup).2.2 y hy k List.mem_cons_self
        (h.injective y k s.index hyn hkn)
    obtain ⟨m', hlocked, hvalues, hblocks, hnumber, -, hload, -⟩ :=
      Memory.freeLocked_eq hkeys hbound hkn hpre
    have hwalk' := hwalk.congr hnumber hvalues.owner hload hblocks
    refine ⟨_, ?_, h.freeMove m' s.pthread.live (.found k) hfree nofun hvalues hnumber
      (fun _ hn => hn) hwalk' (fun hb => absurd hb hnotBegan)
      ⟨hk, (congrFun hnumber k).trans hkn⟩⟩
    rw [freeStep, hlocked]
    dsimp only
    rw [if_neg (hkeys.ne_zero hk)]
  · -- there is no such key, and the call returns
    have hnone : ∀ y ∈ ks, ∃ n, s.mem.number y = some n ∧ n ≠ s.index := by
      intro y hy
      obtain ⟨n, hyn⟩ := h.walk.number y hy
      exact ⟨n, hyn, fun heq => hn ⟨y, hy, heq ▸ hyn⟩⟩
    refine ⟨_, ?_, h.freeStay (.returned false) hfree nofun hwalk
      (fun hb => absurd hb hnotBegan) trivial⟩
    rw [freeStep, freeLocked, Memory.seekKey_not_found hkeys hbound hnone]
    dsimp only
    rw [if_pos rfl]
    rfl

omit [DecidableEq T] in
/-- `FlsFree` deletes the key of the thread library, or cannot. -/
lemma deleteKey (h : RaceInv s ks vs) {k : Addr} (hfree : s.free = .found k) (result : ℕ) :
    ∃ s', freeStep s result (.found k) = some s' ∧ RaceInv s' ks vs := by
  have hcall := h.call
  have hwalk := h.walk
  rw [hfree] at hcall hwalk
  obtain ⟨hk, hn⟩ := hcall
  obtain ⟨key, hkey, hkeyn⟩ := Memory.flsKey_of_number hn
  have hnotBegan : ¬ Began s.mem (.found k) := not_began rfl nofun
  rw [freeStep, hkey]
  dsimp only
  by_cases hresult : result = 0
  · rw [if_neg (not_not.mpr hresult)]
    refine ⟨_, rfl, h.freeMove s.mem (Function.update s.pthread.live key.key false) (.deleted k)
      hfree nofun ⟨rfl, rfl⟩ rfl ?_ hwalk (fun hb => absurd hb hnotBegan) ⟨hk, hn, ?_⟩⟩
    · intro n hlive
      by_cases hnk : n = key.key
      · rw [hnk, Function.update_self] at hlive
        cases hlive
      · rw [Function.update_of_ne hnk] at hlive
        exact hlive
    · show Function.update s.pthread.live key.key false s.index = false
      rw [hkeyn, Function.update_self]
  · rw [if_pos hresult]
    exact ⟨_, rfl, h.freeStay (.kept k) hfree nofun hwalk (fun hb => absurd hb hnotBegan)
      ⟨hk, hn⟩⟩

omit [DecidableEq T] in
/-- **The second locked section of `FlsFree`.** -/
lemma relinkKey (h : RaceInv s ks vs) {k : Addr} (hfree : s.free = .kept k) (result : ℕ) :
    ∃ s', freeStep s result (.kept k) = some s' ∧ RaceInv s' ks vs := by
  have hcall := h.call
  have hwalk := h.walk
  rw [hfree] at hcall hwalk
  obtain ⟨hk, hn⟩ := hcall
  obtain ⟨m', hrelink, hvalues, hblocks, hnumber, -, hload, -⟩ := Memory.freeRelink_eq hn
  have hwalk' := hwalk.congr hnumber hvalues.owner hload hblocks
  refine ⟨_, ?_, h.freeMove m' s.pthread.live (.returned false) hfree nofun hvalues hnumber
    (fun _ hn => hn) hwalk' (fun hb => absurd hb (not_began rfl nofun)) trivial⟩
  rw [freeStep, hrelink]

omit [DecidableEq T] in
/-- `FlsFree` reads where the list of records starts. -/
lemma readValues (h : RaceInv s ks vs) {k : Addr} (hfree : s.free = .deleted k) (result : ℕ) :
    ∃ s', freeStep s result (.deleted k) = some s' ∧ RaceInv s' ks vs := by
  have hcall := h.call
  have hwalk := h.walk
  rw [hfree] at hcall hwalk
  obtain ⟨hk, hn, hlive⟩ := hcall
  obtain ⟨key, hkey, -⟩ := Memory.flsKey_of_number hn
  have hload := Memory.loadValue_values hkey
  have hwalk' : Walk s.mem ks vs (some (k, key.values)) := by
    refine ⟨hwalk.number, ?_, ?_, hwalk.owner, hwalk.bound⟩
    · intro k' hk' _
      exact hwalk.values k' hk' (fun a ha => by cases ha)
    · intro k' a ha
      obtain ⟨rfl, rfl⟩ := Prod.mk.inj (Option.some.inj ha)
      obtain ⟨b, hb, hfrom⟩ := ListAt.iff_listFrom.mp (hwalk.values k hk (fun a ha => by cases ha))
      obtain rfl := Option.some.inj (hload.symm.trans hb)
      exact ⟨hk, hfrom, Or.inl hload⟩
  refine ⟨_, ?_, h.freeStay (.walking k key.values) hfree nofun hwalk'
    (fun hb => absurd hb (not_began rfl nofun)) ⟨hn, hlive⟩⟩
  rw [freeStep, hkey]

omit [DecidableEq T] in
/-- The loop of `FlsFree` is at its end, and the key is freed. -/
lemma freeKey (h : RaceInv s ks vs) {k : Addr} (hfree : s.free = .walking k 0) (result : ℕ) :
    ∃ s' ks', freeStep s result (.walking k 0) = some s' ∧ RaceInv s' ks' vs := by
  have hcall := h.call
  have hwalk := h.walk
  rw [hfree] at hcall hwalk
  obtain ⟨hn, hlive⟩ := hcall
  -- the loop is at the end of the list
  have hempty : vs k = [] := by
    rcases hwalk.current_cases rfl with ⟨-, hnil⟩ | ⟨rest, hcons⟩
    · exact hnil
    · have hk := (hwalk.walked k 0 rfl).1
      exact absurd rfl (hwalk.ne_zero hk (hcons ▸ List.mem_cons_self))
  obtain ⟨m', hfreed, hvalues, hblocks, hnumber, -, -, hload⟩ := Memory.free_key hn
  have hwalk' := hwalk.finish hnumber hvalues.owner hblocks hload
  have hmem : ∀ k', k' ∈ ks.filter (· ≠ k) ↔ k' ∈ ks ∧ k' ≠ k := by
    intro k'
    rw [List.mem_filter, decide_eq_true_iff]
  have hnumber' : ∀ {k' n}, m'.number k' = some n → k' ≠ k ∧ s.mem.number k' = some n := by
    intro k' n hk'
    rw [hnumber] at hk'
    by_cases hkk : k' = k
    · rw [hkk, Function.update_self] at hk'
      cases hk'
    · rw [Function.update_of_ne hkk] at hk'
      exact ⟨hkk, hk'⟩
  refine ⟨{ s with mem := m', free := .returned true }, ks.filter (· ≠ k), ?step,
    { walk := hwalk', injective := ?injective, live := ?live, slotted := ?slotted,
      single := h.single, thread := ?thread, apart := h.apart, unheld := h.unheld,
      call := trivial, passedOnce := h.passedOnce, passed := ?passed, fault := h.fault }⟩
  case step =>
    rw [freeStep, if_pos rfl, hfreed]
  case injective =>
    intro k₁ k₂ n h₁ h₂
    exact h.injective k₁ k₂ n (hnumber' h₁).2 (hnumber' h₂).2
  case live =>
    intro n hn'
    obtain ⟨k', hk', hkn⟩ := h.live n hn'
    have hne : k' ≠ k := by
      intro heq
      rw [heq, hn] at hkn
      rw [← Option.some.inj hkn] at hn'
      exact Bool.false_ne_true (hlive.symm.trans hn')
    refine ⟨k', (hmem k').mpr ⟨hk', hne⟩, ?_⟩
    show m'.number k' = some n
    rw [hnumber, Function.update_of_ne hne, hkn]
  case slotted =>
    intro k' hk' n hkn hl t ht
    exact h.slotted k' ((hmem k').mp hk').1 n (hnumber' hkn).2 hl t ht
  case thread =>
    intro t
    refine threadOk_mono (h.thread t) rfl ?_ (fun _ => Or.inl rfl) ?_ ?_
    · intro n r _ k' hk' hkn hr
      have hne : k' ≠ k := by
        intro heq
        rw [heq, hempty] at hr
        cases hr
      refine Or.inl ⟨k', (hmem k').mpr ⟨hk', hne⟩, ?_, hr⟩
      show m'.number k' = some n
      rw [hnumber, Function.update_of_ne hne, hkn]
    · intro r _
      show m'.owner r = s.mem.owner r
      rw [hvalues.owner]
    · intro k' hk' r hr
      exact ⟨((hmem k').mp hk').1, hr⟩
  case passed =>
    intro r hr
    refine ⟨?_, (h.passed r hr).2⟩
    intro k' hk' hr'
    obtain ⟨v, hv⟩ := (h.passed r hr).1 k' ((hmem k').mp hk').1 hr'
    rw [hfree] at hv
    cases hv

omit [DecidableEq T] in
/-- The loop of `FlsFree` reads the record it is at. -/
lemma readValue (h : RaceInv s ks vs) {k r : Addr} (hfree : s.free = .walking k r) (hr0 : r ≠ 0)
    (result : ℕ) : ∃ s', freeStep s result (.walking k r) = some s' ∧ RaceInv s' ks vs := by
  have hcall := h.call
  have hwalk := h.walk
  rw [hfree] at hcall hwalk
  obtain ⟨hn, hlive⟩ := hcall
  obtain ⟨key, hkey, -⟩ := Memory.flsKey_of_number hn
  have hk := (hwalk.walked k r rfl).1
  obtain ⟨rest, hvs⟩ : ∃ rest, vs k = r :: rest := by
    rcases hwalk.current_cases rfl with ⟨hzero, -⟩ | hcons
    · exact absurd hzero hr0
    · exact hcons
  obtain ⟨v, hv, -⟩ := Memory.flsValue_of_owner
    (hwalk.owner k hk r (hvs ▸ List.mem_cons_self))
  have hnext := Memory.loadValue_next hv
  rw [freeStep, if_neg hr0, hkey, hv]
  dsimp only
  split
  · refine ⟨_, rfl, h.freeStay (.calling k r v.next) hfree nofun hwalk ?_
      ⟨hn, hlive, ⟨rest, hvs⟩, hnext⟩⟩
    rintro (heq | hhead)
    · cases heq
    · exact Or.inr hhead
  · refine ⟨_, rfl, h.freeStay (.freeing k r v.next) hfree nofun hwalk ?_
      ⟨hn, hlive, ⟨rest, hvs⟩, hnext⟩⟩
    rintro (heq | hhead)
    · cases heq
    · exact Or.inr hhead

omit [DecidableEq T] in
/-- The loop of `FlsFree` passes the pointer of the record it is at. -/
lemma freeCallback (h : RaceInv s ks vs) {k r v : Addr} (hfree : s.free = .calling k r v)
    (result : ℕ) : ∃ s', freeStep s result (.calling k r v) = some s' ∧ RaceInv s' ks vs := by
  have hcall := h.call
  have hwalk := h.walk
  rw [hfree] at hcall hwalk
  obtain ⟨hn, hlive, ⟨rest, hvs⟩, hnext⟩ := hcall
  obtain ⟨key, hkey, -⟩ := Memory.flsKey_of_number hn
  have hk := (hwalk.walked k r rfl).1
  have hr : r ∈ vs k := hvs ▸ List.mem_cons_self
  have howner := hwalk.owner k hk r hr
  obtain ⟨value, hvalue, -⟩ := Memory.flsValue_of_owner howner
  refine ⟨{ s with passed := r :: s.passed, free := .freeing k r v }, ?step,
    { walk := hwalk, injective := h.injective, live := h.live, slotted := h.slotted,
      single := h.single, thread := ?thread, apart := h.apart, unheld := h.unheld,
      call := ⟨hn, hlive, ⟨rest, hvs⟩, hnext⟩, passedOnce := ?passedOnce, passed := ?passed,
      fault := h.fault }⟩
  case step =>
    rw [freeStep, hkey, hvalue]
  case thread =>
    intro t
    refine threadOk_mono (h.thread t) rfl ?_ ?_ (fun _ _ => rfl) fun k hk r hr => ⟨hk, hr⟩
    · intro n r' _ k' hk' hkn hr'
      exact Or.inl ⟨k', hk', hkn, hr'⟩
    · rw [hfree]
      rintro (heq | hhead)
      · cases heq
      · exact Or.inr hhead
  case passedOnce =>
    -- a record on the list whose pointer was passed is one that the loop frees next
    refine List.nodup_cons.mpr ⟨?_, h.passedOnce⟩
    intro hmem
    obtain ⟨v', hv'⟩ := (h.passed r hmem).1 k hk hr
    rw [hfree] at hv'
    cases hv'
  case passed =>
    intro r' hr'
    rcases List.mem_cons.mp hr' with rfl | hr'
    · refine ⟨?_, ?_⟩
      · intro k' hk' hmem
        have howner' := hwalk.owner k' hk' r' hmem
        rw [howner] at howner'
        exact ⟨v, by rw [Option.some.inj howner']⟩
      · exact h.pending_ne hk hr
    · refine ⟨?_, (h.passed r' hr').2⟩
      intro k' hk' hmem
      obtain ⟨v', hv'⟩ := (h.passed r' hr').1 k' hk' hmem
      rw [hfree] at hv'
      cases hv'

omit [DecidableEq T] in
/-- The loop of `FlsFree` frees the record it is at. -/
lemma freeRecord (h : RaceInv s ks vs) {k r v : Addr} (hfree : s.free = .freeing k r v)
    (result : ℕ) :
    ∃ s' vs', freeStep s result (.freeing k r v) = some s' ∧ RaceInv s' ks vs' := by
  have hcall := h.call
  have hwalk := h.walk
  rw [hfree] at hcall hwalk
  obtain ⟨hn, hlive, ⟨rest, hvs⟩, hnext⟩ := hcall
  have hk := (hwalk.walked k r rfl).1
  have hr : r ∈ vs k := hvs ▸ List.mem_cons_self
  have howner := hwalk.owner k hk r hr
  obtain ⟨m', hfreed, hkeys, hblocks, howner', -, hload⟩ := Memory.free_value howner
  obtain ⟨hwalk', hhead⟩ := hwalk.advance hvs hnext hkeys.number howner' hblocks hload
  have hrest : r ∉ rest := by
    have hnodup := hwalk.nodup hk
    rw [hvs] at hnodup
    exact (List.nodup_cons.mp hnodup).1
  have hmem : ∀ {k' r'}, r' ∈ Function.update vs k rest k' → r' ∈ vs k' ∧ (k' = k → r' ≠ r) := by
    intro k' r' hr'
    by_cases hkk : k' = k
    · subst hkk
      rw [Function.update_self] at hr'
      refine ⟨hvs ▸ List.mem_cons_of_mem r hr', ?_⟩
      intro _ heq
      exact hrest (heq ▸ hr')
    · rw [Function.update_of_ne hkk] at hr'
      exact ⟨hr', fun heq => absurd heq hkk⟩
  -- the records of the other keys stay on their lists
  have hlater : ∀ {k' n}, s.mem.number k' = some n → n ≠ s.index → k' ≠ k := by
    intro k' n hkn hne heq
    rw [heq, hn] at hkn
    exact hne (Option.some.inj hkn).symm
  refine ⟨{ s with mem := m', free := .walking k v }, Function.update vs k rest, ?step,
    { walk := hwalk', injective := hkeys.number ▸ h.injective,
      live := h.live_congr hkeys.number, slotted := ?slotted, single := h.single,
      thread := ?thread, apart := h.apart, unheld := h.unheld, call := ?call,
      passedOnce := h.passedOnce, passed := ?passed, fault := h.fault }⟩
  case step =>
    rw [freeStep, hfreed]
  case slotted =>
    intro k' hk' n hkn hl t ht
    change m'.number k' = some n at hkn
    rw [hkeys.number] at hkn
    have hne : n ≠ s.index := by
      intro heq
      rw [heq] at hl
      exact Bool.false_ne_true (hlive.symm.trans hl)
    rw [Function.update_of_ne (hlater hkn hne)]
    exact h.slotted k' hk' n hkn hl t ht
  case thread =>
    intro t
    have hbegan : Began m' (.walking k v) := Or.inr ⟨k, v, rfl, hhead⟩
    refine threadOk_mono (h.thread t) rfl ?_ (fun _ => hbegan) ?_ ?_
    · intro n r' _ k' hk' hkn hr'
      -- a thread with a record of this key is late from now on
      by_cases hni : n = s.index
      · exact Or.inr ⟨hni, hbegan⟩
      · refine Or.inl ⟨k', hk', ?_, ?_⟩
        · show m'.number k' = some n
          rw [hkeys.number, hkn]
        · rw [Function.update_of_ne (hlater hkn hni)]
          exact hr'
    · intro r' hpending
      show m'.owner r' = s.mem.owner r'
      rw [howner', Function.update_of_ne]
      intro heq
      rw [heq] at hpending
      exact h.pending_ne hk hr t hpending
    · intro k' hk' r' hr'
      exact ⟨hk', (hmem hr').1⟩
  case call =>
    refine ⟨?_, hlive⟩
    show m'.number k = some s.index
    rw [hkeys.number, hn]
  case passed =>
    intro r' hr'
    refine ⟨?_, (h.passed r' hr').2⟩
    intro k' hk' hr''
    obtain ⟨hold, hne⟩ := hmem hr''
    obtain ⟨v', hv'⟩ := (h.passed r' hr').1 k' hk' hold
    rw [hfree] at hv'
    obtain ⟨rfl, rfl, -⟩ := FreePc.freeing.inj hv'
    exact absurd rfl (hne rfl)

/-! ## Runs -/

/-- **A timely step is taken without a fault and keeps the invariant.** -/
theorem step {s' : Race T} {move : Move T} (h : RaceInv s ks vs) (htimely : Timely s move s')
    (hstep : raceStep s move = some s') : ∃ ks' vs', RaceInv s' ks' vs' := by
  unfold raceStep at hstep
  rw [if_neg (Bool.eq_false_iff.mp h.fault)] at hstep
  cases move with
  | enter t n =>
    dsimp only at hstep
    split at hstep
    · rename_i henter
      obtain rfl := Option.some.inj hstep
      exact ⟨ks, vs, h.enter henter.2.1 henter.2.2⟩
    · cases hstep
  | destroy t =>
    -- the destructor of a thread that ends
    dsimp only at hstep
    cases hpc : s.pc t with
    | running =>
      rw [hpc] at hstep
      cases hstep
    | entered n r =>
      rw [hpc] at hstep
      obtain ⟨s'', vs', hstep', hinv⟩ := h.lockSection hpc (htimely n r hpc)
      obtain rfl := Option.some.inj (hstep'.symm.trans hstep)
      exact ⟨ks, vs', hinv⟩
    | unlinked r callback data =>
      rw [hpc] at hstep
      obtain ⟨s'', hstep', hinv⟩ := h.heapFree hpc
      obtain rfl := Option.some.inj (hstep'.symm.trans hstep)
      exact ⟨ks, vs, hinv⟩
    | freed r callback data =>
      rw [hpc] at hstep
      obtain ⟨s'', hstep', hinv⟩ := h.callback hpc
      obtain rfl := Option.some.inj (hstep'.symm.trans hstep)
      exact ⟨ks, vs, hinv⟩
  | free result =>
    -- the call of `FlsFree`, from one of its labels to the next
    dsimp only at hstep
    have hnext : ∀ {s''}, (∃ ks' vs', RaceInv s'' ks' vs') → freeStep s result s.free = some s'' →
        ∃ ks' vs', RaceInv s' ks' vs' := by
      intro s'' hinv hstep'
      obtain rfl := Option.some.inj (hstep'.symm.trans hstep)
      exact hinv
    cases hfree : s.free with
    | called =>
      obtain ⟨s'', hstep', hinv⟩ := h.unlinkKey hfree result
      exact hnext ⟨ks, vs, hinv⟩ (hfree ▸ hstep')
    | found k =>
      obtain ⟨s'', hstep', hinv⟩ := h.deleteKey hfree result
      exact hnext ⟨ks, vs, hinv⟩ (hfree ▸ hstep')
    | kept k =>
      obtain ⟨s'', hstep', hinv⟩ := h.relinkKey hfree result
      exact hnext ⟨ks, vs, hinv⟩ (hfree ▸ hstep')
    | deleted k =>
      obtain ⟨s'', hstep', hinv⟩ := h.readValues hfree result
      exact hnext ⟨ks, vs, hinv⟩ (hfree ▸ hstep')
    | walking k r =>
      by_cases hr0 : r = 0
      · rw [hr0] at hfree
        obtain ⟨s'', ks', hstep', hinv⟩ := h.freeKey hfree result
        exact hnext ⟨ks', vs, hinv⟩ (hfree ▸ hstep')
      · obtain ⟨s'', hstep', hinv⟩ := h.readValue hfree hr0 result
        exact hnext ⟨ks, vs, hinv⟩ (hfree ▸ hstep')
    | calling k r v =>
      obtain ⟨s'', hstep', hinv⟩ := h.freeCallback hfree result
      exact hnext ⟨ks, vs, hinv⟩ (hfree ▸ hstep')
    | freeing k r v =>
      obtain ⟨s'', vs', hstep', hinv⟩ := h.freeRecord hfree result
      exact hnext ⟨ks, vs', hinv⟩ (hfree ▸ hstep')
    | returned =>
      rw [hfree] at hstep
      cases hstep

omit [DecidableEq T] in
/-- The call starts in a state at rest. -/
lemma start {s : State T} (h : Registry s.mem s.pthread ks vs) (index : PthreadKey) :
    RaceInv (Race.start s index) ks vs where
  walk := .of_lists h.toLists h.number
  injective := h.injective
  live n hn := (h.live n).mp hn
  slotted k _ n hn _ := h.slotted k n hn
  single n hn := by
    obtain ⟨k, -, hk⟩ := (h.live n).mp hn
    exact h.single k n hk
  thread _ := trivial
  apart _ _ _ hr := by cases hr
  unheld _ _ hr := by cases hr
  call := ⟨h.keys, h.keysBound⟩
  passedOnce := List.nodup_nil
  passed _ hr := by cases hr
  fault := rfl

omit [DecidableEq T] in
/-- What the invariant says of the property. -/
lemma safe (h : RaceInv s ks vs) : Safe s := ⟨h.fault, h.passedOnce⟩

end RaceInv

/-! ## The property -/

variable [DecidableEq T]

/-- **`FlsFree` is safe against timely destructors.** From every state that documented
operations lead to, and for every index, no run in which each destructor takes the lock in time
touches a freed block or passes a pointer twice. -/
theorem free_safe_of_timely {ops : List (Op T)} {s : State T}
    (hdoc : EveryLabel step (fun s op => op.Documented s) State.initial ops)
    (hrun : run step State.initial ops = some s) (index : PthreadKey) {moves : List (Move T)}
    (htimely : EveryStep raceStep Timely (Race.start s index) moves) :
    EveryState raceStep Safe (Race.start s index) moves := by
  obtain ⟨ks, vs, h⟩ : s.Rests := (everyState_rests hdoc).last hrun
  have hinv : EveryState raceStep (fun s => ∃ ks vs, RaceInv s ks vs) (Race.start s index)
      moves := by
    apply EveryStep.everyState _ htimely ⟨ks, vs, RaceInv.start h index⟩
    intro s move s' hinv hmay hstep
    obtain ⟨ks, vs, hinv⟩ := hinv
    exact hinv.step hmay hstep
  apply hinv.mono
  intro s hinv
  obtain ⟨ks, vs, hinv⟩ := hinv
  exact hinv.safe

/-- A thread stores a pointer for a key that has a callback. -/
def storedOps : List (Op (Fin 3)) :=
  [.flsAlloc 7 (some 100) (.ok 1), .flsSetValue 0 1 55 (some 200) 0]

/-- The thread unlinks its record before `FlsFree` reads the list, and frees it while `FlsFree`
deletes the key. -/
def timelyRun : List (Move (Fin 3)) :=
  [.enter 0 1, .free 0, .destroy 0, .free 0, .destroy 0, .free 0, .destroy 0, .free 0]

/-- The thread is suspended before it takes the lock, until `FlsFree` has freed the record. -/
def lateRun : List (Move (Fin 3)) :=
  [.enter 0 1, .free 0, .free 0, .free 0, .free 0, .free 0, .free 0, .destroy 0]

/-- The thread takes the lock when `FlsFree` has called the callback with its pointer. -/
def twiceRun : List (Move (Fin 3)) :=
  [.enter 0 1, .free 0, .free 0, .free 0, .free 0, .free 0, .destroy 0, .destroy 0, .destroy 0]

lemma storedOps_documented :
    EveryLabel step (fun s op => op.Documented s) State.initial storedOps := by
  have hblock : ∀ {a : Addr} {m : Memory}, m.Fresh a → ∀ b ∈ some a, m.Fresh b := by
    intro a m hfresh b hb
    exact Option.some.inj hb ▸ hfresh
  refine ⟨⟨hblock (by decide), fun n _ => rfl⟩, ?_⟩
  intro s hs
  obtain rfl := Option.some.inj hs
  exact ⟨hblock (by decide), fun _ _ => trivial⟩

theorem free_safe_timelyRun : ∃ s, run step State.initial storedOps = some s ∧
    EveryState raceStep Safe (Race.start s 1) timelyRun :=
  ⟨_, rfl, free_safe_of_timely storedOps_documented rfl 1 (by decide +kernel)⟩

/-- **`FlsFree` is not safe against every destructor.** One that takes the lock late reads a
record that `FlsFree` has freed, and one that takes it earlier passes the pointer to the
callback for the second time. -/
theorem free_not_safe :
    EveryLabel step (fun s op => op.Documented s) State.initial storedOps ∧
      ∃ s, run step State.initial storedOps = some s ∧
        ((run raceStep (Race.start s 1) lateRun).map Race.fault = some true ∧
            ¬ EveryState raceStep Safe (Race.start s 1) lateRun) ∧
          (run raceStep (Race.start s 1) twiceRun).map (fun s => (s.fault, s.passed)) =
              some (false, [200, 200]) ∧
            ¬ EveryState raceStep Safe (Race.start s 1) twiceRun := by
  refine ⟨storedOps_documented, _, rfl, ⟨rfl, ?_⟩, rfl, ?_⟩
  · intro hsafe
    exact absurd (hsafe.last rfl).fault (by decide +kernel)
  · intro hsafe
    exact absurd (hsafe.last rfl).passed (by decide +kernel)

end Fls
end ClamavWin32
