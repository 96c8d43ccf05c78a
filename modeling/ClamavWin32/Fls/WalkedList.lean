import ClamavWin32.Fls.FreeRace

/-!
# The lists while `FlsFree` walks one of them

Before the loop of `FlsFree` every key has its list of records. In the loop the list of the key
is what can be reached from the record the loop is at, whether or not it is still what the key
links to: once the first record is freed, the key links to a freed block (`HeadFreed`).

* `Walk m ks vs current`: the lists `vs` of the keys `ks`, with the key that is walked and
  where the loop is;
* `Walk.unlink`, `Walk.freeOff`, `Walk.advance` and `Walk.finish`: what a destructor and the
  loop do to the lists.
-/

namespace ClamavWin32
namespace Fls

variable {m m' : Memory} {ks : List Addr} {vs : Addr → List Addr}
  {current : Option (Addr × Addr)}

/-- The key links to a record that was freed. -/
def HeadFreed (m : Memory) (k : Addr) : Prop :=
  ∃ a, m.loadValue (.values k) = some a ∧ a ≠ 0 ∧ m.owner a = none

/-- The lists of the keys, with the list that is walked read from where the loop is. -/
structure Walk (m : Memory) (ks : List Addr) (vs : Addr → List Addr)
    (current : Option (Addr × Addr)) : Prop where
  number : ∀ k ∈ ks, ∃ n, m.number k = some n
  values : ∀ k ∈ ks, (∀ a, current ≠ some (k, a)) →
    ListAt m.loadValue .next (.values k) (vs k)
  walked : ∀ k a, current = some (k, a) → k ∈ ks ∧ ListFrom m.loadValue .next a (vs k) ∧
    (m.loadValue (.values k) = some a ∨ HeadFreed m k)
  owner : ∀ k ∈ ks, ∀ r ∈ vs k, m.owner r = some k
  bound : ∀ k ∈ ks, (vs k).length ≤ m.blocks

namespace Walk

lemma of_lists (h : Lists m ks vs) (hnumber : ∀ k ∈ ks, ∃ n, m.number k = some n) :
    Walk m ks vs none where
  number := hnumber
  values k hk _ := h.values k hk
  walked _ _ heq := by cases heq
  owner := h.owner
  bound := h.bound

/-- A list whose key links to its first record is read from the key. -/
lemma listAt (h : Walk m ks vs current) {k : Addr} (hk : k ∈ ks)
    (hhead : ∀ a, current = some (k, a) → m.loadValue (.values k) = some a) :
    ListAt m.loadValue .next (.values k) (vs k) := by
  by_cases hcurrent : ∃ a, current = some (k, a)
  · obtain ⟨a, ha⟩ := hcurrent
    exact ListAt.iff_listFrom.mpr ⟨a, hhead a ha, (h.walked k a ha).2.1⟩
  · exact h.values k hk (not_exists.mp hcurrent)

/-- No list has a record twice. -/
lemma nodup (h : Walk m ks vs current) {k : Addr} (hk : k ∈ ks) : (vs k).Nodup := by
  by_cases hcurrent : ∃ a, current = some (k, a)
  · obtain ⟨a, ha⟩ := hcurrent
    exact (h.walked k a ha).2.1.nodup
  · exact (h.values k hk (not_exists.mp hcurrent)).nodup

lemma ne_zero (h : Walk m ks vs current) {k r : Addr} (hk : k ∈ ks) (hr : r ∈ vs k) :
    r ≠ 0 := by
  by_cases hcurrent : ∃ a, current = some (k, a)
  · obtain ⟨a, ha⟩ := hcurrent
    exact (h.walked k a ha).2.1.ne_zero hr
  · exact (h.values k hk (not_exists.mp hcurrent)).ne_zero hr

/-- Where the loop is, there is a record of the list, or the end of it. -/
lemma current_cases (h : Walk m ks vs current) {k a : Addr} (ha : current = some (k, a)) :
    a = 0 ∧ vs k = [] ∨ ∃ rest, vs k = a :: rest := by
  obtain ⟨-, hlist, -⟩ := h.walked k a ha
  cases hvs : vs k with
  | nil =>
    rw [hvs] at hlist
    exact Or.inl ⟨hlist, rfl⟩
  | cons x rest =>
    rw [hvs] at hlist
    exact Or.inr ⟨rest, by rw [hlist.1]⟩

/-- The key does not link to where the loop is after the first record was freed. -/
lemma not_headFreed (h : Walk m ks vs current) {k a : Addr} (ha : current = some (k, a))
    (hload : m.loadValue (.values k) = some a) : ¬ HeadFreed m k := by
  rintro ⟨b, hb, hb0, hfreed⟩
  obtain rfl := Option.some.inj (hload.symm.trans hb)
  obtain ⟨hk, -⟩ := h.walked k a ha
  rcases h.current_cases ha with ⟨rfl, -⟩ | ⟨rest, hvs⟩
  · exact hb0 rfl
  · have howner := h.owner k hk a (hvs ▸ List.mem_cons_self)
    rw [hfreed] at howner
    cases howner

/-- Only links between keys are written. -/
lemma congr (h : Walk m ks vs current) (hnumber : m'.number = m.number)
    (howner : m'.owner = m.owner) (hload : m'.loadValue = m.loadValue)
    (hblocks : m'.blocks = m.blocks) : Walk m' ks vs current where
  number := hnumber ▸ h.number
  values := hload ▸ h.values
  walked := by
    rw [hload]
    intro k a ha
    obtain ⟨hk, hlist, hhead⟩ := h.walked k a ha
    refine ⟨hk, hlist, ?_⟩
    rw [HeadFreed, hload, howner]
    exact hhead
  owner := howner ▸ h.owner
  bound := hblocks ▸ h.bound

/-- A destructor takes a record out of the list of its key. -/
theorem unlink (h : Walk m ks vs current) {k r : Addr} (hk : k ∈ ks) (hr : r ∈ vs k)
    (hcurrent : ∀ a, current = some (k, a) → m.loadValue (.values k) = some a ∧ r ≠ a)
    (hnumber : m'.number = m.number) (howner : m'.owner = m.owner)
    (hblocks : m'.blocks = m.blocks)
    (hlist : ListAt m'.loadValue .next (.values k) ((vs k).erase r))
    (hother : ∀ l, m.loadValue l ≠ some r → m'.loadValue l = m.loadValue l) :
    Walk m' ks (erased vs k r) current := by
  have hr0 : r ≠ 0 := h.ne_zero hk hr
  have hnotMem : ∀ k' ∈ ks, k' ≠ k → r ∉ vs k' := by
    intro k' hk' hne hmem
    have howner' := h.owner k' hk' r hmem
    rw [h.owner k hk r hr] at howner'
    exact hne (Option.some.inj howner').symm
  refine
    { number := hnumber ▸ h.number, values := ?values, walked := ?walked, owner := ?owner,
      bound := ?bound }
  case values =>
    intro k' hk' hnone
    by_cases hkk : k' = k
    · rw [hkk, erased_self]
      exact hlist
    · rw [erased_of_ne vs r hkk]
      exact (h.values k' hk' hnone).frame_of_not_mem (hnotMem k' hk' hkk) hr0 hother
  case walked =>
    intro k' a ha
    obtain ⟨hk', hfrom, hhead⟩ := h.walked k' a ha
    refine ⟨hk', ?_, ?_⟩
    · by_cases hkk : k' = k
      · subst hkk
        obtain ⟨hload, hne⟩ := hcurrent a ha
        rw [erased_self]
        -- the key still links to where the loop is
        obtain ⟨b, hb, hfrom'⟩ := ListAt.iff_listFrom.mp hlist
        rw [hother _ (hload ▸ fun heq => hne (Option.some.inj heq).symm), hload] at hb
        exact Option.some.inj hb ▸ hfrom'
      · rw [erased_of_ne vs r hkk]
        exact hfrom.frame_of_not_mem (hnotMem k' hk' hkk) hr0 hother
    · rcases hhead with hhead | ⟨b, hb, hb0, hfreed⟩
      · left
        rw [hother _ _, hhead]
        rw [hhead]
        intro heq
        obtain rfl := Option.some.inj heq
        by_cases hkk : k' = k
        · subst hkk
          exact (hcurrent a ha).2 rfl
        · rcases h.current_cases ha with ⟨rfl, -⟩ | ⟨rest, hvs⟩
          · exact hr0 rfl
          · exact hnotMem k' hk' hkk (hvs ▸ List.mem_cons_self)
      · right
        refine ⟨b, ?_, hb0, howner ▸ hfreed⟩
        rw [hother _ _, hb]
        rw [hb]
        intro heq
        obtain rfl := Option.some.inj heq
        rw [h.owner k hk b hr] at hfreed
        cases hfreed
  case owner =>
    intro k' hk' r' hr'
    rw [howner]
    exact h.owner k' hk' r' (mem_of_mem_erased hr')
  case bound =>
    intro k' hk'
    rw [hblocks]
    exact (length_erased_le vs k r k').trans (h.bound k' hk')

/-- A record off the lists is freed. -/
theorem freeOff (h : Walk m ks vs current) {r : Addr} (hr : ∀ k ∈ ks, r ∉ vs k)
    (hnumber : m'.number = m.number) (howner : m'.owner = Function.update m.owner r none)
    (hblocks : m'.blocks = m.blocks)
    (hload : m'.loadValue = Function.update m.loadValue (.next r) none) :
    Walk m' ks vs current := by
  have hne : ∀ k ∈ ks, ∀ r' ∈ vs k, r' ≠ r := fun k hk r' hr' heq => hr k hk (heq ▸ hr')
  have hnext : ∀ k ∈ ks, ∀ r' ∈ vs k, m'.loadValue (.next r') = m.loadValue (.next r') := by
    intro k hk r' hr'
    rw [hload, Function.update_of_ne (valueLink_next_injective.ne (hne k hk r' hr'))]
  have hvalues : ∀ k, m'.loadValue (.values k) = m.loadValue (.values k) := by
    intro k
    rw [hload, Function.update_of_ne (ValueLink.noConfusion)]
  refine
    { number := hnumber ▸ h.number, values := ?values, walked := ?walked, owner := ?owner,
      bound := hblocks ▸ h.bound }
  case values =>
    intro k hk hnone
    exact (h.values k hk hnone).frame (hvalues k) (hnext k hk)
  case walked =>
    intro k a ha
    obtain ⟨hk, hfrom, hhead⟩ := h.walked k a ha
    refine ⟨hk, hfrom.frame (hnext k hk), ?_⟩
    rw [hvalues]
    rcases hhead with hhead | ⟨b, hb, hb0, hfreed⟩
    · exact Or.inl hhead
    · refine Or.inr ⟨b, (hvalues k).trans hb, hb0, ?_⟩
      rw [howner]
      exact update_none_of_none hfreed r
  case owner =>
    intro k hk r' hr'
    rw [howner, Function.update_of_ne (hne k hk r' hr')]
    exact h.owner k hk r' hr'

/-- The loop frees the record it is at and goes on with the next one. -/
theorem advance {k r v : Addr} {rest : List Addr} (h : Walk m ks vs (some (k, r)))
    (hvs : vs k = r :: rest) (hnext : m.loadValue (.next r) = some v)
    (hnumber : m'.number = m.number) (howner : m'.owner = Function.update m.owner r none)
    (hblocks : m'.blocks = m.blocks)
    (hload : m'.loadValue = Function.update m.loadValue (.next r) none) :
    Walk m' ks (Function.update vs k rest) (some (k, v)) ∧ HeadFreed m' k := by
  obtain ⟨hk, hfrom, hhead⟩ := h.walked k r rfl
  have hr : m.owner r = some k := h.owner k hk r (hvs ▸ List.mem_cons_self)
  have hr0 : r ≠ 0 := h.ne_zero hk (hvs ▸ List.mem_cons_self)
  have hrest : r ∉ rest := by
    have hnodup := h.nodup hk
    rw [hvs] at hnodup
    exact (List.nodup_cons.mp hnodup).1
  have hvalues : ∀ k', m'.loadValue (.values k') = m.loadValue (.values k') := by
    intro k'
    rw [hload, Function.update_of_ne (ValueLink.noConfusion)]
  have hnext' : ∀ r', r' ≠ r → m'.loadValue (.next r') = m.loadValue (.next r') := by
    intro r' hne
    rw [hload, Function.update_of_ne (valueLink_next_injective.ne hne)]
  -- the other keys have other records: each record has one owner
  have hother : ∀ k' ∈ ks, k' ≠ k → ∀ r' ∈ vs k', r' ≠ r := by
    intro k' hk' hne r' hr' heq
    rw [← heq, h.owner k' hk' r' hr'] at hr
    exact hne (Option.some.inj hr)
  -- the head of the list has been freed: it is this record or an earlier one
  have hhead' : HeadFreed m' k := by
    rcases hhead with hhead | ⟨b, hb, hb0, hfreed⟩
    · exact ⟨r, (hvalues k).trans hhead, hr0, by rw [howner, Function.update_self]⟩
    · refine ⟨b, (hvalues k).trans hb, hb0, ?_⟩
      rw [howner]
      exact update_none_of_none hfreed r
  refine
    ⟨{ number := hnumber ▸ h.number, values := ?values, walked := ?walked, owner := ?owner,
       bound := ?bound }, hhead'⟩
  case values =>
    intro k' hk' hnone
    have hne : k' ≠ k := fun heq => hnone v (heq ▸ rfl)
    rw [Function.update_of_ne hne]
    have hlist : ListAt m.loadValue .next (.values k') (vs k') :=
      h.values k' hk' fun a ha => hne (Prod.mk.inj (Option.some.inj ha)).1.symm
    apply hlist.frame (hvalues k')
    intro r' hr'
    exact hnext' r' (hother k' hk' hne r' hr')
  case walked =>
    intro k' a ha
    obtain ⟨rfl, rfl⟩ := Prod.mk.inj (Option.some.inj ha)
    refine ⟨hk, ?_, Or.inr hhead'⟩
    rw [Function.update_self]
    rw [hvs] at hfrom
    obtain ⟨-, -, b, hb, hfrom'⟩ := hfrom.exists_rest
    obtain rfl := Option.some.inj (hnext.symm.trans hb)
    apply hfrom'.frame
    intro r' hr'
    exact hnext' r' fun heq => hrest (heq ▸ hr')
  case owner =>
    intro k' hk' r' hr'
    by_cases hkk : k' = k
    · subst hkk
      rw [Function.update_self] at hr'
      have hne : r' ≠ r := fun heq => hrest (heq ▸ hr')
      rw [howner, Function.update_of_ne hne]
      exact h.owner k' hk' r' (hvs ▸ List.mem_cons_of_mem r hr')
    · rw [Function.update_of_ne hkk] at hr'
      rw [howner, Function.update_of_ne (hother k' hk' hkk r' hr')]
      exact h.owner k' hk' r' hr'
  case bound =>
    intro k' hk'
    have hbound := h.bound k' hk'
    rw [hblocks]
    by_cases hkk : k' = k
    · subst hkk
      rw [hvs, List.length_cons] at hbound
      rw [Function.update_self]
      omega
    · rw [Function.update_of_ne hkk]
      exact hbound

/-- The loop has come to the end, and the key is freed. -/
theorem finish {k : Addr} (h : Walk m ks vs (some (k, 0)))
    (hnumber : m'.number = Function.update m.number k none) (howner : m'.owner = m.owner)
    (hblocks : m'.blocks = m.blocks)
    (hload : m'.loadValue = Function.update m.loadValue (.values k) none) :
    Walk m' (ks.filter (· ≠ k)) vs none := by
  have hmem : ∀ k', k' ∈ ks.filter (· ≠ k) → k' ∈ ks ∧ k' ≠ k := by
    intro k' hk'
    rw [List.mem_filter, decide_eq_true_iff] at hk'
    exact hk'
  refine
    { number := ?number, values := ?values, walked := ?walked, owner := ?owner,
      bound := ?bound }
  case number =>
    intro k' hk'
    obtain ⟨hk', hne⟩ := hmem k' hk'
    rw [hnumber, Function.update_of_ne hne]
    exact h.number k' hk'
  case values =>
    intro k' hk' _
    obtain ⟨hk', hne⟩ := hmem k' hk'
    have hlist : ListAt m.loadValue .next (.values k') (vs k') :=
      h.values k' hk' fun a ha => hne (Prod.mk.inj (Option.some.inj ha)).1.symm
    apply hlist.frame
    · rw [hload, Function.update_of_ne (valueLink_values_injective.ne hne)]
    · intro r hr
      rw [hload, Function.update_of_ne (ValueLink.noConfusion)]
  case walked =>
    intro k' a ha
    cases ha
  case owner =>
    intro k' hk' r hr
    rw [howner]
    exact h.owner k' (hmem k' hk').1 r hr
  case bound =>
    intro k' hk'
    rw [hblocks]
    exact h.bound k' (hmem k' hk').1

end Walk
end Fls
end ClamavWin32
