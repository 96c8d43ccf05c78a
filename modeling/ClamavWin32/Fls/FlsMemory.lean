import ClamavWin32.Fls.Fls

/-!
# The memory of the lists, field by field

A memory is read through the links of the keys and of the records (`loadKey`, `loadValue`) and
through the fields that are no links. Each change of the memory is described by what becomes
of these, so that the facts about the lists never look at a block as a whole.

* `store_value`, `setValue_data`, `free_value`: the changes of a record;
* `unlink_value`: `fls_unlink_value` takes a record out of the list of its owner;
* `push_value`, `push_key`, `take_key`: how a list grows, and how a key leaves its list.
-/

namespace ClamavWin32
namespace Fls

lemma keyLink_next_injective : Function.Injective KeyLink.next := by
  intro k k' h
  exact KeyLink.next.inj h

lemma valueLink_next_injective : Function.Injective ValueLink.next := by
  intro r r' h
  exact ValueLink.next.inj h

lemma valueLink_values_injective : Function.Injective ValueLink.values := by
  intro k k' h
  exact ValueLink.values.inj h

namespace Memory

/-! ## The fields -/

def number (m : Memory) (key : Addr) : Option PthreadKey := (m.flsKey key).map FlsKey.key

def callback (m : Memory) (key : Addr) : Option Addr := (m.flsKey key).map FlsKey.callback

def owner (m : Memory) (value : Addr) : Option Addr := (m.flsValue value).map FlsValue.owner

def data (m : Memory) (value : Addr) : Option Addr := (m.flsValue value).map FlsValue.value

/-- The keys are the same, up to the lists of records that start in them. -/
structure SameKeys (m m' : Memory) : Prop where
  loadKey : m'.loadKey = m.loadKey
  number : m'.number = m.number
  callback : m'.callback = m.callback

/-- The records are the same, up to how they are linked. -/
structure SameValues (m m' : Memory) : Prop where
  owner : m'.owner = m.owner
  data : m'.data = m.data

variable {m m' : Memory}

lemma SameKeys.trans {m₁ m₂ m₃ : Memory} (h : SameKeys m₁ m₂) (h' : SameKeys m₂ m₃) :
    SameKeys m₁ m₃ :=
  ⟨h'.loadKey.trans h.loadKey, h'.number.trans h.number, h'.callback.trans h.callback⟩

lemma flsValue_of_owner {r k : Addr} (h : m.owner r = some k) :
    ∃ v, m.flsValue r = some v ∧ v.owner = k := Option.map_eq_some_iff.mp h

lemma flsKey_of_number {k : Addr} {n : PthreadKey} (h : m.number k = some n) :
    ∃ key, m.flsKey k = some key ∧ key.key = n := Option.map_eq_some_iff.mp h

lemma data_of_flsValue {r : Addr} {v : FlsValue} (h : m.flsValue r = some v) :
    m.data r = some v.value := by rw [data, h, Option.map_some]

lemma owner_of_flsValue {r : Addr} {v : FlsValue} (h : m.flsValue r = some v) :
    m.owner r = some v.owner := by rw [owner, h, Option.map_some]

lemma loadValue_next {r : Addr} {v : FlsValue} (h : m.flsValue r = some v) :
    m.loadValue (.next r) = some v.next := by rw [loadValue, h, Option.map_some]

lemma loadValue_values {k : Addr} {key : FlsKey} (h : m.flsKey k = some key) :
    m.loadValue (.values k) = some key.values := by rw [loadValue, h, Option.map_some]

lemma loadKey_next {k : Addr} {key : FlsKey} (h : m.flsKey k = some key) :
    m.loadKey (.next k) = some key.next := by rw [loadKey, h, Option.map_some]

lemma number_of_flsKey {k : Addr} {key : FlsKey} (h : m.flsKey k = some key) :
    m.number k = some key.key := by rw [number, h, Option.map_some]

lemma callback_of_flsKey {k : Addr} {key : FlsKey} (h : m.flsKey k = some key) :
    m.callback k = some key.callback := by rw [callback, h, Option.map_some]

/-! ## Another block -/

section

variable (m : Memory)

lemma number_putKey (k : Addr) (b : Option FlsKey) :
    (m.putKey k b).number = Function.update m.number k (b.map FlsKey.key) :=
  Function.comp_update (Option.map FlsKey.key) m.flsKey k b

lemma callback_putKey (k : Addr) (b : Option FlsKey) :
    (m.putKey k b).callback = Function.update m.callback k (b.map FlsKey.callback) :=
  Function.comp_update (Option.map FlsKey.callback) m.flsKey k b

lemma owner_putValue (r : Addr) (b : Option FlsValue) :
    (m.putValue r b).owner = Function.update m.owner r (b.map FlsValue.owner) :=
  Function.comp_update (Option.map FlsValue.owner) m.flsValue r b

lemma data_putValue (r : Addr) (b : Option FlsValue) :
    (m.putValue r b).data = Function.update m.data r (b.map FlsValue.value) :=
  Function.comp_update (Option.map FlsValue.value) m.flsValue r b

lemma loadKey_putKey (k : Addr) (b : Option FlsKey) :
    (m.putKey k b).loadKey = Function.update m.loadKey (.next k) (b.map FlsKey.next) := by
  have hmap := Function.comp_update (Option.map FlsKey.next) m.flsKey k b
  ext1 l
  cases l with
  | fls_keys => rfl
  | next k' =>
    show (Option.map FlsKey.next ∘ Function.update m.flsKey k b) k' = _
    rw [hmap]
    by_cases hk : k' = k
    · rw [hk, Function.update_self, Function.update_self]
    · rw [Function.update_of_ne hk, Function.update_of_ne (keyLink_next_injective.ne hk)]
      rfl

lemma loadValue_putKey (k : Addr) (b : Option FlsKey) :
    (m.putKey k b).loadValue = Function.update m.loadValue (.values k) (b.map FlsKey.values) := by
  have hmap := Function.comp_update (Option.map FlsKey.values) m.flsKey k b
  ext1 l
  cases l with
  | next r => rfl
  | values k' =>
    show (Option.map FlsKey.values ∘ Function.update m.flsKey k b) k' = _
    rw [hmap]
    by_cases hk : k' = k
    · rw [hk, Function.update_self, Function.update_self]
    · rw [Function.update_of_ne hk, Function.update_of_ne (valueLink_values_injective.ne hk)]
      rfl

lemma loadValue_putValue (r : Addr) (b : Option FlsValue) :
    (m.putValue r b).loadValue = Function.update m.loadValue (.next r) (b.map FlsValue.next) := by
  have hmap := Function.comp_update (Option.map FlsValue.next) m.flsValue r b
  ext1 l
  cases l with
  | values k => rfl
  | next r' =>
    show (Option.map FlsValue.next ∘ Function.update m.flsValue r b) r' = _
    rw [hmap]
    by_cases hr : r' = r
    · rw [hr, Function.update_self, Function.update_self]
    · rw [Function.update_of_ne hr, Function.update_of_ne (valueLink_next_injective.ne hr)]
      rfl

end

/-! ## Changes of a record -/

/-- A link between records is written. -/
lemma store_value {l : ValueLink} {a b : Addr} (h : m.loadValue l = some b) :
    ∃ m', m.storeValue l a = some m' ∧ SameKeys m m' ∧ SameValues m m' ∧
      m'.blocks = m.blocks ∧ m'.loadValue = Function.update m.loadValue l (some a) := by
  cases l with
  | values k =>
    obtain ⟨key, hkey, -⟩ := Option.map_eq_some_iff.mp h
    refine ⟨m.putKey k (some { key with values := a }), ?_, ⟨?_, ?_, ?_⟩, ⟨rfl, rfl⟩, rfl, ?_⟩
    · rw [storeValue, setKey, hkey, Option.map_some]
    · rw [loadKey_putKey]
      exact Function.update_eq_self_iff.mpr (loadKey_next hkey).symm
    · rw [number_putKey]
      exact Function.update_eq_self_iff.mpr (number_of_flsKey hkey).symm
    · rw [callback_putKey]
      exact Function.update_eq_self_iff.mpr (callback_of_flsKey hkey).symm
    · rw [loadValue_putKey, Option.map_some]
  | next r =>
    obtain ⟨v, hv, -⟩ := Option.map_eq_some_iff.mp h
    refine ⟨m.putValue r (some { v with next := a }), ?_, ⟨rfl, rfl, rfl⟩, ⟨?_, ?_⟩, rfl, ?_⟩
    · rw [storeValue, setValue, hv, Option.map_some]
    · rw [owner_putValue]
      exact Function.update_eq_self_iff.mpr (owner_of_flsValue hv).symm
    · rw [data_putValue]
      exact Function.update_eq_self_iff.mpr (data_of_flsValue hv).symm
    · rw [loadValue_putValue, Option.map_some]

/-- A record is freed. -/
lemma free_value {r k : Addr} (h : m.owner r = some k) :
    ∃ m', m.heapFreeValue r = some m' ∧ SameKeys m m' ∧ m'.blocks = m.blocks ∧
      m'.owner = Function.update m.owner r none ∧ m'.data = Function.update m.data r none ∧
      m'.loadValue = Function.update m.loadValue (.next r) none := by
  obtain ⟨v, hv, -⟩ := flsValue_of_owner h
  refine ⟨m.putValue r none, ?_, ⟨rfl, rfl, rfl⟩, rfl, owner_putValue m r none,
    data_putValue m r none, loadValue_putValue m r none⟩
  rw [heapFreeValue, hv, Option.map_some]

/-- The pointer in a record is replaced. -/
lemma set_data {r k : Addr} (h : m.owner r = some k) (d : Addr) :
    ∃ m', (m.setValue r fun v => { v with value := d }) = some m' ∧ SameKeys m m' ∧
      m'.blocks = m.blocks ∧ m'.owner = m.owner ∧
      m'.data = Function.update m.data r (some d) ∧ m'.loadValue = m.loadValue := by
  obtain ⟨v, hv, -⟩ := flsValue_of_owner h
  refine ⟨m.putValue r (some { v with value := d }), ?_, ⟨rfl, rfl, rfl⟩, rfl, ?_,
    data_putValue m r _, ?_⟩
  · rw [setValue, hv, Option.map_some]
  · rw [owner_putValue]
    exact Function.update_eq_self_iff.mpr (owner_of_flsValue hv).symm
  · rw [loadValue_putValue]
    exact Function.update_eq_self_iff.mpr (loadValue_next hv).symm

/-- A new record is put in front of the records of a key. -/
lemma push_value {k r d : Addr} {key : FlsKey} (hkey : m.flsKey k = some key) :
    ∃ m', (((m.heapAllocValue r).setValue r fun _ => ⟨k, key.values, d⟩).bind fun m =>
        m.storeValue (.values k) r) = some m' ∧
      SameKeys m m' ∧ m'.blocks = m.blocks + 1 ∧
      m'.owner = Function.update m.owner r (some k) ∧
      m'.data = Function.update m.data r (some d) ∧
      m'.loadValue = Function.update (Function.update m.loadValue (.next r) (some key.values))
        (.values k) (some r) := by
  have hset : ((m.heapAllocValue r).setValue r fun _ => ⟨k, key.values, d⟩) =
      some ((m.heapAllocValue r).putValue r (some ⟨k, key.values, d⟩)) := by
    rw [setValue]
    show (Function.update m.flsValue r _ r).map _ = _
    rw [Function.update_self, Option.map_some]
  have howner : ((m.heapAllocValue r).putValue r (some ⟨k, key.values, d⟩)).owner =
      Function.update m.owner r (some k) := by
    rw [owner_putValue]
    show Function.update (m.putValue r _).owner r _ = _
    rw [owner_putValue, Function.update_idem]
    rfl
  have hdata : ((m.heapAllocValue r).putValue r (some ⟨k, key.values, d⟩)).data =
      Function.update m.data r (some d) := by
    rw [data_putValue]
    show Function.update (m.putValue r _).data r _ = _
    rw [data_putValue, Function.update_idem]
    rfl
  have hload : ((m.heapAllocValue r).putValue r (some ⟨k, key.values, d⟩)).loadValue =
      Function.update m.loadValue (.next r) (some key.values) := by
    rw [loadValue_putValue]
    show Function.update (m.putValue r _).loadValue (.next r) _ = _
    rw [loadValue_putValue, Function.update_idem]
    rfl
  -- the head of the list is still the one of the key
  have hvalues : ((m.heapAllocValue r).putValue r (some ⟨k, key.values, d⟩)).loadValue
      (.values k) = some key.values := loadValue_values hkey
  obtain ⟨m', hstore, hkeys, hvals, hblocks, hload'⟩ := store_value (a := r) hvalues
  refine ⟨m', ?_, ⟨hkeys.loadKey, hkeys.number, hkeys.callback⟩, hblocks,
    hvals.owner.trans howner, hvals.data.trans hdata, ?_⟩
  · rw [hset, Option.bind_some, hstore]
  · rw [hload', hload]

/-- **`fls_unlink_value`.** The record is taken out of the list of its owner: the only link
that is written is one that holds the record. -/
theorem unlink_value {k r : Addr} {xs : List Addr}
    (hlist : ListAt m.loadValue .next (.values k) xs) (howner : m.owner r = some k)
    (hmem : r ∈ xs) (hbound : xs.length ≤ m.blocks) :
    ∃ m', fls_unlink_value m r = some m' ∧ SameKeys m m' ∧ SameValues m m' ∧
      m'.blocks = m.blocks ∧ ListAt m'.loadValue .next (.values k) (xs.erase r) ∧
      ∀ l, m.loadValue l ≠ some r → m'.loadValue l = m.loadValue l := by
  obtain ⟨pre, post, rfl⟩ := List.append_of_mem hmem
  have hnodup := hlist.nodup
  have hpre : r ∉ pre := by
    intro hr
    exact (List.nodup_append.mp hnodup).2.2 r hr r List.mem_cons_self rfl
  obtain ⟨v, hv, hk⟩ := flsValue_of_owner howner
  have hseek : seek m.loadValue .next (fun a => some (a == r)) (m.blocks + 1) (.values v.owner) =
      some (linkAfter .next (.values k) pre, r) := by
    rw [hk]
    apply hlist.seek_found
    · rw [List.length_append] at hbound
      omega
    · intro y hy
      have hne : y ≠ r := fun heq => hpre (heq ▸ hy)
      rw [beq_eq_false_iff_ne.mpr hne]
    · rw [beq_self_eq_true]
  -- the link before the record holds it
  have hcursor : m.loadValue (linkAfter .next (.values k) pre) = some r := hlist.drop.1
  have hr0 : r ≠ 0 := hlist.ne_zero hmem
  obtain ⟨m', hstore, hkeys, hvalues, hblocks, hload⟩ := store_value (a := v.next) hcursor
  refine ⟨m', ?_, hkeys, hvalues, hblocks, ?_, ?_⟩
  · rw [fls_unlink_value, hv, Option.bind_some, hseek]
    dsimp only
    rw [if_neg hr0, hstore]
  · rw [List.erase_append_right _ hpre, List.erase_cons_head]
    apply hlist.unlink valueLink_next_injective
    · intro y hy
      nofun
    · rw [hload, Function.update_self, loadValue_next hv]
    · intro j hj
      rw [hload, Function.update_of_ne hj]
  · intro l hl
    rw [hload, Function.update_of_ne]
    intro heq
    rw [heq] at hl
    exact hl hcursor

/-- **The locked part of `fls_destroy_value`.** -/
lemma destroyLocked_eq {k r d cb : Addr} {xs : List Addr}
    (hlist : ListAt m.loadValue .next (.values k) xs) (howner : m.owner r = some k)
    (hmem : r ∈ xs) (hbound : xs.length ≤ m.blocks) (hdata : m.data r = some d)
    (hcallback : m.callback k = some cb) :
    ∃ m', destroyLocked m r = some (m', cb, d) ∧ SameKeys m m' ∧ SameValues m m' ∧
      m'.blocks = m.blocks ∧ ListAt m'.loadValue .next (.values k) (xs.erase r) ∧
      ∀ l, m.loadValue l ≠ some r → m'.loadValue l = m.loadValue l := by
  obtain ⟨m', hunlink, hkeys, hvalues, hblocks, hlist', hother⟩ :=
    unlink_value hlist howner hmem hbound
  refine ⟨m', ?_, hkeys, hvalues, hblocks, hlist', hother⟩
  rw [← hvalues.owner] at howner
  obtain ⟨v, hv, rfl⟩ := flsValue_of_owner howner
  rw [← hvalues.data, data_of_flsValue hv] at hdata
  rw [← hkeys.callback] at hcallback
  obtain ⟨key, hkey, hcb⟩ := Option.map_eq_some_iff.mp hcallback
  rw [destroyLocked, hunlink, Option.bind_some, hv, Option.bind_some, hkey, Option.map_some, hcb,
    Option.some.inj hdata]

/-! ## Changes of a key -/

/-- Another first key. -/
lemma loadKey_setHead (m : Memory) (k : Addr) :
    ({ m with fls_keys := k } : Memory).loadKey =
      Function.update m.loadKey .fls_keys (some k) := by
  ext1 l
  cases l with
  | fls_keys => rfl
  | next k' =>
    rw [Function.update_of_ne (KeyLink.noConfusion)]
    rfl

/-- A new key is put in front of the keys. -/
lemma push_key (m : Memory) (k cb : Addr) (n : PthreadKey) :
    ∃ m', ((m.heapAllocKey k).setKey k fun key =>
        { key with key := n, callback := cb, next := (m.heapAllocKey k).fls_keys }).map
          (fun m' => { m' with fls_keys := k }) = some m' ∧
      SameValues m m' ∧ m'.blocks = m.blocks + 1 ∧
      m'.number = Function.update m.number k (some n) ∧
      m'.callback = Function.update m.callback k (some cb) ∧
      m'.loadKey = Function.update (Function.update m.loadKey (.next k) (some m.fls_keys))
        .fls_keys (some k) ∧
      m'.loadValue = Function.update m.loadValue (.values k) (some 0) := by
  refine ⟨{ (m.heapAllocKey k).putKey k (some ⟨m.fls_keys, 0, n, cb⟩) with fls_keys := k },
    ?_, ⟨rfl, rfl⟩, rfl, ?_, ?_, ?_, ?_⟩
  · rw [setKey]
    show ((Function.update m.flsKey k _ k).map _).map _ = _
    rw [Function.update_self, Option.map_some, Option.map_some]
    rfl
  · show ((m.heapAllocKey k).putKey k _).number = _
    rw [number_putKey]
    show Function.update (m.putKey k _).number k _ = _
    rw [number_putKey, Function.update_idem]
    rfl
  · show ((m.heapAllocKey k).putKey k _).callback = _
    rw [callback_putKey]
    show Function.update (m.putKey k _).callback k _ = _
    rw [callback_putKey, Function.update_idem]
    rfl
  · have hload : ((m.heapAllocKey k).putKey k (some ⟨m.fls_keys, 0, n, cb⟩)).loadKey =
        Function.update m.loadKey (.next k) (some m.fls_keys) := by
      rw [loadKey_putKey]
      show Function.update (m.putKey k _).loadKey (.next k) _ = _
      rw [loadKey_putKey, Function.update_idem]
      rfl
    rw [← hload]
    exact loadKey_setHead _ k
  · show ((m.heapAllocKey k).putKey k _).loadValue = _
    rw [loadValue_putKey]
    show Function.update (m.putKey k _).loadValue (.values k) _ = _
    rw [loadValue_putKey, Function.update_idem]
    rfl

/-- A key is freed again that was not used. -/
lemma alloc_free_key {k : Addr} (hk : m.flsKey k = none) :
    (m.heapAllocKey k).heapFreeKey k = some { m with blocks := m.blocks + 1 } := by
  have halloc : (m.heapAllocKey k).flsKey k = some ⟨0, 0, 0, 0⟩ := Function.update_self ..
  have hfree : Function.update (Function.update m.flsKey k (some ⟨0, 0, 0, 0⟩)) k none =
      m.flsKey := by
    rw [Function.update_idem]
    exact Function.update_eq_self_iff.mpr hk.symm
  rw [heapFreeKey, halloc, Option.map_some]
  show some (Memory.mk m.fls_keys
    (Function.update (Function.update m.flsKey k (some ⟨0, 0, 0, 0⟩)) k none) m.flsValue
      (m.blocks + 1)) = _
  rw [hfree]

/-- A key is freed. -/
lemma free_key {k : Addr} {n : PthreadKey} (h : m.number k = some n) :
    ∃ m', m.heapFreeKey k = some m' ∧ SameValues m m' ∧ m'.blocks = m.blocks ∧
      m'.number = Function.update m.number k none ∧
      m'.callback = Function.update m.callback k none ∧
      m'.loadKey = Function.update m.loadKey (.next k) none ∧
      m'.loadValue = Function.update m.loadValue (.values k) none := by
  obtain ⟨key, hkey, -⟩ := flsKey_of_number h
  refine ⟨m.putKey k none, ?_, ⟨rfl, rfl⟩, rfl, number_putKey m k none,
    callback_putKey m k none, loadKey_putKey m k none, loadValue_putKey m k none⟩
  rw [heapFreeKey, hkey, Option.map_some]

/-- A link between keys is written. -/
lemma store_key {l : KeyLink} {a b : Addr} (h : m.loadKey l = some b) :
    ∃ m', m.storeKey l a = some m' ∧ SameValues m m' ∧ m'.blocks = m.blocks ∧
      m'.number = m.number ∧ m'.callback = m.callback ∧ m'.loadValue = m.loadValue ∧
      m'.loadKey = Function.update m.loadKey l (some a) := by
  cases l with
  | fls_keys =>
    refine ⟨{ m with fls_keys := a }, rfl, ⟨rfl, rfl⟩, rfl, rfl, rfl, rfl, ?_⟩
    ext1 l
    cases l with
    | fls_keys => rfl
    | next k =>
      rw [Function.update_of_ne (KeyLink.noConfusion)]
      rfl
  | next k =>
    obtain ⟨key, hkey, -⟩ := Option.map_eq_some_iff.mp h
    refine ⟨m.putKey k (some { key with next := a }), ?_, ⟨rfl, rfl⟩, rfl, ?_, ?_, ?_, ?_⟩
    · rw [storeKey, setKey, hkey, Option.map_some]
    · rw [number_putKey]
      exact Function.update_eq_self_iff.mpr (number_of_flsKey hkey).symm
    · rw [callback_putKey]
      exact Function.update_eq_self_iff.mpr (callback_of_flsKey hkey).symm
    · rw [loadValue_putKey]
      exact Function.update_eq_self_iff.mpr (loadValue_values hkey).symm
    · rw [loadKey_putKey, Option.map_some]

/-! ## The keys -/

/-- The numbers of the keys on the list are read. -/
lemma stop_of_number {k : Addr} {n : PthreadKey} (index : PthreadKey)
    (h : m.number k = some n) :
    ((m.flsKey k).map fun key => key.key == index) = some (n == index) := by
  obtain ⟨key, hkey, rfl⟩ := flsKey_of_number h
  rw [hkey, Option.map_some]

/-- The key with the number is found. -/
lemma seekKey_found {pre post : List Addr} {k : Addr} {index : PthreadKey}
    (hlist : ListAt m.loadKey .next .fls_keys (pre ++ k :: post))
    (hbound : (pre ++ k :: post).length ≤ m.blocks) (hk : m.number k = some index)
    (hpre : ∀ y ∈ pre, ∃ n, m.number y = some n ∧ n ≠ index) :
    seekKey m index = some (linkAfter .next .fls_keys pre, k) := by
  apply hlist.seek_found
  · rw [List.length_append] at hbound
    omega
  · intro y hy
    obtain ⟨n, hn, hne⟩ := hpre y hy
    rw [stop_of_number index hn, beq_eq_false_iff_ne.mpr hne]
  · rw [stop_of_number index hk, beq_self_eq_true]

/-- There is no key with the number. -/
lemma seekKey_not_found {ks : List Addr} {index : PthreadKey}
    (hlist : ListAt m.loadKey .next .fls_keys ks) (hbound : ks.length ≤ m.blocks)
    (hks : ∀ y ∈ ks, ∃ n, m.number y = some n ∧ n ≠ index) :
    seekKey m index = some (linkAfter .next .fls_keys ks, 0) := by
  apply hlist.seek_not_found (by omega)
  intro y hy
  obtain ⟨n, hn, hne⟩ := hks y hy
  rw [stop_of_number index hn, beq_eq_false_iff_ne.mpr hne]

/-- **The locked part of `FlsFree`.** The key with the number is taken out of the keys. -/
lemma freeLocked_eq {pre post : List Addr} {k : Addr} {index : PthreadKey}
    (hlist : ListAt m.loadKey .next .fls_keys (pre ++ k :: post))
    (hbound : (pre ++ k :: post).length ≤ m.blocks) (hk : m.number k = some index)
    (hpre : ∀ y ∈ pre, ∃ n, m.number y = some n ∧ n ≠ index) :
    ∃ m', freeLocked m index = some (m', k) ∧ SameValues m m' ∧ m'.blocks = m.blocks ∧
      m'.number = m.number ∧ m'.callback = m.callback ∧ m'.loadValue = m.loadValue ∧
      ListAt m'.loadKey .next .fls_keys (pre ++ post) := by
  obtain ⟨key, hkey, -⟩ := flsKey_of_number hk
  have hcursor : m.loadKey (linkAfter .next .fls_keys pre) = some k := hlist.drop.1
  have hk0 : k ≠ 0 := hlist.ne_zero (List.mem_append_right pre List.mem_cons_self)
  obtain ⟨m', hstore, hvalues, hblocks, hnumber, hcallback, hvalue, hload⟩ :=
    store_key (a := key.next) hcursor
  refine ⟨m', ?_, hvalues, hblocks, hnumber, hcallback, hvalue, ?_⟩
  · rw [freeLocked, seekKey_found hlist hbound hk hpre]
    dsimp only
    rw [if_neg hk0, hkey, Option.bind_some, hstore, Option.map_some]
  · apply hlist.unlink keyLink_next_injective
    · intro y hy
      exact KeyLink.noConfusion
    · rw [hload, Function.update_self, loadKey_next hkey]
    · intro j hj
      rw [hload, Function.update_of_ne hj]

/-- `FlsFree` puts the key in front of the keys again. -/
lemma freeRelink_eq {k : Addr} {n : PthreadKey} (h : m.number k = some n) :
    ∃ m', freeRelink m k = some m' ∧ SameValues m m' ∧ m'.blocks = m.blocks ∧
      m'.number = m.number ∧ m'.callback = m.callback ∧ m'.loadValue = m.loadValue ∧
      m'.loadKey = Function.update (Function.update m.loadKey (.next k) (some m.fls_keys))
        .fls_keys (some k) := by
  obtain ⟨key, hkey, -⟩ := flsKey_of_number h
  obtain ⟨m', hstore, hvalues, hblocks, hnumber, hcallback, hvalue, hload⟩ :=
    store_key (a := m.fls_keys) (loadKey_next hkey)
  refine ⟨{ m' with fls_keys := k }, ?_, ⟨hvalues.owner, hvalues.data⟩, hblocks, hnumber,
    hcallback, hvalue, ?_⟩
  · rw [freeRelink, hstore, Option.map_some]
  · rw [← hload]
    exact loadKey_setHead m' k

/-! ## The records of a key -/

/-- A field that is lost for one record, and then for others. -/
lemma forget_cons (f : Addr → Option Addr) (a : Addr) (xs : List Addr) (r : Addr) :
    (if r ∈ xs then none else Function.update f a none r) =
      if r ∈ a :: xs then none else f r := by
  by_cases hr : r ∈ xs
  · rw [if_pos hr, if_pos (List.mem_cons_of_mem a hr)]
  · rw [if_neg hr]
    by_cases hra : r = a
    · rw [hra, Function.update_self, if_pos List.mem_cons_self]
    · rw [Function.update_of_ne hra, if_neg fun hmem => (List.mem_cons.mp hmem).elim hra hr]

/-- **The loop of `FlsFree`.** It frees the records and calls the callback for each of
them. -/
theorem freeValues_eq {k cb a : Addr} {fuel : ℕ} {xs : List Addr}
    (hlist : ListFrom m.loadValue .next a xs) (hfuel : xs.length < fuel)
    (howner : ∀ r ∈ xs, m.owner r = some k) (hcallback : m.callback k = some cb) :
    ∃ m', freeValues k fuel m a =
        some (m', xs.flatMap fun r => callsOf cb ((m.data r).getD 0)) ∧
      SameKeys m m' ∧ m'.blocks = m.blocks ∧
      (∀ r, m'.owner r = if r ∈ xs then none else m.owner r) ∧
      (∀ r, m'.data r = if r ∈ xs then none else m.data r) ∧
      ∀ l, (∀ r ∈ xs, l ≠ .next r) → m'.loadValue l = m.loadValue l := by
  induction xs generalizing m a fuel with
  | nil =>
    obtain ⟨fuel, rfl⟩ : ∃ fuel', fuel = fuel' + 1 := ⟨fuel - 1, by
      rw [List.length_nil] at hfuel
      omega⟩
    refine ⟨m, ?_, ⟨rfl, rfl, rfl⟩, rfl, fun r => rfl, fun r => rfl, fun l hl => rfl⟩
    rw [freeValues, if_pos (show a = 0 from hlist)]
    rfl
  | cons x xs ih =>
    rw [List.length_cons] at hfuel
    obtain ⟨fuel, rfl⟩ : ∃ fuel', fuel = fuel' + 1 := ⟨fuel - 1, by omega⟩
    have hx : x ∉ xs := (List.nodup_cons.mp hlist.nodup).1
    obtain ⟨rfl, ha0, b, hb, hrest⟩ := hlist.exists_rest
    obtain ⟨v, hv, -⟩ := flsValue_of_owner (howner a List.mem_cons_self)
    obtain ⟨key, hkey, hcb⟩ := Option.map_eq_some_iff.mp hcallback
    obtain ⟨m₁, hfree, hkeys, hblocks, howner₁, hdata₁, hload₁⟩ :=
      free_value (howner a List.mem_cons_self)
    have hne : ∀ {r}, r ∈ xs → r ≠ a := fun hr heq => hx (heq ▸ hr)
    have hrest₁ : ListFrom m₁.loadValue .next b xs := by
      apply hrest.frame
      intro r hr
      rw [hload₁, Function.update_of_ne (valueLink_next_injective.ne (hne hr))]
    have howner' : ∀ r ∈ xs, m₁.owner r = some k := by
      intro r hr
      rw [howner₁, Function.update_of_ne (hne hr)]
      exact howner r (List.mem_cons_of_mem a hr)
    obtain ⟨m', hloop, hkeys', hblocks', howners, hdatas, hloads⟩ :=
      @ih m₁ b fuel hrest₁ (by omega) howner' (by rw [hkeys.callback, hcallback])
    refine ⟨m', ?_, hkeys.trans hkeys', hblocks'.trans hblocks, ?_, ?_, ?_⟩
    · rw [loadValue_next hv] at hb
      rw [freeValues, if_neg ha0, hv, Option.bind_some, hkey, Option.bind_some, hfree,
        Option.bind_some, Option.some.inj hb, hloop, Option.map_some, hcb, List.flatMap_cons,
        data_of_flsValue hv, Option.getD_some]
      -- the records still to be freed hold what they did
      have hcalls : (xs.flatMap fun r => callsOf cb ((m₁.data r).getD 0)) =
          xs.flatMap fun r => callsOf cb ((m.data r).getD 0) := by
        apply List.flatMap_congr
        intro r hr
        rw [hdata₁, Function.update_of_ne (hne hr)]
      rw [hcalls]
    · intro r
      rw [howners, howner₁, forget_cons]
    · intro r
      rw [hdatas, hdata₁, forget_cons]
    · intro l hl
      rw [hloads l fun r hr => hl r (List.mem_cons_of_mem a hr), hload₁,
        Function.update_of_ne (hl a List.mem_cons_self)]

end Memory
end Fls
end ClamavWin32
