import ClamavWin32.Synchapi.FutexList
import ClamavWin32.Synchapi.FutexTheorems

/-!
# The lists in memory are the queues

* `Represents`: the state over lists and the state over queues;
* `Represents.step`: both take the same step, or neither takes one;
* `linked_run_represents`: they do so in every run. In particular no step dereferences a null
  pointer or the frame of a call that has returned, and both loops end.
-/

namespace ClamavWin32
namespace Futex

open CircularList IntrusiveList

variable {C : Type*}

/-! ## What the state over lists represents -/

/-- The call is in `WaitOnAddress`, behind the check of its arguments. -/
def Pc.HasFrame : Pc C → Prop
  | .waitLock .. | .waiting .. | .ended .. | .closed .. | .relock .. => True
  | _ => False

/-- A queue in memory, its entries in this order. -/
def nodes (q : Fin 256) (xs : List C) : List (Node C) := .queue q :: xs.map .entry

/-- The list of a queue, or the zeroes of a queue that was not used yet. -/
inductive QueueAt (m : CircularList.Memory (Node C)) (q : Fin 256) : List C → Prop
  | zero {links : Links (Node C)} (hlinks : m (.queue q) = some links)
      (hnext : links.next = none) : QueueAt m q []
  | listed {xs : List C} (hcircle : Circle m (nodes q xs : List (Node C))) : QueueAt m q xs

/-- The two states agree: the lists in memory are the queues, and the calls that are in
`WaitOnAddress` have a frame. -/
structure Represents (t : LinkedState C) (s : State C) : Prop where
  memory : t.memory = s.memory
  entry : t.entry = s.entry
  events : t.events = s.events
  pc : t.pc = s.pc
  removedBy : t.removedBy = s.removedBy
  signals : t.signals = s.signals
  queue : ∀ q, QueueAt t.links q (s.queues q)
  frame : ∀ c, (t.links (.entry c)).isSome ↔ (s.pc c).HasFrame

lemma mem_nodes_entry {q : Fin 256} {xs : List C} {c : C} :
    (.entry c : Node C) ∈ nodes q xs ↔ c ∈ xs := by
  simp [nodes]

lemma mem_nodes_queue {q q' : Fin 256} {xs : List C} :
    (.queue q' : Node C) ∈ nodes q xs ↔ q' = q := by
  simp [nodes]

/-- The queue only depends on the memory of its own nodes. -/
lemma QueueAt.congr {m m' : CircularList.Memory (Node C)} {q : Fin 256} {xs : List C}
    (h : QueueAt m q xs) (heq : ∀ n ∈ nodes q xs, m' n = m n) : QueueAt m' q xs := by
  cases h with
  | zero hlinks hnext =>
    exact .zero ((heq _ (mem_nodes_queue.mpr rfl)).trans hlinks) hnext
  | listed hcircle => exact .listed (hcircle.congr heq)

lemma QueueAt.isSome {m : CircularList.Memory (Node C)} {q : Fin 256} {xs : List C}
    (h : QueueAt m q xs) : (m (.queue q)).isSome := by
  cases h with
  | zero hlinks => rw [hlinks]; rfl
  | listed hcircle => exact hcircle.isSome _ (mem_nodes_queue.mpr rfl)

/-- No call is in two queues. -/
def OneQueue (queues : Fin 256 → List C) : Prop :=
  ∀ c q q', c ∈ queues q → c ∈ queues q' → q = q'

lemma QueueInv.oneQueue {s : State C} (h : QueueInv s) : OneQueue s.queues := by
  intro c q q' hc hc'
  obtain ⟨a, ha, hqa, -⟩ := h.queued c q hc
  obtain ⟨a', ha', hqa', -⟩ := h.queued c q' hc'
  rw [ha, Option.some.injEq] at ha'
  rw [hqa, hqa', ha']

variable {t : LinkedState C} {s : State C}

/-- **Frame rule.** The memory changes at the nodes of one queue, and at an entry that is in
none: the other queues stay. -/
lemma Represents.setLinks (h : Represents t s) (hone : OneQueue s.queues) {q : Fin 256}
    {xs : List C} {m' : CircularList.Memory (Node C)} (hqueue : QueueAt m' q xs)
    (hsub : ∀ c ∈ xs, c ∈ s.queues q ∨ ∀ q, c ∉ s.queues q)
    (hframe : ∀ n, n ∉ nodes q xs → n ∉ nodes q (s.queues q) → m' n = t.links n)
    (hsome : ∀ n, (m' n).isSome = (t.links n).isSome) :
    Represents (t.setLinks m') { s with queues := Function.update s.queues q xs } where
  memory := h.memory
  entry := h.entry
  events := h.events
  pc := h.pc
  removedBy := h.removedBy
  signals := h.signals
  frame c := by
    rw [LinkedState.setLinks, hsome]
    exact h.frame c
  queue q' := by
    show QueueAt m' q' (Function.update s.queues q xs q')
    by_cases hq : q' = q
    · subst hq
      rw [Function.update_self]
      exact hqueue
    · rw [Function.update_of_ne hq]
      refine (h.queue q').congr ?_
      intro n hn
      cases n with
      | queue p =>
        rw [mem_nodes_queue] at hn
        subst hn
        exact hframe _ (fun hp => hq (mem_nodes_queue.mp hp)) fun hp => hq (mem_nodes_queue.mp hp)
      | entry c =>
        rw [mem_nodes_entry] at hn
        refine hframe _ ?_ ?_
        · intro hc
          rcases hsub c (mem_nodes_entry.mp hc) with hc | hnone
          · exact hq (hone c q' q hn hc)
          · exact hnone q' hn
        · intro hc
          exact hq (hone c q' q hn (mem_nodes_entry.mp hc))

lemma update_queues_self (s : State C) (q : Fin 256) :
    { s with queues := Function.update s.queues q (s.queues q) } = s := by
  rw [Function.update_eq_self]

variable [DecidableEq C]

/-- A queue is initialised before it is used. -/
lemma Represents.initQueue (h : Represents t s) (hone : OneQueue s.queues) (q : Fin 256) :
    ∃ t', t.initQueue q = some t' ∧ Represents t' s ∧
      Circle t'.links (nodes q (s.queues q) : List (Node C)) := by
  have hqueue := h.queue q
  generalize hxs : s.queues q = xs at hqueue
  obtain ⟨links, hlinks⟩ := Option.isSome_iff_exists.mp hqueue.isSome
  rw [LinkedState.initQueue, hlinks]
  dsimp only
  by_cases hnext : links.next = none
  · -- the first use of the queue
    have hnil : xs = [] := by
      cases hqueue with
      | zero => rfl
      | listed hcircle =>
        have hlinked := hcircle.linked_next.1
        rw [Memory.next, hlinks, Option.bind_some, hnext] at hlinked
        cases hlinked
    subst hnil
    obtain ⟨m', hinit, hcircle, hframe, hsome⟩ :=
      list_init_spec (m := t.links) (h := .queue q) (by rw [hlinks]; rfl)
    rw [if_pos hnext, hinit]
    refine ⟨t.setLinks m', rfl, ?_, hcircle⟩
    have hempty : QueueAt m' q ([] : List C) := .listed hcircle
    have hrep := h.setLinks hone hempty (fun c hc => absurd hc List.not_mem_nil) ?_ hsome
    · rwa [← hxs, update_queues_self] at hrep
    · intro n hn _
      refine hframe n ?_
      rintro rfl
      exact hn (mem_nodes_queue.mpr rfl)
  · rw [if_neg hnext]
    refine ⟨t, rfl, h, ?_⟩
    cases hqueue with
    | zero hlinks' hnext' =>
      rw [hlinks, Option.some.injEq] at hlinks'
      exact absurd (hlinks' ▸ hnext') hnext
    | listed hcircle => exact hcircle

/-! ## The frames -/

lemma Represents.setPc (h : Represents t s) {c : C} {p : Pc C}
    (hframe : p.HasFrame ↔ (s.pc c).HasFrame) : Represents (t.setPc c p) (s.setPc c p) where
  memory := h.memory
  entry := h.entry
  events := h.events
  pc := by rw [LinkedState.setPc, h.pc, State.setPc_pc]
  removedBy := h.removedBy
  signals := h.signals
  queue := h.queue
  frame d := by
    rw [State.setPc_pc]
    by_cases hd : d = c
    · subst hd
      rw [Function.update_self, hframe]
      exact h.frame d
    · rw [Function.update_of_ne hd]
      exact h.frame d

/-- The links of a call that is in no queue belong to no list. -/
lemma Represents.setFrame (h : Represents t s) {c : C} {p : Pc C} {links : Option (Links (Node C))}
    (hnone : ∀ q, c ∉ s.queues q) (hframe : p.HasFrame ↔ links.isSome) :
    Represents ((t.setLinks (Function.update t.links (.entry c) links)).setPc c p)
      (s.setPc c p) where
  memory := h.memory
  entry := h.entry
  events := h.events
  pc := by
    show Function.update t.pc c p = _
    rw [h.pc, State.setPc_pc]
  removedBy := h.removedBy
  signals := h.signals
  queue q := by
    refine (h.queue q).congr ?_
    intro n hn
    refine Function.update_of_ne ?_ _ _
    rintro rfl
    exact hnone q (mem_nodes_entry.mp hn)
  frame d := by
    show (Function.update t.links (.entry c) links (.entry d)).isSome ↔ _
    rw [State.setPc_pc]
    by_cases hd : d = c
    · subst hd
      rw [Function.update_self, Function.update_self, hframe]
    · rw [Function.update_of_ne hd, Function.update_of_ne (fun heq => hd (Node.entry.inj heq))]
      exact h.frame d

/-! ## The changes of the lists -/

lemma Represents.enqueue (h : Represents t s) (hone : OneQueue s.queues) {c : C}
    (hnone : ∀ q, c ∉ s.queues q) (hframe : (s.pc c).HasFrame) (address : Addr)
    (event : Handle) :
    ∃ t', t.enqueue c address event = some t' ∧ Represents t' (s.enqueue c address event) := by
  -- the entry is filled in
  have hfilled : Represents
      { t with entry := Function.update t.entry c ⟨address, event⟩ }
      { s with entry := Function.update s.entry c ⟨address, event⟩ } :=
    ⟨h.memory, by rw [h.entry], h.events, h.pc, h.removedBy, h.signals, h.queue, h.frame⟩
  obtain ⟨t₁, hinit, hrep, hcircle⟩ := hfilled.initQueue hone (getFutexQueue address)
  have hnew : (.entry c : Node C) ∉
      nodes (getFutexQueue address) (s.queues (getFutexQueue address)) :=
    fun hc => hnone _ (mem_nodes_entry.mp hc)
  obtain ⟨m', htail, hcircle', hframe', hsome⟩ :=
    list_add_tail_spec hcircle ((hrep.frame c).mpr hframe) hnew
  refine ⟨t₁.setLinks m', ?_, ?_⟩
  · rw [LinkedState.enqueue]
    simp only [Option.bind_eq_bind, hinit, Option.bind_some, htail, Option.map_some]
  · have hnodes : nodes (getFutexQueue address) (s.queues (getFutexQueue address) ++ [c]) =
        .queue (getFutexQueue address) ::
          (((s.queues (getFutexQueue address)).map .entry) ++ [.entry c]) := by
      rw [nodes, List.map_append, List.map_singleton]
    refine hrep.setLinks hone (.listed (hnodes ▸ hcircle')) ?_ ?_ hsome
    · intro d hd
      rw [List.mem_append, List.mem_singleton] at hd
      refine hd.imp_right ?_
      rintro rfl
      exact hnone
    · intro n hn _
      exact hframe' n (hnodes ▸ hn)

lemma Represents.listRemove (h : Represents t s) (hone : OneQueue s.queues) {q : Fin 256}
    (hnodup : (s.queues q).Nodup) {c : C} (hc : c ∈ s.queues q) :
    ∃ t', t.listRemove c = some t' ∧ Represents t' (s.listRemove q c) ∧
      Circle t'.links (nodes q ((s.queues q).erase c) : List (Node C)) := by
  obtain ⟨xs, ys, hxs⟩ := List.append_of_mem hc
  have hnot : c ∉ xs := by
    rw [hxs] at hnodup
    intro hmem
    exact (List.nodup_append.mp hnodup).2.2 c hmem c List.mem_cons_self rfl
  have herase : (s.queues q).erase c = xs ++ ys := by
    rw [hxs, List.erase_append_right _ hnot, List.erase_cons_head]
  have hcircle : Circle t.links (.queue q :: (xs.map .entry ++ .entry c :: ys.map .entry) :
      List (Node C)) := by
    have hqueue := h.queue q
    rw [hxs] at hqueue
    generalize hzs : xs ++ c :: ys = zs at hqueue
    cases hqueue with
    | zero => simp at hzs
    | listed hcircle =>
      rw [← hzs, nodes, List.map_append, List.map_cons] at hcircle
      exact hcircle
  obtain ⟨m', hremove, hcircle', hframe, hsome⟩ := list_remove_spec hcircle
  have hnodes : nodes q (xs ++ ys) = .queue q :: (xs.map .entry ++ ys.map .entry) := by
    rw [nodes, List.map_append]
  rw [← hnodes] at hcircle' hframe
  refine ⟨t.setLinks m', ?_, ?_, herase ▸ hcircle'⟩
  · rw [LinkedState.listRemove, hremove, Option.map_some]
  · rw [State.listRemove, herase]
    refine h.setLinks hone (.listed hcircle') ?_ ?_ hsome
    · intro d hd
      rw [← herase] at hd
      exact Or.inl (List.mem_of_mem_erase hd)
    · intro n hn _
      exact hframe n hn

omit [DecidableEq C] in
lemma readEntry_eq {c : C} (h : (t.links (.entry c)).isSome) :
    t.readEntry c = some (t.entry c) := by
  obtain ⟨l, hl⟩ := Option.isSome_iff_exists.mp h
  rw [LinkedState.readEntry, hl, Option.map_some]

lemma Represents.dequeue (h : Represents t s) (hinv : QueueInv s) {q : Fin 256} {c : C}
    (hc : c ∈ s.queues q) (w : C) :
    ∃ t', t.dequeue w c = some t' ∧ Represents t' (s.dequeue w q c) ∧
      Circle t'.links (nodes q ((s.queues q).erase c) : List (Node C)) := by
  have hframe : (s.pc c).HasFrame := by
    obtain ⟨a, ha, -⟩ := hinv.queued c q hc
    cases hpc : s.pc c <;> rw [hpc] at ha <;> trivial
  have hcleared : Represents
      { t with
        entry := Function.update t.entry c { t.entry c with address := 0 }
        removedBy := Function.update t.removedBy c (some w) }
      { s with
        entry := Function.update s.entry c { s.entry c with address := 0 }
        removedBy := Function.update s.removedBy c (some w) } :=
    ⟨h.memory, by rw [h.entry], h.events, h.pc, by rw [h.removedBy], h.signals, h.queue, h.frame⟩
  obtain ⟨t', hremove, hrep, hcircle⟩ := hcleared.listRemove hinv.oneQueue (hinv.nodup q) hc
  refine ⟨t', ?_, hrep, hcircle⟩
  rw [LinkedState.dequeue, readEntry_eq ((h.frame c).mpr hframe)]
  exact hremove

/-! ## The loops -/

/-- Where the cursor is when these entries are still to be visited. -/
def first (q : Fin 256) : List C → Node C
  | [] => .queue q
  | c :: _ => .entry c

omit [DecidableEq C] in
lemma next_queue {m : CircularList.Memory (Node C)} {q : Fin 256} {xs : List C}
    (h : Circle m (nodes q xs : List (Node C))) : m.next (.queue q) = some (first q xs) := by
  have hnext := h.linked_next.1
  cases xs <;> exact hnext

omit [DecidableEq C] in
lemma next_entry {m : CircularList.Memory (Node C)} {q : Fin 256} {xs ys : List C} {c : C}
    (h : Circle m (nodes q (xs ++ c :: ys) : List (Node C))) :
    m.next (.entry c) = some (first q ys) := by
  have hfrom : Circle m (.entry c :: (ys.map .entry ++ nodes q xs) : List (Node C)) := by
    rw [nodes, List.map_append, ← List.cons_append] at h
    exact h.rotate
  have hnext := hfrom.linked_next.1
  cases ys <;> exact hnext

omit [DecidableEq C] in
/-- The node behind the cursor exists, so its link can be read. -/
lemma exists_next_first {m : CircularList.Memory (Node C)} {q : Fin 256} {xs ys : List C}
    (h : Circle m (nodes q (xs ++ ys) : List (Node C))) :
    ∃ n, m.next (first q ys) = some n ∧ ∀ c ys', ys = c :: ys' → n = first q ys' := by
  cases ys with
  | nil =>
    rw [List.append_nil] at h
    exact ⟨_, next_queue h, nofun⟩
  | cons c ys =>
    refine ⟨_, next_entry h, ?_⟩
    rintro d ys' heq
    rw [(List.cons.inj heq).2]

/-- The loop of `WakeByAddressSingle` finds the first entry for the address. -/
lemma wakeByAddressSingle_eq {w : C} {address : Addr} {pre post : List C} {fuel : ℕ}
    (hcircle : Circle t.links (nodes (getFutexQueue address) (pre ++ post) : List (Node C)))
    (hfuel : post.length < fuel) :
    LinkedState.wakeByAddressSingle w address fuel (first (getFutexQueue address) post) t =
      match post.find? fun c => (t.entry c).address = address with
      | none => some (t, [])
      | some c => (t.dequeue w c).map fun t' => (t', [⟨(t.entry c).event, c⟩]) := by
  induction post generalizing pre fuel with
  | nil =>
    obtain ⟨fuel, rfl⟩ := Nat.exists_eq_succ_of_ne_zero (Nat.ne_zero_of_lt hfuel)
    rw [first, LinkedState.wakeByAddressSingle, if_pos rfl]
    rfl
  | cons c post ih =>
    obtain ⟨fuel, rfl⟩ := Nat.exists_eq_succ_of_ne_zero (Nat.ne_zero_of_lt hfuel)
    have hlive : (t.links (.entry c)).isSome :=
      hcircle.isSome _ (mem_nodes_entry.mpr (List.mem_append_right _ List.mem_cons_self))
    rw [first, LinkedState.wakeByAddressSingle, if_neg nofun]
    simp only [Node.entry?, Option.bind_some, readEntry_eq hlive]
    by_cases haddr : (t.entry c).address = address
    · rw [if_pos haddr, List.find?_cons_of_pos (by simpa using haddr)]
    · rw [if_neg haddr, List.find?_cons_of_neg (by simpa using haddr), next_entry hcircle,
        Option.bind_some]
      have happend : pre ++ c :: post = (pre ++ [c]) ++ post := by
        rw [List.append_assoc, List.singleton_append]
      rw [happend] at hcircle
      exact ih hcircle (Nat.lt_of_succ_lt_succ hfuel)

omit [DecidableEq C] in
lemma Represents.signal (h : Represents t s) (p : Pending C) :
    Represents (t.signal p) (s.signal p) where
  memory := h.memory
  entry := h.entry
  events := by rw [LinkedState.signal, h.events, State.signal_events]
  pc := h.pc
  removedBy := h.removedBy
  signals := by
    show t.signals ++ [⟨p.call, t.events.owner p.event⟩] = _
    rw [h.signals, h.events]
    rfl
  queue := h.queue
  frame := h.frame

/-- The loop of `WakeByAddressAll` visits every entry, though it removes some on its way: the
entries that were kept are before the cursor. -/
lemma wakeByAddressAll_represents {w : C} {address : Addr} {kept rest : List C} {fuel : ℕ}
    {next : Node C} {buf : List (Pending C)} (h : Represents t s) (hinv : QueueInv s)
    (hqueue : s.queues (getFutexQueue address) = kept ++ rest)
    (hcircle : Circle t.links (nodes (getFutexQueue address) (kept ++ rest) : List (Node C)))
    (hnext : ∀ c rest', rest = c :: rest' → next = first (getFutexQueue address) rest')
    (hfuel : rest.length < fuel) :
    ∃ t', LinkedState.wakeByAddressAll w address fuel (first (getFutexQueue address) rest) next t
        buf = some (t', (State.wakeByAddressAll w address rest s buf).2) ∧
      Represents t' (State.wakeByAddressAll w address rest s buf).1 := by
  induction rest generalizing kept fuel next buf t s with
  | nil =>
    obtain ⟨fuel, rfl⟩ := Nat.exists_eq_succ_of_ne_zero (Nat.ne_zero_of_lt hfuel)
    rw [first, LinkedState.wakeByAddressAll, if_pos rfl]
    exact ⟨t, rfl, h⟩
  | cons c rest ih =>
    obtain ⟨fuel, rfl⟩ := Nat.exists_eq_succ_of_ne_zero (Nat.ne_zero_of_lt hfuel)
    have hfuel' : rest.length < fuel := Nat.lt_of_succ_lt_succ hfuel
    have hmem : c ∈ kept ++ c :: rest := List.mem_append_right _ List.mem_cons_self
    have hlive : (t.links (.entry c)).isSome := hcircle.isSome _ (mem_nodes_entry.mpr hmem)
    obtain rfl := hnext c rest rfl
    rw [first, LinkedState.wakeByAddressAll, if_neg nofun, State.wakeByAddressAll]
    simp only [Node.entry?, Option.bind_some, readEntry_eq hlive, ← h.entry]
    by_cases haddr : (t.entry c).address = address
    · -- the entry is removed, and the rest of the list is as before
      rw [if_pos haddr, if_pos haddr]
      obtain ⟨t₁, hdequeue, hrep, hcircle₁⟩ := h.dequeue hinv (hqueue ▸ hmem) w
      have hinv₁ : QueueInv (s.dequeue w (getFutexQueue address) c) := hinv.dequeue (hqueue ▸ hmem)
      have hqueue₁ : (s.queues (getFutexQueue address)).erase c = kept ++ rest := by
        have hnot : c ∉ kept := by
          have hnodup := hinv.nodup (getFutexQueue address)
          rw [hqueue] at hnodup
          intro hc
          exact (List.nodup_append.mp hnodup).2.2 c hc c List.mem_cons_self rfl
        rw [hqueue, List.erase_append_right _ hnot, List.erase_cons_head]
      rw [hqueue₁] at hcircle₁
      have hlive₁ : (t₁.links (.entry c)).isSome := by
        rw [hrep.frame, State.dequeue_pc, ← h.frame]
        exact hlive
      have hevent : (t₁.entry c).event = (t.entry c).event := by
        rw [hrep.entry, h.entry, State.dequeue_entry_event]
      obtain ⟨n, hn, hn'⟩ := exists_next_first hcircle₁
      simp only [hdequeue, Option.bind_some, readEntry_eq hlive₁, hn, hevent]
      have hqueue₂ : (s.dequeue w (getFutexQueue address) c).queues (getFutexQueue address) =
          kept ++ rest := by
        rw [State.dequeue_queues, Function.update_self, hqueue₁]
      split_ifs
      · exact ih hrep hinv₁ hqueue₂ hcircle₁ hn' hfuel'
      · refine ih (hrep.signal _) ?_ hqueue₂ hcircle₁ hn' hfuel'
        exact ⟨hinv₁.nodup, hinv₁.queued, hinv₁.entry, hinv₁.noEntry, hinv₁.wakeAddress⟩
    · rw [if_neg haddr, if_neg haddr]
      have happend : kept ++ c :: rest = (kept ++ [c]) ++ rest := by
        rw [List.append_assoc, List.singleton_append]
      rw [happend] at hqueue hcircle
      obtain ⟨n, hn, hn'⟩ := exists_next_first hcircle
      rw [hn, Option.bind_some]
      exact ih h hinv hqueue hcircle hn' hfuel'

/-- **The section of a wake call** is the section over the queues. -/
lemma Represents.wakeLoop (h : Represents t s) (hinv : QueueInv s) {address : Addr} {fuel : ℕ}
    (hfuel : (s.queues (getFutexQueue address)).length < fuel) (w : C) (all : Bool) :
    ∃ t', t.wakeLoop fuel w all address = some (t', (s.wakeLoop w all address).2) ∧
      Represents t' (s.wakeLoop w all address).1 := by
  obtain ⟨t₁, hinit, hrep, hcircle⟩ := h.initQueue hinv.oneQueue (getFutexQueue address)
  rw [LinkedState.wakeLoop]
  simp only [Option.bind_eq_bind, hinit, Option.bind_some, next_queue hcircle]
  rw [← List.nil_append (s.queues (getFutexQueue address))] at hcircle
  cases all with
  | true =>
    rw [if_pos rfl, State.wakeLoop, if_pos rfl]
    obtain ⟨n, hn, hn'⟩ := exists_next_first hcircle
    rw [hn, Option.bind_some]
    exact wakeByAddressAll_represents hrep hinv rfl hcircle hn' hfuel
  | false =>
    rw [if_neg Bool.false_ne_true, State.wakeLoop, if_neg Bool.false_ne_true,
      wakeByAddressSingle_eq hcircle hfuel, State.wakeByAddressSingle, hrep.entry]
    cases hfind : (s.queues (getFutexQueue address)).find?
        fun c => (s.entry c).address = address with
    | none => exact ⟨t₁, rfl, hrep⟩
    | some c =>
      obtain ⟨t₂, hdequeue, hrep₂, -⟩ :=
        hrep.dequeue hinv (List.mem_of_find?_eq_some hfind) w
      refine ⟨t₂, ?_, hrep₂⟩
      dsimp only
      rw [hdequeue, Option.map_some]

/-! ## Runs -/

/-- A call returns: the frame that is gone was in no queue. -/
lemma Represents.leaveFrame (h : Represents t s) {c : C} (hnone : ∀ q, c ∉ s.queues q)
    (result : Bool) : Represents (t.leaveFrame c result) (s.setPc c (.waitReturned result)) :=
  h.setFrame hnone (iff_of_false id nofun)

lemma Represents.setPending (h : Represents t s) {w : C} (hpc : ¬(s.pc w).HasFrame)
    (events : List (Pending C)) : Represents (t.setPending w events) (s.setPending w events) := by
  refine h.setPc (iff_of_false ?_ hpc)
  split_ifs <;> exact id

/-- **Step lemma.** The state over lists takes the step that the state over queues takes, and no
other. -/
theorem Represents.step (h : Represents t s) (hinv : QueueInv s) {fuel : ℕ}
    (hfuel : ∀ q, (s.queues q).length < fuel) (stack : C → Links (Node C)) (a : Action C) :
    Option.Rel Represents (linkedStep fuel stack t a) (Futex.step s a) := by
  cases a with
  | callWait c address compare size ms =>
    simp only [linkedStep, Futex.step, h.pc]
    cases hpc : s.pc c with
    | notCalled =>
      dsimp only
      split_ifs
      · exact .some (h.setPc (by rw [hpc]; exact Iff.rfl))
      · refine .some (h.setFrame ?_ (iff_of_true trivial rfl))
        exact hinv.not_mem_of_inWait_eq_none (by rw [hpc]; rfl)
    | _ => exact .none
  | waitSection c created =>
    simp only [linkedStep, Futex.step, h.pc, h.memory, h.events]
    cases hpc : s.pc c with
    | waitLock address compare size ms =>
      have hnone : ∀ q, c ∉ s.queues q := hinv.not_mem_of_inWait_eq_none (by rw [hpc]; rfl)
      dsimp only
      split_ifs
      · exact .none
      · exact .some (h.leaveFrame hnone true)
      · exact .some (h.leaveFrame hnone false)
      · exact .none
      · have hcreated : Represents
            { t with memory := s.memory, events := s.events.create created c, pc := s.pc }
            { s with events := s.events.create created c } :=
          ⟨rfl, h.entry, rfl, rfl, h.removedBy, h.signals, h.queue, h.frame⟩
        obtain ⟨t', henqueue, hrep⟩ := hcreated.enqueue hinv.oneQueue (c := c) hnone
          (by show (s.pc c).HasFrame; rw [hpc]; trivial) address created
        rw [henqueue, Option.map_some]
        refine .some (hrep.setPc (iff_of_true trivial ?_))
        rw [State.enqueue_pc, hpc]
        trivial
    | _ => exact .none
  | endWait c r =>
    simp only [linkedStep, Futex.step, h.pc, h.events, h.entry]
    cases hpc : s.pc c with
    | waiting address ms =>
      dsimp only
      split_ifs
      · refine .some (Represents.setPc ?_ (iff_of_true trivial (by rw [hpc]; trivial)))
        exact ⟨h.memory, rfl, rfl, rfl, h.removedBy, h.signals, h.queue, h.frame⟩
      · exact .none
    | _ => exact .none
  | closeHandle c =>
    simp only [linkedStep, Futex.step, h.pc, h.events, h.entry]
    cases hpc : s.pc c with
    | ended address r =>
      refine .some (Represents.setPc ?_ (iff_of_true trivial (by rw [hpc]; trivial)))
      exact ⟨h.memory, rfl, rfl, rfl, h.removedBy, h.signals, h.queue, h.frame⟩
    | _ => exact .none
  | readAddress c =>
    simp only [linkedStep, Futex.step, h.pc, h.entry]
    cases hpc : s.pc c with
    | closed address r =>
      dsimp only
      split_ifs with haddr
      · exact .some (h.setPc (iff_of_true trivial (by rw [hpc]; trivial)))
      · exact .some (h.leaveFrame (hinv.not_mem_of_address_eq_zero (not_not.mp haddr)) _)
    | _ => exact .none
  | relockSection c =>
    simp only [linkedStep, Futex.step, h.pc, h.entry]
    cases hpc : s.pc c with
    | relock address r =>
      dsimp only
      split_ifs with haddr
      · -- the entry is still queued
        have hw : (s.pc c).inWait = some address := by rw [hpc]; rfl
        obtain ⟨-, ⟨-, hc, -⟩ | ⟨hzero, -⟩⟩ := hinv.entry c address hw
        · obtain ⟨t', hremove, hrep, -⟩ := h.listRemove hinv.oneQueue (hinv.nodup _) hc
          rw [hremove, Option.map_some]
          refine .some (hrep.leaveFrame ?_ _)
          intro q hq
          exact ((hinv.mem_listRemove hw q c).mp hq).2 rfl
        · exact absurd hzero haddr
      · exact .some (h.leaveFrame (hinv.not_mem_of_address_eq_zero (not_not.mp haddr)) _)
    | _ => exact .none
  | callWake w all address =>
    simp only [linkedStep, Futex.step, h.pc]
    cases hpc : s.pc w with
    | notCalled =>
      dsimp only
      split_ifs
      · exact .some (h.setPc (by rw [hpc]; exact Iff.rfl))
      · exact .some (h.setPc (by rw [hpc]; exact Iff.rfl))
    | _ => exact .none
  | wakeSection w =>
    simp only [linkedStep, Futex.step, h.pc]
    cases hpc : s.pc w with
    | wakeLock all address =>
      obtain ⟨t', hloop, hrep⟩ := h.wakeLoop hinv (hfuel (getFutexQueue address)) w all
      dsimp only
      rw [hloop, Option.map_some]
      refine .some (hrep.setPending ?_ _)
      rw [wakeLoop_pc, hpc]
      exact id
    | _ => exact .none
  | setEvent w =>
    simp only [linkedStep, Futex.step, h.pc]
    cases hpc : s.pc w with
    | signalling events =>
      cases events with
      | nil => exact .none
      | cons p rest =>
        refine .some ((h.signal p).setPending ?_ rest)
        rw [State.signal_pc, hpc]
        exact id
    | _ => exact .none
  | store address value =>
    refine .some ⟨?_, h.entry, h.events, h.pc, h.removedBy, h.signals, h.queue, h.frame⟩
    show Function.update t.memory address value = _
    rw [h.memory]

/-- A step enters at most one entry in a queue. -/
lemma length_queues_of_step (hinv : QueueInv s) {s' : State C} {a : Action C}
    (hstep : Futex.step s a = some s') (q : Fin 256) :
    (s'.queues q).length ≤ (s.queues q).length + 1 := by
  have herase : ∀ (u : State C) (p : Fin 256) (c : C),
      ((u.listRemove p c).queues q).length ≤ (u.queues q).length := by
    intro u p c
    by_cases hq : q = p
    · subst hq
      simpa [State.listRemove] using List.length_erase_le
    · simp [State.listRemove, hq]
  cases effect_of_step hstep with
  | @waitEnqueues c _ address =>
    by_cases hq : q = getFutexQueue address
    · subst hq
      simp [State.enqueue]
    · simp [State.enqueue, hq]
  | relockQueued => exact Nat.le_succ_of_le (herase ..)
  | @wakeSection w all address hpc =>
    refine Nat.le_succ_of_le ?_
    refine wakeLoop_induction (P := fun u _ => (u.queues q).length ≤ (s.queues q).length)
      (hinv.nodup _) le_rfl ?_ ?_
    · intro u _ c hu _ _ _ _
      exact (herase u _ c).trans hu
    · intro u _ c hu _ _ _ _
      exact (herase u _ c).trans hu
  | _ => exact Nat.le_succ _

/-- **Run lemma.** -/
lemma Represents.run (h : Represents t s) (hinv : QueueInv s) {fuel n : ℕ} {as : List (Action C)}
    (hlen : ∀ q, (s.queues q).length ≤ n) (hfuel : n + as.length < fuel)
    (stack : C → Links (Node C)) :
    Option.Rel Represents (TransitionSystem.run (linkedStep fuel stack) t as)
      (TransitionSystem.run Futex.step s as) := by
  induction as generalizing t s n with
  | nil => exact .some h
  | cons a as ih =>
    rw [List.length_cons] at hfuel
    have hbound : ∀ q, (s.queues q).length < fuel := by
      intro q
      have hq := hlen q
      omega
    have hstep := h.step hinv hbound stack a
    rw [TransitionSystem.run_cons, TransitionSystem.run_cons]
    cases hs : Futex.step s a with
    | none =>
      rw [hs] at hstep
      cases ht : linkedStep fuel stack t a with
      | none => exact .none
      | some t' => rw [ht] at hstep; cases hstep
    | some s' =>
      rw [hs] at hstep
      cases ht : linkedStep fuel stack t a with
      | none => rw [ht] at hstep; cases hstep
      | some t' =>
        rw [ht] at hstep
        cases hstep with
        | some hrep =>
          refine ih (n := n + 1) hrep (hinv.step hs) ?_ (by omega)
          intro q
          exact (length_queues_of_step hinv hs q).trans (Nat.succ_le_succ (hlen q))

omit [DecidableEq C] in
lemma represents_init (memory : Addr → Word) :
    Represents (LinkedState.init memory : LinkedState C) (State.init memory) where
  memory := rfl
  entry := rfl
  events := rfl
  pc := rfl
  removedBy := rfl
  signals := rfl
  queue _ := .zero rfl rfl
  frame _ := iff_of_false nofun id

/-- **The futex queue in memory.** In every run of any number of calls, whatever was on their
stacks, the functions over the lists take the steps of the functions over the queues: the list of
each queue goes through the frames of the calls that wait there and have not returned, in both
directions and in the order in which they came, no null pointer and no frame that is gone is
dereferenced, and the loops end within one round for each step made so far. -/
theorem linked_run_represents (memory : Addr → Word) (stack : C → Links (Node C))
    (as : List (Action C)) (spare : ℕ) :
    Option.Rel Represents
      (TransitionSystem.run (linkedStep (as.length + spare + 1) stack) (LinkedState.init memory) as)
      (TransitionSystem.run Futex.step (State.init memory) as) := by
  refine (represents_init memory).run (QueueInv.init memory) (n := 0) ?_ (by omega) stack
  intro q
  exact Nat.le_refl 0

end Futex
end ClamavWin32
