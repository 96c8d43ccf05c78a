import Mathlib.Data.List.Cycle

/-!
# Circular doubly linked lists

Nodes with a `next` and a `prev` link, in a memory where some nodes exist and some do not. A
list is a cycle of distinct nodes, each linked to the one after it and back; which of them is
the head of the list is up to its user.

* `Linked`, `Circle`: what the memory holds where there is such a list;
* `link`: both links between two nodes;
* `Circle.insert`, `Circle.remove`: the two changes of a list, each as links that are made;
* `Circle.congr`: a list depends on the memory of its own nodes.
-/

namespace ClamavWin32
namespace CircularList

variable {N : Type*}

/-- The links of a node, `none` where there is a null pointer. -/
structure Links (N : Type*) where
  next : Option N
  prev : Option N
  deriving DecidableEq

/-- The nodes that exist, with their links. -/
abbrev Memory (N : Type*) := N → Option (Links N)

namespace Memory

variable (m : Memory N)

/-- The link to the node behind an existing one. -/
def next (n : N) : Option N := (m n).bind Links.next

/-- The link to the node before an existing one. -/
def prev (n : N) : Option N := (m n).bind Links.prev

variable [DecidableEq N]

def setNext (n : N) (v : Option N) : Memory N :=
  Function.update m n ((m n).map fun l => { l with next := v })

def setPrev (n : N) (v : Option N) : Memory N :=
  Function.update m n ((m n).map fun l => { l with prev := v })

/-- `a` is before `b` from now on. -/
def link (a b : N) : Memory N := (m.setNext a (some b)).setPrev b (some a)

variable {m} {n k : N} {v : Option N}

@[simp] lemma setNext_of_ne (h : k ≠ n) : m.setNext n v k = m k := Function.update_of_ne h ..

@[simp] lemma setPrev_of_ne (h : k ≠ n) : m.setPrev n v k = m k := Function.update_of_ne h ..

@[simp] lemma isSome_setNext : (m.setNext n v k).isSome = (m k).isSome := by
  by_cases hk : k = n
  · subst hk
    simp [setNext]
  · rw [setNext_of_ne hk]

@[simp] lemma isSome_setPrev : (m.setPrev n v k).isSome = (m k).isSome := by
  by_cases hk : k = n
  · subst hk
    simp [setPrev]
  · rw [setPrev_of_ne hk]

@[simp] lemma isSome_link {a b : N} : (m.link a b k).isSome = (m k).isSome := by
  rw [link, isSome_setPrev, isSome_setNext]

lemma link_of_ne {a b : N} (ha : k ≠ a) (hb : k ≠ b) : m.link a b k = m k := by
  rw [link, setPrev_of_ne hb, setNext_of_ne ha]

@[simp] lemma next_setPrev : (m.setPrev n v).next k = m.next k := by
  by_cases hk : k = n
  · subst hk
    cases hm : m k <;> simp [next, setPrev, hm]
  · rw [next, setPrev_of_ne hk, next]

@[simp] lemma prev_setNext : (m.setNext n v).prev k = m.prev k := by
  by_cases hk : k = n
  · subst hk
    cases hm : m k <;> simp [prev, setNext, hm]
  · rw [prev, setNext_of_ne hk, prev]

lemma next_setNext_of_ne (h : k ≠ n) : (m.setNext n v).next k = m.next k := by
  rw [next, setNext_of_ne h, next]

lemma prev_setPrev_of_ne (h : k ≠ n) : (m.setPrev n v).prev k = m.prev k := by
  rw [prev, setPrev_of_ne h, prev]

lemma next_setNext_self (h : (m n).isSome) : (m.setNext n v).next n = v := by
  obtain ⟨l, hl⟩ := Option.isSome_iff_exists.mp h
  simp [next, setNext, hl]

lemma prev_setPrev_self (h : (m n).isSome) : (m.setPrev n v).prev n = v := by
  obtain ⟨l, hl⟩ := Option.isSome_iff_exists.mp h
  simp [prev, setPrev, hl]

end Memory

/-! ## Linked nodes -/

/-- `a` is before `b`, by the links of both. -/
def Linked (m : Memory N) (a b : N) : Prop := m.next a = some b ∧ m.prev b = some a

lemma Linked.congr {m m' : Memory N} {a b : N} (h : Linked m a b) (ha : m' a = m a)
    (hb : m' b = m b) : Linked m' a b := by
  rw [Linked, Memory.next, Memory.prev, ha, hb]
  exact h

lemma Linked.isSome {m : Memory N} {a b : N} (h : Linked m a b) :
    (m a).isSome ∧ (m b).isSome := by
  constructor
  · cases ha : m a with
    | none => simp [Linked, Memory.next, ha] at h
    | some l => rfl
  · cases hb : m b with
    | none => simp [Linked, Memory.prev, hb] at h
    | some l => rfl

section Link

variable [DecidableEq N] {m : Memory N} {a b x y : N}

lemma linked_link (ha : (m a).isSome) (hb : (m b).isSome) : Linked (m.link a b) a b := by
  constructor
  · rw [Memory.link, Memory.next_setPrev, Memory.next_setNext_self ha]
  · rw [Memory.link, Memory.prev_setPrev_self]
    rw [Memory.isSome_setNext]
    exact hb

/-- A new link leaves the others between nodes of which it gives neither a successor nor a
predecessor. -/
lemma Linked.link (h : Linked m x y) (hx : x ≠ a) (hy : y ≠ b) : Linked (m.link a b) x y := by
  constructor
  · rw [Memory.link, Memory.next_setPrev, Memory.next_setNext_of_ne hx]
    exact h.1
  · rw [Memory.link, Memory.prev_setPrev_of_ne hy, Memory.prev_setNext]
    exact h.2

end Link

/-! ## The list -/

/-- The nodes of the cycle are distinct, and each one is linked to the next. -/
structure Circle (m : Memory N) (c : Cycle N) : Prop where
  nodup : c.Nodup
  chain : c.Chain (Linked m)

/-- What follows from the neighbours in a list that are not cut off at its ends. -/
lemma isChain_imp {R S : N → N → Prop} {l : List N} (h : l.IsChain R)
    (himp : ∀ a ∈ l.dropLast, ∀ b ∈ l.tail, R a b → S a b) : l.IsChain S := by
  induction l with
  | nil => exact .nil
  | cons x l ih =>
    cases l with
    | nil => exact .singleton x
    | cons y l =>
      rw [List.isChain_cons_cons] at h ⊢
      refine ⟨himp x (by simp) y (by simp) h.1, ih h.2 ?_⟩
      intro a ha b hb hab
      refine himp a ?_ b ?_ hab
      · rw [List.dropLast_cons_cons]
        exact List.mem_cons_of_mem x ha
      · exact List.mem_of_mem_tail hb

/-- The last node of a list of distinct ones is not among the others. -/
lemma ne_getLast_of_mem_dropLast {l : List N} (hnodup : l.Nodup) (hne : l ≠ []) {a : N}
    (ha : a ∈ l.dropLast) : a ≠ l.getLast hne := by
  rintro rfl
  rw [← List.dropLast_append_getLast hne, List.nodup_append] at hnodup
  exact hnodup.2.2 _ ha _ (List.mem_singleton.mpr rfl) rfl

namespace Circle

variable {m m' : Memory N} {e x : N} {xs ys : List N}

lemma cons_iff : Circle m (e :: xs : List N) ↔
    (e :: xs).Nodup ∧ (e :: (xs ++ [e])).IsChain (Linked m) :=
  ⟨fun h => ⟨h.nodup, h.chain⟩, fun h => ⟨h.1, h.2⟩⟩

/-- A list may be looked at from any of its nodes. -/
lemma rotate (h : Circle m (xs ++ ys : List N)) : Circle m (ys ++ xs : List N) := by
  have heq : ((xs ++ ys : List N) : Cycle N) = (ys ++ xs : List N) :=
    Cycle.coe_eq_coe.mpr (List.isRotated_append ..)
  rw [← heq]
  exact h

lemma congr {c : Cycle N} (h : Circle m c) (heq : ∀ n ∈ c, m' n = m n) : Circle m' c := by
  refine ⟨h.nodup, ?_⟩
  have hchain := h.chain
  revert hchain heq
  refine Quotient.inductionOn c ?_
  intro l heq hchain
  cases l with
  | nil => trivial
  | cons e xs =>
    refine List.IsChain.imp_of_mem_imp ?_ hchain
    intro a b ha hb hab
    have hmem : ∀ n ∈ e :: (xs ++ [e]), n ∈ (e :: xs : List N) := by
      intro n hn
      rw [← List.cons_append, List.mem_append, List.mem_singleton] at hn
      exact hn.elim id fun h => h ▸ List.mem_cons_self
    exact hab.congr (heq a (hmem a ha)) (heq b (hmem b hb))

lemma isSome {c : Cycle N} (h : Circle m c) : ∀ n ∈ c, (m n).isSome := by
  have hchain := h.chain
  revert hchain
  refine Quotient.inductionOn c ?_
  intro l hchain n hn
  obtain ⟨xs, ys, rfl⟩ := List.append_of_mem hn
  have hrot : Cycle.Chain (Linked m) ((n :: (ys ++ xs) : List N) : Cycle N) := by
    have heq : ((xs ++ n :: ys : List N) : Cycle N) = (n :: ys ++ xs : List N) :=
      Cycle.coe_eq_coe.mpr (List.isRotated_append ..)
    exact heq ▸ hchain
  rw [Cycle.chain_coe_cons] at hrot
  cases hzs : ys ++ xs ++ [n] with
  | nil => simp at hzs
  | cons z zs =>
    rw [hzs, List.isChain_cons_cons] at hrot
    exact hrot.1.isSome.1

/-- The neighbours of a node. -/
lemma linked_next (h : Circle m (e :: xs : List N)) :
    Linked m e ((xs ++ [e]).head (by simp)) := by
  have hchain := (cons_iff.mp h).2
  cases xs with
  | nil => exact (List.isChain_cons_cons.mp hchain).1
  | cons x xs => exact (List.isChain_cons_cons.mp hchain).1

lemma linked_prev (h : Circle m (e :: xs : List N)) :
    Linked m ((e :: xs).getLast (List.cons_ne_nil e xs)) e := by
  have hchain := (cons_iff.mp h).2
  rw [← List.cons_append] at hchain
  have hlast := (List.isChain_append.mp hchain).2.2
  exact hlast _ (List.getLast?_eq_some_getLast _) e rfl

variable [DecidableEq N]

/-- **Insertion** of a node before the first one: it is linked to the two nodes around it. -/
lemma insert (h : Circle m (e :: xs : List N)) (hx : (m x).isSome) (hnew : x ∉ e :: xs) :
    Circle ((m.link ((e :: xs).getLast (List.cons_ne_nil e xs)) x).link x e)
      (e :: (xs ++ [x]) : List N) := by
  obtain ⟨hnodup, hchain⟩ := cons_iff.mp h
  have hprev := h.linked_prev
  rw [← List.cons_append] at hchain
  generalize hp : (e :: xs).getLast (List.cons_ne_nil e xs) = p at hprev ⊢
  have hpmem : p ∈ e :: xs := hp ▸ List.getLast_mem _
  have hpx : p ≠ x := fun heq => hnew (heq ▸ hpmem)
  have hxe : x ≠ e := fun heq => hnew (heq ▸ List.mem_cons_self)
  rw [cons_iff]
  constructor
  · rw [← List.cons_append, List.nodup_append]
    refine ⟨hnodup, List.nodup_singleton x, ?_⟩
    rintro a ha b hb rfl
    exact hnew (List.mem_singleton.mp hb ▸ ha)
  · -- the links between the nodes that were there, and the two new ones
    have hold : (e :: xs).IsChain
        (Linked ((m.link p x).link x e)) := by
      refine isChain_imp (List.isChain_append.mp hchain).1 ?_
      intro a ha b hb hab
      have ha' : a ∈ e :: xs := List.mem_of_mem_dropLast ha
      have hb' : b ∈ e :: xs := List.mem_of_mem_tail hb
      have hap : a ≠ p := hp ▸ ne_getLast_of_mem_dropLast hnodup _ ha
      have hbe : b ≠ e := by
        rintro rfl
        exact (List.nodup_cons.mp hnodup).1 hb
      have hax : a ≠ x := fun heq => hnew (heq ▸ ha')
      have hbx : b ≠ x := fun heq => hnew (heq ▸ hb')
      exact (hab.link hap hbx).link hax hbe
    have hsome : ((m.link p x) x).isSome ∧ ((m.link p x) e).isSome := by
      rw [Memory.isSome_link, Memory.isSome_link]
      exact ⟨hx, hprev.isSome.2⟩
    have hin : Linked ((m.link p x).link x e) p x :=
      (linked_link hprev.isSome.1 hx).link hpx hxe
    have hout : Linked ((m.link p x).link x e) x e := linked_link hsome.1 hsome.2
    rw [List.append_assoc, ← List.cons_append]
    refine List.IsChain.append hold ?_ ?_
    · exact List.isChain_pair.mpr hout
    · intro a ha b hb
      rw [List.getLast?_eq_some_getLast (List.cons_ne_nil e xs), hp] at ha
      obtain rfl : p = a := Option.some.inj ha
      obtain rfl : x = b := Option.some.inj hb
      exact hin

/-- **Removal** of the first node: the nodes around it are linked to each other. -/
lemma remove (h : Circle m (e :: xs : List N)) (hne : xs ≠ []) :
    Circle (m.link (xs.getLast hne) (xs.head hne)) (xs : Cycle N) := by
  obtain ⟨hnodup, hchain⟩ := cons_iff.mp h
  obtain ⟨hnot, hnodup'⟩ := List.nodup_cons.mp hnodup
  have hlast := h.linked_prev
  have hnext := h.linked_next
  rw [List.getLast_cons hne] at hlast
  rw [List.head_append_of_ne_nil hne] at hnext
  cases xs with
  | nil => exact absurd rfl hne
  | cons n ws =>
    rw [List.head_cons] at hnext ⊢
    generalize hp : (n :: ws).getLast hne = p at hlast ⊢
    rw [cons_iff]
    refine ⟨hnodup', ?_⟩
    have hinner : (n :: ws).IsChain (Linked m) :=
      (List.isChain_append.mp (List.isChain_cons_cons.mp hchain).2).1
    rw [← List.cons_append]
    refine List.IsChain.append ?_ (.singleton n) ?_
    · refine isChain_imp hinner ?_
      intro a ha b hb hab
      refine hab.link ?_ ?_
      · exact hp ▸ ne_getLast_of_mem_dropLast hnodup' hne ha
      · rintro rfl
        exact (List.nodup_cons.mp hnodup').1 hb
    · intro a ha b hb
      rw [List.getLast?_eq_some_getLast hne, hp] at ha
      obtain rfl : p = a := Option.some.inj ha
      obtain rfl : n = b := Option.some.inj hb
      exact linked_link hlast.isSome.1 hnext.isSome.2

/-- Nodes of another list are not touched by the insertion, nor by the removal. -/
lemma link_of_disjoint {c : Cycle N} {a b : N} (h : Circle m c) (ha : a ∉ c) (hb : b ∉ c) :
    Circle (m.link a b) c := by
  refine h.congr ?_
  intro n hn
  refine Memory.link_of_ne ?_ ?_
  · rintro rfl
    exact ha hn
  · rintro rfl
    exact hb hn

end Circle

end CircularList
end ClamavWin32
