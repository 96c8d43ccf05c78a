import ClamavWin32.Semantics.CircularList

/-!
# The intrusive lists

The functions of `src/legacy/shared/list.h` that `src/legacy/shared/synchapi.c` calls. They have
no result where a null pointer or a node that does not exist is dereferenced.

* `list_init`, `list_add_before`, `list_add_tail`, `list_remove`: the functions, store by store;
* `list_init_spec`, `list_add_tail_spec`, `list_remove_spec`: what they make of a circular list.
-/

namespace ClamavWin32
namespace IntrusiveList

open CircularList

variable {N : Type*} [DecidableEq N]

section ListH

variable (m : Memory N)

/-- `n->next = v` -/
def writeNext (n : N) (v : Option N) : Option (Memory N) :=
  if (m n).isSome then some (m.setNext n v) else none

/-- `n->prev = v` -/
def writePrev (n : N) (v : Option N) : Option (Memory N) :=
  if (m n).isSome then some (m.setPrev n v) else none

def list_init (list : N) : Option (Memory N) := do
  let m ← writePrev m list (some list)
  writeNext m list (some list)

def list_add_before (elem to_add : N) : Option (Memory N) := do
  let m ← writeNext m to_add (some elem)
  let links ← m elem
  let m ← writePrev m to_add links.prev
  let links ← m elem
  let m ← writeNext m (← links.prev) (some to_add)
  writePrev m elem (some to_add)

def list_add_tail (list elem : N) : Option (Memory N) := list_add_before m list elem

def list_remove (elem : N) : Option (Memory N) := do
  let links ← m elem
  let m ← writePrev m (← links.next) links.prev
  let links ← m elem
  writeNext m (← links.prev) links.next

end ListH

/-! ## What they do -/

variable {m : Memory N}

lemma writeNext_eq {n : N} (h : (m n).isSome) (v : Option N) :
    writeNext m n v = some (m.setNext n v) := if_pos h

lemma writePrev_eq {n : N} (h : (m n).isSome) (v : Option N) :
    writePrev m n v = some (m.setPrev n v) := if_pos h

omit [DecidableEq N] in
/-- The links that are read where a node has a neighbour. -/
lemma exists_links {n : N} (h : (m n).isSome) : ∃ l, m n = some l ∧ l.next = m.next n ∧
    l.prev = m.prev n := by
  obtain ⟨l, hl⟩ := Option.isSome_iff_exists.mp h
  exact ⟨l, hl, by rw [Memory.next, hl]; rfl, by rw [Memory.prev, hl]; rfl⟩

/-- `list_init` makes a list without entries. -/
lemma list_init_spec {h : N} (hsome : (m h).isSome) :
    ∃ m', list_init m h = some m' ∧ Circle m' ([h] : Cycle N) ∧
      (∀ n, n ≠ h → m' n = m n) ∧ ∀ n, (m' n).isSome = (m n).isSome := by
  have hsome' : (m.setPrev h (some h) h).isSome := by
    rw [Memory.isSome_setPrev]
    exact hsome
  refine ⟨(m.setPrev h (some h)).setNext h (some h), ?_, ?_, ?_, ?_⟩
  · rw [list_init, writePrev_eq hsome]
    exact writeNext_eq hsome' _
  · refine ⟨List.nodup_singleton h, ?_⟩
    rw [Cycle.chain_singleton]
    constructor
    · exact Memory.next_setNext_self hsome'
    · rw [Memory.prev_setNext, Memory.prev_setPrev_self hsome]
  · intro n hn
    rw [Memory.setNext_of_ne hn, Memory.setPrev_of_ne hn]
  · intro n
    rw [Memory.isSome_setNext, Memory.isSome_setPrev]

/-- The stores of `list_add_before` are the two links of an insertion. -/
lemma list_add_before_eq {e x p : N} (hprev : Linked m p e) (hx : (m x).isSome) (hxe : x ≠ e)
    (hpx : p ≠ x) : list_add_before m e x = some ((m.link p x).link x e) := by
  obtain ⟨hp, he⟩ := hprev.isSome
  obtain ⟨l, hl, -, hlprev⟩ := exists_links he
  have hl' : m.setNext x (some e) e = some l := by
    rw [Memory.setNext_of_ne hxe.symm, hl]
  have hl'' : (m.setNext x (some e)).setPrev x (some p) e = some l := by
    rw [Memory.setPrev_of_ne hxe.symm, hl']
  rw [hprev.2] at hlprev
  rw [list_add_before, writeNext_eq hx]
  simp only [Option.bind_eq_bind, Option.bind_some, hl', hlprev]
  rw [writePrev_eq (by rwa [Memory.isSome_setNext])]
  simp only [Option.bind_some, hl'', hlprev]
  rw [writeNext_eq (by rwa [Memory.isSome_setPrev, Memory.isSome_setNext])]
  simp only [Option.bind_some]
  rw [writePrev_eq (by rwa [Memory.isSome_setNext, Memory.isSome_setPrev, Memory.isSome_setNext])]
  -- the four stores in the order of the two links
  refine congrArg some (funext fun n => ?_)
  simp only [Memory.link, Memory.setNext, Memory.setPrev, Function.update_apply, hxe.symm,
    hpx, hpx.symm, if_false, if_true]
  by_cases hn : n = x
  · subst hn
    cases m n <;> simp [hxe, hpx.symm]
  · by_cases hne : n = e
    · subst hne
      by_cases hnp : n = p
      · subst hnp
        simp [hl]
      · simp [hnp]
    · simp [hn, hne]

/-- **`list_add_tail`** appends an entry to a list. -/
lemma list_add_tail_spec {h x : N} {xs : List N} (hcircle : Circle m (h :: xs : List N))
    (hx : (m x).isSome) (hnew : x ∉ h :: xs) :
    ∃ m', list_add_tail m h x = some m' ∧ Circle m' (h :: (xs ++ [x]) : List N) ∧
      (∀ n, n ∉ h :: (xs ++ [x]) → m' n = m n) ∧ ∀ n, (m' n).isSome = (m n).isSome := by
  have hprev := hcircle.linked_prev
  have hpmem : (h :: xs).getLast (List.cons_ne_nil h xs) ∈ h :: xs := List.getLast_mem _
  have hinsert := hcircle.insert hx hnew
  generalize (h :: xs).getLast (List.cons_ne_nil h xs) = p at hprev hpmem hinsert
  refine ⟨_, list_add_before_eq hprev hx ?_ ?_, hinsert, ?_, ?_⟩
  · rintro rfl
    exact hnew List.mem_cons_self
  · rintro rfl
    exact hnew hpmem
  · intro n hn
    have hnh : n ≠ h := fun heq => hn (heq ▸ List.mem_cons_self)
    have hnx : n ≠ x := fun heq => hn (by simp [heq])
    have hnp : n ≠ p := by
      rintro rfl
      refine hn ?_
      rw [← List.cons_append]
      exact List.mem_append_left _ hpmem
    rw [Memory.link_of_ne hnx hnh, Memory.link_of_ne hnp hnx]
  · intro n
    rw [Memory.isSome_link, Memory.isSome_link]

/-- The stores of `list_remove` link the two neighbours. -/
lemma list_remove_eq {e p n : N} (hprev : Linked m p e) (hnext : Linked m e n) (hpe : p ≠ e)
    (hne : n ≠ e) : list_remove m e = some (m.link p n) := by
  obtain ⟨hp, he⟩ := hprev.isSome
  obtain ⟨l, hl, hlnext, hlprev⟩ := exists_links he
  rw [hnext.1] at hlnext
  rw [hprev.2] at hlprev
  have hl' : m.setPrev n (some p) e = some l := by
    rw [Memory.setPrev_of_ne hne.symm, hl]
  rw [list_remove]
  simp only [Option.bind_eq_bind, hl, Option.bind_some, hlnext, hlprev]
  rw [writePrev_eq hnext.isSome.2]
  simp only [Option.bind_some, hl', hlnext, hlprev]
  rw [writeNext_eq (by rwa [Memory.isSome_setPrev])]
  refine congrArg some (funext fun k => ?_)
  simp only [Memory.link, Memory.setNext, Memory.setPrev, Function.update_apply]
  by_cases hk : k = p
  · subst hk
    by_cases hkn : k = n
    · subst hkn
      cases m k <;> simp
    · simp [hkn]
  · by_cases hkn : k = n
    · subst hkn
      simp [hk]
    · simp [hk, hkn]

/-- **`list_remove`** takes an entry out of the list that it is in. -/
lemma list_remove_spec {h e : N} {xs ys : List N}
    (hcircle : Circle m (h :: (xs ++ e :: ys) : List N)) :
    ∃ m', list_remove m e = some m' ∧ Circle m' (h :: (xs ++ ys) : List N) ∧
      (∀ n, n ∉ h :: (xs ++ ys) → m' n = m n) ∧ ∀ n, (m' n).isSome = (m n).isSome := by
  -- the list, from the entry on
  have hfrom : Circle m (e :: (ys ++ h :: xs) : List N) := by
    rw [← List.cons_append] at hcircle
    exact hcircle.rotate
  have hne : ys ++ h :: xs ≠ [] := by simp
  have hnot := (List.nodup_cons.mp (Circle.cons_iff.mp hfrom).1).1
  have hprev := hfrom.linked_prev
  have hnext := hfrom.linked_next
  rw [List.getLast_cons hne] at hprev
  rw [List.head_append_of_ne_nil hne] at hnext
  have hpmem := List.getLast_mem hne
  have hnmem := List.head_mem hne
  have hremove := hfrom.remove hne
  generalize (ys ++ h :: xs).getLast hne = p at hprev hpmem hremove
  generalize (ys ++ h :: xs).head hne = n at hnext hnmem hremove
  have hin : ∀ k, k ∈ ys ++ h :: xs → k ∈ h :: (xs ++ ys) := by
    intro k hk
    rw [List.mem_append, List.mem_cons] at hk
    rw [List.mem_cons, List.mem_append]
    tauto
  refine ⟨m.link p n, list_remove_eq hprev hnext ?_ ?_, ?_, ?_, ?_⟩
  · rintro rfl
    exact hnot hpmem
  · rintro rfl
    exact hnot hnmem
  · rw [← List.cons_append]
    exact hremove.rotate
  · intro k hk
    refine Memory.link_of_ne ?_ ?_
    · rintro rfl
      exact hk (hin _ hpmem)
    · rintro rfl
      exact hk (hin _ hnmem)
  · intro k
    exact Memory.isSome_link

end IntrusiveList
end ClamavWin32
