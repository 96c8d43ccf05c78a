import ClamavWin32.Semantics.LinkedChain

/-!
# Linked lists threaded through memory

A list is read from a link: a link holds the first cell of the rest of the list, or `0`, and
every cell has a link of its own. `load` reads a link, and has no value where the block that
holds the link is freed. `link x` is the link of the cell `x`.

* `ListAt load link l xs`: the list read from the link `l` has the cells `xs`;
* `ListFrom load link a xs`: the list that starts with the cell `a` has the cells `xs`;
* `seek`: the loop that moves a cursor over the links up to a cell that is looked for;
* `ListAt.frame`, `ListAt.push` and `ListAt.unlink`: what becomes of a list when other links
  are written, when a cell is put in front of it and when one is taken out.
-/

namespace ClamavWin32

variable {α L : Type*} {link : α → L}

/-- The link that is read before the cells after `xs`. -/
def linkAfter (link : α → L) : L → List α → L
  | l, [] => l
  | _, x :: xs => linkAfter link (link x) xs

@[simp] lemma linkAfter_cons (l : L) (x : α) (xs : List α) :
    linkAfter link l (x :: xs) = linkAfter link (link x) xs := rfl

/-- The link after some cells is the one of the last of them. -/
lemma linkAfter_mem {l : L} {xs : List α} (hne : xs ≠ []) :
    ∃ x ∈ xs, linkAfter link l xs = link x := by
  induction xs generalizing l with
  | nil => exact absurd rfl hne
  | cons x xs ih =>
    by_cases hxs : xs = []
    · subst hxs
      exact ⟨x, List.mem_cons_self, rfl⟩
    · obtain ⟨y, hy, hlink⟩ := @ih (link x) hxs
      exact ⟨y, List.mem_cons_of_mem x hy, hlink⟩

variable [Zero α] {load load' : L → Option α}

/-- The list read from the link has the cells `xs`. -/
def ListAt (load : L → Option α) (link : α → L) : L → List α → Prop
  | l, [] => load l = some 0
  | l, x :: xs => load l = some x ∧ x ≠ 0 ∧ ListAt load link (link x) xs

/-- The list that starts with the cell `a` has the cells `xs`. -/
def ListFrom (load : L → Option α) (link : α → L) : α → List α → Prop
  | a, [] => a = 0
  | a, x :: xs => a = x ∧ x ≠ 0 ∧ ListAt load link (link x) xs

/-- Moves a cursor from the link `l` on until it holds `0` or a cell that stops it. It has no
value if a freed block is read, or after `fuel` links. -/
def seek [DecidableEq α] (load : L → Option α) (link : α → L) (stop : α → Option Bool) :
    ℕ → L → Option (L × α)
  | 0, _ => none
  | fuel + 1, l =>
    (load l).bind fun x =>
      if x = 0 then some (l, x)
      else (stop x).bind fun found =>
        if found then some (l, x) else seek load link stop fuel (link x)

namespace ListAt

@[simp] lemma nil_iff {l : L} : ListAt load link l [] ↔ load l = some 0 := Iff.rfl

@[simp] lemma cons_iff {l : L} {x : α} {xs : List α} :
    ListAt load link l (x :: xs) ↔ load l = some x ∧ x ≠ 0 ∧ ListAt load link (link x) xs :=
  Iff.rfl

/-- A list is read from a link by reading the link first. -/
lemma iff_listFrom {l : L} {xs : List α} :
    ListAt load link l xs ↔ ∃ a, load l = some a ∧ ListFrom load link a xs := by
  cases xs with
  | nil =>
    constructor
    · intro h
      exact ⟨0, h, rfl⟩
    · intro h
      obtain ⟨a, hload, rfl⟩ := h
      exact hload
  | cons x xs =>
    constructor
    · intro h
      exact ⟨x, h.1, rfl, h.2⟩
    · intro h
      obtain ⟨a, hload, rfl, hrest⟩ := h
      exact ⟨hload, hrest⟩

/-- The cells of a list are linked as a chain. -/
lemma exists_chain {l : L} {xs : List α} (h : ListAt load link l xs) :
    ∃ a, load l = some a ∧ Chain (fun x => (load (link x)).getD 0) a xs := by
  induction xs generalizing l with
  | nil => exact ⟨0, h, rfl⟩
  | cons x xs ih =>
    obtain ⟨hload, hx, hrest⟩ := h
    obtain ⟨b, hb, hchain⟩ := ih hrest
    refine ⟨x, hload, rfl, hx, ?_⟩
    show Chain _ ((load (link x)).getD 0) xs
    rw [hb]
    exact hchain

/-- A list has no cell twice. -/
theorem nodup {l : L} {xs : List α} (h : ListAt load link l xs) : xs.Nodup := by
  obtain ⟨a, -, hchain⟩ := h.exists_chain
  exact hchain.nodup

/-- A link has one list. -/
theorem unique {l : L} {xs ys : List α} (h : ListAt load link l xs)
    (h' : ListAt load link l ys) : xs = ys := by
  obtain ⟨a, ha, hchain⟩ := h.exists_chain
  obtain ⟨b, hb, hchain'⟩ := h'.exists_chain
  obtain rfl := Option.some.inj (ha.symm.trans hb)
  exact hchain.unique hchain'

lemma ne_zero {l : L} {xs : List α} (h : ListAt load link l xs) {x : α} (hx : x ∈ xs) :
    x ≠ 0 := by
  induction xs generalizing l with
  | nil => cases hx
  | cons y xs ih =>
    rcases List.mem_cons.mp hx with rfl | hx
    · exact h.2.1
    · exact ih h.2.2 hx

/-- The list after the first cells. -/
lemma drop {l : L} {xs ys : List α} (h : ListAt load link l (xs ++ ys)) :
    ListAt load link (linkAfter link l xs) ys := by
  induction xs generalizing l with
  | nil => exact h
  | cons x xs ih => exact ih h.2.2

/-- **Frame rule.** A list whose links are not written stays as it is. -/
theorem frame {l : L} {xs : List α} (h : ListAt load link l xs) (hl : load' l = load l)
    (hlinks : ∀ x ∈ xs, load' (link x) = load (link x)) : ListAt load' link l xs := by
  induction xs generalizing l with
  | nil => exact hl.trans h
  | cons x xs ih =>
    obtain ⟨hload, hx, hrest⟩ := h
    refine ⟨hl.trans hload, hx, ?_⟩
    apply ih hrest (hlinks x List.mem_cons_self)
    intro y hy
    exact hlinks y (List.mem_cons_of_mem x hy)

/-- A link of a list holds no cell that is not on the list. -/
lemma load_ne {l : L} {xs : List α} {r : α} (h : ListAt load link l xs) (hr : r ∉ xs)
    (hne : r ≠ 0) : load l ≠ some r := by
  intro hload
  obtain ⟨a, ha, hfrom⟩ := iff_listFrom.mp h
  obtain rfl := Option.some.inj (ha.symm.trans hload)
  cases xs with
  | nil => exact hne hfrom
  | cons x xs =>
    rw [hfrom.1] at hr
    exact hr List.mem_cons_self

/-- **Frame rule.** A list stays as it is when only links that hold a cell off the list are
written. -/
theorem frame_of_not_mem {l : L} {xs : List α} {r : α} (h : ListAt load link l xs)
    (hr : r ∉ xs) (hne : r ≠ 0) (hother : ∀ j, load j ≠ some r → load' j = load j) :
    ListAt load' link l xs := by
  induction xs generalizing l with
  | nil => exact (hother l (h.load_ne hr hne)).trans h
  | cons x xs ih =>
    have hl := h.load_ne hr hne
    obtain ⟨hload, hx, hrest⟩ := h
    refine ⟨(hother l hl).trans hload, hx, ?_⟩
    apply ih hrest
    intro hmem
    exact hr (List.mem_cons_of_mem x hmem)

/-- A cell is put in front: its link takes what the link of the list held. -/
theorem push {l : L} {xs : List α} {x : α} (h : ListAt load link l xs) (hx : x ≠ 0)
    (hl : load' l = some x) (hlink : load' (link x) = load l)
    (hlinks : ∀ y ∈ xs, load' (link y) = load (link y)) : ListAt load' link l (x :: xs) := by
  refine ⟨hl, hx, ?_⟩
  obtain ⟨a, hload, hfrom⟩ := iff_listFrom.mp h
  apply iff_listFrom.mpr
  refine ⟨a, hlink.trans hload, ?_⟩
  cases xs with
  | nil => exact hfrom
  | cons y ys =>
    obtain ⟨rfl, hy, hrest⟩ := hfrom
    refine ⟨rfl, hy, hrest.frame (hlinks a List.mem_cons_self) ?_⟩
    intro z hz
    exact hlinks z (List.mem_cons_of_mem a hz)

/-- A cell is taken out: the link before it takes what its own link holds. -/
theorem unlink (hinj : Function.Injective link) {l : L} {pre post : List α} {x : α}
    (h : ListAt load link l (pre ++ x :: post)) (hl : ∀ y ∈ pre ++ x :: post, link y ≠ l)
    (hstore : load' (linkAfter link l pre) = load (link x))
    (hother : ∀ j, j ≠ linkAfter link l pre → load' j = load j) :
    ListAt load' link l (pre ++ post) := by
  induction pre generalizing l with
  | nil =>
    obtain ⟨hload, hx, hrest⟩ := h
    obtain ⟨b, hb, hfrom⟩ := iff_listFrom.mp hrest
    apply iff_listFrom.mpr
    refine ⟨b, hstore.trans hb, ?_⟩
    -- the link that is written is not the link of a cell after `x`
    have hpost : ∀ y ∈ post, load' (link y) = load (link y) := fun y hy =>
      hother _ (hl y (List.mem_cons_of_mem x hy))
    cases post with
    | nil => exact hfrom
    | cons y ys =>
      obtain ⟨rfl, hy, hys⟩ := hfrom
      refine ⟨rfl, hy, hys.frame (hpost b List.mem_cons_self) ?_⟩
      intro z hz
      exact hpost z (List.mem_cons_of_mem b hz)
  | cons p pre ih =>
    have hnodup := h.nodup
    obtain ⟨hload, hp, hrest⟩ := h
    have hafter : l ≠ linkAfter link (link p) pre := by
      obtain ⟨q, hq, hlink⟩ := @linkAfter_mem α L link l (p :: pre) (List.cons_ne_nil p pre)
      rw [linkAfter_cons] at hlink
      rw [hlink]
      exact (hl q (List.mem_append_left _ hq)).symm
    refine ⟨(hother l hafter).trans hload, hp, ?_⟩
    apply ih hrest _ hstore hother
    intro y hy hlink
    have hmem : p ∉ pre ++ x :: post := (List.nodup_cons.mp hnodup).1
    rw [hinj hlink] at hy
    exact hmem hy

end ListAt

namespace ListFrom

/-- The rest of a list is read from the link of its first cell. -/
lemma exists_rest {x a : α} {xs : List α} (h : ListFrom load link a (x :: xs)) :
    a = x ∧ x ≠ 0 ∧ ∃ b, load (link x) = some b ∧ ListFrom load link b xs :=
  ⟨h.1, h.2.1, ListAt.iff_listFrom.mp h.2.2⟩

lemma nodup {a : α} {xs : List α} (h : ListFrom load link a xs) : xs.Nodup := by
  cases xs with
  | nil => exact List.nodup_nil
  | cons x xs =>
    -- the list is read from a link that holds `a`, whatever link that is
    have hlist : ListAt (fun l : Option L => l.elim (some a) load) (fun x => some (link x)) none
        (x :: xs) := by
      refine ⟨congrArg some h.1, h.2.1, ?_⟩
      have hrest : ∀ (l : L) (ys : List α), ListAt load link l ys →
          ListAt (fun l : Option L => l.elim (some a) load) (fun x => some (link x)) (some l)
            ys := by
        intro l ys
        induction ys generalizing l with
        | nil => exact fun hys => hys
        | cons y ys ih => exact fun hys => ⟨hys.1, hys.2.1, ih (link y) hys.2.2⟩
      exact hrest (link x) xs h.2.2
    exact hlist.nodup

lemma ne_zero {a x : α} {xs : List α} (h : ListFrom load link a xs) (hx : x ∈ xs) : x ≠ 0 := by
  cases xs with
  | nil => cases hx
  | cons y xs =>
    rcases List.mem_cons.mp hx with rfl | hx
    · exact h.2.1
    · exact h.2.2.ne_zero hx

/-- **Frame rule.** A list whose links are not written stays as it is. -/
theorem frame {a : α} {xs : List α} (h : ListFrom load link a xs)
    (hlinks : ∀ x ∈ xs, load' (link x) = load (link x)) : ListFrom load' link a xs := by
  cases xs with
  | nil => exact h
  | cons x xs =>
    refine ⟨h.1, h.2.1, h.2.2.frame (hlinks x List.mem_cons_self) ?_⟩
    intro y hy
    exact hlinks y (List.mem_cons_of_mem x hy)

/-- **Frame rule.** A list stays as it is when only links that hold a cell off the list are
written. -/
theorem frame_of_not_mem {a r : α} {xs : List α} (h : ListFrom load link a xs) (hr : r ∉ xs)
    (hne : r ≠ 0) (hother : ∀ j, load j ≠ some r → load' j = load j) :
    ListFrom load' link a xs := by
  cases xs with
  | nil => exact h
  | cons x xs =>
    refine ⟨h.1, h.2.1, h.2.2.frame_of_not_mem ?_ hne hother⟩
    intro hmem
    exact hr (List.mem_cons_of_mem x hmem)

end ListFrom

namespace ListAt

/-! ## Looking for a cell -/

variable [DecidableEq α] {stop : α → Option Bool}

/-- The cursor stops at the first cell that stops it. -/
theorem seek_found {l : L} {pre post : List α} {x : α} {fuel : ℕ}
    (h : ListAt load link l (pre ++ x :: post)) (hfuel : pre.length < fuel)
    (hpre : ∀ y ∈ pre, stop y = some false) (hx : stop x = some true) :
    seek load link stop fuel l = some (linkAfter link l pre, x) := by
  induction pre generalizing l fuel with
  | nil =>
    obtain ⟨hload, hne, -⟩ := h
    obtain ⟨fuel, rfl⟩ := Nat.exists_eq_succ_of_ne_zero (Nat.ne_of_gt hfuel)
    rw [seek, hload, Option.bind_some, if_neg hne, hx, Option.bind_some, if_pos rfl]
    rfl
  | cons p pre ih =>
    obtain ⟨hload, hne, hrest⟩ := h
    rw [List.length_cons] at hfuel
    obtain ⟨fuel, rfl⟩ : ∃ fuel', fuel = fuel' + 1 := ⟨fuel - 1, by omega⟩
    rw [seek, hload, Option.bind_some, if_neg hne, hpre p List.mem_cons_self, Option.bind_some,
      if_neg Bool.false_ne_true, linkAfter_cons]
    apply ih hrest (by omega)
    intro y hy
    exact hpre y (List.mem_cons_of_mem p hy)

/-- The cursor ends at the end of a list with no such cell. -/
theorem seek_not_found {l : L} {xs : List α} {fuel : ℕ} (h : ListAt load link l xs)
    (hfuel : xs.length < fuel) (hxs : ∀ y ∈ xs, stop y = some false) :
    seek load link stop fuel l = some (linkAfter link l xs, 0) := by
  induction xs generalizing l fuel with
  | nil =>
    obtain ⟨fuel, rfl⟩ := Nat.exists_eq_succ_of_ne_zero (Nat.ne_of_gt hfuel)
    rw [seek, nil_iff.mp h, Option.bind_some, if_pos rfl]
    rfl
  | cons x xs ih =>
    obtain ⟨hload, hne, hrest⟩ := h
    rw [List.length_cons] at hfuel
    obtain ⟨fuel, rfl⟩ : ∃ fuel', fuel = fuel' + 1 := ⟨fuel - 1, by omega⟩
    rw [seek, hload, Option.bind_some, if_neg hne, hxs x List.mem_cons_self, Option.bind_some,
      if_neg Bool.false_ne_true, linkAfter_cons]
    apply ih hrest (by omega)
    intro y hy
    exact hxs y (List.mem_cons_of_mem x hy)

end ListAt
end ClamavWin32
