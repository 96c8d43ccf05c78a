import ClamavWin32.RunOnce.InitOnceTheorems
import ClamavWin32.Semantics.LinkedChain
import Mathlib.Data.Fintype.Basic

/-!
# The chain of waiters

A waiter links its cell `next` in front of the chain that starts at `Ptr`, and the call
that publishes the result walks the chain. The waiter then goes on with its loop: it may
store to its cell again while the cell is on the chain, and return while a walk has yet to
read it (`selfLinkRun`). When no call does either (`CellsKept`), the chain and the rest of
every walk are finite, repeat no cell and hold only cells of calls inside
`InitOnceBeginInitialize`, and a walk ends after one read of each of its cells
(`waiterChain_of_cellsKept`).
-/

namespace ClamavWin32
namespace InitOnce

open TransitionSystem

variable {C : Type*}

/-! ## The property -/

/-- The frame of the loop of `InitOnceBeginInitialize`, for a call inside it. -/
def Pc.beginFrame : Pc → Option BeginFrame
  | .beginRead f | .beginSwap f | .beginStore f _ | .beginEnqueue f _ => some f
  | _ => none

/-- The call is inside the loop of `InitOnceBeginInitialize` with the cell at `x`. -/
def Inside (s : State C) (c : C) (x : Addr) : Prop :=
  ∃ f, (s.pc c).beginFrame = some f ∧ f.cell = x

/-- The chain from `a` reaches `0`, repeats no cell and has only cells of calls that are
inside `InitOnceBeginInitialize`. -/
def FiniteChain (s : State C) (a : Addr) : Prop :=
  ∃ l, Chain s.cells a l ∧ l.Nodup ∧ ∀ x ∈ l, ∃ c, Inside s c x

/-- The chain of the waiters, and what every walk has still to read. -/
structure ChainsFinite (s : State C) : Prop where
  waiters : runOnceState s.ptr = .progress → FiniteChain s (addressBits s.ptr)
  walks : ∀ c f val, s.pc c = .walking f val → FiniteChain s val

/-- A read of a walk takes one cell off what it has still to read, and the walk is over
after the last one; no other step changes what it has still to read. -/
def WalkShrinks (s : State C) (a : Action C) (s' : State C) : Prop :=
  ∀ c f val l, s.pc c = .walking f val → Chain s.cells val l →
    (a = .readCell c → ∃ l', l = val :: l' ∧
      (l' = [] ∧ s'.pc c = .returned f.result none ∨
        ∃ val', s'.pc c = .walking f val' ∧ Chain s'.cells val' l')) ∧
    (a ≠ .readCell c → s'.pc c = .walking f val ∧ Chain s'.cells val l)

/-- The cell at `x` is neither on the chain of the waiters nor on what a walk has still to
read. -/
def OffChains (s : State C) (x : Addr) : Prop :=
  (runOnceState s.ptr = .progress → ¬ OnChain s.cells (addressBits s.ptr) x) ∧
    ∀ c f val, s.pc c = .walking f val → ¬ OnChain s.cells val x

/-- The step neither stores to a cell that is on a chain, nor makes the call of such a cell
leave `InitOnceBeginInitialize`. -/
structure CellsKept (s : State C) (a : Action C) (s' : State C) : Prop where
  store : ∀ c f val, a = .storeNext c → s.pc c = .beginStore f val → OffChains s f.cell
  leave : ∀ c f, (s.pc c).beginFrame = some f → (s'.pc c).beginFrame = none →
    OffChains s f.cell

/-! ## The cells -/

/-- The cell of the frame belongs to the call. -/
def Owns (s : State C) (c : C) (f : BeginFrame) : Prop :=
  s.owner f.cell = some c ∧ f.cell ≠ 0 ∧ f.cell % 4 = 0

/-- The invariant of the call `c` where it stands: inside `InitOnceBeginInitialize` it
owns its cell, which holds the chain it is about to link in front of. -/
def CellOk (s : State C) (c : C) : Pc → Prop
  | .beginRead f | .beginSwap f => Owns s c f
  | .beginStore f val => Owns s c f ∧ runOnceState val = .progress
  | .beginEnqueue f val =>
    Owns s c f ∧ runOnceState val = .progress ∧ s.cells f.cell = addressBits val
  | .completeRead f | .completeSwap f _ => runOnceState f.word ≠ .progress
  | .walking _ val => val ≠ 0
  | _ => True

/-- Every call meets its invariant, and a cell is owned only by a call inside its loop. -/
structure CellInv (s : State C) : Prop where
  call : ∀ c, CellOk s c (s.pc c)
  owned : ∀ x c, s.owner x = some c → Inside s c x

lemma CellOk.congr {s s' : State C} {c : C} {p : Pc} (h : CellOk s c p)
    (hsame : ∀ x, s.owner x = some c → s'.owner x = some c ∧ s'.cells x = s.cells x) :
    CellOk s' c p := by
  have howns : ∀ f, Owns s c f → Owns s' c f := fun f hf => ⟨(hsame _ hf.1).1, hf.2⟩
  cases p with
  | beginRead f | beginSwap f => exact howns f h
  | beginStore f val => exact ⟨howns f h.1, h.2⟩
  | beginEnqueue f val => exact ⟨howns f h.1, h.2.1, ((hsame _ h.1.1).2).trans h.2.2⟩
  | _ => exact h

lemma CellOk.owns {s : State C} {c : C} {p : Pc} {f : BeginFrame} (h : CellOk s c p)
    (hf : p.beginFrame = some f) : Owns s c f := by
  cases p <;> cases hf
  · exact h
  · exact h
  · exact h.1
  · exact h.1

namespace CellInv

variable {s s' : State C} {c : C}

lemma init (cells : Addr → Word) : CellInv (State.init cells : State C) where
  call _ := trivial
  owned _ _ h := by cases h

lemma at_pc (h : CellInv s) {p : Pc} (hpc : s.pc c = p) : CellOk s c p := hpc ▸ h.call c

/-- A cell of the call is the one of its frame. -/
lemma cell_eq (h : CellInv s) {x : Addr} {f : BeginFrame} (hx : s.owner x = some c)
    (hf : (s.pc c).beginFrame = some f) : x = f.cell := by
  obtain ⟨g, hg, rfl⟩ := h.owned x c hx
  rw [hf, Option.some.injEq] at hg
  rw [hg]

variable [DecidableEq C]

/-- A call moves and stays inside its loop, or outside it; it may store to its own
cell. -/
lemma stay (h : CellInv s) {p : Pc} (hpc : s'.pc = Function.update s.pc c p)
    (hframe : p.beginFrame = (s.pc c).beginFrame) (howner : s'.owner = s.owner)
    (hcells : ∀ x, s.owner x ≠ some c → s'.cells x = s.cells x) (hok : CellOk s' c p) :
    CellInv s' := by
  refine ⟨?_, fun x d hx => ?_⟩
  · rw [hpc]
    refine (Function.forall_update_iff s.pc fun d pc => CellOk s' d pc).mpr ⟨hok, ?_⟩
    intro d hdc
    refine (h.call d).congr fun x hx => ⟨by rw [howner, hx], hcells x ?_⟩
    rw [hx]
    exact fun he => hdc (Option.some.inj he)
  · rw [howner] at hx
    obtain ⟨f, hf, hfx⟩ := h.owned x d hx
    refine ⟨f, ?_, hfx⟩
    rw [hpc]
    by_cases hdc : d = c
    · subst hdc
      simpa [hframe] using hf
    · simpa [hdc] using hf

/-- A call enters its loop with a free cell. -/
lemma enter (h : CellInv s) {f : BeginFrame} (hpc : s.pc c = .notCalled)
    (hfree : s.FreeCell f.cell) (lpContext : Option Word) :
    CellInv (s.enterBegin c f lpContext) := by
  refine ⟨fun d => ?_, fun x d hx => ?_⟩
  · by_cases hdc : d = c
    · subst hdc
      have hpcd : (s.enterBegin d f lpContext).pc d = .beginRead f := by simp [State.enterBegin]
      rw [hpcd]
      exact ⟨by simp [State.enterBegin], hfree.1, hfree.2.1⟩
    · have hpcd : (s.enterBegin c f lpContext).pc d = s.pc d := by simp [State.enterBegin, hdc]
      rw [hpcd]
      refine (h.call d).congr fun x hx => ⟨?_, rfl⟩
      have hne : x ≠ f.cell := by
        rintro rfl
        rw [hfree.2.2] at hx
        cases hx
      simpa [State.enterBegin, hne] using hx
  · by_cases hxf : x = f.cell
    · obtain rfl : c = d := by simpa [State.enterBegin, hxf] using hx
      exact ⟨f, by simp [State.enterBegin, Pc.beginFrame], hxf.symm⟩
    · have hx' : s.owner x = some d := by simpa [State.enterBegin, hxf] using hx
      obtain ⟨g, hg, hgx⟩ := h.owned x d hx'
      have hdc : d ≠ c := by
        rintro rfl
        rw [hpc] at hg
        cases hg
      exact ⟨g, by simpa [State.enterBegin, hdc] using hg, hgx⟩

/-- A call leaves its loop, and its cell is free. -/
lemma leave (h : CellInv s) {f : BeginFrame} {p : Pc}
    (hpc : s'.pc = Function.update s.pc c p) (hf : (s.pc c).beginFrame = some f)
    (howner : s'.owner = Function.update s.owner f.cell none) (hcells : s'.cells = s.cells)
    (hok : CellOk s' c p) : CellInv s' := by
  have hcell : s.owner f.cell = some c := ((h.call c).owns hf).1
  refine ⟨?_, fun x d hx => ?_⟩
  · rw [hpc]
    refine (Function.forall_update_iff s.pc fun d pc => CellOk s' d pc).mpr ⟨hok, ?_⟩
    intro d hdc
    refine (h.call d).congr fun x hx => ⟨?_, by rw [hcells]⟩
    have hne : x ≠ f.cell := by
      rintro rfl
      exact hdc (Option.some.inj (hx.symm.trans hcell))
    rw [howner, Function.update_of_ne hne, hx]
  · rw [howner] at hx
    have hne : x ≠ f.cell := by
      rintro rfl
      simp at hx
    rw [Function.update_of_ne hne] at hx
    obtain ⟨g, hg, hgx⟩ := h.owned x d hx
    have hdc : d ≠ c := by
      rintro rfl
      exact hne (h.cell_eq hx hf)
    exact ⟨g, by simpa [hpc, hdc] using hg, hgx⟩

/-- A call of `InitOnceComplete` passes its argument checks, or fails. -/
lemma enterComplete (h : CellInv s) (hf : (s.pc c).beginFrame = none)
    (initFailed async : Bool) (context : Word) (result : Bool) :
    CellInv (s.enterComplete c initFailed async context result) := by
  unfold State.enterComplete
  split
  · exact h.stay rfl hf.symm rfl (fun _ _ => rfl) trivial
  · rename_i word hargs
    exact h.stay rfl hf.symm rfl (fun _ _ => rfl)
      (runOnceState_ne_progress_of_completeArgs hargs)

/-- **Step lemma of the cells.** -/
theorem step (h : CellInv s) {a : Action C} (hstep : InitOnce.step s a = some s') :
    CellInv s' := by
  cases effect_of_step hstep with
  | callRejected hpc | checkFails hpc | checkSucceeds hpc | completeFails hpc
  | publishesAsync hpc | callCheckOnly hpc =>
    exact h.stay rfl (by rw [hpc]; rfl) rfl (fun _ _ => rfl) trivial
  | callBegin hpc hfree | callExecute hpc hfree => exact h.enter hpc hfree _
  | callComplete hpc => exact h.enterComplete (by rw [hpc]; rfl) ..
  | seesInitializing hpc =>
    exact h.stay rfl (by rw [hpc]; rfl) rfl (fun _ _ => rfl) (h.at_pc hpc)
  | seesProgress hpc hstate =>
    exact h.stay rfl (by rw [hpc]; rfl) rfl (fun _ _ => rfl) ⟨h.at_pc hpc, hstate⟩
  | @seesComplete c f hpc | @seesAsync c f hpc | @claims c f hpc =>
    refine h.leave (f := f) rfl (by rw [hpc]; rfl) rfl rfl ?_
    split_ifs <;> trivial
  | @seesWrongMode c f hpc => exact h.leave (f := f) rfl (by rw [hpc]; rfl) rfl rfl trivial
  | completeSees hpc | publishMisses hpc =>
    exact h.stay rfl (by rw [hpc]; rfl) rfl (fun _ _ => rfl) (h.at_pc hpc)
  | claimMisses hpc =>
    exact h.stay rfl (by rw [hpc]; rfl) rfl (fun _ _ => rfl) (h.at_pc hpc)
  | enqueues hpc | enqueueMisses hpc =>
    exact h.stay rfl (by rw [hpc]; rfl) rfl (fun _ _ => rfl) (h.at_pc hpc).1
  | publishes hpc | readCell hpc =>
    refine h.stay rfl ?_ rfl (fun _ _ => rfl) ?_
    · rw [hpc]
      split_ifs <;> rfl
    · split_ifs with hval
      · trivial
      · exact hval
  | @storeNext c f val hpc =>
    obtain ⟨hown, hstate⟩ := h.at_pc hpc
    refine h.stay rfl (by rw [hpc]; rfl) rfl (fun x hx => ?_) ⟨hown, hstate, by simp⟩
    -- the link is stored in the cell of the caller
    have hne : x ≠ f.cell := by
      rintro rfl
      exact hx hown.1
    simp [hne]
  | @callbackReturns c result left hpc =>
    have h' : CellInv { s.setContext c left with
      succeeded :=
        if result then s.succeeded ++ [(s.setContext c left).contextArg c]
        else s.succeeded } := ⟨h.call, h.owned⟩
    refine h'.enterComplete (c := c) ?_ ..
    exact congrArg Pc.beginFrame hpc

end CellInv

/-! ## The chains -/

/-- The chain from `a` is finite and all its cells are owned. -/
def OwnedChain (s : State C) (a : Addr) : Prop :=
  ∃ l, Chain s.cells a l ∧ ∀ x ∈ l, s.owner x ≠ none

/-- The chain of the waiters is finite in the state `PROGRESS`, and so is what every walk
has still to read; their cells are owned. -/
structure ChainInv (s : State C) : Prop where
  waiters : runOnceState s.ptr = .progress → OwnedChain s (addressBits s.ptr)
  walks : ∀ c f val, s.pc c = .walking f val → OwnedChain s val

section OwnedChain

variable {s s' : State C} {a x : Addr}

lemma OwnedChain.zero : OwnedChain s 0 := ⟨[], rfl, fun _ h => by cases h⟩

lemma OwnedChain.congr (h : OwnedChain s a) (hcells : s'.cells = s.cells)
    (howner : ∀ x, s.owner x ≠ none → s'.owner x ≠ none) : OwnedChain s' a := by
  obtain ⟨l, hl, hown⟩ := h
  exact ⟨l, hcells ▸ hl, fun x hx => howner x (hown x hx)⟩

/-- A store to a cell off the chain. -/
lemma OwnedChain.store (h : OwnedChain s a) {v : Word} (hoff : ¬ OnChain s.cells a x)
    (hcells : s'.cells = Function.update s.cells x v) (howner : s'.owner = s.owner) :
    OwnedChain s' a := by
  obtain ⟨l, hl, hown⟩ := h
  refine ⟨l, ?_, by rwa [howner]⟩
  rw [hcells]
  exact hl.update fun hx => hoff (hl.mem_iff_onChain.mp hx)

/-- The call of a cell off the chain gives it up. -/
lemma OwnedChain.leave (h : OwnedChain s a) (hoff : ¬ OnChain s.cells a x)
    (hcells : s'.cells = s.cells) (howner : s'.owner = Function.update s.owner x none) :
    OwnedChain s' a := by
  obtain ⟨l, hl, hown⟩ := h
  refine ⟨l, hcells ▸ hl, fun y hy => ?_⟩
  have hne : y ≠ x := by
    rintro rfl
    exact hoff (hl.mem_iff_onChain.mp hy)
  rw [howner, Function.update_of_ne hne]
  exact hown y hy

/-- What is left of a chain after its first cell. -/
lemma OwnedChain.next (h : OwnedChain s a) (ha : a ≠ 0) : OwnedChain s (s.cells a) := by
  obtain ⟨l, hl, hown⟩ := h
  obtain ⟨l', rfl, hl'⟩ := hl.exists_cons ha
  exact ⟨l', hl', fun x hx => hown x (List.mem_cons_of_mem _ hx)⟩

/-- A cell linked in front of a chain. -/
lemma OwnedChain.cons (h : OwnedChain s (s.cells x)) (hx : x ≠ 0) (hown : s.owner x ≠ none) :
    OwnedChain s x := by
  obtain ⟨l, hl, hall⟩ := h
  exact ⟨x :: l, ⟨rfl, hx, hl⟩, List.forall_mem_cons.mpr ⟨hown, hall⟩⟩

end OwnedChain

/-- A call that returns from `InitOnceBeginInitialize` is out of its loop. -/
lemma beginFrame_beginReturns [DecidableEq C] (s : State C) (c : C) (f : BeginFrame)
    (pending : Bool) : ((s.beginReturns c f pending).pc c).beginFrame = none := by
  rw [State.beginReturns, State.setPc_pc, Function.update_self]
  split_ifs <;> rfl

namespace ChainInv

variable {s s' : State C} {c : C}

lemma init (cells : Addr → Word) : ChainInv (State.init cells : State C) where
  waiters h := by cases h
  walks _ _ _ h := by cases h

/-- The chains a call can see are those the lemmas above are about. -/
lemma finite (h : ChainInv s) (hcell : CellInv s) : ChainsFinite s := by
  have hfinite : ∀ a, OwnedChain s a → FiniteChain s a := by
    rintro a ⟨l, hl, hown⟩
    refine ⟨l, hl, hl.nodup, fun x hx => ?_⟩
    obtain ⟨c, hc⟩ := Option.ne_none_iff_exists'.mp (hown x hx)
    exact ⟨c, hcell.owned x c hc⟩
  exact ⟨fun hstate => hfinite _ (h.waiters hstate),
    fun c f val hpc => hfinite _ (h.walks c f val hpc)⟩

variable [DecidableEq C]

/-- A call moves; `hold` is what happens to the chains of the others. -/
lemma move (h : ChainInv s) {p : Pc} (hpc : s'.pc = Function.update s.pc c p)
    (hp : ∀ f val, p = .walking f val → OwnedChain s' val)
    (hold : ∀ d f val, s.pc d = .walking f val → OwnedChain s val → OwnedChain s' val)
    (hwaiters : runOnceState s'.ptr = .progress → OwnedChain s' (addressBits s'.ptr)) :
    ChainInv s' := by
  refine ⟨hwaiters, fun d f val hd => ?_⟩
  rw [hpc] at hd
  by_cases hdc : d = c
  · subst hdc
    exact hp f val (by simpa using hd)
  · have hd' : s.pc d = .walking f val := by simpa [hdc] using hd
    exact hold d f val hd' (h.walks d f val hd')

/-- The word, the cells and their owners stay. -/
lemma stay (h : ChainInv s) {p : Pc} (hpc : s'.pc = Function.update s.pc c p)
    (hptr : s'.ptr = s.ptr) (hcells : s'.cells = s.cells)
    (howner : ∀ x, s.owner x ≠ none → s'.owner x ≠ none)
    (hp : ∀ f val, p ≠ .walking f val) : ChainInv s' := by
  refine h.move hpc (fun f val he => absurd he (hp f val))
    (fun _ _ _ _ hc => hc.congr hcells howner) fun hstate => ?_
  rw [hptr] at hstate ⊢
  exact (h.waiters hstate).congr hcells howner

/-- A call whose cell is off the chains leaves its loop. -/
lemma leave (h : ChainInv s) {p : Pc} {x : Addr} (hpc : s'.pc = Function.update s.pc c p)
    (hoff : OffChains s x) (hcells : s'.cells = s.cells)
    (howner : s'.owner = Function.update s.owner x none)
    (hptr : s'.ptr = s.ptr ∨ addressBits s'.ptr = 0) (hp : ∀ f val, p ≠ .walking f val) :
    ChainInv s' := by
  refine h.move hpc (fun f val he => absurd he (hp f val))
    (fun d f val hd hc => hc.leave (hoff.2 d f val hd) hcells howner) fun hstate => ?_
  rcases hptr with hptr | hzero
  · rw [hptr] at hstate ⊢
    exact (h.waiters hstate).leave (hoff.1 hstate) hcells howner
  · rw [hzero]
    exact .zero

lemma enter (h : ChainInv s) (f : BeginFrame) (lpContext : Option Word) :
    ChainInv (s.enterBegin c f lpContext) := by
  refine h.stay rfl rfl rfl (fun x hx => ?_) (by simp)
  by_cases hxf : x = f.cell
  · simp [State.enterBegin, hxf]
  · simpa [State.enterBegin, hxf] using hx

lemma enterComplete (h : ChainInv s) (initFailed async : Bool) (context : Word)
    (result : Bool) : ChainInv (s.enterComplete c initFailed async context result) := by
  unfold State.enterComplete
  split
  · exact h.stay rfl rfl rfl (fun _ hx => hx) (by simp)
  · exact h.stay rfl rfl rfl (fun _ hx => hx) (by simp)

/-- **Step lemma of the chains.** -/
theorem step (h : ChainInv s) (hcell : CellInv s) {a : Action C}
    (hok : CellsKept s a s') (hstep : InitOnce.step s a = some s') : ChainInv s' := by
  cases effect_of_step hstep with
  | callRejected | checkFails | checkSucceeds | completeFails | callCheckOnly
  | seesInitializing | seesProgress | completeSees | publishMisses | claimMisses
  | enqueueMisses =>
    exact h.stay rfl rfl rfl (fun _ hx => hx) (by simp)
  | callBegin | callExecute => exact h.enter ..
  | callComplete => exact h.enterComplete ..
  | @callbackReturns c result left hpc =>
    have h' : ChainInv { s.setContext c left with
      succeeded :=
        if result then s.succeeded ++ [(s.setContext c left).contextArg c]
        else s.succeeded } :=
      ⟨fun hstate => (h.waiters hstate).congr rfl fun _ hx => hx,
        fun d f val hd => (h.walks d f val hd).congr rfl fun _ hx => hx⟩
    exact h'.enterComplete ..
  | @seesComplete c f hpc | @seesAsync c f hpc =>
    have hoff := hok.leave c f (by rw [hpc]; rfl) (beginFrame_beginReturns ..)
    refine h.leave rfl hoff rfl rfl (Or.inl rfl) ?_
    split_ifs <;> simp
  | @claims c f hpc hptr =>
    -- the word that claims the work has no address: nobody waits yet
    have hoff := hok.leave c f (by rw [hpc]; rfl) (beginFrame_beginReturns ..)
    refine h.leave rfl hoff rfl rfl (Or.inr ?_) ?_
    · change addressBits (if f.async then RTLP_RUN_ONCE_ASYNC else RTLP_RUN_ONCE_PROGRESS) = 0
      split_ifs <;> rfl
    · split_ifs <;> simp
  | @seesWrongMode c f hpc =>
    have hoff := hok.leave c f (by rw [hpc]; rfl) (by simp [State.beginFails, Pc.beginFrame])
    exact h.leave rfl hoff rfl rfl (Or.inl rfl) (by simp)
  | @enqueues c f hpc =>
    -- the cell of the caller is put in front of the chain that it links to
    obtain ⟨hown, hstate, hlink⟩ := hcell.at_pc hpc
    refine h.move rfl (by simp) (fun _ _ _ _ hc => hc.congr rfl fun _ hx => hx) fun _ => ?_
    have hbits : addressBits (f.cell ||| RTLP_RUN_ONCE_PROGRESS) = f.cell :=
      addressBits_or hown.2.2 (by decide)
    rw [State.setPc_ptr, hbits]
    have hchain : OwnedChain s (s.cells f.cell) := hlink ▸ h.waiters hstate
    have hcons : OwnedChain s f.cell := hchain.cons hown.2.1 (by rw [hown.1]; simp)
    exact hcons.congr rfl fun _ hx => hx
  | @publishes c f hpc hstate =>
    -- the chain leaves the word, and is the one to be walked
    have hword : runOnceState f.word ≠ .progress := hcell.at_pc hpc
    refine h.move rfl (fun g val he => ?_) (fun _ _ _ _ hc => hc.congr rfl fun _ hx => hx)
      (fun hs => absurd hs hword)
    split_ifs at he
    cases he
    exact (h.waiters hstate).congr rfl fun _ hx => hx
  | @publishesAsync c f hpc =>
    have hword : runOnceState f.word ≠ .progress := hcell.at_pc hpc
    exact h.move rfl (by simp) (fun _ _ _ _ hc => hc.congr rfl fun _ hx => hx)
      (fun hs => absurd hs hword)
  | @storeNext c f val hpc =>
    -- the cell is on no chain while its link is stored
    have hoff : OffChains s f.cell := hok.store c f val rfl hpc
    refine h.move rfl (by simp) (fun d g v hd hc => hc.store (hoff.2 d g v hd) rfl rfl)
      fun hs => ?_
    exact (h.waiters hs).store (hoff.1 hs) rfl rfl
  | @readCell c f val hpc =>
    have hval : val ≠ 0 := hcell.at_pc hpc
    refine h.move rfl (fun g v he => ?_) (fun _ _ _ _ hc => hc.congr rfl fun _ hx => hx)
      fun hs => (h.waiters hs).congr rfl fun _ hx => hx
    split_ifs at he
    cases he
    exact ((h.walks c f val hpc).next hval).congr rfl fun _ hx => hx

end ChainInv

/-! ## Walks end -/

/-- The call that makes the step. -/
def Action.caller : Action C → C
  | .callBegin c .. | .callComplete c .. | .callExecute c .. | .readPtr c | .swap c
  | .storeNext c | .callbackReturns c .. | .readCell c => c

section Walks

variable [DecidableEq C] {s s' : State C} {a : Action C} {c : C}

/-- A step moves only the call that makes it. -/
lemma pc_of_step (hstep : step s a = some s') {d : C} (hd : d ≠ a.caller) :
    s'.pc d = s.pc d := by
  have hd' : ∀ e, e = a.caller → d ≠ e := fun e he => he ▸ hd
  have hcomplete : ∀ (t : State C) (b b' r : Bool) (w : Word), t.pc = s.pc →
      (t.enterComplete a.caller b b' w r).pc d = s.pc d := by
    intro t b b' r w ht
    unfold State.enterComplete
    split <;> simp [hd, ht]
  cases effect_of_step hstep with
  | callComplete => exact hcomplete s _ _ _ _ rfl
  | callbackReturns => exact hcomplete _ _ _ _ _ rfl
  | _ => exact Function.update_of_ne (hd' _ rfl) ..

/-- Only the assignment to `next` changes a cell. -/
lemma cells_of_step (hstep : step s a = some s') :
    s'.cells = s.cells ∨ ∃ d f val, a = .storeNext d ∧ s.pc d = .beginStore f val ∧
      s'.cells = Function.update s.cells f.cell (addressBits val) := by
  have hcomplete : ∀ (t : State C) (d : C) (b b' r : Bool) (w : Word),
      (t.enterComplete d b b' w r).cells = t.cells := by
    intro t d b b' r w
    unfold State.enterComplete
    split <;> rfl
  cases effect_of_step hstep with
  | storeNext hpc => exact Or.inr ⟨_, _, _, rfl, hpc, rfl⟩
  | callComplete => exact Or.inl (hcomplete ..)
  | callbackReturns => exact Or.inl (hcomplete ..)
  | _ => exact Or.inl rfl

/-- A call that walks makes no other step than the read of its next cell. -/
lemma readCell_of_walking (hstep : step s a = some s') {f : CompleteFrame} {val : Addr}
    (hpc : s.pc a.caller = .walking f val) : a = .readCell a.caller := by
  have hnot : ∀ {d p}, s.pc d = p → d = a.caller → p = .walking f val := by
    rintro d p hd rfl
    exact hd.symm.trans hpc
  cases effect_of_step hstep with
  | readCell => rfl
  | _ hpc' => exact absurd (hnot hpc' rfl) (by simp)

/-- A call that has returned makes no step. -/
lemma not_returned_of_step (hstep : step s a = some s') {b : Bool} {e : Option ErrorCode} :
    s.pc a.caller ≠ .returned b e := by
  intro hpc
  have hnot : ∀ {d p}, s.pc d = p → d = a.caller → p = .returned b e := by
    rintro d p hd rfl
    exact hd.symm.trans hpc
  cases effect_of_step hstep with
  | _ hpc' => exact absurd (hnot hpc' rfl) (by simp)

/-- **Step lemma of the walks.** -/
lemma walkShrinks (hcell : CellInv s) (hok : CellsKept s a s') (hstep : step s a = some s') :
    WalkShrinks s a s' := by
  intro c f val l hpc hl
  constructor
  · rintro rfl
    have hval : val ≠ 0 := hcell.at_pc hpc
    obtain ⟨l', rfl, hl'⟩ := hl.exists_cons hval
    refine ⟨l', rfl, ?_⟩
    cases effect_of_step hstep with
    | readCell hpc' =>
      rw [hpc] at hpc'
      cases hpc'
      by_cases hlast : s.cells val = 0
      · rw [hlast] at hl'
        exact Or.inl ⟨Chain.zero_iff.mp hl', by simp [State.walkFrom, hlast]⟩
      · exact Or.inr ⟨s.cells val, by simp [State.walkFrom, hlast], hl'⟩
  · intro hne
    have hother : c ≠ a.caller := by
      rintro rfl
      exact hne (readCell_of_walking hstep hpc)
    refine ⟨(pc_of_step hstep hother).trans hpc, ?_⟩
    rcases cells_of_step hstep with hcells | ⟨d, g, v, rfl, hpcd, hcells⟩
    · rwa [hcells]
    · rw [hcells]
      have hoff := (hok.store d g v rfl hpcd).2 c f val hpc
      exact hl.update fun hx => hoff (hl.mem_iff_onChain.mp hx)

/-- A call that has returned makes no read in the rest of a run. -/
lemma count_readCell_of_returned {as : List (Action C)} {s t : State C} {b : Bool}
    {e : Option ErrorCode} (hrun : run step s as = some t) (hpc : s.pc c = .returned b e) :
    as.count (.readCell c) = 0 := by
  induction as generalizing s with
  | nil => rfl
  | cons a as ih =>
    rw [run_cons, Option.bind_eq_some_iff] at hrun
    obtain ⟨s', hs', hrun⟩ := hrun
    have hother : c ≠ a.caller := by
      rintro rfl
      exact not_returned_of_step hs' hpc
    have hne : a ≠ .readCell c := by
      rintro rfl
      exact hother rfl
    rw [List.count_cons_of_ne hne]
    exact ih hrun ((pc_of_step hs' hother).trans hpc)

/-- A walk makes at most one read for each cell of its chain. -/
lemma count_readCell_le {as : List (Action C)} {s t : State C} {f : CompleteFrame}
    {val : Addr} {l : List Addr} (hok : EveryStep step WalkShrinks s as)
    (hrun : run step s as = some t) (hpc : s.pc c = .walking f val)
    (hl : Chain s.cells val l) : as.count (.readCell c) ≤ l.length := by
  induction as generalizing s val l with
  | nil => exact Nat.zero_le _
  | cons a as ih =>
    rw [run_cons, Option.bind_eq_some_iff] at hrun
    obtain ⟨s', hs', hrun⟩ := hrun
    obtain ⟨hshrink, hrest⟩ := hok s' hs'
    obtain ⟨hown, hothers⟩ := hshrink c f val l hpc hl
    by_cases ha : a = .readCell c
    · obtain ⟨l', rfl, ⟨rfl, hpc'⟩ | ⟨val', hpc', hl'⟩⟩ := hown ha
      · rw [ha, List.count_cons_self, count_readCell_of_returned hrun hpc']
        exact Nat.le_refl 1
      · rw [ha, List.count_cons_self, List.length_cons]
        exact Nat.succ_le_succ (ih hrest hrun hpc' hl')
    · obtain ⟨hpc', hl'⟩ := hothers ha
      rw [List.count_cons_of_ne ha]
      exact ih hrest hrun hpc' hl'

/-- **The chain of the waiters.** In every run of any calls in which no call stores to its
cell, or leaves `InitOnceBeginInitialize`, while that cell is on the chain of the waiters
or on what a walk has still to read: the chain is finite in the state `PROGRESS`, repeats
no cell and has only cells of calls inside `InitOnceBeginInitialize`; the same holds of
what every walk has still to read; each read of a walk takes one cell off it and nothing
else changes it; and however the run goes on, a walk makes no more reads than its chain has
cells. -/
theorem waiterChain_of_cellsKept (cells : Addr → Word) (as : List (Action C))
    (hok : EveryStep step CellsKept (State.init cells) as) :
    EveryState step ChainsFinite (State.init cells) as ∧
      EveryStep step WalkShrinks (State.init cells) as ∧
      ∀ bs cs s t c f val, as = bs ++ cs → run step (State.init cells) bs = some s →
        run step s cs = some t → s.pc c = .walking f val →
        ∃ l, Chain s.cells val l ∧ cs.count (.readCell c) ≤ l.length := by
  have hinv : EveryState step (fun s => CellInv s ∧ ChainInv s) (State.init cells) as :=
    hok.everyState (fun s a s' h hok hstep => ⟨h.1.step hstep, h.2.step h.1 hok hstep⟩)
      ⟨.init cells, .init cells⟩
  have hshrinks : EveryStep step WalkShrinks (State.init cells) as := by
    refine hok.imp ?_ hinv
    intro s a s' h hok hstep
    exact walkShrinks h.1 hok hstep
  refine ⟨hinv.mono fun s h => h.2.finite h.1, hshrinks, ?_⟩
  rintro bs cs s t c f val rfl hbs hcs hpc
  obtain ⟨-, hchain⟩ := (hinv.of_append hbs).head
  obtain ⟨l, hl, -⟩ := hchain.walks c f val hpc
  exact ⟨l, hl, count_readCell_le (hshrinks.of_append hbs) hcs hpc hl⟩

end Walks

/-! ## Runs

A step meets `CellsKept` if there is no chain at all before it, or if it concerns no cell;
both can be evaluated. -/

def Pc.isWalking : Pc → Bool
  | .walking .. => true
  | _ => false

/-- No cell is on a chain. -/
def Unchained (s : State C) : Prop :=
  (runOnceState s.ptr = .progress → addressBits s.ptr = 0) ∧ ∀ c, (s.pc c).isWalking = false

/-- The step stores to no cell, and no call leaves `InitOnceBeginInitialize`. -/
def CellsUntouched (s : State C) (a : Action C) (s' : State C) : Prop :=
  (∀ c, a ≠ .storeNext c) ∧
    ∀ c, (s.pc c).beginFrame ≠ none → (s'.pc c).beginFrame ≠ none

instance [Fintype C] (s : State C) : Decidable (Unchained s) := by
  unfold Unchained
  infer_instance

instance [Fintype C] [DecidableEq C] (s : State C) (a : Action C) (s' : State C) :
    Decidable (CellsUntouched s a s') := by
  unfold CellsUntouched
  infer_instance

lemma CellsKept.of_unchained {s s' : State C} {a : Action C}
    (h : Unchained s ∨ CellsUntouched s a s') : CellsKept s a s' := by
  have hoff : Unchained s → ∀ x, OffChains s x := by
    rintro ⟨hwaiters, hwalks⟩ x
    refine ⟨fun hstate => ?_, fun c f val hpc => ?_⟩
    · rw [hwaiters hstate]
      exact OnChain.not_zero x
    · have hwalk := hwalks c
      rw [hpc] at hwalk
      cases hwalk
  rcases h with h | ⟨hstore, hleave⟩
  · exact ⟨fun _ _ _ _ _ => hoff h _, fun _ _ _ _ => hoff h _⟩
  · refine ⟨fun c _ _ ha => absurd ha (hstore c), fun c f hf hf' => ?_⟩
    exact absurd hf' (hleave c (by rw [hf]; simp))

/-- Call 1 waits, with its cell at 32, until call 2 completes the initialisation that call 0
has begun; it leaves after call 2 has read its cell. -/
def releasedWaiterRun : List (Action (Fin 3)) :=
  [.callBegin 0 0 16 none, .readPtr 0, .swap 0,
   .callBegin 1 0 32 (some 0), .readPtr 1, .storeNext 1, .swap 1,
   .callComplete 2 0 64, .readPtr 2, .swap 2, .readCell 2, .readPtr 1]

theorem waiterChain_releasedWaiterRun :
    EveryState step ChainsFinite (State.init fun _ => 0) releasedWaiterRun ∧
      EveryStep step WalkShrinks (State.init fun _ => 0) releasedWaiterRun ∧
      ∀ bs cs s t c f val, releasedWaiterRun = bs ++ cs →
        run step (State.init fun _ => 0) bs = some s → run step s cs = some t →
        s.pc c = .walking f val →
        ∃ l, Chain s.cells val l ∧ cs.count (.readCell c) ≤ l.length := by
  refine waiterChain_of_cellsKept _ _ ?_
  have hrun : EveryStep step (fun s a s' => Unchained s ∨ CellsUntouched s a s')
      (State.init fun _ => 0) releasedWaiterRun := by decide
  exact hrun.mono fun _ _ _ => CellsKept.of_unchained

/-- The waiter of `releasedWaiterRun` goes round its loop once more before the
initialisation is completed, and stores its own address to its cell. -/
def selfLinkRun : List (Action (Fin 3)) :=
  [.callBegin 0 0 16 none, .readPtr 0, .swap 0,
   .callBegin 1 0 32 (some 0), .readPtr 1, .storeNext 1, .swap 1, .readPtr 1, .storeNext 1]

/-- The chain of the waiters has no end, and the walk of the call that completes the
initialisation reads the same cell for ever. -/
theorem waiter_links_itself :
    ∃ s, run step (State.init fun _ => 0) selfLinkRun = some s ∧
      ¬ ChainsFinite s ∧ runOnceState s.ptr = .progress ∧
      (∀ l, ¬ Chain s.cells (addressBits s.ptr) l) ∧
      ∃ t f, run step s [.callComplete 2 0 64, .readPtr 2, .swap 2] = some t ∧
        t.pc 2 = .walking f 32 ∧ step t (.readCell 2) = some t := by
  obtain ⟨s, hrun, hstate, hbits, hself, t, hrun', hpc, hself'⟩ :
      ∃ s, run step (State.init fun _ => 0) selfLinkRun = some s ∧
        runOnceState s.ptr = .progress ∧ addressBits s.ptr = 32 ∧ s.cells 32 = 32 ∧
        ∃ t, run step s [.callComplete 2 0 64, .readPtr 2, .swap 2] = some t ∧
          t.pc 2 = .walking ⟨false, 66, true⟩ 32 ∧ t.cells 32 = 32 :=
    ⟨_, rfl, rfl, rfl, rfl, _, rfl, rfl, rfl⟩
  have hendless : ∀ l, ¬ Chain s.cells (addressBits s.ptr) l := by
    intro l
    rw [hbits]
    exact Chain.not_of_self (by decide) hself
  refine ⟨s, hrun, fun hfinite => ?_, hstate, hendless, t, _, hrun', hpc, ?_⟩
  · obtain ⟨l, hl, -⟩ := hfinite.waiters hstate
    exact hendless l hl
  · have hstay : t.walkFrom 2 ⟨false, 66, true⟩ 32 = t := by
      rw [State.walkFrom, if_neg (by decide), State.setPc, ← hpc, Function.update_eq_self]
    simp only [step, hpc, hself', hstay]

end InitOnce
end ClamavWin32
