import ClamavWin32.Actions.FileActionsTheorems

/-!
# A move, done or not done

`action_move` creates a file in the target directory, copies the source to it and removes the
source. Any of these can fail.

* `AllOrNothing`: the source is gone and copied, or it is kept and nothing else is left;
* `moveUnlink`: the one call of `traverse_unlink` in a move, and the world in which it is made
  (`calls_action_move`);
* `World.HoldsOpen`: in that world the file that was created is still open;
* `allOrNothing_iff`: when a move is all or nothing.
-/

namespace ClamavWin32
namespace Actions

open ResourceEvent

variable {ε : Type*} [DecidableEq ε] {sys : System ε} {s : Statics} {source : Option ActionSource}
  {filename : CString} {disk : ε → Option Data} {notmoved notremoved : UInt32}

/-! ## What a move should do -/

/-- The source is gone, there is a complete copy under a new name, and no failure is counted. -/
structure Moved (sys : System ε) (filename : CString) (disk : ε → Option Data)
    (notmoved : UInt32) (w : World ε) : Prop where
  existed : disk (sys.entry filename) ≠ none
  gone : w.disk (sys.entry filename) = none
  copied : ∃ name, disk (sys.entry name) = none ∧
    w.disk (sys.entry name) = disk (sys.entry filename)
  counted : w.notmoved = notmoved

/-- The source is as it was, there is no file that there was not before, and one failure is
counted. -/
structure Kept (sys : System ε) (filename : CString) (disk : ε → Option Data)
    (notmoved : UInt32) (w : World ε) : Prop where
  intact : w.disk (sys.entry filename) = disk (sys.entry filename)
  nothing : ∀ e, disk e = none → w.disk e = none
  counted : w.notmoved = notmoved + 1

def AllOrNothing (sys : System ε) (filename : CString) (disk : ε → Option Data)
    (notmoved : UInt32) (w : World ε) : Prop :=
  Moved sys filename disk notmoved w ∨ Kept sys filename disk notmoved w

lemma add_one_ne (n : UInt32) : n + 1 ≠ n := by
  intro h
  have hnat := congrArg UInt32.toNat h
  rw [UInt32.toNat_add] at hnat
  have hlt := n.toNat_lt
  have hone : (1 : UInt32).toNat = 1 := rfl
  omega

/-! ## Files that are open -/

/-- A resource that was acquired and not released since. -/
def World.Holds (w : World ε) (r : Resource) : Prop :=
  ∃ held, ledger [] w.events = some held ∧ r ∈ held

/-- The file that the path names was opened, and its descriptor is not closed yet. -/
def World.HoldsOpen (sys : System ε) (w : World ε) (path : CString) : Prop :=
  ∃ name, ∃ fd : ℕ, .openExcl name (.opened fd) ∈ w.calls ∧ sys.entry name = sys.entry path ∧
    w.Holds (.descriptor fd)

/-- The path that `action_move` hands to `traverse_unlink`, and the world in which it does. -/
def moveUnlink (sys : System ε) (s : Statics) (source : Option ActionSource) (w : World ε) :
    Option (CString × World ε) :=
  (action_source_filename source).bind fun filename =>
    let ((fd, nuname), w) := getdest sys s filename w
    match copyTo sys filename fd nuname w with
    | (true, w) => some (filename, w)
    | (false, w) => nuname.map fun name => (name.text, w)

/-- As on Windows, a file that this process holds open is not removed. -/
def RefusesOpen (sys : System ε) (s : Statics) (source : Option ActionSource) (w : World ε) :
    Prop :=
  ∀ path w', moveUnlink sys s source w = some (path, w') → w'.HoldsOpen sys path →
    sys.traverse_unlink ≠ 0

/-- `filecopy` returns 0 only after it has made a complete copy of the source. -/
def CopiesCompletely (sys : System ε) (s : Statics) (filename : CString) (w : World ε) : Prop :=
  ∀ fd name w', getdest sys s filename w = ((fd, some name), w') → sys.filecopy.1 = 0 →
    w'.disk (sys.entry filename) ≠ none ∧ sys.filecopy.2 = w'.disk (sys.entry filename)

/-- The call is the one that is made, and the last one. -/
lemma calls_action_move {w w' : World ε} {path : CString}
    (h : moveUnlink sys s source w = some (path, w')) :
    (action_move sys s source w).calls =
      w'.calls ++ [.unlink path sys.traverse_unlink] := by
  obtain ⟨filename, hfile, h⟩ := Option.bind_eq_some_iff.1 h
  rw [action_move, hfile]
  rcases hdest : getdest sys s filename w with ⟨⟨fd, nuname⟩, w₁⟩
  rcases hcopy : copyTo sys filename fd nuname w₁ with ⟨ok, w₂⟩
  simp only [hdest, hcopy] at h ⊢
  cases ok with
  | true =>
    obtain ⟨rfl, rfl⟩ := Prod.mk.inj (Option.some.inj h)
    rw [cleanup_calls]
    split <;> rfl
  | false =>
    obtain ⟨name, rfl, hname⟩ := Option.map_eq_some_iff.1 h
    obtain ⟨rfl, rfl⟩ := Prod.mk.inj hname
    rw [cleanup_calls]
    rfl

/-! ## The file that is created -/

/-- The search leaves its file open. -/
lemma events_getdestSearch (actarget name : CString) (size : ℕ) (tmps newname : Addr) (n i : ℕ)
    (path : CString) (w : World ε) {w' : World ε} {fd : ℤ} {nuname : HeapString}
    (h : getdestSearch sys actarget name size tmps newname n i path w =
      ((fd, some nuname), w')) :
    w'.events = w.events ++ [.acquire (.descriptor fd), .release (.block tmps)] := by
  induction n generalizing i path w with
  | zero => cases h
  | succ n ih =>
    rcases openExcl_cases sys i path w with ⟨f, hopen, -⟩ | ⟨errno, hopen⟩
    · simp only [getdestSearch, hopen] at h
      obtain ⟨hname, rfl⟩ := Prod.mk.inj h
      rw [← (Prod.mk.inj hname).1]
      show w.events ++ [_] ++ [_] = _
      rw [List.append_assoc]
      rfl
    · cases errno with
      | EEXIST =>
        simp only [getdestSearch, hopen] at h
        have hrest := ih _ _ _ h
        exact hrest
      | other code =>
        simp only [getdestSearch, hopen] at h
        cases h

/-- The file that `getdest` has created is open. -/
lemma holds_getdest {w : World ε} {fd : ℤ} {nuname : HeapString}
    (h : getdest sys s filename (.start disk notmoved notremoved) = ((fd, some nuname), w)) :
    w.Holds (.descriptor fd) := by
  cases htmps : sys.strdup filename with
  | none =>
    simp only [getdest, htmps] at h
    cases h
  | some tmps =>
    simp only [getdest, htmps] at h
    cases hmalloc : sys.malloc ((s.targlen + (sys.basename filename).length + 6) %
        2 ^ sys.ptrBits).toNat with
    | none =>
      simp only [hmalloc] at h
      cases h
    | some newname =>
      simp only [hmalloc] at h
      have hevents : w.events = [.acquire (.block tmps), .acquire (.block newname),
          .acquire (.descriptor fd), .release (.block tmps)] :=
        events_getdestSearch _ _ _ _ _ _ _ _ _ h
      have hmem : Resource.block tmps ∈
          [Resource.descriptor fd, .block newname, .block tmps] :=
        List.mem_cons_of_mem _ (List.mem_cons_of_mem _ List.mem_cons_self)
      refine ⟨[.descriptor fd, .block newname, .block tmps].erase (.block tmps), ?_, ?_⟩
      · rw [hevents, ledger_acquire, ledger_acquire, ledger_acquire, ledger, if_pos hmem,
          ledger_nil]
      · have hne : Resource.descriptor fd ≠ .block tmps := fun heq => by cases heq
        exact (List.mem_erase_of_ne hne).2 List.mem_cons_self

lemma notmoved_getdestSearch (actarget name : CString) (size : ℕ) (tmps newname : Addr)
    (n i : ℕ) (path : CString) (w : World ε) :
    (getdestSearch sys actarget name size tmps newname n i path w).2.notmoved = w.notmoved := by
  induction n generalizing i path w with
  | zero => rfl
  | succ n ih =>
    rcases openExcl_cases sys i path w with ⟨f, hopen, -⟩ | ⟨errno, hopen⟩
    · simp only [getdestSearch, hopen]
      rfl
    · cases errno with
      | EEXIST =>
        simp only [getdestSearch, hopen]
        rw [ih]
        rfl
      | other code =>
        simp only [getdestSearch, hopen]
        rfl

/-- No failure is counted before the copy. -/
lemma notmoved_getdest (w : World ε) :
    (getdest sys s filename w).2.notmoved = w.notmoved := by
  cases htmps : sys.strdup filename with
  | none => simp only [getdest, htmps]
  | some tmps =>
    cases hmalloc : sys.malloc ((s.targlen + (sys.basename filename).length + 6) %
        2 ^ sys.ptrBits).toNat with
    | none =>
      simp only [getdest, htmps, hmalloc]
      rfl
    | some newname =>
      simp only [getdest, htmps, hmalloc]
      rw [notmoved_getdestSearch]
      rfl

omit [DecidableEq ε] in
lemma cleanup_notmoved (fd : ℤ) (nuname : Option HeapString) (w : World ε) :
    (cleanup fd nuname w).notmoved = w.notmoved := by
  cases nuname <;> unfold cleanup <;> split <;> rfl

lemma disk_traverse_unlink (path : CString) (w : World ε) :
    (traverse_unlink sys path w).2.disk =
      if sys.traverse_unlink = 0 then Function.update w.disk (sys.entry path) none
      else w.disk := by
  show FileOp.perform w.disk (if sys.traverse_unlink = 0 then _ else _) = _
  split
  · rfl
  · rfl

/-! ## How a move ends -/

/-- How a move of a file can end, by what `getdest`, `filecopy` and `traverse_unlink` do. -/
inductive MoveEnds (sys : System ε) (s : Statics) (source : Option ActionSource)
    (filename : CString) (disk : ε → Option Data) (notmoved : UInt32) (start : World ε) :
    World ε → Prop
  /-- There is no name for the copy. -/
  | noName {w : World ε} (hnone : (getdest sys s filename start).1.2 = none)
      (hdisk : w.disk = disk) (hcounted : w.notmoved = notmoved + 1) :
      MoveEnds sys s source filename disk notmoved start w
  /-- The copy fails, and its file is removed or not. -/
  | notCopied {w : World ε} {fd : ℕ} {nuname : HeapString} {w₁ w₂ : World ε}
      (hdest : getdest sys s filename start = (((fd : ℤ), some nuname), w₁))
      (hfree : disk (sys.entry nuname.text) = none) (hfails : sys.filecopy.1 ≠ 0)
      (hunlink : moveUnlink sys s source start = some (nuname.text, w₂))
      (hopen : w₂.HoldsOpen sys nuname.text)
      (hdisk : w.disk = Function.update disk (sys.entry nuname.text)
        (if sys.traverse_unlink = 0 then none else sys.filecopy.2))
      (hcounted : w.notmoved = notmoved + 1) :
      MoveEnds sys s source filename disk notmoved start w
  /-- The file is copied, and it is removed or not. -/
  | copied {w : World ε} {fd : ℕ} {nuname : HeapString} {w₁ w₂ : World ε}
      (hdest : getdest sys s filename start = (((fd : ℤ), some nuname), w₁))
      (hdisk₁ : w₁.disk = Function.update disk (sys.entry nuname.text) (some []))
      (hfree : disk (sys.entry nuname.text) = none) (hok : sys.filecopy.1 = 0)
      (hunlink : moveUnlink sys s source start = some (filename, w₂))
      (hopen : sys.entry nuname.text = sys.entry filename → w₂.HoldsOpen sys filename)
      (hdisk : w.disk =
        if sys.traverse_unlink = 0 then
          Function.update (Function.update disk (sys.entry nuname.text) sys.filecopy.2)
            (sys.entry filename) none
        else Function.update disk (sys.entry nuname.text) sys.filecopy.2)
      (hcounted : w.notmoved = notmoved) :
      MoveEnds sys s source filename disk notmoved start w

/-- After `filecopy` the new file holds what that has left in it, and is still open. -/
lemma filecopy_found {w : World ε} {fd : ℕ} {name : CString}
    (hopened : FileCall.openExcl name (.opened fd) ∈ w.calls) (hholds : w.Holds (.descriptor fd))
    (hdisk : w.disk = Function.update disk (sys.entry name) (some [])) :
    (w.call sys (.filecopy filename name sys.filecopy.1 sys.filecopy.2)).disk =
        Function.update disk (sys.entry name) sys.filecopy.2 ∧
      ∀ path, sys.entry name = sys.entry path →
        (w.call sys (.filecopy filename name sys.filecopy.1 sys.filecopy.2)).HoldsOpen sys
          path := by
  constructor
  · show Function.update w.disk _ _ = _
    rw [hdisk]
    exact Function.update_idem _ _ _
  · intro path hpath
    refine ⟨name, fd, ?_, hpath, hholds⟩
    show _ ∈ w.calls ++ [_]
    exact List.mem_append_left _ hopened

/-- A move of a file ends in one of these ways. -/
theorem moveEnds_action_move (hfile : action_source_filename source = some filename) :
    MoveEnds sys s source filename disk notmoved (.start disk notmoved notremoved)
      (action_move sys s source (.start disk notmoved notremoved)) := by
  have hspec := getdest_spec sys s filename (.start disk notmoved notremoved)
  rcases hdest : getdest sys s filename (.start disk notmoved notremoved) with
    ⟨⟨fd, nuname⟩, w₁⟩
  rw [hdest] at hspec
  have hunlink : moveUnlink sys s source (.start disk notmoved notremoved) =
      match copyTo sys filename fd nuname w₁ with
      | (true, w) => some (filename, w)
      | (false, w) => nuname.map fun name => (name.text, w) := by
    rw [moveUnlink, hfile, Option.bind_some]
    simp only [hdest]
  have hnotmoved := @notmoved_getdest ε _ sys s filename (.start disk notmoved notremoved)
  rw [hdest] at hnotmoved
  change w₁.notmoved = notmoved at hnotmoved
  rw [action_move, hfile]
  simp only [hdest]
  cases hspec with
  | noName hrefused hattempts hcalls hdisk =>
    -- every name is taken: nothing is copied
    apply MoveEnds.noName
    · rw [hdest]
    · exact hdisk
    · show w₁.notmoved + 1 = notmoved + 1
      rw [hnotmoved]
  | @found searches f newname _ hrefused hattempts hcalls hfree hdisk =>
    -- the file is copied over the one that was created for it
    change w₁.disk = Function.update disk _ _ at hdisk
    change disk _ = none at hfree
    have hholds := holds_getdest hdest
    have hcopy : copyTo sys filename f (some newname) w₁ = (sys.filecopy.1 == 0,
        w₁.call sys (.filecopy filename newname.text sys.filecopy.1 sys.filecopy.2)) := by
      rw [copyTo, if_neg (by omega)]
      rfl
    have hopened : FileCall.openExcl newname.text (.opened f) ∈ w₁.calls := by
      rw [hcalls]
      exact List.mem_append_right _ (List.mem_singleton.2 rfl)
    obtain ⟨hreplaced, hcalled⟩ := @filecopy_found ε _ sys filename disk w₁ f newname.text hopened
      hholds hdisk
    rw [hcopy] at hunlink ⊢
    by_cases hok : sys.filecopy.1 = 0
    · have hbeq : (sys.filecopy.1 == 0) = true := beq_iff_eq.2 hok
      rw [hbeq] at hunlink ⊢
      apply MoveEnds.copied hdest hdisk hfree hok hunlink (hcalled filename)
      · rw [← hreplaced, ← disk_traverse_unlink]
        dsimp only
        rw [cleanup_disk]
        split
        · rfl
        · rfl
      · dsimp only
        rw [cleanup_notmoved]
        split
        · exact hnotmoved
        · exact hnotmoved
    · -- the copy failed, and what it left is removed
      have hbeq : (sys.filecopy.1 == 0) = false := beq_eq_false_iff_ne.2 hok
      rw [hbeq] at hunlink ⊢
      apply MoveEnds.notCopied hdest hfree hok hunlink (hcalled newname.text rfl)
      · dsimp only
        rw [cleanup_disk]
        show (traverse_unlink sys newname.text _).2.disk = _
        rw [disk_traverse_unlink]
        show (if _ then Function.update (World.disk (w₁.call sys _)) _ none
          else World.disk (w₁.call sys _)) = _
        rw [hreplaced]
        split
        · exact Function.update_idem _ _ _
        · rfl
      · dsimp only
        rw [cleanup_notmoved]
        show w₁.notmoved + 1 = notmoved + 1
        rw [hnotmoved]

/-! ## When a move is all or nothing -/

/-- The failed copy of a file that is still open is all or nothing if it has left no file. -/
lemma allOrNothing_notCopied {nuname : CString} {left : Option Data} {w : World ε}
    (hfree : disk (sys.entry nuname) = none)
    (hdisk : w.disk = Function.update disk (sys.entry nuname) left)
    (hcounted : w.notmoved = notmoved + 1) :
    AllOrNothing sys filename disk notmoved w ↔ left = none := by
  constructor
  · intro h
    rcases h with hmoved | hkept
    · have hsame := hmoved.counted
      rw [hcounted] at hsame
      exact absurd hsame (add_one_ne notmoved)
    · have hnothing := hkept.nothing _ hfree
      rw [hdisk, Function.update_self] at hnothing
      exact hnothing
  · intro hleft
    have hsame : w.disk = disk := by
      rw [hdisk, hleft, ← hfree]
      exact Function.update_eq_self _ _
    refine Or.inr ⟨?_, ?_, hcounted⟩
    · rw [hsame]
    · intro e he
      rw [hsame]
      exact he

/-- A complete copy is all or nothing if its source is removed. -/
lemma allOrNothing_copied {nuname : CString} {w : World ε}
    (hfree : disk (sys.entry nuname) = none)
    (hother : sys.entry nuname ≠ sys.entry filename) (hexisted : disk (sys.entry filename) ≠ none)
    (hdisk : w.disk =
      if sys.traverse_unlink = 0 then
        Function.update (Function.update disk (sys.entry nuname) (disk (sys.entry filename)))
          (sys.entry filename) none
      else Function.update disk (sys.entry nuname) (disk (sys.entry filename)))
    (hcounted : w.notmoved = notmoved) :
    AllOrNothing sys filename disk notmoved w ↔ sys.traverse_unlink = 0 := by
  constructor
  · intro h
    by_contra hunlink
    rw [if_neg hunlink] at hdisk
    rcases h with hmoved | hkept
    · have hgone := hmoved.gone
      rw [hdisk, Function.update_of_ne hother.symm] at hgone
      exact hexisted hgone
    · have hsame := hkept.counted
      rw [hcounted] at hsame
      exact add_one_ne notmoved hsame.symm
  · intro hunlink
    rw [if_pos hunlink] at hdisk
    refine Or.inl ⟨hexisted, ?_, ⟨nuname, hfree, ?_⟩, hcounted⟩
    · rw [hdisk, Function.update_self]
    · rw [hdisk, Function.update_of_ne hother, Function.update_self]

/-- A move is all or nothing if and only if no name is found for the copy, the copy fails and
leaves no file, or it succeeds and the source is removed. -/
theorem allOrNothing_iff (hfile : action_source_filename source = some filename)
    (hopen : RefusesOpen sys s source (.start disk notmoved notremoved))
    (hcopy : CopiesCompletely sys s filename (.start disk notmoved notremoved)) :
    AllOrNothing sys filename disk notmoved
        (action_move sys s source (.start disk notmoved notremoved)) ↔
      (getdest sys s filename (.start disk notmoved notremoved)).1.2 = none ∨
        sys.filecopy.1 ≠ 0 ∧ sys.filecopy.2 = none ∨
          sys.filecopy.1 = 0 ∧ sys.traverse_unlink = 0 := by
  have hends := @moveEnds_action_move ε _ sys s source filename disk notmoved notremoved hfile
  generalize action_move sys s source (.start disk notmoved notremoved) = w at hends
  cases hends with
  | noName hnone hdisk hcounted =>
    apply iff_of_true _ (Or.inl hnone)
    refine Or.inr ⟨?_, ?_, hcounted⟩
    · rw [hdisk]
    · intro e he
      rw [hdisk]
      exact he
  | notCopied hdest hfree hfails hunlink hheld hdisk hcounted =>
    rw [if_neg (hopen _ _ hunlink hheld)] at hdisk
    rw [allOrNothing_notCopied hfree hdisk hcounted, hdest]
    have hname : ∀ name : HeapString, (some name : Option HeapString) ≠ none := nofun
    rw [or_iff_right (hname _), and_iff_right hfails, or_iff_left fun h => hfails h.1]
  | @copied fd nuname w₁ w₂ hdest hdisk₁ hfree hok hunlink hheld hdisk hcounted =>
    obtain ⟨hexists, hleft⟩ := hcopy _ _ _ hdest hok
    rw [hdisk₁] at hexists hleft
    rw [hdest]
    have hname : (some nuname : Option HeapString) ≠ none := nofun
    rw [or_iff_right hname, or_iff_right fun h => h.1 hok, and_iff_right hok]
    by_cases hsame : sys.entry nuname.text = sys.entry filename
    · -- the file that was created is the source, and it is still open
      have hunlinked := hopen _ _ hunlink (hheld hsame)
      rw [if_neg hunlinked, hsame] at hdisk
      rw [hsame, Function.update_self] at hexists hleft
      apply iff_of_false _ hunlinked
      rintro (hmoved | hkept)
      · have hgone := hmoved.gone
        rw [hdisk, Function.update_self, hleft] at hgone
        exact hexists hgone
      · have hcount := hkept.counted
        rw [hcounted] at hcount
        exact add_one_ne notmoved hcount.symm
    · rw [Function.update_of_ne (Ne.symm hsame)] at hexists hleft
      rw [hleft] at hdisk
      exact allOrNothing_copied hfree hsame hexists hdisk hcounted

/-! ## Moves of the file `a` to `q\a.001` -/

lemma refusesOpen_sampleSystem :
    RefusesOpen sampleSystem sampleStatics (some sampleSource) (.start sampleDisk 0 0) := by
  intro path w' hunlink hheld
  obtain ⟨rfl, rfl⟩ := Prod.mk.inj (Option.some.inj hunlink)
  obtain ⟨name, fd, hmem, hname, -⟩ := hheld
  obtain rfl : name = [97] := hname
  have hcalls : (FileCall.openExcl [97] (.opened fd)) ∈
      [FileCall.openExcl [113, 92, 97] (.failed .EEXIST),
        .openExcl [113, 92, 97, 46, 48, 48, 49] (.opened 3),
        .filecopy [97] [113, 92, 97, 46, 48, 48, 49] 0 (some [1, 2])] := by
    have hsame : (moveUnlink sampleSystem sampleStatics (some sampleSource)
        (.start sampleDisk 0 0)).map (fun u => u.2.calls) =
          some [FileCall.openExcl [113, 92, 97] (.failed .EEXIST),
            .openExcl [113, 92, 97, 46, 48, 48, 49] (.opened 3),
            .filecopy [97] [113, 92, 97, 46, 48, 48, 49] 0 (some [1, 2])] := by
      decide +kernel
    rw [hunlink] at hsame
    rw [← Option.some.inj hsame]
    exact hmem
  simp only [List.mem_cons, FileCall.openExcl.injEq, List.cons.injEq, reduceCtorEq, and_false,
    or_false, List.not_mem_nil, false_and] at hcalls

lemma copiesCompletely_sampleSystem :
    CopiesCompletely sampleSystem sampleStatics [97] (.start sampleDisk 0 0) := by
  intro fd name w' hdest _
  have hsource : (getdest sampleSystem sampleStatics [97] (.start sampleDisk 0 0)).2.disk [97] =
      some [1, 2] := by decide +kernel
  rw [hdest] at hsource
  have hentry : sampleSystem.entry [97] = [97] := rfl
  rw [hentry, hsource]
  exact ⟨Option.some_ne_none _, rfl⟩

theorem allOrNothing_sampleSystem :
    AllOrNothing sampleSystem [97] sampleDisk 0
      (action_move sampleSystem sampleStatics (some sampleSource) (.start sampleDisk 0 0)) :=
  (allOrNothing_iff rfl refusesOpen_sampleSystem copiesCompletely_sampleSystem).2
    (Or.inr (Or.inr ⟨rfl, rfl⟩))

/-- The disk is full, and the file that was created cannot be removed while it is open. -/
def fullSystem : System CString :=
  { sampleSystem with
    filecopy := (-1, some [1])
    traverse_unlink := -1 }

/-- A move to a disk that is full leaves a part of the copy. -/
theorem fullSystem_not_allOrNothing :
    RefusesOpen fullSystem sampleStatics (some sampleSource) (.start sampleDisk 0 0) ∧
      CopiesCompletely fullSystem sampleStatics [97] (.start sampleDisk 0 0) ∧
      ¬AllOrNothing fullSystem [97] sampleDisk 0
        (action_move fullSystem sampleStatics (some sampleSource) (.start sampleDisk 0 0)) := by
  refine ⟨?_, ?_, ?_⟩
  · intro path w' _ _
    decide
  · intro fd name w' _ hok
    exact absurd hok (by decide)
  · rintro (hmoved | hkept)
    · exact absurd hmoved.counted (by decide +kernel)
    · have hnothing := hkept.nothing [113, 92, 97, 46, 48, 48, 49] rfl
      exact absurd hnothing (by decide +kernel)

end Actions
end ClamavWin32
