import ClamavWin32.Actions.FileActions
import Mathlib.Data.Nat.Digits.Lemmas

/-!
# What the actions leave alone

Moving or copying a file to the target directory creates a file there exclusively, and from
then on touches only that file and, once it is copied, the source of a move.

* `getdestSearch_spec`, `getdest_spec`: the search for a free name;
* `ActionCalls`: the calls an action can make, in their order;
* `quarantine_keeps_files`: which files an action can change, and that what it formats fits
  the block it allocated.
-/

namespace ClamavWin32
namespace Actions

variable {ε : Type*} {sys : System ε} {s : Statics}

/-! ## The system -/

/-- What is documented of the system: the lengths of paths and of the last component of a
path, and that the lowest 64 KiB of the address space are never part of a block. -/
structure System.Documented (sys : System ε) : Prop where
  ptrBits : 32 ≤ sys.ptrBits
  stat_length : ∀ path dir, sys.stat path = some dir → path.length < 2 ^ 15
  basename_length : ∀ path, (sys.basename path).length ≤ max 1 path.length
  strdup_length : ∀ path block, sys.strdup path = some block →
    path.length + 1 + 2 ^ 16 ≤ 2 ^ sys.ptrBits

/-- `actsetup` has succeeded with the option `move` or `copy`. -/
def SetUp (sys : System ε) (s : Statics) : Prop :=
  ∃ opts log, (opts.move.or opts.copy).isSome = true ∧
    actsetup sys opts .init = (0, s, log)

/-- The target is a directory then, and `targlen` is the length of its path. -/
lemma SetUp.targlen_eq (hdoc : sys.Documented) (hs : SetUp sys s) :
    ∃ actarget, s.actarget = some actarget ∧ actarget.length < 2 ^ 15 ∧
      s.targlen = actarget.length := by
  obtain ⟨opts, log, htarget, hsetup⟩ := hs
  obtain ⟨strarg, hstrarg⟩ := Option.isSome_iff_exists.mp htarget
  by_cases hdir : sys.stat strarg = some true
  · have hlength := hdoc.stat_length strarg true hdir
    simp only [actsetup, hstrarg, isdir, hdir, ne_eq, not_true_eq_false, if_false,
      Prod.mk.injEq, true_and] at hsetup
    obtain ⟨rfl, -⟩ := hsetup
    refine ⟨strarg, rfl, hlength, ?_⟩
    exact int32_of_fits (by omega) (by omega)
  · simp only [actsetup, hstrarg, isdir, hdir, ne_eq, not_false_eq_true, if_true,
      Prod.mk.injEq] at hsetup
    exact absurd hsetup.1 (by decide)

/-! ## The block of the name -/

lemma length_suffix {i : ℕ} (hi : i < 1000) : (suffix i).length = 4 := by
  have hdigits : (Nat.digits 10 i).length ≤ 3 :=
    (Nat.digits_length_le_iff (by omega) i).mpr hi
  show (List.leftpad 3 48 _).length + 1 = 4
  rw [List.length_leftpad, List.length_map, List.length_reverse]
  omega

/-- The block has room for a name with a suffix. -/
lemma size_eq (hdoc : sys.Documented) {actarget fullpath : CString} {tmps : Addr}
    (hlength : actarget.length < 2 ^ 15) (htmps : sys.strdup fullpath = some tmps) :
    (((actarget.length : ℤ) + (sys.basename fullpath).length + 6) % 2 ^ sys.ptrBits).toNat =
      actarget.length + (sys.basename fullpath).length + 6 := by
  have hbase := hdoc.basename_length fullpath
  have hpath := hdoc.strdup_length fullpath tmps htmps
  have hbits : 2 ^ 32 ≤ 2 ^ sys.ptrBits := Nat.pow_le_pow_right (by omega) hdoc.ptrBits
  have hsum : ((actarget.length : ℤ) + (sys.basename fullpath).length + 6) =
      ((actarget.length + (sys.basename fullpath).length + 6 : ℕ) : ℤ) := by
    rw [Nat.cast_add, Nat.cast_add]
    rfl
  have hpow : ((2 : ℤ) ^ sys.ptrBits) = ((2 ^ sys.ptrBits : ℕ) : ℤ) := by
    rw [Nat.cast_pow]
    rfl
  rw [hsum, hpow, ← Int.natCast_mod, Int.toNat_natCast]
  apply Nat.mod_eq_of_lt
  omega

/-! ## The search for a free name -/

/-- An attempt to create a file that failed. -/
def FileCall.Refused : FileCall → Prop
  | .openExcl _ (.failed _) => True
  | _ => False

lemma ops_refused (entry : CString → ε) {searches : List FileCall}
    (hrefused : ∀ c ∈ searches, c.Refused) : searches.flatMap (FileCall.ops entry) = [] := by
  rw [List.flatMap_eq_nil_iff]
  intro c hc
  have hc' := hrefused c hc
  match c with
  | .openExcl _ (.failed _) => rfl
  | .openExcl _ (.opened _) => exact absurd hc' not_false
  | .filecopy .. => exact absurd hc' not_false
  | .unlink .. => exact absurd hc' not_false

variable [DecidableEq ε]

/-- How a search for a free name with at most `n` attempts ends: with a file created where
there was none, or with no name and nothing changed. -/
inductive Searched (sys : System ε) (w : World ε) (n : ℕ) :
    ℤ × Option HeapString → World ε → Prop
  | noName {searches : List FileCall} {w' : World ε} (hrefused : ∀ c ∈ searches, c.Refused)
      (hattempts : searches.length ≤ n) (hcalls : w'.calls = w.calls ++ searches)
      (hdisk : w'.disk = w.disk) : Searched sys w n (-1, none) w'
  | found {searches : List FileCall} {fd : ℕ} {newname : HeapString} {w' : World ε}
      (hrefused : ∀ c ∈ searches, c.Refused) (hattempts : searches.length < n)
      (hcalls : w'.calls = w.calls ++ searches ++ [.openExcl newname.text (.opened fd)])
      (hfree : w.disk (sys.entry newname.text) = none)
      (hdisk : w'.disk = Function.update w.disk (sys.entry newname.text) (some [])) :
      Searched sys w n (fd, some newname) w'

/-- `O_EXCL`: only where there was no file is one created. -/
lemma openExcl_cases (sys : System ε) (attempt : ℕ) (path : CString) (w : World ε) :
    (∃ fd, openExcl sys attempt path w =
      (.opened fd, w.call sys (.openExcl path (.opened fd))) ∧
        w.disk (sys.entry path) = none) ∨
    ∃ errno, openExcl sys attempt path w =
      (.failed errno, w.call sys (.openExcl path (.failed errno))) := by
  cases hfile : w.disk (sys.entry path) with
  | none =>
    match hanswer : sys.create attempt with
    | .opened fd =>
      left
      exact ⟨fd, by simp only [openExcl, hfile, hanswer], rfl⟩
    | .failed errno =>
      right
      exact ⟨errno, by simp only [openExcl, hfile, hanswer]⟩
  | some d =>
    right
    match hanswer : sys.create attempt with
    | .opened fd => exact ⟨.EEXIST, by simp only [openExcl, hfile, hanswer]⟩
    | .failed errno => exact ⟨errno, by simp only [openExcl, hfile, hanswer]⟩

/-- What a search does depends on the files and the calls made before only. -/
lemma Searched.of_eq {w₁ w : World ε} {n : ℕ} {r : ℤ × Option HeapString} {w' : World ε}
    (h : Searched sys w₁ n r w') (hcalls : w₁.calls = w.calls) (hdisk : w₁.disk = w.disk) :
    Searched sys w n r w' := by
  cases h with
  | noName hrefused hattempts hcalls' hdisk' =>
    rw [hcalls] at hcalls'
    rw [hdisk] at hdisk'
    exact Searched.noName hrefused hattempts hcalls' hdisk'
  | found hrefused hattempts hcalls' hfree hdisk' =>
    rw [hcalls] at hcalls'
    rw [hdisk] at hfree hdisk'
    exact Searched.found hrefused hattempts hcalls' hfree hdisk'

/-- One more failed attempt before a search. -/
lemma Searched.refused {w : World ε} {n size : ℕ} {path text : CString} {errno : Errno}
    {r : ℤ × Option HeapString} {w' : World ε}
    (h : Searched sys ((w.call sys (.openExcl path (.failed errno))).sprintf size text) n r w') :
    Searched sys w (n + 1) r w' := by
  have hmore {searches : List FileCall} (hrefused : ∀ c ∈ searches, c.Refused) :
      ∀ c ∈ FileCall.openExcl path (.failed errno) :: searches, c.Refused := by
    intro c hc
    rcases List.mem_cons.mp hc with rfl | hc
    · exact trivial
    · exact hrefused c hc
  cases h with
  | noName hrefused hattempts hcalls hdisk =>
    apply Searched.noName (hmore hrefused)
    · rw [List.length_cons]
      omega
    · rw [hcalls]
      simp only [World.call, World.sprintf, List.append_assoc, List.cons_append,
        List.nil_append]
    · exact hdisk
  | found hrefused hattempts hcalls hfree hdisk =>
    apply Searched.found (hmore hrefused)
    · rw [List.length_cons]
      omega
    · rw [hcalls]
      simp only [World.call, World.sprintf, List.append_assoc, List.cons_append,
        List.nil_append]
    · exact hfree
    · exact hdisk

/-- **The loop of `getdest`**, from any round on. -/
theorem getdestSearch_spec (actarget filename : CString) (size : ℕ) (tmps newname : Addr)
    (n i : ℕ) (name : CString) (w : World ε) :
    Searched sys w n
      (getdestSearch sys actarget filename size tmps newname n i name w).1
      (getdestSearch sys actarget filename size tmps newname n i name w).2 := by
  induction n generalizing i name w with
  | zero => exact Searched.noName (List.forall_mem_nil _) le_rfl (List.append_nil _).symm rfl
  | succ n ih =>
    rcases openExcl_cases sys i name w with ⟨fd, hopen, hfree⟩ | ⟨errno, hopen⟩
    · simp only [getdestSearch, hopen]
      apply Searched.found (List.forall_mem_nil _) (Nat.succ_pos n)
      · rw [List.append_nil]
        rfl
      · exact hfree
      · rfl
    · cases errno with
      | EEXIST =>
        simp only [getdestSearch, hopen]
        exact Searched.refused (ih _ _ _)
      | other code =>
        simp only [getdestSearch, hopen]
        have hone : ∀ c ∈ [FileCall.openExcl name (.failed (.other code))], c.Refused := by
          intro c hc
          rw [List.mem_singleton] at hc
          rw [hc]
          exact trivial
        exact Searched.noName hone (Nat.succ_le_succ (Nat.zero_le n)) rfl rfl

/-- What is formatted in the search goes to the block of the name. -/
lemma mem_prints_getdestSearch (actarget filename : CString) (size : ℕ) (tmps newname : Addr)
    {n i : ℕ} (hrounds : n + i ≤ 1000) (name : CString) (w : World ε) {p : Print}
    (hp : p ∈ (getdestSearch sys actarget filename size tmps newname n i name w).2.prints) :
    p ∈ w.prints ∨ ∃ j < 1000, p = ⟨size, actarget ++ PATHSEP ++ filename ++ suffix j⟩ := by
  induction n generalizing i name w with
  | zero => exact Or.inl hp
  | succ n ih =>
    rcases openExcl_cases sys i name w with ⟨fd, hopen, -⟩ | ⟨errno, hopen⟩
    · simp only [getdestSearch, hopen] at hp
      exact Or.inl hp
    · cases errno with
      | EEXIST =>
        simp only [getdestSearch, hopen] at hp
        rcases ih (by omega) _ _ hp with hold | hnew
        · rcases List.mem_append.mp hold with hold | hnext
          · exact Or.inl hold
          · exact Or.inr ⟨i, by omega, List.mem_singleton.mp hnext⟩
        · exact Or.inr hnew
      | other code =>
        simp only [getdestSearch, hopen] at hp
        exact Or.inl hp

/-- **`getdest`** makes at most 999 attempts. -/
theorem getdest_spec (sys : System ε) (s : Statics) (fullpath : CString) (w : World ε) :
    Searched sys w 999 (getdest sys s fullpath w).1 (getdest sys s fullpath w).2 := by
  have hnothing {w' : World ε} (hcalls : w'.calls = w.calls) (hdisk : w'.disk = w.disk) :
      Searched sys w 999 (-1, none) w' := by
    apply Searched.noName (List.forall_mem_nil _) (Nat.zero_le _) _ hdisk
    rw [hcalls, List.append_nil]
  cases htmps : sys.strdup fullpath with
  | none =>
    simp only [getdest, htmps]
    exact hnothing rfl rfl
  | some tmps =>
    simp only [getdest, htmps]
    cases hmalloc : sys.malloc ((s.targlen + (sys.basename fullpath).length + 6) %
        2 ^ sys.ptrBits).toNat with
    | none =>
      simp only
      exact hnothing rfl rfl
    | some newname =>
      simp only
      -- neither the new block nor the first name concerns files
      exact (getdestSearch_spec _ _ _ _ _ _ _ _ _).of_eq rfl rfl

/-- What `getdest` formats fits the block that it allocates. -/
lemma fits_getdest (hdoc : sys.Documented) (hs : SetUp sys s) (fullpath : CString)
    (w : World ε) {p : Print} (hp : p ∈ (getdest sys s fullpath w).2.prints) :
    p ∈ w.prints ∨ p.Fits := by
  obtain ⟨actarget, hactarget, hlength, htarglen⟩ := hs.targlen_eq hdoc
  cases htmps : sys.strdup fullpath with
  | none =>
    simp only [getdest, htmps] at hp
    exact Or.inl hp
  | some tmps =>
    have hsize := size_eq hdoc hlength htmps
    simp only [getdest, htmps, htarglen, hsize, hactarget, Option.getD_some] at hp
    cases hmalloc : sys.malloc (actarget.length + (sys.basename fullpath).length + 6) with
    | none =>
      simp only [hmalloc] at hp
      exact Or.inl hp
    | some newname =>
      simp only [hmalloc] at hp
      have hname : (actarget ++ PATHSEP ++ sys.basename fullpath).length =
          actarget.length + (sys.basename fullpath).length + 1 := by
        rw [List.length_append, List.length_append]
        show actarget.length + 1 + _ = _
        omega
      rcases mem_prints_getdestSearch _ _ _ _ _ (by omega) _ _ hp with hfirst | ⟨j, hj, rfl⟩
      · rcases List.mem_append.mp hfirst with hold | hfirst
        · exact Or.inl hold
        · right
          rw [List.mem_singleton] at hfirst
          rw [hfirst, Print.Fits, hname]
          show _ + 1 + 1 ≤ _ + 6
          omega
      · right
        rw [Print.Fits, List.length_append, hname, length_suffix hj]

/-! ## What was done to the files -/

/-- The files are what the calls have made of them. -/
def Traced (sys : System ε) (disk : ε → Option Data) (w : World ε) : Prop :=
  w.disk = FileOp.perform disk (w.calls.flatMap (FileCall.ops sys.entry))

variable {disk : ε → Option Data} {notmoved notremoved : UInt32} {filename : CString}

lemma Traced.call {w : World ε} (h : Traced sys disk w) (c : FileCall) :
    Traced sys disk (w.call sys c) := by
  show FileOp.perform w.disk (c.ops sys.entry) =
    FileOp.perform disk ((w.calls ++ [c]).flatMap (FileCall.ops sys.entry))
  rw [List.flatMap_append, FileOp.perform_append, ← h, List.flatMap_singleton]

lemma Traced.of_searched {n : ℕ} {r : ℤ × Option HeapString} {w : World ε}
    (h : Searched sys (.start disk notmoved notremoved) n r w) : Traced sys disk w := by
  unfold Traced
  cases h with
  | noName hrefused _ hcalls hdisk =>
    rw [World.start, List.nil_append] at hcalls
    rw [hcalls, hdisk, ops_refused sys.entry hrefused]
    rfl
  | found hrefused _ hcalls _ hdisk =>
    rw [World.start, List.nil_append] at hcalls
    rw [hcalls, hdisk, List.flatMap_append, ops_refused sys.entry hrefused]
    rfl

/-! ## The actions -/

/-- How the search for a name and the copy end: whether the file was copied, and the name. -/
inductive CopyTried (sys : System ε) (filename : CString) (disk : ε → Option Data) :
    Bool → Option HeapString → List FileCall → Prop
  | noName {searches : List FileCall} (hrefused : ∀ c ∈ searches, c.Refused)
      (hattempts : searches.length ≤ 999) : CopyTried sys filename disk false none searches
  | tried {searches : List FileCall} {nuname : HeapString} {fd : ℕ} {copied : ℤ}
      {left : Option Data} (hrefused : ∀ c ∈ searches, c.Refused)
      (hattempts : searches.length < 999) (hfree : disk (sys.entry nuname.text) = none) :
      CopyTried sys filename disk (copied == 0) (some nuname)
        (searches ++ [.openExcl nuname.text (.opened fd),
          .filecopy filename nuname.text copied left])

omit [DecidableEq ε] in
/-- A file that was copied. -/
lemma CopyTried.of_copied {nuname : Option HeapString} {calls : List FileCall}
    (h : CopyTried sys filename disk true nuname calls) :
    ∃ searches name fd left, (∀ c ∈ searches, c.Refused) ∧ searches.length < 999 ∧
      disk (sys.entry name) = none ∧
      calls = searches ++ [.openExcl name (.opened fd), .filecopy filename name 0 left] := by
  generalize hok : true = ok at h
  cases h with
  | noName => cases hok
  | @tried searches newname fd copied left hrefused hattempts hfree =>
    have hzero : copied = 0 := beq_iff_eq.mp hok.symm
    rw [hzero]
    exact ⟨searches, newname.text, fd, left, hrefused, hattempts, hfree, rfl⟩

/-- `getdest` and the copy. -/
lemma copyTried_getdest (sys : System ε) (s : Statics) (filename : CString)
    (disk : ε → Option Data) (notmoved notremoved : UInt32) {fd : ℤ}
    {nuname : Option HeapString} {w₁ w₂ : World ε} {ok : Bool}
    (hdest : getdest sys s filename (.start disk notmoved notremoved) = ((fd, nuname), w₁))
    (hcopy : copyTo sys filename fd nuname w₁ = (ok, w₂)) :
    CopyTried sys filename disk ok nuname w₂.calls ∧ Traced sys disk w₂ ∧
      w₂.prints = w₁.prints := by
  have hspec := getdest_spec sys s filename (.start disk notmoved notremoved)
  rw [hdest] at hspec
  have htraced : Traced sys disk w₁ := Traced.of_searched hspec
  cases hspec with
  | noName hrefused hattempts hcalls _ =>
    have hcopy' : (false, w₁) = (ok, w₂) := hcopy
    obtain ⟨rfl, rfl⟩ := Prod.mk.inj hcopy'
    rw [World.start, List.nil_append] at hcalls
    rw [hcalls]
    exact ⟨CopyTried.noName hrefused hattempts, htraced, rfl⟩
  | @found searches f newname _ hrefused hattempts hcalls hfree _ =>
    have hfd : ¬((f : ℤ) < 0) := by omega
    rw [copyTo, if_neg hfd] at hcopy
    obtain ⟨rfl, rfl⟩ := Prod.mk.inj hcopy
    refine ⟨?_, htraced.call _, rfl⟩
    show CopyTried sys filename disk _ _ (w₁.calls ++ [_])
    rw [World.start, List.nil_append] at hcalls
    rw [hcalls, List.append_assoc]
    exact CopyTried.tried hrefused hattempts hfree

/-- The calls that an action on a file makes, in their order: after a copy, `moves` is
followed by the removal of the file. -/
inductive ActionCalls (sys : System ε) (filename : CString) (disk : ε → Option Data)
    (moves : Bool) : List FileCall → Prop
  | noName {searches : List FileCall} (hrefused : ∀ c ∈ searches, c.Refused)
      (hattempts : searches.length ≤ 999) : ActionCalls sys filename disk moves searches
  | failed {searches : List FileCall} {nuname : CString} {fd : ℕ} {copied ret : ℤ}
      {left : Option Data} (hrefused : ∀ c ∈ searches, c.Refused)
      (hattempts : searches.length < 999) (hfree : disk (sys.entry nuname) = none)
      (hcopied : copied ≠ 0) :
      ActionCalls sys filename disk moves (searches ++ [.openExcl nuname (.opened fd),
        .filecopy filename nuname copied left] ++ [.unlink nuname ret])
  | copied {searches : List FileCall} {nuname : CString} {fd : ℕ}
      {left : Option Data} (hrefused : ∀ c ∈ searches, c.Refused)
      (hattempts : searches.length < 999) (hfree : disk (sys.entry nuname) = none)
      (hmoves : moves = false) :
      ActionCalls sys filename disk moves (searches ++ [.openExcl nuname (.opened fd),
        .filecopy filename nuname 0 left])
  | moved {searches : List FileCall} {nuname : CString} {fd : ℕ} {ret : ℤ}
      {left : Option Data} (hrefused : ∀ c ∈ searches, c.Refused)
      (hattempts : searches.length < 999) (hfree : disk (sys.entry nuname) = none)
      (hmoves : moves = true) :
      ActionCalls sys filename disk moves (searches ++ [.openExcl nuname (.opened fd),
        .filecopy filename nuname 0 left] ++ [.unlink filename ret])

/-- What an action has done: the calls, what they did to the files, and what it formatted. -/
structure Acted (sys : System ε) (filename : CString) (disk : ε → Option Data) (moves : Bool)
    (w : World ε) : Prop where
  calls : ActionCalls sys filename disk moves w.calls
  traced : Traced sys disk w
  prints : ∀ p ∈ w.prints, p.Fits

/-- The log, the counters and the resources concern no files. -/
lemma Acted.of_eq {moves : Bool} {w₁ w : World ε} (h : Acted sys filename disk moves w₁)
    (hcalls : w.calls = w₁.calls) (hdisk : w.disk = w₁.disk) (hprints : w.prints = w₁.prints) :
    Acted sys filename disk moves w where
  calls := by
    rw [hcalls]
    exact h.calls
  traced := by
    rw [Traced, hcalls, hdisk]
    exact h.traced
  prints := by
    rw [hprints]
    exact h.prints

omit [DecidableEq ε] in
lemma cleanup_calls (fd : ℤ) (nuname : Option HeapString) (w : World ε) :
    (cleanup fd nuname w).calls = w.calls := by
  cases nuname <;> unfold cleanup <;> split <;> rfl

omit [DecidableEq ε] in
lemma cleanup_disk (fd : ℤ) (nuname : Option HeapString) (w : World ε) :
    (cleanup fd nuname w).disk = w.disk := by
  cases nuname <;> unfold cleanup <;> split <;> rfl

omit [DecidableEq ε] in
lemma cleanup_prints (fd : ℤ) (nuname : Option HeapString) (w : World ε) :
    (cleanup fd nuname w).prints = w.prints := by
  cases nuname <;> unfold cleanup <;> split <;> rfl

lemma Acted.cleanup {moves : Bool} {w : World ε} (h : Acted sys filename disk moves w) (fd : ℤ)
    (nuname : Option HeapString) : Acted sys filename disk moves (cleanup fd nuname w) :=
  h.of_eq (cleanup_calls fd nuname w) (cleanup_disk fd nuname w) (cleanup_prints fd nuname w)

/-- The branch of an action in which the file was not copied. -/
lemma acted_unlinkDest {moves : Bool} {nuname : Option HeapString} {w : World ε}
    (htried : CopyTried sys filename disk false nuname w.calls) (htraced : Traced sys disk w)
    (hprints : ∀ p ∈ w.prints, p.Fits) :
    Acted sys filename disk moves (unlinkDest sys nuname w) := by
  generalize hcalls : w.calls = calls at htried
  generalize hok : false = ok at htried
  cases htried with
  | noName hrefused hattempts =>
    refine ⟨?_, htraced, hprints⟩
    show ActionCalls sys filename disk moves w.calls
    rw [hcalls]
    exact ActionCalls.noName hrefused hattempts
  | @tried searches newname fd copied left hrefused hattempts hfree =>
    refine ⟨?_, htraced.call _, hprints⟩
    show ActionCalls sys filename disk moves (w.calls ++ [_])
    rw [hcalls]
    exact ActionCalls.failed hrefused hattempts hfree (beq_eq_false_iff_ne.mp hok.symm)

/-- What an action formats fits its block. -/
lemma fits_copyTo (hdoc : sys.Documented) (hs : SetUp sys s) {fd : ℤ}
    {nuname : Option HeapString} {w₁ w₂ : World ε}
    (hdest : getdest sys s filename (.start disk notmoved notremoved) = ((fd, nuname), w₁))
    (hsame : w₂.prints = w₁.prints) : ∀ p ∈ w₂.prints, p.Fits := by
  intro p hp
  have hp' : p ∈ (getdest sys s filename (.start disk notmoved notremoved)).2.prints := by
    rw [hdest, ← hsame]
    exact hp
  rcases fits_getdest hdoc hs filename _ hp' with hold | hfits
  · exact absurd hold List.not_mem_nil
  · exact hfits

/-- `action_move` -/
theorem acted_action_move (hdoc : sys.Documented) (hs : SetUp sys s)
    {source : Option ActionSource} (hfile : action_source_filename source = some filename) :
    Acted sys filename disk true
      (action_move sys s source (.start disk notmoved notremoved)) := by
  rw [action_move, hfile]
  rcases hdest : getdest sys s filename (.start disk notmoved notremoved) with
    ⟨⟨fd, nuname⟩, w₁⟩
  rcases hcopy : copyTo sys filename fd nuname w₁ with ⟨ok, w₂⟩
  obtain ⟨htried, htraced, hsame⟩ := copyTried_getdest sys s filename disk _ _ hdest hcopy
  have hprints := fits_copyTo hdoc hs hdest hsame
  simp only [hdest, hcopy]
  cases ok with
  | false =>
    apply Acted.cleanup
    exact acted_unlinkDest htried htraced hprints
  | true =>
    apply Acted.cleanup
    have hacted : Acted sys filename disk true (traverse_unlink sys filename w₂).2 := by
      obtain ⟨searches, name, f, left, hrefused, hattempts, hfree, hcalls⟩ := htried.of_copied
      refine ⟨?_, htraced.call _, hprints⟩
      show ActionCalls sys filename disk true (w₂.calls ++ [_])
      rw [hcalls]
      exact ActionCalls.moved hrefused hattempts hfree rfl
    split
    · exact hacted.of_eq rfl rfl rfl
    · exact hacted.of_eq rfl rfl rfl

/-- `action_copy` -/
theorem acted_action_copy (hdoc : sys.Documented) (hs : SetUp sys s)
    {source : Option ActionSource} (hfile : action_source_filename source = some filename) :
    Acted sys filename disk false
      (action_copy sys s source (.start disk notmoved notremoved)) := by
  rw [action_copy, hfile]
  rcases hdest : getdest sys s filename (.start disk notmoved notremoved) with
    ⟨⟨fd, nuname⟩, w₁⟩
  rcases hcopy : copyTo sys filename fd nuname w₁ with ⟨ok, w₂⟩
  obtain ⟨htried, htraced, hsame⟩ := copyTried_getdest sys s filename disk _ _ hdest hcopy
  have hprints := fits_copyTo hdoc hs hdest hsame
  simp only [hdest, hcopy]
  cases ok with
  | false =>
    apply Acted.cleanup
    exact acted_unlinkDest htried htraced hprints
  | true =>
    apply Acted.cleanup
    obtain ⟨searches, name, f, left, hrefused, hattempts, hfree, hcalls⟩ := htried.of_copied
    refine ⟨?_, htraced, hprints⟩
    show ActionCalls sys filename disk false w₂.calls
    rw [hcalls]
    exact ActionCalls.copied hrefused hattempts hfree rfl

/-! ## Files are kept -/

/-- The entry of the file that an action is about. -/
def sourceEntries (sys : System ε) (source : Option ActionSource) : List ε :=
  (action_source_filename source).toList.map sys.entry

def FileCall.isAttempt : FileCall → Bool
  | .openExcl .. => true
  | _ => false

/-- A call that removes a file. -/
def FileCall.IsUnlink : FileCall → Prop
  | .unlink .. => True
  | _ => False

/-- What is promised of an action, whose own files are at the entries `own`. -/
structure KeepsFiles (sys : System ε) (source : Option ActionSource) (own : List ε)
    (disk : ε → Option Data) (w : World ε) : Prop where
  /-- A file that existed before and is not the action's own is as it was. -/
  kept : ∀ e, disk e ≠ none → e ∉ own → w.disk e = disk e
  /-- The source is kept too, until it was copied to a file that the action created. -/
  source_kept : ∀ filename, action_source_filename source = some filename →
    disk (sys.entry filename) ≠ none → w.disk (sys.entry filename) = disk (sys.entry filename) ∨
      ∃ searches nuname fd left, disk (sys.entry nuname) = none ∧
        w.disk (sys.entry filename) = none ∧
        w.calls = searches ++ [.openExcl nuname (.opened fd), .filecopy filename nuname 0 left] ++
          [.unlink filename 0]
  /-- Nothing is written past the block of the name. -/
  fits : ∀ p ∈ w.prints, p.Fits
  /-- At most 999 names are tried. -/
  attempts : w.calls.countP FileCall.isAttempt ≤ 999
  /-- What is removed is the file that the action created, if it was not copied, and the
  source once it was copied to a file that the action created. -/
  removes : ∀ before path ret after, w.calls = before ++ .unlink path ret :: after →
    ∃ searches filename nuname fd copied left,
      action_source_filename source = some filename ∧ disk (sys.entry nuname) = none ∧
      before = searches ++ [.openExcl nuname (.opened fd),
        .filecopy filename nuname copied left] ∧
      path = if copied = 0 then filename else nuname

/-- The only `unlink` is the last call. -/
lemma eq_of_append_unlink {init before after : List FileCall} {path path' : CString}
    {ret ret' : ℤ} (hinit : ∀ c ∈ init, ¬c.IsUnlink)
    (h : init ++ [.unlink path' ret'] = before ++ .unlink path ret :: after) :
    before = init ∧ path = path' := by
  rcases List.append_eq_append_iff.mp h with ⟨mid, hbefore, hlast⟩ | ⟨mid, hbefore, hrest⟩
  · cases mid with
    | nil =>
      rw [List.nil_append, List.cons.injEq] at hlast
      injection hlast.1 with hpath hret
      exact ⟨hbefore.trans (List.append_nil _), hpath.symm⟩
    | cons c cs =>
      have hlength := congrArg List.length hlast
      simp only [List.length_cons, List.length_append, List.length_nil] at hlength
      omega
  · cases mid with
    | nil =>
      rw [List.nil_append, List.cons.injEq] at hrest
      injection hrest.1 with hpath hret
      exact ⟨(hbefore.trans (List.append_nil _)).symm, hpath⟩
    | cons c cs =>
      rw [List.cons_append, List.cons.injEq] at hrest
      have hmem : c ∈ init := by
        rw [hbefore]
        exact List.mem_append_right _ List.mem_cons_self
      rw [← hrest.1] at hmem
      exact absurd trivial (hinit _ hmem)

/-- An attempt to create a file that was refused is no other call. -/
lemma FileCall.Refused.not_isUnlink {c : FileCall} (hc : c.Refused) : ¬c.IsUnlink := by
  match c with
  | .openExcl .. => exact not_false
  | .filecopy .. => exact absurd hc not_false
  | .unlink .. => exact absurd hc not_false

/-- Up to the copy nothing is removed. -/
lemma not_isUnlink_of_copy {searches : List FileCall} {name : CString} {fd : ℕ} {copied : ℤ}
    {left : Option Data} (hrefused : ∀ c ∈ searches, c.Refused) :
    ∀ c ∈ searches ++ [.openExcl name (.opened fd), .filecopy filename name copied left],
      ¬c.IsUnlink := by
  intro c hc
  rcases List.mem_append.mp hc with hc | hc
  · exact (hrefused c hc).not_isUnlink
  · simp only [List.mem_cons, List.not_mem_nil, or_false] at hc
    rcases hc with rfl | rfl
    · exact not_false
    · exact not_false

omit [DecidableEq ε] in
/-- The search makes at most 999 attempts, and there is one more call that is none. -/
lemma ActionCalls.attempts_le {moves : Bool} {calls : List FileCall}
    (h : ActionCalls sys filename disk moves calls) :
    calls.countP FileCall.isAttempt ≤ 999 := by
  have hsearches (searches : List FileCall) :
      searches.countP FileCall.isAttempt ≤ searches.length := List.countP_le_length
  cases h with
  | noName _ hattempts => exact (hsearches calls).trans hattempts
  | @failed searches name fd copied ret left _ hattempts =>
    have hle := hsearches searches
    rw [List.countP_append, List.countP_append]
    show searches.countP _ + 1 + 0 ≤ 999
    omega
  | @copied searches name fd left _ hattempts =>
    have hle := hsearches searches
    rw [List.countP_append]
    show searches.countP _ + 1 ≤ 999
    omega
  | @moved searches name fd ret left _ hattempts =>
    have hle := hsearches searches
    rw [List.countP_append, List.countP_append]
    show searches.countP _ + 1 + 0 ≤ 999
    omega

/-- The calls up to the copy touch only the file that was created. -/
lemma ownFiles_copy {searches : List FileCall} {name : CString} {fd : ℕ} {copied : ℤ}
    {left : Option Data} (own : List ε) (hrefused : ∀ c ∈ searches, c.Refused)
    (hfree : disk (sys.entry name) = none) {rest : List FileCall}
    (hrest : ∀ files, FileOp.OwnFiles files (sys.entry name :: own)
      (rest.flatMap (FileCall.ops sys.entry))) :
    FileOp.OwnFiles disk own ((searches ++ [FileCall.openExcl name (.opened fd),
      .filecopy filename name copied left] ++ rest).flatMap (FileCall.ops sys.entry)) := by
  rw [List.flatMap_append, List.flatMap_append, ops_refused sys.entry hrefused,
    FileOp.ownFiles_append]
  refine ⟨⟨hfree, List.mem_cons_self, trivial⟩, ?_⟩
  exact hrest _

/-- Removing one of the own files. -/
lemma ownFiles_unlink {own : List ε} {path : CString} (hpath : sys.entry path ∈ own) (ret : ℤ)
    (files : ε → Option Data) :
    FileOp.OwnFiles files own
      ([FileCall.unlink path ret].flatMap (FileCall.ops sys.entry)) := by
  rw [List.flatMap_singleton, FileCall.ops]
  by_cases hret : ret = 0
  · rw [if_pos hret]
    exact ⟨hpath, trivial⟩
  · rw [if_neg hret]
    exact trivial

/-- The action touches its own files and the one that it creates. -/
lemma ActionCalls.ownFiles {moves : Bool} {calls : List FileCall} {own : List ε}
    (h : ActionCalls sys filename disk moves calls)
    (hown : moves = true → sys.entry filename ∈ own) :
    FileOp.OwnFiles disk own (calls.flatMap (FileCall.ops sys.entry)) := by
  cases h with
  | noName hrefused =>
    rw [ops_refused sys.entry hrefused]
    exact trivial
  | failed hrefused _ hfree =>
    apply ownFiles_copy own hrefused hfree
    exact ownFiles_unlink List.mem_cons_self _
  | @copied searches name fd left hrefused _ hfree =>
    rw [← List.append_nil (searches ++ _)]
    exact ownFiles_copy own hrefused hfree fun _ => trivial
  | moved hrefused _ hfree hmoves =>
    apply ownFiles_copy own hrefused hfree
    exact ownFiles_unlink (List.mem_cons_of_mem _ (hown hmoves)) _

omit [DecidableEq ε] in
/-- An action that removes no source, or what a move has done that succeeded. -/
lemma ActionCalls.moved_or {moves : Bool} {calls : List FileCall}
    (h : ActionCalls sys filename disk moves calls) :
    ActionCalls sys filename disk false calls ∨
      ∃ searches name fd left ret, (∀ c ∈ searches, c.Refused) ∧ disk (sys.entry name) = none ∧
        calls = searches ++ [.openExcl name (.opened fd), .filecopy filename name 0 left] ++
          [.unlink filename ret] := by
  cases h with
  | noName hrefused hattempts => exact Or.inl (ActionCalls.noName hrefused hattempts)
  | failed hrefused hattempts hfree hcopied =>
    exact Or.inl (ActionCalls.failed hrefused hattempts hfree hcopied)
  | copied hrefused hattempts hfree =>
    exact Or.inl (ActionCalls.copied hrefused hattempts hfree rfl)
  | moved hrefused _ hfree => exact Or.inr ⟨_, _, _, _, _, hrefused, hfree, rfl⟩

/-- The source of an action. -/
lemma Acted.source_kept {moves : Bool} {w : World ε} (h : Acted sys filename disk moves w)
    (he : disk (sys.entry filename) ≠ none) :
    w.disk (sys.entry filename) = disk (sys.entry filename) ∨
      ∃ searches nuname fd left, disk (sys.entry nuname) = none ∧
        w.disk (sys.entry filename) = none ∧
        w.calls = searches ++ [.openExcl nuname (.opened fd), .filecopy filename nuname 0 left] ++
          [.unlink filename 0] := by
  rw [h.traced]
  rcases h.calls.moved_or with hcopy | ⟨searches, name, fd, left, ret, hrefused, hfree, hcalls⟩
  · left
    apply FileOp.perform_of_ownFiles (hcopy.ownFiles (absurd · Bool.false_ne_true)) he
    exact List.not_mem_nil
  · have hcopied : FileOp.perform disk
        ((searches ++ [FileCall.openExcl name (.opened fd), .filecopy filename name 0 left]).flatMap
          (FileCall.ops sys.entry)) (sys.entry filename) = disk (sys.entry filename) := by
      apply FileOp.perform_of_ownFiles _ he List.not_mem_nil
      rw [← List.append_nil (searches ++ _)]
      exact ownFiles_copy [] hrefused hfree fun _ => trivial
    rw [hcalls, List.flatMap_append, FileOp.perform_append, List.flatMap_singleton, FileCall.ops]
    by_cases hret : ret = 0
    · right
      refine ⟨searches, name, fd, left, hfree, ?_, ?_⟩
      · rw [if_pos hret]
        exact Function.update_self _ _ _
      · rw [hret]
    · left
      rw [if_neg hret]
      exact hcopied

/-- What an action has done keeps the files. -/
lemma Acted.keepsFiles {moves : Bool} {source : Option ActionSource} {own : List ε}
    {w : World ε} (h : Acted sys filename disk moves w)
    (hfile : action_source_filename source = some filename)
    (hown : moves = true → sys.entry filename ∈ own) : KeepsFiles sys source own disk w where
  kept := by
    intro e he hnot
    rw [h.traced]
    exact FileOp.perform_of_ownFiles (h.calls.ownFiles hown) he hnot
  source_kept := by
    intro filename' hfile' he
    obtain rfl : filename = filename' := Option.some.inj (hfile.symm.trans hfile')
    exact h.source_kept he
  fits := h.prints
  attempts := h.calls.attempts_le
  removes := by
    intro before path ret after hsplit
    have hcalls := h.calls
    rw [hsplit] at hcalls
    generalize hall : before ++ .unlink path ret :: after = calls at hcalls
    have hmem : FileCall.unlink path ret ∈ calls := by
      rw [← hall]
      exact List.mem_append_right _ List.mem_cons_self
    cases hcalls with
    | noName hrefused => exact absurd trivial (hrefused _ hmem).not_isUnlink
    | copied hrefused => exact absurd trivial (not_isUnlink_of_copy hrefused _ hmem)
    | @failed searches name fd copied ret' left hrefused _ hfree hcopied =>
      obtain ⟨hbefore, hpath⟩ := eq_of_append_unlink (not_isUnlink_of_copy hrefused) hall.symm
      refine ⟨searches, filename, name, fd, copied, left, hfile, hfree, hbefore, ?_⟩
      rw [if_neg hcopied]
      exact hpath
    | @moved searches name fd ret' left hrefused _ hfree =>
      obtain ⟨hbefore, hpath⟩ := eq_of_append_unlink (not_isUnlink_of_copy hrefused) hall.symm
      refine ⟨searches, filename, name, fd, 0, left, hfile, hfree, hbefore, ?_⟩
      rw [if_pos rfl]
      exact hpath

omit [DecidableEq ε] in
/-- Without a file name an action does nothing to files. -/
lemma keepsFiles_of_nothing {source : Option ActionSource} {own : List ε} {w : World ε}
    (hcalls : w.calls = []) (hdisk : w.disk = disk) (hprints : w.prints = []) :
    KeepsFiles sys source own disk w where
  kept := by
    intro e _ _
    rw [hdisk]
  source_kept := by
    intro filename _ _
    rw [hdisk]
    exact Or.inl rfl
  fits := by
    intro p hp
    rw [hprints] at hp
    exact absurd hp List.not_mem_nil
  attempts := by
    rw [hcalls]
    exact Nat.zero_le _
  removes := by
    intro before path ret after hsplit
    rw [hcalls] at hsplit
    exact absurd hsplit.symm (List.append_ne_nil_of_right_ne_nil _ (List.cons_ne_nil _ _))

/-- **Quarantine never destroys data.** Whatever is answered to the calls of an action:
`action_copy` leaves every file that existed as it was, and `action_move` every file but the
source, which it removes only after `filecopy` reported success into a file that was created
exclusively. -/
theorem quarantine_keeps_files (hdoc : sys.Documented) (hs : SetUp sys s)
    (source : Option ActionSource) (disk : ε → Option Data) (notmoved notremoved : UInt32) :
    KeepsFiles sys source (sourceEntries sys source) disk
      (action_move sys s source (.start disk notmoved notremoved)) ∧
    KeepsFiles sys source [] disk
      (action_copy sys s source (.start disk notmoved notremoved)) ∧
    ∀ (fullpath : CString) (w : World ε),
      Searched sys w 999 (getdest sys s fullpath w).1 (getdest sys s fullpath w).2 := by
  refine ⟨?_, ?_, getdest_spec sys s⟩
  · cases hfile : action_source_filename source with
    | none =>
      rw [action_move, hfile]
      exact keepsFiles_of_nothing rfl rfl rfl
    | some filename =>
      apply (acted_action_move hdoc hs hfile).keepsFiles hfile
      intro _
      rw [sourceEntries, hfile]
      exact List.mem_singleton.mpr rfl
  · cases hfile : action_source_filename source with
    | none =>
      rw [action_copy, hfile]
      exact keepsFiles_of_nothing rfl rfl rfl
    | some filename =>
      exact (acted_action_copy hdoc hs hfile).keepsFiles hfile (absurd · Bool.false_ne_true)

/-- A system with the directory `q`, in which every call succeeds. -/
def sampleSystem : System CString where
  ptrBits := 64
  entry := id
  basename := fun path => (path.reverse.takeWhile fun c => c != 92 && c != 47).reverse
  stat := fun path => if path = [113] then some true else none
  strdup := fun path => if path.length + 1 + 2 ^ 16 ≤ 2 ^ 64 then some 4096 else none
  malloc := fun _ => some 8192
  create := fun _ => .opened 3
  filecopy := (0, some [1, 2])
  traverse_unlink := 0

lemma documented_sampleSystem : sampleSystem.Documented where
  ptrBits := by decide
  stat_length := by
    intro path dir hstat
    by_cases hpath : path = [113]
    · rw [hpath]
      decide
    · simp only [sampleSystem, if_neg hpath] at hstat
      cases hstat
  basename_length := by
    intro path
    show (path.reverse.takeWhile _).reverse.length ≤ max 1 path.length
    have hle := (path.reverse.takeWhile_prefix fun c => c != 92 && c != 47).length_le
    rw [List.length_reverse] at hle ⊢
    omega
  strdup_length := by
    intro path block hstrdup
    by_cases hpath : path.length + 1 + 2 ^ 16 ≤ 2 ^ 64
    · exact hpath
    · simp only [sampleSystem, if_neg hpath] at hstrdup
      cases hstrdup

/-- `actsetup` with `--move=q`. -/
def sampleStatics : Statics := ⟨some .action_move, some [113], 1⟩

lemma setUp_sampleSystem : SetUp sampleSystem sampleStatics :=
  ⟨⟨some [113], none, false⟩, [], rfl, by decide⟩

/-- The files `a` and `q\a`. -/
def sampleDisk : CString → Option Data
  | [97] => some [1, 2]
  | [113, 92, 97] => some [7]
  | _ => none

/-- The source `a`. -/
def sampleSource : ActionSource :=
  { action_source_init with display_path := some ⟨1024, [97]⟩ }

/-- The file `a` is moved to `q\a.001`. -/
theorem quarantine_keeps_files_sample :
    KeepsFiles sampleSystem (some sampleSource) [[97]] sampleDisk
        (action_move sampleSystem sampleStatics (some sampleSource) (.start sampleDisk 0 0)) ∧
      (action_move sampleSystem sampleStatics (some sampleSource) (.start sampleDisk 0 0)).disk
        [113, 92, 97, 46, 48, 48, 49] = some [1, 2] :=
  ⟨(quarantine_keeps_files documented_sampleSystem setUp_sampleSystem (some sampleSource)
    sampleDisk 0 0).1, by decide +kernel⟩

end Actions
end ClamavWin32
