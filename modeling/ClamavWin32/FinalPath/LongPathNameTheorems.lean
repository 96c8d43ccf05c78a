import ClamavWin32.FinalPath.LongPathName
import Mathlib.Data.List.TakeWhile

/-!
# The long path is computed

* `isLongName_U_eq_false`: what `IsLongName_U` lets pass has the form 8.3;
* `findLFNorSFN_U_none`, `findLFNorSFN_U_some`: the component that is found is the next one that
  the long path replaces;
* `longPathRun_spec`: the loop counts the long path, and stores it as far as it fits;
* `computesLongPath`: what the caller gets.
-/

namespace ClamavWin32
namespace FinalPath

/-! ## Names of the form 8.3 -/

/-- Behind a dot the loop looks for another one. -/
lemma isLongNameLoop_extension {rest : WString} {i : ℕ} :
    isLongNameLoop rest i true = false ↔ 46 ∉ rest := by
  induction rest generalizing i with
  | nil => simp [isLongNameLoop]
  | cons c rest ih =>
    rw [isLongNameLoop, List.mem_cons, not_or]
    by_cases hdot : c = 46
    · rw [if_pos ⟨hdot, Or.inl rfl⟩]
      exact iff_of_false (by decide) fun h => h.1 hdot.symm
    · rw [if_neg fun h => hdot h.1]
      simp only [Bool.true_or, Bool.not_true, Bool.false_eq_true, and_false, if_false]
      rw [ih]
      exact (and_iff_right fun h => hdot h.symm).symm

/-- Before the first dot it counts the characters. -/
lemma isLongNameLoop_base {rest : WString} {i : ℕ} (hi : i ≤ 8) :
    isLongNameLoop rest i false = false ↔
      (rest.takeWhile (· ≠ 46)).length + i ≤ 8 ∧ (rest.dropWhile (· ≠ 46)).length ≤ 4 ∧
        46 ∉ (rest.dropWhile (· ≠ 46)).tail := by
  induction rest generalizing i with
  | nil => simpa [isLongNameLoop] using hi
  | cons c rest ih =>
    rw [isLongNameLoop]
    by_cases hdot : c = 46
    · rw [List.takeWhile_cons_of_neg (by simpa using hdot),
        List.dropWhile_cons_of_neg (by simpa using hdot), List.length_cons, List.tail_cons]
      by_cases hlong : rest.length > 3
      · rw [if_pos ⟨hdot, Or.inr hlong⟩]
        exact iff_of_false (by decide) fun h => absurd h.2.1 (by omega)
      · rw [if_neg (by simp [hlong])]
        simp only [hdot, BEq.rfl, Bool.or_true, Bool.not_true, Bool.false_eq_true, and_false,
          if_false]
        rw [isLongNameLoop_extension]
        have hlength : rest.length + 1 ≤ 4 := by omega
        have hbase : ([] : WString).length + i ≤ 8 := by
          rw [List.length_nil]
          omega
        exact ⟨fun h => ⟨hbase, hlength, h⟩, fun h => h.2.2⟩
    · rw [List.takeWhile_cons_of_pos (by simpa using hdot),
        List.dropWhile_cons_of_pos (by simpa using hdot), List.length_cons,
        if_neg fun h => hdot h.1]
      have hbeq : (c == 46) = false := beq_eq_false_iff_ne.mpr hdot
      simp only [hbeq, Bool.or_false, Bool.not_false, and_true]
      by_cases hlast : 8 ≤ i
      · rw [if_pos hlast]
        exact iff_of_false (by decide) fun h => absurd h.1 (by omega)
      · rw [if_neg hlast, ih (by omega), Nat.add_assoc, Nat.add_comm 1 i]

/-- **Short names.** What is not a long name has the form 8.3. -/
lemma isLongName_U_eq_false {name : WString} : isLongName_U name = false ↔ IsShortName name := by
  have hsplit : (name.takeWhile (· ≠ 46)).length + (name.dropWhile (· ≠ 46)).length =
      name.length := by
    rw [← List.length_append, List.takeWhile_append_dropWhile]
  have hbase : (name.takeWhile (· ≠ 46)).length = 0 ↔ name.length = 0 ∨ charAt name 0 = 46 := by
    cases name with
    | nil => simp
    | cons c rest => by_cases hdot : c = 46 <;> simp [charAt, hdot]
  rw [isLongName_U, IsShortName]
  by_cases hlong : name.length = 0 ∨ 12 < name.length ∨ charAt name 0 = 46
  · rw [if_pos hlong]
    apply iff_of_false (by decide)
    rintro ⟨hpos, height, hextension, -⟩
    rcases hlong with hempty | hlarge | hdot
    · omega
    · omega
    · rw [hbase.mpr (Or.inr hdot)] at hpos
      omega
  · rw [if_neg hlong, isLongNameLoop_base (Nat.zero_le 8), Nat.add_zero]
    have hpos : 1 ≤ (name.takeWhile (· ≠ 46)).length := by
      by_contra hzero
      have hempty := hbase.mp (by omega)
      exact hlong (hempty.imp_right Or.inr)
    exact (and_iff_right hpos).symm

/-! ## The long path, piece by piece -/

/-- A component ends where the next separator is. -/
lemma takeWhile_component {component after : WString}
    (hcomponent : ∀ c ∈ component, isSeparator c = false)
    (hafter : ∀ c ∈ after.head?, isSeparator c = true) :
    (component ++ after).takeWhile (fun c => !isSeparator c) = component := by
  rw [List.takeWhile_append_of_pos (by simpa using hcomponent)]
  cases after with
  | nil => rw [List.takeWhile_nil, List.append_nil]
  | cons c after => rw [List.takeWhile_cons_of_neg (by simp [hafter c rfl]), List.append_nil]

/-- What is put in front of what is put in front. -/
lemma map_map_append (result : Except ErrorCode WString) (a b : WString) :
    (result.map (b ++ ·)).map (a ++ ·) = result.map (a ++ b ++ ·) := by
  cases result with
  | error e => rfl
  | ok s =>
    show Except.ok (a ++ (b ++ s)) = Except.ok (a ++ b ++ s)
    rw [List.append_assoc]

/-- What is put in front of a component and the rest. -/
lemma map_bind_append (name later : Except ErrorCode WString) (a b : WString) :
    (name.bind fun n => later.map (b ++ n ++ ·)).map (a ++ ·) =
      name.bind fun n => later.map (a ++ b ++ n ++ ·) := by
  cases name with
  | error e => rfl
  | ok n =>
    show (later.map (b ++ n ++ ·)).map (a ++ ·) = later.map (a ++ b ++ n ++ ·)
    rw [map_map_append, List.append_assoc a b n]

section LongForm

variable {find : WString → Except ErrorCode WString} {before rest : WString}

lemma longForm_nil : longForm find before [] = .ok [] := by
  rw [longForm]

/-- Separators stay. -/
lemma longForm_separators {separators : WString} (hs : ∀ c ∈ separators, isSeparator c = true) :
    longForm find before (separators ++ rest) =
      (longForm find (before ++ separators) rest).map (separators ++ ·) := by
  induction separators generalizing before with
  | nil =>
    rw [List.append_nil, List.nil_append]
    cases longForm find before rest with
    | error e => rfl
    | ok long => rfl
  | cons c separators ih =>
    obtain ⟨hc, hseparators⟩ := List.forall_mem_cons.mp hs
    rw [List.cons_append, longForm, if_pos hc, ih hseparators, List.append_assoc,
      List.singleton_append]
    exact map_map_append _ [c] separators

/-- A component gets its long name. -/
lemma longForm_component {component after : WString} (hne : component ≠ [])
    (hcomponent : ∀ c ∈ component, isSeparator c = false)
    (hafter : ∀ c ∈ after.head?, isSeparator c = true) :
    longForm find before (component ++ after) =
      (longName find before component).bind fun name =>
        (longForm find (before ++ component) after).map (name ++ ·) := by
  cases component with
  | nil => exact absurd rfl hne
  | cons c component =>
    obtain ⟨hc, hrest⟩ := List.forall_mem_cons.mp hcomponent
    have htake := takeWhile_component hrest hafter
    have hdrop : (component ++ after).dropWhile (fun c => !isSeparator c) = after := by
      rw [List.dropWhile_append_of_pos (by simpa using hrest)]
      cases after with
      | nil => rfl
      | cons c after => rw [List.dropWhile_cons_of_neg (by simp [hafter c rfl])]
    rw [List.cons_append, longForm, if_neg (by rw [hc]; decide)]
    simp only [htake, hdrop]
    cases longName find before (c :: component) with
    | error e => rfl
    | ok name => rfl

/-- A long name stays. -/
lemma longName_of_long {component : WString} (h : isLongName_U component = true) :
    longName find before component = .ok component := by
  rw [longName, if_neg]
  intro hshort
  rw [isLongName_U_eq_false.mpr hshort] at h
  cases h

end LongForm

/-! ## The component that is found -/

/-- The first component behind the separators at the start of a path. -/
structure Splits (path separators component after : WString) : Prop where
  eq_append : path = separators ++ component ++ after
  separators : ∀ c ∈ separators, isSeparator c = true
  component_ne_nil : component ≠ []
  component : ∀ c ∈ component, isSeparator c = false
  after : ∀ c ∈ after.head?, isSeparator c = true

/-- A path has a component unless it is made of separators. -/
lemma exists_splits (path : WString) :
    (∀ c ∈ path, isSeparator c = true) ∨
      ∃ separators component after, Splits path separators component after := by
  have hpath := List.takeWhile_append_dropWhile (p := isSeparator) (l := path)
  have hseparators (c : UInt16) (hc : c ∈ path.takeWhile isSeparator) : isSeparator c = true :=
    List.mem_takeWhile_imp hc
  have hfirst := List.head?_dropWhile_not isSeparator path
  match hrest : path.dropWhile isSeparator with
  | [] =>
    left
    rw [hrest, List.append_nil] at hpath
    rwa [hpath] at hseparators
  | c :: rest =>
    right
    rw [hrest] at hpath hfirst
    have hc : isSeparator c = false := hfirst
    have hsplit := List.takeWhile_append_dropWhile (p := fun c => !isSeparator c) (l := rest)
    have hafter := List.head?_dropWhile_not (fun c => !isSeparator c) rest
    refine ⟨path.takeWhile isSeparator, c :: rest.takeWhile fun c => !isSeparator c,
      rest.dropWhile fun c => !isSeparator c, ?_, hseparators, List.cons_ne_nil _ _, ?_, ?_⟩
    · rw [List.append_assoc, List.cons_append, hsplit, hpath]
    · intro d hd
      rcases List.mem_cons.mp hd with rfl | hd
      · exact hc
      · simpa using List.mem_takeWhile_imp hd
    · intro d hd
      rw [Option.mem_def.mp hd] at hafter
      simpa using hafter

/-- There is nothing to find among separators. -/
lemma findLFNorSFN_U_of_separators {path : WString} (h : ∀ c ∈ path, isSeparator c = true)
    (offset : ℕ) : findLFNorSFN_U offset path = none := by
  have hall : path.takeWhile isSeparator = path := List.takeWhile_eq_self_iff.mpr h
  rw [findLFNorSFN_U]
  simp only [hall, List.drop_length, List.length_nil, if_true]

/-- What is found is the first component, or else lies behind the separator after it. -/
lemma findLFNorSFN_U_of_splits {path separators component after : WString}
    (h : Splits path separators component after) (offset : ℕ) :
    findLFNorSFN_U offset path =
      if !isLongName_U component then
        some (offset + separators.length, offset + separators.length + component.length)
      else if after = [] then none
      else findLFNorSFN_U (offset + separators.length + component.length + 1) after.tail := by
  obtain ⟨heq, hseparators, hne, hcomponent, hafter⟩ := h
  cases component with
  | nil => exact absurd rfl hne
  | cons c component =>
    obtain ⟨hc, hrest⟩ := List.forall_mem_cons.mp hcomponent
    have hlead : path.takeWhile isSeparator = separators := by
      rw [heq, List.append_assoc, List.takeWhile_append_of_pos hseparators, List.cons_append,
        List.takeWhile_cons_of_neg (by simp [hc]), List.append_nil]
    have hdrop : path.drop separators.length = c :: (component ++ after) := by
      rw [heq, List.append_assoc, List.drop_left, List.cons_append]
    have htake := takeWhile_component hrest hafter
    have hname : (c :: (component ++ after)).take (1 + component.length) = c :: component := by
      rw [Nat.add_comm, List.take_succ_cons, List.take_left]
    have hmore : (c :: (component ++ after)).drop (1 + component.length + 1) = after.tail := by
      rw [Nat.add_comm 1, List.drop_succ_cons, ← List.drop_drop, List.drop_left, List.drop_one]
    have hend : (c :: (component ++ after)).length ≤ 1 + component.length ↔ after = [] := by
      rw [← List.length_eq_zero_iff, List.length_cons, List.length_append]
      omega
    have hlength : offset + separators.length + (1 + component.length) =
        offset + separators.length + (c :: component).length := by
      rw [List.length_cons, Nat.add_comm 1]
    rw [findLFNorSFN_U]
    simp only [hlead, hdrop, List.tail_cons, htake, hname, hmore, hend, hlength]
    rw [if_neg (by rw [List.length_cons]; omega)]

/-- Where nothing is found, the long path is the path. -/
lemma findLFNorSFN_U_none {find : WString → Except ErrorCode WString} {before : WString}
    {offset : ℕ} {path : WString} (h : findLFNorSFN_U offset path = none) :
    longForm find before path = .ok path := by
  rcases exists_splits path with hseparators | ⟨separators, component, after, hsplits⟩
  · have hlong := @longForm_separators find before [] path hseparators
    rw [List.append_nil, longForm_nil] at hlong
    rw [hlong]
    show Except.ok (path ++ []) = _
    rw [List.append_nil]
  · rw [findLFNorSFN_U_of_splits hsplits] at h
    have hlong : isLongName_U component = true := by
      by_contra hshort
      rw [Bool.not_eq_true] at hshort
      rw [hshort] at h
      cases h
    rw [hlong, if_neg (by decide)] at h
    -- the component is long, and the rest has none that is not
    have hafter : longForm find (before ++ separators ++ component) after = .ok after := by
      cases after with
      | nil => exact longForm_nil
      | cons c after =>
        rw [if_neg (List.cons_ne_nil _ _), List.tail_cons] at h
        have hc : ∀ d ∈ [c], isSeparator d = true := by
          rw [List.forall_mem_singleton]
          exact hsplits.after c rfl
        rw [← List.singleton_append, longForm_separators hc, findLFNorSFN_U_none h]
        rfl
    rw [hsplits.eq_append, List.append_assoc, longForm_separators hsplits.separators,
      longForm_component hsplits.component_ne_nil hsplits.component hsplits.after,
      longName_of_long hlong]
    show ((longForm find (before ++ separators ++ component) after).map _).map _ = _
    rw [hafter]
    rfl
termination_by path.length
decreasing_by
  rw [hsplits.eq_append]
  simp only [List.length_append, List.length_cons]
  omega

/-- A component that is found: what lies before it stays in the long path. -/
structure Finds (offset : ℕ) (path : WString) (first last : ℕ) (skipped component after : WString) :
    Prop where
  eq_append : path = skipped ++ component ++ after
  first_eq : first = offset + skipped.length
  last_eq : last = first + component.length
  component_ne_nil : component ≠ []
  isShortName : IsShortName component
  longForm_eq : ∀ find before, longForm find before path =
    (longName find (before ++ skipped) component).bind fun name =>
      (longForm find (before ++ skipped ++ component) after).map (skipped ++ name ++ ·)

/-- **The next component.** What is found is the next component that the long path
replaces. -/
lemma findLFNorSFN_U_some {offset : ℕ} {path : WString} {first last : ℕ}
    (h : findLFNorSFN_U offset path = some (first, last)) :
    ∃ skipped component after, Finds offset path first last skipped component after := by
  rcases exists_splits path with hseparators | ⟨separators, component, after, hsplits⟩
  · rw [findLFNorSFN_U_of_separators hseparators] at h
    cases h
  · rw [findLFNorSFN_U_of_splits hsplits] at h
    have hcomponent (find : WString → Except ErrorCode WString) (before : WString) :
        longForm find before path = (longName find (before ++ separators) component).bind
          fun name => (longForm find (before ++ separators ++ component) after).map
            (separators ++ name ++ ·) := by
      rw [hsplits.eq_append, List.append_assoc, longForm_separators hsplits.separators,
        longForm_component hsplits.component_ne_nil hsplits.component hsplits.after]
      have hbind := map_bind_append (longName find (before ++ separators) component)
        (longForm find (before ++ separators ++ component) after) separators []
      simpa only [List.nil_append, List.append_nil] using hbind
    by_cases hlong : isLongName_U component = true
    · -- it stays, and the search goes on behind the separator after it
      rw [hlong, if_neg (by decide)] at h
      cases after with
      | nil =>
        rw [if_pos rfl] at h
        cases h
      | cons c after =>
        rw [if_neg (List.cons_ne_nil _ _), List.tail_cons] at h
        obtain ⟨skipped, found, rest, hfinds⟩ := findLFNorSFN_U_some h
        refine ⟨separators ++ component ++ c :: skipped, found, rest, ?_, ?_, hfinds.last_eq,
          hfinds.component_ne_nil, hfinds.isShortName, ?_⟩
        · rw [hsplits.eq_append, hfinds.eq_append]
          simp only [List.append_assoc, List.cons_append]
        · rw [hfinds.first_eq]
          simp only [List.length_append, List.length_cons]
          omega
        · intro find before
          have hc : ∀ d ∈ [c], isSeparator d = true := by
            rw [List.forall_mem_singleton]
            exact hsplits.after c rfl
          rw [hcomponent, longName_of_long hlong]
          show (longForm find (before ++ separators ++ component) (c :: after)).map _ = _
          rw [← List.singleton_append, longForm_separators hc, hfinds.longForm_eq, map_bind_append,
            map_bind_append]
          simp only [List.append_assoc, List.cons_append, List.nil_append]
    · rw [Bool.not_eq_true] at hlong
      rw [hlong, if_pos (by decide)] at h
      obtain ⟨rfl, rfl⟩ := Prod.mk.inj (Option.some.inj h)
      exact ⟨separators, component, after, hsplits.eq_append, rfl, rfl,
        hsplits.component_ne_nil, isLongName_U_eq_false.mp hlong, hcomponent⟩
termination_by path.length
decreasing_by
  rw [hsplits.eq_append]
  simp only [List.length_append, List.length_cons]
  omega

/-! ## The loop -/

section Loop

variable {env : LongPathEnvironment} {path : WString} {offset first last : ℕ}

/-- Where a component that is found lies in the path. -/
lemma Finds.take_drop {skipped component after : WString}
    (h : Finds offset (path.drop offset) first last skipped component after) :
    path.take first = path.take offset ++ skipped ∧
      path.take last = path.take offset ++ skipped ++ component ∧
      (path.take last).drop first = component ∧ path.drop last = after := by
  have hpath : path = path.take offset ++ (skipped ++ component ++ after) := by
    rw [← h.eq_append, List.take_append_drop]
  have hoffset : (path.take offset).length = offset := by
    have hlength := congrArg List.length h.eq_append
    have hpos := List.length_pos_iff.mpr h.component_ne_nil
    simp only [List.length_drop, List.length_append] at hlength
    rw [List.length_take]
    omega
  have hfirst : first = (path.take offset ++ skipped).length := by
    rw [List.length_append, hoffset, h.first_eq]
  have hlast : last = (path.take offset ++ skipped ++ component).length := by
    rw [List.length_append, ← hfirst, h.last_eq]
  have htakeFirst : path.take first = path.take offset ++ skipped := by
    conv_lhs => rw [hpath, hfirst]
    rw [List.append_assoc skipped, ← List.append_assoc (path.take offset), List.take_left]
  have htakeLast : path.take last = path.take offset ++ skipped ++ component := by
    conv_lhs => rw [hpath, hlast]
    rw [← List.append_assoc, ← List.append_assoc, List.take_left]
  refine ⟨htakeFirst, htakeLast, ?_, ?_⟩
  · rw [htakeLast, hfirst, List.drop_left]
  · conv_lhs => rw [hpath, hlast]
    rw [← List.append_assoc, ← List.append_assoc, List.drop_left]

/-- What lies between what was stored and a component that is found. -/
lemma Finds.drop_take {skipped component after : WString} {src : ℕ}
    (h : Finds offset (path.drop offset) first last skipped component after)
    (hsrc : src ≤ offset) :
    (path.take first).drop src = (path.take offset).drop src ++ skipped := by
  have hlength := congrArg List.length h.eq_append
  have hpos := List.length_pos_iff.mpr h.component_ne_nil
  simp only [List.length_drop, List.length_append] at hlength
  rw [h.take_drop.1, List.drop_append_of_le_length]
  rw [List.length_take]
  omega

/-- The file is not found. -/
lemma Finds.longForm_error {skipped component after : WString} {e : ErrorCode}
    (h : Finds offset (path.drop offset) first last skipped component after)
    (hfile : env.findFirstFileW (path.take last) = .error e) :
    longForm env.findFirstFileW (path.take offset) (path.drop offset) = .error e := by
  rw [h.longForm_eq, longName, if_pos h.isShortName, ← h.take_drop.2.1, hfile]
  rfl

/-- The name of the file replaces the component. -/
lemma Finds.longForm_ok {skipped component after cFileName : WString}
    (h : Finds offset (path.drop offset) first last skipped component after)
    (hfile : env.findFirstFileW (path.take last) = .ok cFileName) :
    longForm env.findFirstFileW (path.take offset) (path.drop offset) =
      (longForm env.findFirstFileW (path.take last) (path.drop last)).map
        (skipped ++ (if cFileName.length ≠ 0 then cFileName
          else (path.take last).drop first) ++ ·) := by
  obtain ⟨-, htakeLast, hcomponent, hafter⟩ := h.take_drop
  have hname : (if cFileName.length ≠ 0 then cFileName else component) =
      if cFileName = [] then component else cFileName := by
    simp only [ne_eq, List.length_eq_zero_iff, ite_not]
  rw [h.longForm_eq, longName, if_pos h.isShortName, ← htakeLast, hfile, hcomponent, hafter, hname]
  rfl

/-- A piece is stored where the text up to its end fits. -/
lemma storePiece_of_fits {cchBuffer returnLength : ℕ} (h : returnLength < cchBuffer)
    (dst piece : WString) : storePiece cchBuffer returnLength dst piece = dst ++ piece :=
  if_pos h

/-- In one round what lies before a component and its name are stored. -/
lemma storePieces_of_fits {cchBuffer returnLength : ℕ} {before name : WString} (dst : WString)
    (h : returnLength + before.length + name.length < cchBuffer) :
    storePiece cchBuffer (returnLength + before.length + name.length)
      (storePiece cchBuffer (returnLength + before.length) dst before) name =
        dst ++ before ++ name := by
  rw [storePiece_of_fits h, storePiece_of_fits (by omega)]

/-- The length of the long path with the pieces of one round. -/
lemma length_pieces {returnLength : ℕ} {before pending skipped name rest : WString}
    (hbefore : before = pending ++ skipped) :
    returnLength + before.length + name.length + rest.length =
      returnLength + (pending ++ (skipped ++ name ++ rest)).length := by
  rw [hbefore]
  simp only [List.length_append]
  omega

/-- **The loop** counts the long path, and stores all of it if it fits. A file that is not found
ends it. -/
lemma longPathRun_spec {cchBuffer src returnLength : ℕ} {dst : WString} (hsrc : src ≤ offset)
    (hfind : findLFNorSFN_U offset (path.drop offset) = some (first, last)) :
    (∀ e, longForm env.findFirstFileW (path.take offset) (path.drop offset) = .error e →
      (longPathRun env path cchBuffer src first last returnLength dst).1 = .error e) ∧
    ∀ long, longForm env.findFirstFileW (path.take offset) (path.drop offset) = .ok long →
      (longPathRun env path cchBuffer src first last returnLength dst).1 =
        .ok (returnLength + ((path.take offset).drop src ++ long).length) ∧
      (returnLength + ((path.take offset).drop src ++ long).length < cchBuffer →
        (longPathRun env path cchBuffer src first last returnLength dst).2 =
          dst ++ ((path.take offset).drop src ++ long)) := by
  fun_induction longPathRun env path cchBuffer src first last returnLength dst
    generalizing offset with
  | case1 =>
    -- a component cannot be found
    rename_i hfile
    obtain ⟨skipped, component, after, hfinds⟩ := findLFNorSFN_U_some hfind
    rw [hfinds.longForm_error hfile]
    exact ⟨fun e' he => congrArg Except.error (Except.error.inj he), nofun⟩
  | case2 =>
    -- the loop goes on with the next component, from its own beginning
    rename_i src first last returnLength dst before length₁ dst₁ cFileName hfile name length₂ dst₂
      first' last' hnext ih
    obtain ⟨skipped, component, after, hfinds⟩ := findLFNorSFN_U_some hfind
    have hbefore : before = (path.take offset).drop src ++ skipped := hfinds.drop_take hsrc
    have hpieces (hfits : length₂ < cchBuffer) : dst₂ = dst ++ before ++ name :=
      storePieces_of_fits dst hfits
    obtain ⟨herror, hok⟩ := ih le_rfl hnext
    rw [hfinds.longForm_ok hfile]
    have hlater : (path.take last).drop last = [] := by
      rw [List.drop_eq_nil_iff, List.length_take]
      omega
    constructor
    · intro e he
      cases hrest : longForm env.findFirstFileW (path.take last) (path.drop last) with
      | error e' =>
        rw [hrest] at he
        rw [herror e' hrest]
        exact congrArg Except.error (Except.error.inj he)
      | ok rest =>
        rw [hrest] at he
        cases he
    · intro long hlong
      cases hrest : longForm env.findFirstFileW (path.take last) (path.drop last) with
      | error e' =>
        rw [hrest] at hlong
        cases hlong
      | ok rest =>
        rw [hrest] at hlong
        have hlong : long = skipped ++ name ++ rest := (Except.ok.inj hlong).symm
        obtain ⟨hlength, hstored⟩ := hok rest hrest
        rw [hlater, List.nil_append] at hlength hstored
        have htotal : length₂ + rest.length =
            returnLength + ((path.take offset).drop src ++ (skipped ++ name ++ rest)).length :=
          length_pieces hbefore
        rw [htotal] at hlength hstored
        rw [hlong]
        refine ⟨hlength, ?_⟩
        intro hfits
        rw [hstored hfits, hpieces (by omega), hbefore]
        simp only [List.append_assoc]
  | case3 =>
    -- this was the last one, and the rest of the path is copied
    rename_i src first last returnLength dst before length₁ dst₁ cFileName hfile name length₂ dst₂
      hnext rest length₃
    obtain ⟨skipped, component, after, hfinds⟩ := findLFNorSFN_U_some hfind
    have hbefore : before = (path.take offset).drop src ++ skipped := hfinds.drop_take hsrc
    have hpieces (hfits : length₂ < cchBuffer) : dst₂ = dst ++ before ++ name :=
      storePieces_of_fits dst hfits
    rw [hfinds.longForm_ok hfile, findLFNorSFN_U_none hnext]
    refine ⟨nofun, ?_⟩
    intro long hlong
    have hlong : long = skipped ++ name ++ rest := (Except.ok.inj hlong).symm
    rw [hlong]
    have htotal : length₃ =
        returnLength + ((path.take offset).drop src ++ (skipped ++ name ++ rest)).length :=
      length_pieces hbefore
    refine ⟨congrArg Except.ok htotal, ?_⟩
    intro hfits
    have hstored : storePiece cchBuffer length₃ dst₂ rest = dst₂ ++ rest :=
      storePiece_of_fits (htotal ▸ hfits) dst₂ rest
    show storePiece cchBuffer length₃ dst₂ rest = _
    rw [hstored, hpieces (by omega), hbefore]
    simp only [List.append_assoc]

/-- Nothing is stored where there is no room. -/
lemma longPathRun_of_noRoom {src returnLength : ℕ} {dst : WString} :
    (longPathRun env path 0 src first last returnLength dst).2 = dst := by
  have hstore (length : ℕ) (dst piece : WString) : storePiece 0 length dst piece = dst :=
    if_neg (Nat.not_lt_zero length)
  fun_induction longPathRun env path 0 src first last returnLength dst with
  | case1 =>
    rename_i dst before length₁ dst₁ e hfile
    exact hstore length₁ dst before
  | case2 =>
    rename_i dst before length₁ dst₁ cFileName hfile name length₂ dst₂ first' last' hnext ih
    rw [ih]
    exact (hstore length₂ dst₁ name).trans (hstore length₁ dst before)
  | case3 =>
    rename_i dst before length₁ dst₁ cFileName hfile name length₂ dst₂ hnext rest length₃
    calc storePiece 0 length₃ dst₂ rest = dst₂ := hstore length₃ dst₂ rest
      _ = dst₁ := hstore length₂ dst₁ name
      _ = dst := hstore length₁ dst before

/-- Where there is nothing to replace, the long path is the path. -/
lemma longPath_of_none {find : WString → Except ErrorCode WString}
    (h : findFirst path = none) : longPath find path = .ok path := by
  rw [findFirst] at h
  rw [longPath]
  cases hskip : skipPathTypeIndicator_U path with
  | none => rfl
  | some i =>
    rw [hskip, Option.bind_some] at h
    show (longForm find (path.take i) (path.drop i)).map _ = _
    rw [findLFNorSFN_U_none h]
    exact congrArg Except.ok (List.take_append_drop i path)

/-- Otherwise the loop computes it. -/
lemma longPathRun_of_findFirst {cchBuffer : ℕ} (h : findFirst path = some (first, last)) :
    (∀ e, longPath env.findFirstFileW path = .error e →
      (longPathRun env path cchBuffer 0 first last 0 []).1 = .error e) ∧
    ∀ long, longPath env.findFirstFileW path = .ok long →
      (longPathRun env path cchBuffer 0 first last 0 []).1 = .ok long.length ∧
      (long.length < cchBuffer → (longPathRun env path cchBuffer 0 first last 0 []).2 = long) := by
  rw [findFirst] at h
  obtain ⟨i, hskip, hfind⟩ := Option.bind_eq_some_iff.mp h
  have hpath : longPath env.findFirstFileW path =
      (longForm env.findFirstFileW (path.take i) (path.drop i)).map (path.take i ++ ·) := by
    rw [longPath, hskip]
  obtain ⟨herror, hok⟩ :=
    @longPathRun_spec env path i first last cchBuffer 0 0 [] (Nat.zero_le i) hfind
  rw [hpath]
  cases hlong : longForm env.findFirstFileW (path.take i) (path.drop i) with
  | error e =>
    refine ⟨?_, nofun⟩
    intro e' he
    rw [herror e hlong]
    exact congrArg Except.error (Except.error.inj he)
  | ok rest =>
    refine ⟨nofun, ?_⟩
    intro long hrest
    have hrest : long = path.take i ++ rest := (Except.ok.inj hrest).symm
    obtain ⟨hlength, hstored⟩ := hok rest hlong
    rw [Nat.zero_add, List.drop_zero, ← hrest] at hlength hstored
    exact ⟨hlength, hstored⟩

end Loop

/-! ## Lengths -/

/-- A path of a file has at most 32767 characters, and `cFileName` has room for `MAX_PATH`. -/
structure LongPathEnvironment.Documented (env : LongPathEnvironment) : Prop where
  path : ∀ path attributes, env.getFileAttributesW path = .ok attributes → path.length < 2 ^ 15
  cFileName : ∀ path cFileName, env.findFirstFileW path = .ok cFileName →
    cFileName.length < MAX_PATH

lemma longName_length {env : LongPathEnvironment} (hdoc : env.Documented)
    {before component name : WString} (hne : component ≠ [])
    (h : longName env.findFirstFileW before component = .ok name) :
    name.length ≤ MAX_PATH * component.length := by
  have hpos := List.length_pos_iff.mpr hne
  have hlarge : component.length ≤ MAX_PATH * component.length :=
    Nat.le_mul_of_pos_left _ (by decide)
  rw [longName] at h
  split at h
  · cases hfile : env.findFirstFileW (before ++ component) with
    | error e =>
      rw [hfile] at h
      cases h
    | ok cFileName =>
      rw [hfile] at h
      have hname : (if cFileName = [] then component else cFileName) = name := Except.ok.inj h
      have hlength := hdoc.cFileName _ cFileName hfile
      rw [← hname]
      split
      · exact hlarge
      · calc cFileName.length ≤ MAX_PATH := hlength.le
          _ ≤ MAX_PATH * component.length := Nat.le_mul_of_pos_right _ hpos
  · rw [← Except.ok.inj h]
    exact hlarge

/-- The long path is bounded. -/
lemma longForm_length {env : LongPathEnvironment} (hdoc : env.Documented)
    {before rest long : WString} (h : longForm env.findFirstFileW before rest = .ok long) :
    long.length ≤ MAX_PATH * rest.length := by
  have hmap {f : WString → WString} {result : Except ErrorCode WString} {long : WString}
      (h : result.map f = .ok long) : ∃ later, result = .ok later ∧ f later = long := by
    cases result with
    | error e => cases h
    | ok later => exact ⟨later, rfl, Except.ok.inj h⟩
  fun_induction longForm env.findFirstFileW before rest generalizing long with
  | case1 =>
    rw [← Except.ok.inj h]
    exact Nat.le_refl 0
  | case2 before c rest hc ih =>
    obtain ⟨later, hlater, rfl⟩ := hmap h
    have hle := ih hlater
    rw [List.length_cons, List.length_cons, MAX_PATH] at *
    omega
  | case3 => cases h
  | case4 =>
    rename_i before c rest hc component after name hname ih
    obtain ⟨later, hlater, rfl⟩ := hmap h
    have hle := ih hlater
    have hcomponent := longName_length hdoc (List.cons_ne_nil _ _) hname
    have hsplit : (c :: rest).length = component.length + after.length := by
      show _ = (c :: rest.takeWhile _).length + (rest.dropWhile _).length
      rw [List.length_cons, List.length_cons, Nat.add_right_comm, ← List.length_append,
        List.takeWhile_append_dropWhile]
    rw [hsplit, List.length_append, Nat.mul_add]
    exact Nat.add_le_add hcomponent hle

lemma longPath_length {env : LongPathEnvironment} (hdoc : env.Documented) {path long : WString}
    (h : longPath env.findFirstFileW path = .ok long) : long.length ≤ MAX_PATH * path.length := by
  rw [longPath] at h
  split at h
  · rw [← Except.ok.inj h]
    exact Nat.le_mul_of_pos_left _ (by decide)
  · rename_i i hskip
    cases hrest : longForm env.findFirstFileW (path.take i) (path.drop i) with
    | error e =>
      rw [hrest] at h
      cases h
    | ok rest =>
      rw [hrest] at h
      have hlong : path.take i ++ rest = long := Except.ok.inj h
      have hlength := longForm_length hdoc hrest
      rw [← hlong, List.length_append]
      calc (path.take i).length + rest.length
          ≤ MAX_PATH * (path.take i).length + MAX_PATH * (path.drop i).length := by
            apply Nat.add_le_add _ hlength
            exact Nat.le_mul_of_pos_left _ (by decide)
        _ = MAX_PATH * path.length := by
            rw [← Nat.mul_add, ← List.length_append, List.take_append_drop]

/-! ## The result -/

lemma store_add {memory : Memory} {p : Addr} {s : List UInt16} {i : ℕ} (hi : i < s.length) :
    memory.store p s (p + i) = charAt s i := by
  rw [Memory.store, if_pos ⟨Nat.le_add_right p i, Nat.add_lt_add_left hi p⟩,
    Nat.add_sub_cancel_left]

lemma holdsAt_store (memory : Memory) (p : Addr) (s : WString) :
    HoldsAt (memory.store p (s ++ [0])) p s where
  chars := by
    intro i hi
    rw [store_add (by rw [List.length_append]; omega), charAt, charAt,
      List.getElem?_append_left hi]
  terminator := by
    rw [store_add (by rw [List.length_append]; exact Nat.lt_succ_self _), charAt,
      List.getElem?_append_right (le_refl _), Nat.sub_self]
    rfl

lemma store_nil (memory : Memory) (p : Addr) : memory.store p [] = memory := by
  ext a
  rw [Memory.store, if_neg]
  rintro ⟨hle, hlt⟩
  exact absurd hlt (Nat.not_lt_of_le hle)

/-- What `GetLongPathNameW` is to do with the path of a file. -/
structure ComputesLongPath (env : LongPathEnvironment) (call : LongPathCall) (memory : Memory)
    (result : LongPathResult) : Prop where
  /-- A long path that fits is stored. -/
  fits : ∀ long, longPath env.findFirstFileW call.path = .ok long →
    call.lpszLongPath ≠ 0 → long.length < call.cchBuffer.toNat →
      result.ret.toNat = long.length ∧ HoldsAt result.memory call.lpszLongPath long
  /-- Otherwise the size that it needs is returned. -/
  larger : ∀ long, longPath env.findFirstFileW call.path = .ok long →
    call.lpszLongPath = 0 ∨ call.cchBuffer.toNat ≤ long.length →
      result.ret.toNat = long.length + 1
  /-- Where a file is not found, nothing is stored over the path. -/
  fails : ∀ e, longPath env.findFirstFileW call.path = .error e →
    result.ret = 0 ∧ (call.lpszLongPath = call.lpszShortPath → result.memory = memory)

section Result

variable {env : LongPathEnvironment} {call : LongPathCall} {memory : Memory}

/-- There is room for a text of so many characters and its terminator. -/
lemma lt_room {n : ℕ} :
    n < call.room ↔ call.lpszLongPath ≠ 0 ∧ n < call.cchBuffer.toNat := by
  rw [LongPathCall.room]
  split
  · rename_i hzero
    exact iff_of_false (Nat.not_lt_zero n) fun h => h.1 hzero
  · rename_i hzero
    exact (and_iff_right hzero).symm

/-- A path that is stored over itself stays where it is. -/
lemma overlaps_of_eq (h : call.lpszLongPath = call.lpszShortPath) : call.overlaps = true := by
  rw [LongPathCall.overlaps, h]
  simp

/-- The length of the path of a file, and of its long form, fits a `DWORD`. -/
lemma toNat_longPath (hdoc : env.Documented)
    (hexists : ∃ attributes, env.getFileAttributesW call.path = .ok attributes) {long : WString}
    (hlong : longPath env.findFirstFileW call.path = .ok long) {n : ℕ}
    (hn : n ≤ long.length + 1) : (UInt32.ofNat n).toNat = n := by
  obtain ⟨attributes, hattributes⟩ := hexists
  have hbound := longPath_length hdoc hlong
  have hlength := hdoc.path call.path attributes hattributes
  rw [MAX_PATH] at hbound
  apply UInt32.toNat_ofNat_of_lt'
  show n < 2 ^ 32
  omega

/-- A path without short names is copied. -/
lemma computesLongPath_of_none (hdoc : env.Documented) (hnull : call.lpszShortPath ≠ 0)
    (hpath : HoldsAt memory call.lpszShortPath call.path)
    (hexists : ∃ attributes, env.getFileAttributesW call.path = .ok attributes)
    (hfirst : findFirst call.path = none) :
    ComputesLongPath env call memory (call.getLongPathNameW env memory) := by
  have hret {n : ℕ} (hn : n ≤ call.path.length + 1) : (UInt32.ofNat n).toNat = n :=
    toNat_longPath hdoc hexists (longPath_of_none hfirst) hn
  -- all components are long already: the long path is the path
  have hsame {long : WString} (hlong : longPath env.findFirstFileW call.path = .ok long) :
      long = call.path :=
    Except.ok.inj (hlong.symm.trans (longPath_of_none hfirst))
  obtain ⟨attributes, hattributes⟩ := hexists
  rw [LongPathCall.getLongPathNameW, if_neg hnull, hattributes]
  simp only [hfirst]
  constructor
  · intro long hlong hbuffer hfits
    rw [hsame hlong] at hfits ⊢
    rw [if_pos (lt_room.mpr ⟨hbuffer, hfits⟩)]
    refine ⟨hret (Nat.le_succ _), ?_⟩
    by_cases hover : call.lpszLongPath = call.lpszShortPath
    · show HoldsAt (if call.lpszLongPath ≠ call.lpszShortPath then _ else memory) _ _
      rw [if_neg (not_not.mpr hover), hover]
      exact hpath
    · show HoldsAt (if call.lpszLongPath ≠ call.lpszShortPath then _ else memory) _ _
      rw [if_pos hover]
      exact holdsAt_store memory _ _
  · intro long hlong hlarge
    rw [hsame hlong] at hlarge ⊢
    rw [if_neg]
    · exact hret le_rfl
    · intro hroom
      obtain ⟨hbuffer, hfits⟩ := lt_room.mp hroom
      rcases hlarge with hzero | hlarge
      · exact hbuffer hzero
      · omega
  · intro e he
    rw [longPath_of_none hfirst] at he
    cases he

/-- The short names of a path are replaced. -/
lemma computesLongPath_of_some (hdoc : env.Documented)
    (hblocks : env.allocFileName = true ∧ env.allocBuffer = true)
    (hnull : call.lpszShortPath ≠ 0)
    (hexists : ∃ attributes, env.getFileAttributesW call.path = .ok attributes)
    {first last : ℕ} (hfirst : findFirst call.path = some (first, last)) :
    ComputesLongPath env call memory (call.getLongPathNameW env memory) := by
  have hret {long : WString} (hlong : longPath env.findFirstFileW call.path = .ok long) {n : ℕ}
      (hn : n ≤ long.length + 1) : (UInt32.ofNat n).toNat = n :=
    toNat_longPath hdoc hexists hlong hn
  obtain ⟨herror, hok⟩ := @longPathRun_of_findFirst env call.path first last call.room hfirst
  obtain ⟨attributes, hattributes⟩ := hexists
  rw [LongPathCall.getLongPathNameW, if_neg hnull, hattributes]
  simp only [hfirst, hblocks.1, hblocks.2, Bool.not_true, Bool.and_false, Bool.false_eq_true,
    if_false]
  cases hrun : longPathRun env call.path call.room 0 first last 0 [] with
  | mk returned dst =>
    rw [hrun] at herror hok
    constructor
    · intro long hlong hbuffer hfits
      obtain ⟨rfl, hstored⟩ := hok long hlong
      have hroom := lt_room.mpr ⟨hbuffer, hfits⟩
      have hdst : dst = long := hstored hroom
      simp only [if_pos hroom, hdst]
      exact ⟨hret hlong (Nat.le_succ _), holdsAt_store memory _ _⟩
    · intro long hlong hlarge
      obtain ⟨rfl, -⟩ := hok long hlong
      have hnoroom : ¬long.length < call.room := by
        intro hroom
        obtain ⟨hbuffer, hfits⟩ := lt_room.mp hroom
        rcases hlarge with hzero | hlarge
        · exact hbuffer hzero
        · omega
      simp only [if_neg hnoroom]
      exact hret hlong le_rfl
    · intro e he
      obtain rfl := herror e he
      refine ⟨rfl, ?_⟩
      intro hover
      show (if (decide (0 < call.room) && call.overlaps) = true then memory
        else memory.store call.lpszLongPath dst) = memory
      rw [overlaps_of_eq hover, Bool.and_true]
      split
      · rfl
      · -- without room nothing was stored at all
        rename_i hnoroom
        rw [decide_eq_true_eq] at hnoroom
        have hzero : call.room = 0 := Nat.eq_zero_of_not_pos hnoroom
        rw [hzero] at hrun
        have hempty : dst = [] := by
          have hdst := @longPathRun_of_noRoom env call.path first last 0 0 []
          rwa [hrun] at hdst
        rw [hempty, store_nil]

/-- `longPathLoop` is the loop, without what it has stored where it fails. -/
lemma longPathLoop_eq {path : WString} {cchBuffer src first last returnLength : ℕ}
    {dst : WString} :
    longPathLoop env path cchBuffer src first last returnLength dst =
      (longPathRun env path cchBuffer src first last returnLength dst).1.map fun length =>
        (length, (longPathRun env path cchBuffer src first last returnLength dst).2) := by
  fun_induction longPathRun env path cchBuffer src first last returnLength dst with
  | case1 =>
    rename_i hfile
    rw [longPathLoop, hfile]
    rfl
  | case2 =>
    rename_i hfile name length₂ dst₂ first' last' hnext ih
    rw [longPathLoop, hfile, ← ih]
    simp only
    split
    · rename_i first'' last'' hnext'
      obtain ⟨rfl, rfl⟩ := Prod.mk.inj (Option.some.inj (hnext.symm.trans hnext'))
      rfl
    · rename_i hnext'
      cases hnext.symm.trans hnext'
  | case3 =>
    rename_i hfile name length₂ dst₂ hnext rest length₃
    rw [longPathLoop, hfile]
    simp only
    split
    · rename_i first' last' hnext'
      cases hnext.symm.trans hnext'
    · rfl

/-- What the function returns and leaves at an address, as `getLongPathNameW` describes it. -/
def Agrees (result : LongPathResult) (p : Addr) : Except ErrorCode (ℕ × WString) → Prop
  | .error e => result.ret = 0 ∧ result.lastError = some e
  | .ok (length, path) => result.ret = UInt32.ofNat length ∧ HoldsAt result.memory p path

/-- **Over the path itself** the function does what `getLongPathNameW` says. -/
lemma agrees_inPlace (hnull : call.lpszShortPath ≠ 0)
    (hover : call.lpszLongPath = call.lpszShortPath)
    (hpath : HoldsAt memory call.lpszShortPath call.path) :
    Agrees (call.getLongPathNameW env memory) call.lpszShortPath
      (getLongPathNameW env call.path call.cchBuffer.toNat) := by
  have hroom : call.room = call.cchBuffer.toNat := by
    rw [LongPathCall.room, if_neg (hover ▸ hnull)]
  have hfirst : findFirst call.path =
      (skipPathTypeIndicator_U call.path).bind fun i => findLFNorSFN_U i (call.path.drop i) := rfl
  rw [LongPathCall.getLongPathNameW, if_neg hnull, getLongPathNameW, hroom, ← hfirst,
    overlaps_of_eq hover]
  cases env.getFileAttributesW call.path with
  | error e => exact ⟨rfl, rfl⟩
  | ok attributes =>
    cases findFirst call.path with
    | none =>
      -- there is nothing to look up, and the path stays where it is
      simp only [hover, ne_eq, not_true_eq_false, if_false]
      split
      · exact ⟨rfl, hpath⟩
      · exact ⟨rfl, hpath⟩
    | some found =>
      obtain ⟨first, last⟩ := found
      simp only
      by_cases hfileName : (!env.allocFileName) = true
      · rw [if_pos hfileName, if_pos hfileName]
        exact ⟨rfl, rfl⟩
      · rw [if_neg hfileName, if_neg hfileName]
        by_cases hbuffer : 0 < call.cchBuffer.toNat ∧ (!env.allocBuffer) = true
        · rw [if_pos hbuffer, if_pos (by simpa using hbuffer)]
          exact ⟨rfl, rfl⟩
        · rw [if_neg hbuffer, if_neg (by simpa using hbuffer), longPathLoop_eq]
          -- without a buffer nothing is stored
          have hnoroom : call.cchBuffer.toNat = 0 →
              (longPathRun env call.path call.cchBuffer.toNat 0 first last 0 []).2 = [] := by
            intro hzero
            rw [hzero]
            exact longPathRun_of_noRoom
          cases hrun : longPathRun env call.path call.cchBuffer.toNat 0 first last 0 [] with
          | mk returned dst =>
            rw [hrun] at hnoroom
            cases returned with
            | error e => exact ⟨rfl, rfl⟩
            | ok returnLength =>
              by_cases hfits : returnLength < call.cchBuffer.toNat
              · simp only [Except.map, if_pos hfits, hover]
                exact ⟨rfl, holdsAt_store memory _ _⟩
              · simp only [Except.map, if_neg hfits]
                refine ⟨rfl, ?_⟩
                show HoldsAt (if _ then memory else memory.store call.lpszLongPath dst) _ _
                split
                · exact hpath
                · rename_i hnone
                  have hzero : call.cchBuffer.toNat = 0 := by simpa using hnone
                  have hempty : dst = [] := hnoroom hzero
                  rw [hempty, store_nil]
                  exact hpath

end Result

/-- **The long path** is computed for every path of a file, whatever the buffer is and wherever
it lies. -/
theorem computesLongPath {env : LongPathEnvironment} (hdoc : env.Documented)
    (hblocks : env.allocFileName = true ∧ env.allocBuffer = true) {call : LongPathCall}
    (hnull : call.lpszShortPath ≠ 0) {memory : Memory}
    (hpath : HoldsAt memory call.lpszShortPath call.path)
    (hexists : ∃ attributes, env.getFileAttributesW call.path = .ok attributes) :
    ComputesLongPath env call memory (call.getLongPathNameW env memory) := by
  cases hfirst : findFirst call.path with
  | none => exact computesLongPath_of_none hdoc hnull hpath hexists hfirst
  | some found =>
    obtain ⟨first, last⟩ := found
    exact computesLongPath_of_some hdoc hblocks hnull hexists hfirst

/-- A system with one directory, `C:\Program Files`, which has a short name. -/
def oneDirectory : LongPathEnvironment where
  getFileAttributesW := fun path => if path = wide "C:\\PROGRA~1" then .ok 16 else .error 2
  findFirstFileW := fun path =>
    if path = wide "C:\\PROGRA~1" then .ok (wide "Program Files") else .error 2
  allocFileName := true
  allocBuffer := true

lemma documented_oneDirectory : oneDirectory.Documented where
  path := by
    intro path attributes h
    by_cases hpath : path = wide "C:\\PROGRA~1"
    · rw [hpath]
      decide
    · simp only [oneDirectory, if_neg hpath] at h
      cases h
  cFileName := by
    intro path cFileName h
    by_cases hpath : path = wide "C:\\PROGRA~1"
    · simp only [oneDirectory, if_pos hpath] at h
      rw [← Except.ok.inj h]
      decide
    · simp only [oneDirectory, if_neg hpath] at h
      cases h

/-- The short path at an address is replaced by the long one. -/
theorem computesLongPath_oneDirectory :
    ComputesLongPath oneDirectory ⟨1000, wide "C:\\PROGRA~1", 1000, 260⟩
      (fun a => charAt (wide "C:\\PROGRA~1") (a - 1000))
      (LongPathCall.getLongPathNameW ⟨1000, wide "C:\\PROGRA~1", 1000, 260⟩ oneDirectory
        fun a => charAt (wide "C:\\PROGRA~1") (a - 1000)) := by
  have hpath : HoldsAt (fun a => charAt (wide "C:\\PROGRA~1") (a - 1000)) 1000
      (wide "C:\\PROGRA~1") := by
    constructor
    · intro i hi
      show charAt _ (1000 + i - 1000) = _
      rw [Nat.add_sub_cancel_left]
    · rfl
  exact computesLongPath documented_oneDirectory ⟨rfl, rfl⟩ (by decide) hpath ⟨16, rfl⟩

end FinalPath
end ClamavWin32
