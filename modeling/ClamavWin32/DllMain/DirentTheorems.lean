import ClamavWin32.DllMain.Dirent

/-!
# What a directory stream lists

* `Lists`: the calls of `readdir` return the files of the directory one by one, and `NULL` then;
* `Fits`: the name of a file fits the field for it;
* `readNth_eq`: the calls return the files whose names fit;
* `opendir_entry`: the pattern of the search is the whole path;
* `lists_iff`: when all files are listed.
-/

namespace ClamavWin32
namespace Dirent

open ScanMem (Build)

variable {conv : Utf8Conversion} {build : Build} {findFirstFile : WString → List FindData}
  {dirp : Dir}

/-- A file as an entry, with its whole name. -/
def entryOf (conv : Utf8Conversion) (wfd : FindData) : DirEntry :=
  dirEntry wfd (conv.convert wfd.cFileName)

/-- The calls of `readdir` return the files in their order, each once, and `NULL` behind the
last one. -/
def Lists (conv : Utf8Conversion) (build : Build) (findFirstFile : WString → List FindData)
    (dirp : Dir) : Prop :=
  ∀ n, readNth conv build findFirstFile n dirp =
    ((findFirstFile dirp.entry).map (entryOf conv))[n]?

/-- The name of the file fits the buffer that it is converted into. -/
def Fits (conv : Utf8Conversion) (build : Build) (wfd : FindData) : Prop :=
  (conv.convert wfd.cFileName).length + 1 ≤ build.MAX_PATH - 1

instance (conv : Utf8Conversion) (build : Build) (wfd : FindData) :
    Decidable (Fits conv build wfd) :=
  inferInstanceAs (Decidable (_ ≤ _))

/-- The entries of the files whose names fit. -/
def listed (conv : Utf8Conversion) (build : Build) (files : List FindData) : List DirEntry :=
  (files.filter fun wfd => Fits conv build wfd).map (entryOf conv)

/-! ## The calls of `readdir` -/

/-- The loop returns the next file whose name fits, and leaves those behind it. -/
lemma readLoop_spec (conv : Utf8Conversion) (build : Build) (files : List FindData) :
    (readLoop conv build files).1.toOption = (listed conv build files).head? ∧
    listed conv build (readLoop conv build files).2 = (listed conv build files).tail := by
  induction files with
  | nil => exact ⟨rfl, rfl⟩
  | cons wfd rest ih =>
    by_cases hfits : Fits conv build wfd
    · have hconvert : wideCharToMultiByte conv build wfd.cFileName =
          some (conv.convert wfd.cFileName) := if_pos hfits
      simp [readLoop, hconvert, listed, hfits, Except.toOption, entryOf]
    · have hconvert : wideCharToMultiByte conv build wfd.cFileName = none := if_neg hfits
      simpa [readLoop, hconvert, listed, hfits] using ih

/-- The calls of `readdir` in a search return what is left to be listed. -/
lemma readNth_some (rest : List FindData) (entry : WString) (n : ℕ) :
    readNth conv build findFirstFile n ⟨some rest, entry⟩ = (listed conv build rest)[n]? := by
  obtain ⟨hhead, htail⟩ := readLoop_spec conv build rest
  induction n generalizing rest with
  | zero =>
    show (readLoop conv build rest).1.toOption = _
    rw [hhead, List.head?_eq_getElem?]
  | succ n ih =>
    obtain ⟨hhead', htail'⟩ := readLoop_spec conv build (readLoop conv build rest).2
    show readNth conv build findFirstFile n ⟨some (readLoop conv build rest).2, entry⟩ = _
    rw [ih (readLoop conv build rest).2 hhead' htail', htail, List.getElem?_tail]

/-- **The calls of `readdir`** from the beginning of a stream return the files whose names
fit. -/
lemma readNth_eq (hstart : dirp.dh = none) (n : ℕ) :
    readNth conv build findFirstFile n dirp =
      (listed conv build (findFirstFile dirp.entry))[n]? := by
  obtain ⟨dh, entry⟩ := dirp
  subst hstart
  cases hfiles : findFirstFile entry with
  | nil =>
    -- there is no search, and each call begins one
    have hafter : dirAfter conv build findFirstFile n ⟨none, entry⟩ = ⟨none, entry⟩ := by
      induction n with
      | zero => rfl
      | succ n ih => simpa [dirAfter, readdir, hfiles] using ih
    simp [readNth, hafter, readdir, hfiles, listed, Except.toOption]
  | cons wfd rest =>
    -- the first call is the one of a search with all files left
    have hfirst : readdir conv build findFirstFile ⟨none, entry⟩ =
        readdir conv build findFirstFile ⟨some (wfd :: rest), entry⟩ := by
      simp [readdir, hfiles]
    have hnth : readNth conv build findFirstFile n ⟨none, entry⟩ =
        readNth conv build findFirstFile n ⟨some (wfd :: rest), entry⟩ := by
      cases n with
      | zero => simp only [readNth, dirAfter, hfirst]
      | succ n => simp only [readNth, dirAfter, hfirst]
    rw [hnth]
    exact readNth_some (wfd :: rest) entry n

/-- All files are listed just if all names fit. -/
lemma lists_iff_fits (hstart : dirp.dh = none) :
    Lists conv build findFirstFile dirp ↔
      ∀ wfd ∈ findFirstFile dirp.entry, Fits conv build wfd := by
  constructor
  · intro hlists
    have heq : listed conv build (findFirstFile dirp.entry) =
        (findFirstFile dirp.entry).map (entryOf conv) := by
      apply List.ext_getElem?
      intro n
      rw [← readNth_eq hstart]
      exact hlists n
    have hlength := congrArg List.length heq
    rw [listed, List.length_map, List.length_map, List.length_filter_eq_length_iff] at hlength
    simpa using hlength
  · intro hfits n
    have hall : (findFirstFile dirp.entry).filter (fun wfd => Fits conv build wfd) =
        findFirstFile dirp.entry := by
      rw [List.filter_eq_self]
      simpa using hfits
    rw [readNth_eq hstart, listed, hall]

/-! ## The beginning of a stream -/

/-- A stream is opened for the whole path: a longer one is refused. -/
lemma opendir_entry {calls : OpendirCalls} (h : opendir build calls = .ok dirp) :
    ∃ wpath, calls.uncpath = some wpath ∧
      dirp = ⟨none, wpath.rdropWhile (· == 0x5C) ++ wide "\\*.*"⟩ := by
  unfold opendir at h
  cases hstat : calls.w32_stat with
  | none => simp [hstat] at h
  | some isDir =>
    cases hpath : calls.uncpath with
    | none =>
      simp only [hstat, hpath] at h
      split_ifs at h
    | some wpath =>
      simp only [hstat, hpath] at h
      split_ifs at h with hdir hmalloc hlength
      refine ⟨wpath, rfl, ?_⟩
      rw [Except.ok.injEq] at h
      rw [List.length_take] at hlength
      rw [← h, List.take_of_length_le (by omega)]

/-- A stream begins anew after `opendir` and after `rewinddir`. -/
lemma dh_of_start (hstart : (∃ calls, opendir build calls = .ok dirp) ∨
    ∃ before, dirp = rewinddir before) : dirp.dh = none := by
  rcases hstart with ⟨calls, hopen⟩ | ⟨before, hrewind⟩
  · obtain ⟨wpath, -, rfl⟩ := opendir_entry hopen
    rfl
  · rw [hrewind]
    rfl

/-- Every legal name fits the longer field, and those of 258 bytes fit the shorter one. -/
lemma fits_iff {wfd : FindData} (hlegal : wfd.cFileName.length ≤ 255) :
    Fits conv build wfd ↔ build = .vista ∨ (conv.convert wfd.cFileName).length ≤ 258 := by
  have hlength := conv.length_convert_le wfd.cFileName
  unfold Fits
  cases build with
  | winxp =>
    have hmax : Build.winxp.MAX_PATH = 260 := rfl
    rw [hmax]
    simp only [reduceCtorEq, false_or]
    omega
  | vista =>
    have hmax : Build.vista.MAX_PATH = 4096 := rfl
    rw [hmax]
    simp only [true_or, iff_true]
    omega

/-- **Directory listing.** After `opendir` or `rewinddir`, the calls of `readdir` list all files
of a directory if and only if the field for a name is the longer one, or no name needs more
than 258 bytes in UTF-8. -/
theorem lists_iff (conv : Utf8Conversion) (build : Build)
    (findFirstFile : WString → List FindData) (dirp : Dir)
    (hstart : (∃ calls, opendir build calls = .ok dirp) ∨ ∃ before, dirp = rewinddir before)
    (hlegal : ∀ wfd ∈ findFirstFile dirp.entry, wfd.cFileName.length ≤ 255) :
    Lists conv build findFirstFile dirp ↔
      build = .vista ∨
        ∀ wfd ∈ findFirstFile dirp.entry, (conv.convert wfd.cFileName).length ≤ 258 := by
  rw [lists_iff_fits (dh_of_start hstart)]
  constructor
  · intro hfits
    by_cases hbuild : build = .vista
    · exact Or.inl hbuild
    · refine Or.inr fun wfd hwfd => ?_
      exact ((fits_iff (hlegal wfd hwfd)).mp (hfits wfd hwfd)).resolve_left hbuild
  · intro h wfd hwfd
    apply (fits_iff (hlegal wfd hwfd)).mpr
    exact h.imp_right fun hall => hall wfd hwfd

/-- A surrogate on its own becomes `U+FFFD`. -/
def replacing : Utf8Conversion := ⟨fun _ => [0xEF, 0xBF, 0xBD], fun _ => rfl⟩

/-- A file with a name of so many characters `一`. -/
def sampleFile (length : ℕ) : FindData :=
  ⟨List.replicate length 0x4E00, 0x20, ⟨0, 0⟩, 1⟩

/-- The stream of the directory `C:\`. -/
def sampleDir : Dir := ⟨none, wide "C:\\*.*"⟩

/-- A name of 86 such characters is listed. -/
theorem lists_sample : Lists replacing .winxp (fun _ => [sampleFile 86]) sampleDir :=
  (lists_iff replacing .winxp (fun _ => [sampleFile 86]) sampleDir (Or.inr ⟨sampleDir, rfl⟩)
    (by decide +kernel)).mpr (by decide +kernel)

/-- One of 87 is not, and neither `readdir` nor `errno` tells. -/
theorem lists_hidden :
    ¬Lists replacing .winxp (fun _ => [sampleFile 87]) sampleDir ∧
    (readdir replacing .winxp (fun _ => [sampleFile 87]) sampleDir).1 = .error .zero := by
  have hnull : (readdir replacing .winxp (fun _ => [sampleFile 87]) sampleDir).1 =
      .error .zero := by
    decide +kernel
  refine ⟨?_, hnull⟩
  intro hlists
  have hfirst := hlists 0
  rw [readNth, dirAfter, hnull] at hfirst
  exact absurd hfirst (by simp [Except.toOption])

end Dirent
end ClamavWin32
