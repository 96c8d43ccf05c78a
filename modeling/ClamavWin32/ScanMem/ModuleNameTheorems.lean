import ClamavWin32.ScanMem.ScanCallbackTheorems
import Mathlib.Data.List.TakeDrop

/-!
# The name of a module

`scanmem_cb` makes the path of a module usable before it looks it up, resolves it and scans it.
It takes away `\??\` before a path, and puts the system's directory where a path begins with
`\SystemRoot\`.

* `expanded`: what is handed to `ExpandEnvironmentStrings`;
* `NameKept`: the name is the whole path, but for these two beginnings;
* `appendLimit_le_iff`: the lengths for which `_tcsnccat` appends a path to its end;
* `nameKept_iff`: when the name is the whole path in a build with paths of 260 characters.
-/

namespace ClamavWin32
namespace ScanMem

variable {cfg : Config} {cb : Callback}

/-- `\??\` -/
def ntPrefix : WString := wide "\\??\\"

/-- `\SystemRoot\` -/
def systemRootPrefix : WString := wide "\\SystemRoot\\"

/-- The path with a variable for the system's directory. -/
def expanded (path : WString) : WString := wide "%SystemRoot%\\" ++ path.drop 12

/-- The name of a module is its whole path, without `\??\` and with the system's directory. -/
structure NameKept (cfg : Config) (cb : Callback) : Prop where
  nt : ntPrefix <+: cb.me32.szExePath → moduleName cfg cb = cb.me32.szExePath.drop 4
  systemRoot : systemRootPrefix <+: cb.me32.szExePath →
    moduleName cfg cb = cb.calls.expandEnvironmentStrings (expanded cb.me32.szExePath)
  other : ¬ntPrefix <+: cb.me32.szExePath → ¬systemRootPrefix <+: cb.me32.szExePath →
    moduleName cfg cb = cb.me32.szExePath

/-! ## The two beginnings -/

/-- A comparison over the whole length of its second argument tests for a prefix, too. -/
lemma wcsncmpEq_iff {path start : WString} {n : ℕ} (hn : start.length = n) :
    wcsncmpEq path start n = true ↔ start <+: path := by
  rw [← hn, ← wcsncmpEq_length, wcsncmpEq, wcsncmpEq, beq_iff_eq, beq_iff_eq]
  exact eq_comm

/-- A path begins in one of the ways only. -/
lemma not_systemRoot_of_nt {path : WString} (h : ntPrefix <+: path) :
    ¬systemRootPrefix <+: path := by
  intro hroot
  rcases List.prefix_or_prefix_of_prefix h hroot with hle | hle
  · exact absurd hle (by decide)
  · exact absurd hle (by decide)

/-- The limit of `_tcsnccat`, a `size_t` that wraps below zero. -/
def appendLimit (maxPath length : ℕ) : ℕ := (((maxPath : ℤ) - length - 4) % 2 ^ 32).toNat

lemma moduleName_nt (h : ntPrefix <+: cb.me32.szExePath) :
    moduleName cfg cb =
      ((cb.me32.szExePath.drop 4).take
        (appendLimit cfg.build.MAX_PATH cb.me32.szExePath.length)).take cfg.build.MAX_PATH :=
  if_pos ((wcsncmpEq_iff rfl).mpr h)

lemma moduleName_systemRoot (h : systemRootPrefix <+: cb.me32.szExePath) :
    moduleName cfg cb =
      (cb.calls.expandEnvironmentStrings
        ((expanded cb.me32.szExePath).take (cfg.build.MAX_PATH - 1))).take
          cfg.build.MAX_PATH := by
  have hnt : ¬ntPrefix <+: cb.me32.szExePath := fun hnt => not_systemRoot_of_nt hnt h
  have hfirst : ¬wcsncmpEq cb.me32.szExePath (wide "\\??\\") 4 = true :=
    mt (wcsncmpEq_iff rfl).mp hnt
  exact (if_neg hfirst).trans (if_pos ((wcsncmpEq_iff rfl).mpr h))

lemma moduleName_other (hnt : ¬ntPrefix <+: cb.me32.szExePath)
    (hroot : ¬systemRootPrefix <+: cb.me32.szExePath) :
    moduleName cfg cb = cb.me32.szExePath.take cfg.build.MAX_PATH := by
  have hfirst : ¬wcsncmpEq cb.me32.szExePath (wide "\\??\\") 4 = true :=
    mt (wcsncmpEq_iff rfl).mp hnt
  have hsecond : ¬wcsncmpEq cb.me32.szExePath (wide "\\SystemRoot\\") 12 = true :=
    mt (wcsncmpEq_iff rfl).mp hroot
  exact (if_neg hfirst).trans (if_neg hsecond)

/-! ## The whole path -/

/-- The limit shrinks as the path grows, and wraps when there is nothing left of it. -/
lemma appendLimit_le_iff {n : ℕ} (hlo : 4 ≤ n) (hhi : n < 260) :
    n - 4 ≤ min 260 (appendLimit 260 n) ↔ n ≤ 130 ∨ 257 ≤ n := by
  unfold appendLimit
  omega

lemma moduleName_nt_iff (hbuild : cfg.build.MAX_PATH = 260)
    (hlength : cb.me32.szExePath.length < 260) (h : ntPrefix <+: cb.me32.szExePath) :
    moduleName cfg cb = cb.me32.szExePath.drop 4 ↔
      cb.me32.szExePath.length ≤ 130 ∨ 257 ≤ cb.me32.szExePath.length := by
  have hlo : 4 ≤ cb.me32.szExePath.length := h.length_le
  -- the end of the buffer is never in the way, the limit of the copy is
  rw [moduleName_nt h, hbuild, List.take_take, List.take_eq_self_iff, List.length_drop]
  exact appendLimit_le_iff hlo hlength

/-- The last character of the longest path does not fit behind the variable. -/
lemma moduleName_systemRoot_iff (hbuild : cfg.build.MAX_PATH = 260)
    (hexpand : ∀ s, (cb.calls.expandEnvironmentStrings s).length < 260)
    (h : systemRootPrefix <+: cb.me32.szExePath) :
    moduleName cfg cb = cb.calls.expandEnvironmentStrings (expanded cb.me32.szExePath) ↔
      cb.me32.szExePath.length ≤ 258 ∨
        cb.calls.expandEnvironmentStrings ((expanded cb.me32.szExePath).take 259) =
          cb.calls.expandEnvironmentStrings (expanded cb.me32.szExePath) := by
  have hlo : 12 ≤ cb.me32.szExePath.length := h.length_le
  have hlength : (expanded cb.me32.szExePath).length = cb.me32.szExePath.length + 1 := by
    have hwide : (wide "%SystemRoot%\\").length = 13 := rfl
    rw [expanded, List.length_append, List.length_drop, hwide]
    omega
  rw [moduleName_systemRoot h, hbuild, List.take_of_length_le (hexpand _).le]
  constructor
  · exact Or.inr
  · rintro (hshort | heq)
    · rw [List.take_of_length_le (by omega)]
    · exact heq

/-- **The name of a module** is its whole path if and only if, behind `\??\`, the path is one of
the short ones or of the three longest ones, and, behind `\SystemRoot\`, it is not the longest
one, or the system expands the shortened string to the same path. -/
theorem nameKept_iff (cfg : Config) (cb : Callback) (hbuild : cfg.build.MAX_PATH = 260)
    (hlength : cb.me32.szExePath.length < 260)
    (hexpand : ∀ s, (cb.calls.expandEnvironmentStrings s).length < 260) :
    NameKept cfg cb ↔
      (ntPrefix <+: cb.me32.szExePath →
        cb.me32.szExePath.length ≤ 130 ∨ 257 ≤ cb.me32.szExePath.length) ∧
      (systemRootPrefix <+: cb.me32.szExePath →
        cb.me32.szExePath.length ≤ 258 ∨
          cb.calls.expandEnvironmentStrings ((expanded cb.me32.szExePath).take 259) =
            cb.calls.expandEnvironmentStrings (expanded cb.me32.szExePath)) := by
  constructor
  · intro hkept
    constructor
    · intro hnt
      exact (moduleName_nt_iff hbuild hlength hnt).mp (hkept.nt hnt)
    · intro hroot
      exact (moduleName_systemRoot_iff hbuild hexpand hroot).mp (hkept.systemRoot hroot)
  · intro h
    constructor
    · intro hnt
      exact (moduleName_nt_iff hbuild hlength hnt).mpr (h.1 hnt)
    · intro hroot
      exact (moduleName_systemRoot_iff hbuild hexpand hroot).mpr (h.2 hroot)
    · intro hnt hroot
      rw [moduleName_other hnt hroot, hbuild]
      exact List.take_of_length_le hlength.le

/-- The module of a path, where the system expands the variable to `C:\WINDOWS`. -/
def moduleAt (path : WString) : Callback :=
  { sampleCallback true false sampleLocked with
    me32 := { (sampleCallback true false sampleLocked).me32 with szExePath := path }
    calls := { (sampleCallback true false sampleLocked).calls with
      expandEnvironmentStrings := fun s =>
        (if wide "%SystemRoot%" <+: s then wide "C:\\WINDOWS" ++ s.drop 12 else s).take 259 } }

/-- The program of a system process. -/
theorem nameKept_csrss : NameKept (sampleConfig true)
    (moduleAt (wide "\\??\\C:\\WINDOWS\\system32\\csrss.exe")) := by
  refine (nameKept_iff _ _ rfl (by decide) ?_).mpr (by decide)
  intro s
  show (List.take 259 _).length < 260
  rw [List.length_take]
  omega

/-- A path of 131 characters behind `\??\` loses two of them. -/
theorem nameKept_long :
    ¬NameKept (sampleConfig true) (moduleAt (ntPrefix ++ List.replicate 127 97)) ∧
    moduleName (sampleConfig true) (moduleAt (ntPrefix ++ List.replicate 127 97)) =
      List.replicate 125 97 := by
  have hname : moduleName (sampleConfig true) (moduleAt (ntPrefix ++ List.replicate 127 97)) =
      List.replicate 125 97 := by
    decide +kernel
  refine ⟨?_, hname⟩
  intro hkept
  have hwhole := hkept.nt (List.prefix_append _ _)
  rw [hname] at hwhole
  exact absurd hwhole (by decide +kernel)

end ScanMem
end ClamavWin32
