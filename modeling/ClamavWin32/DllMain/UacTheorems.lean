import ClamavWin32.DllMain.Uac
import ClamavWin32.Semantics.QuotedWords

/-!
# The arguments of the elevated process

* `commandLine`: the characters with a meaning for `CommandLineToArgvW`;
* `params_fit`: the string fits the memory allocated for it;
* `elevatedArgs_iff`: the elevated process gets the same arguments if and only if each of them
  stands in the string as it is.

What two quotes within a quoted part mean differs between versions of Windows; what is proved
here holds for each of them.
-/

namespace ClamavWin32
namespace Uac

/-- How `CommandLineToArgvW` reads the arguments behind the name of the program. -/
def commandLine (doubled : DoubledQuote) : Quoting UInt16 where
  blank c := c == 0x20 || c == 0x09
  quote := 0x22
  escape := 0x5C
  doubled := doubled
  not_blank_quote := by decide
  not_blank_escape := by decide
  quote_ne_escape := by decide

/-- An argument that needs no quotes. -/
def Unquoted (arg : WString) : Prop := arg ≠ [] ∧ ∀ c ∈ arg, c ≠ 0x20 ∧ c ≠ 0x09 ∧ c ≠ 0x22

lemma word_iff (doubled : DoubledQuote) (arg : WString) :
    (commandLine doubled).Word arg ↔ Unquoted arg := by
  unfold Quoting.Word Unquoted
  simp [commandLine, and_assoc]

/-- The loop writes the arguments with a space between two of them. -/
lemma appendArgs_eq (params : WString) (args : List WString) :
    appendArgs params args = params ++ [0x20].intercalate args := by
  induction args generalizing params with
  | nil => simp [appendArgs]
  | cons arg rest ih =>
    cases rest with
    | nil => simp [appendArgs]
    | cons arg' rest =>
      rw [appendArgs, ih, List.intercalate_cons_cons, List.append_assoc, List.append_assoc,
        List.append_assoc]
      · exact List.cons_ne_nil _ _

lemma totalLength_eq (args : List WString) :
    totalLength args = (args.map (·.length + 1)).sum := by
  rw [totalLength, ← List.foldl_map, List.sum_eq_foldl]

/-- What is launched if anything is. -/
lemma ensureElevated_launch {calls : ElevationCalls} {argv : List WString} {launch : Launch}
    (hargv : calls.commandLineToArgvW = some argv)
    (hlaunch : (ensureElevated calls).2 = some launch) :
    launch.allocated = totalLength (argv.drop 1) + 1 ∧
    launch.lpParameters = [0x20].intercalate (argv.drop 1) := by
  unfold ensureElevated at hlaunch
  cases hversion : calls.getVersionEx with
  | none => simp [hversion] at hlaunch
  | some dwMajorVersion =>
    simp only [hversion, hargv] at hlaunch
    split_ifs at hlaunch
    rw [Option.some.injEq] at hlaunch
    subst hlaunch
    exact ⟨rfl, appendArgs_eq [] _⟩

/-- **The string fits** its memory, with its terminator. -/
lemma params_fit {calls : ElevationCalls} {argv : List WString} {launch : Launch}
    (hargv : calls.commandLineToArgvW = some argv)
    (hlaunch : (ensureElevated calls).2 = some launch) :
    launch.lpParameters.length + 1 ≤ launch.allocated := by
  obtain ⟨hallocated, hparams⟩ := ensureElevated_launch hargv hlaunch
  rw [hallocated, hparams]
  by_cases hargs : argv.drop 1 = []
  · rw [hargs]
    rfl
  · rw [Quoting.length_intercalate 0x20 hargs, totalLength_eq]
    exact Nat.le_succ _

/-- **The arguments of the elevated process** are those of this one, in a string that fits its
memory, if and only if none is empty or has a space, a tab or a quote in it. -/
theorem elevatedArgs_iff (doubled : DoubledQuote) (calls : ElevationCalls)
    (argv : List WString) (launch : Launch) (hargv : calls.commandLineToArgvW = some argv)
    (hlaunch : (ensureElevated calls).2 = some launch) :
    ((commandLine doubled).split launch.lpParameters = argv.drop 1 ∧
      launch.lpParameters.length + 1 ≤ launch.allocated) ↔
    ∀ arg ∈ argv.drop 1, Unquoted arg := by
  rw [and_iff_left (params_fit hargv hlaunch), (ensureElevated_launch hargv hlaunch).2,
    Quoting.split_intercalate_iff (by rfl)]
  simp only [word_iff]

/-- Answers to a process with the given arguments that is not elevated. -/
def launching (argv : List WString) : ElevationCalls := ⟨some 10, false, true, some argv, true⟩

/-- A service is installed with one argument. -/
theorem elevatedArgs_install :
    (commandLine .begins).split (wide "--install-service") = [wide "--install-service"] :=
  ((elevatedArgs_iff .begins (launching [wide "clamd.exe", wide "--install-service"])
    [wide "clamd.exe", wide "--install-service"] ⟨19, wide "--install-service"⟩ rfl
    (by decide)).mpr (by simp [Unquoted, wide])).1

/-- A path with a space becomes two arguments. -/
theorem elevatedArgs_space :
    (ensureElevated (launching [wide "clamd.exe", wide "-c", wide "C:\\My Docs\\a.conf"])).2 =
      some ⟨22, wide "-c C:\\My Docs\\a.conf"⟩ ∧
    ∀ doubled, (commandLine doubled).split (wide "-c C:\\My Docs\\a.conf") ≠
      [wide "-c", wide "C:\\My Docs\\a.conf"] := by
  refine ⟨by decide, fun doubled => ?_⟩
  have hsplit : (commandLine doubled).split (wide "-c C:\\My Docs\\a.conf") =
      [wide "-c", wide "C:\\My", wide "Docs\\a.conf"] := by
    cases doubled with
    | begins => decide
    | literal goesOn => cases goesOn <;> decide
  rw [hsplit]
  decide

end Uac
end ClamavWin32
