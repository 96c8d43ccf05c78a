import ClamavWin32.Win32

/-!
# Starting again with elevated rights

`EnsureElevated` of `src/dllmain/uac.c`, up to its call of `ShellExecuteEx`: a process that is
not elevated starts itself again, and hands the elevated one its own arguments in one string.

What the calls of the function return is a record of its own.
-/

namespace ClamavWin32
namespace Uac

/-- What is answered to the calls of `EnsureElevated`. -/
structure ElevationCalls where
  /-- `dwMajorVersion`, `none` if `GetVersionEx` fails. -/
  getVersionEx : Option ℕ
  isProcessElevated : Bool
  getModuleFileName : Bool
  /-- The arguments of the process, the name of the program first. -/
  commandLineToArgvW : Option (List WString)
  malloc : Bool
  deriving DecidableEq, Repr

/-- What `ShellExecuteEx` is called with, and the characters that are allocated for it. -/
structure Launch where
  allocated : ℕ
  lpParameters : WString
  deriving DecidableEq, Repr

/-- The loop that adds up the lengths. -/
def totalLength (args : List WString) : ℕ :=
  args.foldl (fun totalLength arg => totalLength + (arg.length + 1)) 0

/-- The loop that appends the arguments to `params`, with a space behind each but the last. -/
def appendArgs (params : WString) : List WString → WString
  | [] => params
  | [arg] => params ++ arg
  | arg :: rest => appendArgs (params ++ arg ++ [0x20]) rest

/-- `EnsureElevated`: whether the caller goes on in this process, and what is launched if
not. -/
def ensureElevated (calls : ElevationCalls) : Bool × Option Launch :=
  match calls.getVersionEx with
  | none => (true, none)
  | some dwMajorVersion =>
    if dwMajorVersion < 6 then (true, none)
    else if calls.isProcessElevated then (true, none)
    else if !calls.getModuleFileName then (false, none)
    else
      match calls.commandLineToArgvW with
      | none => (false, none)
      | some argv =>
        let args := argv.drop 1
        if !calls.malloc then (false, none)
        else
          (false, some
            { allocated := totalLength args + 1
              lpParameters := appendArgs [] args })

end Uac
end ClamavWin32
