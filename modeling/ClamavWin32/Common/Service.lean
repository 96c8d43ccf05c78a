import ClamavWin32.ScanMem.ScanFile
import ClamavWin32.Semantics.TransitionSystem

/-!
# The service

`src/common/service.c`: what a process that runs as a service tells the service manager, from
`svc_register` on. While it starts, it calls `svc_checkpoint` for each signature that it loads,
and every so many calls the status is reported; the number of them comes from the registry.

* `svc_getcpvalue`: what is read from the registry;
* `svc_checkpoint`, `svc_ready`, `serviceMain`, `serviceCtrlHandler`: the functions, each as what
  it makes of the static variables;
* `step`: the calls of the threads, one after the other, in any order.

A call is one step. What its calls of the system return is an argument of the step.
-/

namespace ClamavWin32
namespace Service

open ScanMem (Build)

/-! ## The registry -/

def REG_DWORD : UInt32 := 4

structure RegistryValue where
  dwType : UInt32
  data : List UInt8
  deriving DecidableEq, Repr

/-- A key that is open: its values by their names. -/
abbrev RegistryKey := WString → Option RegistryValue

/-- `HKEY_LOCAL_MACHINE`: the keys that can be opened, by their paths. -/
abbrev Registry := WString → Option RegistryKey

/-- `RegQueryValueEx`, with a buffer of `vlen` bytes: the type and the data, `none` where it
fails. It does so if the data does not fit. -/
def regQueryValueEx (hKey : RegistryKey) (name : WString) (vlen : ℕ) : Option RegistryValue :=
  (hKey name).bind fun value => if value.data.length ≤ vlen then some value else none

/-- The `DWORD` in so many bytes of memory, the lowest one first. -/
def dword (data : List UInt8) : UInt32 :=
  data.foldr (fun byte rest => rest * 256 + byte.toUInt32) 0

/-- The key of the service. -/
def subkey (build : Build) (name : WString) : WString :=
  (wide "SYSTEM\\CurrentControlSet\\Services\\" ++ name).take (build.MAX_PATH - 1)

/-- `svc_getcpvalue`: the new `checkpoint_every`. -/
def svc_getcpvalue (build : Build) (registry : Registry) (name : WString)
    (checkpoint_every : Int32) : Int32 :=
  match registry (subkey build name) with
  | none => checkpoint_every
  | some hKey =>
    match regQueryValueEx hKey (wide "Checkpoint") 4 with
    | none => checkpoint_every
    | some value =>
      if value.data.length = 4 ∧ value.dwType = REG_DWORD then
        -- an `int` takes the bits of the `DWORD`
        (dword value.data).toInt32
      else checkpoint_every

/-! ## The static variables -/

/-- The values of `dwCurrentState`. -/
inductive CurrentState where
  /-- 0, before `ServiceMain` -/
  | unset
  | SERVICE_STOPPED
  | SERVICE_START_PENDING
  | SERVICE_RUNNING
  deriving DecidableEq, Repr

def SERVICE_WIN32 : UInt32 := 0x30

def SERVICE_ACCEPT_STOP : UInt32 := 1

def SERVICE_ACCEPT_SHUTDOWN : UInt32 := 4

def NO_ERROR : ErrorCode := 0

/-- `SERVICE_STATUS` -/
structure ServiceStatus where
  dwServiceType : UInt32
  dwCurrentState : CurrentState
  dwControlsAccepted : UInt32
  dwWin32ExitCode : ErrorCode
  dwServiceSpecificExitCode : UInt32
  dwCheckPoint : UInt32
  dwWaitHint : UInt32
  deriving DecidableEq, Repr

/-- How the process has ended. -/
inductive Ended where
  | exit (code : ℕ)
  | divisionByZero
  deriving DecidableEq, Repr

structure State where
  svc : ServiceStatus
  checkpoint_every : Int32
  /-- Whether the event is set. -/
  evStart : Bool
  /-- What `SetServiceStatus` was called with, in this order. -/
  reported : List ServiceStatus
  ended : Option Ended
  /-- How often `svc_checkpoint` was called since `ServiceMain` while the service was
  start-pending. No function reads it. -/
  checkpoints : ℕ
  deriving DecidableEq, Repr

/-- The static variables as the process begins. -/
def State.initial : State where
  svc := ⟨0, .unset, 0, 0, 0, 0, 0⟩
  checkpoint_every := 5000
  evStart := false
  reported := []
  ended := none
  checkpoints := 0

/-- `SetServiceStatus (svc_handle, &svc)` -/
def State.setServiceStatus (s : State) : State := { s with reported := s.reported ++ [s.svc] }

def State.exit (s : State) (code : ℕ) : State := { s with ended := some (.exit code) }

def State.Pending (s : State) : Prop := s.svc.dwCurrentState = .SERVICE_START_PENDING

instance (s : State) : Decidable s.Pending := inferInstanceAs (Decidable (_ = _))

/-! ## The functions -/

/-- `svc_register`; the thread that is created runs `ServiceMain`. -/
def svc_register (build : Build) (registry : Registry) (name : WString) (s : State) : State :=
  { s with
    checkpoint_every := svc_getcpvalue build registry name s.checkpoint_every
    evStart := false }

/-- `svc_ready` behind its wait; `status` is what `SetServiceStatus` returns. -/
def svc_ready (s : State) (status : Bool) : State :=
  let svc : ServiceStatus :=
    { s.svc with
      dwCurrentState := .SERVICE_RUNNING
      dwControlsAccepted :=
        s.svc.dwControlsAccepted ||| (SERVICE_ACCEPT_STOP ||| SERVICE_ACCEPT_SHUTDOWN)
      dwCheckPoint := 0 }
  let s := { s with svc := svc }.setServiceStatus
  if !status then s.exit 1 else s

/-- `svc_checkpoint` -/
def svc_checkpoint (s : State) : State :=
  if s.Pending then
    let s :=
      { s with
        svc := { s.svc with dwCheckPoint := s.svc.dwCheckPoint + 1 }
        checkpoints := s.checkpoints + 1 }
    -- the `int` is converted to the unsigned type of the other operand
    let every := s.checkpoint_every.toUInt32
    if every = 0 then { s with ended := some .divisionByZero }
    else if s.svc.dwCheckPoint % every = 0 then s.setServiceStatus
    else s
  else s

def SERVICE_CONTROL_STOP : UInt32 := 1

def SERVICE_CONTROL_SHUTDOWN : UInt32 := 5

/-- `ServiceCtrlHandler`; all other codes, and `SERVICE_CONTROL_INTERROGATE`, are answered with
the status. -/
def serviceCtrlHandler (s : State) (code : UInt32) : State :=
  if code = SERVICE_CONTROL_STOP ∨ code = SERVICE_CONTROL_SHUTDOWN then
    { s with
      svc := { s.svc with
        dwCurrentState := .SERVICE_STOPPED
        dwControlsAccepted :=
          s.svc.dwControlsAccepted &&&
            ~~~(SERVICE_ACCEPT_STOP ||| SERVICE_ACCEPT_SHUTDOWN) } }.setServiceStatus
  else s.setServiceStatus

/-- `ServiceMain` up to its wait for the dispatcher; `registered` and `status` are whether
`RegisterServiceCtrlHandler` and `SetServiceStatus` succeed. -/
def serviceMain (s : State) (registered status : Bool) : State :=
  let svc : ServiceStatus :=
    { dwServiceType := SERVICE_WIN32
      dwCurrentState := .SERVICE_START_PENDING
      dwControlsAccepted := 0
      dwWin32ExitCode := NO_ERROR
      dwServiceSpecificExitCode := 0
      dwCheckPoint := 0
      dwWaitHint := 0 }
  let s := { s with svc := svc, checkpoints := 0 }
  if !registered then s.exit 1
  else
    let s := s.setServiceStatus
    if !status then s.exit 1
    else { s with evStart := true }

/-! ## The calls -/

/-- Which function is called, and what the system answers. -/
inductive Action where
  | svc_checkpoint
  /-- `waitFailed` is whether the wait for the event ends without it. -/
  | svc_ready (waitFailed status : Bool)
  | serviceMain (registered status : Bool)
  | serviceCtrlHandler (code : UInt32)
  /-- `ServiceMain` goes on when the dispatcher has returned. -/
  | dispatcherReturned
  deriving DecidableEq, Repr

/-- A call, where it can be made: the process has not ended, the manager starts the service once
and controls it from then on, and `svc_ready` waits for the start, whether or not its wait
succeeds. -/
def step (s : State) (action : Action) : Option State :=
  if s.ended ≠ none then none
  else
    match action with
    | .svc_checkpoint => some (Service.svc_checkpoint s)
    | .svc_ready waitFailed status =>
      if s.evStart || waitFailed then some (Service.svc_ready s status) else none
    | .serviceMain registered status =>
      if s.evStart then none else some (Service.serviceMain s registered status)
    | .serviceCtrlHandler code =>
      if s.evStart then some (Service.serviceCtrlHandler s code) else none
    | .dispatcherReturned => if s.evStart then some (s.exit 0) else none

end Service
end ClamavWin32
