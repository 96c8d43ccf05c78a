import ClamavWin32.Common.Service
import Mathlib.Data.Nat.Basic

/-!
# The checkpoints of a service

* `configured`: the interval that the registry asks for;
* `ReportsAt`: a call of `svc_checkpoint` does not divide by zero, and reports the status just if
  its count is a multiple of the interval;
* `Counted`: what the static variables hold in every run, the interval and the counter;
* `reportsAt_iff`: when one call reports as it should, for any count;
* `checkpoints_iff`: when all calls of a run do, where the count is the counter, which has 32 bits,
  and where it is the number of the call.
-/

namespace ClamavWin32
namespace Service

open ScanMem (Build)
open TransitionSystem

variable {build : Build} {registry : Registry} {name : WString} {every : UInt32}
  {s s' : State} {action : Action}

/-! ## The interval -/

/-- The interval that is configured: the `DWORD` in the registry, and 5000 without one. -/
def configured (build : Build) (registry : Registry) (name : WString) : UInt32 :=
  match (registry (subkey build name)).bind fun hKey => hKey (wide "Checkpoint") with
  | none => 5000
  | some value =>
    if value.data.length = 4 ∧ value.dwType = REG_DWORD then dword value.data else 5000

/-- The process as `svc_register` leaves it. -/
def registered (build : Build) (registry : Registry) (name : WString) : State :=
  svc_register build registry name .initial

/-- **What is read** is what is configured, for the values from `2 ^ 31` on, too: the `int` that
holds them is converted back. -/
lemma toUInt32_svc_getcpvalue (build : Build) (registry : Registry) (name : WString) :
    (svc_getcpvalue build registry name 5000).toUInt32 = configured build registry name := by
  unfold svc_getcpvalue configured regQueryValueEx
  cases registry (subkey build name) with
  | none => rfl
  | some hKey =>
    dsimp only [Option.bind_some]
    cases hKey (wide "Checkpoint") with
    | none => rfl
    | some value =>
      dsimp only [Option.bind_some]
      by_cases hfits : value.data.length ≤ 4
      · rw [if_pos hfits]
        dsimp only
        split_ifs
        · exact UInt32.toUInt32_toInt32 (dword value.data)
        · rfl
      · -- a longer value is not read
        have hlong : ¬(value.data.length = 4 ∧ value.dwType = REG_DWORD) :=
          fun h => hfits h.1.le
        rw [if_neg hfits, if_neg hlong]
        rfl

/-! ## One call -/

/-- What is expected of a call of `svc_checkpoint`: it does not divide by zero, and it reports
the status just if the count is a multiple of the interval. -/
structure ReportsAt (interval count : ℕ) (s s' : State) : Prop where
  noDivision : s'.ended ≠ some .divisionByZero
  reported : s'.reported = if interval ∣ count then s.reported ++ [s'.svc] else s.reported

/-- The call adds one to both counts. -/
lemma counts_svc_checkpoint (hpending : s.Pending) :
    (svc_checkpoint s).checkpoints = s.checkpoints + 1 ∧
    (svc_checkpoint s).svc = { s.svc with dwCheckPoint := s.svc.dwCheckPoint + 1 } := by
  rw [svc_checkpoint, if_pos hpending]
  dsimp only
  split_ifs <;> exact ⟨rfl, rfl⟩

/-- The call divides by zero just if the interval is zero. -/
lemma ended_svc_checkpoint (hpending : s.Pending) (hended : s.ended = none) :
    (svc_checkpoint s).ended ≠ some .divisionByZero ↔ s.checkpoint_every.toUInt32 ≠ 0 := by
  rw [svc_checkpoint, if_pos hpending]
  dsimp only
  by_cases hzero : s.checkpoint_every.toUInt32 = 0
  · rw [if_pos hzero]
    exact iff_of_false (fun h => h rfl) fun h => h hzero
  · rw [if_neg hzero]
    refine iff_of_true ?_ hzero
    split_ifs
    · rw [State.setServiceStatus, hended]
      exact nofun
    · rw [hended]
      exact nofun

/-- The call reports the status just if the counter is a multiple of the interval. -/
lemma reported_svc_checkpoint (hpending : s.Pending) (hzero : s.checkpoint_every.toUInt32 ≠ 0) :
    (svc_checkpoint s).reported =
      if s.checkpoint_every.toUInt32.toNat ∣ (svc_checkpoint s).svc.dwCheckPoint.toNat then
        s.reported ++ [(svc_checkpoint s).svc]
      else s.reported := by
  have hcounter := (counts_svc_checkpoint hpending).2
  have hdvd : s.checkpoint_every.toUInt32.toNat ∣ (s.svc.dwCheckPoint + 1).toNat ↔
      (s.svc.dwCheckPoint + 1) % s.checkpoint_every.toUInt32 = 0 := by
    rw [← UInt32.toNat_inj, UInt32.toNat_mod, Nat.dvd_iff_mod_eq_zero]
    rfl
  rw [hcounter]
  rw [svc_checkpoint, if_pos hpending]
  dsimp only
  rw [if_neg hzero]
  simp only [hdvd]
  split_ifs
  · rfl
  · rfl

/-- **One call** reports as it should for a count if and only if the interval is not zero, and
divides the counter just if it divides the count. -/
lemma reportsAt_iff (hpending : s.Pending) (hended : s.ended = none)
    (hevery : s.checkpoint_every.toUInt32 = every) (count : ℕ) :
    ReportsAt every.toNat count s (svc_checkpoint s) ↔
      every ≠ 0 ∧
        (every.toNat ∣ (svc_checkpoint s).svc.dwCheckPoint.toNat ↔ every.toNat ∣ count) := by
  have hdivision := ended_svc_checkpoint hpending hended
  rw [hevery] at hdivision
  -- a report is one status more
  have hmore : s.reported ++ [(svc_checkpoint s).svc] ≠ s.reported := by
    simp
  constructor
  · rintro ⟨hnoDivision, hreported⟩
    have hzero := hdivision.mp hnoDivision
    refine ⟨hzero, ?_⟩
    rw [reported_svc_checkpoint hpending (hevery ▸ hzero), hevery] at hreported
    by_cases hcounter : every.toNat ∣ (svc_checkpoint s).svc.dwCheckPoint.toNat
    · rw [if_pos hcounter] at hreported
      refine iff_of_true hcounter ?_
      by_contra hcount
      rw [if_neg hcount] at hreported
      exact hmore hreported
    · rw [if_neg hcounter] at hreported
      refine iff_of_false hcounter ?_
      intro hcount
      rw [if_pos hcount] at hreported
      exact hmore hreported.symm
  · rintro ⟨hzero, hcounts⟩
    refine ⟨hdivision.mpr hzero, ?_⟩
    rw [reported_svc_checkpoint hpending (hevery ▸ hzero), hevery]
    simp only [hcounts]

/-! ## All calls -/

/-- A condition on the calls of `svc_checkpoint` while the service is start-pending, on the
states before and after them. -/
def AtCheckpoint (P : State → State → Prop) (s : State) (action : Action) (s' : State) : Prop :=
  action = .svc_checkpoint → s.Pending → P s s'

/-- What a step is: one of the functions is called. -/
inductive Called (s : State) : Action → State → Prop where
  | svc_checkpoint : Called s .svc_checkpoint (svc_checkpoint s)
  | svc_ready (waitFailed status : Bool) :
    Called s (.svc_ready waitFailed status) (svc_ready s status)
  | serviceMain (main status : Bool) :
    Called s (.serviceMain main status) (serviceMain s main status)
  | serviceCtrlHandler (code : UInt32) :
    Called s (.serviceCtrlHandler code) (serviceCtrlHandler s code)
  | dispatcherReturned : Called s .dispatcherReturned (s.exit 0)

lemma called_of_step (hstep : step s action = some s') :
    s.ended = none ∧ Called s action s' := by
  unfold step at hstep
  by_cases hended : s.ended = none
  · rw [if_neg (not_not.mpr hended)] at hstep
    refine ⟨hended, ?_⟩
    cases action with
    | svc_checkpoint =>
      obtain rfl := Option.some.inj hstep
      exact .svc_checkpoint
    | svc_ready waitFailed status =>
      dsimp only at hstep
      split_ifs at hstep
      obtain rfl := Option.some.inj hstep
      exact .svc_ready waitFailed status
    | serviceMain main status =>
      dsimp only at hstep
      split_ifs at hstep
      obtain rfl := Option.some.inj hstep
      exact .serviceMain main status
    | serviceCtrlHandler code =>
      dsimp only at hstep
      split_ifs at hstep
      obtain rfl := Option.some.inj hstep
      exact .serviceCtrlHandler code
    | dispatcherReturned =>
      dsimp only at hstep
      split_ifs at hstep
      obtain rfl := Option.some.inj hstep
      exact .dispatcherReturned
  · rw [if_pos hended] at hstep
    cases hstep

/-- No step writes the interval. -/
lemma checkpoint_every_of_step (hstep : step s action = some s') :
    s'.checkpoint_every = s.checkpoint_every := by
  cases (called_of_step hstep).2 with
  | svc_checkpoint =>
    unfold svc_checkpoint
    dsimp only
    split_ifs <;> rfl
  | svc_ready waitFailed status => cases status <;> rfl
  | serviceMain main status => cases main <;> cases status <;> rfl
  | serviceCtrlHandler code =>
    unfold serviceCtrlHandler
    split_ifs <;> rfl
  | dispatcherReturned => rfl

/-- What a step does to the counts: it is a call of `svc_checkpoint` while the service is
start-pending, it starts the service, it leaves that state, or it keeps the counts. -/
inductive Counts (s : State) (action : Action) (s' : State) : Prop where
  | checkpoint (hcall : action = .svc_checkpoint) (hpending : s.Pending)
      (hafter : s' = svc_checkpoint s)
  | starts (hcounter : s'.svc.dwCheckPoint = 0) (hcheckpoints : s'.checkpoints = 0)
  | leaves (hstate : ¬s'.Pending) (hcheckpoints : s'.checkpoints = s.checkpoints)
  | keeps (hsvc : s'.svc = s.svc) (hcheckpoints : s'.checkpoints = s.checkpoints)

lemma counts_of_step (hstep : step s action = some s') : Counts s action s' := by
  cases (called_of_step hstep).2 with
  | svc_checkpoint =>
    by_cases hpending : s.Pending
    · exact .checkpoint rfl hpending rfl
    · have hafter : svc_checkpoint s = s := if_neg hpending
      rw [hafter]
      exact .keeps rfl rfl
  | svc_ready waitFailed status => cases status <;> exact .leaves nofun rfl
  | serviceMain main status => cases main <;> cases status <;> exact .starts rfl rfl
  | serviceCtrlHandler code =>
    unfold serviceCtrlHandler
    split_ifs
    · exact .leaves nofun rfl
    · exact .keeps rfl rfl
  | dispatcherReturned => exact .keeps rfl rfl

/-- What the static variables hold: the interval that is configured, and while the service is
start-pending the number of calls, modulo `2 ^ 32`. -/
structure Counted (every : UInt32) (s : State) : Prop where
  every_eq : s.checkpoint_every.toUInt32 = every
  counter : s.Pending → s.svc.dwCheckPoint.toNat = s.checkpoints % 2 ^ 32

lemma counter_succ (counter : UInt32) : (counter + 1).toNat = (counter.toNat + 1) % 2 ^ 32 := by
  rw [UInt32.toNat_add]
  rfl

/-- **Step lemma.** -/
lemma Counted.step (h : Counted every s) (hstep : step s action = some s') : Counted every s' := by
  refine ⟨(congrArg Int32.toUInt32 (checkpoint_every_of_step hstep)).trans h.every_eq, ?_⟩
  intro hpending'
  cases counts_of_step hstep with
  | checkpoint _ hpending hafter =>
    obtain ⟨hcheckpoints, hsvc⟩ := counts_svc_checkpoint hpending
    rw [hafter, hcheckpoints, hsvc, counter_succ, h.counter hpending]
    omega
  | starts hcounter hcheckpoints =>
    rw [hcounter, hcheckpoints]
    rfl
  | leaves hstate _ => exact absurd hpending' hstate
  | keeps hsvc hcheckpoints =>
    have hpending : s.Pending := by
      rw [State.Pending, ← hsvc]
      exact hpending'
    rw [hsvc, hcheckpoints]
    exact h.counter hpending

/-- **Run lemma.** -/
lemma counted_registered (build : Build) (registry : Registry) (name : WString)
    (actions : List Action) :
    EveryState step (Counted (configured build registry name)) (registered build registry name)
      actions := by
  apply everyState_of_invariant
  · intro s action s' h hstep
    exact h.step hstep
  · refine ⟨toUInt32_svc_getcpvalue build registry name, ?_⟩
    exact nofun

/-- A call of a run, as what it does to the counts. -/
lemma atCheckpoint_iff {P Q : State → State → Prop} (hstep : step s action = some s')
    (hiff : s.ended = none → s.Pending → s' = svc_checkpoint s → (P s s' ↔ Q s s')) :
    AtCheckpoint P s action s' ↔ AtCheckpoint Q s action s' := by
  apply forall_congr'
  intro hcall
  apply forall_congr'
  intro hpending
  subst hcall
  obtain ⟨hended, hcalled⟩ := called_of_step hstep
  cases hcalled with
  | svc_checkpoint => exact hiff hended hpending rfl

/-- The counter is a multiple of the interval where the number of the call is one, before the
counter wraps, and for ever if the interval divides `2 ^ 32`. -/
lemma dvd_mod_iff {interval n : ℕ} (h : n < 2 ^ 32 ∨ interval ∣ 2 ^ 32) :
    interval ∣ n % 2 ^ 32 ↔ interval ∣ n := by
  rcases h with hlt | hdvd
  · rw [Nat.mod_eq_of_lt hlt]
  · exact Nat.dvd_mod_iff hdvd

/-- The calls come to the number `2 ^ 32` one by one: if none has it, all have smaller ones. -/
lemma lt_of_ne_wrap {start : State} {actions : List Action} (hstart : start.checkpoints < 2 ^ 32)
    (h : EveryStep step (AtCheckpoint fun s _ => s.checkpoints + 1 ≠ 2 ^ 32) start actions) :
    EveryStep step (AtCheckpoint fun s _ => s.checkpoints + 1 < 2 ^ 32) start actions := by
  have hbound : EveryState step (fun s => s.checkpoints < 2 ^ 32) start actions := by
    refine EveryStep.everyState ?_ h hstart
    intro s action s' hs hne hstep
    cases counts_of_step hstep with
    | checkpoint hcall hpending hafter =>
      have hnext := hne hcall hpending
      rw [hafter, (counts_svc_checkpoint hpending).1]
      omega
    | starts _ hcheckpoints =>
      rw [hcheckpoints]
      decide
    | leaves _ hcheckpoints | keeps _ hcheckpoints =>
      rw [hcheckpoints]
      exact hs
  refine h.imp ?_ hbound
  intro s action s' hs hne _ hcall hpending
  have hnext := hne hcall hpending
  omega

/-- The counter shows the multiples of the interval at every call just if it does not wrap, or
wraps at one of them. -/
lemma multiples_iff {start : State} {actions : List Action} {interval : ℕ}
    (hstart : start.checkpoints < 2 ^ 32) :
    EveryStep step (AtCheckpoint fun s _ => interval ≠ 0 ∧
      (interval ∣ (s.checkpoints + 1) % 2 ^ 32 ↔ interval ∣ s.checkpoints + 1)) start actions ↔
    EveryStep step (AtCheckpoint fun s _ => interval ≠ 0 ∧
      (s.checkpoints + 1 < 2 ^ 32 ∨ interval ∣ 2 ^ 32)) start actions := by
  constructor
  · intro h
    by_cases hdvd : interval ∣ 2 ^ 32
    · refine h.mono ?_
      intro s action s' hok hcall hpending
      exact ⟨(hok hcall hpending).1, Or.inr hdvd⟩
    · -- at the number `2 ^ 32` the counter is 0, and a multiple of everything
      have hne : EveryStep step (AtCheckpoint fun s _ => s.checkpoints + 1 ≠ 2 ^ 32) start
          actions := by
        refine h.mono ?_
        intro s action s' hok hcall hpending heq
        have hiff := (hok hcall hpending).2
        rw [heq, Nat.mod_self] at hiff
        exact hdvd (hiff.mp (Nat.dvd_zero interval))
      refine (h.and (lt_of_ne_wrap hstart hne)).mono ?_
      intro s action s' hok hcall hpending
      exact ⟨(hok.1 hcall hpending).1, Or.inl (hok.2 hcall hpending)⟩
  · intro h
    refine h.mono ?_
    intro s action s' hok hcall hpending
    exact ⟨(hok hcall hpending).1, dvd_mod_iff (hok hcall hpending).2⟩

/-- **The checkpoints** of every run of a service. Where the count of a call is the counter, all
calls report as they should if and only if the configured interval is not zero. Where it is the
number of the call, they do if and only if, moreover, there are fewer than `2 ^ 32` of them or the
interval divides `2 ^ 32`. -/
theorem checkpoints_iff (build : Build) (registry : Registry) (name : WString)
    (actions : List Action) :
    (EveryStep step (AtCheckpoint fun s s' =>
        ReportsAt (configured build registry name).toNat s'.svc.dwCheckPoint.toNat s s')
        (registered build registry name) actions ↔
      EveryStep step (AtCheckpoint fun _ _ => (configured build registry name).toNat ≠ 0)
        (registered build registry name) actions) ∧
    (EveryStep step (AtCheckpoint fun s s' =>
        ReportsAt (configured build registry name).toNat s'.checkpoints s s')
        (registered build registry name) actions ↔
      EveryStep step (AtCheckpoint fun s _ => (configured build registry name).toNat ≠ 0 ∧
        (s.checkpoints + 1 < 2 ^ 32 ∨ (configured build registry name).toNat ∣ 2 ^ 32))
        (registered build registry name) actions) := by
  have hcounted := counted_registered build registry name actions
  have hzero : (configured build registry name).toNat ≠ 0 ↔ configured build registry name ≠ 0 := by
    rw [Ne, Ne, ← UInt32.toNat_inj]
    rfl
  constructor
  · apply hcounted.everyStep_congr
    intro s action s' h hstep
    apply atCheckpoint_iff hstep
    rintro hended hpending rfl
    rw [reportsAt_iff hpending hended h.every_eq, hzero]
    exact and_iff_left Iff.rfl
  · have hstart : (registered build registry name).checkpoints < 2 ^ 32 := Nat.two_pow_pos 32
    rw [← multiples_iff hstart]
    apply hcounted.everyStep_congr
    intro s action s' h hstep
    have hstep' := h.step hstep
    apply atCheckpoint_iff hstep
    rintro hended hpending rfl
    obtain ⟨hcheckpoints, hsvc⟩ := counts_svc_checkpoint hpending
    rw [reportsAt_iff hpending hended h.every_eq, hzero, hcheckpoints, hsvc, counter_succ,
      h.counter hpending, Nat.mod_add_mod]

/-! ## An interval of zero -/

/-- The registry with a `DWORD` in the value `Checkpoint` of every service. -/
def storing (data : List UInt8) : Registry := fun _ =>
  some fun value => if value = wide "Checkpoint" then some ⟨REG_DWORD, data⟩ else none

/-- The first call while the service starts divides by zero. -/
theorem checkpoints_zero :
    configured .vista (storing [0, 0, 0, 0]) (wide "ClamD") = 0 ∧
    (run step (registered .vista (storing [0, 0, 0, 0]) (wide "ClamD"))
      [.serviceMain true true, .svc_checkpoint]).map State.ended = some (some .divisionByZero) ∧
    ¬EveryStep step (AtCheckpoint fun s s' => ReportsAt 0 s'.svc.dwCheckPoint.toNat s s')
      (registered .vista (storing [0, 0, 0, 0]) (wide "ClamD"))
      [.serviceMain true true, .svc_checkpoint] := by
  refine ⟨by decide, by decide, ?_⟩
  intro h
  have hreports := (h _ rfl).2 _ rfl
  exact (hreports.1 rfl rfl).noDivision (by decide)

end Service
end ClamavWin32
