import ClamavWin32.FinalPath.FinalPathNameTheorems
import Mathlib.Data.Nat.Find

/-!
# The retry loops

`BasepGetVolumeGUIDFromNTName` and `BasepGetVolumeDosLetterNameFromNTName` repeat their
`DeviceIoControl` with a larger buffer for as long as the last error is `ERROR_MORE_DATA`. A
call that succeeds does not set the last error, so what the loops read may be that of an
earlier call.

* `ioctlRounds` is `ioctlLoop` with its rounds in order.
* A `Device` fails for a buffer that is too small, and tells in it which size it needs.
* `stopsAtFirstSuccess_iff` says for which devices the loops end with the first call that
  succeeds.
-/

namespace ClamavWin32
namespace FinalPath

/-! ## The rounds of a loop -/

/-- What happens in one round of a loop. -/
inductive Round where
  | allocationFails
  | fails
  | succeeds
  deriving DecidableEq, Repr

/-- The rounds of `ioctlLoop`, from a round on. -/
def ioctlRounds {α : Type*} (rtlAllocateHeap : ℕ → Bool) (ask : ℕ → Ioctl α) :
    ℕ → ℕ → Option (List Round)
  | 0, _ => none
  | n + 1, round =>
    if !rtlAllocateHeap round then some [.allocationFails]
    else
      let answer := ask round
      let this : Round := if answer.success then .succeeds else .fails
      if answer.lastError = ERROR_MORE_DATA then
        (ioctlRounds rtlAllocateHeap ask n (round + 1)).map (this :: ·)
      else some [this]

/-- The loop ends, and no round but its last one succeeds. -/
def StopsAtFirstSuccess (loop : ℕ → Option (List Round)) : Prop :=
  ∃ n rounds, loop n = some rounds ∧ Round.succeeds ∉ rounds.dropLast

/-! ## Devices -/

/-- What a device does with a request for an output. -/
structure Device (α : Type*) where
  /-- The size of the smallest buffer that a request succeeds with. -/
  required : ℕ
  /-- The size it stores in a buffer that is too small. -/
  requiredSize : UInt32
  /-- The size it stores with the output. -/
  outputSize : UInt32
  output : α

/-- The last error and the size of the buffer when `DeviceIoControl` is called. -/
structure Request where
  lastError : ErrorCode
  size : UInt32
  deriving DecidableEq, Repr

/-- The loop of a function: the block it allocates, the size of the buffer in the first round,
and what it adds to the size that the device stores. -/
structure RetryLoop where
  allocation : Allocation
  nOutBufferSize : UInt32
  header : UInt32

/-- `sizeof (MOUNTMGR_MOUNT_POINT)` -/
def sizeofMountPoint : UInt32 := 24

/-- `sizeof (MOUNTMGR_MOUNT_POINTS)` -/
def sizeofMountPoints : UInt32 := 32

/-- `sizeof (FILE_NAME_INFORMATION)` -/
def sizeofFileNameInformation : UInt32 := 8

/-- The loop of `BasepGetVolumeGUIDFromNTName`. -/
def volumeGUIDLoop : RetryLoop where
  allocation := .MountPoints
  nOutBufferSize := sizeofMountPoints + 10 * (40 + sizeofMountPoint)
  header := sizeofMountPoint

/-- The loop of `BasepGetVolumeDosLetterNameFromNTName`, whose buffer begins behind the room
for a prefix. -/
def dosLetterLoop : RetryLoop where
  allocation := .Buffer
  nOutBufferSize := sizeofFileNameInformation + 260 * 2
  header := sizeofFileNameInformation

section Device

variable {α : Type*} (device : Device α) (loop : RetryLoop) (lastError : ErrorCode)

/-- The request of a round, where `lastError` is the last error before the loop. -/
def Device.request : ℕ → Request
  | 0 => ⟨lastError, loop.nOutBufferSize⟩
  | round + 1 =>
    let request := Device.request round
    if device.required ≤ request.size.toNat then
      ⟨request.lastError, device.outputSize + loop.header⟩
    else ⟨ERROR_MORE_DATA, device.requiredSize + loop.header⟩

/-- The answer to the request of a round. -/
def Device.answer (round : ℕ) : Ioctl α where
  success := device.required ≤ (device.request loop lastError round).size.toNat
  lastError := (device.request loop lastError (round + 1)).lastError
  output := device.output

/-- The rounds of a loop with a device. -/
def RetryLoop.rounds (env : Environment) (n : ℕ) : Option (List Round) :=
  ioctlRounds (env.rtlAllocateHeap loop.allocation) (device.answer loop lastError) n 0

/-- The first buffer is large enough and the last error is not one to go on for, or a block is
not allocated before the device has succeeded. -/
def EndsInTime (env : Environment) : Prop :=
  (device.required ≤ loop.nOutBufferSize.toNat ∧ lastError ≠ ERROR_MORE_DATA) ∨
    ∃ round, env.rtlAllocateHeap loop.allocation round = false ∧
      (0 < round → loop.nOutBufferSize.toNat < device.required) ∧
      (1 < round → (device.requiredSize + loop.header).toNat < device.required)

end Device

/-! ## The loops of the model -/

section Loops

variable {α : Type*} {env : Environment} {ask : ℕ → Ioctl α}

/-- A loop that yields a result has only finitely many rounds. -/
lemma ioctlRounds_of_ioctlLoop {allocation : Allocation} {n round : ℕ} {success : Bool}
    {result : Except ErrorCode α}
    (h : ioctlLoop env allocation ask n round success = some result) :
    ∃ rounds, ioctlRounds (env.rtlAllocateHeap allocation) ask n round = some rounds := by
  induction n generalizing round success with
  | zero => cases h
  | succ n ih =>
    rw [ioctlLoop] at h
    rw [ioctlRounds]
    by_cases halloc : (!env.rtlAllocateHeap allocation round) = true
    · rw [if_pos halloc]
      exact ⟨_, rfl⟩
    · rw [if_neg halloc] at h ⊢
      by_cases hmore : (ask round).lastError = ERROR_MORE_DATA
      · simp only [if_pos hmore] at h ⊢
        obtain ⟨rounds, hrounds⟩ := ih h
        rw [hrounds]
        exact ⟨_, rfl⟩
      · simp only [if_neg hmore]
        exact ⟨_, rfl⟩

/-- `BasepGetVolumeGUIDFromNTName` returns only if its loop ends. -/
lemma volumeGUIDLoop_ends {device : Device (List (List UInt16))} {lastError : ErrorCode}
    {n : ℕ} {src : WString} {result : Except ErrorCode (Option WString)}
    (hversion : 5 ≤ env.majorVersion) (hcreate : env.createFile = true)
    (halloc : env.rtlAllocateHeap .MountPoint 0 = true)
    (hdevice : env.queryPoints src = device.answer volumeGUIDLoop lastError)
    (h : basepGetVolumeGUIDFromNTName env n src = some result) :
    ∃ rounds, volumeGUIDLoop.rounds device lastError env n = some rounds := by
  rw [basepGetVolumeGUIDFromNTName, if_neg (by omega), hcreate, halloc] at h
  simp only [Bool.not_true, Bool.false_eq_true, if_false] at h
  rw [hdevice] at h
  cases hloop : ioctlLoop env .MountPoints (device.answer volumeGUIDLoop lastError) n 0 false with
  | none =>
    rw [hloop] at h
    cases h
  | some result => exact ioctlRounds_of_ioctlLoop hloop

/-- `BasepGetVolumeDosLetterNameFromNTName` returns only if its loop ends, where it asks the
mount manager. -/
lemma dosLetterLoop_ends {device : Device (List UInt16)} {lastError : ErrorCode} {n : ℕ}
    {src : WString} {result : Except ErrorCode WString}
    (hmup : wcsnicmpEq src (wide "\\Device\\Mup") 11 = false)
    (hsymlink : wcsnicmpEq src (wide "\\??\\") 4 = false)
    (hversion : 5 ≤ env.majorVersion) (hcreate : env.createFile = true)
    (halloc : env.rtlAllocateHeap .TargetName 0 = true)
    (hdevice : env.queryDosVolumePath src = device.answer dosLetterLoop lastError)
    (h : basepGetVolumeDosLetterNameFromNTName env n src = some result) :
    ∃ rounds, dosLetterLoop.rounds device lastError env n = some rounds := by
  rw [basepGetVolumeDosLetterNameFromNTName, hmup, hsymlink, hcreate, halloc] at h
  simp only [Bool.not_true, Bool.false_eq_true, false_and, if_false] at h
  rw [if_neg (by omega), hdevice] at h
  cases hloop : ioctlLoop env .Buffer (device.answer dosLetterLoop lastError) n 0 false with
  | none =>
    rw [hloop] at h
    cases h
  | some result => exact ioctlRounds_of_ioctlLoop hloop

end Loops

/-! ## When a loop ends -/

section Ends

variable {α : Type*} {rtlAllocateHeap : ℕ → Bool} {ask : ℕ → Ioctl α}

lemma ioctlRounds_ne_nil {n round : ℕ} {rounds : List Round}
    (h : ioctlRounds rtlAllocateHeap ask n round = some rounds) : rounds ≠ [] := by
  cases n with
  | zero => cases h
  | succ n =>
    rw [ioctlRounds] at h
    split at h
    · rw [← Option.some.inj h]
      exact List.cons_ne_nil _ _
    · dsimp only at h
      split at h
      · obtain ⟨later, -, rfl⟩ := Option.map_eq_some_iff.mp h
        exact List.cons_ne_nil _ _
      · rw [← Option.some.inj h]
        exact List.cons_ne_nil _ _

/-- A loop goes on for a round that fails. -/
structure GoesOn (rtlAllocateHeap : ℕ → Bool) (ask : ℕ → Ioctl α) (round : ℕ) : Prop where
  allocated : rtlAllocateHeap round = true
  moreData : (ask round).lastError = ERROR_MORE_DATA
  fails : (ask round).success = false

/-- A loop ends in a round. -/
def EndsIn (rtlAllocateHeap : ℕ → Bool) (ask : ℕ → Ioctl α) (round : ℕ) : Prop :=
  rtlAllocateHeap round = false ∨ (ask round).lastError ≠ ERROR_MORE_DATA

/-- The loop goes on for failing rounds only, up to the one it ends in. -/
lemma ioctlRounds_iff {n round : ℕ} :
    (∃ rounds, ioctlRounds rtlAllocateHeap ask n round = some rounds ∧
        Round.succeeds ∉ rounds.dropLast) ↔
      ∃ k < n, EndsIn rtlAllocateHeap ask (round + k) ∧
        ∀ j < k, GoesOn rtlAllocateHeap ask (round + j) := by
  induction n generalizing round with
  | zero =>
    constructor
    · rintro ⟨rounds, h, -⟩
      cases h
    · rintro ⟨k, hk, -⟩
      omega
  | succ n ih =>
    rw [ioctlRounds]
    by_cases hends : EndsIn rtlAllocateHeap ask round
    · -- the list is a singleton
      apply iff_of_true
      · rcases hends with halloc | hmore
        · rw [halloc]
          exact ⟨_, rfl, List.not_mem_nil⟩
        · simp only [if_neg hmore]
          split
          · exact ⟨_, rfl, List.not_mem_nil⟩
          · exact ⟨_, rfl, List.not_mem_nil⟩
      · exact ⟨0, by omega, hends, fun j hj => absurd hj (by omega)⟩
    · -- the loop goes on, and the rounds that follow count from the next one
      obtain ⟨halloc, hmore⟩ := not_or.mp hends
      rw [Bool.not_eq_false] at halloc
      rw [not_not] at hmore
      rw [halloc]
      simp only [Bool.not_true, Bool.false_eq_true, if_false, if_pos hmore]
      constructor
      · rintro ⟨rounds, h, hfirst⟩
        obtain ⟨later, hlater, rfl⟩ := Option.map_eq_some_iff.mp h
        rw [List.dropLast_cons_of_ne_nil (ioctlRounds_ne_nil hlater), List.mem_cons,
          not_or] at hfirst
        obtain ⟨k, hk, hend, hgo⟩ := ih.mp ⟨later, hlater, hfirst.2⟩
        have hfails : (ask round).success = false := by
          by_contra hsuccess
          rw [Bool.not_eq_false] at hsuccess
          exact hfirst.1 (by rw [if_pos hsuccess])
        refine ⟨k + 1, by omega, ?_, ?_⟩
        · rwa [Nat.add_right_comm, Nat.add_assoc] at hend
        · intro j hj
          cases j with
          | zero => exact ⟨halloc, hmore, hfails⟩
          | succ j =>
            have hj := hgo j (by omega)
            rwa [Nat.add_right_comm, Nat.add_assoc] at hj
      · rintro ⟨k, hk, hend, hgo⟩
        cases k with
        | zero => exact absurd hend hends
        | succ k =>
          obtain ⟨later, hlater, hfirst⟩ := ih.mpr ⟨k, by omega, by
            rwa [Nat.add_right_comm, Nat.add_assoc], by
            intro j hj
            rw [Nat.add_right_comm, Nat.add_assoc]
            exact hgo (j + 1) (by omega)⟩
          rw [hlater]
          refine ⟨_, rfl, ?_⟩
          have hfails : (ask round).success = false := (hgo 0 (by omega)).fails
          rw [List.dropLast_cons_of_ne_nil (ioctlRounds_ne_nil hlater), List.mem_cons, not_or,
            hfails]
          exact ⟨by decide, hfirst⟩

end Ends

section Device

variable {α : Type*} {device : Device α} {loop : RetryLoop} {lastError : ErrorCode}
  {env : Environment}

/-- A call that fails tells that there is more data. -/
lemma request_of_fails {round : ℕ}
    (h : (device.answer loop lastError round).success = false) :
    device.request loop lastError (round + 1) =
      ⟨ERROR_MORE_DATA, device.requiredSize + loop.header⟩ := by
  rw [Device.request]
  exact if_neg (of_decide_eq_false h)

/-- The last error stays once it is `ERROR_MORE_DATA`. -/
lemma moreData_succ {round : ℕ}
    (h : (device.request loop lastError round).lastError = ERROR_MORE_DATA) :
    (device.request loop lastError (round + 1)).lastError = ERROR_MORE_DATA := by
  rw [Device.request]
  split
  · exact h
  · rfl

/-- A loop that has gone on once ends for want of a block. -/
lemma endsIn_of_goesOn {k : ℕ} (hk : 0 < k)
    (hgo : ∀ j < k, (device.answer loop lastError j).success = false)
    (hend : EndsIn (env.rtlAllocateHeap loop.allocation) (device.answer loop lastError) k) :
    env.rtlAllocateHeap loop.allocation k = false := by
  obtain ⟨j, rfl⟩ : ∃ j, k = j + 1 := Nat.exists_eq_succ_of_ne_zero (by omega)
  have hrequest := request_of_fails (hgo j (by omega))
  have hmore : (device.request loop lastError (j + 1)).lastError = ERROR_MORE_DATA := by
    rw [hrequest]
  exact hend.resolve_right fun hne => hne (moreData_succ hmore)

/-- A loop ends in its first round if and only if the block is not allocated, or the call
succeeds and the last error was another one before. -/
lemma endsIn_zero :
    EndsIn (env.rtlAllocateHeap loop.allocation) (device.answer loop lastError) 0 ↔
      env.rtlAllocateHeap loop.allocation 0 = false ∨
        (device.required ≤ loop.nOutBufferSize.toNat ∧ lastError ≠ ERROR_MORE_DATA) := by
  apply or_congr_right
  show (device.request loop lastError 1).lastError ≠ ERROR_MORE_DATA ↔ _
  rw [Device.request, Device.request]
  by_cases hroom : device.required ≤ loop.nOutBufferSize.toNat
  · rw [if_pos hroom]
    exact (and_iff_right hroom).symm
  · rw [if_neg hroom]
    exact iff_of_false (fun h => h rfl) fun h => hroom h.1

/-- The buffers of all rounds before a round are too small, which the first two of them
decide. -/
lemma fails_iff {k : ℕ} :
    (∀ j < k, (device.answer loop lastError j).success = false) ↔
      (0 < k → loop.nOutBufferSize.toNat < device.required) ∧
        (1 < k → (device.requiredSize + loop.header).toNat < device.required) := by
  constructor
  · intro h
    have hfirst (hk : 0 < k) : loop.nOutBufferSize.toNat < device.required :=
      Nat.lt_of_not_le (of_decide_eq_false (h 0 hk))
    refine ⟨hfirst, ?_⟩
    intro hk
    have hsecond := of_decide_eq_false (h 1 hk)
    rw [request_of_fails (h 0 (by omega))] at hsecond
    exact Nat.lt_of_not_le hsecond
  · rintro ⟨hfirst, hlater⟩ j hj
    induction j with
    | zero => exact decide_eq_false (Nat.not_le_of_lt (hfirst hj))
    | succ j ih =>
      apply decide_eq_false
      rw [request_of_fails (ih (by omega))]
      exact Nat.not_le_of_lt (hlater (by omega))

lemma stopsAtFirstSuccess_rounds :
    StopsAtFirstSuccess (loop.rounds device lastError env) ↔
      EndsInTime device loop lastError env := by
  have hends : StopsAtFirstSuccess (loop.rounds device lastError env) ↔
      ∃ k, EndsIn (env.rtlAllocateHeap loop.allocation) (device.answer loop lastError) k ∧
        ∀ j < k, GoesOn (env.rtlAllocateHeap loop.allocation)
          (device.answer loop lastError) j := by
    have hrun (n : ℕ) := @ioctlRounds_iff α (env.rtlAllocateHeap loop.allocation)
      (device.answer loop lastError) n 0
    simp only [Nat.zero_add] at hrun
    constructor
    · rintro ⟨n, h⟩
      obtain ⟨k, -, hk⟩ := (hrun n).mp h
      exact ⟨k, hk⟩
    · rintro ⟨k, hk⟩
      exact ⟨k + 1, (hrun (k + 1)).mpr ⟨k, by omega, hk⟩⟩
  rw [hends, EndsInTime]
  constructor
  · rintro ⟨k, hend, hgo⟩
    have hfails := fails_iff.mp fun j hj => (hgo j hj).fails
    by_cases hk : 0 < k
    · right
      exact ⟨k, endsIn_of_goesOn hk (fun j hj => (hgo j hj).fails) hend, hfails⟩
    · obtain rfl : k = 0 := by omega
      rcases endsIn_zero.mp hend with halloc | hfirst
      · exact Or.inr ⟨0, halloc, hfails⟩
      · exact Or.inl hfirst
  · rintro (hfirst | hblock)
    · exact ⟨0, endsIn_zero.mpr (Or.inr hfirst), fun j hj => absurd hj (by omega)⟩
    · obtain ⟨round, hround, hfails⟩ := hblock
      rw [← fails_iff] at hfails
      -- the loop may end before, with the first block that is not allocated
      have hex : ∃ k, env.rtlAllocateHeap loop.allocation k = false := ⟨round, hround⟩
      have hle : Nat.find hex ≤ round := Nat.find_min' hex hround
      refine ⟨Nat.find hex, Or.inl (Nat.find_spec hex), ?_⟩
      intro j hj
      have hfail := hfails j (by omega)
      constructor
      · exact eq_true_of_ne_false (Nat.find_min hex hj)
      · show (device.request loop lastError (j + 1)).lastError = ERROR_MORE_DATA
        rw [request_of_fails hfail]
      · exact hfail

end Device

/-- A loop that is not ended by what the first call does to the last error has no end, given
enough memory. -/
lemma rounds_eq_none {α : Type*} {device : Device α} {loop : RetryLoop} {lastError : ErrorCode}
    {env : Environment} (hblocks : ∀ round, env.rtlAllocateHeap loop.allocation round = true)
    (hmore : (device.request loop lastError 1).lastError = ERROR_MORE_DATA) (n : ℕ) :
    loop.rounds device lastError env n = none := by
  have hmore (round : ℕ) :
      (device.request loop lastError (round + 1)).lastError = ERROR_MORE_DATA := by
    induction round with
    | zero => exact hmore
    | succ round ih => exact moreData_succ ih
  have hrounds (n round : ℕ) : ioctlRounds (env.rtlAllocateHeap loop.allocation)
      (device.answer loop lastError) n round = none := by
    induction n generalizing round with
    | zero => rfl
    | succ n ih =>
      have hanswer : (device.answer loop lastError round).lastError = ERROR_MORE_DATA :=
        hmore round
      rw [ioctlRounds, hblocks, if_neg (by decide)]
      simp only [if_pos hanswer]
      rw [ih, Option.map_none]
  exact hrounds n 0

/-- **The retry loops** stop at the first call that succeeds if and only if that is the first
one and the last error before it was not `ERROR_MORE_DATA`, or they run out of memory before
any call succeeds. -/
theorem stopsAtFirstSuccess_iff (env : Environment) (points : Device (List (List UInt16)))
    (path : Device (List UInt16)) (lastError : ErrorCode) :
    (StopsAtFirstSuccess (volumeGUIDLoop.rounds points lastError env) ↔
      EndsInTime points volumeGUIDLoop lastError env) ∧
    (StopsAtFirstSuccess (dosLetterLoop.rounds path lastError env) ↔
      EndsInTime path dosLetterLoop lastError env) :=
  ⟨stopsAtFirstSuccess_rounds, stopsAtFirstSuccess_rounds⟩

/-! ## A buffer that is too small -/

/-- A device that needs a buffer of 1000 bytes for its mount points, and says so. -/
def widePoints : Device (List (List UInt16)) := ⟨1000, 1000, 1000, []⟩

/-- A device that needs a buffer of 1000 bytes for a path of 996. -/
def widePath : Device (List UInt16) := ⟨1000, 996, 996, List.replicate 498 97⟩

/-- With enough memory the loops do not end for them, although the second call succeeds. -/
theorem wideDevices_never_stops :
    (widePoints.answer volumeGUIDLoop 0 1).success = true ∧
    (widePath.answer dosLetterLoop 0 1).success = true ∧
    (∀ n, volumeGUIDLoop.rounds widePoints 0 (twoNames fun _ => true) n = none) ∧
    (∀ n, dosLetterLoop.rounds widePath 0 (twoNames fun _ => true) n = none) ∧
    ¬StopsAtFirstSuccess (volumeGUIDLoop.rounds widePoints 0 (twoNames fun _ => true)) ∧
    ¬StopsAtFirstSuccess (dosLetterLoop.rounds widePath 0 (twoNames fun _ => true)) := by
  have hguid (n : ℕ) :
      volumeGUIDLoop.rounds widePoints 0 (twoNames fun _ => true) n = none :=
    rounds_eq_none (fun _ => rfl) rfl n
  have hletter (n : ℕ) :
      dosLetterLoop.rounds widePath 0 (twoNames fun _ => true) n = none :=
    rounds_eq_none (fun _ => rfl) rfl n
  refine ⟨by decide, by decide, hguid, hletter, ?_, ?_⟩
  · rintro ⟨n, rounds, h, -⟩
    rw [hguid] at h
    cases h
  · rintro ⟨n, rounds, h, -⟩
    rw [hletter] at h
    cases h

end FinalPath
end ClamavWin32
