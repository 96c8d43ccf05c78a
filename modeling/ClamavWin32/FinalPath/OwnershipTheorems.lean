import ClamavWin32.FinalPath.FinalPathLedgerTheorems
import ClamavWin32.FinalPath.NormalizedTheorems

/-!
# What a final path leaves allocated

* `DeviceLeft`, `VolumeLost`, `LongPathLost`: the resources that no variable refers to at the
  end;
* `leaves_volumeGUID`, `leaves_volumeDosLetter`, `leaves_viaLongPath`: what the helpers own
  when they return, and when they have lost something besides;
* `ownsNothing_iff`: when everything is released.
-/

namespace ClamavWin32
namespace FinalPath

open ResourceEvent

variable {env : Environment} {rounds : ℕ} {hFile : Option Addr} {dwFlags : UInt32}
  {events es : List Event} {rest : List Resource} {leaks : Prop}

/-! ## What is lost -/

/-- The mount manager is opened for the letter of a volume, and the block for the name of the
target is not allocated. -/
def DeviceLeft (env : Environment) (src : WString) : Prop :=
  wcsnicmpEq src (wide "\\Device\\Mup") 11 = false ∧
    ¬(wcsnicmpEq src (wide "\\??\\") 4 ∧ src.length = 6 ∧ charAt src 5 = 58 ∧
      env.iswalpha (charAt src 4)) ∧
    5 ≤ env.majorVersion ∧ env.createFile = true ∧ env.rtlAllocateHeap .TargetName 0 = false

/-- Behind the first `V` there is another one, and `A` holds for the first one. -/
def Overwrites (V : ℕ → Prop) (A : ℕ → Bool) : Prop :=
  ∃ i j, i < j ∧ V i ∧ V j ∧ (∀ k < i, ¬V k) ∧ A i = true

/-- The mount manager gives two names of a volume, and the block for the first one is
allocated. -/
def VolumeLost (env : Environment) (rounds : ℕ) (src : WString) : Prop :=
  5 ≤ env.majorVersion ∧ env.createFile = true ∧ env.rtlAllocateHeap .MountPoint 0 = true ∧
    ∃ points, ioctlLoop env .MountPoints (env.queryPoints src) rounds 0 false =
        some (.ok points) ∧
      Overwrites (VolumeAt points) (env.rtlAllocateHeap .VolumeName)

/-- The search for the name of the volume loses something. -/
def VolumeLeaks (env : Environment) (rounds : ℕ) (type : VolumeNameType) (src : WString) :
    Prop :=
  type = .GUID ∧ VolumeLost env rounds src ∨ type = .DOS ∧ DeviceLeft env src

/-- The search for the source of the long path loses something. -/
def SourceLeaks (env : Environment) (rounds : ℕ) (type : VolumeNameType)
    (volume : Option WString) : Prop :=
  type = .NT ∧ ∃ src, volume = some src ∧ (DeviceLeft env src ∨
    ∃ e, basepGetVolumeDosLetterNameFromNTName env rounds src = some (.error e) ∧
      e ≠ ERROR_NOT_ENOUGH_MEMORY ∧ VolumeLost env rounds src)

/-- `GetLongPathNameW` stores a long path. -/
def LongPathLost (env : Environment) (rounds : ℕ) (type : VolumeNameType)
    (volume : Option WString) (opened : WString) : Prop :=
  ∃ source length path, longPathSource env rounds type volume = some (.ok (some source)) ∧
    LongPathIs env source opened length path ∧ length < opened.length + source.length + 1

/-- Something is lost on the way to a final path. -/
def Leaks (env : Environment) (rounds : ℕ) (hFile : Option Addr) (dwFlags : UInt32) : Prop :=
  hFile ≠ none ∧ ∃ type src opened, volumeNameType dwFlags = some type ∧
    queryNames env rounds = some (.ok (src, opened)) ∧
    (VolumeLeaks env rounds type src ∨ NotNormalized env rounds dwFlags ∧
      ∃ volume, volumeName env rounds type src opened = some (.ok volume) ∧
        (SourceLeaks env rounds type volume ∨ LongPathLost env rounds type volume opened))

/-! ## Names -/

/-- The block of a name that is found. -/
def nameBlock : Except ErrorCode Block → List Resource
  | .ok name => [name.resource]
  | .error _ => []

lemma leaves_queryName {allocation : Allocation} {ask : ℕ → NameQuery} {n round : ℕ}
    {result : Except ErrorCode Block}
    (h : queryNameRun env allocation ask n round = some (result, events)) :
    Leaves events (nameBlock result) False := by
  induction n generalizing round result events with
  | zero => cases h
  | succ n ih =>
    rw [queryNameRun] at h
    split at h
    · obtain ⟨rfl, rfl⟩ := Prod.mk.inj (Option.some.inj h)
      exact Leaves.nil
    · dsimp only at h
      split at h
      · -- the block of this round is freed in the next one
        obtain ⟨⟨later, events'⟩, hlater, heq⟩ := Option.map_eq_some_iff.mp h
        obtain ⟨rfl, rfl⟩ := Prod.mk.inj heq
        have hround := releases_pair (Resource.block allocation round)
        exact (ih hlater).after hround
      · split at h
        · obtain ⟨rfl, rfl⟩ := Prod.mk.inj (Option.some.inj h)
          exact (Leaves.nil.acquire _).release
        · obtain ⟨rfl, rfl⟩ := Prod.mk.inj (Option.some.inj h)
          exact Leaves.nil.acquire _

/-- `if (p) RtlFreeHeap(GetProcessHeap(), 0, p)` frees a block that is owned. -/
lemma leaves_freeHeap {resource : Option Resource}
    (h : Leaves es (resource.toList ++ rest) leaks) :
    Leaves (es ++ freeHeap resource) rest leaks := by
  cases resource with
  | none =>
    rw [freeHeap, List.append_nil]
    exact h
  | some resource => exact h.release

/-! ## Requests to the mount manager -/

section Ioctl

variable {α : Type*}

/-- The buffer that there is when the loop ends. -/
def ioctlBuffer : Except (ErrorCode × Option Resource) (α × Resource) → List Resource
  | .ok (_, buffer) => [buffer]
  | .error (_, buffer) => buffer.toList

lemma leaves_ioctlLoop {allocation : Allocation} {ask : ℕ → Ioctl α} {n round : ℕ}
    {success : Bool} {result : Except (ErrorCode × Option Resource) (α × Resource)}
    (h : ioctlLoopRun env allocation ask n round success = some (result, events)) :
    Leaves events (ioctlBuffer result) False := by
  induction n generalizing round success result events with
  | zero => cases h
  | succ n ih =>
    rw [ioctlLoopRun] at h
    split at h
    · split at h
      · cases h
      · obtain ⟨rfl, rfl⟩ := Prod.mk.inj (Option.some.inj h)
        exact Leaves.nil
    · dsimp only at h
      split at h
      · obtain ⟨⟨later, events'⟩, hlater, heq⟩ := Option.map_eq_some_iff.mp h
        obtain ⟨rfl, rfl⟩ := Prod.mk.inj heq
        have hround := releases_pair (Resource.block allocation round)
        exact (ih hlater).after hround
      · split at h
        · obtain ⟨rfl, rfl⟩ := Prod.mk.inj (Option.some.inj h)
          exact Leaves.nil.acquire _
        · obtain ⟨rfl, rfl⟩ := Prod.mk.inj (Option.some.inj h)
          exact Leaves.nil.acquire _

/-- A request with its block, up to where the device is closed. -/
lemma leaves_request {allocation : Allocation} {ask : ℕ → Ioctl α}
    {result : Except (ErrorCode × Option Resource) (α × Resource)}
    (h : ioctlLoopRun env allocation ask rounds 0 false = some (result, events))
    (block : Resource) :
    Leaves ([acquire .device, acquire block] ++ events ++ [release .device])
      (ioctlBuffer result ++ [block]) False := by
  have hopened : Leaves [acquire Resource.device, acquire block] [block, .device] False :=
    (Leaves.nil.acquire _).acquire _
  have hboth := (hopened.append (leaves_ioctlLoop h)).congr (iff_of_eq (or_false False))
  have hmiddle : Leaves ([acquire .device, acquire block] ++ events)
      ((ioctlBuffer result ++ [block]) ++ .device :: []) False := by
    rwa [List.append_assoc]
  have hclosed := hmiddle.release_middle
  rwa [List.append_nil] at hclosed

end Ioctl

/-! ## The name of a volume -/

section Overwrites

variable {V : ℕ → Prop} {A : ℕ → Bool}

lemma overwrites_of_not (hV : ¬V 0) :
    Overwrites V A ↔ Overwrites (fun k => V (k + 1)) (fun k => A (k + 1)) := by
  constructor
  · rintro ⟨i, j, hij, hi, hj, hfirst, hA⟩
    cases i with
    | zero => exact absurd hi hV
    | succ i =>
      obtain ⟨j, rfl⟩ : ∃ k, j = k + 1 := Nat.exists_eq_succ_of_ne_zero (by omega)
      exact ⟨i, j, by omega, hi, hj, fun k hk => hfirst (k + 1) (by omega), hA⟩
  · rintro ⟨i, j, hij, hi, hj, hfirst, hA⟩
    refine ⟨i + 1, j + 1, by omega, hi, hj, ?_, hA⟩
    intro k hk
    cases k with
    | zero => exact hV
    | succ k => exact hfirst k (by omega)

/-- Where there is one at 0, that is the first one. -/
lemma overwrites_of_zero (hV : V 0) : Overwrites V A ↔ A 0 = true ∧ ∃ k, V (k + 1) := by
  constructor
  · rintro ⟨i, j, hij, -, hj, hfirst, hA⟩
    cases i with
    | zero =>
      obtain ⟨j, rfl⟩ : ∃ k, j = k + 1 := Nat.exists_eq_succ_of_ne_zero (by omega)
      exact ⟨hA, j, hj⟩
    | succ i => exact absurd hV (hfirst 0 (by omega))
  · rintro ⟨hA, k, hk⟩
    refine ⟨0, k + 1, by omega, hV, hk, ?_, hA⟩
    intro k hk
    omega

end Overwrites

/-- The block of the name of a volume, if there is one. -/
def volumeBlock (volume : Option Block) : List Resource := (volume.map Block.resource).toList

lemma exists_volumeAt_cons {link : List UInt16} {points : List (List UInt16)} :
    (∃ k, VolumeAt (link :: points) k) ↔
      mountmgrIsVolumeName2 link = true ∨ ∃ k, VolumeAt points k := by
  rw [← Nat.or_exists_add_one, volumeAt_zero]
  rfl

section Scan

variable {i : ℕ} {link : List UInt16} {points : List (List UInt16)} {result result' : Bool}
  {volume volume' : Option Block}

/-- The block for the name that a link gives. -/
def linkBlock (i : ℕ) (link : List UInt16) : Block :=
  ⟨cString (link.set 1 92), .block .VolumeName i⟩

lemma scan_of_not (hvolume : ¬mountmgrIsVolumeName2 link = true) :
    scanMountPointsRun env i (link :: points) result volume =
      scanMountPointsRun env (i + 1) points result volume := by
  rw [scanMountPointsRun, if_pos (by simpa using hvolume)]

lemma scan_of_fails (hvolume : mountmgrIsVolumeName2 link = true)
    (halloc : env.rtlAllocateHeap .VolumeName i = false) :
    scanMountPointsRun env i (link :: points) result volume = (result, none, []) := by
  rw [scanMountPointsRun, hvolume, halloc]
  rfl

lemma scan_of_ok (hvolume : mountmgrIsVolumeName2 link = true)
    (halloc : env.rtlAllocateHeap .VolumeName i = true)
    (h : scanMountPointsRun env i (link :: points) result volume = (result', volume', events)) :
    ∃ events', events = acquire (linkBlock i link).resource :: events' ∧
      scanMountPointsRun env (i + 1) points true (some (linkBlock i link)) =
        (result', volume', events') := by
  rw [scanMountPointsRun, hvolume, halloc] at h
  obtain ⟨rfl, hrest⟩ := Prod.mk.inj h
  obtain ⟨rfl, rfl⟩ := Prod.mk.inj hrest
  exact ⟨_, rfl, rfl⟩

/-- Each further name of a volume takes the place of the one that there is. -/
lemma leaves_scan_some {block : Block} (hes : Leaves es (block.resource :: rest) leaks)
    (h : scanMountPointsRun env i points result (some block) = (result', volume', events)) :
    Leaves (es ++ events) (volumeBlock volume' ++ rest)
      (leaks ∨ ∃ k, VolumeAt points k) := by
  induction points generalizing i result block es events leaks with
  | nil =>
    obtain ⟨-, hrest⟩ := Prod.mk.inj h
    obtain ⟨rfl, rfl⟩ := Prod.mk.inj hrest
    rw [List.append_nil]
    apply hes.congr
    exact (or_iff_left fun ⟨k, link, hlink, _⟩ => by cases hlink).symm
  | cons link points ih =>
    by_cases hvolume : mountmgrIsVolumeName2 link = true
    · have hlost : leaks ∨ ∃ k, VolumeAt (link :: points) k :=
        Or.inr (exists_volumeAt_cons.mpr (Or.inl hvolume))
      cases halloc : env.rtlAllocateHeap .VolumeName i with
      | false =>
        rw [scan_of_fails hvolume halloc] at h
        obtain ⟨-, hrest⟩ := Prod.mk.inj h
        obtain ⟨rfl, rfl⟩ := Prod.mk.inj hrest
        rw [List.append_nil]
        exact hes.loses hlost
      | true =>
        obtain ⟨events', rfl, hlater⟩ := scan_of_ok hvolume halloc h
        have hleaves := ih (hes.lose.acquire _) hlater
        rw [List.append_assoc] at hleaves
        exact hleaves.congr (iff_of_true (Or.inl trivial) hlost)
    · rw [scan_of_not hvolume] at h
      apply (ih hes h).congr
      rw [exists_volumeAt_cons, or_iff_right hvolume]

/-- The first name that is stored takes no place, the ones behind it do. -/
lemma leaves_scan (hes : Leaves es rest False)
    (h : scanMountPointsRun env i points result none = (result', volume', events)) :
    Leaves (es ++ events) (volumeBlock volume' ++ rest)
      (Overwrites (VolumeAt points) fun k => env.rtlAllocateHeap .VolumeName (k + i)) := by
  induction points generalizing i result es events with
  | nil =>
    obtain ⟨-, hrest⟩ := Prod.mk.inj h
    obtain ⟨rfl, rfl⟩ := Prod.mk.inj hrest
    rw [List.append_nil]
    apply hes.congr
    exact (iff_false_intro fun ⟨i, j, _, ⟨link, hlink, _⟩, _⟩ => by cases hlink).symm
  | cons link points ih =>
    by_cases hvolume : mountmgrIsVolumeName2 link = true
    · -- the name of a volume, the first one that is found
      have hfirst := @overwrites_of_zero (VolumeAt (link :: points))
        (fun k => env.rtlAllocateHeap .VolumeName (k + i)) (volumeAt_zero.mpr hvolume)
      rw [Nat.zero_add] at hfirst
      cases halloc : env.rtlAllocateHeap .VolumeName i with
      | false =>
        rw [scan_of_fails hvolume halloc] at h
        obtain ⟨-, hrest⟩ := Prod.mk.inj h
        obtain ⟨rfl, rfl⟩ := Prod.mk.inj hrest
        rw [List.append_nil]
        apply hes.keeps
        rw [hfirst, halloc]
        exact fun h => Bool.false_ne_true h.1
      | true =>
        obtain ⟨events', rfl, hlater⟩ := scan_of_ok hvolume halloc h
        have hleaves := leaves_scan_some (hes.acquire _) hlater
        rw [List.append_assoc] at hleaves
        apply hleaves.congr
        rw [hfirst, and_iff_right halloc, or_iff_right not_false]
        rfl
    · -- the links that are left count from the next one
      have hshift : (fun k => env.rtlAllocateHeap .VolumeName (k + 1 + i)) =
          fun k => env.rtlAllocateHeap .VolumeName (k + (i + 1)) := by
        funext k
        rw [Nat.add_right_comm, Nat.add_assoc]
      rw [scan_of_not hvolume] at h
      apply (ih hes h).congr
      rw [overwrites_of_not fun h => hvolume (volumeAt_zero.mp h), hshift]
      rfl

/-- Without a success there is no name. -/
lemma volume_of_scan_false (hvolume : result = false → volume = none)
    (h : scanMountPointsRun env i points result volume = (false, volume', events)) :
    volume' = none := by
  induction points generalizing i result volume events with
  | nil =>
    obtain ⟨hresult, hrest⟩ := Prod.mk.inj h
    rw [← (Prod.mk.inj hrest).1]
    exact hvolume hresult
  | cons link points ih =>
    by_cases hname : mountmgrIsVolumeName2 link = true
    · cases halloc : env.rtlAllocateHeap .VolumeName i with
      | false =>
        rw [scan_of_fails hname halloc] at h
        exact (Prod.mk.inj (Prod.mk.inj h).2).1.symm
      | true =>
        obtain ⟨events', -, hlater⟩ := scan_of_ok hname halloc h
        exact ih (fun h => by cases h) hlater
    · rw [scan_of_not hname] at h
      exact ih hvolume h

end Scan

/-- The block of a name that is looked for and may be `NULL`. -/
def foundBlock : Except ErrorCode (Option Block) → List Resource
  | .ok volume => volumeBlock volume
  | .error _ => []

/-- **The lookup of the volume GUID** owns the last name that it stored. -/
lemma leaves_volumeGUID {src : WString} {result : Except ErrorCode (Option Block)}
    (h : volumeGUIDRun env rounds src = some (result, events)) :
    Leaves events (foundBlock result) (VolumeLost env rounds src) := by
  rw [volumeGUIDRun] at h
  dsimp only at h
  split at h
  · rename_i hversion
    obtain ⟨rfl, rfl⟩ := Prod.mk.inj (Option.some.inj h)
    exact Leaves.nil.keeps fun hlost => absurd hlost.1 (by omega)
  · rename_i hversion
    split at h
    · rename_i hcreate
      obtain ⟨rfl, rfl⟩ := Prod.mk.inj (Option.some.inj h)
      apply Leaves.nil.keeps
      exact fun hlost => by simp [hlost.2.1] at hcreate
    · rename_i hcreate
      split at h
      · -- here the device is closed
        rename_i halloc
        obtain ⟨rfl, rfl⟩ := Prod.mk.inj (Option.some.inj h)
        apply (Leaves.nil.acquire Resource.device).release.keeps
        exact fun hlost => by simp [hlost.2.2.1] at halloc
      · rename_i halloc
        rw [Bool.not_eq_true, Bool.not_eq_false'] at hcreate halloc
        have hloop := @ioctlLoopRun_fst env _ .MountPoints (env.queryPoints src) rounds 0 false
        split at h
        · cases h
        · rename_i e buffer loop hrun
          obtain ⟨rfl, rfl⟩ := Prod.mk.inj (Option.some.inj h)
          rw [hrun] at hloop
          apply (leaves_freeHeap (leaves_request hrun _).release_middle).keeps
          rintro ⟨-, -, -, points, hpoints, -⟩
          rw [← hloop] at hpoints
          cases hpoints
        · rename_i points buffer loop hrun
          rw [hrun] at hloop
          cases hscan : scanMountPointsRun env 0 points false none with
          | mk succeeded found =>
            obtain ⟨volume, scanned⟩ := found
            rw [hscan] at h
            -- behind the loop the two buffers are freed, and the name stays
            have hscanned := leaves_scan (leaves_request hrun (.block .MountPoint 0)) hscan
            rw [← List.append_assoc] at hscanned
            have hpoint := hscanned.release_middle
            rw [List.append_nil] at hpoint
            have hfreed := hpoint.release_middle
            rw [List.append_nil] at hfreed
            have hlost : Overwrites (VolumeAt points)
                (fun k => env.rtlAllocateHeap .VolumeName (k + 0)) ↔
                VolumeLost env rounds src := by
              constructor
              · intro hover
                exact ⟨by omega, hcreate, halloc, points, hloop.symm, hover⟩
              · rintro ⟨-, -, -, points', hpoints, hover⟩
                obtain rfl := Except.ok.inj (Option.some.inj (hloop.trans hpoints))
                exact hover
            cases succeeded with
            | true =>
              obtain ⟨rfl, rfl⟩ := Prod.mk.inj (Option.some.inj h)
              exact hfreed.congr hlost
            | false =>
              obtain rfl := volume_of_scan_false (fun _ => rfl) hscan
              obtain ⟨rfl, rfl⟩ := Prod.mk.inj (Option.some.inj h)
              exact hfreed.congr hlost

/-- A path that is found for a drive is in its block. -/
lemma leaves_drivePath (result : Except ErrorCode WString) :
    Leaves (drivePathRun result).2 (nameBlock (drivePathRun result).1) False := by
  cases result with
  | error e => exact Leaves.nil
  | ok name => exact Leaves.nil.acquire _

/-- **The lookup of the drive letter** owns the name, and it may leave the device open. -/
lemma leaves_volumeDosLetter {src : WString} {result : Except ErrorCode Block}
    (h : volumeDosLetterRun env rounds src = some (result, events)) :
    Leaves events (nameBlock result) (DeviceLeft env src) := by
  rw [volumeDosLetterRun] at h
  dsimp only at h
  split at h
  · rename_i hmup
    obtain ⟨rfl, rfl⟩ := Prod.mk.inj (Option.some.inj h)
    apply (leaves_drivePath _).keeps
    exact fun hleft => by simp [hleft.1] at hmup
  · rename_i hmup
    split at h
    · rename_i hsymlink
      obtain ⟨rfl, rfl⟩ := Prod.mk.inj (Option.some.inj h)
      apply (leaves_drivePath _).keeps
      exact fun hleft => hleft.2.1 hsymlink
    · rename_i hsymlink
      split at h
      · rename_i hversion
        obtain ⟨rfl, rfl⟩ := Prod.mk.inj (Option.some.inj h)
        apply Leaves.nil.keeps
        exact fun hleft => absurd hleft.2.2.1 (by omega)
      · rename_i hversion
        split at h
        · rename_i hcreate
          obtain ⟨rfl, rfl⟩ := Prod.mk.inj (Option.some.inj h)
          apply Leaves.nil.keeps
          exact fun hleft => by simp [hleft.2.2.2.1] at hcreate
        · rename_i hcreate
          rw [Bool.not_eq_true, Bool.not_eq_false'] at hcreate
          split at h
          · -- nothing refers to the device any longer
            rename_i halloc
            obtain ⟨rfl, rfl⟩ := Prod.mk.inj (Option.some.inj h)
            apply (Leaves.nil.acquire Resource.device).loses
            exact ⟨by simpa using hmup, hsymlink, by omega, hcreate, by simpa using halloc⟩
          · rename_i halloc
            have hkept : ¬DeviceLeft env src :=
              fun hleft => by simp [hleft.2.2.2.2] at halloc
            split at h
            · cases h
            · rename_i e buffer loop hrun
              obtain ⟨rfl, rfl⟩ := Prod.mk.inj (Option.some.inj h)
              exact (leaves_freeHeap (leaves_request hrun _).release_middle).keeps hkept
            · -- the buffer becomes the block of the name, unless that names a volume
              rename_i fileName buffer loop hrun
              have hfreed := (leaves_request hrun (.block .TargetName 0)).release_middle
              split at h
              · obtain ⟨rfl, rfl⟩ := Prod.mk.inj (Option.some.inj h)
                exact hfreed.release.keeps hkept
              · obtain ⟨rfl, rfl⟩ := Prod.mk.inj (Option.some.inj h)
                exact hfreed.keeps hkept

/-! ## GetFinalPathNameByHandleW -/

/-- The block of the object name stays where it is, or it becomes that of the volume name. -/
lemma leaves_volumeName {type : VolumeNameType} {ntObjectName : Block} {fileName : WString}
    {result : Except ErrorCode (Option Block)}
    (hes : Leaves es (ntObjectName.resource :: rest) False)
    (h : volumeNameRun env rounds type ntObjectName fileName = some (result, events)) :
    Leaves (es ++ events)
      (foundBlock result ++ ((keptObject type ntObjectName).toList ++ rest))
      (VolumeLeaks env rounds type ntObjectName.name) := by
  cases type with
  | NT =>
    obtain ⟨rfl, rfl⟩ := Prod.mk.inj (Option.some.inj h)
    rw [List.append_nil]
    apply hes.keeps
    rintro (⟨htype, -⟩ | ⟨htype, -⟩)
    · cases htype
    · cases htype
  | GUID =>
    have hleaks : False ∨ VolumeLost env rounds ntObjectName.name ↔
        VolumeLeaks env rounds .GUID ntObjectName.name := by
      simp [VolumeLeaks]
    rw [volumeNameRun] at h
    split at h
    · rename_i e events' hrun
      obtain ⟨rfl, rfl⟩ := Prod.mk.inj (Option.some.inj h)
      exact (hes.append (leaves_volumeGUID hrun)).congr hleaks
    · exact (hes.append (leaves_volumeGUID h)).congr hleaks
  | DOS =>
    have hleaks : False ∨ DeviceLeft env ntObjectName.name ↔
        VolumeLeaks env rounds .DOS ntObjectName.name := by
      simp [VolumeLeaks]
    rw [volumeNameRun] at h
    split at h
    · cases h
    · rename_i name events' hrun
      obtain ⟨rfl, rfl⟩ := Prod.mk.inj (Option.some.inj h)
      exact (hes.append (leaves_volumeDosLetter hrun)).congr hleaks
    · rename_i e events' hrun
      have hletter := (hes.append (leaves_volumeDosLetter hrun)).congr hleaks
      split at h
      · obtain ⟨rfl, rfl⟩ := Prod.mk.inj (Option.some.inj h)
        exact hletter
      · -- the drives are searched instead
        obtain ⟨rfl, rfl⟩ := Prod.mk.inj (Option.some.inj h)
        have hdrive := hletter.append (leaves_drivePath
          (basepGetVolumeDosLetterNameFromNTNameAndFileName env.drives ntObjectName.name fileName))
        rw [List.append_assoc, or_false] at hdrive
        cases hfound : basepGetVolumeDosLetterNameFromNTNameAndFileName env.drives
            ntObjectName.name fileName with
        | error e =>
          rw [hfound] at hdrive
          exact hdrive
        | ok name =>
          rw [hfound] at hdrive
          exact hdrive

/-- The block of `Dest`. -/
def destBlock : Except ErrorCode (Option WString × Option Resource) → List Resource
  | .ok (_, dest) => dest.toList
  | .error _ => []

lemma sourceLeaks_NT {src : WString} :
    SourceLeaks env rounds .NT (some src) ↔ DeviceLeft env src ∨
      ∃ e, basepGetVolumeDosLetterNameFromNTName env rounds src = some (.error e) ∧
        e ≠ ERROR_NOT_ENOUGH_MEMORY ∧ VolumeLost env rounds src := by
  simp [SourceLeaks]

/-- For another type, or without a name, nothing is looked for. -/
lemma not_sourceLeaks {type : VolumeNameType} {volume : Option WString}
    (h : ∀ src, type = .NT → volume ≠ some src) : ¬SourceLeaks env rounds type volume := by
  rintro ⟨htype, src, hvolume, -⟩
  exact h src htype hvolume

/-- The lookups for the source leave its block, which `Dest` points to. -/
lemma leaves_longPathSource {type : VolumeNameType} {volume : Option WString}
    {result : Except ErrorCode (Option WString × Option Resource)}
    (h : longPathSourceRun env rounds type volume = some (result, events)) :
    Leaves events (destBlock result) (SourceLeaks env rounds type volume) := by
  rw [longPathSourceRun.eq_def] at h
  split at h
  · rename_i srcName
    have hletters := @volumeDosLetterRun_fst env rounds srcName
    split at h
    · cases h
    · rename_i dest events' hrun
      obtain ⟨rfl, rfl⟩ := Prod.mk.inj (Option.some.inj h)
      rw [hrun] at hletters
      apply (leaves_volumeDosLetter hrun).congr
      rw [sourceLeaks_NT, ← hletters]
      exact (or_iff_left fun ⟨e, herror, _⟩ => by cases herror).symm
    · rename_i e events' hrun
      rw [hrun] at hletters
      have hletter := leaves_volumeDosLetter hrun
      split at h
      · rename_i hmemory
        obtain ⟨rfl, rfl⟩ := Prod.mk.inj (Option.some.inj h)
        apply hletter.congr
        rw [sourceLeaks_NT, ← hletters]
        refine (or_iff_left fun ⟨e', herror, hother, _⟩ => ?_).symm
        obtain rfl := Except.error.inj (Option.some.inj herror)
        exact hother hmemory
      · -- the GUID is looked up behind a letter that is not found
        rename_i hother
        have hleaks : DeviceLeft env srcName ∨ VolumeLost env rounds srcName ↔
            SourceLeaks env rounds .NT (some srcName) := by
          rw [sourceLeaks_NT, ← hletters]
          apply or_congr_right
          exact ⟨fun hlost => ⟨e, rfl, hother, hlost⟩, fun ⟨_, _, _, hlost⟩ => hlost⟩
        split at h
        · cases h
        · rename_i e' events'' hguid
          obtain ⟨rfl, rfl⟩ := Prod.mk.inj (Option.some.inj h)
          exact (hletter.append (leaves_volumeGUID hguid)).congr hleaks
        · rename_i events'' hguid
          obtain ⟨rfl, rfl⟩ := Prod.mk.inj (Option.some.inj h)
          exact (hletter.append (leaves_volumeGUID hguid)).congr hleaks
        · rename_i dest events'' hguid
          obtain ⟨rfl, rfl⟩ := Prod.mk.inj (Option.some.inj h)
          exact (hletter.append (leaves_volumeGUID hguid)).congr hleaks
  · rename_i hother
    obtain ⟨rfl, rfl⟩ := Prod.mk.inj (Option.some.inj h)
    apply Leaves.nil.keeps
    exact (not_sourceLeaks fun src htype => hother src htype)

/-- **The way by `GetLongPathNameW`** keeps no block, but it does not free the long path. -/
lemma leaves_viaLongPath {type : VolumeNameType} {volume : Option WString}
    {fileName : WString} {result : Except ErrorCode Found}
    (h : viaLongPathRun env rounds type volume fileName = some (result, events)) :
    Leaves events []
      (SourceLeaks env rounds type volume ∨ LongPathLost env rounds type volume fileName) := by
  have hsource := @longPathSourceRun_fst env rounds type volume
  rw [viaLongPathRun] at h
  dsimp only at h
  split at h
  · cases h
  · rename_i e events' hrun
    obtain ⟨rfl, rfl⟩ := Prod.mk.inj (Option.some.inj h)
    rw [hrun] at hsource
    apply (leaves_longPathSource hrun).congr
    refine (or_iff_left ?_).symm
    rintro ⟨source, length, path, hfound, -⟩
    rw [← hsource] at hfound
    cases hfound
  · cases h
  · rename_i source dest events' hrun
    rw [hrun] at hsource
    have hleaves := leaves_longPathSource hrun
    rw [destBlock, ← List.append_nil dest.toList] at hleaves
    -- the long path is lost where what is asked for the source is stored
    have hlost : LongPathLost env rounds type volume fileName ↔ ∃ length path,
        LongPathIs env source fileName length path ∧
          length < fileName.length + source.length + 1 := by
      constructor
      · rintro ⟨source', length, path, hfound, hlong⟩
        obtain rfl := Option.some.inj (Except.ok.inj (Option.some.inj (hsource.trans hfound)))
        exact ⟨length, path, hlong⟩
      · rintro ⟨length, path, hlong⟩
        exact ⟨source, length, path, hsource.symm, hlong⟩
    rw [hlost]
    have hkept (hno : ∀ length path, LongPathIs env source fileName length path →
        fileName.length + source.length + 1 ≤ length) :
        SourceLeaks env rounds type volume ↔ SourceLeaks env rounds type volume ∨
          ∃ length path, LongPathIs env source fileName length path ∧
            length < fileName.length + source.length + 1 := by
      refine (or_iff_left ?_).symm
      rintro ⟨length, path, hlong, hlength⟩
      exact absurd (hno length path hlong) (Nat.not_le_of_lt hlength)
    split at h
    · rename_i halloc
      obtain ⟨rfl, rfl⟩ := Prod.mk.inj (Option.some.inj h)
      apply (leaves_freeHeap hleaves).congr
      apply hkept
      rintro length path ⟨hallocated, -⟩
      rw [hallocated] at halloc
      cases halloc
    · rename_i halloc
      split at h
      · cases h
      · rename_i hsize
        split at h
        · rename_i e hpath
          obtain ⟨rfl, rfl⟩ := Prod.mk.inj (Option.some.inj h)
          apply (leaves_freeHeap (hleaves.acquire _).release).congr
          apply hkept
          rintro length path ⟨-, -, hfound⟩
          rw [hpath] at hfound
          cases hfound
        · rename_i length path hpath
          split at h
          · rename_i hlonger
            obtain ⟨rfl, rfl⟩ := Prod.mk.inj (Option.some.inj h)
            apply (leaves_freeHeap (hleaves.acquire _).release).congr
            apply hkept
            rintro length' path' ⟨-, -, hfound⟩
            obtain ⟨rfl, -⟩ := Prod.mk.inj (Except.ok.inj (hpath.symm.trans hfound))
            exact hlonger
          · rename_i hshorter
            split at h
            · cases h
            · -- nothing refers to the long path any longer
              obtain ⟨rfl, rfl⟩ := Prod.mk.inj (Option.some.inj h)
              apply leaves_freeHeap
              apply (hleaves.acquire _).loses
              exact Or.inr ⟨length, path, ⟨by simpa using halloc, by omega, hpath⟩, by omega⟩

/-- The block of the name of the file stays where it is, or that of the normalised name takes
its place. -/
lemma leaves_normalize {type : VolumeNameType} {volume : Option WString} {fileName : Block}
    {result : Except ErrorCode Found} {resource : Resource}
    (hes : Leaves es (fileName.resource :: rest) leaks)
    (h : normalizeRun env rounds dwFlags type volume fileName =
      some (result, resource, events)) :
    Leaves (es ++ events) (resource :: rest) (leaks ∨ NotNormalized env rounds dwFlags ∧
      (SourceLeaks env rounds type volume ∨
        LongPathLost env rounds type volume fileName.name)) := by
  have hgiven (hnot : ¬NotNormalized env rounds dwFlags) {P : Prop} :
      leaks ↔ leaks ∨ NotNormalized env rounds dwFlags ∧ P :=
    (or_iff_left fun h => hnot h.1).symm
  have hname := @fileNameInformationRun_fst env rounds .FileNormalizedNameInformation
  rw [normalizeRun] at h
  split at h
  · rename_i hflag
    obtain ⟨rfl, hrest⟩ := Prod.mk.inj (Option.some.inj h)
    obtain ⟨rfl, rfl⟩ := Prod.mk.inj hrest
    rw [List.append_nil]
    apply hes.congr
    apply hgiven
    rintro ⟨hnot, -⟩
    rw [hnot] at hflag
    cases hflag
  · rename_i hflag
    split at h
    · cases h
    · -- the normalized name takes the place of the opened one, which is freed
      rename_i normalizedName events' hrun
      obtain ⟨rfl, hrest⟩ := Prod.mk.inj (Option.some.inj h)
      obtain ⟨rfl, rfl⟩ := Prod.mk.inj hrest
      rw [hrun] at hname
      have hfreed := (hes.append (leaves_queryName hrun)).release_middle
      rw [List.append_assoc] at hfreed
      apply hfreed.congr
      rw [or_false]
      apply hgiven
      rintro ⟨-, e, herror, -⟩
      rw [← hname] at herror
      cases herror
    · -- there is no normalized name
      rename_i e events' hrun
      rw [hrun] at hname
      have hfailed := hes.append (leaves_queryName hrun)
      rw [or_false] at hfailed
      split at h
      · rename_i htolerated
        have hnot : NotNormalized env rounds dwFlags :=
          ⟨by simpa using hflag, e, hname.symm, htolerated⟩
        obtain ⟨⟨result', events''⟩, hlong, heq⟩ := Option.map_eq_some_iff.mp h
        obtain ⟨rfl, hrest⟩ := Prod.mk.inj heq
        obtain ⟨rfl, rfl⟩ := Prod.mk.inj hrest
        have hboth := hfailed.append (leaves_viaLongPath hlong)
        rw [List.append_assoc] at hboth
        apply hboth.congr
        rw [and_iff_right hnot]
      · rename_i htolerated
        obtain ⟨rfl, hrest⟩ := Prod.mk.inj (Option.some.inj h)
        obtain ⟨rfl, rfl⟩ := Prod.mk.inj hrest
        apply hfailed.congr
        apply hgiven
        rintro ⟨-, e', herror, htrue⟩
        obtain rfl := Except.error.inj (Option.some.inj (hname.trans herror))
        exact htolerated htrue

/-- The label `cleanup` frees the blocks that the three variables point to. -/
lemma leaves_cleanup {ntObjectName fileName volume : Option Resource}
    (hes : Leaves es (ntObjectName.toList ++ (fileName.toList ++ volume.toList)) leaks) :
    Leaves (es ++ cleanup ntObjectName fileName volume) [] leaks := by
  have hobject := leaves_freeHeap hes
  have hfile := leaves_freeHeap hobject
  rw [← List.append_nil volume.toList] at hfile
  have hvolume := leaves_freeHeap hfile
  rwa [List.append_assoc, List.append_assoc, ← List.append_assoc (freeHeap ntObjectName)]
    at hvolume

/-- From behind the check of the lengths on nothing is owned in the end. -/
lemma leaves_split {type : VolumeNameType} {ntObjectName fileName : Block}
    {result : Except ErrorCode Found}
    (hes : Leaves es [fileName.resource, ntObjectName.resource] False)
    (h : splitRun env rounds dwFlags type ntObjectName fileName = some (result, events)) :
    Leaves (es ++ events) [] (VolumeLeaks env rounds type ntObjectName.name ∨
      NotNormalized env rounds dwFlags ∧ ∃ volume,
        volumeName env rounds type ntObjectName.name fileName.name = some (.ok volume) ∧
          (SourceLeaks env rounds type volume ∨
            LongPathLost env rounds type volume fileName.name)) := by
  have hname := @volumeNameRun_fst env rounds type ntObjectName fileName.name
  have hobject : Leaves es [ntObjectName.resource, fileName.resource] False :=
    hes.perm (List.Perm.swap _ _ _)
  rw [splitRun] at h
  split at h
  · cases h
  · rename_i e events' hrun
    obtain ⟨rfl, rfl⟩ := Prod.mk.inj (Option.some.inj h)
    rw [hrun] at hname
    have hfreed : Leaves (es ++ events' ++ cleanup (keptObject type ntObjectName)
        (some fileName.resource) none) [] (VolumeLeaks env rounds type ntObjectName.name) :=
      leaves_cleanup (leaves_volumeName hobject hrun)
    rw [List.append_assoc] at hfreed
    apply hfreed.congr
    refine (or_iff_left ?_).symm
    rintro ⟨-, volume, hfound, -⟩
    rw [← hname] at hfound
    cases hfound
  · rename_i volume events' hrun
    rw [hrun] at hname
    have hvolume := leaves_volumeName hobject hrun
    -- the name of the file first, since the normalisation may put another one in its place
    have hfile : Leaves (es ++ events') (fileName.resource ::
        ((keptObject type ntObjectName).toList ++ volumeBlock volume))
        (VolumeLeaks env rounds type ntObjectName.name) := by
      apply hvolume.perm
      apply List.perm_append_comm.trans
      rw [List.append_assoc]
      exact List.perm_middle
    split at h
    · cases h
    · rename_i result' resource events'' hnormalize
      obtain ⟨rfl, rfl⟩ := Prod.mk.inj (Option.some.inj h)
      have hfreed := @leaves_cleanup _ _ _ (some resource) (volume.map Block.resource)
        ((leaves_normalize hfile hnormalize).perm List.perm_middle.symm)
      rw [List.append_assoc, List.append_assoc, ← List.append_assoc events'] at hfreed
      apply hfreed.congr
      apply or_congr_right
      apply and_congr_right
      intro _
      constructor
      · intro hleaks
        exact ⟨_, hname.symm, hleaks⟩
      · rintro ⟨volume', hfound, hleaks⟩
        obtain rfl := Except.ok.inj (Option.some.inj (hname.trans hfound))
        exact hleaks

/-- Where the two names are not found, nothing is lost. -/
lemma not_leaks {e : ErrorCode} (hnames : queryNames env rounds = some (.error e)) :
    ¬Leaks env rounds hFile dwFlags := by
  rintro ⟨-, type, src, opened, -, hok, -⟩
  rw [hnames] at hok
  cases hok

lemma leaks_of_names {handle : Addr} {type : VolumeNameType} {src opened : WString}
    (htype : volumeNameType dwFlags = some type)
    (hnames : queryNames env rounds = some (.ok (src, opened))) :
    Leaks env rounds (some handle) dwFlags ↔
      VolumeLeaks env rounds type src ∨ NotNormalized env rounds dwFlags ∧
        ∃ volume, volumeName env rounds type src opened = some (.ok volume) ∧
          (SourceLeaks env rounds type volume ∨
            LongPathLost env rounds type volume opened) := by
  constructor
  · rintro ⟨-, type', src', opened', htype', hnames', hleaks⟩
    obtain rfl := Option.some.inj (htype.symm.trans htype')
    obtain ⟨rfl, rfl⟩ :=
      Prod.mk.inj (Except.ok.inj (Option.some.inj (hnames.symm.trans hnames')))
    exact hleaks
  · intro hleaks
    exact ⟨Option.some_ne_none handle, type, src, opened, htype, hnames, hleaks⟩

/-- **The search for the path** owns nothing when it returns. -/
lemma leaves_findPath {result : Except ErrorCode Found}
    (h : findPathRun env rounds hFile dwFlags = some (result, events)) :
    Leaves events [] (Leaks env rounds hFile dwFlags) := by
  have hnames := queryNames.eq_1 env rounds
  rw [← objectNTNameRun_fst, ← fileNameInformationRun_fst] at hnames
  rw [findPathRun.eq_def] at h
  split at h
  · obtain ⟨rfl, rfl⟩ := Prod.mk.inj (Option.some.inj h)
    apply Leaves.nil.keeps
    exact fun hleaks => hleaks.1 rfl
  · rename_i htype
    obtain ⟨rfl, rfl⟩ := Prod.mk.inj (Option.some.inj h)
    apply Leaves.nil.keeps
    rintro ⟨-, type, src, opened, hsome, -⟩
    rw [htype] at hsome
    cases hsome
  · rename_i handle type htype
    split at h
    · cases h
    · -- the name of the object is not found
      rename_i e events' hobject
      rw [hobject] at hnames
      obtain ⟨rfl, rfl⟩ := Prod.mk.inj (Option.some.inj h)
      apply (leaves_queryName hobject).keeps
      exact not_leaks hnames
    · rename_i ntObjectName events' hobject
      rw [hobject] at hnames
      have hobjectLeaves := leaves_queryName hobject
      split at h
      · cases h
      · -- the name of the file is not found, and the other one is freed
        rename_i e events'' hfile
        rw [hfile] at hnames
        obtain ⟨rfl, rfl⟩ := Prod.mk.inj (Option.some.inj h)
        have hboth := hobjectLeaves.append (leaves_queryName hfile)
        rw [or_false] at hboth
        exact hboth.release.keeps (not_leaks hnames)
      · rename_i fileName events'' hfile
        rw [hfile] at hnames
        dsimp only [Option.map_some, Except.map] at hnames
        have hboth := hobjectLeaves.append (leaves_queryName hfile)
        rw [or_false] at hboth
        split at h
        · -- the two names are freed in the order in which they were found
          rename_i hbackslash
          rw [if_pos hbackslash] at hnames
          obtain ⟨rfl, rfl⟩ := Prod.mk.inj (Option.some.inj h)
          apply (hboth.perm (List.Perm.swap _ _ _)).release.release.keeps
          exact not_leaks hnames
        · rename_i hbackslash
          split at h
          · cases h
          · rename_i hlength
            rw [if_neg hbackslash, if_neg hlength] at hnames
            obtain ⟨⟨result', later⟩, hsplit, heq⟩ := Option.map_eq_some_iff.mp h
            obtain ⟨rfl, rfl⟩ := Prod.mk.inj heq
            refine Leaves.congr (leaves_split ?_ hsplit) (leaks_of_names htype hnames).symm
            exact hboth

/-- **Ownership.** Everything that is acquired is released exactly once if and only if nothing
is lost on the way. -/
theorem ownsNothing_iff {buffer : List UInt16} {result : Result}
    (h : getFinalPathNameByHandleWRun env rounds hFile buffer dwFlags = some (result, events)) :
    Releases events ↔ ¬Leaks env rounds hFile dwFlags := by
  rw [getFinalPathNameByHandleWRun] at h
  split at h
  · cases h
  · rename_i e events' hpath
    obtain ⟨-, rfl⟩ := Prod.mk.inj (Option.some.inj h)
    exact (leaves_findPath hpath).ownsNothing
  · rename_i length events' hpath
    obtain ⟨-, rfl⟩ := Prod.mk.inj (Option.some.inj h)
    exact (leaves_findPath hpath).ownsNothing
  · rename_i name fileName events' hpath
    obtain ⟨-, rfl⟩ := Prod.mk.inj (Option.some.inj h)
    exact (leaves_findPath hpath).ownsNothing

/-! ## Calls that lose something -/

/-- With everything allocated and the normalised name given, the path of the file is found and
nothing is lost. -/
theorem releases_twoNames : ∃ result events,
    getFinalPathNameByHandleWRun (twoNames fun _ => true) 1 (some 1) (List.replicate 16 0) 0 =
      some (result, events) ∧ result.ret = 8 ∧ Releases events := by
  have hret : (getFinalPathNameByHandleWRun (twoNames fun _ => true) 1 (some 1)
      (List.replicate 16 0) 0).map (fun r => r.1.ret) = some 8 := by decide +kernel
  obtain ⟨⟨result, events⟩, hrun, hresult⟩ := Option.map_eq_some_iff.mp hret
  refine ⟨result, events, hrun, hresult, (ownsNothing_iff hrun).mpr ?_⟩
  rintro ⟨-, type, src, opened, htype, -, hleaks⟩
  obtain rfl := Option.some.inj ((rfl : volumeNameType 0 = some .DOS).symm.trans htype)
  rcases hleaks with (⟨hguid, -⟩ | ⟨-, hleft⟩) | ⟨⟨-, e, hnormalized, -⟩, -⟩
  · cases hguid
  · cases hleft.2.2.2.2
  · cases hnormalized

/-- A system that has no block for the name of the target. -/
def noTargetName : Environment := { twoNames fun _ => true with
  rtlAllocateHeap := fun allocation _ => allocation != .TargetName }

/-- A call that holds a resource when it returns does not release all it acquires. -/
lemma not_releases_of_held {buffer : List UInt16} {resource : Resource}
    (h : (getFinalPathNameByHandleWRun env rounds hFile buffer dwFlags).map
      (fun r => ledger [] r.2) = some (some [resource])) :
    ∃ result events, getFinalPathNameByHandleWRun env rounds hFile buffer dwFlags =
      some (result, events) ∧ ledger [] events = some [resource] ∧ ¬Releases events := by
  obtain ⟨⟨result, events⟩, hrun, hledger⟩ := Option.map_eq_some_iff.mp h
  refine ⟨result, events, hrun, hledger, ?_⟩
  intro hreleases
  rw [Releases, hledger] at hreleases
  cases hreleases

/-- Without normalised names the block for the long path is lost, with two names of the volume
that for the first one, and without memory the device stays open. -/
theorem three_leaks :
    (∃ result events, getFinalPathNameByHandleWRun (programFiles (wide "\\PROGRA~1")) 1 (some 1)
        (List.replicate 24 0) 0 = some (result, events) ∧
      ledger [] events = some [.block .normalizedName 0] ∧ ¬Releases events) ∧
    (∃ result events, getFinalPathNameByHandleWRun (twoNames fun _ => true) 1 (some 1)
        (List.replicate 24 0) VOLUME_NAME_GUID = some (result, events) ∧
      ledger [] events = some [.block .VolumeName 0] ∧ ¬Releases events) ∧
    ∃ result events, getFinalPathNameByHandleWRun noTargetName 1 (some 1)
        (List.replicate 24 0) 0 = some (result, events) ∧
      ledger [] events = some [.device] ∧ ¬Releases events := by
  refine ⟨?_, ?_, ?_⟩
  · exact not_releases_of_held (by decide +kernel)
  · exact not_releases_of_held (by decide +kernel)
  · exact not_releases_of_held (by decide +kernel)

end FinalPath
end ClamavWin32
