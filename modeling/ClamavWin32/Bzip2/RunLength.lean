import ClamavWin32.Bzip2.Crc
import ClamavWin32.Semantics.ForLoop

/-!
# Run lengths

How `src/3rdparty/bzip2/bzlib.c` collects the input into a block, with the runs of a byte shortened,
and how it writes a decoded block out again, into as much room as there is.

* `BlockState`: what is collected, with `add_pair_to_block`, `flush_RL` and `ADD_CHAR_TO_BLOCK`;
* `unRLE_obuf_to_output`: the loop of `unRLE_obuf_to_output_SMALL`, and of
  `unRLE_obuf_to_output_FAST` for a block that is randomised;
* `unRLE_obuf_to_output_FAST`: the loop for one that is not.

A read from the block is a parameter: `BZ_GET_FAST` and `BZ_GET_SMALL` are two of them.
-/

namespace ClamavWin32
namespace Bzip2

/-! ## Into a block -/

/-- The fields of `EState` that a block is collected in. `block` is what is there of it, up to
`nblock`. -/
structure BlockState where
  state_in_ch : ℕ
  state_in_len : ℕ
  block : List UInt8
  inUse : ℕ → Bool
  blockCRC : BitVec 32

def BlockState.nblock (s : BlockState) : ℕ := s.block.length

def BlockState.put (s : BlockState) (ch : UInt8) : BlockState :=
  { s with block := s.block ++ [ch] }

def BlockState.use (s : BlockState) (i : ℕ) : BlockState :=
  { s with inUse := Function.update s.inUse i true }

def init_RL (s : BlockState) : BlockState :=
  { s with state_in_ch := 256, state_in_len := 0 }

def isempty_RL (s : BlockState) : Bool :=
  if s.state_in_ch < 256 ∧ s.state_in_len > 0 then false else true

def add_pair_to_block (s : BlockState) : BlockState :=
  let ch := UInt8.ofNat s.state_in_ch
  let s := { s with
    blockCRC := forUpto 0 s.state_in_len (fun _ crc => BZ_UPDATE_CRC crc ch) s.blockCRC }
  let s := s.use s.state_in_ch
  match s.state_in_len with
  | 1 => s.put ch
  | 2 => (s.put ch).put ch
  | 3 => ((s.put ch).put ch).put ch
  | _ =>
    let s := s.use (s.state_in_len - 4)
    ((((s.put ch).put ch).put ch).put ch).put (UInt8.ofNat (s.state_in_len - 4))

def flush_RL (s : BlockState) : BlockState :=
  init_RL (if s.state_in_ch < 256 then add_pair_to_block s else s)

def ADD_CHAR_TO_BLOCK (s : BlockState) (zchh0 : UInt8) : BlockState :=
  let zchh := zchh0.toNat
  -- fast track the common case
  if zchh ≠ s.state_in_ch ∧ s.state_in_len = 1 then
    let ch := UInt8.ofNat s.state_in_ch
    let s := { s with blockCRC := BZ_UPDATE_CRC s.blockCRC ch }
    { (s.use s.state_in_ch).put ch with state_in_ch := zchh }
  else if zchh ≠ s.state_in_ch ∨ s.state_in_len = 255 then
    let s := if s.state_in_ch < 256 then add_pair_to_block s else s
    { s with state_in_ch := zchh, state_in_len := 1 }
  else { s with state_in_len := s.state_in_len + 1 }

/-! ## Out of a block -/

/-- The fields of `DState` that the runs of a block are read by. `cursor` is what is read from:
`tPos`, and the state of the randomisation. -/
structure RunState (σ : Type*) where
  cursor : σ
  state_out_len : ℕ
  state_out_ch : UInt8
  k0 : UInt8
  nblock_used : ℕ

namespace RunState

variable {σ : Type*} (get : σ → Option (UInt8 × σ)) (save_nblock : ℕ)

/-- `BZ_GET(k1); s->nblock_used++` -/
def read (s : RunState σ) : Option (UInt8 × RunState σ) :=
  (get s.cursor).map fun k =>
    (k.1, { s with cursor := k.2, nblock_used := s.nblock_used + 1 })

/-- The end of a run of four or more: the byte behind it is how many more there are. -/
def readCount (s : RunState σ) : Option (RunState σ) :=
  (s.read get).bind fun k1 =>
    (read get { k1.2 with state_out_len := k1.1.toNat + 4 }).map fun k0 =>
      { k0.2 with k0 := k0.1 }

/-- The run is `len` bytes long so far, and `rest` goes on if it is longer. -/
def readSame (len : ℕ) (rest : RunState σ → Option (RunState σ)) (s : RunState σ) :
    Option (RunState σ) :=
  (read get { s with state_out_len := len }).bind fun k1 =>
    if k1.2.nblock_used = save_nblock + 1 then some k1.2
    else if k1.1 ≠ k1.2.k0 then some { k1.2 with k0 := k1.1 }
    else rest k1.2

/-- A new run is started: the block is read up to the end of the run. -/
def startRun (s : RunState σ) : Option (RunState σ) :=
  readSame get save_nblock 1
    (readSame get save_nblock 2 (readSame get save_nblock 3 (readCount get)))
    { s with state_out_ch := s.k0 }

/-- `startRun` of the loop for a block that is not randomised. The length of a run of one byte is
not stored: the program goes to `s_state_out_len_eq_one`. -/
def startRunFast (s : RunState σ) : Option (Bool × RunState σ) :=
  (read get { s with state_out_ch := s.k0 }).bind fun k1 =>
    if k1.1 ≠ k1.2.k0 then some (true, { k1.2 with k0 := k1.1 })
    else if k1.2.nblock_used = save_nblock + 1 then some (true, k1.2)
    else (readSame get save_nblock 2 (readSame get save_nblock 3 (readCount get)) k1.2).map
      fun s => (false, s)

variable {get save_nblock} {s s' : RunState σ}

lemma readCount_spec (h : s.readCount get = some s') :
    0 < s'.state_out_len ∧ s.nblock_used < s'.nblock_used := by
  rw [readCount, Option.bind_eq_some_iff] at h
  obtain ⟨k1, h1, h⟩ := h
  rw [Option.map_eq_some_iff] at h
  obtain ⟨k0, h0, rfl⟩ := h
  rw [read, Option.map_eq_some_iff] at h1 h0
  obtain ⟨c1, -, rfl⟩ := h1
  obtain ⟨c0, -, rfl⟩ := h0
  constructor
  · exact Nat.succ_pos _
  · show s.nblock_used < s.nblock_used + 1 + 1
    omega

lemma readSame_spec {len : ℕ} (hlen : 0 < len) {rest : RunState σ → Option (RunState σ)}
    (hrest : ∀ s s', rest s = some s' → 0 < s'.state_out_len ∧ s.nblock_used < s'.nblock_used)
    (h : s.readSame get save_nblock len rest = some s') :
    0 < s'.state_out_len ∧ s.nblock_used < s'.nblock_used := by
  rw [readSame, Option.bind_eq_some_iff] at h
  obtain ⟨k1, h1, h⟩ := h
  rw [read, Option.map_eq_some_iff] at h1
  obtain ⟨c1, -, rfl⟩ := h1
  dsimp only at h
  split_ifs at h
  · cases h
    exact ⟨hlen, Nat.lt_succ_self _⟩
  · cases h
    exact ⟨hlen, Nat.lt_succ_self _⟩
  · obtain ⟨hpos, hless⟩ := hrest _ _ h
    exact ⟨hpos, (Nat.lt_succ_self _).trans hless⟩

/-- A run is not empty, and some of the block is used. -/
lemma startRun_spec (h : s.startRun get save_nblock = some s') :
    0 < s'.state_out_len ∧ s.nblock_used < s'.nblock_used := by
  unfold startRun at h
  exact readSame_spec (s := { s with state_out_ch := s.k0 }) one_pos (fun _ _ =>
    readSame_spec two_pos fun _ _ => readSame_spec three_pos fun _ _ => readCount_spec) h

lemma startRunFast_spec {eqOne : Bool} (h : s.startRunFast get save_nblock = some (eqOne, s')) :
    eqOne = true ∨ 0 < s'.state_out_len := by
  rw [startRunFast, Option.bind_eq_some_iff] at h
  obtain ⟨k1, -, h⟩ := h
  split_ifs at h
  · cases h
    exact Or.inl rfl
  · cases h
    exact Or.inl rfl
  · rw [Option.map_eq_some_iff] at h
    obtain ⟨s'', hsame, hs⟩ := h
    cases hs
    exact Or.inr (readSame_spec two_pos (fun _ _ =>
      readSame_spec three_pos fun _ _ => readCount_spec) hsame).1

end RunState

/-- A block on its way out: the stream that it is written to, and the checksum of what is
written. -/
structure OutState (σ : Type*) where
  run : RunState σ
  calculatedBlockCRC : BitVec 32
  avail_out : ℕ
  out : List UInt8

namespace OutState

variable {σ : Type*}

/-- A byte of the run is written. -/
def emit (s : OutState σ) : OutState σ :=
  { s with
    out := s.out ++ [s.run.state_out_ch]
    calculatedBlockCRC := BZ_UPDATE_CRC s.calculatedBlockCRC s.run.state_out_ch
    avail_out := s.avail_out - 1 }

def setLen (s : OutState σ) (len : ℕ) : OutState σ :=
  { s with run := { s.run with state_out_len := len } }

/-- The run is written down to its last `last` bytes, as far as there is room. -/
def finishRun (last : ℕ) (s : OutState σ) : OutState σ :=
  if s.avail_out = 0 ∨ s.run.state_out_len ≤ last then s
  else finishRun last (s.emit.setLen (s.run.state_out_len - 1))
termination_by s.run.state_out_len
decreasing_by
  show s.run.state_out_len - 1 < s.run.state_out_len
  omega

/-- Some room is used, or there was no run. -/
lemma finishRun_avail_out (last : ℕ) (s : OutState σ) :
    (s.finishRun last).avail_out + (s.run.state_out_len - last) = s.avail_out ∨
      (s.finishRun last).avail_out = 0 := by
  induction s using finishRun.induct last with
  | case1 s h =>
    rw [finishRun, if_pos h]
    omega
  | case2 s h ih =>
    rw [finishRun, if_neg h]
    rcases ih with ih | ih
    · left
      simp only [emit, setLen] at ih ⊢
      omega
    · exact Or.inr ih

variable (get : σ → Option (UInt8 × σ)) (save_nblock : ℕ)

/-- What the program weighs less of after each round of a loop: the room, and whether there is a
run to finish. -/
def weight (eqOne : Bool) (s : OutState σ) : ℕ :=
  2 * s.avail_out + if eqOne = true ∨ 0 < s.run.state_out_len then 0 else 1

end OutState

open OutState

variable {σ : Type*} (get : σ → Option (UInt8 × σ)) (save_nblock : ℕ)

/-- `unRLE_obuf_to_output_SMALL`, which is `unRLE_obuf_to_output_FAST` for a randomised block, with
another `get`. There is no result if the block is found to be corrupt. -/
def unRLE_obuf_to_output (s : OutState σ) : Option (OutState σ) :=
  if (s.finishRun 0).avail_out = 0 then some (s.finishRun 0)
  else if (s.finishRun 0).run.nblock_used = save_nblock + 1 then some (s.finishRun 0)
  else if (s.finishRun 0).run.nblock_used > save_nblock + 1 then none
  else
    match _h : (s.finishRun 0).run.startRun get save_nblock with
    | none => none
    | some run => unRLE_obuf_to_output { s.finishRun 0 with run := run }
termination_by s.weight false
decreasing_by
  have hrun := (RunState.startRun_spec _h).1
  have hroom := finishRun_avail_out 0 s
  simp only [weight, Bool.false_eq_true, false_or, hrun, if_true]
  split_ifs <;> omega

/-- `s_state_out_len_eq_one`: the last byte of a run. The left result is a return. -/
def OutState.lastByte (s : OutState σ) : OutState σ ⊕ OutState σ :=
  if s.avail_out = 0 then .inl (s.setLen 1) else .inr s.emit

/-- The existing run is finished. -/
def OutState.finishFast (eqOne : Bool) (s : OutState σ) : OutState σ ⊕ OutState σ :=
  if eqOne then s.lastByte
  else if s.run.state_out_len > 0 then
    if (s.finishRun 1).avail_out = 0 then .inl (s.finishRun 1) else (s.finishRun 1).lastByte
  else .inr s

/-- Where the loop goes on there is less room, or there was no run. -/
lemma OutState.finishFast_avail_out {eqOne : Bool} {s s' : OutState σ}
    (h : s.finishFast eqOne = .inr s') :
    s'.avail_out < s.avail_out ∨
      s' = s ∧ ¬ (eqOne = true ∨ 0 < s.run.state_out_len) := by
  have hlast : ∀ {s s' : OutState σ}, s.lastByte = .inr s' → s'.avail_out < s.avail_out := by
    intro s s' h
    rw [lastByte] at h
    split_ifs at h with hroom
    cases h
    exact Nat.sub_lt (Nat.pos_of_ne_zero hroom) one_pos
  have hroom := finishRun_avail_out 1 s
  rw [finishFast] at h
  split_ifs at h with hone hpos hfull
  · exact Or.inl (hlast h)
  · left
    have := hlast h
    omega
  · cases h
    right
    exact ⟨rfl, by simp [hone, hpos]⟩

/-- The loop of `unRLE_obuf_to_output_FAST` for a block that is not randomised, from its beginning
or from `s_state_out_len_eq_one`. -/
def unRLE_fast_loop (eqOne : Bool) (s : OutState σ) : Option (OutState σ) :=
  match _h : s.finishFast eqOne with
  | .inl s => some s
  | .inr s =>
    if s.run.nblock_used > save_nblock + 1 then none
    else if s.run.nblock_used = save_nblock + 1 then some (s.setLen 0)
    else
      match _hrun : s.run.startRunFast get save_nblock with
      | none => none
      | some (eqOne', run) => unRLE_fast_loop eqOne' { s with run := run }
termination_by s.weight eqOne
decreasing_by
  have hless := finishFast_avail_out _h
  have hsome := RunState.startRunFast_spec _hrun
  simp only [weight, hsome, if_true]
  rcases hless with hless | ⟨rfl, hnone⟩
  · split_ifs <;> omega
  · rw [if_neg hnone]
    omega

def unRLE_obuf_to_output_FAST (s : OutState σ) : Option (OutState σ) :=
  unRLE_fast_loop get save_nblock false s

end Bzip2
end ClamavWin32
