import ClamavWin32.Bzip2.RunLength
import Mathlib.Algebra.BigOperators.Group.List.Basic

/-!
# Run lengths: what is written

* `contents`: what a block stands for, whatever is in it;
* `outcome_SMALL`, `outcome_FAST`: a call writes as much of it as there is room for;
* `unRLE_calls`: so both loops write the same bytes, however the room is cut into calls.
-/

namespace ClamavWin32
namespace Bzip2

variable {σ : Type*} (get : σ → Option (UInt8 × σ)) (save_nblock : ℕ)

/-! ## What a block stands for -/

namespace RunState

/-- The bytes of the runs to come, and whether the block is corrupt behind them. -/
def contents (s : RunState σ) : List UInt8 × Bool :=
  if s.nblock_used = save_nblock + 1 then ([], false)
  else if s.nblock_used > save_nblock + 1 then ([], true)
  else
    match _h : s.startRun get save_nblock with
    | none => ([], true)
    | some s' => (List.replicate s'.state_out_len s'.state_out_ch ++ (contents s').1,
        (contents s').2)
termination_by save_nblock + 1 - s.nblock_used
decreasing_by
  all_goals
    have hless := (startRun_spec _h).2
    omega

/-- With what is left of the run. -/
def rest (s : RunState σ) : List UInt8 × Bool :=
  (List.replicate s.state_out_len s.state_out_ch ++ (s.contents get save_nblock).1,
    (s.contents get save_nblock).2)

variable {get save_nblock} {s s' : RunState σ}

lemma contents_of_done (h : s.nblock_used = save_nblock + 1) :
    s.contents get save_nblock = ([], false) := by
  rw [contents, if_pos h]

lemma contents_of_corrupt (h : s.nblock_used > save_nblock + 1) :
    s.contents get save_nblock = ([], true) := by
  rw [contents, if_neg h.ne', if_pos h]

lemma contents_of_none (hmore : ¬ s.nblock_used = save_nblock + 1)
    (h : s.startRun get save_nblock = none) : s.contents get save_nblock = ([], true) := by
  rw [contents, if_neg hmore]
  split_ifs
  · rfl
  · split
    · rfl
    · rename_i hsome
      rw [h] at hsome
      cases hsome

lemma contents_of_some (hmore : s.nblock_used < save_nblock + 1)
    (h : s.startRun get save_nblock = some s') :
    s.contents get save_nblock = s'.rest get save_nblock := by
  rw [contents, if_neg hmore.ne, if_neg (not_lt.mpr hmore.le)]
  split
  · rename_i hnone
    rw [h] at hnone
    cases hnone
  · rename_i s'' hsome
    rw [h] at hsome
    cases hsome
    rfl

lemma rest_of_len (h : s.state_out_len = 0) :
    s.rest get save_nblock = s.contents get save_nblock := by
  rw [rest, h, List.replicate_zero, List.nil_append]

lemma rest_of_len_one (h : s.state_out_len = 1) : s.rest get save_nblock =
    ([s.state_out_ch] ++ (s.contents get save_nblock).1, (s.contents get save_nblock).2) := by
  rw [rest, h, List.replicate_one]

lemma startRun_congr (hcursor : s.cursor = s'.cursor) (hk0 : s.k0 = s'.k0)
    (hused : s.nblock_used = s'.nblock_used) :
    s.startRun get save_nblock = s'.startRun get save_nblock := by
  cases s
  cases s'
  cases hcursor
  cases hk0
  cases hused
  rfl

/-- The run that is being written makes no difference. -/
lemma contents_congr (hcursor : s.cursor = s'.cursor) (hk0 : s.k0 = s'.k0)
    (hused : s.nblock_used = s'.nblock_used) :
    s.contents get save_nblock = s'.contents get save_nblock := by
  rw [contents.eq_def _ _ s, contents.eq_def _ _ s']
  rw [startRun_congr hcursor hk0 hused, hused]

variable (get save_nblock) in
/-- A run started either way is the same one. -/
lemma startRunFast_eq (s : RunState σ) :
    match s.startRunFast get save_nblock with
    | none => s.startRun get save_nblock = none
    | some (eqOne, s') => ∃ s'', s.startRun get save_nblock = some s'' ∧
        s''.rest get save_nblock =
          { s' with state_out_len := if eqOne then 1 else s'.state_out_len }.rest get
            save_nblock := by
  have hsame : ∀ c : UInt8 × σ, readSame get save_nblock 2
      (readSame get save_nblock 3 (readCount get)) ⟨c.2, 1, s.k0, s.k0, s.nblock_used + 1⟩ =
        readSame get save_nblock 2 (readSame get save_nblock 3 (readCount get))
          ⟨c.2, s.state_out_len, s.k0, s.k0, s.nblock_used + 1⟩ := fun _ => rfl
  rw [startRunFast, startRun, readSame]
  simp only [read]
  cases get s.cursor with
  | none => rfl
  | some c =>
    simp only [Option.map_some, Option.bind_some]
    by_cases hk : c.1 = s.k0
    · by_cases hdone : s.nblock_used + 1 = save_nblock + 1
      · simp only [hk, hdone, ne_eq, not_true_eq_false, if_false, if_true]
        exact ⟨_, rfl, rfl⟩
      · simp only [hk, hdone, ne_eq, not_true_eq_false, if_false, hsame]
        cases readSame get save_nblock 2 (readSame get save_nblock 3 (readCount get))
          ⟨c.2, s.state_out_len, s.k0, s.k0, s.nblock_used + 1⟩ with
        | none => rfl
        | some s' => exact ⟨s', rfl, rfl⟩
    · by_cases hdone : s.nblock_used + 1 = save_nblock + 1
      · -- the byte behind the block is kept or not, and is not looked at again
        simp only [hk, hdone, ne_eq, not_false_eq_true, if_true]
        refine ⟨_, rfl, ?_⟩
        rw [rest, rest, contents_of_done rfl, contents_of_done rfl]
      · simp only [hk, hdone, ne_eq, not_false_eq_true, if_true, if_false]
        exact ⟨_, rfl, rfl⟩

end RunState

/-! ## What a call writes -/

namespace OutState

/-- `bytes` are written from `s` to `s'`. -/
structure Wrote (s s' : OutState σ) (bytes : List UInt8) : Prop where
  out : s'.out = s.out ++ bytes
  room : s'.avail_out + bytes.length = s.avail_out
  crc : s'.calculatedBlockCRC = bytes.foldl BZ_UPDATE_CRC s.calculatedBlockCRC

variable {get save_nblock} {s s' s'' : OutState σ}

lemma Wrote.refl (s : OutState σ) (run : RunState σ) : Wrote s { s with run := run } [] where
  out := (List.append_nil _).symm
  room := rfl
  crc := rfl

lemma Wrote.trans {bytes bytes' : List UInt8} (h : Wrote s s' bytes) (h' : Wrote s' s'' bytes') :
    Wrote s s'' (bytes ++ bytes') where
  out := by rw [h'.out, h.out, List.append_assoc]
  room := by
    have hroom := h.room
    have hroom' := h'.room
    rw [List.length_append]
    omega
  crc := by rw [h'.crc, h.crc, List.foldl_append]

lemma wrote_emit (hroom : s.avail_out ≠ 0) : Wrote s s.emit [s.run.state_out_ch] where
  out := rfl
  room := Nat.sub_add_cancel (Nat.pos_of_ne_zero hroom)
  crc := rfl

/-- A part of the run is written, and all but the last of it if there is room. -/
lemma finishRun_spec (last : ℕ) (s : OutState σ) :
    ∃ k ≤ s.run.state_out_len - last,
      Wrote s (s.finishRun last) (List.replicate k s.run.state_out_ch) ∧
      (s.finishRun last).run = { s.run with state_out_len := s.run.state_out_len - k } ∧
      ((s.finishRun last).avail_out = 0 ∨ s.run.state_out_len - k ≤ last) := by
  induction s using finishRun.induct last with
  | case1 s h =>
    rw [finishRun, if_pos h]
    exact ⟨0, Nat.zero_le _, Wrote.refl s s.run, rfl, h⟩
  | case2 s h ih =>
    rw [finishRun, if_neg h]
    rw [not_or] at h
    obtain ⟨k, hk, hwrote, hrun, hend⟩ := ih
    have hlen : s.run.state_out_len - 1 - k = s.run.state_out_len - (k + 1) := by omega
    refine ⟨k + 1, ?_, ?_, ?_, ?_⟩
    · simp only [setLen] at hk
      omega
    · exact (wrote_emit h.1).trans (Wrote.trans (Wrote.refl _ _) hwrote)
    · rw [hrun]
      simp only [setLen, emit, hlen]
    · simp only [setLen, hlen] at hend
      exact hend

/-- The last bytes are left. -/
lemma le_finishRun {last : ℕ} (h : last ≤ s.run.state_out_len) :
    last ≤ (s.finishRun last).run.state_out_len := by
  obtain ⟨k, hk, -, hrun, -⟩ := finishRun_spec last s
  rw [hrun]
  dsimp only
  omega

variable (get save_nblock) in
lemma rest_finishRun (last : ℕ) (s : OutState σ) :
    ∃ written, Wrote s (s.finishRun last) written ∧
      s.run.rest get save_nblock = (written ++ ((s.finishRun last).run.rest get save_nblock).1,
        ((s.finishRun last).run.rest get save_nblock).2) ∧
      ((s.finishRun last).avail_out = 0 ∨ (s.finishRun last).run.state_out_len ≤ last) := by
  obtain ⟨k, hk, hwrote, hrun, hend⟩ := finishRun_spec last s
  refine ⟨_, hwrote, ?_, ?_⟩
  · have hcontents : (s.finishRun last).run.contents get save_nblock =
        s.run.contents get save_nblock := by
      rw [hrun]
      exact RunState.contents_congr rfl rfl rfl
    have hsplit : s.run.state_out_len = k + (s.run.state_out_len - k) := by omega
    rw [RunState.rest, RunState.rest, hcontents, hrun]
    dsimp only
    rw [← List.append_assoc, ← List.replicate_add, ← hsplit]
  · rw [hrun]
    exact hend

/-- The block is done with. -/
def Ended (save_nblock : ℕ) (s : OutState σ) : Prop :=
  s.run.nblock_used = save_nblock + 1 ∧ s.run.state_out_len = 0

lemma ended_iff_run (run : RunState σ) : run.rest get save_nblock = ([], false) ↔
    run.nblock_used = save_nblock + 1 ∧ run.state_out_len = 0 := by
  constructor
  · intro h
    have hlen : run.state_out_len = 0 := by
      have hnil := congrArg Prod.fst h
      rw [RunState.rest, List.append_eq_nil_iff, List.replicate_eq_nil_iff] at hnil
      exact hnil.1
    rw [RunState.rest_of_len hlen] at h
    refine ⟨?_, hlen⟩
    by_contra hdone
    rcases Nat.lt_or_ge (save_nblock + 1) run.nblock_used with hmore | hless
    · rw [RunState.contents_of_corrupt hmore] at h
      cases h
    · cases hstart : run.startRun get save_nblock with
      | none =>
        rw [RunState.contents_of_none hdone hstart] at h
        cases h
      | some run' =>
        rw [RunState.contents_of_some (by omega) hstart] at h
        have hnil := congrArg Prod.fst h
        rw [RunState.rest, List.append_eq_nil_iff, List.replicate_eq_nil_iff] at hnil
        exact (RunState.startRun_spec hstart).1.ne' hnil.1
  · rintro ⟨hdone, hlen⟩
    rw [RunState.rest_of_len hlen, RunState.contents_of_done hdone]

variable (get save_nblock) in
/-- What comes of a call: as much is written as there is room for. A block that is corrupt is given
up before more room is needed than there is. -/
def Outcome (s : OutState σ) (bytes : List UInt8 × Bool) : Option (OutState σ) → Prop
  | none => bytes.2 = true ∧ bytes.1.length ≤ s.avail_out
  | some s' => ∃ written, Wrote s s' written ∧
      bytes = (written ++ (s'.run.rest get save_nblock).1, (s'.run.rest get save_nblock).2) ∧
      (s'.avail_out = 0 ∨ Ended save_nblock s')

/-- What is written before the loop goes on. -/
lemma Outcome.of_wrote {first : List UInt8} {bytes : List UInt8 × Bool}
    {result : Option (OutState σ)} (hwrote : Wrote s s' first)
    (h : Outcome get save_nblock s' bytes result) :
    Outcome get save_nblock s (first ++ bytes.1, bytes.2) result := by
  have hroom := hwrote.room
  cases result with
  | none =>
    refine ⟨h.1, ?_⟩
    have hlen := h.2
    rw [List.length_append]
    omega
  | some s'' =>
    obtain ⟨written, hwritten, rfl, hend⟩ := h
    exact ⟨first ++ written, hwrote.trans hwritten, by rw [List.append_assoc], hend⟩

/-- `unRLE_obuf_to_output_SMALL` -/
theorem outcome_SMALL (s : OutState σ) :
    Outcome get save_nblock s (s.run.rest get save_nblock)
      (unRLE_obuf_to_output get save_nblock s) := by
  induction s using unRLE_obuf_to_output.induct get save_nblock with
  | case1 s hfull =>
    obtain ⟨written, hwrote, hrest, -⟩ := rest_finishRun get save_nblock 0 s
    rw [unRLE_obuf_to_output, if_pos hfull]
    exact ⟨written, hwrote, hrest, Or.inl hfull⟩
  | case2 s hfull hdone =>
    obtain ⟨written, hwrote, hrest, hend⟩ := rest_finishRun get save_nblock 0 s
    rw [unRLE_obuf_to_output, if_neg hfull, if_pos hdone]
    refine ⟨written, hwrote, hrest, Or.inr ⟨hdone, ?_⟩⟩
    omega
  | case3 s hfull hdone hcorrupt =>
    obtain ⟨written, hwrote, hrest, hend⟩ := rest_finishRun get save_nblock 0 s
    have hlen : (s.finishRun 0).run.state_out_len = 0 := by omega
    rw [unRLE_obuf_to_output, if_neg hfull, if_neg hdone, if_pos hcorrupt, hrest]
    refine Outcome.of_wrote hwrote ?_
    rw [RunState.rest_of_len hlen, RunState.contents_of_corrupt hcorrupt]
    exact ⟨rfl, Nat.zero_le _⟩
  | case4 s hfull hdone hcorrupt hstart =>
    obtain ⟨written, hwrote, hrest, hend⟩ := rest_finishRun get save_nblock 0 s
    have hlen : (s.finishRun 0).run.state_out_len = 0 := by omega
    rw [unRLE_obuf_to_output, if_neg hfull, if_neg hdone, if_neg hcorrupt, hrest]
    refine Outcome.of_wrote hwrote ?_
    rw [RunState.rest_of_len hlen, RunState.contents_of_none hdone hstart]
    split
    · exact ⟨rfl, Nat.zero_le _⟩
    · rename_i hsome
      rw [hstart] at hsome
      cases hsome
  | case5 s hfull hdone hcorrupt run hstart ih =>
    obtain ⟨written, hwrote, hrest, hend⟩ := rest_finishRun get save_nblock 0 s
    have hlen : (s.finishRun 0).run.state_out_len = 0 := by omega
    rw [unRLE_obuf_to_output, if_neg hfull, if_neg hdone, if_neg hcorrupt, hrest]
    refine Outcome.of_wrote hwrote ?_
    rw [RunState.rest_of_len hlen, RunState.contents_of_some (by omega) hstart]
    split
    · rename_i hnone
      rw [hstart] at hnone
      cases hnone
    · rename_i run' hsome
      rw [hstart] at hsome
      cases hsome
      have hgo := Outcome.of_wrote (Wrote.refl (s.finishRun 0) run) ih
      exact hgo

/-- The run that is left at the beginning of the loop, or at `s_state_out_len_eq_one`. -/
def runAt (eqOne : Bool) (s : OutState σ) : RunState σ :=
  { s.run with state_out_len := if eqOne then 1 else s.run.state_out_len }

lemma contents_runAt (eqOne : Bool) (s : OutState σ) :
    (s.runAt eqOne).contents get save_nblock = s.run.contents get save_nblock :=
  RunState.contents_congr rfl rfl rfl

lemma lastByte_of_room (hroom : s.avail_out ≠ 0) : s.lastByte = .inr s.emit := by
  rw [lastByte, if_neg hroom]

variable (get save_nblock) in
/-- The run is finished, or the room is full. -/
lemma finishFast_spec (eqOne : Bool) (s : OutState σ) :
    match s.finishFast eqOne with
    | .inl s' => Outcome get save_nblock s ((s.runAt eqOne).rest get save_nblock) (some s')
    | .inr s' => ∃ written, Wrote s s' written ∧
        (s.runAt eqOne).rest get save_nblock =
          (written ++ (s'.run.contents get save_nblock).1,
            (s'.run.contents get save_nblock).2) := by
  rw [finishFast]
  cases eqOne with
  | true =>
    rw [if_pos rfl, RunState.rest_of_len_one (s := s.runAt true) rfl]
    by_cases hfull : s.avail_out = 0
    · rw [lastByte, if_pos hfull]
      refine ⟨[], Wrote.refl s _, ?_, Or.inl hfull⟩
      exact (RunState.rest_of_len_one (s := s.runAt true) rfl).symm
    · rw [lastByte_of_room hfull, contents_runAt]
      exact ⟨_, wrote_emit hfull, rfl⟩
  | false =>
    have hrun : s.runAt false = s.run := rfl
    rw [if_neg Bool.false_ne_true, hrun]
    by_cases hlen : s.run.state_out_len > 0
    · obtain ⟨written, hwrote, hrest, hend⟩ := rest_finishRun get save_nblock 1 s
      rw [if_pos hlen]
      by_cases hfull : (s.finishRun 1).avail_out = 0
      · rw [if_pos hfull]
        exact ⟨written, hwrote, hrest, Or.inl hfull⟩
      · have hone : (s.finishRun 1).run.state_out_len = 1 :=
          le_antisymm (hend.resolve_left hfull) (le_finishRun hlen)
        rw [if_neg hfull, lastByte_of_room hfull]
        refine ⟨_, hwrote.trans (wrote_emit hfull), ?_⟩
        rw [hrest, RunState.rest_of_len_one hone, List.append_assoc]
        rfl
    · rw [if_neg hlen]
      refine ⟨[], Wrote.refl s s.run, ?_⟩
      rw [RunState.rest_of_len (Nat.eq_zero_of_not_pos hlen)]
      rfl

lemma unRLE_fast_loop_of_return {eqOne : Bool} (h : s.finishFast eqOne = .inl s') :
    unRLE_fast_loop get save_nblock eqOne s = some s' := by
  rw [unRLE_fast_loop]
  split
  · rename_i hs
    rw [h] at hs
    cases hs
    rfl
  · rename_i hs
    rw [h] at hs
    cases hs

lemma unRLE_fast_loop_of_more {eqOne : Bool} (h : s.finishFast eqOne = .inr s') :
    unRLE_fast_loop get save_nblock eqOne s =
      if s'.run.nblock_used > save_nblock + 1 then none
      else if s'.run.nblock_used = save_nblock + 1 then some (s'.setLen 0)
      else (s'.run.startRunFast get save_nblock).bind fun run =>
        unRLE_fast_loop get save_nblock run.1 { s' with run := run.2 } := by
  rw [unRLE_fast_loop]
  split
  · rename_i hs
    rw [h] at hs
    cases hs
  · rename_i hs
    rw [h] at hs
    cases hs
    split_ifs
    · rfl
    · rfl
    · split
      · rename_i hstart
        rw [hstart]
        rfl
      · rename_i hstart
        rw [hstart]
        rfl

/-- `unRLE_obuf_to_output_FAST` for a block that is not randomised. -/
theorem outcome_fast_loop (eqOne : Bool) (s : OutState σ) :
    Outcome get save_nblock s ((s.runAt eqOne).rest get save_nblock)
      (unRLE_fast_loop get save_nblock eqOne s) := by
  induction eqOne, s using unRLE_fast_loop.induct get save_nblock with
  | case1 eqOne s s' h =>
    have hfinish := finishFast_spec get save_nblock eqOne s
    rw [h] at hfinish
    rw [unRLE_fast_loop_of_return h]
    exact hfinish
  | case2 eqOne s s' h hcorrupt =>
    have hfinish := finishFast_spec get save_nblock eqOne s
    rw [h] at hfinish
    obtain ⟨written, hwrote, hrest⟩ := hfinish
    rw [unRLE_fast_loop_of_more h, if_pos hcorrupt, hrest]
    refine Outcome.of_wrote hwrote ?_
    rw [RunState.contents_of_corrupt hcorrupt]
    exact ⟨rfl, Nat.zero_le _⟩
  | case3 eqOne s s' h hcorrupt hdone =>
    have hfinish := finishFast_spec get save_nblock eqOne s
    rw [h] at hfinish
    obtain ⟨written, hwrote, hrest⟩ := hfinish
    rw [unRLE_fast_loop_of_more h, if_neg hcorrupt, if_pos hdone, hrest]
    refine Outcome.of_wrote hwrote ?_
    refine ⟨[], Wrote.refl s' _, ?_, Or.inr ⟨hdone, rfl⟩⟩
    rw [RunState.rest_of_len (s := (s'.setLen 0).run) rfl, RunState.contents_of_done hdone,
      RunState.contents_of_done (s := (s'.setLen 0).run) hdone]
    rfl
  | case4 eqOne s s' h hcorrupt hdone hstart =>
    have hfinish := finishFast_spec get save_nblock eqOne s
    rw [h] at hfinish
    obtain ⟨written, hwrote, hrest⟩ := hfinish
    have hrun := RunState.startRunFast_eq get save_nblock s'.run
    rw [unRLE_fast_loop_of_more h, if_neg hcorrupt, if_neg hdone, hrest, hstart]
    refine Outcome.of_wrote hwrote ?_
    rw [hstart] at hrun
    rw [RunState.contents_of_none hdone hrun]
    exact ⟨rfl, Nat.zero_le _⟩
  | case5 eqOne s s' h hcorrupt hdone eqOne' run hstart ih =>
    have hfinish := finishFast_spec get save_nblock eqOne s
    rw [h] at hfinish
    obtain ⟨written, hwrote, hrest⟩ := hfinish
    have hrun := RunState.startRunFast_eq get save_nblock s'.run
    rw [unRLE_fast_loop_of_more h, if_neg hcorrupt, if_neg hdone, hrest, hstart]
    refine Outcome.of_wrote hwrote ?_
    rw [hstart] at hrun
    obtain ⟨run', hstart', heq⟩ := hrun
    rw [RunState.contents_of_some (by omega) hstart', heq]
    have hgo := Outcome.of_wrote (Wrote.refl s' run) ih
    exact hgo

/-- `unRLE_obuf_to_output_FAST` -/
theorem outcome_FAST (s : OutState σ) :
    Outcome get save_nblock s (s.run.rest get save_nblock)
      (unRLE_obuf_to_output_FAST get save_nblock s) :=
  outcome_fast_loop false s

/-! ## Calls -/

variable (get save_nblock) in
/-- The loop of a mode. -/
def unRLE (fast : Bool) (s : OutState σ) : Option (OutState σ) :=
  if fast then unRLE_obuf_to_output_FAST get save_nblock s
  else unRLE_obuf_to_output get save_nblock s

variable (get save_nblock) in
lemma outcome_unRLE (fast : Bool) (s : OutState σ) :
    Outcome get save_nblock s (s.run.rest get save_nblock) (unRLE get save_nblock fast s) := by
  cases fast with
  | true => exact outcome_FAST s
  | false => exact outcome_SMALL s

variable (get save_nblock) in
/-- Calls with this much room each, as long as the block is not found to be corrupt. -/
def calls (fast : Bool) (s : OutState σ) (rooms : List ℕ) : Option (OutState σ) :=
  rooms.foldlM (fun s room => unRLE get save_nblock fast { s with avail_out := room }) s

variable (get save_nblock) in
lemma calls_spec (fast : Bool) (s : OutState σ) (rooms : List ℕ) :
    match calls get save_nblock fast s rooms with
    | some s' =>
      (s'.out = s.out ++ (s.run.rest get save_nblock).1.take rooms.sum ∧
        s'.calculatedBlockCRC = ((s.run.rest get save_nblock).1.take rooms.sum).foldl
          BZ_UPDATE_CRC s.calculatedBlockCRC) ∧
      s'.run.rest get save_nblock =
        ((s.run.rest get save_nblock).1.drop rooms.sum, (s.run.rest get save_nblock).2) ∧
      ((s.run.rest get save_nblock).1.length < rooms.sum →
        (s.run.rest get save_nblock).2 = false)
    | none => (s.run.rest get save_nblock).2 = true ∧
      (s.run.rest get save_nblock).1.length ≤ rooms.sum := by
  induction rooms generalizing s with
  | nil =>
    refine ⟨⟨?_, rfl⟩, rfl, fun h => absurd h (Nat.not_lt_zero _)⟩
    exact (List.append_nil _).symm
  | cons room rooms ih =>
    have hout := outcome_unRLE get save_nblock fast { s with avail_out := room }
    have hcons : calls get save_nblock fast s (room :: rooms) =
        (unRLE get save_nblock fast { s with avail_out := room }).bind fun s' =>
          calls get save_nblock fast s' rooms := rfl
    rw [hcons, List.sum_cons]
    cases hcall : unRLE get save_nblock fast { s with avail_out := room } with
    | none =>
      rw [hcall] at hout
      exact ⟨hout.1, hout.2.trans (Nat.le_add_right _ _)⟩
    | some s₁ =>
      rw [hcall] at hout
      obtain ⟨written, hwrote, hrest, hend⟩ := hout
      have hroom : s₁.avail_out + written.length = room := hwrote.room
      have hout₁ : s₁.out = s.out ++ written := hwrote.out
      have hcrc₁ : s₁.calculatedBlockCRC = written.foldl BZ_UPDATE_CRC s.calculatedBlockCRC :=
        hwrote.crc
      have hih := ih s₁
      rw [Option.bind_some]
      dsimp only at hrest
      rw [hrest]
      dsimp only
      -- what is left after the first call is written by the others
      have htake : (written ++ (s₁.run.rest get save_nblock).1).take (room + rooms.sum) =
          written ++ (s₁.run.rest get save_nblock).1.take rooms.sum ∧
          (written ++ (s₁.run.rest get save_nblock).1).drop (room + rooms.sum) =
            (s₁.run.rest get save_nblock).1.drop rooms.sum := by
        rcases hend with hfull | hended
        · have hlen : room = written.length := by omega
          rw [hlen, List.take_length_add_append, List.drop_length_add_append]
          exact ⟨rfl, rfl⟩
        · rw [(ended_iff_run s₁.run).mpr hended]
          dsimp only
          rw [List.append_nil, List.take_nil, List.drop_nil, List.append_nil]
          exact ⟨List.take_of_length_le (by omega), List.drop_eq_nil_of_le (by omega)⟩
      rw [htake.1, htake.2]
      cases hcalls : calls get save_nblock fast s₁ rooms with
      | none =>
        rw [hcalls] at hih
        refine ⟨hih.1, ?_⟩
        have hle := hih.2
        rw [List.length_append]
        omega
      | some s' =>
        rw [hcalls] at hih
        obtain ⟨⟨hout', hcrc'⟩, hrest', hfine⟩ := hih
        refine ⟨⟨?_, ?_⟩, hrest', fun hlen => ?_⟩
        · rw [hout', hout₁, List.append_assoc]
        · rw [hcrc', hcrc₁, List.foldl_append]
        · rcases hend with hfull | hended
          · refine hfine ?_
            rw [List.length_append] at hlen
            omega
          · rw [(ended_iff_run s₁.run).mpr hended]

end OutState

end Bzip2
end ClamavWin32
