import ClamavWin32.Bzip2.CompressStream
import ClamavWin32.Bzip2.RunLengthRoundTrip

/-!
# The stream interface of the compressor: nothing is lost

* `Block`, `written`: the blocks so far, what each of them stands for, and what is made of them;
* `Filling`, `Emptying`: what holds of a stream that is taking input, and of one that has a block to
  write out;
* `round_spec`: a round of the loop keeps it, and comes nearer to the end;
* `calls_lossless`: so does every sequence of calls.
-/

namespace ClamavWin32
namespace Bzip2
namespace CompressStream

variable {β : Type*} (B : BlockCompressor β)

/-! ## Blocks -/

/-- A block that is handed to `BZ2_compressBlock`, and the input it stands for. -/
structure Block where
  collect : BlockState
  last : Bool
  bytes : List UInt8

/-- The fields of `BZ2_compressBlock` after some blocks, the first of them with the number `no`. -/
def backAfter : β → ℕ → List Block → β
  | back, _, [] => back
  | back, no, b :: bs =>
    backAfter (B.compressBlock (B.clear back) b.collect no b.last) (no + 1) bs

/-- What is made of them. -/
def written : β → ℕ → List Block → List UInt8
  | _, _, [] => []
  | back, no, b :: bs =>
    B.zbits (B.compressBlock (B.clear back) b.collect no b.last) ++
      written (B.compressBlock (B.clear back) b.collect no b.last) (no + 1) bs

/-- What there is to know about a block. -/
structure Block.Ok (nblockMAX : ℕ) (b : Block) : Prop where
  runs : ∃ runs, (∀ p ∈ runs, IsRun p) ∧ runs.IsChain Separate ∧
    b.collect.block = encode runs ∧ b.bytes = expand runs
  inUse : ∀ c : UInt8, b.collect.inUse c.toNat = true ↔ c ∈ b.collect.block
  crc : b.collect.blockCRC = b.bytes.foldl BZ_UPDATE_CRC BZ_INITIALISE_CRC
  nblock : b.collect.nblock ≤ nblockMAX + 9

variable {B}

lemma backAfter_concat (back : β) (no : ℕ) (bs : List Block) (b : Block) :
    backAfter B back no (bs ++ [b]) =
      B.compressBlock (B.clear (backAfter B back no bs)) b.collect (no + bs.length) b.last := by
  induction bs generalizing back no with
  | nil => rfl
  | cons c bs ih =>
    rw [List.cons_append, backAfter, ih, List.length_cons, backAfter]
    congr 1
    omega

lemma written_concat (back : β) (no : ℕ) (bs : List Block) (b : Block) :
    written B back no (bs ++ [b]) =
      written B back no bs ++ B.zbits (backAfter B back no (bs ++ [b])) := by
  induction bs generalizing back no with
  | nil => exact List.append_nil _
  | cons c bs ih => rw [List.cons_append, written, ih, written, List.append_assoc, backAfter]

/-- **A block is what its bytes are**, wherever it is read from. -/
theorem Block.Ok.contents {nblockMAX : ℕ} {b : Block} (h : b.Ok nblockMAX) {σ : Type*}
    {get : σ → Option (UInt8 × σ)} {x : UInt8} {s : RunState σ} {save_nblock : ℕ}
    (hbehind : RunState.Behind get save_nblock s b.collect.block x) :
    s.contents get save_nblock = (b.bytes, false) := by
  obtain ⟨runs, hruns, hsep, hblock, hbytes⟩ := h.runs
  rw [hblock] at hbehind
  rw [RunState.contents_encode hruns hsep hbehind, hbytes]

/-! ## What holds of a stream -/

variable (B) in
/-- A stream that is taking input. `hist` are the blocks before. -/
structure Filling (back₀ : β) (hist : List Block) (s : CompressStream β) (taken : List UInt8) :
    Prop where
  state : s.state = .BZ_S_INPUT
  blocks : ∀ b ∈ hist, b.Ok s.nblockMAX ∧ b.last = false
  runs : ∃ runs, Collects s.collect runs ∧ (s.collect.state_in_ch < 256 ∨ runs = []) ∧
    taken = hist.flatMap Block.bytes ++ expand (runs ++ s.collect.pending)
  nblock : s.collect.nblock ≤ s.nblockMAX + 4
  back : s.back = B.clear (backAfter B back₀ 1 hist)
  out : s.out = written B back₀ 1 hist
  blockNo : s.blockNo = 1 + hist.length
  state_out_pos : s.state_out_pos = 0
  mode : s.mode ≠ .BZ_M_IDLE

variable (B) in
/-- A stream that has the block `b` to write out. -/
structure Emptying (back₀ : β) (hist : List Block) (b : Block) (s : CompressStream β)
    (taken : List UInt8) : Prop where
  state : s.state = .BZ_S_OUTPUT
  blocks : ∀ b ∈ hist, b.Ok s.nblockMAX ∧ b.last = false
  block : b.Ok s.nblockMAX
  pending : ∀ p ∈ s.collect.pending, IsRun p
  none : ¬ s.collect.state_in_ch < 256 →
    s.collect.state_in_ch = 256 ∧ s.collect.state_in_len = 0
  taken_eq : taken = (hist ++ [b]).flatMap Block.bytes ++ expand s.collect.pending
  back : s.back = backAfter B back₀ 1 (hist ++ [b])
  state_out_pos : s.state_out_pos ≤ s.numZ B
  out : s.out ++ (B.zbits s.back).drop s.state_out_pos = written B back₀ 1 (hist ++ [b])
  blockNo : s.blockNo = 1 + hist.length
  /-- Only the block that finishes the stream is the last one. -/
  last : b.last = true ↔ s.collect.pending = [] ∧ (s.mode = .BZ_M_FINISHING ∨ s.mode = .BZ_M_IDLE)
  flushed : s.collect.pending = [] → s.atEnd
  idle : s.mode = .BZ_M_IDLE → s.collect.pending = [] ∧ s.state_out_pos = s.numZ B

lemma isempty_RL_iff {s : BlockState} (hpending : ∀ p ∈ s.pending, IsRun p) :
    isempty_RL s = true ↔ s.pending = [] := by
  rw [isempty_RL, BlockState.pending]
  by_cases h : s.state_in_ch < 256
  · have hrun := hpending (UInt8.ofNat s.state_in_ch, s.state_in_len) (by
      rw [pending_of_lt h]
      exact List.mem_singleton_self _)
    have hpos : s.state_in_len > 0 := hrun.1
    rw [if_pos ⟨h, hpos⟩, if_pos h]
    exact iff_of_false Bool.false_ne_true (List.cons_ne_nil _ _)
  · rw [if_neg (fun hboth => h hboth.1), if_neg h]
    exact iff_of_true rfl rfl

/-! ## Input -/

/-- What `copy_input_until_stop` does: `bytes` are taken. -/
structure Copied (s s' : CompressStream β) (bytes : List UInt8) : Prop where
  fields : s' = { s with
    collect := s'.collect, next_in := s'.next_in, avail_in_expect := s'.avail_in_expect }
  next_in : s.next_in = bytes ++ s'.next_in
  expect : s.mode ≠ .BZ_M_RUNNING → s'.avail_in_expect = s.avail_in_expect - bytes.length
  stop : s.nblockMAX ≤ s'.collect.nblock ∨ s'.atEnd ∨ s'.next_in = []
  unchanged : bytes = [] → s' = s

/-- What is collected meanwhile. -/
structure Collected (s s' : CompressStream β) (runs runs' : List (UInt8 × ℕ))
    (bytes : List UInt8) : Prop where
  collects : Collects s'.collect runs'
  first : s'.collect.state_in_ch < 256 ∨ runs' = []
  expand_eq : expand (runs' ++ s'.collect.pending) = expand (runs ++ s.collect.pending) ++ bytes
  nblock : s'.collect.nblock ≤ s.nblockMAX + 4

lemma copyFrom_spec (l : List UInt8) :
    ∀ {s : CompressStream β} {runs : List (UInt8 × ℕ)}, s.next_in = l → Collects s.collect runs →
      (s.collect.state_in_ch < 256 ∨ runs = []) → s.collect.nblock ≤ s.nblockMAX + 4 →
      ∃ bytes runs', Copied s (s.copyFrom l).2 bytes ∧
        Collected s (s.copyFrom l).2 runs runs' bytes ∧ (s.copyFrom l).1 = !bytes.isEmpty := by
  induction l with
  | nil =>
    intro s runs hin hcollects hfirst hroom
    refine ⟨[], runs, ⟨rfl, rfl, fun _ => rfl, Or.inr (Or.inr hin), fun _ => rfl⟩,
      ⟨hcollects, hfirst, ?_, hroom⟩, rfl⟩
    exact (List.append_nil _).symm
  | cons c l ih =>
    intro s runs hin hcollects hfirst hroom
    rw [copyFrom]
    by_cases hfull : s.collect.nblock ≥ s.nblockMAX
    · rw [if_pos hfull]
      refine ⟨[], runs, ⟨rfl, rfl, fun _ => rfl, Or.inl hfull, fun _ => rfl⟩,
        ⟨hcollects, hfirst, ?_, hroom⟩, rfl⟩
      exact (List.append_nil _).symm
    · rw [if_neg hfull]
      by_cases hend : s.atEnd
      · rw [if_pos hend]
        refine ⟨[], runs, ⟨rfl, rfl, fun _ => rfl, Or.inr (Or.inl hend), fun _ => rfl⟩,
          ⟨hcollects, hfirst, ?_, hroom⟩, rfl⟩
        exact (List.append_nil _).symm
      · rw [if_neg hend]
        obtain ⟨runs₁, hcollects₁, hexpand, hch, hnblock⟩ := hcollects.addChar hfirst c
        obtain ⟨bytes, runs', hcopied, hcollected, -⟩ := ih (s := s.copyByte c l) rfl hcollects₁
          (Or.inl hch) (by
            show (ADD_CHAR_TO_BLOCK s.collect c).nblock ≤ s.nblockMAX + 4
            omega)
        refine ⟨c :: bytes, runs', ⟨?_, ?_, ?_, hcopied.stop,
          fun hnil => absurd hnil (List.cons_ne_nil _ _)⟩,
          ⟨hcollected.collects, hcollected.first, ?_, hcollected.nblock⟩, rfl⟩
        · rw [hcopied.fields]
          rfl
        · rw [hin, List.cons_append, ← hcopied.next_in]
          rfl
        · intro hmode
          rw [hcopied.expect hmode, List.length_cons]
          show (if s.mode = .BZ_M_RUNNING then _ else _) - _ = _
          rw [if_neg hmode]
          omega
        · rw [hcollected.expand_eq]
          show expand (runs₁ ++ (ADD_CHAR_TO_BLOCK s.collect c).pending) ++ bytes = _
          rw [hexpand, List.append_assoc]
          rfl

/-! ## Output -/

variable (B) in
/-- What `copy_output_until_stop` does. -/
structure CopiedOut (s s' : CompressStream β) : Prop where
  fields : s' = { s with
    out := s'.out, state_out_pos := s'.state_out_pos, avail_out := s'.avail_out }
  out : s'.out ++ (B.zbits s.back).drop s'.state_out_pos =
    s.out ++ (B.zbits s.back).drop s.state_out_pos
  state_out_pos : s.state_out_pos ≤ s.numZ B → s'.state_out_pos ≤ s.numZ B

variable (B) in
lemma copy_output_until_stop_spec (s : CompressStream β) :
    CopiedOut B s (s.copy_output_until_stop B).2 := by
  induction s using copy_output_until_stop.induct B with
  | case1 s hfull =>
    rw [copy_output_until_stop, if_pos hfull]
    exact ⟨rfl, rfl, id⟩
  | case2 s hfull hnone =>
    rw [copy_output_until_stop, if_neg hfull, hnone]
    exact ⟨rfl, rfl, id⟩
  | case3 s hfull b hsome ih =>
    rw [copy_output_until_stop, if_neg hfull, hsome]
    obtain ⟨hlt, hget⟩ := List.getElem?_eq_some_iff.mp hsome
    refine ⟨?_, ?_, fun _ => ih.state_out_pos hlt⟩
    · rw [ih.fields]
    · rw [List.drop_eq_getElem_cons hlt, hget]
      refine ih.out.trans ?_
      rw [List.append_assoc]
      rfl

/-! ## Rounds -/

variable (B) in
/-- What holds between rounds, and between calls. -/
def Inv (back₀ : β) (s : CompressStream β) (taken : List UInt8) : Prop :=
  (∃ hist, Filling B back₀ hist s taken ∧ s.collect.nblock < s.nblockMAX) ∨
    ∃ hist b, Emptying B back₀ hist b s taken

/-- What the output part leaves as it is. -/
structure Kept (s s' : CompressStream β) : Prop where
  mode : s'.mode = s.mode
  next_in : s'.next_in = s.next_in
  avail_in_expect : s'.avail_in_expect = s.avail_in_expect
  nblockMAX : s'.nblockMAX = s.nblockMAX
  pending : s'.collect.pending = s.collect.pending

lemma CopiedOut.kept {s s' : CompressStream β} (h : CopiedOut B s s') : Kept s s' := by
  constructor <;> rw [h.fields]

lemma Emptying.copiedOut {back₀ : β} {hist : List Block} {b : Block} {s s' : CompressStream β}
    {taken : List UInt8} (h : Emptying B back₀ hist b s taken) (hmode : s.mode ≠ .BZ_M_IDLE)
    (hcopied : CopiedOut B s s') : Emptying B back₀ hist b s' taken := by
  have hout := hcopied.out
  have hpos := hcopied.state_out_pos h.state_out_pos
  rw [h.out] at hout
  rw [hcopied.fields]
  refine ⟨h.state, h.blocks, h.block, h.pending, h.none, h.taken_eq, h.back, hpos, hout, h.blockNo,
    h.last, h.flushed, fun hidle => absurd hidle hmode⟩

/-- A block that is not the last one is out. -/
lemma Emptying.newBlock {back₀ : β} {hist : List Block} {b : Block} {s : CompressStream β}
    {taken : List UInt8} (h : Emptying B back₀ hist b s taken) (hmode : s.mode ≠ .BZ_M_IDLE)
    (hlast : b.last = false) (hout : ¬ s.state_out_pos < s.numZ B) :
    Filling B back₀ (hist ++ [b]) { s.prepare_new_block B with state := .BZ_S_INPUT } taken where
  state := rfl
  blocks := by
    intro c hc
    rcases List.mem_append.mp hc with hc | hc
    · exact h.blocks c hc
    · rw [List.mem_singleton.mp hc]
      exact ⟨h.block, hlast⟩
  runs := by
    refine ⟨[], ⟨rfl, ?_, ?_, h.none, ?_, rfl⟩, Or.inr rfl, h.taken_eq⟩
    · exact h.pending
    · show s.collect.pending.IsChain Separate
      rw [BlockState.pending]
      split_ifs
      · exact List.isChain_singleton _
      · exact List.isChain_nil
    · intro c
      exact iff_of_false Bool.false_ne_true List.not_mem_nil
  nblock := Nat.zero_le _
  back := by
    rw [← h.back]
    rfl
  out := by
    have hdrop : (B.zbits s.back).drop s.state_out_pos = [] :=
      List.drop_eq_nil_of_le (not_lt.mp hout)
    rw [← h.out, hdrop, List.append_nil]
    rfl
  blockNo := by
    rw [List.length_append, List.length_singleton, ← Nat.add_assoc, ← h.blockNo]
    rfl
  state_out_pos := rfl
  mode := hmode

/-- The block is written out, and a new one is begun when there is no more of it. -/
lemma outputPart_spec {back₀ : β} {hist : List Block} {b : Block} {s : CompressStream β}
    {taken : List UInt8} (h : Emptying B back₀ hist b s taken) (hmode : s.mode ≠ .BZ_M_IDLE)
    (hmax : 0 < s.nblockMAX) : Kept s (s.outputPart B).stream ∧
    ((s.outputPart B).stop = true ∧ Emptying B back₀ hist b (s.outputPart B).stream taken ∧
        ((s.outputPart B).stream.state_out_pos < (s.outputPart B).stream.numZ B ∨
          s.mode = .BZ_M_FINISHING) ∨
      Filling B back₀ (hist ++ [b]) (s.outputPart B).stream taken ∧
        (s.outputPart B).stream.collect.nblock < s.nblockMAX ∧
        ((s.outputPart B).stop = true → s.mode = .BZ_M_FLUSHING) ∧
        (s.collect.pending = [] → (s.outputPart B).stop = true)) := by
  have hcopied := copy_output_until_stop_spec B s
  rw [outputPart]
  generalize (s.copy_output_until_stop B).2 = t at hcopied
  generalize (s.copy_output_until_stop B).1 = progress
  have hkept := hcopied.kept
  have ht := h.copiedOut hmode hcopied
  dsimp only
  by_cases hmore : t.state_out_pos < t.numZ B
  · rw [if_pos hmore]
    exact ⟨hkept, Or.inl ⟨rfl, ht, Or.inl hmore⟩⟩
  · rw [if_neg hmore]
    have hempty := isempty_RL_iff ht.pending
    by_cases hfinish : t.mode = .BZ_M_FINISHING ∧ t.avail_in_expect = 0 ∧ isempty_RL t.collect
    · rw [if_pos hfinish]
      exact ⟨hkept, Or.inl ⟨rfl, ht, Or.inr (hkept.mode ▸ hfinish.1)⟩⟩
    · rw [if_neg hfinish]
      have hidle : t.mode ≠ .BZ_M_IDLE := by
        rw [hkept.mode]
        exact hmode
      have hlast : b.last = false := by
        rw [← Bool.not_eq_true, ht.last]
        rintro ⟨hpending, hmode' | hmode'⟩
        · exact hfinish ⟨hmode', (ht.flushed hpending).2, hempty.mpr hpending⟩
        · exact hidle hmode'
      refine ⟨⟨hkept.mode, hkept.next_in, hkept.avail_in_expect, hkept.nblockMAX, hkept.pending⟩,
        Or.inr ⟨ht.newBlock hidle hlast hmore, hmax, fun hstop => ?_, fun hnil => ?_⟩⟩
      · have hflush := of_decide_eq_true hstop
        rw [← hkept.mode]
        exact hflush.1
      · rw [← hkept.pending] at hnil
        have hend := ht.flushed hnil
        refine decide_eq_true ⟨?_, hend.2, hempty.mpr hnil⟩
        show t.mode = _
        cases hm : t.mode with
        | BZ_M_IDLE => exact absurd hm hidle
        | BZ_M_RUNNING => exact absurd hm hend.1
        | BZ_M_FLUSHING => rfl
        | BZ_M_FINISHING => exact absurd ⟨hm, hend.2, hempty.mpr hnil⟩ hfinish

/-- A block is handed over with `pending` behind it. -/
lemma Filling.compressBlock {back₀ : β} {hist : List Block} {s : CompressStream β}
    {taken : List UInt8} (h : Filling B back₀ hist s taken) {collect : BlockState}
    {runs : List (UInt8 × ℕ)} (hcollects : Collects collect runs) {last : Bool}
    (htaken : taken = hist.flatMap Block.bytes ++ expand (runs ++ collect.pending))
    (hnblock : collect.nblock ≤ s.nblockMAX + 9)
    (hlast : last = true ↔ collect.pending = [] ∧ s.mode = .BZ_M_FINISHING)
    (hflushed : collect.pending = [] → s.atEnd) :
    Emptying B back₀ hist ⟨collect, last, expand runs⟩
      (CompressStream.compressBlock B { s with collect := collect } last) taken where
  state := rfl
  blocks := h.blocks
  block := ⟨⟨runs, fun p hp => hcollects.isRun p (List.mem_append_left _ hp),
    (List.isChain_append.mp hcollects.separate).1, hcollects.block, rfl⟩, hcollects.inUse,
    hcollects.crc, hnblock⟩
  pending := fun p hp => hcollects.isRun p (List.mem_append_right _ hp)
  none := hcollects.none
  taken_eq := by
    rw [htaken, expand_append, List.flatMap_append, List.flatMap_singleton, List.append_assoc]
    rfl
  back := by
    rw [backAfter_concat, ← h.back, ← h.blockNo]
    rfl
  state_out_pos := by
    show s.state_out_pos ≤ _
    rw [h.state_out_pos]
    exact Nat.zero_le _
  out := by
    show s.out ++ List.drop s.state_out_pos _ = _
    rw [h.state_out_pos, List.drop_zero, written_concat, h.out, backAfter_concat, ← h.back,
      ← h.blockNo]
    rfl
  blockNo := h.blockNo
  last := by
    rw [hlast]
    constructor
    · exact fun hboth => ⟨hboth.1, Or.inl hboth.2⟩
    · exact fun hboth => ⟨hboth.1, hboth.2.resolve_right h.mode⟩
  flushed := hflushed
  idle := fun hidle => absurd hidle h.mode

lemma Filling.copied {back₀ : β} {hist : List Block} {s s' : CompressStream β}
    {taken bytes : List UInt8} {runs runs' : List (UInt8 × ℕ)} (h : Filling B back₀ hist s taken)
    (htaken : taken = hist.flatMap Block.bytes ++ expand (runs ++ s.collect.pending))
    (hcopied : Copied s s' bytes) (hcollected : Collected s s' runs runs' bytes) :
    Filling B back₀ hist s' (taken ++ bytes) := by
  have hexpand := hcollected.expand_eq
  have hnblock := hcollected.nblock
  have hcollects := hcollected.collects
  have hfirst := hcollected.first
  rw [hcopied.fields]
  refine ⟨h.state, h.blocks, ⟨runs', hcollects, hfirst, ?_⟩, hnblock, h.back, h.out, h.blockNo,
    h.state_out_pos, h.mode⟩
  rw [hexpand, htaken, List.append_assoc]

/-- Input is taken, until a block is full or the call has had all its input. -/
lemma inputPart_spec {back₀ : β} {hist : List Block} {s : CompressStream β} {taken : List UInt8}
    (h : Filling B back₀ hist s taken) (hroom : s.collect.nblock < s.nblockMAX)
    (hexpect : s.mode ≠ .BZ_M_RUNNING → s.avail_in_expect = s.avail_in) :
    ∃ bytes, s.next_in = bytes ++ (s.inputPart B).stream.next_in ∧
      (s.inputPart B).stream.mode = s.mode ∧ (s.inputPart B).stream.nblockMAX = s.nblockMAX ∧
      (s.mode ≠ .BZ_M_RUNNING →
        (s.inputPart B).stream.avail_in_expect = (s.inputPart B).stream.avail_in) ∧
      ((s.inputPart B).stop = true ∧
          Filling B back₀ hist (s.inputPart B).stream (taken ++ bytes) ∧
          (s.inputPart B).stream.collect.nblock < s.nblockMAX ∧ ¬ (s.inputPart B).stream.atEnd ∨
        (s.inputPart B).stop = false ∧
          ∃ b, Emptying B back₀ hist b (s.inputPart B).stream (taken ++ bytes) ∧
            (bytes ≠ [] ∨ (s.inputPart B).stream.collect.pending = [])) := by
  obtain ⟨runs, hcollects, hfirst, htaken⟩ := h.runs
  obtain ⟨bytes, runs', hcopied, hcollected, -⟩ := copyFrom_spec s.next_in rfl hcollects hfirst
    h.nblock
  rw [inputPart, copy_input_until_stop]
  generalize (s.copyFrom s.next_in).2 = t at hcopied hcollected
  generalize (s.copyFrom s.next_in).1 = progress
  have ht := h.copied htaken hcopied hcollected
  have hmode : t.mode = s.mode := by rw [hcopied.fields]
  have hmax : t.nblockMAX = s.nblockMAX := by rw [hcopied.fields]
  have htaken' : taken ++ bytes =
      hist.flatMap Block.bytes ++ expand (runs' ++ t.collect.pending) := by
    rw [hcollected.expand_eq, htaken, List.append_assoc]
  have hexpect' : s.mode ≠ .BZ_M_RUNNING → t.avail_in_expect = t.avail_in := by
    intro hrunning
    have hin := congrArg List.length hcopied.next_in
    rw [hcopied.expect hrunning, hexpect hrunning, avail_in, avail_in, hin, List.length_append,
      Nat.add_sub_cancel_left]
  by_cases hend : t.atEnd
  · rw [if_pos hend]
    obtain ⟨hflush, hnil, hnblock⟩ := hcollected.collects.flush
    refine ⟨bytes, hcopied.next_in, hmode, hmax, hexpect', Or.inr ⟨rfl, _,
      ht.compressBlock hflush ?_ ?_ ?_ fun _ => hend, Or.inr hnil⟩⟩
    · rw [htaken', hnil, List.append_nil]
    · have := hcollected.nblock
      omega
    · rw [decide_eq_true_eq]
      exact (and_iff_right hnil).symm
  · rw [if_neg hend]
    by_cases hfull : t.collect.nblock ≥ t.nblockMAX
    · rw [if_pos hfull]
      have hne : bytes ≠ [] := by
        intro hnil
        rw [hcopied.unchanged hnil] at hfull
        omega
      have hpending : t.collect.pending ≠ [] := by
        -- without a pending run nothing is collected
        intro hnil
        have hch : ¬ t.collect.state_in_ch < 256 := by
          intro hlt
          rw [pending_of_lt hlt] at hnil
          cases hnil
        have hblock := hcollected.collects.block
        rw [hcollected.first.resolve_left hch] at hblock
        rw [BlockState.nblock, hblock] at hfull
        have hzero : (encode []).length = 0 := rfl
        omega
      refine ⟨bytes, hcopied.next_in, hmode, hmax, hexpect', Or.inr ⟨rfl, _,
        ht.compressBlock hcollected.collects htaken' ?_ ?_ fun hnil => absurd hnil hpending,
        Or.inl hne⟩⟩
      · have := hcollected.nblock
        omega
      · exact iff_of_false Bool.false_ne_true fun hboth => hpending hboth.1
    · rw [if_neg hfull]
      have hnil : t.next_in = [] := by
        rcases hcopied.stop with hstop | hstop | hstop
        · omega
        · exact absurd hstop hend
        · exact hstop
      refine ⟨bytes, hcopied.next_in, hmode, hmax, hexpect', Or.inl ⟨?_, ht, ?_, hend⟩⟩
      · rw [avail_in, hnil]
        rfl
      · rw [← hmax]
        exact not_le.mp hfull

/-- What is left to do before the loop ends: a round for each byte, and one more unless everything
has been put into a block. -/
def left (s : CompressStream β) : ℕ :=
  if s.state = .BZ_S_OUTPUT ∧ s.collect.pending = [] then 0 else s.avail_in + 1

variable (B) in
/-- Where the loop may end. -/
def Stopped (s : CompressStream β) : Prop :=
  (s.state = .BZ_S_INPUT ∧ (s.mode = .BZ_M_FLUSHING ∨ ¬ s.atEnd)) ∨
    (s.state = .BZ_S_OUTPUT ∧ (s.mode = .BZ_M_FINISHING ∨ s.state_out_pos < s.numZ B))

/-- **The loop** ends after as many rounds as there is input, and two more, and what holds of the
stream goes on to hold. -/
theorem handle_compress_spec {back₀ : β} {fuel : ℕ} {s : CompressStream β} {taken : List UInt8}
    (h : Inv B back₀ s taken) (hmode : s.mode ≠ .BZ_M_IDLE) (hmax : 0 < s.nblockMAX)
    (hexpect : s.mode ≠ .BZ_M_RUNNING → s.avail_in_expect = s.avail_in) (hfuel : s.left < fuel) :
    ∃ progress s' bytes, s.handle_compress B fuel = some (progress, s') ∧
      s.next_in = bytes ++ s'.next_in ∧ Inv B back₀ s' (taken ++ bytes) ∧ s'.mode = s.mode ∧
      s'.nblockMAX = s.nblockMAX ∧ Stopped B s' := by
  induction fuel generalizing s taken with
  | zero => exact absurd hfuel (Nat.not_lt_zero _)
  | succ fuel ih =>
    -- a round from where input is taken
    have hinput : ∀ {hist : List Block} {s : CompressStream β} {taken : List UInt8} (po : Bool),
        Filling B back₀ hist s taken → s.collect.nblock < s.nblockMAX → 0 < s.nblockMAX →
        (s.mode ≠ .BZ_M_RUNNING → s.avail_in_expect = s.avail_in) → s.avail_in < fuel →
        ∃ progress s' bytes,
          (if (s.inputPart B).stop then
            some (po || (s.inputPart B).progress, (s.inputPart B).stream)
            else (handle_compress B fuel (s.inputPart B).stream).map fun r =>
              (po || (s.inputPart B).progress || r.1, r.2)) = some (progress, s') ∧
          s.next_in = bytes ++ s'.next_in ∧ Inv B back₀ s' (taken ++ bytes) ∧ s'.mode = s.mode ∧
          s'.nblockMAX = s.nblockMAX ∧ Stopped B s' := by
      intro hist s taken po hs hroom hmax hexpect hless
      obtain ⟨bytes, hin, hmode', hmax', hexpect', hpart⟩ := inputPart_spec hs hroom hexpect
      rcases hpart with ⟨hstop, hfilling, hroom', hend⟩ | ⟨hstop, b, hemptying, hnext⟩
      · rw [hstop, if_pos rfl]
        refine ⟨_, _, bytes, rfl, hin, Or.inl ⟨hist, hfilling, ?_⟩, hmode', hmax',
          Or.inl ⟨hfilling.state, Or.inr hend⟩⟩
        rwa [hmax']
      · rw [hstop, if_neg Bool.false_ne_true]
        have hlen := congrArg List.length hin
        rw [List.length_append] at hlen
        have hleft : (s.inputPart B).stream.left < fuel := by
          rw [left, hemptying.state]
          split_ifs with hnil
          · omega
          · have hne := hnext.resolve_right fun hpending => hnil ⟨rfl, hpending⟩
            have hpos := List.length_pos_of_ne_nil hne
            rw [avail_in] at hless ⊢
            omega
        obtain ⟨progress, s', bytes', hrun, hin', hinv, hmode'', hmax'', hstopped⟩ :=
          ih (Or.inr ⟨hist, b, hemptying⟩) (hmode'.trans_ne hs.mode) (hmax'.symm ▸ hmax)
            (fun hne => hexpect' (hmode' ▸ hne)) hleft
        rw [hrun]
        refine ⟨_, s', bytes ++ bytes', rfl, ?_, ?_, hmode''.trans hmode', hmax''.trans hmax',
          hstopped⟩
        · rw [hin, hin', List.append_assoc]
        · rwa [← List.append_assoc]
    rw [handle_compress]
    rcases h with ⟨hist, hfilling, hroom⟩ | ⟨hist, b, hemptying⟩
    · have hstate := hfilling.state
      have houtput : s.state ≠ .BZ_S_OUTPUT := by
        rw [hstate]
        exact Phase.noConfusion
      rw [left, if_neg fun hboth => houtput hboth.1] at hfuel
      rw [if_neg houtput]
      dsimp only
      rw [if_neg Bool.false_ne_true, if_pos hstate]
      exact hinput false hfilling hroom hmax hexpect (Nat.succ_lt_succ_iff.mp hfuel)
    · obtain ⟨hkept, hpart⟩ := outputPart_spec hemptying hmode hmax
      have hin : s.next_in = [] ++ (s.outputPart B).stream.next_in := hkept.next_in.symm
      rw [if_pos hemptying.state]
      dsimp only
      rcases hpart with ⟨hstop, hemptying', hend⟩ | ⟨hfilling, hroom, hstop, hpending⟩
      · rw [hstop, if_pos rfl]
        refine ⟨_, _, [], rfl, hin, Or.inr ⟨hist, b, ?_⟩, hkept.mode, hkept.nblockMAX,
          Or.inr ⟨hemptying'.state, ?_⟩⟩
        · rwa [List.append_nil]
        · rw [hkept.mode]
          exact hend.symm
      · by_cases hs : (s.outputPart B).stop = true
        · rw [hs, if_pos rfl]
          refine ⟨_, _, [], rfl, hin, Or.inl ⟨hist ++ [b], ?_, ?_⟩, hkept.mode, hkept.nblockMAX,
            Or.inl ⟨hfilling.state, Or.inl ?_⟩⟩
          · rwa [List.append_nil]
          · rwa [hkept.nblockMAX]
          · rw [hkept.mode]
            exact hstop hs
        · have hne : ¬ (s.state = .BZ_S_OUTPUT ∧ s.collect.pending = []) :=
            fun hboth => hs (hpending hboth.2)
          rw [left, if_neg hne] at hfuel
          rw [if_neg hs, if_pos hfilling.state]
          have hlen : (s.outputPart B).stream.avail_in = s.avail_in :=
            congrArg List.length hkept.next_in
          obtain ⟨progress, s', bytes, hrun, hin', hinv, hmode', hmax', hstopped⟩ :=
            hinput (s.outputPart B).progress hfilling (by rwa [hkept.nblockMAX])
              (by rwa [hkept.nblockMAX])
              (fun hrunning => by
                rw [hkept.avail_in_expect, hlen]
                exact hexpect (hkept.mode ▸ hrunning))
              (by
                rw [hlen]
                exact Nat.succ_lt_succ_iff.mp hfuel)
          rw [hrun]
          refine ⟨progress, s', bytes, rfl, ?_, hinv, hmode'.trans hkept.mode,
            hmax'.trans hkept.nblockMAX, hstopped⟩
          rw [← hin', hkept.next_in]

/-! ## Calls -/

/-- The caller sets the buffers. -/
lemma Inv.setBuffers {back₀ : β} {s : CompressStream β} {taken : List UInt8}
    (h : Inv B back₀ s taken) (next_in : List UInt8) (avail_out : ℕ) :
    Inv B back₀ { s with next_in := next_in, avail_out := avail_out } taken := by
  rcases h with ⟨hist, h, hroom⟩ | ⟨hist, b, h⟩
  · exact Or.inl ⟨hist, ⟨h.state, h.blocks, h.runs, h.nblock, h.back, h.out, h.blockNo,
      h.state_out_pos, h.mode⟩, hroom⟩
  · exact Or.inr ⟨hist, b, h.state, h.blocks, h.block, h.pending, h.none, h.taken_eq, h.back,
      h.state_out_pos, h.out, h.blockNo, h.last, h.flushed, h.idle⟩

/-- A stream that is running begins to flush or to finish. -/
lemma Inv.begin {back₀ : β} {s : CompressStream β} {taken : List UInt8} (h : Inv B back₀ s taken)
    (hmode : s.mode = .BZ_M_RUNNING) (mode : Mode) (hnew : mode ≠ .BZ_M_IDLE) (expect : ℕ) :
    Inv B back₀ { s with avail_in_expect := expect, mode := mode } taken := by
  rcases h with ⟨hist, h, hroom⟩ | ⟨hist, b, h⟩
  · exact Or.inl ⟨hist, ⟨h.state, h.blocks, h.runs, h.nblock, h.back, h.out, h.blockNo,
      h.state_out_pos, hnew⟩, hroom⟩
  · -- a run is pending, so the block is not the last one
    have hpending : s.collect.pending ≠ [] := fun hnil => (h.flushed hnil).1 hmode
    refine Or.inr ⟨hist, b, h.state, h.blocks, h.block, h.pending, h.none, h.taken_eq, h.back,
      h.state_out_pos, h.out, h.blockNo, ?_, fun hnil => absurd hnil hpending,
      fun hidle => absurd hidle hnew⟩
    rw [h.last]
    exact iff_of_false (fun hboth => hpending hboth.1) fun hboth => hpending hboth.1

/-- A stream is flushed: it goes on running. -/
lemma Inv.run {back₀ : β} {s : CompressStream β} {taken : List UInt8} (h : Inv B back₀ s taken)
    (hmode : s.mode = .BZ_M_FLUSHING) (hstopped : Stopped B s) (hdone : ¬ s.notDone B) :
    Inv B back₀ { s with mode := .BZ_M_RUNNING } taken := by
  rcases h with ⟨hist, h, hroom⟩ | ⟨hist, b, h⟩
  · exact Or.inl ⟨hist, ⟨h.state, h.blocks, h.runs, h.nblock, h.back, h.out, h.blockNo,
      h.state_out_pos, Mode.noConfusion⟩, hroom⟩
  · rcases hstopped with ⟨hstate, -⟩ | ⟨-, hfinish | hmore⟩
    · rw [h.state] at hstate
      cases hstate
    · rw [hmode] at hfinish
      cases hfinish
    · exact absurd (Or.inr (Or.inr hmore)) hdone

/-- A stream is finished. -/
lemma Inv.finish {back₀ : β} {s : CompressStream β} {taken : List UInt8} (h : Inv B back₀ s taken)
    (hmode : s.mode = .BZ_M_FINISHING) (hstopped : Stopped B s) (hdone : ¬ s.notDone B) :
    Inv B back₀ { s with mode := .BZ_M_IDLE } taken := by
  rw [notDone, not_or, not_or] at hdone
  obtain ⟨hexpect, hempty, hpos⟩ := hdone
  rcases h with ⟨hist, h, hroom⟩ | ⟨hist, b, h⟩
  · rcases hstopped with ⟨-, hflush | hend⟩ | ⟨hstate, -⟩
    · rw [hmode] at hflush
      cases hflush
    · refine absurd ⟨?_, Nat.eq_zero_of_not_pos hexpect⟩ hend
      rw [hmode]
      exact Mode.noConfusion
    · rw [h.state] at hstate
      cases hstate
  · have hnil : s.collect.pending = [] :=
      (isempty_RL_iff h.pending).mp (Bool.eq_true_of_not_eq_false hempty)
    refine Or.inr ⟨hist, b, h.state, h.blocks, h.block, h.pending, h.none, h.taken_eq, h.back,
      h.state_out_pos, h.out, h.blockNo, ?_, fun _ => ⟨Mode.noConfusion, ?_⟩,
      fun _ => ⟨hnil, le_antisymm h.state_out_pos (not_lt.mp hpos)⟩⟩
    · rw [h.last]
      exact and_congr_right fun _ => iff_of_true (Or.inl hmode) (Or.inr rfl)
    · exact (h.flushed hnil).2

/-- What comes of a call. -/
structure Returns (back₀ : β) (s : CompressStream β) (taken : List UInt8) (code : Code)
    (s' : CompressStream β) (bytes : List UInt8) : Prop where
  next_in : s.next_in = bytes ++ s'.next_in
  inv : Inv B back₀ s' (taken ++ bytes)
  nblockMAX : s'.nblockMAX = s.nblockMAX
  finished : code = .BZ_STREAM_END → s'.mode = .BZ_M_IDLE
  idle : s.mode = .BZ_M_IDLE → s'.mode = .BZ_M_IDLE

/-- A call that is refused. -/
lemma Returns.refused {back₀ : β} {s : CompressStream β} {taken : List UInt8} {code : Code}
    (h : Inv B back₀ s taken) (hcode : code ≠ .BZ_STREAM_END) :
    Returns (B := B) back₀ s taken code s [] :=
  ⟨rfl, by rwa [List.append_nil], rfl, fun hend => absurd hend hcode, id⟩

lemma left_lt (s : CompressStream β) : s.left < s.avail_in + 2 := by
  rw [left]
  split_ifs <;> omega

lemma flushing_spec {back₀ : β} {s : CompressStream β} {taken : List UInt8}
    (action : Action) (h : Inv B back₀ s taken) (hmode : s.mode = .BZ_M_FLUSHING)
    (hmax : 0 < s.nblockMAX) :
    ∃ code s' bytes, flushing B (s.avail_in + 2) s action = some (code, s') ∧
      Returns (B := B) back₀ s taken code s' bytes := by
  rw [flushing]
  by_cases haction : action ≠ .BZ_FLUSH
  · rw [if_pos haction]
    exact ⟨_, s, [], rfl, Returns.refused h Code.noConfusion⟩
  · rw [if_neg haction]
    by_cases hexpect : s.avail_in_expect ≠ s.avail_in
    · rw [if_pos hexpect]
      exact ⟨_, s, [], rfl, Returns.refused h Code.noConfusion⟩
    · rw [if_neg hexpect]
      have hidle : s.mode ≠ .BZ_M_IDLE := by
        rw [hmode]
        exact Mode.noConfusion
      obtain ⟨progress, s', bytes, hrun, hin, hinv, hmode', hmax', hstopped⟩ :=
        handle_compress_spec h hidle hmax (fun _ => not_not.mp hexpect) (left_lt s)
      rw [hrun, Option.map_some]
      dsimp only
      by_cases hdone : s'.notDone B
      · rw [if_pos hdone]
        exact ⟨_, s', bytes, rfl, hin, hinv, hmax', Code.noConfusion, fun hm => absurd hm hidle⟩
      · rw [if_neg hdone]
        exact ⟨_, _, bytes, rfl, hin, hinv.run (hmode'.trans hmode) hstopped hdone, hmax',
          Code.noConfusion, fun hm => absurd hm hidle⟩

lemma finishing_spec {back₀ : β} {s : CompressStream β} {taken : List UInt8}
    (action : Action) (h : Inv B back₀ s taken) (hmode : s.mode = .BZ_M_FINISHING)
    (hmax : 0 < s.nblockMAX) :
    ∃ code s' bytes, finishing B (s.avail_in + 2) s action = some (code, s') ∧
      Returns (B := B) back₀ s taken code s' bytes := by
  rw [finishing]
  by_cases haction : action ≠ .BZ_FINISH
  · rw [if_pos haction]
    exact ⟨_, s, [], rfl, Returns.refused h Code.noConfusion⟩
  · rw [if_neg haction]
    by_cases hexpect : s.avail_in_expect ≠ s.avail_in
    · rw [if_pos hexpect]
      exact ⟨_, s, [], rfl, Returns.refused h Code.noConfusion⟩
    · rw [if_neg hexpect]
      have hidle : s.mode ≠ .BZ_M_IDLE := by
        rw [hmode]
        exact Mode.noConfusion
      obtain ⟨progress, s', bytes, hrun, hin, hinv, hmode', hmax', hstopped⟩ :=
        handle_compress_spec h hidle hmax (fun _ => not_not.mp hexpect) (left_lt s)
      rw [hrun, Option.map_some]
      dsimp only
      by_cases hprogress : progress = false
      · rw [if_pos hprogress]
        exact ⟨_, s', bytes, rfl, hin, hinv, hmax', Code.noConfusion, fun hm => absurd hm hidle⟩
      · rw [if_neg hprogress]
        by_cases hdone : s'.notDone B
        · rw [if_pos hdone]
          exact ⟨_, s', bytes, rfl, hin, hinv, hmax', Code.noConfusion, fun hm => absurd hm hidle⟩
        · rw [if_neg hdone]
          exact ⟨_, _, bytes, rfl, hin, hinv.finish (hmode'.trans hmode) hstopped hdone, hmax',
            fun _ => rfl, fun _ => rfl⟩

/-- **Step lemma.** A call returns, and what holds of the stream goes on to hold. -/
theorem call_spec {back₀ : β} {s : CompressStream β} {taken : List UInt8} (c : Call)
    (h : Inv B back₀ s taken) (hmax : 0 < s.nblockMAX) :
    ∃ code s' bytes, s.call B c = some (code, s') ∧
      Returns (B := B) back₀ { s with next_in := c.next_in, avail_out := c.avail_out } taken code s'
        bytes := by
  replace h := h.setBuffers c.next_in c.avail_out
  rw [call, BZ2_bzCompress.eq_def]
  generalize hs : ({ s with next_in := c.next_in, avail_out := c.avail_out } : CompressStream β) = t
    at h
  have hmax' : 0 < t.nblockMAX := by rwa [← hs]
  have hlen : c.next_in.length = t.avail_in := by rw [← hs, avail_in]
  rw [hlen]
  cases hmode : t.mode with
  | BZ_M_IDLE => exact ⟨_, t, [], rfl, Returns.refused h Code.noConfusion⟩
  | BZ_M_FLUSHING => exact flushing_spec _ h hmode hmax'
  | BZ_M_FINISHING => exact finishing_spec _ h hmode hmax'
  | BZ_M_RUNNING =>
    have hidle : t.mode ≠ .BZ_M_IDLE := by
      rw [hmode]
      exact Mode.noConfusion
    cases c.action with
    | BZ_RUN =>
      obtain ⟨progress, s', bytes, hrun, hin, hinv, hmode', hmax'', -⟩ :=
        handle_compress_spec h hidle hmax' (fun hne => absurd hmode hne) (left_lt t)
      dsimp only
      rw [hrun, Option.map_some]
      refine ⟨_, s', bytes, rfl, hin, hinv, hmax'', ?_, fun hm => absurd hm hidle⟩
      split_ifs
      · exact False.elim
      · exact False.elim
    | BZ_FLUSH =>
      obtain ⟨code, s', bytes, hrun, hret⟩ := flushing_spec .BZ_FLUSH
        (h.begin hmode .BZ_M_FLUSHING Mode.noConfusion t.avail_in) rfl hmax'
      exact ⟨code, s', bytes, hrun, hret.next_in, hret.inv, hret.nblockMAX, hret.finished,
        fun hm => absurd hm hidle⟩
    | BZ_FINISH =>
      obtain ⟨code, s', bytes, hrun, hret⟩ := finishing_spec .BZ_FINISH
        (h.begin hmode .BZ_M_FINISHING Mode.noConfusion t.avail_in) rfl hmax'
      exact ⟨code, s', bytes, hrun, hret.next_in, hret.inv, hret.nblockMAX, hret.finished,
        fun hm => absurd hm hidle⟩
    | other => exact ⟨_, t, [], rfl, Returns.refused h Code.noConfusion⟩

/-- **Run lemma.** -/
lemma calls_spec {back₀ : β} (cs : List Call) :
    ∀ {s : CompressStream β} {taken : List UInt8}, Inv B back₀ s taken → 0 < s.nblockMAX →
      ∃ codes bytes s', s.calls B cs = some (codes, bytes, s') ∧
        Inv B back₀ s' (taken ++ bytes) ∧ s'.nblockMAX = s.nblockMAX ∧
        (.BZ_STREAM_END ∈ codes ∨ s.mode = .BZ_M_IDLE → s'.mode = .BZ_M_IDLE) := by
  induction cs with
  | nil =>
    intro s taken h hmax
    refine ⟨[], [], s, rfl, by rwa [List.append_nil], rfl, ?_⟩
    rintro (hend | hidle)
    · cases hend
    · exact hidle
  | cons c cs ih =>
    intro s taken h hmax
    obtain ⟨code, s₁, bytes, hcall, hret⟩ := call_spec c h hmax
    obtain ⟨codes, bytes', s', hcalls, hinv, hmax', hidle⟩ := ih hret.inv
      (hret.nblockMAX.symm ▸ hmax)
    have hin : c.next_in = bytes ++ s₁.next_in := hret.next_in
    have htake : c.next_in.take (c.next_in.length - s₁.avail_in) = bytes := by
      rw [avail_in, hin, List.length_append, Nat.add_sub_cancel, List.take_left]
    refine ⟨code :: codes, bytes ++ bytes', s', ?_, ?_, hmax'.trans hret.nblockMAX, ?_⟩
    · rw [calls, hcall]
      simp only [Option.bind_eq_bind, Option.bind_some, hcalls, htake]
      rfl
    · rwa [← List.append_assoc]
    · rintro (hend | hm)
      · rcases List.mem_cons.mp hend with hend | hend
        · exact hidle (Or.inr (hret.finished hend.symm))
        · exact hidle (Or.inl hend)
      · exact hidle (Or.inr (hret.idle hm))

variable (B) in
lemma inv_init (back₀ : β) {blockSize100k : ℕ} (hsize : 1 ≤ blockSize100k) :
    Inv B back₀ (init B blockSize100k back₀) [] := by
  have hcollects : Collects (init B blockSize100k back₀).collect [] :=
    ⟨rfl, by simp [BlockState.pending, init, prepare_new_block, init_RL],
      by simp [BlockState.pending, init, prepare_new_block, init_RL],
      fun _ => ⟨rfl, rfl⟩, fun b => iff_of_false Bool.false_ne_true List.not_mem_nil, rfl⟩
  refine Or.inl ⟨[], ⟨rfl, fun b hb => absurd hb List.not_mem_nil, ⟨[], hcollects, Or.inr rfl, rfl⟩,
    Nat.zero_le _, rfl, rfl, rfl, rfl, Mode.noConfusion⟩, ?_⟩
  show 0 < 100000 * blockSize100k - 19
  omega

variable (B) in
/-- **Nothing is lost.** However the input and the room are cut into calls, and whatever the calls
ask for, every call returns; what is taken is what the blocks so far stand for, with what is still
collected; and what is written is what is made of the blocks, as far as it is out. When the stream
is finished all that was taken is in the blocks, all that is made of them is out, and the last one
was made as the last one. -/
theorem calls_lossless (back₀ : β) {blockSize100k : ℕ} (hsize : 1 ≤ blockSize100k)
    (cs : List Call) :
    ∃ codes taken s hist runs,
      (init B blockSize100k back₀).calls B cs = some (codes, taken, s) ∧
      (∀ b ∈ hist, b.Ok (100000 * blockSize100k - 19)) ∧
      taken = hist.flatMap Block.bytes ++ expand (runs ++ s.collect.pending) ∧
      (if s.state = .BZ_S_INPUT then s.collect.block = encode runs else runs = []) ∧
      s.out <+: written B back₀ 1 hist ∧
      (.BZ_STREAM_END ∈ codes → taken = hist.flatMap Block.bytes ∧ s.out = written B back₀ 1 hist ∧
        ∃ bs b, hist = bs ++ [b] ∧ b.last = true ∧ ∀ c ∈ bs, c.last = false) := by
  have hmax : 0 < (init B blockSize100k back₀).nblockMAX := by
    show 0 < 100000 * blockSize100k - 19
    omega
  obtain ⟨codes, taken, s, hcalls, hinv, hmax', hidle⟩ :=
    calls_spec cs (inv_init B back₀ hsize) hmax
  have hnblockMAX : s.nblockMAX = 100000 * blockSize100k - 19 := hmax'
  rw [List.nil_append] at hinv
  rcases hinv with ⟨hist, h, -⟩ | ⟨hist, b, h⟩
  · obtain ⟨runs, hcollects, -, htaken⟩ := h.runs
    refine ⟨codes, taken, s, hist, runs, hcalls, fun b hb => hnblockMAX ▸ (h.blocks b hb).1, htaken,
      ?_, ?_, fun hend => absurd (hidle (Or.inl hend)) h.mode⟩
    · rw [if_pos h.state]
      exact hcollects.block
    · rw [h.out]
  · refine ⟨codes, taken, s, hist ++ [b], [], hcalls, ?_, h.taken_eq, ?_, ?_, ?_⟩
    · intro c hc
      rw [← hnblockMAX]
      rcases List.mem_append.mp hc with hc | hc
      · exact (h.blocks c hc).1
      · rw [List.mem_singleton.mp hc]
        exact h.block
    · rw [h.state, if_neg Phase.noConfusion]
    · rw [← h.out]
      exact List.prefix_append _ _
    · intro hend
      have hm := hidle (Or.inl hend)
      obtain ⟨hnil, hpos⟩ := h.idle hm
      refine ⟨?_, ?_, hist, b, rfl, h.last.mpr ⟨hnil, Or.inr hm⟩, fun c hc => (h.blocks c hc).2⟩
      · rw [h.taken_eq, hnil]
        exact List.append_nil _
      · have hdrop : (B.zbits s.back).drop s.state_out_pos = [] :=
          List.drop_eq_nil_of_le hpos.ge
        rw [← h.out, hdrop, List.append_nil]

/-- Blocks as they are, one after another. -/
def storing : BlockCompressor (List UInt8) where
  zbits z := z
  clear _ := []
  compressBlock z s _ _ := z ++ s.block

theorem calls_lossless_storing :
    ∃ codes taken s hist runs,
      (init storing 1 []).calls storing
        [⟨.BZ_RUN, [7, 7, 7, 7, 7], 0⟩, ⟨.BZ_FLUSH, [8], 1⟩, ⟨.BZ_FLUSH, [], 9⟩,
          ⟨.BZ_FINISH, [8, 8], 9⟩] = some (codes, taken, s) ∧
      taken = hist.flatMap Block.bytes ++ expand (runs ++ s.collect.pending) ∧
      s.out <+: written storing [] 1 hist := by
  obtain ⟨codes, taken, s, hist, runs, hcalls, -, htaken, -, hout, -⟩ :=
    calls_lossless storing [] (le_refl 1)
      [⟨.BZ_RUN, [7, 7, 7, 7, 7], 0⟩, ⟨.BZ_FLUSH, [8], 1⟩, ⟨.BZ_FLUSH, [], 9⟩,
        ⟨.BZ_FINISH, [8, 8], 9⟩]
  exact ⟨codes, taken, s, hist, runs, hcalls, htaken, hout⟩

end CompressStream
end Bzip2
end ClamavWin32
