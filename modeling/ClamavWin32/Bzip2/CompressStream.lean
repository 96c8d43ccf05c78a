import ClamavWin32.Bzip2.RunLength

/-!
# The stream interface of the compressor

`BZ2_bzCompress` of `src/3rdparty/bzip2/bzlib.c`: the caller passes input and room for output, as
much as it likes at a time, and says whether it goes on, flushes or finishes.

* `CompressStream`: the fields of `EState` and `bz_stream` that it goes by;
* `handle_compress`: the loop, which ends when input or room is missing;
* `BZ2_bzCompress`, `calls`: a call, and calls one after another.

`BZ2_compressBlock` is a parameter, with the fields that it has to itself.
-/

namespace ClamavWin32
namespace Bzip2

/-- `mode` -/
inductive Mode where
  | BZ_M_IDLE
  | BZ_M_RUNNING
  | BZ_M_FLUSHING
  | BZ_M_FINISHING
  deriving DecidableEq

/-- `state` -/
inductive Phase where
  | BZ_S_OUTPUT
  | BZ_S_INPUT
  deriving DecidableEq

/-- `action`, a number of any value. -/
inductive Action where
  | BZ_RUN
  | BZ_FLUSH
  | BZ_FINISH
  | other
  deriving DecidableEq

inductive Code where
  | BZ_RUN_OK
  | BZ_FLUSH_OK
  | BZ_FINISH_OK
  | BZ_STREAM_END
  | BZ_SEQUENCE_ERROR
  | BZ_PARAM_ERROR
  deriving DecidableEq

/-- `BZ2_compressBlock` and the fields that only it changes: `zbits`, up to `numZ`, is what it makes
of a block. -/
structure BlockCompressor (β : Type*) where
  zbits : β → List UInt8
  /-- `s->numZ = 0` -/
  clear : β → β
  /-- The block, its number, and whether it is the last one. -/
  compressBlock : β → BlockState → ℕ → Bool → β

structure CompressStream (β : Type*) where
  mode : Mode
  state : Phase
  avail_in_expect : ℕ
  collect : BlockState
  nblockMAX : ℕ
  blockNo : ℕ
  state_out_pos : ℕ
  back : β
  next_in : List UInt8
  avail_out : ℕ
  out : List UInt8

namespace CompressStream

variable {β : Type*} (B : BlockCompressor β)

/-- `s->strm->avail_in` -/
def avail_in (s : CompressStream β) : ℕ := s.next_in.length

def numZ (s : CompressStream β) : ℕ := (B.zbits s.back).length

def prepare_new_block (s : CompressStream β) : CompressStream β :=
  { s with
    collect := { s.collect with
      block := []
      blockCRC := BZ_INITIALISE_CRC
      inUse := fun _ => false }
    back := B.clear s.back
    state_out_pos := 0
    blockNo := s.blockNo + 1 }

/-- `BZ2_bzCompressInit`, for parameters in their ranges and memory to be had. -/
def init (blockSize100k : ℕ) (back : β) : CompressStream β :=
  prepare_new_block B
    { mode := .BZ_M_RUNNING
      state := .BZ_S_INPUT
      avail_in_expect := 0
      collect := init_RL ⟨0, 0, [], fun _ => false, 0⟩
      nblockMAX := 100000 * blockSize100k - 19
      blockNo := 0
      state_out_pos := 0
      back := back
      next_in := []
      avail_out := 0
      out := [] }

/-- A byte goes from the input to the block. -/
def copyByte (s : CompressStream β) (c : UInt8) (rest : List UInt8) : CompressStream β :=
  { s with
    collect := ADD_CHAR_TO_BLOCK s.collect c
    next_in := rest
    avail_in_expect :=
      if s.mode = .BZ_M_RUNNING then s.avail_in_expect else s.avail_in_expect - 1 }

/-- Whether a call that flushes or finishes has all its input. -/
def atEnd (s : CompressStream β) : Prop := s.mode ≠ .BZ_M_RUNNING ∧ s.avail_in_expect = 0

instance (s : CompressStream β) : Decidable s.atEnd :=
  inferInstanceAs (Decidable (s.mode ≠ .BZ_M_RUNNING ∧ s.avail_in_expect = 0))

/-- The loop of `copy_input_until_stop`, where `next_in` is the input. -/
def copyFrom (s : CompressStream β) : List UInt8 → Bool × CompressStream β
  | [] => (false, s)
  | c :: rest =>
    if s.collect.nblock ≥ s.nblockMAX then (false, s)
    else if s.atEnd then (false, s)
    else (true, (copyFrom (s.copyByte c rest) rest).2)

def copy_input_until_stop (s : CompressStream β) : Bool × CompressStream β :=
  s.copyFrom s.next_in

def copy_output_until_stop (s : CompressStream β) : Bool × CompressStream β :=
  if s.avail_out = 0 then (false, s)
  else
    match (B.zbits s.back)[s.state_out_pos]? with
    | none => (false, s)
    | some b =>
      (true, (copy_output_until_stop { s with
        out := s.out ++ [b]
        state_out_pos := s.state_out_pos + 1
        avail_out := s.avail_out - 1 }).2)
termination_by s.avail_out
decreasing_by
  show s.avail_out - 1 < s.avail_out
  omega

/-- `BZ2_compressBlock ( s, is_last_block ); s->state = BZ_S_OUTPUT` -/
def compressBlock (s : CompressStream β) (is_last_block : Bool) : CompressStream β :=
  { s with
    back := B.compressBlock s.back s.collect s.blockNo is_last_block
    state := .BZ_S_OUTPUT }

/-- What a part of a round comes to: whether there is progress, and whether the loop is left. -/
structure Part (β : Type*) where
  progress : Bool
  stop : Bool
  stream : CompressStream β

/-- The part for `BZ_S_OUTPUT`. -/
def outputPart (s : CompressStream β) : Part β :=
  let progress := (s.copy_output_until_stop B).1
  let s := (s.copy_output_until_stop B).2
  if s.state_out_pos < s.numZ B then ⟨progress, true, s⟩
  else if s.mode = .BZ_M_FINISHING ∧ s.avail_in_expect = 0 ∧ isempty_RL s.collect then
    ⟨progress, true, s⟩
  else
    let s : CompressStream β := { s.prepare_new_block B with state := .BZ_S_INPUT }
    ⟨progress, decide (s.mode = .BZ_M_FLUSHING ∧ s.avail_in_expect = 0 ∧ isempty_RL s.collect), s⟩

/-- The part for `BZ_S_INPUT`. -/
def inputPart (s : CompressStream β) : Part β :=
  let progress := s.copy_input_until_stop.1
  let s := s.copy_input_until_stop.2
  if s.atEnd then
    ⟨progress, false, compressBlock B { s with collect := flush_RL s.collect }
      (decide (s.mode = .BZ_M_FINISHING))⟩
  else if s.collect.nblock ≥ s.nblockMAX then ⟨progress, false, s.compressBlock B false⟩
  else ⟨progress, decide (s.avail_in = 0), s⟩

/-- `handle_compress`, for up to `fuel` rounds of its loop. -/
def handle_compress : ℕ → CompressStream β → Option (Bool × CompressStream β)
  | 0, _ => none
  | fuel + 1, s =>
    let o : Part β := if s.state = .BZ_S_OUTPUT then s.outputPart B else ⟨false, false, s⟩
    if o.stop then some (o.progress, o.stream)
    else
      let i : Part β := if o.stream.state = .BZ_S_INPUT then o.stream.inputPart B
        else ⟨false, false, o.stream⟩
      if i.stop then some (o.progress || i.progress, i.stream)
      else (handle_compress fuel i.stream).map fun r => (o.progress || i.progress || r.1, r.2)

/-- `s->avail_in_expect > 0 || !isempty_RL(s) || s->state_out_pos < s->numZ` -/
def notDone (s : CompressStream β) : Prop :=
  s.avail_in_expect > 0 ∨ isempty_RL s.collect = false ∨ s.state_out_pos < s.numZ B

instance (s : CompressStream β) : Decidable (s.notDone B) :=
  inferInstanceAs (Decidable (s.avail_in_expect > 0 ∨ isempty_RL s.collect = false ∨
    s.state_out_pos < s.numZ B))

/-- `case BZ_M_FLUSHING` -/
def flushing (fuel : ℕ) (s : CompressStream β) (action : Action) :
    Option (Code × CompressStream β) :=
  if action ≠ .BZ_FLUSH then some (.BZ_SEQUENCE_ERROR, s)
  else if s.avail_in_expect ≠ s.avail_in then some (.BZ_SEQUENCE_ERROR, s)
  else (s.handle_compress B fuel).map fun r =>
    if r.2.notDone B then (.BZ_FLUSH_OK, r.2)
    else (.BZ_RUN_OK, { r.2 with mode := .BZ_M_RUNNING })

/-- `case BZ_M_FINISHING` -/
def finishing (fuel : ℕ) (s : CompressStream β) (action : Action) :
    Option (Code × CompressStream β) :=
  if action ≠ .BZ_FINISH then some (.BZ_SEQUENCE_ERROR, s)
  else if s.avail_in_expect ≠ s.avail_in then some (.BZ_SEQUENCE_ERROR, s)
  else (s.handle_compress B fuel).map fun r =>
    if r.1 = false then (.BZ_SEQUENCE_ERROR, r.2)
    else if r.2.notDone B then (.BZ_FINISH_OK, r.2)
    else (.BZ_STREAM_END, { r.2 with mode := .BZ_M_IDLE })

/-- `BZ2_bzCompress`, for a stream that is one. -/
def BZ2_bzCompress (fuel : ℕ) (s : CompressStream β) (action : Action) :
    Option (Code × CompressStream β) :=
  match s.mode with
  | .BZ_M_IDLE => some (.BZ_SEQUENCE_ERROR, s)
  | .BZ_M_RUNNING =>
    match action with
    | .BZ_RUN => (s.handle_compress B fuel).map fun r =>
        (if r.1 then .BZ_RUN_OK else .BZ_PARAM_ERROR, r.2)
    | .BZ_FLUSH =>
      flushing B fuel { s with avail_in_expect := s.avail_in, mode := .BZ_M_FLUSHING } action
    | .BZ_FINISH =>
      finishing B fuel { s with avail_in_expect := s.avail_in, mode := .BZ_M_FINISHING } action
    | .other => some (.BZ_PARAM_ERROR, s)
  | .BZ_M_FLUSHING => flushing B fuel s action
  | .BZ_M_FINISHING => finishing B fuel s action

/-- A call: what the caller passes. -/
structure Call where
  action : Action
  next_in : List UInt8
  avail_out : ℕ

/-- A call, with the rounds that it may take. -/
def call (s : CompressStream β) (c : Call) : Option (Code × CompressStream β) :=
  BZ2_bzCompress B (c.next_in.length + 2)
    { s with next_in := c.next_in, avail_out := c.avail_out } c.action

/-- Calls one after another: the codes that they return, the input that is taken, and the stream
after them. -/
def calls (s : CompressStream β) : List Call → Option (List Code × List UInt8 × CompressStream β)
  | [] => some ([], [], s)
  | c :: cs => do
    let r ← s.call B c
    let rs ← r.2.calls cs
    return (r.1 :: rs.1, c.next_in.take (c.next_in.length - r.2.avail_in) ++ rs.2.1, rs.2.2)

end CompressStream

end Bzip2
end ClamavWin32
