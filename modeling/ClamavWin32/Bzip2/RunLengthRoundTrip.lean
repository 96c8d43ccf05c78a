import ClamavWin32.Bzip2.RunLengthTheorems

/-!
# Run lengths: the round trip

The input is a row of runs. A block holds some of them, each by up to four of its bytes and a count.

* `contents_encode`: a block is read back as the runs it holds;
* `Collects`: what the functions that collect a block keep.
-/

namespace ClamavWin32
namespace Bzip2

/-! ## Runs -/

/-- A run of bytes in a block. -/
def encodeRun (p : UInt8 × ℕ) : List UInt8 :=
  List.replicate (min p.2 4) p.1 ++ if 4 ≤ p.2 then [UInt8.ofNat (p.2 - 4)] else []

def encode (runs : List (UInt8 × ℕ)) : List UInt8 := runs.flatMap encodeRun

def expand (runs : List (UInt8 × ℕ)) : List UInt8 :=
  runs.flatMap fun p => List.replicate p.2 p.1

/-- The end of a run is seen in the block. -/
def Separate (p q : UInt8 × ℕ) : Prop := p.1 ≠ q.1 ∨ 4 ≤ p.2

/-- A run that the program makes. -/
def IsRun (p : UInt8 × ℕ) : Prop := 1 ≤ p.2 ∧ p.2 ≤ 255

lemma encodeRun_of_lt {p : UInt8 × ℕ} (h : p.2 < 4) :
    encodeRun p = List.replicate p.2 p.1 := by
  rw [encodeRun, if_neg (not_le.mpr h), Nat.min_eq_left h.le, List.append_nil]

lemma encodeRun_of_le {p : UInt8 × ℕ} (h : 4 ≤ p.2) :
    encodeRun p = List.replicate 4 p.1 ++ [UInt8.ofNat (p.2 - 4)] := by
  rw [encodeRun, if_pos h, Nat.min_eq_right h]

lemma length_encodeRun_le (p : UInt8 × ℕ) : (encodeRun p).length ≤ 5 := by
  rw [encodeRun, List.length_append, List.length_replicate]
  split_ifs
  · rw [List.length_singleton]
    omega
  · rw [List.length_nil]
    omega

lemma exists_encodeRun {p : UInt8 × ℕ} (h : IsRun p) : ∃ bs, encodeRun p = p.1 :: bs := by
  obtain ⟨k, hk⟩ : ∃ k, min p.2 4 = k + 1 := ⟨min p.2 4 - 1, by have := h.1; omega⟩
  rw [encodeRun, hk, List.replicate_succ]
  exact ⟨_, rfl⟩

/-! ## Reading -/

section

variable {σ : Type*} (get : σ → Option (UInt8 × σ)) {save_nblock : ℕ}

/-- These bytes are read next. -/
def Yields : σ → List UInt8 → Prop
  | _, [] => True
  | c, b :: bs => ∃ c', get c = some (b, c') ∧ Yields c' bs

variable {get} {s : RunState σ} {y m : UInt8} {bs : List UInt8}

namespace RunState

lemma read_of_yields (h : Yields get s.cursor (y :: bs)) :
    ∃ c, s.read get = some (y, { s with cursor := c, nblock_used := s.nblock_used + 1 }) ∧
      Yields get c bs := by
  obtain ⟨c, hget, hrest⟩ := h
  refine ⟨c, ?_, hrest⟩
  rw [read, hget]
  rfl

variable (save_nblock) in
/-- The run ends here. -/
lemma readSame_last (len : ℕ) (rest : RunState σ → Option (RunState σ))
    (h : Yields get s.cursor (y :: bs)) (hstop : s.nblock_used = save_nblock ∨ y ≠ s.k0) :
    ∃ s', readSame get save_nblock len rest s = some s' ∧ s'.state_out_len = len ∧
      s'.state_out_ch = s.state_out_ch ∧ s'.nblock_used = s.nblock_used + 1 ∧
      (s.nblock_used ≠ save_nblock → s'.k0 = y ∧ Yields get s'.cursor bs) := by
  obtain ⟨c, hread, hrest⟩ := read_of_yields (s := { s with state_out_len := len }) h
  rw [readSame, hread, Option.bind_some]
  dsimp only
  by_cases hused : s.nblock_used = save_nblock
  · rw [if_pos (congrArg Nat.succ hused)]
    exact ⟨_, rfl, rfl, rfl, rfl, absurd hused⟩
  · rw [if_neg (fun h => hused (Nat.succ.inj h)), if_pos (hstop.resolve_left hused)]
    exact ⟨_, rfl, rfl, rfl, rfl, fun _ => ⟨rfl, hrest⟩⟩

variable (save_nblock) in
/-- The run goes on. -/
lemma readSame_more (len : ℕ) (rest : RunState σ → Option (RunState σ)) (hk0 : s.k0 = y)
    (h : Yields get s.cursor (y :: bs)) (hused : s.nblock_used < save_nblock) :
    ∃ s', readSame get save_nblock len rest s = rest s' ∧ s'.k0 = y ∧
      s'.state_out_ch = s.state_out_ch ∧ s'.nblock_used = s.nblock_used + 1 ∧
      Yields get s'.cursor bs := by
  obtain ⟨c, hread, hrest⟩ := read_of_yields (s := { s with state_out_len := len }) h
  rw [readSame, hread, Option.bind_some]
  dsimp only
  rw [if_neg (by omega), if_neg (not_not.mpr hk0.symm)]
  exact ⟨_, rfl, hk0, rfl, rfl, hrest⟩

lemma readCount_of_yields (h : Yields get s.cursor (m :: y :: bs)) :
    ∃ s', readCount get s = some s' ∧ s'.state_out_len = m.toNat + 4 ∧
      s'.state_out_ch = s.state_out_ch ∧ s'.nblock_used = s.nblock_used + 2 ∧ s'.k0 = y ∧
      Yields get s'.cursor bs := by
  obtain ⟨c, hread, hrest⟩ := read_of_yields h
  obtain ⟨c', hread', hrest'⟩ := read_of_yields
    (s := { s with cursor := c, nblock_used := s.nblock_used + 1, state_out_len := m.toNat + 4 })
    hrest
  rw [readCount, hread, Option.bind_some, hread', Option.map_some]
  exact ⟨_, rfl, rfl, rfl, rfl, rfl, hrest'⟩

/-- What is left of the block behind a run, and one more byte, whatever it is. -/
structure Behind (get : σ → Option (UInt8 × σ)) (save_nblock : ℕ) (s : RunState σ)
    (block : List UInt8) (x : UInt8) : Prop where
  used : s.nblock_used + block.length = save_nblock + 1
  ahead : block ≠ [] → ∃ bs, block ++ [x] = s.k0 :: bs ∧ Yields get s.cursor bs

variable (save_nblock) in
/-- A short run is read to its end. -/
lemma readSame_end (len : ℕ) (rest : RunState σ → Option (RunState σ)) {block : List UInt8}
    {x : UInt8} (hused : s.nblock_used + block.length = save_nblock)
    (h : Yields get s.cursor (block ++ [x])) (hsep : ∀ b ∈ block.head?, b ≠ s.k0) :
    ∃ s', readSame get save_nblock len rest s = some s' ∧ s'.state_out_len = len ∧
      s'.state_out_ch = s.state_out_ch ∧ Behind get save_nblock s' block x := by
  cases block with
  | nil =>
    obtain ⟨s', hread, hlen, hch, hused', -⟩ :=
      readSame_last save_nblock len rest h (Or.inl hused)
    refine ⟨s', hread, hlen, hch, ?_, fun hnil => absurd rfl hnil⟩
    rw [hused', ← hused]
    rfl
  | cons b block =>
    rw [List.length_cons] at hused
    obtain ⟨s', hread, hlen, hch, hused', hnext⟩ :=
      readSame_last save_nblock len rest h (Or.inr (hsep b rfl))
    obtain ⟨hk0, hyields⟩ := hnext (by omega)
    refine ⟨s', hread, hlen, hch, ?_, fun _ => ⟨_, ?_, hyields⟩⟩
    · rw [hused', List.length_cons]
      omega
    · rw [hk0]
      rfl

/-- A run is read to its end, and no further. -/
lemma startRun_encodeRun {p : UInt8 × ℕ} (hp : IsRun p) {block : List UInt8} {x : UInt8}
    (h : Behind get save_nblock s (encodeRun p ++ block) x)
    (hsep : p.2 < 4 → ∀ b ∈ block.head?, b ≠ p.1) :
    ∃ s', startRun get save_nblock s = some s' ∧ s'.state_out_len = p.2 ∧
      s'.state_out_ch = p.1 ∧ Behind get save_nblock s' block x := by
  obtain ⟨tail, htail⟩ := exists_encodeRun hp
  obtain ⟨bs, hbs, hyields⟩ := h.ahead (by rw [htail]; exact List.cons_ne_nil _ _)
  have hk0 : s.k0 = p.1 := by
    rw [htail] at hbs
    exact (List.cons.inj hbs).1.symm
  have hused := h.used
  rw [List.length_append] at hused
  rw [startRun]
  generalize ht : ({ s with state_out_ch := s.k0 } : RunState σ) = t
  have hk : t.k0 = p.1 := by rw [← ht, hk0]
  have hch : t.state_out_ch = p.1 := by rw [← ht, hk0]
  have hcursor : Yields get t.cursor bs := by rwa [← ht]
  have huse : t.nblock_used = s.nblock_used := by rw [← ht]
  by_cases hlong : 4 ≤ p.2
  · -- four bytes and their count
    rw [encodeRun_of_le hlong] at hbs hused
    rw [List.length_append, List.length_replicate, List.length_singleton] at hused
    obtain rfl := (List.cons.inj hbs).2
    obtain ⟨s₁, hread₁, hk₁, hch₁, hused₁, hyields₁⟩ := readSame_more save_nblock 1
      (readSame get save_nblock 2 (readSame get save_nblock 3 (readCount get))) hk hcursor
      (by omega)
    obtain ⟨s₂, hread₂, hk₂, hch₂, hused₂, hyields₂⟩ := readSame_more save_nblock 2
      (readSame get save_nblock 3 (readCount get)) hk₁ hyields₁ (by omega)
    obtain ⟨s₃, hread₃, hk₃, hch₃, hused₃, hyields₃⟩ := readSame_more save_nblock 3
      (readCount get) hk₂ hyields₂ (by omega)
    obtain ⟨next, bs, hnext⟩ : ∃ b bs, block ++ [x] = b :: bs := by
      cases block with
      | nil => exact ⟨x, [], rfl⟩
      | cons b block => exact ⟨b, block ++ [x], rfl⟩
    have hcount : Yields get s₃.cursor (UInt8.ofNat (p.2 - 4) :: (block ++ [x])) := hyields₃
    rw [hnext] at hcount
    obtain ⟨s', hread, hlen, hch', hused', hk', hyields'⟩ := readCount_of_yields hcount
    have hp2 := hp.2
    refine ⟨s', ?_, ?_, ?_, ?_, fun _ => ⟨bs, ?_, hyields'⟩⟩
    · rw [hread₁, hread₂, hread₃, hread]
    · rw [hlen, UInt8.toNat_ofNat_of_lt' (by show _ < 256; omega)]
      omega
    · rw [hch', hch₃, hch₂, hch₁, hch]
    · omega
    · rw [hnext, hk']
  · have hshort : p.2 < 4 := by omega
    have hone := hp.1
    rw [encodeRun_of_lt hshort] at hbs hused
    rw [List.length_replicate] at hused
    replace hsep := hsep hshort
    obtain hlen | hlen | hlen : p.2 = 1 ∨ p.2 = 2 ∨ p.2 = 3 := by omega
    · rw [hlen] at hbs ⊢
      have hblock : Yields get t.cursor (block ++ [x]) := by
        rw [(List.cons.inj hbs).2.symm] at hcursor
        exact hcursor
      obtain ⟨s', hread, hlen', hch', hbehind⟩ := readSame_end save_nblock 1
        (readSame get save_nblock 2 (readSame get save_nblock 3 (readCount get)))
        (by omega) hblock (by rwa [hk])
      exact ⟨s', hread, hlen', hch'.trans hch, hbehind⟩
    · rw [hlen] at hbs ⊢
      have hblock : Yields get t.cursor (p.1 :: (block ++ [x])) := by
        rw [(List.cons.inj hbs).2.symm] at hcursor
        exact hcursor
      obtain ⟨s₁, hread₁, hk₁, hch₁, hused₁, hyields₁⟩ := readSame_more save_nblock 1
        (readSame get save_nblock 2 (readSame get save_nblock 3 (readCount get))) hk hblock
        (by omega)
      obtain ⟨s', hread, hlen', hch', hbehind⟩ := readSame_end save_nblock 2
        (readSame get save_nblock 3 (readCount get)) (by omega) hyields₁ (by rwa [hk₁])
      exact ⟨s', hread₁.trans hread, hlen', hch'.trans (hch₁.trans hch), hbehind⟩
    · rw [hlen] at hbs ⊢
      have hblock : Yields get t.cursor (p.1 :: p.1 :: (block ++ [x])) := by
        rw [(List.cons.inj hbs).2.symm] at hcursor
        exact hcursor
      obtain ⟨s₁, hread₁, hk₁, hch₁, hused₁, hyields₁⟩ := readSame_more save_nblock 1
        (readSame get save_nblock 2 (readSame get save_nblock 3 (readCount get))) hk hblock
        (by omega)
      obtain ⟨s₂, hread₂, hk₂, hch₂, hused₂, hyields₂⟩ := readSame_more save_nblock 2
        (readSame get save_nblock 3 (readCount get)) hk₁ hyields₁ (by omega)
      obtain ⟨s', hread, hlen', hch', hbehind⟩ := readSame_end save_nblock 3
        (readCount get) (by omega) hyields₂ (by rwa [hk₂])
      exact ⟨s', hread₁.trans (hread₂.trans hread), hlen',
        hch'.trans (hch₂.trans (hch₁.trans hch)), hbehind⟩

/-- **A block is read back** as the runs it holds, whatever byte is behind it. -/
theorem contents_encode {runs : List (UInt8 × ℕ)} (hruns : ∀ p ∈ runs, IsRun p)
    (hsep : runs.IsChain Separate) {x : UInt8} {s : RunState σ}
    (h : Behind get save_nblock s (encode runs) x) :
    s.contents get save_nblock = (expand runs, false) := by
  induction runs generalizing s with
  | nil => exact contents_of_done h.used
  | cons p runs ih =>
    have hp := hruns p List.mem_cons_self
    have hnext : p.2 < 4 → ∀ b ∈ (encode runs).head?, b ≠ p.1 := by
      intro hshort b hb
      cases runs with
      | nil => cases hb
      | cons q runs =>
        obtain ⟨bs, hbs⟩ := exists_encodeRun (hruns q (by simp))
        rw [encode, List.flatMap_cons, hbs] at hb
        obtain rfl : q.1 = b := Option.some.inj hb
        rcases (List.isChain_cons_cons.mp hsep).1 with hne | hlong
        · exact hne.symm
        · omega
    obtain ⟨s', hstart, hlen, hch, hbehind⟩ := startRun_encodeRun hp h hnext
    have hused := h.used
    obtain ⟨bs, hbs⟩ := exists_encodeRun hp
    rw [contents_of_some ?_ hstart, rest, hlen, hch,
      ih (fun q hq => hruns q (List.mem_cons_of_mem p hq)) hsep.tail hbehind]
    · rfl
    · rw [encode, List.flatMap_cons, hbs, List.cons_append, List.length_cons] at hused
      omega

end RunState

end

/-! ## Collecting a block -/

/-- The run that is not yet in the block. -/
def BlockState.pending (s : BlockState) : List (UInt8 × ℕ) :=
  if s.state_in_ch < 256 then [(UInt8.ofNat s.state_in_ch, s.state_in_len)] else []

/-- What the functions keep: the block holds the runs `runs`, which with the pending one are what
has been put in. -/
structure Collects (s : BlockState) (runs : List (UInt8 × ℕ)) : Prop where
  block : s.block = encode runs
  isRun : ∀ p ∈ runs ++ s.pending, IsRun p
  separate : (runs ++ s.pending).IsChain Separate
  none : ¬ s.state_in_ch < 256 → s.state_in_ch = 256 ∧ s.state_in_len = 0
  inUse : ∀ b : UInt8, s.inUse b.toNat = true ↔ b ∈ s.block
  crc : s.blockCRC = (expand runs).foldl BZ_UPDATE_CRC BZ_INITIALISE_CRC

lemma foldl_replicate (crc : BitVec 32) (ch : UInt8) (n : ℕ) :
    forUpto 0 n (fun _ crc => BZ_UPDATE_CRC crc ch) crc =
      (List.replicate n ch).foldl BZ_UPDATE_CRC crc := by
  induction n with
  | zero => rfl
  | succ n ih =>
    rw [forUpto_succ (Nat.zero_le n), ih, List.replicate_succ', List.foldl_append]
    rfl

lemma mem_encodeRun {p : UInt8 × ℕ} (h : 1 ≤ p.2) (b : UInt8) :
    b ∈ encodeRun p ↔ b = p.1 ∨ 4 ≤ p.2 ∧ b = UInt8.ofNat (p.2 - 4) := by
  have hmin : min p.2 4 ≠ 0 := by omega
  rw [encodeRun, List.mem_append, List.mem_replicate]
  split_ifs with hlong
  · simp [hlong]
  · simp [hmin, hlong]

/-- The run goes to the block. -/
structure PutRun (s t : BlockState) (p : UInt8 × ℕ) : Prop where
  ch : t.state_in_ch = s.state_in_ch
  len : t.state_in_len = s.state_in_len
  block : t.block = s.block ++ encodeRun p
  crc : t.blockCRC = (List.replicate p.2 p.1).foldl BZ_UPDATE_CRC s.blockCRC
  inUse : ∀ b : UInt8, t.inUse b.toNat = true ↔ s.inUse b.toNat = true ∨ b ∈ encodeRun p

lemma inUse_use (s : BlockState) (i j : ℕ) :
    (s.use i).inUse j = true ↔ s.inUse j = true ∨ j = i := by
  rw [BlockState.use]
  by_cases h : j = i
  · simp [h]
  · simp [h]

lemma toNat_eq_iff {n : ℕ} (h : n < 256) (b : UInt8) : b.toNat = n ↔ b = UInt8.ofNat n := by
  have hn : (UInt8.ofNat n).toNat = n := UInt8.toNat_ofNat_of_lt' h
  rw [← UInt8.toNat_inj, hn]

lemma putRun_add_pair_to_block {s : BlockState} (hch : s.state_in_ch < 256)
    (hlen : 1 ≤ s.state_in_len ∧ s.state_in_len ≤ 255) :
    PutRun s (add_pair_to_block s) (UInt8.ofNat s.state_in_ch, s.state_in_len) := by
  have hcrc := foldl_replicate s.blockCRC (UInt8.ofNat s.state_in_ch) s.state_in_len
  obtain hshort | ⟨m, hm⟩ : s.state_in_len < 4 ∨ ∃ m, s.state_in_len = m + 4 := by
    rcases Nat.lt_or_ge s.state_in_len 4 with h | h
    · exact Or.inl h
    · exact Or.inr ⟨s.state_in_len - 4, by omega⟩
  · have henc := encodeRun_of_lt (p := (UInt8.ofNat s.state_in_ch, s.state_in_len)) hshort
    have huse : ∀ b : UInt8, (s.use s.state_in_ch).inUse b.toNat = true ↔ s.inUse b.toNat = true ∨
        b ∈ encodeRun (UInt8.ofNat s.state_in_ch, s.state_in_len) := by
      intro b
      rw [inUse_use, mem_encodeRun hlen.1, toNat_eq_iff hch]
      simp only [not_le.mpr hshort, false_and, or_false]
    have hthree : s.state_in_len = 1 ∨ s.state_in_len = 2 ∨ s.state_in_len = 3 := by omega
    rw [add_pair_to_block]
    dsimp only
    rw [hcrc]
    obtain h | h | h := hthree
    · rw [h] at henc huse
      simp only [BlockState.use, h]
      refine ⟨rfl, h.symm, ?_, rfl, huse⟩
      rw [henc]
      rfl
    · rw [h] at henc huse
      simp only [BlockState.use, h]
      refine ⟨rfl, h.symm, ?_, rfl, huse⟩
      rw [henc]
      simp only [BlockState.put, List.append_assoc]
      rfl
    · rw [h] at henc huse
      simp only [BlockState.use, h]
      refine ⟨rfl, h.symm, ?_, rfl, huse⟩
      rw [henc]
      simp only [BlockState.put, List.append_assoc]
      rfl
  · have henc := encodeRun_of_le (p := (UInt8.ofNat s.state_in_ch, s.state_in_len))
      (show 4 ≤ s.state_in_len by omega)
    have huse : ∀ b : UInt8, ((s.use s.state_in_ch).use (s.state_in_len - 4)).inUse b.toNat = true ↔
        s.inUse b.toNat = true ∨ b ∈ encodeRun (UInt8.ofNat s.state_in_ch, s.state_in_len) := by
      intro b
      have hcount : s.state_in_len - 4 < 256 := by omega
      have hlong : 4 ≤ s.state_in_len := by omega
      rw [inUse_use, inUse_use, mem_encodeRun hlen.1, toNat_eq_iff hch, toNat_eq_iff hcount]
      simp only [hlong, true_and, or_assoc]
    rw [add_pair_to_block]
    dsimp only
    rw [hcrc]
    rw [hm] at henc huse
    simp only [BlockState.use, hm]
    refine ⟨rfl, hm.symm, ?_, rfl, huse⟩
    rw [henc]
    simp only [BlockState.put, List.append_assoc, Nat.add_sub_cancel]
    rfl

/-- The fast track is the common case of the general one. -/
lemma ADD_CHAR_TO_BLOCK_eq {s : BlockState} (hlen : s.state_in_len = 1 → s.state_in_ch < 256)
    (c : UInt8) : ADD_CHAR_TO_BLOCK s c =
      if c.toNat ≠ s.state_in_ch ∨ s.state_in_len = 255 then
        { (if s.state_in_ch < 256 then add_pair_to_block s else s) with
          state_in_ch := c.toNat, state_in_len := 1 }
      else { s with state_in_len := s.state_in_len + 1 } := by
  rw [ADD_CHAR_TO_BLOCK]
  dsimp only
  by_cases hfast : c.toNat ≠ s.state_in_ch ∧ s.state_in_len = 1
  · rw [if_pos hfast, if_pos (Or.inl hfast.1), if_pos (hlen hfast.2), add_pair_to_block]
    simp only [BlockState.use, BlockState.put, hfast.2]
    rfl
  · rw [if_neg hfast]

/-! ## What the functions keep -/

lemma pending_of_lt {s : BlockState} (h : s.state_in_ch < 256) :
    s.pending = [(UInt8.ofNat s.state_in_ch, s.state_in_len)] := by
  rw [BlockState.pending, if_pos h]

lemma pending_of_not_lt {s : BlockState} (h : ¬ s.state_in_ch < 256) : s.pending = [] := by
  rw [BlockState.pending, if_neg h]

/-- The pending run is one that the program makes. -/
lemma Collects.len {s : BlockState} {runs : List (UInt8 × ℕ)} (h : Collects s runs)
    (hch : s.state_in_ch < 256) : 1 ≤ s.state_in_len ∧ s.state_in_len ≤ 255 := by
  have hmem := h.isRun (UInt8.ofNat s.state_in_ch, s.state_in_len)
  rw [pending_of_lt hch] at hmem
  exact hmem (by simp)

lemma encode_append (runs runs' : List (UInt8 × ℕ)) :
    encode (runs ++ runs') = encode runs ++ encode runs' := by
  rw [encode, List.flatMap_append]
  rfl

lemma expand_append (runs runs' : List (UInt8 × ℕ)) :
    expand (runs ++ runs') = expand runs ++ expand runs' := by
  rw [expand, List.flatMap_append]
  rfl

lemma encode_singleton (p : UInt8 × ℕ) : encode [p] = encodeRun p := by
  rw [encode, List.flatMap_singleton]

lemma expand_singleton (p : UInt8 × ℕ) : expand [p] = List.replicate p.2 p.1 := by
  rw [expand, List.flatMap_singleton]

lemma isChain_concat {runs : List (UInt8 × ℕ)} {p : UInt8 × ℕ} :
    (runs ++ [p]).IsChain Separate ↔
      runs.IsChain Separate ∧ ∀ q ∈ runs.getLast?, Separate q p := by
  rw [List.isChain_append]
  simp

/-- The pending run goes to the block. -/
lemma Collects.putRun {s t : BlockState} {runs : List (UInt8 × ℕ)} (h : Collects s runs)
    (hput : PutRun s t (UInt8.ofNat s.state_in_ch, s.state_in_len)) :
    t.block = encode (runs ++ [(UInt8.ofNat s.state_in_ch, s.state_in_len)]) ∧
      (∀ b : UInt8, t.inUse b.toNat = true ↔ b ∈ t.block) ∧
      t.blockCRC = (expand (runs ++ [(UInt8.ofNat s.state_in_ch, s.state_in_len)])).foldl
        BZ_UPDATE_CRC BZ_INITIALISE_CRC := by
  refine ⟨?_, fun b => ?_, ?_⟩
  · rw [hput.block, h.block, encode_append, encode_singleton]
  · rw [hput.inUse, h.inUse, hput.block, List.mem_append]
  · rw [hput.crc, h.crc, expand_append, expand_singleton, List.foldl_append]

lemma length_putRun_le {s t : BlockState} {p : UInt8 × ℕ} (hput : PutRun s t p) :
    t.nblock ≤ s.nblock + 5 := by
  have hlen := length_encodeRun_le p
  rw [BlockState.nblock, BlockState.nblock, hput.block, List.length_append]
  omega

lemma pending_new (t : BlockState) (c : UInt8) :
    ({ t with state_in_ch := c.toNat, state_in_len := 1 } : BlockState).pending = [(c, 1)] := by
  rw [pending_of_lt c.toNat_lt]
  dsimp only
  rw [UInt8.ofNat_toNat]

/-- A new run is begun. -/
lemma Collects.newRun {t : BlockState} {runs : List (UInt8 × ℕ)} (hblock : t.block = encode runs)
    (hruns : ∀ p ∈ runs, IsRun p) (hinUse : ∀ b : UInt8, t.inUse b.toNat = true ↔ b ∈ t.block)
    (hcrc : t.blockCRC = (expand runs).foldl BZ_UPDATE_CRC BZ_INITIALISE_CRC) {c : UInt8}
    (hsep : (runs ++ [(c, 1)]).IsChain Separate) :
    Collects { t with state_in_ch := c.toNat, state_in_len := 1 } runs where
  block := hblock
  isRun := by
    rw [pending_new]
    intro p hp
    rcases List.mem_append.mp hp with hp | hp
    · exact hruns p hp
    · rw [List.mem_singleton.mp hp]
      exact ⟨le_refl 1, Nat.one_le_ofNat⟩
  separate := by
    rw [pending_new]
    exact hsep
  none := fun hnone => absurd c.toNat_lt hnone
  inUse := hinUse
  crc := hcrc

/-- A byte is put in. -/
theorem Collects.addChar {s : BlockState} {runs : List (UInt8 × ℕ)} (h : Collects s runs)
    (hfirst : s.state_in_ch < 256 ∨ runs = []) (c : UInt8) :
    ∃ runs', Collects (ADD_CHAR_TO_BLOCK s c) runs' ∧
      expand (runs' ++ (ADD_CHAR_TO_BLOCK s c).pending) = expand (runs ++ s.pending) ++ [c] ∧
      (ADD_CHAR_TO_BLOCK s c).state_in_ch < 256 ∧
      (ADD_CHAR_TO_BLOCK s c).nblock ≤ s.nblock + 5 := by
  have hc : c.toNat < 256 := c.toNat_lt
  have hlen : s.state_in_len = 1 → s.state_in_ch < 256 := by
    intro hone
    by_contra hch
    have := (h.none hch).2
    omega
  rw [ADD_CHAR_TO_BLOCK_eq hlen]
  by_cases hnew : c.toNat ≠ s.state_in_ch ∨ s.state_in_len = 255
  · rw [if_pos hnew]
    by_cases hch : s.state_in_ch < 256
    · -- the pending run is over
      have hput := putRun_add_pair_to_block hch (h.len hch)
      have hle := length_putRun_le hput
      have hruns := h.putRun hput
      have hsep := h.separate
      rw [if_pos hch]
      rw [← pending_of_lt hch] at hruns
      refine ⟨runs ++ s.pending, Collects.newRun hruns.1 h.isRun hruns.2.1 hruns.2.2
        (isChain_concat.mpr ⟨hsep, fun q hq => ?_⟩), ?_, hc, hle⟩
      · rw [pending_of_lt hch, List.getLast?_concat] at hq
        cases hq
        rcases hnew with hne | hfull
        · exact Or.inl fun heq => hne ((toNat_eq_iff hch c).mpr heq.symm)
        · right
          dsimp only
          omega
      · rw [pending_new, expand_append (runs ++ s.pending), expand_singleton, List.replicate_one]
    · -- the first byte of the input, or the first one behind a flush
      have hnil : runs = [] := hfirst.resolve_left hch
      subst hnil
      have hsep : ([] ++ [(c, 1)] : List (UInt8 × ℕ)).IsChain Separate := List.isChain_singleton _
      rw [if_neg hch]
      refine ⟨[], Collects.newRun h.block (by simp) h.inUse h.crc hsep, ?_, hc,
        Nat.le_add_right _ _⟩
      rw [pending_new, pending_of_not_lt hch]
      rfl
  · rw [if_neg hnew]
    rw [not_or, not_not] at hnew
    obtain ⟨heq, hfull⟩ := hnew
    have hch : s.state_in_ch < 256 := heq ▸ hc
    have hbounds := h.len hch
    have hpending : ({ s with state_in_len := s.state_in_len + 1 } : BlockState).pending =
        [(UInt8.ofNat s.state_in_ch, s.state_in_len + 1)] := pending_of_lt hch
    have hofNat : UInt8.ofNat s.state_in_ch = c := ((toNat_eq_iff hch c).mp heq).symm
    have hsep := h.separate
    rw [pending_of_lt hch, isChain_concat] at hsep
    refine ⟨runs, ⟨h.block, ?_, ?_, fun hnone => absurd hch hnone, h.inUse, h.crc⟩, ?_, hch,
      Nat.le_add_right _ _⟩
    · rw [hpending]
      intro p hp
      rcases List.mem_append.mp hp with hp | hp
      · exact h.isRun p (List.mem_append_left _ hp)
      · rw [List.mem_singleton.mp hp]
        constructor
        · exact Nat.succ_pos _
        · dsimp only
          omega
    · rw [hpending, isChain_concat]
      exact hsep
    · rw [hpending, pending_of_lt hch, expand_append, expand_append, expand_singleton,
        expand_singleton, List.replicate_succ', hofNat, List.append_assoc]

/-- The pending run is put in, as before a flush and at the end. -/
theorem Collects.flush {s : BlockState} {runs : List (UInt8 × ℕ)} (h : Collects s runs) :
    Collects (flush_RL s) (runs ++ s.pending) ∧ (flush_RL s).pending = [] ∧
      (flush_RL s).nblock ≤ s.nblock + 5 := by
  have hnone : (flush_RL s).pending = [] := pending_of_not_lt (Nat.lt_irrefl 256)
  have hempty : ¬ (flush_RL s).state_in_ch < 256 →
      (flush_RL s).state_in_ch = 256 ∧ (flush_RL s).state_in_len = 0 := fun _ => ⟨rfl, rfl⟩
  have hisRun := h.isRun
  have hsep := h.separate
  by_cases hch : s.state_in_ch < 256
  · have hput := putRun_add_pair_to_block hch (h.len hch)
    have hle := length_putRun_le hput
    have hruns := h.putRun hput
    rw [← pending_of_lt hch] at hruns
    have hflush : flush_RL s = init_RL (add_pair_to_block s) := by rw [flush_RL, if_pos hch]
    refine ⟨⟨?_, ?_, ?_, hempty, ?_, ?_⟩, hnone, ?_⟩
    · rw [hflush]
      exact hruns.1
    · rwa [hnone, List.append_nil]
    · rwa [hnone, List.append_nil]
    · rw [hflush]
      exact hruns.2.1
    · rw [hflush]
      exact hruns.2.2
    · rw [hflush]
      exact hle
  · have hflush : flush_RL s = init_RL s := by rw [flush_RL, if_neg hch]
    rw [pending_of_not_lt hch, List.append_nil] at hisRun hsep
    rw [pending_of_not_lt hch, List.append_nil]
    refine ⟨⟨?_, ?_, ?_, hempty, ?_, ?_⟩, hnone, ?_⟩
    · rw [hflush]
      exact h.block
    · rwa [hnone, List.append_nil]
    · rwa [hnone, List.append_nil]
    · rw [hflush]
      exact h.inUse
    · rw [hflush]
      exact h.crc
    · rw [hflush]
      exact Nat.le_add_right _ _

end Bzip2
end ClamavWin32
