import ClamavWin32.Resolver.QuestionTheorems

/-!
# The packet of the query over UDP

`res_query_compat` builds its packet in a block of exactly the size it computes first. The
loop over the name writes one byte for each of its characters, from the end down, and the
patches behind it write the bytes that are left.

* `packetLoop_written`: where the loop writes;
* `mem_written_buildPacket`: every byte of the block is written, and no other;
* `packet_exact`: the packet as a function of the name.
-/

namespace ClamavWin32
namespace Resolver

open WriteBuffer

/-- **The loop over the name** writes one byte a turn, from `rev` down. -/
lemma packetLoop_written (dname : CString) (k : ℕ) (start rev : ℤ) (packet : WriteBuffer) :
    (packetLoop dname k start rev packet).2.1 = rev - k ∧
      ∀ o, o ∈ (packetLoop dname k start rev packet).2.2.written ↔
        o ∈ packet.written ∨ (rev - k < o ∧ o ≤ rev) := by
  induction k generalizing start rev packet with
  | zero =>
    refine ⟨by simp [packetLoop], fun o => ?_⟩
    show o ∈ packet.written ↔ _
    rw [or_iff_left (by omega)]
  | succ i ih =>
    -- both branches store one byte at `rev`
    have hturn (c : UInt8) (start' : ℤ) :
        (packetLoop dname i start' (rev - 1) (packet.put rev [c])).2.1 = rev - (i + 1 : ℕ) ∧
          ∀ o, o ∈ (packetLoop dname i start' (rev - 1) (packet.put rev [c])).2.2.written ↔
            o ∈ packet.written ∨ (rev - (i + 1 : ℕ) < o ∧ o ≤ rev) := by
      obtain ⟨hrev, hwritten⟩ := ih start' (rev - 1) (packet.put rev [c])
      refine ⟨by rw [hrev]; push_cast; omega, fun o => ?_⟩
      rw [hwritten, mem_written_put, List.length_singleton, or_assoc]
      apply or_congr_right
      push_cast
      omega
    unfold packetLoop
    dsimp only
    split_ifs
    · exact hturn _ _
    · exact hturn _ _

lemma length_queryHeader (id : UInt16) : (queryHeader id).length = 12 := rfl

/-- The block is written from its first byte to its last, and nothing outside it. -/
lemma mem_written_buildPacket (id : UInt16) (heap : ℤ → UInt8) (dname : CString) (o : ℤ) :
    o ∈ (buildPacket id heap dname).written ↔ 0 ≤ o ∧ o < packetLength dname.length := by
  have hoff : (SIZEOF_HEADER : ℤ) + NS_INT8SZ + dname.length = 13 + dname.length := rfl
  have hsize : (packetLength dname.length : ℤ) = 18 + dname.length := by
    show ((12 + 1 + dname.length + 1 + 2 * 2 : ℕ) : ℤ) = _
    push_cast
    omega
  have huntouched : o ∉ (untouched heap).written := List.not_mem_nil
  obtain ⟨hrev, hwritten⟩ := packetLoop_written dname (dname.length + 1)
    (13 + dname.length) (13 + dname.length) ((untouched heap).put 0 (queryHeader id))
  unfold buildPacket
  dsimp only
  rw [hoff]
  simp only [mem_written_put, hwritten, hrev, length_queryHeader, length_put16,
    List.length_singleton, huntouched, false_or]
  rw [hsize, NS_INT16SZ]
  push_cast
  omega

/-- The length of the question tells that of the pieces. -/
lemma length_encodeLabels_splitOn (dname : CString) :
    (encodeLabels (dname.splitOn DOT)).length = dname.length + 1 := by
  have hquestion := congrArg List.length (compatPacket_drop 0 (fun _ => 0) dname)
  rw [List.length_drop, compatPacket, length_slice] at hquestion
  simp only [List.length_append, List.length_singleton, length_put16, packetLength,
    SIZEOF_HEADER, NS_INT8SZ, NS_INT16SZ] at hquestion
  omega

lemma ofNat_length_mod (l : CString) : UInt8.ofNat (l.length % 256) = UInt8.ofNat l.length := by
  apply UInt8.toNat_inj.mp
  rw [UInt8.toNat_ofNat', UInt8.toNat_ofNat', Nat.mod_mod]

lemma encodeLabels_eq_flatMap (ls : List CString) :
    encodeLabels ls = ls.flatMap fun l => UInt8.ofNat (l.length % 256) :: l := by
  simp only [ofNat_length_mod]
  rfl

/-- **The packet is exact.** Its bytes are all written by the loop and its patches, and
nothing is written outside of it; behind the header stand the pieces of the name between
its dots, each with its length in front, a zero byte, and the type and the class. -/
theorem packet_exact (id : UInt16) (heap : ℤ → UInt8) (dname : CString) :
    (compatPacket id heap dname).length = 18 + dname.length ∧
      (∀ o, o ∈ (buildPacket id heap dname).written ↔ 0 ≤ o ∧ o < 18 + dname.length) ∧
      ((compatPacket id heap dname).drop 12).take (dname.length + 2) =
        (dname.splitOn DOT).flatMap (fun l => UInt8.ofNat (l.length % 256) :: l) ++ [0] ∧
      (compatPacket id heap dname).drop (14 + dname.length) = put16 T_TXT ++ put16 C_IN := by
  have hname : (encodeLabels (dname.splitOn DOT) ++ [0]).length = dname.length + 2 := by
    rw [List.length_append, length_encodeLabels_splitOn, List.length_singleton]
  have hquestion := compatPacket_drop id heap dname
  refine ⟨?_, fun o => ?_, ?_, ?_⟩
  · unfold compatPacket
    rw [length_slice, packetLength, SIZEOF_HEADER, NS_INT8SZ, NS_INT16SZ]
    omega
  · rw [mem_written_buildPacket, packetLength, SIZEOF_HEADER, NS_INT8SZ, NS_INT16SZ]
    push_cast
    omega
  · rw [hquestion, List.append_assoc, ← hname, List.take_left, encodeLabels_eq_flatMap]
  · have hsum : 14 + dname.length = 12 + (dname.length + 2) := by omega
    rw [hsum, ← List.drop_drop, hquestion, List.append_assoc, ← hname, List.drop_left]

end Resolver
end ClamavWin32
