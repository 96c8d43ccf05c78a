import ClamavWin32.Resolver.ResQueryTheorems

/-!
# The question of both paths

The packet of `res_query_compat` is built from its end, with a length byte for every dot of
the name. It has the labels of the wire format, and an empty one behind a dot at the end.

* `packetLoop_suffix`: what the loop has written once it has gone through a part of the name;
* `compatPacket_drop`: the question in the packet;
* `same_question_iff`: when `res_query_dnsapi` writes the same question.
-/

namespace ClamavWin32
namespace Resolver

open WriteBuffer

/-! ## The packet -/

/-- The byte for the length of a label. -/
lemma ofInt_length (l : CString) : UInt8.ofInt (l.length : ℤ) = UInt8.ofNat l.length := by
  show UInt8.ofNat (Int.toNat ((l.length : ℤ) % 2 ^ 8)) = _
  apply UInt8.toNat_inj.mp
  rw [UInt8.toNat_ofNat', UInt8.toNat_ofNat']
  omega

/-- **The loop over the name**, once it has gone through all but the first `k` characters:
the pieces behind the first dot have their lengths in front of them. -/
lemma packetLoop_suffix (dname : CString) (k : ℕ) (hk : k ≤ dname.length) (start rev : ℤ)
    (packet : WriteBuffer) (piece : CString) (pieces : List CString) (hrev : rev = 12 + k)
    (hsplit : (dname.drop k).splitOn DOT = piece :: pieces)
    (hstart : start = 13 + k + piece.length)
    (hslice : packet.slice (13 + k) (dname.length - k + 1) =
      piece ++ (encodeLabels pieces ++ [0])) :
    ∃ (packet' : WriteBuffer) (piece' : CString) (pieces' : List CString),
      packetLoop dname k start rev packet = (13 + (piece'.length : ℤ), 12, packet') ∧
      dname.splitOn DOT = piece' :: pieces' ∧
      packet'.slice 13 (dname.length + 1) = piece' ++ (encodeLabels pieces' ++ [0]) := by
  induction k generalizing start rev packet piece pieces with
  | zero =>
    refine ⟨packet, piece, pieces, ?_, hsplit, ?_⟩
    · unfold packetLoop
      rw [hstart, hrev]
      simp
    · rw [← hslice]
      rfl
  | succ i ih =>
    have hi : i < dname.length := hk
    have hdrop : dname.drop i = dname[i] :: dname.drop (i + 1) := List.drop_eq_getElem_cons hi
    have hcount : dname.length - i + 1 = 1 + (dname.length - (i + 1) + 1) := by omega
    -- a byte in front of the suffix that has been written
    have hput (c : UInt8) : (packet.put rev [c]).slice (13 + i) (dname.length - i + 1) =
        c :: (piece ++ (encodeLabels pieces ++ [0])) := by
      have hoffset : rev = 13 + (i : ℤ) := by
        rw [hrev]
        push_cast
        omega
      have hprepend : (packet.put (13 + i) [c]).slice (13 + i)
          (1 + (dname.length - (i + 1) + 1)) =
            c :: packet.slice (13 + (i : ℤ) + 1) (dname.length - (i + 1) + 1) :=
        slice_put_prepend packet (13 + i) [c] _
      rw [hoffset, hcount, hprepend, ← hslice]
      push_cast
      rw [add_assoc]
    unfold packetLoop
    rw [List.getElem?_eq_getElem hi, Option.getD_some]
    dsimp only
    by_cases hdot : dname[i] = DOT
    · -- a dot: the piece behind it is complete
      rw [if_neg (not_not.mpr hdot)]
      apply ih (by omega) _ _ _ [] (piece :: pieces)
      · rw [hrev]
        push_cast
        omega
      · rw [hdrop, List.splitOn_cons_eq_if_modifyHead, if_pos (by rw [hdot]; rfl), hsplit]
      · rw [hrev]
        push_cast
        simp
        omega
      · rw [hput, encodeLabels_cons]
        have hlength : start - rev - 1 = piece.length := by
          rw [hstart, hrev]
          omega
        rw [hlength, ofInt_length]
        simp
    · -- another character: the piece is one longer
      rw [if_pos hdot]
      apply ih (by omega) _ _ _ (dname[i] :: piece) pieces
      · rw [hrev]
        push_cast
        omega
      · rw [hdrop, List.splitOn_cons_eq_if_modifyHead, if_neg (by rwa [beq_iff_eq]), hsplit]
        rfl
      · rw [hstart, List.length_cons]
        push_cast
        omega
      · rw [hput]
        rfl

/-- **The question in the packet**: all pieces of the name with their lengths in front, and
an empty one. -/
lemma compatPacket_drop (id : UInt16) (heap : ℤ → UInt8) (dname : CString) :
    (compatPacket id heap dname).drop 12 =
      encodeLabels (dname.splitOn DOT) ++ [0] ++ put16 T_TXT ++ put16 C_IN := by
  let header := (untouched heap).put 0 (queryHeader id)
  -- the terminator of the name is written first
  have hterminator : packetLoop dname (dname.length + 1) (13 + dname.length)
      (13 + dname.length) header =
      packetLoop dname dname.length (13 + dname.length) (12 + dname.length)
        (header.put (13 + dname.length) [0]) := by
    have hend : (13 + (dname.length : ℤ) - 1) = 12 + dname.length := by omega
    rw [packetLoop, List.getElem?_eq_none (le_refl _), ← hend]
    rfl
  obtain ⟨packet, piece, pieces, hloop, hsplit, hslice⟩ :=
    packetLoop_suffix dname dname.length (le_refl _) (13 + dname.length) (12 + dname.length)
      (header.put (13 + dname.length) [0]) [] [] rfl (by rw [List.drop_length]; rfl) (by simp)
      (by rw [Nat.sub_self]; exact slice_put_self header _ [0])
  have hname : (packet.put 12 [UInt8.ofNat piece.length]).slice 12 (1 + (dname.length + 1)) =
      encodeLabels (dname.splitOn DOT) ++ [0] := by
    have hprepend : (packet.put 12 [UInt8.ofNat piece.length]).slice 12
        (1 + (dname.length + 1)) =
          UInt8.ofNat piece.length :: packet.slice 13 (dname.length + 1) :=
      slice_put_prepend packet 12 [_] _
    rw [hprepend, hslice, hsplit, encodeLabels_cons]
    simp
  have hlabels : (packet.put 12 [UInt8.ofNat piece.length]).slice 12 (1 + dname.length) =
      encodeLabels (dname.splitOn DOT) := by
    rw [← Nat.add_assoc, slice_add] at hname
    exact (List.append_inj' hname rfl).1
  have hlength : 13 + (piece.length : ℤ) - 12 - 1 = piece.length := by omega
  have hbuild : buildPacket id heap dname =
      (packet.put 12 [UInt8.ofNat piece.length]).put (13 + dname.length)
        ([0] ++ (put16 T_TXT ++ put16 C_IN)) := by
    have hoff : (SIZEOF_HEADER : ℤ) + NS_INT8SZ + dname.length = 13 + dname.length := rfl
    unfold buildPacket
    dsimp only
    rw [hoff, hterminator, hloop]
    dsimp only
    rw [hlength, ofInt_length, put_append, put_append]
    rfl
  have hoffset : (13 + (dname.length : ℤ)) = 12 + ((1 + dname.length : ℕ) : ℤ) := by omega
  have hsize : packetLength dname.length =
      12 + ((1 + dname.length) + ([0] ++ (put16 T_TXT ++ put16 C_IN)).length) := by
    show 12 + 1 + dname.length + 1 + 2 * 2 = 12 + ((1 + dname.length) + 5)
    omega
  unfold compatPacket
  rw [hbuild, hsize, drop_slice, hoffset]
  show slice _ 12 _ = _
  rw [slice_put_append, hlabels]
  simp only [List.append_assoc]

/-! ## The question of `res_query_dnsapi` -/

variable {class_ type anslen : ℤ} {answer : WriteBuffer} {rrs : List DnsRecord}

/-- The record is written behind the question. -/
lemma slice_writeAnswer {n : ℕ} {offset : ℤ} (hn : 12 + n ≤ offset) :
    (writeAnswer class_ type anslen offset rrs answer).2.slice 12 n = answer.slice 12 n := by
  rw [writeAnswer_eq]
  cases hrr : answerRecord type rrs with
  | none => rfl
  | some rr =>
    have hcount : (answer.put 6 (put16 1)).slice 12 n = answer.slice 12 n :=
      slice_put_of_behind (by rw [length_put16]; decide)
    rcases writeRecord_ends class_ type anslen offset rr answer with
      ⟨-, heq⟩ | ⟨-, -, heq⟩ | ⟨-, -, -, heq⟩ | ⟨-, heq⟩
    · simp only [heq, hcount]
    · simp only [heq, slice_put_of_before _ hn, hcount]
    · simp only [heq]
      rw [slice_put_of_before _ (by omega), slice_put_of_before _ hn, hcount]
    · simp only [heq, slice_put_of_before _ hn, hcount]

/-- The question is in the buffer if there is room for it. -/
lemma slice_synthesize {dname : CString} (henc : Encodes (labels dname) (anslen - SIZEOF_HEADER))
    (hroom : recordOffset dname ≤ anslen) (hint : anslen < 2 ^ 31) :
    (synthesize rrs dname class_ type answer anslen).2.slice 12 ((wireName dname).length + 4) =
      question dname class_ type := by
  have hoffset : (12 : ℤ) + (wireName dname).length + 4 ≤ anslen := hroom
  have hends := synthesize_ends rrs dname class_ type anslen answer
  rw [int32_space (show (12 : ℤ) ≤ anslen by omega) hint] at hends
  rcases hends with ⟨hnot, -⟩ | ⟨-, hshort, -⟩ | ⟨-, -, heq⟩
  · exact absurd henc hnot
  · have hpos : (0 : ℤ) ≤ recordOffset dname := by
      unfold recordOffset
      omega
    rw [int32_of_fits (by omega) (by omega)] at hshort
    exact absurd hroom (not_le.mpr hshort)
  · rw [heq, slice_writeAnswer, ← length_question dname class_ type]
    · exact slice_put_self _ _ _
    · show (12 : ℤ) + ((wireName dname).length + 4 : ℕ) ≤ 12 + (wireName dname).length + 4
      push_cast
      omega

/-! ## The same question -/

/-- The two questions differ in an empty label at the end. -/
lemma encodeLabels_splitOn (dname : CString) :
    encodeLabels (dname.splitOn DOT) ++ [0] =
      wireName dname ++ if dname = [] ∨ dname.getLast? = some DOT then [0] else [] := by
  have hlast := getLast?_splitOn dname
  unfold wireName labels
  by_cases hdot : dname = [] ∨ dname.getLast? = some DOT
  · rw [if_pos hdot, if_pos (hlast.mpr hdot)]
    have hsplit : dname.splitOn DOT = (dname.splitOn DOT).dropLast ++ [[]] :=
      (List.dropLast_append_getLast? [] (hlast.mpr hdot)).symm
    conv_lhs => rw [hsplit]
    simp [encodeLabels]
  · rw [if_neg hdot, if_neg (mt hlast.mp hdot), List.append_nil]

/-- What is sent is the packet for the name. -/
lemma packet_of_sent {calls : CompatCalls} {dname : CString} {packet : List UInt8}
    (hsent : (res_query_compat calls dname class_ type answer anslen).sent = some packet) :
    packet = compatPacket calls.id calls.heap dname := by
  unfold res_query_compat at hsent
  rcases hdns : get_dns calls.dns with ⟨_ | server, events⟩
  · rw [hdns] at hsent
    cases hsent
  · rw [hdns] at hsent
    dsimp only at hsent
    split_ifs at hsent
    · cases hsent
    · cases hsent
    · exact (Option.some.inj hsent).symm
    · exact (Option.some.inj hsent).symm

/-- **When both paths ask the same question**: the name is not empty and does not end with a
dot. -/
theorem same_question_iff {dname : CString} {space : ℤ} (hcomp : 0 ≤ (dn_comp dname space).1)
    {calls : ResQueryCalls} {rrs : List DnsRecord} (hrrs : calls.dnsQuery = some rrs)
    {buffer : ℤ → UInt8} {anslen : Int32}
    (hroom : 12 + (dn_comp dname space).1 + 4 ≤ anslen.toInt) {packet : List UInt8}
    (hsent : (res_query_compat calls.compat dname C_IN T_TXT (untouched buffer)
      anslen.toInt).sent = some packet) :
    packet.drop 12 =
        (res_query_dnsapi calls dname C_IN T_TXT (untouched buffer) anslen.toInt).answer.slice 12
          ((dn_comp dname space).1.toNat + 4) ↔
      dname ≠ [] ∧ dname.getLast? ≠ some DOT := by
  have henc := dn_comp_nonneg.mp hcomp
  rw [dn_comp_of_encodes henc] at hroom ⊢
  dsimp only at hroom ⊢
  have hwire := length_wireName dname
  have henc' : Encodes (labels dname) (anslen.toInt - SIZEOF_HEADER) := by
    refine ⟨henc.1, ?_⟩
    show ((encodeLabels (labels dname)).length : ℤ) + 1 ≤ anslen.toInt - 12
    omega
  have hrun : (res_query_dnsapi calls dname C_IN T_TXT (untouched buffer) anslen.toInt).answer =
      (synthesize rrs dname C_IN T_TXT (untouched buffer) anslen.toInt).2 := by
    have hlong : ¬(0 ≤ anslen.toInt ∧ anslen.toInt ≤ SIZEOF_HEADER) := by
      show ¬(0 ≤ anslen.toInt ∧ anslen.toInt ≤ 12)
      omega
    unfold res_query_dnsapi
    rw [if_neg hlong, hrrs]
  rw [packet_of_sent hsent, compatPacket_drop, encodeLabels_splitOn, hrun, Int.toNat_natCast,
    slice_synthesize henc' hroom anslen.toInt_lt, question, ← not_or]
  by_cases hdot : dname = [] ∨ dname.getLast? = some DOT
  · -- the packet has a byte more
    rw [if_pos hdot]
    refine iff_of_false (fun h => ?_) (not_not.mpr hdot)
    have hlength := congrArg List.length h
    simp only [List.length_append, List.length_singleton, length_put16] at hlength
    omega
  · rw [if_neg hdot, List.append_nil, List.append_assoc]
    exact iff_of_true rfl hdot

/-- A server that is asked, without an answer. -/
def sampleServer : CompatCalls where
  dns := ⟨(0, 0), [49], false, fun _ => none, fun _ => true, true⟩
  gethostbyname := true
  socket := true
  id := 0
  heap := fun _ => 0
  sendto := true
  reply := none

def sampleCalls : ResQueryCalls := ⟨true, some [], sampleServer⟩

/-- The question for `a`. -/
theorem same_question_sample :
    (dn_comp [97] 100).1 = 3 ∧
      ((compatPacket 0 (fun _ => 0) [97]).drop 12 =
          (res_query_dnsapi sampleCalls [97] C_IN T_TXT (untouched fun _ => 0)
            (512 : Int32).toInt).answer.slice 12 ((dn_comp [97] 100).1.toNat + 4) ↔
        ([97] : CString) ≠ [] ∧ ([97] : CString).getLast? ≠ some DOT) :=
  ⟨by decide, same_question_iff (by decide) rfl (by decide) rfl⟩

/-- The questions for `a.` differ. -/
theorem dotted_question_differs :
    (dn_comp [97, 46] 100).1 = 3 ∧
      (compatPacket 0 (fun _ => 0) [97, 46]).drop 12 ≠
        (res_query_dnsapi sampleCalls [97, 46] C_IN T_TXT (untouched fun _ => 0)
          (512 : Int32).toInt).answer.slice 12 ((dn_comp [97, 46] 100).1.toNat + 4) := by
  decide +kernel

end Resolver
end ClamavWin32
