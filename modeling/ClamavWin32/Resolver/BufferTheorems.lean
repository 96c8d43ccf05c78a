import ClamavWin32.Resolver.ResQueryTheorems

/-!
# The caller's buffer

The query over UDP receives into the caller's buffer without a look at its length, and the
query through `DnsQuery_A` checks each part of its answer against it.

* `respectsBuffer_compat`, `respectsBuffer_dnsapi`: when each path stays in the buffer;
* `respectsBuffer_iff`: when `res_query` does.
-/

namespace ClamavWin32
namespace Resolver

open WriteBuffer

/-- Nothing is written outside the buffer, and no more is returned than fits it. -/
def RespectsBuffer (run : QueryRun) (anslen : ℤ) : Prop :=
  run.answer.Within 0 anslen ∧ (0 ≤ run.ret → run.ret ≤ anslen)

/-- The query over UDP gets as far as to receive an answer. -/
def CompatCalls.Receives (calls : CompatCalls) : Prop :=
  (get_dns calls.dns).1.isSome = true ∧ calls.gethostbyname = true ∧ calls.socket = true ∧
    calls.sendto = true

/-- If an answer is received over UDP, what is received of it fits the buffer. -/
def ReplyFits (calls : CompatCalls) (anslen : ℤ) : Prop :=
  calls.Receives → ∀ datagram, calls.reply = some datagram →
    ((min datagram.length NS_PACKETSZ : ℕ) : ℤ) ≤ anslen

/-- What each path needs to stay in the buffer: no check of the answer made from records
passes because of an overflow, and the answer over UDP fits. -/
def FitsBuffer (calls : ResQueryCalls) (dname : CString) (type anslen : ℤ) : Prop :=
  (calls.dnsapi = true → SIZEOF_HEADER < anslen → ∀ rrs, calls.dnsQuery = some rrs →
    ChecksSound rrs dname type anslen) ∧
  ((calls.dnsapi = true → SIZEOF_HEADER < anslen ∧ calls.dnsQuery = none) →
    ReplyFits calls.compat anslen)

variable {dname : CString} {class_ type anslen : ℤ} {answer : WriteBuffer}

/-! ## The query over UDP -/

/-- The query over UDP leaves what it receives, or it fails before. -/
lemma res_query_compat_cases (calls : CompatCalls) :
    (calls.Receives ∧
      (res_query_compat calls dname class_ type answer anslen).answer =
        (recvfrom calls.reply answer).2 ∧
      (res_query_compat calls dname class_ type answer anslen).ret =
        checkReply calls.id (recvfrom calls.reply answer).2 (recvfrom calls.reply answer).1) ∨
    (¬calls.Receives ∧
      (res_query_compat calls dname class_ type answer anslen).answer = answer ∧
      (res_query_compat calls dname class_ type answer anslen).ret = -1) := by
  unfold CompatCalls.Receives res_query_compat
  rcases hdns : get_dns calls.dns with ⟨_ | server, events⟩
  · exact Or.inr ⟨fun h => Bool.false_ne_true h.1, rfl, rfl⟩
  · cases hhost : calls.gethostbyname with
    | false => exact Or.inr ⟨fun h => Bool.false_ne_true h.2.1, rfl, rfl⟩
    | true =>
      cases hsocket : calls.socket with
      | false => exact Or.inr ⟨fun h => Bool.false_ne_true h.2.2.1, rfl, rfl⟩
      | true =>
        cases hsendto : calls.sendto with
        | false => exact Or.inr ⟨fun h => Bool.false_ne_true h.2.2.2, rfl, rfl⟩
        | true => exact Or.inl ⟨⟨rfl, rfl, rfl, rfl⟩, rfl, rfl⟩

/-- A reply is returned with the length that was received, or not at all. -/
lemma checkReply_cases (id : UInt16) (answer : WriteBuffer) (len : ℤ) :
    checkReply id answer len = -1 ∨ checkReply id answer len = len := by
  unfold checkReply
  split_ifs
  · exact Or.inl rfl
  · exact Or.inl rfl
  · exact Or.inl rfl
  · exact Or.inl rfl
  · exact Or.inl rfl
  · exact Or.inl rfl
  · exact Or.inr rfl

/-- The query over UDP respects the buffer exactly if the reply fits it. -/
lemma respectsBuffer_compat {calls : CompatCalls} (hanswer : answer.Within 0 anslen)
    (hanslen : 0 ≤ anslen) :
    RespectsBuffer (res_query_compat calls dname class_ type answer anslen) anslen ↔
      ReplyFits calls anslen := by
  unfold RespectsBuffer ReplyFits
  rcases @res_query_compat_cases dname class_ type anslen answer calls with
    ⟨hreceives, hanswer', hret⟩ | ⟨hnot, hanswer', hret⟩
  · rw [hanswer', hret]
    rcases hreply : calls.reply with _ | datagram
    · -- nothing is received
      refine iff_of_true ⟨hanswer, fun h => ?_⟩ fun _ datagram hsome => by cases hsome
      have hfails : (0 : ℤ) ≤ -1 := h
      omega
    · have hlength : (datagram.take NS_PACKETSZ).length = min datagram.length NS_PACKETSZ := by
        rw [List.length_take, min_comm]
      have hwithin : (recvfrom (some datagram) answer).2.Within 0 anslen ↔
          ((min datagram.length NS_PACKETSZ : ℕ) : ℤ) ≤ anslen := by
        show (answer.put 0 (datagram.take NS_PACKETSZ)).Within 0 anslen ↔ _
        rw [within_put, and_iff_right hanswer, ← List.length_eq_zero_iff, hlength]
        omega
      rw [hwithin]
      constructor
      · rintro ⟨hfits, -⟩ - datagram' hsome
        rw [← Option.some.inj hsome]
        exact hfits
      · intro hfits
        have hfits := hfits hreceives datagram rfl
        refine ⟨hfits, fun hpos => ?_⟩
        rcases checkReply_cases calls.id (recvfrom (some datagram) answer).2
          (recvfrom (some datagram) answer).1 with hcheck | hcheck
        · rw [hcheck] at hpos
          omega
        · have hlen : (recvfrom (some datagram) answer).1 =
              if datagram.length ≤ NS_PACKETSZ then (datagram.length : ℤ) else -1 := rfl
          rw [hcheck, hlen]
          split_ifs <;> omega
  · -- nothing is written
    rw [hanswer', hret]
    refine iff_of_true ⟨hanswer, fun h => ?_⟩ fun h => absurd h hnot
    omega

/-! ## The query through `DnsQuery_A` -/

/-- The answer made from records respects the buffer exactly if no check passes because of
an overflow. -/
lemma respectsBuffer_dnsapi {calls : ResQueryCalls} {rrs : List DnsRecord}
    (hanswer : answer.Within 0 anslen) (hanslen : SIZEOF_HEADER < anslen)
    (hint : anslen < 2 ^ 31) (hrrs : calls.dnsQuery = some rrs) :
    RespectsBuffer (res_query_dnsapi calls dname class_ type answer anslen) anslen ↔
      ChecksSound rrs dname type anslen := by
  have hrun : res_query_dnsapi calls dname class_ type answer anslen =
      ⟨(synthesize rrs dname class_ type answer anslen).1,
        (synthesize rrs dname class_ type answer anslen).2, none,
        [.acquire .records, .release .records]⟩ := by
    unfold res_query_dnsapi
    rw [if_neg (by omega), hrrs]
  rw [hrun]
  constructor
  · intro hrespects
    exact checksSound_of_within (by omega) hint hrespects.1
  · intro hsound
    rcases @synthesize_cases answer class_ type anslen rrs dname (by omega) hint hsound hanswer
      with ⟨rr, -, hlength, heq⟩ | ⟨-, hfails, hwithin⟩
    · rw [heq]
      exact ⟨within_answered hanswer hlength, fun _ => hlength⟩
    · refine ⟨hwithin, fun hpos => ?_⟩
      dsimp only at hpos
      omega

/-- **When `res_query` respects the caller's buffer**, for every length that is not
negative. -/
theorem respectsBuffer_iff (calls : ResQueryCalls) (dname : CString) (class_ type : ℤ)
    (buffer : ℤ → UInt8) {anslen : ℕ} (hanslen : anslen < 2 ^ 31) :
    RespectsBuffer (res_query calls dname class_ type (untouched buffer) anslen) anslen ↔
      FitsBuffer calls dname type anslen := by
  have huntouched := written_untouched buffer 0 anslen
  have hpos : (0 : ℤ) ≤ anslen := Int.natCast_nonneg anslen
  unfold FitsBuffer res_query
  cases hdnsapi : calls.dnsapi with
  | false =>
    rw [if_neg Bool.false_ne_true, respectsBuffer_compat huntouched hpos]
    exact ⟨fun h => ⟨nofun, fun _ => h⟩, fun h => h.2 nofun⟩
  | true =>
    rw [if_pos rfl]
    by_cases hshort : (anslen : ℤ) ≤ SIZEOF_HEADER
    · -- nothing is written
      unfold res_query_dnsapi
      rw [if_pos ⟨hpos, hshort⟩]
      refine iff_of_true ⟨huntouched, fun h => ?_⟩ ⟨fun _ h => ?_, fun h => ?_⟩
      · have hfails : (0 : ℤ) ≤ -1 := h
        omega
      · omega
      · have hlong := (h rfl).1
        omega
    · rcases hrrs : calls.dnsQuery with _ | rrs
      · -- the query falls back
        have hrun : res_query_dnsapi calls dname class_ type (untouched buffer) anslen =
            res_query_compat calls.compat dname class_ type (untouched buffer) anslen := by
          unfold res_query_dnsapi
          rw [if_neg (by omega), hrrs]
        rw [hrun, respectsBuffer_compat huntouched hpos]
        exact ⟨fun h => ⟨fun _ _ _ => nofun, fun _ => h⟩,
          fun h => h.2 fun _ => ⟨by omega, rfl⟩⟩
      · rw [respectsBuffer_dnsapi huntouched (by omega) (by omega) hrrs]
        refine ⟨fun h => ⟨fun _ _ rrs' hrrs' => ?_, fun hnone => ?_⟩,
          fun h => h.1 rfl (by omega) rrs rfl⟩
        · rw [← Option.some.inj hrrs']
          exact h
        · cases (hnone rfl).2

/-- A server whose reply has 20 bytes. -/
def replyServer : CompatCalls where
  dns := ⟨(0, 0), [49], false, fun _ => none, fun _ => true, true⟩
  gethostbyname := true
  socket := true
  id := 0
  heap := fun _ => 0
  sendto := true
  reply := some (List.replicate 20 0)

/-- A buffer of 32 bytes is large enough for the reply. -/
theorem respectsBuffer_sample :
    32 < 2 ^ 31 ∧
      (RespectsBuffer (res_query ⟨false, none, replyServer⟩ [97] C_IN T_TXT
          (untouched fun _ => 0) (32 : ℕ)) (32 : ℕ) ↔
        FitsBuffer ⟨false, none, replyServer⟩ [97] T_TXT (32 : ℕ)) :=
  ⟨by decide, respectsBuffer_iff _ _ _ _ _ (by decide)⟩

/-- The reply is written behind the end of a buffer of 16 bytes. -/
theorem reply_overflows :
    ¬RespectsBuffer (res_query ⟨false, none, replyServer⟩ [97] C_IN T_TXT
      (untouched fun _ => 0) (16 : ℕ)) (16 : ℕ) := by
  rintro ⟨hwithin, -⟩
  exact absurd hwithin (by decide +kernel)

end Resolver
end ClamavWin32
