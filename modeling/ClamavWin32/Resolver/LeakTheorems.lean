import ClamavWin32.Resolver.AnswerTheorems

/-!
# What an answer shows of the caller's buffer

Two queries with the same arguments, the same records and other contents of the buffer.

* `Completes`: the arguments for which an answer is made, whatever the buffer holds;
* `bytes_answered`: the bytes of the answer, of which two bits and four bytes are not written;
* `res_query_compat_shows_nothing`: a datagram overwrites all that is returned;
* `showsNothing_iff`: when the two answers are the same.
-/

namespace ClamavWin32
namespace Resolver

open WriteBuffer

variable {rr : DnsRecord} {rrs : List DnsRecord} {dname : CString}
  {class_ type anslen offset : ℤ} {answer : WriteBuffer} {buffer buffer' : ℤ → UInt8}

/-! ## When there is an answer -/

/-- The answer with this record passes all checks, where their sums may overflow. -/
def Completes (rr : DnsRecord) (rrs : List DnsRecord) (dname : CString) (type anslen : ℤ) : Prop :=
  answerRecord type rrs = some rr ∧
    Encodes (labels dname) (int32 (anslen - SIZEOF_HEADER)) ∧
      int32 (recordOffset dname) ≤ anslen ∧ RecordPasses anslen (recordOffset dname) rr

/-- The answer is complete, or the query fails. -/
lemma synthesize_eq (rrs : List DnsRecord) (dname : CString) (class_ type anslen : ℤ)
    (answer : WriteBuffer) :
    (∃ rr, Completes rr rrs dname type anslen ∧
      synthesize rrs dname class_ type answer anslen =
        (int32 (answerLength rr dname), answered rr dname class_ type answer)) ∨
    ((¬∃ rr, Completes rr rrs dname type anslen) ∧
      (synthesize rrs dname class_ type answer anslen).1 = -1) := by
  rcases synthesize_ends rrs dname class_ type anslen answer with
    ⟨hnot, bs, -, heq⟩ | ⟨-, hshort, heq⟩ | ⟨henc, hroom, heq⟩
  · rw [heq]
    exact Or.inr ⟨fun ⟨rr, _, henc, _⟩ => hnot henc, rfl⟩
  · rw [heq]
    exact Or.inr ⟨fun ⟨rr, _, _, hroom, _⟩ => not_lt.mpr hroom hshort, rfl⟩
  · rw [heq, writeAnswer_eq]
    cases hrr : answerRecord type rrs with
    | none =>
      right
      refine ⟨?_, rfl⟩
      intro ⟨rr, hsome, _⟩
      rw [hrr] at hsome
      cases hsome
    | some rr =>
      rcases @writeRecord_eq anslen (recordOffset dname) rr class_ type
        ((writeHeader answer).put SIZEOF_HEADER (question dname class_ type)) with
        ⟨hpasses, hcomplete⟩ | ⟨hfails, hfailed⟩
      · exact Or.inl ⟨rr, ⟨hrr, henc, hroom, hpasses⟩, hcomplete⟩
      · right
        refine ⟨?_, hfailed⟩
        intro ⟨rr', hsome, _, _, hpasses⟩
        rw [hrr] at hsome
        rw [Option.some.inj hsome] at hfails
        exact hfails hpasses

/-! ## The bytes of an answer -/

/-- The bits `cd` and `ad` of the fourth byte of the header. -/
def keptBits (byte : UInt8) : UInt8 := byte &&& 0x30

lemma flags_eq_iff (x y : UInt8) :
    keptBits x ||| 0x80 = keptBits y ||| 0x80 ↔ keptBits x = keptBits y := by
  have hmask (z : UInt8) : (keptBits z ||| 0x80) &&& 0x30 = keptBits z := by
    obtain ⟨⟨z⟩⟩ := z
    revert z
    decide +kernel
  constructor
  · intro h
    rw [← hmask x, h, hmask y]
  · intro h
    rw [h]

/-- The first four bytes of an answer: two bits are what they were. -/
lemma flags_answered (o : ℤ) (hlo : 0 ≤ o) (hhi : o < 4) :
    (answered rr dname class_ type (untouched buffer)).bytes o =
      if o = 0 then 1 else if o = 1 then 0 else if o = 2 then 0x81
        else keptBits (buffer 3) ||| 0x80 := by
  have hoffset : o < recordOffset dname := by
    unfold recordOffset SIZEOF_HEADER
    omega
  unfold answered
  rw [bytes_put_of_lt _ hoffset, bytes_put_of_lt _ (by omega),
    bytes_put_of_lt _ (by unfold SIZEOF_HEADER; omega)]
  obtain rfl | rfl | rfl | rfl : o = 0 ∨ o = 1 ∨ o = 2 ∨ o = 3 := by omega
  · rfl
  · rfl
  · rfl
  · rfl

/-- Nothing of the buffer shows behind the header. -/
lemma sections_congr (o : ℤ) (hlo : 12 ≤ o) (hhi : o < answerLength rr dname) :
    (answered rr dname class_ type (untouched buffer)).bytes o =
      (answered rr dname class_ type (untouched buffer')).bytes o := by
  obtain ⟨i, rfl⟩ : ∃ i : ℕ, o = 12 + (i : ℤ) := ⟨(o - 12).toNat, by omega⟩
  have hi : i < (wireName dname).length + 4 + (13 + rr.txtlen) := by
    unfold answerLength recordOffset SIZEOF_HEADER at hhi
    omega
  have hbyte := getElem?_slice (answered rr dname class_ type (untouched buffer)) 12 hi
  have hbyte' := getElem?_slice (answered rr dname class_ type (untouched buffer')) 12 hi
  rw [sections_answered] at hbyte hbyte'
  exact Option.some.inj (hbyte.symm.trans hbyte')

/-- A byte of the answer is the same for both buffers if what is kept of it is. -/
lemma bytes_answered_iff (o : ℤ) (hlo : 0 ≤ o) (hhi : o < answerLength rr dname) :
    (answered rr dname class_ type (untouched buffer)).bytes o =
        (answered rr dname class_ type (untouched buffer')).bytes o ↔
      (o = 3 → keptBits (buffer 3) = keptBits (buffer' 3)) ∧
        (8 ≤ o → o < 12 → buffer o = buffer' o) := by
  by_cases hflags : o < 4
  · rw [flags_answered o hlo hflags, flags_answered o hlo hflags]
    by_cases hthree : o = 3
    · rw [if_neg (by omega), if_neg (by omega), if_neg (by omega), if_neg (by omega),
        if_neg (by omega), if_neg (by omega), flags_eq_iff]
      exact ⟨fun h => ⟨fun _ => h, fun h => by omega⟩, fun h => h.1 hthree⟩
    · split_ifs
      all_goals first
        | exact iff_of_true rfl ⟨fun h => absurd h hthree, fun h => by omega⟩
        | omega
  by_cases hheader : o < 12
  · rw [header_answered o (by omega) hheader, header_answered o (by omega) hheader]
    by_cases hcounts : 8 ≤ o
    · rw [if_neg (by omega), if_neg (by omega), if_neg (by omega), if_neg (by omega)]
      exact ⟨fun h => ⟨fun h => by omega, fun _ _ => h⟩, fun h => h.2 hcounts hheader⟩
    · have hsmall : o < 8 := by omega
      simp only [if_pos hsmall]
      exact iff_of_true trivial ⟨fun h => by omega, fun h => absurd h hcounts⟩
  · exact iff_of_true (sections_congr o (by omega) hhi)
      ⟨fun h => by omega, fun _ h => absurd h hheader⟩

/-- Where the answer shows the buffer, the two buffers agree: in two bits and four bytes of the
first `n`. -/
def AgreeWhereShown (buffer buffer' : ℤ → UInt8) (n : ℤ) : Prop :=
  (3 < n → keptBits (buffer 3) = keptBits (buffer' 3)) ∧
    ∀ o, 8 ≤ o → o < 12 → o < n → buffer o = buffer' o

/-- The beginnings of two answers are the same if the buffers agree where they are shown. -/
lemma slice_answered_iff {n : ℕ} (hn : (n : ℤ) ≤ answerLength rr dname) :
    (answered rr dname class_ type (untouched buffer)).slice 0 n =
        (answered rr dname class_ type (untouched buffer')).slice 0 n ↔
      AgreeWhereShown buffer buffer' n := by
  constructor
  · intro hslice
    have hbyte (o : ℤ) (hlo : 0 ≤ o) (hhi : o < n) :
        (answered rr dname class_ type (untouched buffer)).bytes o =
          (answered rr dname class_ type (untouched buffer')).bytes o := by
      obtain ⟨i, rfl⟩ := Int.eq_ofNat_of_zero_le hlo
      have hget := congrArg (fun bytes : List UInt8 => bytes[i]?) hslice
      change (slice _ 0 n)[i]? = (slice _ 0 n)[i]? at hget
      rw [getElem?_slice _ _ (by omega), getElem?_slice _ _ (by omega), zero_add] at hget
      exact Option.some.inj hget
    constructor
    · intro hflags
      exact ((bytes_answered_iff 3 (by decide) (by omega)).1
        (hbyte 3 (by decide) hflags)).1 rfl
    · intro o hlo hhi ho
      exact ((bytes_answered_iff o (by omega) (by omega)).1 (hbyte o (by omega) ho)).2 hlo hhi
  · intro hagree
    apply slice_congr
    intro o hlo hhi
    rw [bytes_answered_iff o hlo (by omega)]
    constructor
    · rintro rfl
      exact hagree.1 (by omega)
    · intro hlo' hhi'
      exact hagree.2 o hlo' hhi' (by omega)

/-! ## Two queries -/

/-- The query with these contents of the buffer. -/
def queryFrom (calls : ResQueryCalls) (dname : CString) (class_ type anslen : ℤ)
    (buffer : ℤ → UInt8) : QueryRun :=
  res_query_dnsapi calls dname class_ type (untouched buffer) anslen

/-- If the query succeeds with one buffer, it returns the same number with the other one, and
the same bytes of the answer. -/
def ShowsNothing (calls : ResQueryCalls) (dname : CString) (class_ type anslen : ℤ)
    (buffer buffer' : ℤ → UInt8) : Prop :=
  0 ≤ (queryFrom calls dname class_ type anslen buffer).ret →
    (queryFrom calls dname class_ type anslen buffer').ret =
        (queryFrom calls dname class_ type anslen buffer).ret ∧
      (queryFrom calls dname class_ type anslen buffer).answer.slice 0
          (queryFrom calls dname class_ type anslen buffer).ret.toNat =
        (queryFrom calls dname class_ type anslen buffer').answer.slice 0
          (queryFrom calls dname class_ type anslen buffer).ret.toNat

/-- A datagram that is received overwrites as many bytes as there are in it. -/
lemma recvfrom_congr {reply : Option (List UInt8)} (b b' : WriteBuffer) (o : ℤ) (hlo : 0 ≤ o)
    (hhi : o < (recvfrom reply b).1) :
    (recvfrom reply b).2.bytes o = (recvfrom reply b').2.bytes o := by
  cases reply with
  | none =>
    change o < -1 at hhi
    omega
  | some datagram =>
    obtain ⟨i, rfl⟩ := Int.eq_ofNat_of_zero_le hlo
    unfold recvfrom at hhi ⊢
    dsimp only at hhi ⊢
    by_cases hsize : datagram.length ≤ NS_PACKETSZ
    · rw [if_pos hsize] at hhi
      have hi : i < (datagram.take NS_PACKETSZ).length := by
        rw [List.length_take]
        omega
      have hb := @bytes_put_of_mem b 0 _ i hi
      have hb' := @bytes_put_of_mem b' 0 _ i hi
      rw [zero_add] at hb hb'
      rw [hb, hb']
    · rw [if_neg hsize] at hhi
      omega

/-- The reply is checked by bytes of the header that were received. -/
lemma checkReply_congr {id : UInt16} {len : ℤ} {b b' : WriteBuffer}
    (hbytes : ∀ o, 0 ≤ o → o < len → b.bytes o = b'.bytes o) :
    checkReply id b len = checkReply id b' len := by
  unfold checkReply
  by_cases hfails : len = -1
  · rw [if_pos hfails, if_pos hfails]
  by_cases hshort : len < SIZEOF_HEADER
  · rw [if_neg hfails, if_neg hfails, if_pos hshort, if_pos hshort]
  · unfold SIZEOF_HEADER at hshort
    have hlen : (12 : ℤ) ≤ len := Int.not_lt.1 hshort
    rw [hbytes 0 (by decide) (by omega), hbytes 1 (by decide) (by omega),
      hbytes 2 (by decide) (by omega), hbytes 3 (by decide) (by omega),
      hbytes 6 (by decide) (by omega), hbytes 7 (by decide) (by omega)]

lemma checkReply_eq (id : UInt16) (b : WriteBuffer) (len : ℤ) :
    checkReply id b len = -1 ∨ checkReply id b len = len := by
  unfold checkReply
  split_ifs
  all_goals first
    | exact Or.inl rfl
    | exact Or.inr rfl

/-- A query over UDP fails whatever the buffer holds, or it receives a reply into it. -/
lemma res_query_compat_eq (calls : CompatCalls) (dname : CString) (class_ type anslen : ℤ) :
    (∀ b, (res_query_compat calls dname class_ type b anslen).ret = -1) ∨
      ∀ b, (res_query_compat calls dname class_ type b anslen).ret =
          checkReply calls.id (recvfrom calls.reply b).2 (recvfrom calls.reply b).1 ∧
        (res_query_compat calls dname class_ type b anslen).answer =
          (recvfrom calls.reply b).2 := by
  unfold res_query_compat
  obtain ⟨server, events⟩ := get_dns calls.dns
  cases server with
  | none => exact Or.inl fun b => rfl
  | some server =>
    dsimp only
    by_cases hhost : !calls.gethostbyname
    · simp only [if_pos hhost]
      exact Or.inl fun b => rfl
    by_cases hsocket : !calls.socket
    · simp only [if_neg hhost, if_pos hsocket]
      exact Or.inl fun b => rfl
    by_cases hsend : !calls.sendto
    · simp only [if_neg hhost, if_neg hsocket, if_pos hsend]
      exact Or.inl fun b => trivial
    · simp only [if_neg hhost, if_neg hsocket, if_neg hsend]
      exact Or.inr fun b => ⟨trivial, trivial⟩

lemma recvfrom_fst (reply : Option (List UInt8)) (b b' : WriteBuffer) :
    (recvfrom reply b).1 = (recvfrom reply b').1 := by
  cases reply with
  | none => rfl
  | some datagram => rfl

/-- An answer over UDP shows nothing of the buffer. -/
lemma res_query_compat_congr (calls : CompatCalls) (dname : CString) (class_ type anslen : ℤ)
    (b b' : WriteBuffer) (hok : 0 ≤ (res_query_compat calls dname class_ type b anslen).ret) :
    (res_query_compat calls dname class_ type b' anslen).ret =
        (res_query_compat calls dname class_ type b anslen).ret ∧
      (res_query_compat calls dname class_ type b anslen).answer.slice 0
          (res_query_compat calls dname class_ type b anslen).ret.toNat =
        (res_query_compat calls dname class_ type b' anslen).answer.slice 0
          (res_query_compat calls dname class_ type b anslen).ret.toNat := by
  rcases res_query_compat_eq calls dname class_ type anslen with hfails | hreceived
  · rw [hfails b] at hok
    omega
  · obtain ⟨hret, hanswer⟩ := hreceived b
    obtain ⟨hret', hanswer'⟩ := hreceived b'
    have hbytes := @recvfrom_congr calls.reply b b'
    have hcheck := @checkReply_congr calls.id _ _ _ hbytes
    have hlen : checkReply calls.id (recvfrom calls.reply b).2 (recvfrom calls.reply b).1 =
        (recvfrom calls.reply b).1 := by
      rw [hret] at hok
      rcases checkReply_eq calls.id (recvfrom calls.reply b).2 (recvfrom calls.reply b).1 with
        h | h
      · omega
      · exact h
    rw [hret', hret, hanswer, hanswer', recvfrom_fst calls.reply b' b, ← hcheck, hlen]
    refine ⟨rfl, slice_congr fun o hlo hhi => hbytes o hlo ?_⟩
    rw [hret, hlen] at hok
    omega

/-- There is no room for a name behind the header. -/
lemma not_completes_of_short (hshort : 0 ≤ anslen ∧ anslen ≤ SIZEOF_HEADER) :
    ¬Completes rr rrs dname type anslen := by
  intro ⟨_, henc, _⟩
  have hroom := henc.2
  have hlo := hshort.1
  have hhi : anslen ≤ 12 := hshort.2
  rw [SIZEOF_HEADER, int32_of_fits (by omega) (by omega)] at hroom
  omega

lemma Completes.unique {rr' : DnsRecord} (h : Completes rr rrs dname type anslen)
    (h' : Completes rr' rrs dname type anslen) : rr = rr' := by
  have hsome := h.1
  rw [h'.1] at hsome
  exact (Option.some.inj hsome).symm

/-- The number returned is no larger than the answer. -/
lemma int32_answerLength_le (hret : 0 ≤ int32 (answerLength rr dname)) :
    ((int32 (answerLength rr dname)).toNat : ℤ) ≤ answerLength rr dname := by
  have hpos : 0 ≤ answerLength rr dname := by
    unfold answerLength recordOffset
    omega
  rw [Int.toNat_of_nonneg hret]
  unfold int32
  omega

/-- **When an answer shows nothing of the buffer**: `DnsQuery_A` fails, no answer is made, or
the buffers agree in the bits `cd` and `ad` and in the counts `nscount` and `arcount`. -/
theorem showsNothing_iff (calls : ResQueryCalls) (dname : CString) (class_ type anslen : ℤ)
    (buffer buffer' : ℤ → UInt8) :
    ShowsNothing calls dname class_ type anslen buffer buffer' ↔
      ∀ rrs rr, calls.dnsQuery = some rrs → Completes rr rrs dname type anslen →
        0 ≤ int32 (answerLength rr dname) →
          AgreeWhereShown buffer buffer' (int32 (answerLength rr dname)) := by
  unfold ShowsNothing queryFrom res_query_dnsapi
  by_cases hshort : 0 ≤ anslen ∧ anslen ≤ SIZEOF_HEADER
  · simp only [if_pos hshort]
    apply iff_of_true
    · intro hok
      exact absurd hok (show ¬(0 : ℤ) ≤ -1 by decide)
    · intro rrs rr _ hcompletes
      exact absurd hcompletes (not_completes_of_short hshort)
  simp only [if_neg hshort]
  cases hdns : calls.dnsQuery with
  | none =>
    apply iff_of_true
    · exact res_query_compat_congr calls.compat dname class_ type anslen _ _
    · intro rrs rr hrrs
      cases hrrs
  | some rrs =>
    dsimp only
    rcases synthesize_eq rrs dname class_ type anslen (untouched buffer) with
      ⟨rr, hcompletes, heq⟩ | ⟨hnot, hfails⟩
    · -- whether an answer is complete does not depend on what the buffer held
      rcases synthesize_eq rrs dname class_ type anslen (untouched buffer') with
        ⟨rr', hcompletes', heq'⟩ | ⟨hnot, -⟩
      · rw [← hcompletes.unique hcompletes'] at heq'
        rw [heq, heq']
        dsimp only
        constructor
        · intro hshows rrs' rr' hrrs' hcompletes' hret
          rw [← Option.some.inj hrrs'] at hcompletes'
          rw [← hcompletes.unique hcompletes'] at hret ⊢
          have hagree := (slice_answered_iff (int32_answerLength_le hret)).1 (hshows hret).2
          rwa [Int.toNat_of_nonneg hret] at hagree
        · intro hagree hret
          refine ⟨rfl, (slice_answered_iff (int32_answerLength_le hret)).2 ?_⟩
          rw [Int.toNat_of_nonneg hret]
          exact hagree rrs rr rfl hcompletes hret
      · exact absurd ⟨rr, hcompletes⟩ hnot
    · rw [hfails]
      apply iff_of_true
      · intro hok
        exact absurd hok (by decide)
      · intro rrs' rr hrrs' hcompletes
        rw [← Option.some.inj hrrs'] at hcompletes
        exact absurd ⟨rr, hcompletes⟩ hnot

/-! ## Two buffers -/

/-- Records are found for `a.b`. -/
def textCalls : ResQueryCalls where
  dnsapi := true
  dnsQuery := some [⟨16, 300, [116]⟩]
  compat := noServer

/-- The answer for `a.b` ends its header with what the buffer held. -/
theorem textCalls_shows :
    (queryFrom textCalls [97, 46, 98] 1 16 512 fun _ => 0).ret = 35 ∧
      (queryFrom textCalls [97, 46, 98] 1 16 512 fun _ => 1).ret = 35 ∧
        ¬ShowsNothing textCalls [97, 46, 98] 1 16 512 (fun _ => 0) fun _ => 1 := by
  have hret : (queryFrom textCalls [97, 46, 98] 1 16 512 fun _ => 0).ret = 35 := by
    decide +kernel
  have hret' : (queryFrom textCalls [97, 46, 98] 1 16 512 fun _ => 1).ret = 35 := by
    decide +kernel
  refine ⟨hret, hret', fun hshows => ?_⟩
  have hslice := (hshows (by rw [hret]; decide)).2
  rw [hret] at hslice
  exact absurd hslice (by decide +kernel)

end Resolver
end ClamavWin32
