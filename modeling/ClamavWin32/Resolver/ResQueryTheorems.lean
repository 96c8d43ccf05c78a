import ClamavWin32.Resolver.DomainNameTheorems
import ClamavWin32.Resolver.ResQuery

/-!
# The answer as a whole

* `question`, `record`: the bytes of the two sections that `res_query_dnsapi` writes;
* `ChecksSound`: no check against the length of the buffer passes because of an overflow;
* `synthesize_cases`: the answer is complete, or the query fails, and it stays in the buffer;
* `checksSound_of_within`: an overflow lets the answer leave the buffer.
-/

namespace ClamavWin32
namespace Resolver

open WriteBuffer

/-! ## The sections of an answer -/

@[simp] lemma length_put16 (x : ℤ) : (put16 x).length = 2 := rfl

@[simp] lemma length_put32 (x : UInt32) : (put32 x).length = 4 := rfl

/-- The question. -/
def question (name : CString) (class_ type : ℤ) : List UInt8 :=
  wireName name ++ (put16 type ++ put16 class_)

/-- The record that answers the question. -/
def record (class_ type : ℤ) (rr : DnsRecord) : List UInt8 :=
  [0xC0, UInt8.ofNat SIZEOF_HEADER] ++
    ((put16 type ++ put16 class_ ++ put32 rr.dwTtl) ++
      ((put16 (int32 (rr.txtlen + 1)) ++ [UInt8.ofNat rr.txtlen]) ++ rr.text.take rr.txtlen))

lemma DnsRecord.length_take_txtlen (rr : DnsRecord) :
    (rr.text.take rr.txtlen).length = rr.txtlen := by
  rw [List.length_take]
  exact min_eq_left (Nat.mod_le _ _)

lemma length_question (name : CString) (class_ type : ℤ) :
    (question name class_ type).length = (wireName name).length + 4 := by
  unfold question
  rw [List.length_append, List.length_append, length_put16, length_put16]

lemma length_record (class_ type : ℤ) (rr : DnsRecord) :
    (record class_ type rr).length = 13 + rr.txtlen := by
  unfold record
  simp only [List.length_append, List.length_cons, List.length_nil, length_put16, length_put32,
    rr.length_take_txtlen]
  omega

/-! ## Checks -/

/-- The record passes the checks against the length of the buffer, which compare `int`s. -/
def RecordPasses (anslen offset : ℤ) (rr : DnsRecord) : Prop :=
  int32 (offset + 2) ≤ anslen ∧ int32 (offset + 2 + 10) ≤ anslen ∧
    int32 (offset + 2 + 8 + 2 + int32 (rr.txtlen + 1)) ≤ anslen

/-- No check of the record passes because its sum has overflowed. -/
def RecordChecksSound (anslen offset : ℤ) (rr : DnsRecord) : Prop :=
  int32 (offset + 2) ≤ anslen → offset + 2 ≤ anslen ∧
    (int32 (offset + 2 + 10) ≤ anslen → offset + 2 + 8 ≤ anslen ∧
      (int32 (offset + 2 + 8 + 2 + int32 (rr.txtlen + 1)) ≤ anslen →
        offset + 2 + 8 + 3 + rr.txtlen ≤ anslen))

/-- The record `res_query_dnsapi` answers with. -/
def answerRecord (type : ℤ) (rrs : List DnsRecord) : Option DnsRecord :=
  rrs.find? fun rr => rr.wType = UInt16.ofInt type

/-- Where the record is written. -/
def recordOffset (dname : CString) : ℤ := SIZEOF_HEADER + (wireName dname).length + 4

/-- No check of the answer passes because its sum has overflowed. -/
def ChecksSound (rrs : List DnsRecord) (dname : CString) (type anslen : ℤ) : Prop :=
  Encodes (labels dname) (anslen - SIZEOF_HEADER) → int32 (recordOffset dname) ≤ anslen →
    recordOffset dname ≤ anslen ∧
      ∀ rr, answerRecord type rrs = some rr → RecordChecksSound anslen (recordOffset dname) rr

/-- Without overflow there is room for all that is checked for. -/
lemma recordPasses_iff {anslen offset : ℤ} {rr : DnsRecord} (hoffset : 0 ≤ offset)
    (hsum : offset + 13 + rr.txtlen < 2 ^ 31) :
    RecordPasses anslen offset rr ↔ offset + 13 + rr.txtlen ≤ anslen := by
  unfold RecordPasses int32
  omega

/-- A name and a text that are not too long make no sum overflow. -/
lemma checksSound_of_fits {rrs : List DnsRecord} {dname : CString} {type anslen : ℤ}
    (hname : recordOffset dname < 2 ^ 31)
    (htext : ∀ rr, answerRecord type rrs = some rr →
      recordOffset dname + 13 + rr.txtlen < 2 ^ 31) : ChecksSound rrs dname type anslen := by
  have hpos : 0 ≤ recordOffset dname := by
    unfold recordOffset
    omega
  intro henc hquestion
  rw [int32_of_fits (by omega) hname] at hquestion
  refine ⟨hquestion, fun rr hrr => ?_⟩
  have hsum := htext rr hrr
  unfold RecordChecksSound int32
  omega

/-! ## The record -/

variable {answer : WriteBuffer} {class_ type anslen offset lo hi : ℤ} {rr : DnsRecord}

/-- The record, as it is written piece by piece. -/
lemma put_record (answer : WriteBuffer) (offset : ℤ) :
    answer.put offset (record class_ type rr) =
      (((answer.put offset [0xC0, UInt8.ofNat SIZEOF_HEADER]).put (offset + 2)
        (put16 type ++ put16 class_ ++ put32 rr.dwTtl)).put (offset + 2 + 8)
        (put16 (int32 (rr.txtlen + 1)) ++ [UInt8.ofNat rr.txtlen])).put (offset + 2 + 8 + 3)
        (rr.text.take rr.txtlen) := by
  unfold record
  rw [put_append _ _ [0xC0, _], put_append _ _ (put16 type ++ put16 class_ ++ put32 rr.dwTtl),
    put_append _ _ (put16 _ ++ [_])]
  rfl

/-- **The ways in which a record ends**: there is no room for its name, for its fields or for its
text, or it is written completely. -/
lemma writeRecord_ends (class_ type anslen offset : ℤ) (rr : DnsRecord) (answer : WriteBuffer) :
    (anslen < int32 (offset + 2) ∧
      writeRecord class_ type anslen rr offset answer = (-1, answer.put 6 (put16 1))) ∨
    (int32 (offset + 2) ≤ anslen ∧ anslen < int32 (offset + 2 + 10) ∧
      writeRecord class_ type anslen rr offset answer =
        (-1, (answer.put 6 (put16 1)).put offset [0xC0, UInt8.ofNat SIZEOF_HEADER])) ∨
    (int32 (offset + 2) ≤ anslen ∧ int32 (offset + 2 + 10) ≤ anslen ∧
      anslen < int32 (offset + 2 + 8 + 2 + int32 (rr.txtlen + 1)) ∧
      writeRecord class_ type anslen rr offset answer =
        (-1, ((answer.put 6 (put16 1)).put offset [0xC0, UInt8.ofNat SIZEOF_HEADER]).put
          (offset + 2) (put16 type ++ put16 class_ ++ put32 rr.dwTtl))) ∨
    (RecordPasses anslen offset rr ∧
      writeRecord class_ type anslen rr offset answer =
        (int32 (offset + 13 + rr.txtlen),
          (answer.put 6 (put16 1)).put offset (record class_ type rr))) := by
  unfold writeRecord
  dsimp only
  by_cases hname : anslen < int32 (offset + 2)
  · rw [if_pos hname]
    exact Or.inl ⟨hname, rfl⟩
  rw [if_neg hname]
  right
  by_cases hfields : anslen < int32 (offset + 2 + 10)
  · rw [if_pos hfields]
    exact Or.inl ⟨not_lt.mp hname, hfields, rfl⟩
  rw [if_neg hfields]
  right
  by_cases htext : anslen < int32 (offset + 2 + 8 + 2 + int32 ((rr.txtlen : ℤ) + 1))
  · rw [if_pos htext]
    exact Or.inl ⟨not_lt.mp hname, not_lt.mp hfields, htext, rfl⟩
  · have hret : offset + 2 + 8 + 3 + (rr.txtlen : ℤ) = offset + 13 + rr.txtlen := by omega
    rw [if_neg htext, put_record, hret]
    exact Or.inr ⟨⟨not_lt.mp hname, not_lt.mp hfields, not_lt.mp htext⟩, rfl⟩

/-- A record that passes the checks is written, and no other. -/
lemma writeRecord_eq (class_ type : ℤ) (answer : WriteBuffer) :
    (RecordPasses anslen offset rr ∧ writeRecord class_ type anslen rr offset answer =
      (int32 (offset + 13 + rr.txtlen),
        (answer.put 6 (put16 1)).put offset (record class_ type rr))) ∨
    (¬RecordPasses anslen offset rr ∧
      (writeRecord class_ type anslen rr offset answer).1 = -1) := by
  rcases writeRecord_ends class_ type anslen offset rr answer with
    ⟨hname, heq⟩ | ⟨-, hfields, heq⟩ | ⟨-, -, htext, heq⟩ | hcomplete
  · rw [heq]
    exact Or.inr ⟨fun hpasses => not_lt.mpr hpasses.1 hname, rfl⟩
  · rw [heq]
    exact Or.inr ⟨fun hpasses => not_lt.mpr hpasses.2.1 hfields, rfl⟩
  · rw [heq]
    exact Or.inr ⟨fun hpasses => not_lt.mpr hpasses.2.2 htext, rfl⟩
  · exact Or.inl hcomplete

/-- A record stays in the buffer when the checks are sound. -/
lemma writeRecord_within (hoffset : 8 ≤ offset) (hfits : offset ≤ anslen)
    (hsound : RecordChecksSound anslen offset rr) (hanswer : answer.Within 0 anslen) :
    (writeRecord class_ type anslen rr offset answer).2.Within 0 anslen := by
  have hcount : (answer.put 6 (put16 1)).Within 0 anslen := by
    rw [within_put, length_put16]
    exact ⟨hanswer, Or.inr (by omega)⟩
  have hname (hroom : int32 (offset + 2) ≤ anslen) :
      ((answer.put 6 (put16 1)).put offset [0xC0, UInt8.ofNat SIZEOF_HEADER]).Within 0
        anslen := by
    rw [within_put]
    exact ⟨hcount, Or.inr ⟨by omega, (hsound hroom).1⟩⟩
  rcases writeRecord_ends class_ type anslen offset rr answer with
    ⟨-, heq⟩ | ⟨hroom, -, heq⟩ | ⟨hroom, hroom', -, heq⟩ | ⟨⟨hroom, hroom', hroom''⟩, heq⟩
  · rw [heq]
    exact hcount
  · rw [heq]
    exact hname hroom
  · rw [heq, within_put]
    exact ⟨hname hroom, Or.inr ⟨by omega, ((hsound hroom).2 hroom').1⟩⟩
  · have htext := ((hsound hroom).2 hroom').2 hroom''
    rw [heq, within_put, length_record]
    exact ⟨hcount, Or.inr ⟨by omega, by omega⟩⟩

/-- What is written of a record as far as the checks let it be written. -/
lemma within_writeRecord
    (hwithin : (writeRecord class_ type anslen rr offset answer).2.Within lo hi) :
    answer.Within lo hi ∧
      (int32 (offset + 2) ≤ anslen → offset + 2 ≤ hi ∧
        (int32 (offset + 2 + 10) ≤ anslen → offset + 2 + 8 ≤ hi ∧
          (int32 (offset + 2 + 8 + 2 + int32 ((rr.txtlen : ℤ) + 1)) ≤ anslen →
            offset + 2 + 8 + 3 + rr.txtlen ≤ hi))) := by
  rcases writeRecord_ends class_ type anslen offset rr answer with
    ⟨hroom, heq⟩ | ⟨-, hroom, heq⟩ | ⟨-, -, hroom, heq⟩ | ⟨-, heq⟩
  · rw [heq] at hwithin
    exact ⟨within_of_put hwithin, fun h => by omega⟩
  · rw [heq] at hwithin
    have hname := le_of_within_put hwithin (List.cons_ne_nil _ _)
    exact ⟨within_of_put (within_of_put hwithin), fun _ => ⟨hname.2, fun h => by omega⟩⟩
  · rw [heq] at hwithin
    have hfields := le_of_within_put hwithin (List.cons_ne_nil _ _)
    have hname := le_of_within_put (within_of_put hwithin) (List.cons_ne_nil _ _)
    exact ⟨within_of_put (within_of_put (within_of_put hwithin)),
      fun _ => ⟨hname.2, fun _ => ⟨hfields.2, fun h => by omega⟩⟩⟩
  · rw [heq] at hwithin
    have hrecord := (le_of_within_put hwithin (List.cons_ne_nil _ _)).2
    rw [length_record] at hrecord
    refine ⟨within_of_put (within_of_put hwithin), fun _ => ⟨?_, fun _ => ⟨?_, fun _ => ?_⟩⟩⟩
    · omega
    · omega
    · omega

/-! ## The whole answer -/

lemma writeAnswer_eq (rrs : List DnsRecord) :
    writeAnswer class_ type anslen offset rrs answer =
      match answerRecord type rrs with
      | none => (-1, answer)
      | some rr => writeRecord class_ type anslen rr offset answer := by
  induction rrs with
  | nil => rfl
  | cons rr rrs ih =>
    unfold writeAnswer answerRecord
    by_cases htype : rr.wType = UInt16.ofInt type
    · rw [if_pos htype, List.find?_cons_of_pos (by rwa [decide_eq_true_eq])]
    · rw [if_neg htype, List.find?_cons_of_neg (by rwa [decide_eq_true_eq])]
      exact ih

/-- Nothing is taken back from the log of what was written. -/
lemma within_writeAnswer {rrs : List DnsRecord}
    (hwithin : (writeAnswer class_ type anslen offset rrs answer).2.Within lo hi) :
    answer.Within lo hi := by
  rw [writeAnswer_eq] at hwithin
  cases hrr : answerRecord type rrs with
  | none =>
    rw [hrr] at hwithin
    exact hwithin
  | some rr =>
    rw [hrr] at hwithin
    exact (within_writeRecord hwithin).1

/-- A check that passes because its sum has overflowed lets the record leave the buffer. -/
lemma recordChecksSound_of_within {rrs : List DnsRecord} (hrr : answerRecord type rrs = some rr)
    (hwithin : (writeAnswer class_ type anslen offset rrs answer).2.Within 0 anslen) :
    RecordChecksSound anslen offset rr := by
  rw [writeAnswer_eq, hrr] at hwithin
  exact (within_writeRecord hwithin).2

/-- The header fits a buffer of twelve bytes. -/
lemma within_writeHeader (hanswer : answer.Within 0 anslen) (hroom : SIZEOF_HEADER ≤ anslen) :
    (writeHeader answer).Within 0 anslen := by
  have hroom : (12 : ℤ) ≤ anslen := hroom
  unfold writeHeader
  simp only [within_put, length_put16, List.length_cons, List.length_nil]
  exact ⟨⟨⟨⟨⟨hanswer, Or.inr (by omega)⟩, Or.inr (by omega)⟩, Or.inr (by omega)⟩,
    Or.inr (by omega)⟩, Or.inr (by omega)⟩

/-- The buffer with the complete answer. -/
def answered (rr : DnsRecord) (dname : CString) (class_ type : ℤ) (answer : WriteBuffer) :
    WriteBuffer :=
  (((writeHeader answer).put SIZEOF_HEADER (question dname class_ type)).put 6 (put16 1)).put
    (recordOffset dname) (record class_ type rr)

/-- The length of the complete answer. -/
def answerLength (rr : DnsRecord) (dname : CString) : ℤ := recordOffset dname + 13 + rr.txtlen

/-- There is a record of the type, and the name and the record pass all checks. -/
def Answers (rr : DnsRecord) (rrs : List DnsRecord) (dname : CString) (type anslen : ℤ) : Prop :=
  answerRecord type rrs = some rr ∧ Encodes (labels dname) (anslen - SIZEOF_HEADER) ∧
    int32 (recordOffset dname) ≤ anslen ∧ RecordPasses anslen (recordOffset dname) rr

/-- **The ways in which an answer ends**: the name does not fit, there is no room for the type and
the class, or the question is written and the records follow. -/
lemma synthesize_ends (rrs : List DnsRecord) (dname : CString) (class_ type anslen : ℤ)
    (answer : WriteBuffer) :
    (¬Encodes (labels dname) (int32 (anslen - SIZEOF_HEADER)) ∧
      ∃ bs : List UInt8, (bs = [] ∨ (bs.length : ℤ) ≤ int32 (anslen - SIZEOF_HEADER)) ∧
        synthesize rrs dname class_ type answer anslen =
          (-1, (writeHeader answer).put SIZEOF_HEADER bs)) ∨
    (Encodes (labels dname) (int32 (anslen - SIZEOF_HEADER)) ∧
      anslen < int32 (recordOffset dname) ∧
      synthesize rrs dname class_ type answer anslen =
        (-1, (writeHeader answer).put SIZEOF_HEADER (wireName dname))) ∨
    (Encodes (labels dname) (int32 (anslen - SIZEOF_HEADER)) ∧
      int32 (recordOffset dname) ≤ anslen ∧
      synthesize rrs dname class_ type answer anslen =
        writeAnswer class_ type anslen (recordOffset dname) rrs
          ((writeHeader answer).put SIZEOF_HEADER (question dname class_ type))) := by
  unfold synthesize
  dsimp only
  rcases dn_comp_spec dname (int32 (anslen - SIZEOF_HEADER)) with
    ⟨henc, hcomp⟩ | ⟨hnot, bs, hcomp, hbs⟩
  · right
    rw [hcomp, if_neg (by omega)]
    dsimp only
    by_cases hshort : anslen < int32 (SIZEOF_HEADER + (wireName dname).length + 4)
    · rw [if_pos hshort]
      exact Or.inl ⟨henc, hshort, rfl⟩
    · rw [if_neg hshort, ← put_append]
      exact Or.inr ⟨henc, not_lt.mp hshort, rfl⟩
  · rw [hcomp, if_pos (show (-1 : ℤ) < 0 by decide)]
    exact Or.inl ⟨hnot, bs, hbs, rfl⟩

lemma int32_space (hanslen : SIZEOF_HEADER ≤ anslen) (hint : anslen < 2 ^ 31) :
    int32 (anslen - SIZEOF_HEADER) = anslen - SIZEOF_HEADER := by
  have hanslen' : (12 : ℤ) ≤ anslen := hanslen
  rw [SIZEOF_HEADER, int32_of_fits (by omega) (by omega)]

/-- **The answer is complete, or the query fails**, and it stays in the buffer. -/
theorem synthesize_cases {rrs : List DnsRecord} {dname : CString}
    (hanslen : SIZEOF_HEADER ≤ anslen) (hint : anslen < 2 ^ 31)
    (hsound : ChecksSound rrs dname type anslen) (hanswer : answer.Within 0 anslen) :
    (∃ rr, Answers rr rrs dname type anslen ∧ answerLength rr dname ≤ anslen ∧
      synthesize rrs dname class_ type answer anslen =
        (answerLength rr dname, answered rr dname class_ type answer)) ∨
    ((¬∃ rr, Answers rr rrs dname type anslen) ∧
      (synthesize rrs dname class_ type answer anslen).1 = -1 ∧
      (synthesize rrs dname class_ type answer anslen).2.Within 0 anslen) := by
  have hheader := within_writeHeader hanswer hanslen
  have hwire := length_wireName dname
  have hends := synthesize_ends rrs dname class_ type anslen answer
  rw [int32_space hanslen hint] at hends
  -- the question is written as far as there is room, and the record behind it
  rcases hends with
    ⟨hnot, bs, hbs, heq⟩ | ⟨henc, hshort, heq⟩ | ⟨henc, hroom, heq⟩
  · -- the name does not fit
    rw [heq, within_put]
    refine Or.inr ⟨?_, rfl, hheader, ?_⟩
    · rintro ⟨rr, -, henc, -⟩
      exact hnot henc
    · rcases hbs with rfl | hbs
      · exact Or.inl rfl
      · exact Or.inr ⟨by decide, by omega⟩
  · -- no room for the type and the class
    have hspace := henc.2
    rw [heq, within_put]
    refine Or.inr ⟨?_, rfl, hheader, Or.inr ⟨by decide, by omega⟩⟩
    rintro ⟨rr, -, -, hquestion, -⟩
    omega
  · obtain ⟨hquestion, hrecord⟩ := hsound henc hroom
    have hoffset : 8 ≤ recordOffset dname := by
      unfold recordOffset SIZEOF_HEADER
      omega
    have hput : ((writeHeader answer).put SIZEOF_HEADER (question dname class_ type)).Within 0
        anslen := by
      rw [within_put, length_question]
      unfold recordOffset at hquestion
      exact ⟨hheader, Or.inr ⟨by decide, by omega⟩⟩
    rw [heq, writeAnswer_eq]
    rcases hrr : answerRecord type rrs with _ | rr
    · -- there is no record of the type
      refine Or.inr ⟨?_, rfl, hput⟩
      rintro ⟨rr, hsome, -⟩
      rw [hrr] at hsome
      cases hsome
    have hwithin := @writeRecord_within _ class_ type _ _ rr hoffset hquestion (hrecord rr hrr)
      hput
    rcases @writeRecord_eq anslen (recordOffset dname) rr class_ type
      ((writeHeader answer).put SIZEOF_HEADER (question dname class_ type)) with
      ⟨hpasses, hcomplete⟩ | ⟨hfails, hfailed⟩
    · -- the record passes its checks and fits
      have hlength := ((hrecord rr hrr hpasses.1).2 hpasses.2.1).2 hpasses.2.2
      refine Or.inl ⟨rr, ⟨hrr, henc, hroom, hpasses⟩, ?_, ?_⟩
      · unfold answerLength
        omega
      · rw [int32_of_fits (by omega) (by omega)] at hcomplete
        exact hcomplete
    · refine Or.inr ⟨?_, hfailed, hwithin⟩
      rintro ⟨rr', hsome, -, -, hpasses⟩
      rw [hrr, Option.some.injEq] at hsome
      exact hfails (hsome ▸ hpasses)

/-- A complete answer stays in the buffer. -/
lemma within_answered {dname : CString} (hanswer : answer.Within 0 anslen)
    (hlength : answerLength rr dname ≤ anslen) :
    (answered rr dname class_ type answer).Within 0 anslen := by
  unfold answerLength recordOffset at hlength
  have hroom : (12 : ℤ) + (wireName dname).length + 4 + 13 + rr.txtlen ≤ anslen := hlength
  unfold answered
  rw [within_put, within_put, within_put, length_question, length_record, length_put16]
  unfold recordOffset SIZEOF_HEADER
  refine ⟨⟨⟨within_writeHeader hanswer ?_, Or.inr ?_⟩, Or.inr ?_⟩, Or.inr ?_⟩
  · show (12 : ℤ) ≤ anslen
    omega
  · omega
  · omega
  · omega

/-- Nothing is taken back from the log of what was written. -/
lemma within_synthesize {rrs : List DnsRecord} {dname : CString}
    (hwithin : (synthesize rrs dname class_ type answer anslen).2.Within lo hi) :
    (writeHeader answer).Within lo hi := by
  rcases synthesize_ends rrs dname class_ type anslen answer with
    ⟨-, bs, -, heq⟩ | ⟨-, -, heq⟩ | ⟨-, -, heq⟩
  · rw [heq] at hwithin
    exact within_of_put hwithin
  · rw [heq] at hwithin
    exact within_of_put hwithin
  · rw [heq] at hwithin
    exact within_of_put (within_writeAnswer hwithin)

/-- A check that passes because its sum has overflowed lets the answer leave the buffer. -/
theorem checksSound_of_within {rrs : List DnsRecord} {dname : CString}
    (hanslen : SIZEOF_HEADER ≤ anslen) (hint : anslen < 2 ^ 31)
    (hwithin : (synthesize rrs dname class_ type answer anslen).2.Within 0 anslen) :
    ChecksSound rrs dname type anslen := by
  intro henc hquestion
  have hends := synthesize_ends rrs dname class_ type anslen answer
  rw [int32_space hanslen hint] at hends
  rcases hends with ⟨hnot, -⟩ | ⟨-, hshort, -⟩ | ⟨-, -, heq⟩
  · exact absurd henc hnot
  · exact absurd hquestion (not_le.mpr hshort)
  · rw [heq] at hwithin
    have hlength := length_question dname class_ type
    have hne : question dname class_ type ≠ [] := by
      rw [← List.length_pos_iff, hlength]
      omega
    have hend := (le_of_within_put (within_writeAnswer hwithin) hne).2
    rw [hlength] at hend
    refine ⟨?_, fun rr hrr => recordChecksSound_of_within hrr hwithin⟩
    unfold recordOffset
    omega

end Resolver
end ClamavWin32
