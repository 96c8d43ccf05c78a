import ClamavWin32.Resolver.ResQueryTheorems

/-!
# The answer made from the records of `DnsQuery_A`

* `parseAnswer`: what a DNS answer with one question and one record says;
* `TextQuery`: a query for which `DnsQuery_A` returns a record with a short text;
* `parseAnswer_of_sections`: what the two sections say;
* `roundTrips_iff`: when the answer says what was asked for and found.
-/

namespace ClamavWin32
namespace Resolver

open WriteBuffer

/-! ## The format of an answer -/

/-- Two bytes in network order. -/
def read16 (packet : List UInt8) (p : ℕ) : Option ℕ := do
  let high ← packet[p]?
  let low ← packet[p + 1]?
  some (ntohs high low)

/-- Four bytes in network order. -/
def read32 (packet : List UInt8) (p : ℕ) : Option ℕ := do
  let high ← read16 packet p
  let low ← read16 packet (p + 2)
  some (high * 2 ^ 16 + low)

/-- What an answer with one question and one record says, and where it ends. -/
structure ParsedAnswer where
  qdcount : ℕ
  ancount : ℕ
  nscount : ℕ
  arcount : ℕ
  qname : CString
  qtype : ℕ
  qclass : ℕ
  owner : CString
  type : ℕ
  class_ : ℕ
  ttl : ℕ
  text : CString
  stop : ℕ
  deriving DecidableEq, Repr

/-- The record of an answer, from a position on, whose data is one string. -/
def parseRecord (packet : List UInt8) (p : ℕ) :
    Option (CString × ℕ × ℕ × ℕ × CString × ℕ) := do
  let (len, owner) ← dn_expand packet p 256
  let p := p + len.toNat
  let type ← read16 packet p
  let class_ ← read16 packet (p + 2)
  let ttl ← read32 packet (p + 4)
  let rdlength ← read16 packet (p + 8)
  let txtlen ← packet[p + 10]?
  let text := (packet.drop (p + 11)).take txtlen.toNat
  if rdlength = txtlen.toNat + 1 ∧ text.length = txtlen.toNat then
    some (owner, type, class_, ttl, text, p + 11 + txtlen.toNat)
  else none

/-- An answer with one question and one record. -/
def parseAnswer (packet : List UInt8) : Option ParsedAnswer := do
  let qdcount ← read16 packet 4
  let ancount ← read16 packet 6
  let nscount ← read16 packet 8
  let arcount ← read16 packet 10
  let (len, qname) ← dn_expand packet SIZEOF_HEADER 256
  let p := SIZEOF_HEADER + len.toNat
  let qtype ← read16 packet p
  let qclass ← read16 packet (p + 2)
  let (owner, type, class_, ttl, text, stop) ← parseRecord packet (p + 4)
  some ⟨qdcount, ancount, nscount, arcount, qname, qtype, qclass, owner, type, class_, ttl, text,
    stop⟩

/-! ## Numbers -/

/-- A number of 16 bits is read back. -/
lemma ntohs_put16 {x : ℕ} (hx : x < 2 ^ 16) :
    ntohs (UInt8.ofInt ((x : ℤ) >>> (8 : ℕ))) (UInt8.ofInt x) = x := by
  have hnat : ∀ y : ℤ, (UInt8.ofInt y).toNat = (y % 256).toNat := by
    intro y
    show (UInt8.ofNat (y % 2 ^ 8).toNat).toNat = _
    rw [UInt8.toNat_ofNat']
    omega
  unfold ntohs
  rw [hnat, hnat, Int.shiftRight_eq_div_pow]
  omega

lemma read16_put16 {packet rest : List UInt8} {p x : ℕ} (hx : x < 2 ^ 16)
    (hpacket : packet.drop p = put16 x ++ rest) : read16 packet p = some x := by
  have hhigh : packet[p]? = some (UInt8.ofInt ((x : ℤ) >>> (8 : ℕ))) := by
    rw [← Nat.add_zero p, ← List.getElem?_drop, hpacket]
    rfl
  have hlow : packet[p + 1]? = some (UInt8.ofInt x) := by
    rw [← List.getElem?_drop, hpacket]
    rfl
  unfold read16
  rw [hhigh, hlow]
  exact congrArg some (ntohs_put16 hx)

/-- A number of 32 bits is read back. -/
lemma read32_put32 {packet rest : List UInt8} {p : ℕ} {x : UInt32}
    (hpacket : packet.drop p = put32 x ++ rest) : read32 packet p = some x.toNat := by
  have hbyte : ∀ i, packet[p + i]? = (put32 x ++ rest)[i]? := by
    intro i
    rw [← List.getElem?_drop, hpacket]
  have hhigh : read16 packet p = some (ntohs (x >>> 24).toUInt8 (x >>> 16).toUInt8) := by
    unfold read16
    rw [← Nat.add_zero p, hbyte, Nat.add_zero, hbyte]
    rfl
  have hlow : read16 packet (p + 2) = some (ntohs (x >>> 8).toUInt8 x.toUInt8) := by
    unfold read16
    rw [hbyte, Nat.add_assoc, hbyte]
    rfl
  have hx := x.toNat_lt
  unfold read32
  rw [hhigh, hlow]
  show some (_ * 2 ^ 16 + _) = _
  congr 1
  simp only [ntohs, UInt32.toNat_toUInt8, UInt32.toNat_shiftRight, Nat.shiftRight_eq_div_pow]
  simp
  omega

/-! ## Queries with an answer -/

/-- A query for which there is a record of the type asked for, with a text that is not too
long. -/
structure TextQuery where
  host : HostName
  /-- The name ends with a dot. -/
  dot : Bool
  class_ : UInt16
  type : UInt16
  before : List DnsRecord
  rr : DnsRecord
  after : List DnsRecord
  skipped : ∀ r ∈ before, r.wType ≠ type
  found : rr.wType = type
  short : rr.text.length ≤ 255

namespace TextQuery

variable (q : TextQuery)

def dname : CString := q.host.dname q.dot

/-- The records that are returned. -/
def rrs : List DnsRecord := q.before ++ q.rr :: q.after

/-- The length of an answer with one question and one record. -/
def answerLength : ℕ := 12 + q.host.wire.length + 4 + 2 + 10 + 1 + q.rr.text.length

/-- What the answer should say. -/
def answer : ParsedAnswer where
  qdcount := 1
  ancount := 1
  nscount := 0
  arcount := 0
  qname := q.host.text
  qtype := q.type.toNat
  qclass := q.class_.toNat
  owner := q.host.text
  type := q.type.toNat
  class_ := q.class_.toNat
  ttl := q.rr.dwTtl.toNat
  text := q.rr.text
  stop := q.answerLength

/-- The query through `DnsQuery_A`. -/
def run (compat : CompatCalls) (buffer : ℤ → UInt8) (anslen : Int32) : QueryRun :=
  res_query_dnsapi ⟨true, some q.rrs, compat⟩ q.dname q.class_.toNat q.type.toNat
    (untouched buffer) anslen.toInt

end TextQuery

/-- The answer is returned if there is room for it, nothing is written elsewhere, and the
answer says what was asked for and found. -/
def RoundTrips (q : TextQuery) (compat : CompatCalls) (buffer : ℤ → UInt8) (anslen : Int32) :
    Prop :=
  (q.run compat buffer anslen).ret =
      (if (q.answerLength : ℤ) ≤ anslen.toInt then (q.answerLength : ℤ) else -1) ∧
    (q.run compat buffer anslen).answer.Within 0 anslen.toInt ∧
    ((q.answerLength : ℤ) ≤ anslen.toInt →
      parseAnswer ((q.run compat buffer anslen).answer.slice 0 q.answerLength) = some q.answer)

lemma TextQuery.answerRecord_eq (q : TextQuery) :
    answerRecord q.type.toNat q.rrs = some q.rr := by
  have htype : UInt16.ofInt (q.type.toNat : ℤ) = q.type := by
    have hlt := q.type.toNat_lt
    have hlow : Int.toNat ((q.type.toNat : ℤ) % 2 ^ 16) = q.type.toNat := by omega
    show UInt16.ofNat (Int.toNat ((q.type.toNat : ℤ) % 2 ^ 16)) = q.type
    rw [hlow, UInt16.ofNat_toNat]
  unfold answerRecord TextQuery.rrs
  rw [htype, List.find?_append, List.find?_eq_none.mpr, Option.none_or,
    List.find?_cons_of_pos (by rw [decide_eq_true_eq]; exact q.found)]
  intro r hr
  rw [decide_eq_true_eq]
  exact q.skipped r hr

lemma TextQuery.txtlen_eq (q : TextQuery) : q.rr.txtlen = q.rr.text.length := by
  have hshort := q.short
  unfold DnsRecord.txtlen
  omega

/-! ## Parsing -/

/-- What the record says. -/
lemma parseRecord_record {h : HostName} {class_ type : UInt16} {rr : DnsRecord}
    {packet post : List UInt8} {p : ℕ} (hshort : rr.text.length ≤ 255)
    (hname : packet.drop 12 = h.wire ++ post) (hp : 12 + h.wire.length ≤ p)
    (hrecord : packet.drop p = record class_.toNat type.toNat rr) :
    parseRecord packet p =
      some (h.text, type.toNat, class_.toNat, rr.dwTtl.toNat, rr.text,
        p + 13 + rr.text.length) := by
  have htxtlen : rr.txtlen = rr.text.length := by
    unfold DnsRecord.txtlen
    omega
  have hrdlength : int32 ((rr.txtlen : ℤ) + 1) = ((rr.text.length + 1 : ℕ) : ℤ) := by
    rw [htxtlen]
    unfold int32
    omega
  unfold record at hrecord
  rw [hrdlength, htxtlen, List.take_length] at hrecord
  -- where each field begins
  have howner : dn_expand packet p 256 = some (2, h.text) :=
    dn_expand_pointer h hrecord (by decide) hname hp
  have hfields : packet.drop (p + 2) = put16 type.toNat ++ (put16 class_.toNat ++
      (put32 rr.dwTtl ++ (put16 ((rr.text.length + 1 : ℕ) : ℤ) ++
        (UInt8.ofNat rr.text.length :: rr.text)))) := by
    rw [← List.drop_drop, hrecord]
    simp
  have hclass : packet.drop (p + 2 + 2) = put16 class_.toNat ++
      (put32 rr.dwTtl ++ (put16 ((rr.text.length + 1 : ℕ) : ℤ) ++
        (UInt8.ofNat rr.text.length :: rr.text))) := by
    rw [← List.drop_drop, hfields]
    rfl
  have httl : packet.drop (p + 2 + 4) = put32 rr.dwTtl ++
      (put16 ((rr.text.length + 1 : ℕ) : ℤ) ++ (UInt8.ofNat rr.text.length :: rr.text)) := by
    rw [show p + 2 + 4 = p + 2 + 2 + 2 by omega, ← List.drop_drop, hclass]
    rfl
  have hlength : packet.drop (p + 2 + 8) = put16 ((rr.text.length + 1 : ℕ) : ℤ) ++
      (UInt8.ofNat rr.text.length :: rr.text) := by
    rw [show p + 2 + 8 = p + 2 + 4 + 4 by omega, ← List.drop_drop, httl]
    rfl
  have htext : packet.drop (p + 2 + 10) = UInt8.ofNat rr.text.length :: rr.text := by
    rw [show p + 2 + 10 = p + 2 + 8 + 2 by omega, ← List.drop_drop, hlength]
    rfl
  have hcount : packet[p + 2 + 10]? = some (UInt8.ofNat rr.text.length) := by
    rw [← Nat.add_zero (p + 2 + 10), ← List.getElem?_drop, htext]
    rfl
  have hchars : packet.drop (p + 2 + 11) = rr.text := by
    rw [show p + 2 + 11 = p + 2 + 10 + 1 by omega, ← List.drop_drop, htext]
    rfl
  have hnat : (UInt8.ofNat rr.text.length).toNat = rr.text.length := by
    rw [UInt8.toNat_ofNat']
    omega
  have htwo : Int.toNat 2 = 2 := rfl
  unfold parseRecord
  rw [howner]
  simp only [Option.bind_eq_bind, Option.bind_some, htwo]
  rw [read16_put16 type.toNat_lt hfields, read16_put16 class_.toNat_lt hclass,
    read32_put32 httl, read16_put16 (by omega) hlength, hcount]
  simp only [Option.bind_some, hnat, hchars, List.take_length, and_self, if_true]

/-- What the two sections say. -/
lemma parseAnswer_of_sections {h : HostName} {class_ type : UInt16} {rr : DnsRecord}
    {packet : List UInt8} {qdcount ancount nscount arcount : ℕ} (hshort : rr.text.length ≤ 255)
    (hqdcount : read16 packet 4 = some qdcount) (hancount : read16 packet 6 = some ancount)
    (hnscount : read16 packet 8 = some nscount) (harcount : read16 packet 10 = some arcount)
    (hsections : packet.drop 12 = h.wire ++ (put16 type.toNat ++ (put16 class_.toNat ++
      record class_.toNat type.toNat rr))) :
    parseAnswer packet =
      some ⟨qdcount, ancount, nscount, arcount, h.text, type.toNat, class_.toNat, h.text,
        type.toNat, class_.toNat, rr.dwTtl.toNat, rr.text,
        12 + h.wire.length + 4 + 2 + 10 + 1 + rr.text.length⟩ := by
  have htype : packet.drop (12 + h.wire.length) = put16 type.toNat ++ (put16 class_.toNat ++
      record class_.toNat type.toNat rr) := by
    rw [← List.drop_drop, hsections, List.drop_left]
  have hclass : packet.drop (12 + h.wire.length + 2) = put16 class_.toNat ++
      record class_.toNat type.toNat rr := by
    rw [← List.drop_drop, htype]
    rfl
  have hrecord : packet.drop (12 + h.wire.length + 4) = record class_.toNat type.toNat rr := by
    rw [show 12 + h.wire.length + 4 = 12 + h.wire.length + 2 + 2 by omega, ← List.drop_drop,
      hclass]
    rfl
  have hname : dn_expand packet 12 256 = some ((h.wire.length : ℤ), h.text) :=
    dn_expand_wire h hsections
  unfold parseAnswer SIZEOF_HEADER
  rw [hqdcount, hancount, hnscount, harcount, hname]
  simp only [Option.bind_eq_bind, Option.bind_some, Int.toNat_natCast]
  rw [read16_put16 type.toNat_lt htype, read16_put16 class_.toNat_lt hclass,
    parseRecord_record hshort hsections (by omega) hrecord]
  rfl

/-! ## The answer that is written -/

variable {rr : DnsRecord} {dname : CString} {class_ type : ℤ} {buffer : ℤ → UInt8}

/-- The counts in the header of a complete answer: the last two are what they were. -/
lemma header_answered (o : ℤ) (hlo : 4 ≤ o) (hhi : o < 12) :
    (answered rr dname class_ type (untouched buffer)).bytes o =
      if o = 5 ∨ o = 7 then 1 else if o < 8 then 0 else buffer o := by
  have hoffset : o < recordOffset dname := by
    unfold recordOffset SIZEOF_HEADER
    omega
  unfold answered
  rw [bytes_put_of_lt _ hoffset]
  obtain rfl | rfl | rfl | rfl | hcounts : o = 4 ∨ o = 5 ∨ o = 6 ∨ o = 7 ∨ 8 ≤ o := by omega
  · rw [bytes_put_of_lt _ (by decide), bytes_put_of_lt _ (by decide)]
    rfl
  · rw [bytes_put_of_lt _ (by decide), bytes_put_of_lt _ (by decide)]
    rfl
  · rfl
  · rfl
  · rw [bytes_put_of_ge (show 6 + ((put16 1).length : ℤ) ≤ o from hcounts),
      bytes_put_of_lt _ (by simp only [SIZEOF_HEADER]; omega)]
    unfold writeHeader
    dsimp only
    rw [bytes_put_of_ge (show 6 + ((put16 0).length : ℤ) ≤ o from hcounts),
      bytes_put_of_ge (show 4 + ((put16 1).length : ℤ) ≤ o by simp only [length_put16]; omega)]
    rw [bytes_put_of_ge, bytes_put_of_ge, bytes_put_of_ge, if_neg (by omega), if_neg (by omega)]
    · rfl
    · show 0 + (2 : ℤ) ≤ o
      omega
    · show 2 + (1 : ℤ) ≤ o
      omega
    · show 3 + (1 : ℤ) ≤ o
      omega

/-- The sections of a complete answer. -/
lemma sections_answered :
    (answered rr dname class_ type (untouched buffer)).slice 12
        ((wireName dname).length + 4 + (13 + rr.txtlen)) =
      question dname class_ type ++ record class_ type rr := by
  have hquestion := length_question dname class_ type
  have hoffset : recordOffset dname = 12 + (((wireName dname).length + 4 : ℕ) : ℤ) := by
    unfold recordOffset SIZEOF_HEADER
    omega
  unfold answered
  rw [hoffset, ← length_record class_ type rr, slice_put_append]
  congr 1
  rw [slice_put_of_behind (by rw [length_put16]; decide), ← hquestion]
  exact slice_put_self _ _ _

/-! ## Queries -/

namespace TextQuery

variable {q : TextQuery} {compat : CompatCalls} {anslen : Int32}

lemma length_wire_le (q : TextQuery) : q.host.wire.length ≤ 255 := by
  have hlabels := q.host.length_encodeLabels_le
  rw [q.host.length_wire]
  omega

/-- The name of the root, with a dot, takes a byte more than it should. -/
lemma length_wireName_dname (q : TextQuery) :
    (wireName q.dname).length = q.host.wire.length + if q.dname = [DOT] then 1 else 0 := by
  unfold dname
  rw [q.host.wireName_dname]
  by_cases hroot : q.host.dname q.dot = [DOT]
  · have hnone : q.host.labels = [] := by
      have htext : q.host.text = [] := by
        unfold HostName.dname at hroot
        cases hdot : q.dot with
        | true =>
          rw [hdot, if_pos rfl] at hroot
          simpa using hroot
        | false =>
          rw [hdot, if_neg Bool.false_ne_true] at hroot
          have hlabels := q.host.labels_text
          rw [hroot] at hlabels
          have hempty := q.host.nonempty [] (by rw [← hlabels]; decide)
          exact absurd rfl hempty
      rw [← q.host.labels_text, htext, labels_nil]
    rw [if_pos hroot, if_pos hroot, HostName.wire, hnone]
    rfl
  · rw [if_neg hroot, if_neg hroot, Nat.add_zero]

/-- The length of the answer as it is written. -/
lemma answerLength_eq (q : TextQuery) :
    Resolver.answerLength q.rr q.dname = q.answerLength + if q.dname = [DOT] then 1 else 0 := by
  have hwire := q.length_wireName_dname
  have htext := q.txtlen_eq
  unfold Resolver.answerLength recordOffset SIZEOF_HEADER TextQuery.answerLength
  split_ifs at hwire ⊢ <;> push_cast <;> omega

lemma recordOffset_le (q : TextQuery) : recordOffset q.dname ≤ 272 := by
  have hwire := q.length_wireName_dname
  have hle := q.length_wire_le
  unfold recordOffset SIZEOF_HEADER
  split_ifs at hwire <;> omega

lemma checksSound (q : TextQuery) (anslen : ℤ) :
    ChecksSound q.rrs q.dname q.type.toNat anslen := by
  have hoffset := q.recordOffset_le
  apply checksSound_of_fits
  · omega
  · intro rr hrr
    rw [q.answerRecord_eq, Option.some.injEq] at hrr
    have hshort := q.short
    have htext := q.txtlen_eq
    rw [← hrr]
    omega

/-- The answer passes all checks if there is room for it. -/
lemma answers_iff (q : TextQuery) (anslen : ℤ) :
    (∃ rr, Answers rr q.rrs q.dname q.type.toNat anslen) ↔
      Resolver.answerLength q.rr q.dname ≤ anslen := by
  have hoffset := q.recordOffset_le
  have hshort := q.short
  have htext := q.txtlen_eq
  have hpos : 0 ≤ recordOffset q.dname := by
    unfold recordOffset
    omega
  unfold Answers
  rw [q.answerRecord_eq]
  simp only [Option.some.injEq, exists_eq_left']
  rw [recordPasses_iff hpos (by omega), int32_of_fits (by omega) (by omega)]
  unfold Resolver.answerLength
  refine ⟨fun h => h.2.2, fun h => ⟨⟨?_, ?_⟩, by omega, h⟩⟩
  · by_cases hroot : q.dname = [DOT]
    · rw [hroot]
      decide
    · rw [show labels q.dname = q.host.labels from HostName.labels_dname hroot]
      exact q.host.short
  · have hwire := length_wireName q.dname
    unfold recordOffset at h
    omega

/-- A buffer that holds more than the header gets what is made from the records. -/
lemma run_eq (q : TextQuery) {compat : CompatCalls} {buffer : ℤ → UInt8} {anslen : Int32}
    (hanslen : ¬(0 ≤ anslen.toInt ∧ anslen.toInt ≤ SIZEOF_HEADER)) :
    (q.run compat buffer anslen).ret =
        (synthesize q.rrs q.dname q.class_.toNat q.type.toNat (untouched buffer)
          anslen.toInt).1 ∧
      (q.run compat buffer anslen).answer =
        (synthesize q.rrs q.dname q.class_.toNat q.type.toNat (untouched buffer)
          anslen.toInt).2 := by
  unfold TextQuery.run res_query_dnsapi
  rw [if_neg hanslen]
  exact ⟨rfl, rfl⟩

/-- What a complete answer says. -/
lemma parseAnswer_answered (q : TextQuery) (buffer : ℤ → UInt8) (hroot : q.dname ≠ [DOT]) :
    parseAnswer ((answered q.rr q.dname q.class_.toNat q.type.toNat
        (untouched buffer)).slice 0 q.answerLength) =
      some { q.answer with
        nscount := ntohs (buffer 8) (buffer 9)
        arcount := ntohs (buffer 10) (buffer 11) } := by
  have hwire : wireName q.dname = q.host.wire := by
    show wireName (q.host.dname q.dot) = _
    rw [q.host.wireName_dname]
    exact if_neg hroot
  have htext := q.txtlen_eq
  have hlength : q.answerLength = 12 + ((wireName q.dname).length + 4 + (13 + q.rr.txtlen)) := by
    rw [hwire, htext]
    unfold TextQuery.answerLength
    omega
  -- the last eight bytes of the header: two counts are 1, two are what the buffer held
  have hbyte (o : ℕ) (hlo : 4 ≤ o) (hhi : o < 12) :
      ((answered q.rr q.dname q.class_.toNat q.type.toNat
          (untouched buffer)).slice 0 q.answerLength)[o]? =
        some (if (o : ℤ) = 5 ∨ (o : ℤ) = 7 then 1 else if (o : ℤ) < 8 then 0 else buffer o) := by
    rw [getElem?_slice _ _ (by omega), zero_add, header_answered _ (by omega) (by omega)]
  have hcount (o : ℕ) (hlo : 8 ≤ o) (hhi : o + 1 < 12) :
      read16 ((answered q.rr q.dname q.class_.toNat q.type.toNat
          (untouched buffer)).slice 0 q.answerLength) o =
        some (ntohs (buffer o) (buffer (o + 1 : ℕ))) := by
    unfold read16
    rw [hbyte o (by omega) (by omega), hbyte (o + 1) (by omega) hhi, if_neg (by omega),
      if_neg (by omega), if_neg (by omega), if_neg (by omega)]
    rfl
  have hone (o : ℕ) (ho : o = 4 ∨ o = 6) :
      read16 ((answered q.rr q.dname q.class_.toNat q.type.toNat
          (untouched buffer)).slice 0 q.answerLength) o = some 1 := by
    have hhigh := hbyte o (by omega) (by omega)
    have hlow := hbyte (o + 1) (by omega) (by omega)
    rw [if_neg (by omega), if_pos (by omega)] at hhigh
    rw [if_pos (by omega)] at hlow
    unfold read16
    rw [hhigh, hlow]
    rfl
  have hsections : ((answered q.rr q.dname q.class_.toNat q.type.toNat
      (untouched buffer)).slice 0 q.answerLength).drop 12 =
      q.host.wire ++ (put16 q.type.toNat ++ (put16 q.class_.toNat ++
        record q.class_.toNat q.type.toNat q.rr)) := by
    rw [hlength, drop_slice]
    show slice _ 12 _ = _
    rw [sections_answered, question, hwire]
    simp only [List.append_assoc]
  rw [parseAnswer_of_sections q.short (hone 4 (Or.inl rfl)) (hone 6 (Or.inr rfl))
    (hcount 8 (by decide) (by decide)) (hcount 10 (by decide) (by decide)) hsections]
  rfl

/-- Two bytes in network order are zero if both of them are. -/
lemma ntohs_eq_zero {high low : UInt8} : ntohs high low = 0 ↔ high = 0 ∧ low = 0 := by
  unfold ntohs
  rw [← UInt8.toNat_inj, ← UInt8.toNat_inj]
  show _ ↔ high.toNat = 0 ∧ low.toNat = 0
  omega

/-- A complete answer says what it should if the counts that are not written were zero. -/
lemma parseAnswer_eq_answer_iff (q : TextQuery) (buffer : ℤ → UInt8) (hroot : q.dname ≠ [DOT]) :
    parseAnswer ((answered q.rr q.dname q.class_.toNat q.type.toNat
        (untouched buffer)).slice 0 q.answerLength) = some q.answer ↔
      buffer 8 = 0 ∧ buffer 9 = 0 ∧ buffer 10 = 0 ∧ buffer 11 = 0 := by
  rw [q.parseAnswer_answered buffer hroot, Option.some.injEq, ← and_assoc, ← ntohs_eq_zero,
    ← ntohs_eq_zero]
  constructor
  · intro h
    exact ⟨congrArg ParsedAnswer.nscount h, congrArg ParsedAnswer.arcount h⟩
  · rintro ⟨hnscount, harcount⟩
    rw [hnscount, harcount]
    rfl

end TextQuery

/-- The header is written without a check of the length. -/
lemma nonneg_of_within_synthesize {rrs : List DnsRecord} {dname : CString}
    {class_ type anslen : ℤ} {answer : WriteBuffer}
    (hwithin : (synthesize rrs dname class_ type answer anslen).2.Within 0 anslen) :
    0 ≤ anslen := by
  have hheader := within_synthesize hwithin
  unfold writeHeader at hheader
  have hid := le_of_within_put (within_of_put (within_of_put (within_of_put
    (within_of_put hheader)))) (List.cons_ne_nil _ _)
  have hend : (0 : ℤ) + 2 ≤ anslen := hid.2
  omega

/-- **When the answer is what it should be**: the length of the buffer is not negative and, if
there is room for the answer, the counts that are not written were zero before and the name
is not the one of the root with its dot. -/
theorem roundTrips_iff (q : TextQuery) (compat : CompatCalls) (buffer : ℤ → UInt8)
    (anslen : Int32) :
    RoundTrips q compat buffer anslen ↔
      0 ≤ anslen.toInt ∧
        ((q.answerLength : ℤ) ≤ anslen.toInt →
          (buffer 8 = 0 ∧ buffer 9 = 0 ∧ buffer 10 = 0 ∧ buffer 11 = 0) ∧ q.dname ≠ [DOT]) := by
  unfold RoundTrips
  have hpositive : 17 ≤ q.answerLength := by
    unfold TextQuery.answerLength
    omega
  by_cases hshort : 0 ≤ anslen.toInt ∧ anslen.toInt ≤ SIZEOF_HEADER
  · -- nothing is written
    have hsize : anslen.toInt ≤ 12 := hshort.2
    have hrun : q.run compat buffer anslen = .fail (untouched buffer) [] := by
      unfold TextQuery.run res_query_dnsapi
      rw [if_pos hshort]
    rw [hrun, if_neg (by omega)]
    exact iff_of_true ⟨rfl, written_untouched _ _ _, fun h => by omega⟩
      ⟨hshort.1, fun h => by omega⟩
  obtain ⟨hret, hanswer⟩ := q.run_eq hshort
  rw [hret, hanswer]
  by_cases hnegative : anslen.toInt < 0
  · -- the header is written
    refine iff_of_false ?_ fun h => by omega
    rintro ⟨-, hwithin, -⟩
    exact not_le.mpr hnegative (nonneg_of_within_synthesize hwithin)
  have hroom : (SIZEOF_HEADER : ℤ) ≤ anslen.toInt := by
    rw [not_and_or] at hshort
    omega
  have hlength := q.answerLength_eq
  rw [and_iff_right (show 0 ≤ anslen.toInt by omega)]
  rcases @synthesize_cases (untouched buffer) q.class_.toNat q.type.toNat anslen.toInt q.rrs
    q.dname hroom anslen.toInt_lt (q.checksSound _) (written_untouched _ _ _) with
    ⟨rr, hanswers, hfits, heq⟩ | ⟨hnot, hfails, hwithin⟩
  · -- the answer is complete
    -- the answer is made from the only record
    have hrr : rr = q.rr := by
      have hsome := hanswers.1
      rw [q.answerRecord_eq, Option.some.injEq] at hsome
      exact hsome.symm
    rw [hrr, hlength] at hfits
    rw [heq, hrr, hlength]
    by_cases hroot : q.dname = [DOT]
    · -- the answer is a byte too long
      rw [if_pos hroot] at hfits ⊢
      refine iff_of_false (fun h => ?_) fun h => (h (by omega)).2 hroot
      have hret := h.1
      rw [if_pos (by omega)] at hret
      dsimp only at hret
      omega
    · rw [if_neg hroot, add_zero] at hfits ⊢
      dsimp only
      rw [if_pos hfits, q.parseAnswer_eq_answer_iff buffer hroot]
      have hwithin : (answered q.rr q.dname q.class_.toNat q.type.toNat
          (untouched buffer)).Within 0 anslen.toInt := by
        apply within_answered (written_untouched _ _ _)
        rw [hlength, if_neg hroot]
        omega
      exact ⟨fun h _ => ⟨h.2.2 hfits, hroot⟩, fun h => ⟨rfl, hwithin, fun _ => (h hfits).1⟩⟩
  · -- the query fails
    rw [q.answers_iff, hlength] at hnot
    rw [hfails]
    by_cases hroot : q.dname = [DOT]
    · rw [if_pos hroot] at hnot
      by_cases hfits : (q.answerLength : ℤ) ≤ anslen.toInt
      · rw [if_pos hfits]
        refine iff_of_false (fun h => ?_) fun h => (h hfits).2 hroot
        omega
      · rw [if_neg hfits]
        exact iff_of_true ⟨rfl, hwithin, fun h => absurd h hfits⟩ fun h => absurd h hfits
    · rw [if_neg hroot, add_zero] at hnot
      rw [if_neg hnot]
      exact iff_of_true ⟨rfl, hwithin, fun h => absurd h hnot⟩ fun h => absurd h hnot

/-! ## A sample query -/

/-- A server that is never asked. -/
def noServer : CompatCalls where
  dns := ⟨(50, 0), [], false, fun _ => none, fun _ => false, false⟩
  gethostbyname := false
  socket := false
  id := 0
  heap := fun _ => 0
  sendto := false
  reply := none

/-- The text of `a.b`. -/
def sampleQuery : TextQuery where
  host :=
    { labels := [[97], [98]]
      nonempty := by decide
      short := by decide
      plain := by decide
      fits := by decide }
  dot := false
  class_ := 1
  type := 16
  before := []
  rr := ⟨16, 300, [116]⟩
  after := []
  skipped := nofun
  found := rfl
  short := by decide

/-- A caller's buffer that is not cleared says that there are more sections. -/
theorem sampleQuery_not_roundTrips : ¬RoundTrips sampleQuery noServer (fun _ => 1) 512 := by
  rintro ⟨-, -, hparse⟩
  have hanswer := hparse (by decide)
  have hcounts : (parseAnswer ((sampleQuery.run noServer (fun _ => 1) 512).answer.slice 0
      sampleQuery.answerLength)).map ParsedAnswer.nscount = some 257 := by
    decide +kernel
  rw [hanswer] at hcounts
  exact absurd hcounts (by decide)

end Resolver
end ClamavWin32
