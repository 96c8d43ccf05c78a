import ClamavWin32.Resolver.DomainName
import ClamavWin32.Semantics.ResourceLedger
import ClamavWin32.Semantics.WriteBuffer

/-!
# Queries for text records

`res_query` of the resolver (`resolver.c`) asks `DnsQuery_A` and writes a DNS answer of its
own from the records it gets, or sends a packet over UDP and receives the answer into the
caller's buffer.

* `get_dns`: the address of the server to ask;
* `res_query_compat`: the query over UDP, with the packet built from its end;
* `res_query_dnsapi`: the query through `DnsQuery_A`;
* `res_query`: one or the other.

What is answered to the calls of one query is a `ResQueryCalls`; a `QueryRun` is what the
query returns, the caller's buffer, the packet sent and what was acquired and released.
-/

namespace ClamavWin32
namespace Resolver

open ResourceEvent

def C_IN : ℤ := 1

def T_TXT : ℤ := 16

/-- The size of a packet over UDP. -/
def NS_PACKETSZ : ℕ := 512

def NS_INT8SZ : ℕ := 1

def NS_INT16SZ : ℕ := 2

/-- `sizeof (HEADER)` -/
def SIZEOF_HEADER : ℕ := 12

def REG_SZ : ℕ := 1

def ERROR_NOT_SUPPORTED : ErrorCode := 50

/-- What a query acquires. -/
inductive Resource where
  | fixedInfo
  | hKey
  | nameserver
  | socket
  | packet
  | records
  deriving DecidableEq, Repr

/-- A record as `DnsQuery_A` returns it, with the first string of its text. -/
structure DnsRecord where
  wType : UInt16
  dwTtl : UInt32
  text : CString
  deriving DecidableEq, Repr

/-- The length of the text, as an `unsigned int`. -/
def DnsRecord.txtlen (rr : DnsRecord) : ℕ := rr.text.length % 2 ^ 32

/-- What a query leaves. -/
structure QueryRun where
  ret : ℤ
  answer : WriteBuffer
  sent : Option (List UInt8)
  events : List (ResourceEvent Resource)

/-- The query fails. -/
def QueryRun.fail (answer : WriteBuffer) (events : List (ResourceEvent Resource)) : QueryRun where
  ret := -1
  answer := answer
  sent := none
  events := events

/-! ## Numbers in network order -/

/-- The two bytes `(x >> 8) & 0xff` and `x & 0xff`. -/
def put16 (x : ℤ) : List UInt8 := [UInt8.ofInt (x >>> (8 : ℕ)), UInt8.ofInt x]

/-- The four bytes of a `DWORD`, the high one first. -/
def put32 (x : UInt32) : List UInt8 :=
  [(x >>> 24).toUInt8, (x >>> 16).toUInt8, (x >>> 8).toUInt8, x.toUInt8]

/-- `ntohs` of two bytes. -/
def ntohs (high low : UInt8) : ℕ := high.toNat * 256 + low.toNat

/-! ## The server to ask -/

/-- A value in the registry. -/
structure RegValue where
  data : CString
  datalen : ℕ
  dwType : ℕ
  deriving DecidableEq, Repr

/-- What is answered to the calls of `get_dns` and `get_dns_fromreg`. -/
structure GetDnsCalls where
  /-- The two calls of `GetNetworkParams`. -/
  getNetworkParams : ErrorCode × ErrorCode
  ipAddress : CString
  regOpenKey : Bool
  regQueryValue : String → Option RegValue
  /-- `inet_addr` does not return `INADDR_NONE`. -/
  inet_addr : CString → Bool
  /-- `_strdup` gets memory. -/
  strdup : Bool

/-- `get_dns_fromreg`, the values that are looked up. -/
def registryKeys : List String := ["ClamWinNameServer", "NameServer", "DhcpNameServer"]

/-- `get_dns_fromreg`, its loop: the first value that is a string decides. -/
def fromRegLoop (calls : GetDnsCalls) : List String → Option CString
  | [] => none
  | key :: keys =>
    match calls.regQueryValue key with
    | none => fromRegLoop calls keys
    | some value =>
      if 1 < value.datalen ∧ value.dwType = REG_SZ then
        let data := value.data.takeWhile (· ≠ 32)
        if calls.inet_addr data && calls.strdup then some data else none
      else fromRegLoop calls keys

/-- `get_dns_fromreg` -/
def get_dns_fromreg (calls : GetDnsCalls) : Option CString × List (ResourceEvent Resource) :=
  if !calls.regOpenKey then (none, [])
  else
    match fromRegLoop calls registryKeys with
    | none => (none, [acquire .hKey, release .hKey])
    | some data => (some data, [acquire .hKey, release .hKey, acquire .nameserver])

/-- `get_dns` -/
def get_dns (calls : GetDnsCalls) : Option CString × List (ResourceEvent Resource) :=
  let (first, second) := calls.getNetworkParams
  if first = ERROR_NOT_SUPPORTED then
    let (server, events) := get_dns_fromreg calls
    (server, acquire .fixedInfo :: release .fixedInfo :: events)
  else if first ≠ ERROR_BUFFER_OVERFLOW ∧ first ≠ ERROR_SUCCESS then
    (none, [acquire .fixedInfo, release .fixedInfo])
  else
    let grown : List (ResourceEvent Resource) :=
      if first = ERROR_BUFFER_OVERFLOW then [release .fixedInfo, acquire .fixedInfo] else []
    if second ≠ ERROR_SUCCESS ∨ !calls.strdup then
      (none, acquire .fixedInfo :: grown ++ [release .fixedInfo])
    else
      (some calls.ipAddress,
        acquire .fixedInfo :: grown ++ [acquire .nameserver, release .fixedInfo])

/-! ## The query over UDP -/

/-- The header of a query: recursion is asked for, and there is one question. -/
def queryHeader (id : UInt16) : List UInt8 :=
  put16 id.toNat ++ [1, 0] ++ put16 1 ++ [0, 0, 0, 0, 0, 0]

/-- `res_query_compat`, the loop over the name from its terminator back to its beginning:
each dot becomes the length of the label behind it. -/
def packetLoop (dname : CString) : (characters : ℕ) → (start rev : ℤ) → WriteBuffer →
    ℤ × ℤ × WriteBuffer
  | 0, start, rev, packet => (start, rev, packet)
  | i + 1, start, rev, packet =>
    let c := (dname[i]?).getD 0
    if c ≠ DOT then packetLoop dname i start (rev - 1) (packet.put rev [c])
    else packetLoop dname i rev (rev - 1) (packet.put rev [UInt8.ofInt (start - rev - 1)])

/-- `res_query_compat`, the length of the packet for a name of `dlen` characters. -/
def packetLength (dlen : ℕ) : ℕ := SIZEOF_HEADER + NS_INT8SZ + dlen + NS_INT8SZ + 2 * NS_INT16SZ

/-- `res_query_compat`, the packet it builds in a block that holds `heap`. -/
def buildPacket (id : UInt16) (heap : ℤ → UInt8) (dname : CString) : WriteBuffer :=
  let packet := (WriteBuffer.untouched heap).put 0 (queryHeader id)
  let off : ℤ := SIZEOF_HEADER + NS_INT8SZ + dname.length
  let (start, rev, packet) := packetLoop dname (dname.length + 1) off off packet
  -- the length of the first label
  let packet := packet.put rev [UInt8.ofInt (start - rev - 1)]
  let packet := packet.put off [0]
  let packet := packet.put (off + 1) (put16 T_TXT)
  packet.put (off + 1 + NS_INT16SZ) (put16 NS_INT8SZ)

/-- The packet as it is sent. -/
def compatPacket (id : UInt16) (heap : ℤ → UInt8) (dname : CString) : List UInt8 :=
  (buildPacket id heap dname).slice 0 (packetLength dname.length)

/-- What is answered to the calls of `res_query_compat`. -/
structure CompatCalls where
  dns : GetDnsCalls
  gethostbyname : Bool
  socket : Bool
  /-- The random `id` of the query. -/
  id : UInt16
  /-- What the block from `malloc` holds. -/
  heap : ℤ → UInt8
  sendto : Bool
  /-- The datagram that is received, `none` for an error. -/
  reply : Option (List UInt8)

/-- `recvfrom` into the caller's buffer, with room for `NS_PACKETSZ` bytes: of a longer
datagram what fits is stored, and the call fails. -/
def recvfrom (reply : Option (List UInt8)) (answer : WriteBuffer) : ℤ × WriteBuffer :=
  match reply with
  | none => (-1, answer)
  | some datagram =>
    (if datagram.length ≤ NS_PACKETSZ then (datagram.length : ℤ) else -1,
      answer.put 0 (datagram.take NS_PACKETSZ))

/-- `res_query_compat`, what it returns for `len` bytes in the caller's buffer. -/
def checkReply (id : UInt16) (answer : WriteBuffer) (len : ℤ) : ℤ :=
  if len = -1 then -1
  else if len < SIZEOF_HEADER then -1
  else if ntohs (answer.bytes 0) (answer.bytes 1) ≠ id.toNat then -1
  -- `qr` and `rcode`
  else if answer.bytes 2 &&& 0x80 = 0 then -1
  else if answer.bytes 3 &&& 0x0f ≠ 0 then -1
  -- `ancount`
  else if ntohs (answer.bytes 6) (answer.bytes 7) < 1 then -1
  else len

/-- `res_query_compat`; it does not look at the class, the type and the length of the
buffer. -/
def res_query_compat (calls : CompatCalls) (dname : CString) (_class_ _type : ℤ)
    (answer : WriteBuffer) (_anslen : ℤ) : QueryRun :=
  match get_dns calls.dns with
  | (none, events) => .fail answer events
  | (some _, events) =>
    let events := events ++ [release .nameserver]
    if !calls.gethostbyname then .fail answer events
    else if !calls.socket then .fail answer events
    else
      let events := events ++ [acquire .socket, acquire .packet, release .packet]
      let sent := some (compatPacket calls.id calls.heap dname)
      if !calls.sendto then ⟨-1, answer, sent, events⟩
      else
        let (len, answer) := recvfrom calls.reply answer
        ⟨checkReply calls.id answer len, answer, sent, events⟩

/-! ## The query through `DnsQuery_A` -/

/-- `res_query_dnsapi`, the header of the answer. -/
def writeHeader (answer : WriteBuffer) : WriteBuffer :=
  -- `id` is in host order
  let answer := answer.put 0 [1, 0]
  -- `qr` and `rd` are set, `opcode`, `aa` and `tc` are not
  let answer := answer.put 2 [0x81]
  -- `ra` is set, `unused` and `rcode` are not; `cd` and `ad` are left alone
  let answer := answer.put 3 [(answer.bytes 3 &&& 0x30) ||| 0x80]
  -- `qdcount` and `ancount`
  let answer := answer.put 4 (put16 1)
  answer.put 6 (put16 0)

/-- `res_query_dnsapi`, the record that answers the question, from `offset` on: what is
returned. The sums that are compared with the length of the buffer are `int`s. -/
def writeRecord (class_ type anslen : ℤ) (rr : DnsRecord) (offset : ℤ) (answer : WriteBuffer) :
    ℤ × WriteBuffer :=
  -- `ancount`
  let answer := answer.put 6 (put16 1)
  if anslen < int32 (offset + 2) then (-1, answer)
  else
    let answer := answer.put offset [0xC0, UInt8.ofNat SIZEOF_HEADER]
    let offset := offset + 2
    if anslen < int32 (offset + 10) then (-1, answer)
    else
      let answer := answer.put offset (put16 type ++ put16 class_ ++ put32 rr.dwTtl)
      let offset := offset + 8
      let rdata_len := int32 (rr.txtlen + 1)
      if anslen < int32 (offset + 2 + rdata_len) then (-1, answer)
      else
        let answer := answer.put offset (put16 rdata_len ++ [UInt8.ofNat rr.txtlen])
        let offset := offset + 3
        let answer := answer.put offset (rr.text.take rr.txtlen)
        (int32 (offset + rr.txtlen), answer)

/-- `res_query_dnsapi`, the loop over the records: the first one of the type is written. -/
def writeAnswer (class_ type anslen offset : ℤ) : List DnsRecord → WriteBuffer → ℤ × WriteBuffer
  | [], answer => (-1, answer)
  | rr :: rrs, answer =>
    if rr.wType = UInt16.ofInt type then writeRecord class_ type anslen rr offset answer
    else writeAnswer class_ type anslen offset rrs answer

/-- `res_query_dnsapi`, the answer made from the records. -/
def synthesize (rrs : List DnsRecord) (dname : CString) (class_ type : ℤ) (answer : WriteBuffer)
    (anslen : ℤ) : ℤ × WriteBuffer :=
  let answer := writeHeader answer
  let offset : ℤ := SIZEOF_HEADER
  let (qname_len, name) := dn_comp dname (int32 (anslen - offset))
  let answer := answer.put offset name
  if qname_len < 0 then (-1, answer)
  else
    let offset := offset + qname_len
    if anslen < int32 (offset + 4) then (-1, answer)
    else
      let answer := answer.put offset (put16 type ++ put16 class_)
      writeAnswer class_ type anslen (offset + 4) rrs answer

/-- What is answered to the calls of `res_query`. -/
structure ResQueryCalls where
  /-- `dnsapi.dll` has the two functions that are needed. -/
  dnsapi : Bool
  /-- The records `DnsQuery_A` returns, `none` if it fails. -/
  dnsQuery : Option (List DnsRecord)
  compat : CompatCalls

/-- `res_query_dnsapi` -/
def res_query_dnsapi (calls : ResQueryCalls) (dname : CString) (class_ type : ℤ)
    (answer : WriteBuffer) (anslen : ℤ) : QueryRun :=
  -- compared as a `size_t`, so that a negative length passes
  if 0 ≤ anslen ∧ anslen ≤ SIZEOF_HEADER then .fail answer []
  else
    match calls.dnsQuery with
    | none => res_query_compat calls.compat dname class_ type answer anslen
    | some rrs =>
      let (ret, answer) := synthesize rrs dname class_ type answer anslen
      ⟨ret, answer, none, [acquire .records, release .records]⟩

/-- `res_query` -/
def res_query (calls : ResQueryCalls) (dname : CString) (class_ type : ℤ) (answer : WriteBuffer)
    (anslen : ℤ) : QueryRun :=
  if calls.dnsapi then res_query_dnsapi calls dname class_ type answer anslen
  else res_query_compat calls.compat dname class_ type answer anslen

end Resolver
end ClamavWin32
