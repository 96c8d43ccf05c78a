import ClamavWin32.Resolver.ResQueryTheorems

/-!
# What the query over UDP releases

`get_dns` frees its block in each of its branches and hands the name of the server to
`res_query_compat`, which frees it, and the packet, before it looks at the outcome of the
call that used it. The socket is not closed in any branch.

* `get_dns_ledger`: what `get_dns` leaves to its caller;
* `res_query_compat_ledger`: what the query still holds when it returns;
* `releases_iff`: the query releases what it acquired unless it opened a socket.
-/

namespace ClamavWin32
namespace Resolver

open ResourceEvent

/-! ## A server is found -/

/-- The value decides the search in the registry. -/
def RegValue.Usable (value : RegValue) : Prop := 1 < value.datalen ∧ value.dwType = REG_SZ

instance (value : RegValue) : Decidable value.Usable :=
  inferInstanceAs (Decidable (_ ∧ _))

/-- The first value under one of the keys that is a string. -/
def GetDnsCalls.registered (calls : GetDnsCalls) (keys : List String) : Option RegValue :=
  keys.findSome? fun key => (calls.regQueryValue key).filter fun value => value.Usable

/-- The registry has the address of a server. -/
def GetDnsCalls.FindsRegistered (calls : GetDnsCalls) (keys : List String) : Prop :=
  ∃ value, calls.registered keys = some value ∧
    calls.inet_addr (value.data.takeWhile (· ≠ 32)) = true ∧ calls.strdup = true

/-- A server is found: in the registry if `GetNetworkParams` is not supported, and
otherwise by `GetNetworkParams`. -/
def GetDnsCalls.FindsServer (calls : GetDnsCalls) : Prop :=
  if calls.getNetworkParams.1 = ERROR_NOT_SUPPORTED then
    calls.regOpenKey = true ∧ calls.FindsRegistered registryKeys
  else
    (calls.getNetworkParams.1 = ERROR_BUFFER_OVERFLOW ∨
      calls.getNetworkParams.1 = ERROR_SUCCESS) ∧
      calls.getNetworkParams.2 = ERROR_SUCCESS ∧ calls.strdup = true

/-- The query gets as far as to open a socket. -/
def CompatCalls.OpensSocket (calls : CompatCalls) : Prop :=
  calls.dns.FindsServer ∧ calls.gethostbyname = true ∧ calls.socket = true

variable {calls : GetDnsCalls}

lemma isSome_fromRegLoop (keys : List String) :
    (fromRegLoop calls keys).isSome = true ↔ calls.FindsRegistered keys := by
  induction keys with
  | nil => exact iff_of_false Bool.false_ne_true fun ⟨_, hvalue, _⟩ => by cases hvalue
  | cons key keys ih =>
    unfold fromRegLoop GetDnsCalls.FindsRegistered GetDnsCalls.registered
    rw [List.findSome?_cons]
    cases hkey : calls.regQueryValue key with
    | none => exact ih
    | some value =>
      rw [Option.filter_some]
      dsimp only
      by_cases husable : value.Usable
      · rw [if_pos (decide_eq_true husable), if_pos (show _ ∧ _ from husable)]
        simp only [Option.some.injEq, exists_eq_left', ← Bool.and_eq_true]
        split_ifs with hfound
        · exact iff_of_true rfl hfound
        · exact iff_of_false Bool.false_ne_true hfound
      · rw [if_neg (show ¬(_ ∧ _) from husable), decide_eq_false husable]
        exact ih

/-! ## The ledger of each function -/

/-- `get_dns_fromreg` leaves the name of the server, if it finds one, and nothing else. -/
lemma get_dns_fromreg_ledger (calls : GetDnsCalls) :
    ((calls.regOpenKey = true ∧ calls.FindsRegistered registryKeys) ∧
      (get_dns_fromreg calls).1.isSome = true ∧
        ledger [] (get_dns_fromreg calls).2 = some [.nameserver]) ∨
    (¬(calls.regOpenKey = true ∧ calls.FindsRegistered registryKeys) ∧
      (get_dns_fromreg calls).1 = none ∧ ledger [] (get_dns_fromreg calls).2 = some []) := by
  rw [← isSome_fromRegLoop]
  unfold get_dns_fromreg
  cases hopen : calls.regOpenKey with
  | false => exact Or.inr ⟨fun h => Bool.false_ne_true h.1, rfl, rfl⟩
  | true =>
    rcases hloop : fromRegLoop calls registryKeys with _ | data
    · exact Or.inr ⟨fun h => Bool.false_ne_true h.2, rfl, rfl⟩
    · exact Or.inl ⟨⟨rfl, rfl⟩, rfl, rfl⟩

/-- `get_dns` leaves the name of the server, if it finds one, and nothing else. -/
lemma get_dns_ledger (calls : GetDnsCalls) :
    (calls.FindsServer ∧ (get_dns calls).1.isSome = true ∧
      ledger [] (get_dns calls).2 = some [.nameserver]) ∨
    (¬calls.FindsServer ∧ (get_dns calls).1 = none ∧ ledger [] (get_dns calls).2 = some []) := by
  unfold get_dns GetDnsCalls.FindsServer
  obtain ⟨first, second⟩ := calls.getNetworkParams
  dsimp only
  by_cases hunsupported : first = ERROR_NOT_SUPPORTED
  · -- the block is freed before the registry is asked
    rw [if_pos hunsupported, if_pos hunsupported]
    dsimp only
    rw [ledger_acquire, ledger_release_head]
    exact get_dns_fromreg_ledger calls
  · rw [if_neg hunsupported, if_neg hunsupported]
    by_cases hfirst : first ≠ ERROR_BUFFER_OVERFLOW ∧ first ≠ ERROR_SUCCESS
    · rw [if_pos hfirst]
      refine Or.inr ⟨?_, rfl, rfl⟩
      rintro ⟨hoverflow | hsuccess, -⟩
      · exact hfirst.1 hoverflow
      · exact hfirst.2 hsuccess
    · rw [if_neg hfirst]
      have hfirst' : first = ERROR_BUFFER_OVERFLOW ∨ first = ERROR_SUCCESS := by tauto
      by_cases hfails : second ≠ ERROR_SUCCESS ∨ !calls.strdup
      · rw [if_pos hfails]
        refine Or.inr ⟨?_, rfl, ?_⟩
        · rintro ⟨-, hsecond, hstrdup⟩
          rcases hfails with hne | hnot
          · exact hne hsecond
          · rw [hstrdup] at hnot
            cases hnot
        · split_ifs <;> rfl
      · rw [if_neg hfails]
        have hboth : second = ERROR_SUCCESS ∧ calls.strdup = true := by
          simpa using hfails
        refine Or.inl ⟨⟨hfirst', hboth⟩, rfl, ?_⟩
        split_ifs <;> rfl

section Query

variable {dname : CString} {class_ type anslen : ℤ} {answer : WriteBuffer}

/-- **What the query holds when it returns**: the socket, if it opened one. -/
lemma res_query_compat_ledger (calls : CompatCalls) :
    (calls.OpensSocket ∧ ledger [] (res_query_compat calls dname class_ type answer
        anslen).events = some [.socket]) ∨
      (¬calls.OpensSocket ∧ ledger [] (res_query_compat calls dname class_ type answer
        anslen).events = some []) := by
  unfold CompatCalls.OpensSocket res_query_compat
  rcases get_dns_ledger calls.dns with ⟨hfinds, hsome, hledger⟩ | ⟨hnot, hnone, hledger⟩
  · rcases hdns : get_dns calls.dns with ⟨_ | server, events⟩
    · rw [hdns] at hsome
      cases hsome
    rw [hdns] at hledger
    -- the name is freed whatever `gethostbyname` returns
    have hfreed : ledger [] (events ++ [release .nameserver]) = some [] := by
      rw [ledger_append, hledger]
      rfl
    cases hhost : calls.gethostbyname with
    | false => exact Or.inr ⟨fun h => Bool.false_ne_true h.2.1, hfreed⟩
    | true =>
      cases hsocket : calls.socket with
      | false => exact Or.inr ⟨fun h => Bool.false_ne_true h.2.2, hfreed⟩
      | true =>
        have hopened : ledger [] (events ++ [release .nameserver] ++
            [acquire .socket, acquire .packet, release .packet]) = some [.socket] := by
          rw [ledger_append, hfreed]
          rfl
        refine Or.inl ⟨⟨hfinds, rfl, rfl⟩, ?_⟩
        cases hsendto : calls.sendto with
        | false => exact hopened
        | true => exact hopened
  · rcases hdns : get_dns calls.dns with ⟨_ | server, events⟩
    · rw [hdns] at hledger
      exact Or.inr ⟨fun h => hnot h.1, hledger⟩
    · rw [hdns] at hnone
      cases hnone

/-- **When the query releases what it acquires**: if it does not open a socket. -/
theorem releases_iff (calls : CompatCalls) (dname : CString) (class_ type : ℤ)
    (answer : WriteBuffer) (anslen : ℤ) :
    Releases (res_query_compat calls dname class_ type answer anslen).events ↔
      ¬calls.OpensSocket := by
  rcases @res_query_compat_ledger dname class_ type anslen answer calls with
    ⟨hopens, hheld⟩ | ⟨hnot, hheld⟩
  · refine iff_of_false (fun hreleases => ?_) (not_not.mpr hopens)
    have hreleased : ledger [] (res_query_compat calls dname class_ type answer anslen).events =
        some [] := hreleases
    rw [hheld] at hreleased
    cases hreleased
  · exact iff_of_true hheld hnot

end Query

/-- The server `1` is found, and the query is sent to it; no reply comes back. -/
def unansweredCalls : CompatCalls where
  dns := ⟨(ERROR_SUCCESS, ERROR_SUCCESS), [49], false, fun _ => none, fun _ => true, true⟩
  gethostbyname := true
  socket := true
  id := 7
  heap := fun _ => 0
  sendto := true
  reply := none

/-- The socket of the query stays open. -/
theorem unanswered_leaks_socket :
    ledger [] (res_query_compat unansweredCalls [97] C_IN T_TXT
        (WriteBuffer.untouched fun _ => 0) 512).events = some [.socket] ∧
      ¬Releases (res_query_compat unansweredCalls [97] C_IN T_TXT
        (WriteBuffer.untouched fun _ => 0) 512).events := by
  decide +kernel

end Resolver
end ClamavWin32
