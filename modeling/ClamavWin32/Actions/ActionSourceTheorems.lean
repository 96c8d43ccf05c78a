import ClamavWin32.Actions.ActionSource

/-!
# What an action source owns

`action_source_open_path` and `action_source_from_fd` fill a source in the same three steps:
they copy the paths, open a descriptor, and duplicate the handle beneath it. The descriptor
is a local variable until the last step gives it to the source.

* `ActionSource.Owns`: a descriptor, a handle and the copies of two paths, and nothing else;
* `EndsOwned`: how a call that fills a source may end;
* `closeTimes`: any number of calls of `action_source_close`;
* `source_ownership`: what the calls leave, and what closing the source releases.
-/

namespace ClamavWin32
namespace Actions

open ClError ResourceEvent

variable {fd : ℤ} {display_path open_path : CString} {display_path? action_path? : Option CString}
  {before : Option ActionSource}

/-- The source owns the descriptor, which is open, one handle, and copies of the paths. -/
structure ActionSource.Owns (source : ActionSource) (fd : ℤ)
    (display_path action_path : Option CString) : Prop where
  isOpen : 0 ≤ fd
  attached : source.scan_fd = fd
  display : source.display_path.map (·.text) = display_path
  action : source.action_path.map (·.text) = action_path
  exactly : ∃ (h : OsHandle) (p q : Addr),
    source.owned = [.handle h.val, .descriptor fd, .block q, .block p]

/-- How a call may end that fills a source through the descriptor. It may fill it, and what is
acquired and not released is what the source owns. It may fail with the source as initialised,
and all that was acquired is released. Or it rejects its arguments and does nothing. In each
case all that was held before is still held. -/
inductive EndsOwned (accepted : Prop) (fd : ℤ) (display_path action_path : Option CString)
    (before : Option ActionSource) : ClError × Option ActionSource × List Event → Prop where
  | filled (source : ActionSource) (events : List Event) (haccepted : accepted)
      (howns : source.Owns fd display_path action_path)
      (hledger : ∀ held, ledger held events = some (source.owned ++ held)) :
      EndsOwned accepted fd display_path action_path before (CL_SUCCESS, some source, events)
  | failed (status : ClError) (events : List Event) (haccepted : accepted)
      (hstatus : status ≠ CL_SUCCESS)
      (hledger : ∀ held, ledger held events = some held) :
      EndsOwned accepted fd display_path action_path before
        (status, some action_source_init, events)
  | rejected (hrejected : ¬accepted) :
      EndsOwned accepted fd display_path action_path before (CL_EARG, before, [])

/-- What the source owns that the caller has, if he has one. -/
def ownedBy (source : Option ActionSource) : List Resource :=
  source.elim [] ActionSource.owned

/-- `action_source_close`, called so many times on the same source. -/
def closeTimes : ℕ → Option ActionSource → Option ActionSource × List Event
  | 0, source => (source, [])
  | n + 1, source =>
    let (source, closed) := closeChecked source
    let (source, again) := closeTimes n source
    (source, closed ++ again)

/-! ## Filling a source -/

/-- A source that was opened and that has a handle owns these four resources. -/
lemma ActionSource.OpenedFrom.owns {source : ActionSource} {h : OsHandle}
    (hopened : source.OpenedFrom display_path open_path) (hfd : source.scan_fd = fd)
    (hhandle : source.handle = some h.val) :
    source.Owns fd (some display_path) (some open_path) := by
  obtain ⟨hdisplay, haction, hopen⟩ := hopened
  obtain ⟨d, hd, -⟩ := Option.map_eq_some_iff.mp hdisplay
  obtain ⟨a, ha, -⟩ := Option.map_eq_some_iff.mp haction
  rw [hfd] at hopen
  have hne : fd ≠ -1 := by omega
  refine ⟨hopen, hfd, hdisplay, haction, h, d.block, a.block, ?_⟩
  simp [ActionSource.owned, hhandle, h.property, hne, hd, ha, hfd]

/-- Opening a source that is there, from paths that are there. -/
lemma endsOwned_open_path {accepted : Prop} (haccepted : accepted) (calls : OpenPathCalls)
    (display_path open_path : CString) :
    EndsOwned accepted calls.safe_open (some display_path) (some open_path) before
      ((action_source_open_path calls display_path open_path).1,
        some (action_source_open_path calls display_path open_path).2.1,
        (action_source_open_path calls display_path open_path).2.2) := by
  obtain ⟨status, source, events, hcall, hledger, hsuccess, hfailure⟩ :=
    action_source_open_path_spec calls display_path open_path
  have hframe (held : List Resource) : ledger held events = some (source.owned ++ held) := by
    have h := ledger_frame held hledger
    rwa [List.nil_append] at h
  rw [hcall]
  by_cases hstatus : status = CL_SUCCESS
  · obtain ⟨hopened, hfd, h, hhandle⟩ := hsuccess hstatus
    rw [hstatus]
    exact .filled source events haccepted (hopened.owns hfd hhandle) hframe
  · have hinit := hfailure hstatus
    rw [hinit] at hframe ⊢
    exact .failed status events haccepted hstatus hframe

/-- The calls as `action_source_open_path` makes them, where `_dup` stands for `safe_open`. -/
def FromFdCalls.asOpenPath (calls : FromFdCalls) : OpenPathCalls :=
  { calls.toOpenPathCalls with safe_open := calls.dup }

/-- A descriptor is attached in the same way whether it was opened or duplicated. -/
lemma action_source_from_fd_eq (calls : FromFdCalls) (display_path : CString) :
    action_source_from_fd calls display_path =
      action_source_open_path calls.asOpenPath display_path display_path := rfl

lemma endsOwned_openPathChecked (calls : OpenPathCalls) (display_path open_path : Option CString)
    (before : Option ActionSource) :
    EndsOwned (display_path ≠ none ∧ open_path ≠ none ∧ before ≠ none) calls.safe_open
      display_path open_path before (openPathChecked calls display_path open_path before) := by
  rcases display_path with _ | display_path
  · exact .rejected fun h => h.1 rfl
  rcases open_path with _ | open_path
  · exact .rejected fun h => h.2.1 rfl
  rcases before with _ | before
  · exact .rejected fun h => h.2.2 rfl
  apply endsOwned_open_path
  simp

lemma endsOwned_fromFdChecked (calls : FromFdCalls) (display_path : Option CString) (fd : ℤ)
    (before : Option ActionSource) :
    EndsOwned (display_path ≠ none ∧ 0 ≤ fd ∧ before ≠ none) calls.dup
      display_path display_path before (fromFdChecked calls display_path fd before) := by
  rcases display_path with _ | display_path
  · exact .rejected fun h => h.1 rfl
  rcases before with _ | before
  · exact .rejected fun h => h.2.2 rfl
  rw [fromFdChecked]
  by_cases hfd : fd < 0
  · rw [if_pos hfd]
    exact .rejected fun h => absurd h.2.1 (not_le.mpr hfd)
  · rw [if_neg hfd, action_source_from_fd_eq]
    have haccepted : some display_path ≠ none ∧ 0 ≤ fd ∧ some before ≠ none :=
      ⟨Option.some_ne_none _, not_lt.mp hfd, Option.some_ne_none _⟩
    exact endsOwned_open_path haccepted calls.asOpenPath display_path display_path

/-- The source of a call that ends well owns no descriptor but its own. -/
lemma EndsOwned.descriptor_not_mem {accepted : Prop} {fd fd' : ℤ}
    {returned : ClError × Option ActionSource × List Event}
    (h : EndsOwned accepted fd display_path? action_path? before returned)
    (haccepted : accepted) (hne : fd ≠ fd') :
    .descriptor fd' ∉ ownedBy returned.2.1 := by
  cases h with
  | filled source events _ howns _ =>
    obtain ⟨h, p, q, howned⟩ := howns.exactly
    show .descriptor fd' ∉ source.owned
    rw [howned]
    simpa using hne.symm
  | failed status events _ _ _ => exact List.not_mem_nil
  | rejected hrejected => exact absurd haccepted hrejected

/-! ## Closing a source -/

/-- One call releases what the source owns, and leaves a source that owns nothing. -/
lemma closeChecked_spec (source : Option ActionSource) :
    ledger (ownedBy source) (closeChecked source).2 = some [] ∧
    ownedBy (closeChecked source).1 = [] := by
  rcases source with _ | source
  · exact ⟨rfl, rfl⟩
  · exact ⟨ledger_action_source_close source, rfl⟩

/-- A source that owns nothing can be closed any number of times. -/
lemma ledger_closeTimes_nil (n : ℕ) (source : Option ActionSource) (hsource : ownedBy source = []) :
    ledger [] (closeTimes n source).2 = some [] := by
  induction n generalizing source with
  | zero => rfl
  | succ n ih =>
    obtain ⟨hledger, hclosed⟩ := closeChecked_spec source
    rw [hsource] at hledger
    rw [closeTimes, ledger_append, hledger, Option.bind_some]
    exact ih _ hclosed

/-- The first call releases everything, the others nothing. -/
lemma ledger_closeTimes (n : ℕ) (source : Option ActionSource) :
    ledger (ownedBy source) (closeTimes (n + 1) source).2 = some [] := by
  obtain ⟨hledger, hclosed⟩ := closeChecked_spec source
  rw [closeTimes, ledger_append, hledger, Option.bind_some]
  exact ledger_closeTimes_nil n _ hclosed

/-- **Ownership of an action source.** A call that fills a source either succeeds, and the
source owns one descriptor, one handle and the copies of its paths, or fails with the source
as initialised and everything released. The descriptor that the caller has duplicated stays
open and is not owned. Afterwards any number of calls of `action_source_close` release what
the source owns, each resource once. `_dup` never returns the descriptor it is given, since
that one is in use. -/
theorem source_ownership (calls : OpenPathCalls) (calls' : FromFdCalls)
    (display_path open_path : Option CString) (fd : ℤ) (before : Option ActionSource)
    (hdup : 0 ≤ fd → calls'.dup ≠ fd) :
    EndsOwned (display_path ≠ none ∧ open_path ≠ none ∧ before ≠ none) calls.safe_open
      display_path open_path before (openPathChecked calls display_path open_path before) ∧
    EndsOwned (display_path ≠ none ∧ 0 ≤ fd ∧ before ≠ none) calls'.dup
      display_path display_path before (fromFdChecked calls' display_path fd before) ∧
    (display_path ≠ none ∧ 0 ≤ fd ∧ before ≠ none →
      .descriptor fd ∉ ownedBy (fromFdChecked calls' display_path fd before).2.1) ∧
    ∀ n, ∀ source ∈ [(openPathChecked calls display_path open_path before).2.1,
        (fromFdChecked calls' display_path fd before).2.1],
      ledger (ownedBy source) (closeTimes (n + 1) source).2 = some [] := by
  have hfromFd := endsOwned_fromFdChecked calls' display_path fd before
  refine ⟨endsOwned_openPathChecked calls display_path open_path before, hfromFd, ?_, ?_⟩
  · intro haccepted
    exact hfromFd.descriptor_not_mem haccepted (hdup haccepted.2.1)
  · intro n source _
    exact ledger_closeTimes n source

/-- Descriptor 3 is duplicated as 4. -/
theorem source_ownership_three :
    Resource.descriptor 3 ∉ ownedBy (fromFdChecked
      ⟨⟨some 16, some 32, -1, true, true, some 8, some ⟨12, by decide⟩⟩, 4⟩ (some [65]) 3
      (some action_source_init)).2.1 :=
  (source_ownership
    ⟨some 16, some 32, -1, true, true, some 8, some ⟨12, by decide⟩⟩
    ⟨⟨some 16, some 32, -1, true, true, some 8, some ⟨12, by decide⟩⟩, 4⟩ (some [65]) none 3
    (some action_source_init) (by decide)).2.2.1 (by decide)

end Actions
end ClamavWin32
