import ClamavWin32.Semantics.ResourceLedger
import ClamavWin32.Win32

/-!
# Action sources

`action_source_t` of the quarantine actions (`win32actions.c`): a file opened once, that is
first scanned through its descriptor and then moved, copied or removed. A source owns its
descriptor, a duplicate of the handle beneath it, and copies of the two paths it is known
by.

What the C library and the system answer to the calls of one function is a record of its
own; what the function acquires and releases is the list of its resource events.
-/

namespace ClamavWin32
namespace Actions

/-- `cl_error_t`; the value 0 is both `CL_CLEAN` and `CL_SUCCESS`. -/
inductive ClError where
  | CL_CLEAN
  | CL_VIRUS
  | CL_EARG
  | CL_EOPEN
  | CL_EMEM
  /-- Any other error code. -/
  | other (code : ℕ)
  deriving DecidableEq, Repr

@[match_pattern] abbrev ClError.CL_SUCCESS : ClError := .CL_CLEAN

open ClError

/-- A handle the system gave out; it is never `NULL`. -/
abbrev OsHandle := {h : Addr // h ≠ 0}

/-- What an action source owns. -/
inductive Resource where
  /-- A C library file descriptor. -/
  | descriptor (fd : ℤ)
  /-- A system handle. -/
  | handle (h : Addr)
  /-- A heap block. -/
  | block (p : Addr)
  deriving DecidableEq, Repr

abbrev Event := ResourceEvent Resource

/-- A string that `strdup` put on the heap. -/
structure HeapString where
  block : Addr
  text : CString
  deriving DecidableEq, Repr

/-- `action_source_t` -/
structure ActionSource where
  /-- `none` is `NULL`. -/
  display_path : Option HeapString
  action_path : Option HeapString
  scan_fd : ℤ
  /-- `none` is `INVALID_HANDLE_VALUE`. -/
  handle : Option Addr
  has_stat : Bool
  handle_can_delete : Bool
  deriving DecidableEq, Repr

/-- `action_source_init` -/
def action_source_init : ActionSource where
  display_path := none
  action_path := none
  scan_fd := -1
  handle := none
  has_stat := false
  handle_can_delete := false

/-- What is answered to the calls `action_source_open_path` makes. -/
structure OpenPathCalls where
  /-- The copy of the display path, `none` if memory ran out. -/
  strdup_display : Option Addr
  strdup_action : Option Addr
  safe_open : ℤ
  /-- `FSTAT (fd, ..) == 0` -/
  fstat : Bool
  /-- `S_ISREG (st_mode)` -/
  is_reg : Bool
  /-- `none` is `INVALID_HANDLE_VALUE`. -/
  get_osfhandle : Option Addr
  /-- `none` if `DuplicateHandle` fails. -/
  duplicate_handle : Option OsHandle
  deriving DecidableEq, Repr

/-- `action_source_set_paths` -/
def action_source_set_paths (calls : OpenPathCalls) (source : ActionSource)
    (display_path : CString) (action_path : Option CString) :
    ClError × ActionSource × List Event :=
  match calls.strdup_display with
  | none => (CL_EMEM, source, [])
  | some p =>
    let source := { source with display_path := some ⟨p, display_path⟩ }
    match action_path with
    | none => (CL_SUCCESS, source, [.acquire (.block p)])
    | some path =>
      match calls.strdup_action with
      | none => (CL_EMEM, source, [.acquire (.block p)])
      | some q =>
        (CL_SUCCESS, { source with action_path := some ⟨q, path⟩ },
          [.acquire (.block p), .acquire (.block q)])

/-- `action_source_attach_fd` -/
def action_source_attach_fd (calls : OpenPathCalls) (source : ActionSource) (fd : ℤ) :
    ClError × ActionSource × List Event :=
  if !calls.fstat then (CL_EOPEN, source, [])
  else
    let source := { source with has_stat := true }
    if !calls.is_reg then (CL_EOPEN, source, [])
    else
      match calls.get_osfhandle with
      | none => (CL_EOPEN, source, [])
      | some _ =>
        match calls.duplicate_handle with
        | none => (CL_EOPEN, source, [])
        | some dup_handle =>
          (CL_SUCCESS,
            { source with
              scan_fd := fd
              handle := some dup_handle.val
              handle_can_delete := false },
            [.acquire (.handle dup_handle.val)])

/-- `action_source_close`: the source is as initialised afterwards. -/
def action_source_close (source : ActionSource) : ActionSource × List Event :=
  (action_source_init,
    (if source.scan_fd ≠ -1 then [.release (.descriptor source.scan_fd)] else []) ++
    (match source.handle with
      | some h => if h ≠ 0 then [.release (.handle h)] else []
      | none => []) ++
    (match source.display_path with
      | some s => [.release (.block s.block)]
      | none => []) ++
    (match source.action_path with
      | some s => [.release (.block s.block)]
      | none => []))

/-- `action_source_open_path` up to its label `done`, for two paths that are not `NULL`: the
status, the descriptor that is still to be closed, and the source. -/
def openPathBody (calls : OpenPathCalls) (display_path open_path : CString) :
    ClError × ℤ × ActionSource × List Event :=
  match action_source_set_paths calls action_source_init display_path (some open_path) with
  | (CL_SUCCESS, source, paths) =>
    let fd := calls.safe_open
    if fd < 0 then (CL_EOPEN, fd, source, paths)
    else
      match action_source_attach_fd calls source fd with
      | (CL_SUCCESS, source, attached) =>
        (CL_SUCCESS, -1, source, paths ++ .acquire (.descriptor fd) :: attached)
      | (status, source, attached) =>
        (status, fd, source, paths ++ .acquire (.descriptor fd) :: attached)
  | (status, source, paths) => (status, -1, source, paths)

/-- `action_source_open_path` -/
def action_source_open_path (calls : OpenPathCalls) (display_path open_path : CString) :
    ClError × ActionSource × List Event :=
  let (status, fd, source, events) := openPathBody calls display_path open_path
  let events := events ++ if 0 ≤ fd then [.release (.descriptor fd)] else []
  if status ≠ CL_SUCCESS then
    let (source, closed) := action_source_close source
    (status, source, events ++ closed)
  else (status, source, events)

/-- `action_source_open` -/
def action_source_open (calls : OpenPathCalls) (display_path : CString) :
    ClError × ActionSource × List Event :=
  action_source_open_path calls display_path display_path

/-- What is answered to the calls `action_source_from_fd` makes: to those of opening a path,
and by `_dup` where that one calls `safe_open`. -/
structure FromFdCalls extends OpenPathCalls where
  dup : ℤ
  deriving DecidableEq, Repr

/-- `action_source_from_fd` up to its label `done`, for a path that is not `NULL`: the status,
the descriptor that is still to be closed, and the source. -/
def fromFdBody (calls : FromFdCalls) (display_path : CString) :
    ClError × ℤ × ActionSource × List Event :=
  match action_source_set_paths calls.toOpenPathCalls action_source_init display_path
      (some display_path) with
  | (CL_SUCCESS, source, paths) =>
    let dup_fd := calls.dup
    if dup_fd < 0 then (CL_EOPEN, dup_fd, source, paths)
    else
      match action_source_attach_fd calls.toOpenPathCalls source dup_fd with
      | (CL_SUCCESS, source, attached) =>
        (CL_SUCCESS, -1, source, paths ++ .acquire (.descriptor dup_fd) :: attached)
      | (status, source, attached) =>
        (status, dup_fd, source, paths ++ .acquire (.descriptor dup_fd) :: attached)
  | (status, source, paths) => (status, -1, source, paths)

/-- `action_source_from_fd`, for a path and a descriptor that it does not reject. -/
def action_source_from_fd (calls : FromFdCalls) (display_path : CString) :
    ClError × ActionSource × List Event :=
  let (status, dup_fd, source, events) := fromFdBody calls display_path
  let events := events ++ if 0 ≤ dup_fd then [.release (.descriptor dup_fd)] else []
  if status ≠ CL_SUCCESS then
    let (source, closed) := action_source_close source
    (status, source, events ++ closed)
  else (status, source, events)

/-! ### With the arguments as the caller passes them

`none` is a null pointer. -/

/-- `action_source_open_path` with its check of the arguments. -/
def openPathChecked (calls : OpenPathCalls) (display_path open_path : Option CString)
    (source : Option ActionSource) : ClError × Option ActionSource × List Event :=
  match display_path, open_path, source with
  | some display_path, some open_path, some _ =>
    let (status, source, events) := action_source_open_path calls display_path open_path
    (status, some source, events)
  | _, _, source => (CL_EARG, source, [])

/-- `action_source_from_fd` with its check of the arguments. -/
def fromFdChecked (calls : FromFdCalls) (display_path : Option CString) (fd : ℤ)
    (source : Option ActionSource) : ClError × Option ActionSource × List Event :=
  match display_path, source with
  | some display_path, some before =>
    if fd < 0 then (CL_EARG, some before, [])
    else
      let (status, source, events) := action_source_from_fd calls display_path
      (status, some source, events)
  | _, source => (CL_EARG, source, [])

/-- `action_source_close` with its check of the argument. -/
def closeChecked : Option ActionSource → Option ActionSource × List Event
  | none => (none, [])
  | some source =>
    let (source, closed) := action_source_close source
    (some source, closed)

/-! ## What a source owns -/

/-- The resources of a source, the one that was acquired last first. -/
def ActionSource.owned (source : ActionSource) : List Resource :=
  (match source.handle with
    | some h => if h ≠ 0 then [.handle h] else []
    | none => []) ++
  (if source.scan_fd ≠ -1 then [.descriptor source.scan_fd] else []) ++
  source.action_path.toList.map (.block ·.block) ++
  source.display_path.toList.map (.block ·.block)

/-- A source that was opened from a path and not closed since. -/
structure ActionSource.OpenedFrom (source : ActionSource) (display_path open_path : CString) :
    Prop where
  display : source.display_path.map (·.text) = some display_path
  action : source.action_path.map (·.text) = some open_path
  scan_fd : 0 ≤ source.scan_fd

/-- Nothing is open in a source as initialised. -/
@[simp] lemma scan_fd_init : action_source_init.scan_fd = -1 := rfl

@[simp] lemma owned_init : action_source_init.owned = [] := rfl

@[simp] lemma action_source_close_fst (source : ActionSource) :
    (action_source_close source).1 = action_source_init := rfl

/-- The copies of the paths can be freed in either order. -/
lemma ledger_free_paths (display action : Option HeapString) :
    ResourceEvent.ledger
      (action.toList.map (Resource.block ·.block) ++ display.toList.map (.block ·.block))
      ((match display with
        | some s => [.release (.block s.block)]
        | none => []) ++
      (match action with
        | some s => [.release (.block s.block)]
        | none => [])) = some [] := by
  rcases display with _ | d <;> rcases action with _ | a <;>
    simp [ResourceEvent.ledger, List.erase_cons]
  by_cases hblock : a.block = d.block <;> simp [hblock]

/-- Closing a source releases what it owns. -/
lemma ledger_action_source_close (source : ActionSource) :
    ResourceEvent.ledger source.owned (action_source_close source).2 = some [] := by
  obtain ⟨display, action, fd, handle, stat, del⟩ := source
  have hpaths := ledger_free_paths display action
  rw [ActionSource.owned, action_source_close, List.append_assoc, List.append_assoc,
    List.append_assoc, List.append_assoc]
  -- the descriptor is closed first, though the handle was acquired after it
  rcases handle with _ | h
  · by_cases hfd : fd = -1 <;> simpa [hfd] using hpaths
  · by_cases hfd : fd = -1 <;> by_cases hh : h = 0 <;>
      simpa [hfd, hh, ResourceEvent.ledger, List.erase_cons] using hpaths

/-- Attaching a descriptor either duplicates its handle or changes nothing the source owns. -/
lemma action_source_attach_fd_cases (calls : OpenPathCalls) (source : ActionSource) (fd : ℤ) :
    (∃ h : OsHandle, action_source_attach_fd calls source fd =
      (CL_SUCCESS,
        { source with
          has_stat := true
          scan_fd := fd
          handle := some h.val
          handle_can_delete := false },
        [.acquire (.handle h.val)])) ∨
    ∃ stat, action_source_attach_fd calls source fd =
      (CL_EOPEN, { source with has_stat := stat }, []) := by
  cases hstat : calls.fstat with
  | false => exact Or.inr ⟨source.has_stat, by simp [action_source_attach_fd, hstat]⟩
  | true =>
    cases hreg : calls.is_reg with
    | false => exact Or.inr ⟨true, by simp [action_source_attach_fd, hstat, hreg]⟩
    | true =>
      rcases hos : calls.get_osfhandle with _ | os
      · exact Or.inr ⟨true, by simp [action_source_attach_fd, hstat, hreg, hos]⟩
      · rcases hdup : calls.duplicate_handle with _ | h
        · exact Or.inr ⟨true, by simp [action_source_attach_fd, hstat, hreg, hos, hdup]⟩
        · exact Or.inl ⟨h, by simp [action_source_attach_fd, hstat, hreg, hos, hdup]⟩

/-- What `action_source_open_path` has acquired when it jumps to `done`. -/
lemma openPathBody_cases (calls : OpenPathCalls) (display_path open_path : CString) :
    ∃ status fd source events,
      openPathBody calls display_path open_path = (status, fd, source, events) ∧
      ResourceEvent.ledger [] events =
        some ((if 0 ≤ fd then [.descriptor fd] else []) ++ source.owned) ∧
      (status = CL_SUCCESS → fd = -1 ∧ source.OpenedFrom display_path open_path ∧
        source.scan_fd = calls.safe_open ∧ ∃ h : OsHandle, source.handle = some h.val) := by
  rcases hdisplay : calls.strdup_display with _ | p
  · refine ⟨CL_EMEM, -1, action_source_init, [], ?_, rfl, nofun⟩
    simp [openPathBody, action_source_set_paths, hdisplay]
  rcases haction : calls.strdup_action with _ | q
  · refine ⟨CL_EMEM, -1, { action_source_init with display_path := some ⟨p, display_path⟩ },
      [.acquire (.block p)], ?_, rfl, nofun⟩
    simp [openPathBody, action_source_set_paths, hdisplay, haction]
  let source : ActionSource :=
    { action_source_init with
      display_path := some ⟨p, display_path⟩
      action_path := some ⟨q, open_path⟩ }
  have hpaths : action_source_set_paths calls action_source_init display_path
      (some open_path) =
        (CL_SUCCESS, source, [.acquire (.block p), .acquire (.block q)]) := by
    simp [action_source_set_paths, hdisplay, haction, source]
  by_cases hfd : calls.safe_open < 0
  · refine ⟨CL_EOPEN, calls.safe_open, source,
      [.acquire (.block p), .acquire (.block q)], ?_, ?_, nofun⟩
    · rw [openPathBody, hpaths]
      exact if_pos hfd
    · rw [if_neg (by omega)]
      rfl
  -- the file is open; what remains is to attach its descriptor
  rcases action_source_attach_fd_cases calls source calls.safe_open with
    ⟨h, hattach⟩ | ⟨stat, hattach⟩
  · refine ⟨CL_SUCCESS, -1,
      { source with
        has_stat := true
        scan_fd := calls.safe_open
        handle := some h.val
        handle_can_delete := false },
      [.acquire (.block p), .acquire (.block q), .acquire (.descriptor calls.safe_open),
        .acquire (.handle h.val)], ?_, ?_, fun _ => ⟨rfl, ⟨rfl, rfl, ?_⟩, rfl, h, rfl⟩⟩
    · rw [openPathBody, hpaths]
      simp only [if_neg hfd, hattach]
      rfl
    · have hne : calls.safe_open ≠ -1 := by omega
      simp [ActionSource.owned, h.property, hne, source]
    · simp only
      omega
  · refine ⟨CL_EOPEN, calls.safe_open, { source with has_stat := stat },
      [.acquire (.block p), .acquire (.block q),
        .acquire (.descriptor calls.safe_open)], ?_, ?_, nofun⟩
    · rw [openPathBody, hpaths]
      simp only [if_neg hfd, hattach]
      rfl
    · rw [if_pos (by omega)]
      rfl

/-- **Opening a source.** Either it succeeds, with the source opened from its paths through
the descriptor `safe_open` returned and a duplicate of its handle, or the source is as
initialised. All that was acquired and not released is what the source owns. -/
theorem action_source_open_path_spec (calls : OpenPathCalls)
    (display_path open_path : CString) :
    ∃ status source events,
      action_source_open_path calls display_path open_path = (status, source, events) ∧
      ResourceEvent.ledger [] events = some source.owned ∧
      (status = CL_SUCCESS →
        source.OpenedFrom display_path open_path ∧ source.scan_fd = calls.safe_open ∧
        ∃ h : OsHandle, source.handle = some h.val) ∧
      (status ≠ CL_SUCCESS → source = action_source_init) := by
  obtain ⟨status, fd, source, events, hbody, hledger, hsuccess⟩ :=
    openPathBody_cases calls display_path open_path
  by_cases hstatus : status = CL_SUCCESS
  · obtain ⟨rfl, hopened, hfd, hhandle⟩ := hsuccess hstatus
    refine ⟨status, source, events, ?_, hledger, fun _ => ⟨hopened, hfd, hhandle⟩, fun h => ?_⟩
    · simp [action_source_open_path, hbody, hstatus]
    · exact absurd hstatus h
  · refine ⟨status, action_source_init,
      events ++ (if 0 ≤ fd then [.release (.descriptor fd)] else []) ++
        (action_source_close source).2, ?_, ?_, fun h => absurd h hstatus, fun _ => rfl⟩
    · rw [action_source_open_path, hbody]
      exact if_pos hstatus
    · -- what the body acquired is released before the source is closed
      rw [ResourceEvent.ledger_append, ResourceEvent.ledger_append, hledger,
        Option.bind_some]
      by_cases hfd : 0 ≤ fd
      · rw [if_pos hfd, if_pos hfd, List.singleton_append,
          ResourceEvent.ledger_release_head, ResourceEvent.ledger_nil, Option.bind_some]
        exact ledger_action_source_close source
      · rw [if_neg hfd, if_neg hfd, List.nil_append, ResourceEvent.ledger_nil,
          Option.bind_some]
        exact ledger_action_source_close source

end Actions
end ClamavWin32
