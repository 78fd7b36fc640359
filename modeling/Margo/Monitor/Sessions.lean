import Margo.Handle.UserData
import Margo.Lib.Slots
import Margo.Request.Model

/-!
# Monitoring sessions

The default monitor takes an object of an arena for every handle and for every bulk transfer
and gives it back in another event. The core fires these events on some of its paths only:
the end of `margo_create` also when it fails, the start of `margo_destroy` only with the last
reference, and the end of a wait only for requests of the eventual kind.

## Implementation notes

The statistics are enabled. A call of a client or of Mercury is one step, as is the start of a
handler; what a forward, a response or a bulk transfer is asked for and when it completes are
steps of their own. An object of an arena is a number, and the times that the sessions hold are
left out: the events that only read or write them change nothing here. An incoming handle is a
new one. Handles and their data are those of the handle cache.
-/

namespace Margo.Monitor.Sessions

open Function Handle Lib.Slots Request
open Handle.User (Answers handleCacheGet)

/-- The request of a bulk transfer, until its end is reported. -/
structure BulkRequest where
  kind : RequestKind
  /-- The `bulk_session_t`. -/
  monitorData : Nat
  /-- The eventual is set. -/
  completed : Bool
  deriving DecidableEq, Repr

/-- The handles and bulk transfers of an instance, and the arenas of its monitor. -/
structure State where
  shared : Shared
  /-- The field `monitor_data` of the data of a handle: the `session_t`. -/
  monitorData : Nat → Option Nat
  sessionArena : Pool
  bulkSessionArena : Pool
  /-- The references that clients and handlers own. -/
  owned : List Nat
  /-- The references that Mercury owns during a forward or a response. -/
  mercury : List Nat
  bulkRequests : List BulkRequest

/-! ## The events of the monitor -/

/-- `margo_get_monitoring_data`. -/
def State.session (s : State) (handle : Nat) : Option Nat :=
  match s.shared.data handle with
  | none => none
  | some _ => s.monitorData handle

/-- `margo_set_monitoring_data`. -/
def setMonitoringData (s : State) (handle : Option Nat) (session : Nat) : State :=
  match handle with
  | none => s
  | some handle =>
      match s.shared.data handle with
      | none => s
      | some _ => { s with monitorData := update s.monitorData handle (some session) }

/-- `on_create`, at its end. -/
def onCreate (s : State) (handle : Option Nat) : Option State :=
  (s.sessionArena.take 64).map fun (session, arena) =>
    setMonitoringData { s with sessionArena := arena } handle session

/-- `on_rpc_handler`, at its start. -/
def onRpcHandler (s : State) (handle : Nat) : Option State :=
  match s.session handle with
  | some session => some (setMonitoringData s (some handle) session)
  | none =>
      (s.sessionArena.take 64).map fun (session, arena) =>
        setMonitoringData { s with sessionArena := arena } (some handle) session

/-- `on_destroy`, at its start. -/
def onDestroy (s : State) (handle : Nat) : State :=
  match s.session handle with
  | none => s
  | some session => { s with sessionArena := s.sessionArena.give session }

/-! ## Handles -/

/-- `__margo_internal_set_handle_data`: whether it succeeds, and the state afterwards. -/
def internalSetHandleData (s : State) (handle : Nat) (registered setData : Bool) : Bool × State :=
  if registered then
    match s.shared.data handle with
    | some _ => (true, { s with shared := s.shared.setHandleData handle })
    | none =>
        if setData then
          (true, { s with
            shared := s.shared.setHandleData handle
            monitorData := update s.monitorData handle none })
        else (false, s)
  else (false, s)

/-- A new handle of Mercury, with one reference. -/
def newHandle (s : State) : State :=
  { s with shared := { s.shared with
      refCount := update s.shared.refCount s.shared.nextHandle 1
      data := update s.shared.data s.shared.nextHandle none
      nextHandle := s.shared.nextHandle + 1 } }

/-- The part of `margo_create` without a cached handle, up to the label `finish`: whether it
succeeds so far, what `*handle` is, and the state. -/
def createNew (s : State) (before : Option Nat) (answers : Answers) : Bool × Option Nat × State :=
  if answers.create then
    let handle := s.shared.nextHandle
    let (ok, s) :=
      internalSetHandleData (newHandle s) handle answers.registered answers.setData
    (ok, some handle, s)
  else (false, before, s)

/-- `margo_create` up to the label `finish`. -/
def createHandle (s : State) (before : Option Nat) (answers : Answers) :
    Bool × Option Nat × State :=
  match handleCacheGet s.shared answers.reset with
  | (some handle, m) =>
      let (ok, s) :=
        internalSetHandleData { s with shared := m } handle answers.registered answers.setData
      (ok, some handle, s)
  | (none, m) => createNew { s with shared := m } before answers

/-- `margo_create`, where `*handle` is something before the call. -/
def margoCreate (s : State) (before : Option Nat) (answers : Answers) :
    Option (Option Nat × State) :=
  let (ok, handle, s) := createHandle s before answers
  (onCreate s handle).map fun s => (if ok then handle else none, s)

/-- `HG_Destroy`: `__margo_handle_data_free` runs with the last reference. -/
def hgDestroy (s : State) (handle : Nat) : State := { s with shared := s.shared.drop handle }

/-- `__margo_handle_cache_put`: whether the handle is one of the cache, and the state
afterwards. -/
def handleCachePut (s : State) (handle : Nat) : Bool × State :=
  match s.shared.data handle with
  | some ⟨_, some el, arena⟩ =>
      (true, { s with
        shared := { s.shared with
          data := update s.shared.data handle (some ⟨false, some el, arena⟩)
          freeHandleList := el :: s.shared.freeHandleList }
        monitorData := update s.monitorData handle none })
  | _ => (false, s)

/-- `margo_destroy`: whether a reference is dropped, and the state afterwards. -/
def margoDestroy (s : State) (handle : Nat) : Bool × State :=
  if s.shared.refCount handle ≠ 1 then (true, hgDestroy s handle)
  else
    match s.shared.data handle with
    | some ⟨true, _, _⟩ =>
        let (put, s) := handleCachePut (onDestroy s handle) handle
        if put then (true, s) else (true, hgDestroy s handle)
    -- the instance of the handle is not known, and no event is fired
    | some ⟨false, _, _⟩ | none => (false, s)

/-- `margo_destroy` by the owner of a reference. -/
def destroyOwned (s : State) (handle : Nat) : State :=
  let (dropped, s) := margoDestroy s handle
  if dropped then { s with owned := s.owned.erase handle } else s

/-- One reference more. -/
def refIncr (s : State) (handle : Nat) : State :=
  { s with shared := { s.shared with
      refCount := update s.shared.refCount handle (s.shared.refCount handle + 1) } }

/-- `HG_Forward` or `HG_Respond`, with whether Mercury accepts the operation. -/
def hgSubmit (s : State) (handle : Nat) (accepted : Bool) : State :=
  if accepted then { refIncr s handle with mercury := handle :: s.mercury } else s

/-- `margo_provider_iforward_internal` or `margo_irespond_internal`, which need the data of the
handle. -/
def submit (s : State) (handle : Nat) (accepted : Bool) : State :=
  if s.shared.data handle = none then s else hgSubmit s handle accepted

/-! ## Handlers -/

/-- How far the handler of an RPC gets. -/
inductive Handling
  /-- It is `_handler_for_NULL`. -/
  | null
  /-- `__margo_internal_set_handle_data` fails. -/
  | noData
  /-- The instance is finalizing. -/
  | refused
  /-- The ULT cannot be created. -/
  | noUlt
  | ult
  deriving DecidableEq, Repr

/-- `__margo_respond_with_error` and `margo_destroy`, with whether there is a response. -/
def dismiss (s : State) (handle : Nat) (responds : Bool) : State :=
  destroyOwned (hgSubmit s handle responds) handle

/-- The handler of an RPC, which owns a reference to the handle. The ULT takes one more, and
ends with `margo_destroy`. -/
def rpcHandler (s : State) (handle : Nat) (responds : Bool) : Handling → Option State
  | .null | .noData => some (dismiss s handle responds)
  | .refused => some (dismiss (internalSetHandleData s handle true true).2 handle responds)
  | .noUlt =>
      (onRpcHandler (internalSetHandleData s handle true true).2 handle).map
        fun s => dismiss s handle responds
  | .ult => onRpcHandler (internalSetHandleData s handle true true).2 handle

/-- Mercury hands a new handle to a handler. -/
def arrive (s : State) : State :=
  { newHandle s with owned := s.shared.nextHandle :: s.owned }

/-- Mercury hands the handle of a forward of this process to a handler. -/
def arriveSelf (s : State) (handle : Nat) : State :=
  { refIncr s handle with owned := handle :: s.owned }

/-! ## Bulk transfers -/

/-- `margo_bulk_itransfer_internal`, with whether the transfer is issued. -/
def bulkItransferInternal (s : State) (kind : RequestKind) (issued : Bool) : Option State :=
  (s.bulkSessionArena.take 32).map fun (session, arena) =>
    { s with
      bulkSessionArena := arena
      bulkRequests :=
        if issued then ⟨kind, session, false⟩ :: s.bulkRequests else s.bulkRequests }

/-- `margo_cb` for a bulk transfer. -/
def bulkCb (s : State) (i : Nat) : Option State :=
  match s.bulkRequests[i]? with
  | some ⟨.callback, _, _⟩ => some { s with bulkRequests := s.bulkRequests.eraseIdx i }
  | some ⟨.eventual, session, false⟩ =>
      some { s with bulkRequests := s.bulkRequests.set i ⟨.eventual, session, true⟩ }
  | _ => none

/-- `margo_wait` for a bulk transfer, once its eventual is set. -/
def bulkWait (s : State) (i : Nat) : Option State :=
  match s.bulkRequests[i]? with
  | some ⟨.eventual, session, true⟩ =>
      some { s with
        bulkSessionArena := s.bulkSessionArena.give session
        bulkRequests := s.bulkRequests.eraseIdx i }
  | _ => none

/-! ## The handles are those of the cache -/

section

variable {δ Φ : Type} {s : State} {mid : User.Instance δ Φ} {handle : Nat}

theorem shared_onDestroy (s : State) (handle : Nat) : (onDestroy s handle).shared = s.shared := by
  rw [onDestroy]
  split <;> rfl

/-- The monitor changes nothing about the end of a handle. -/
theorem margoDestroy_shared (hshared : s.shared = mid.shared) :
    (margoDestroy s handle).1 = (User.margoDestroy mid handle).1 ∧
      (margoDestroy s handle).2.shared = (User.margoDestroy mid handle).2.shared := by
  have hdrop : ∀ t : State, t.shared = mid.shared →
      (hgDestroy t handle).shared = (User.hgDestroy mid handle).shared := by
    intro t ht
    rw [User.shared_hgDestroy, hgDestroy, ht]
  have hput : (onDestroy s handle).shared = mid.shared :=
    (shared_onDestroy s handle).trans hshared
  rw [margoDestroy, User.margoDestroy, hshared]
  by_cases hcount : mid.shared.refCount handle = 1
  · rw [if_neg (not_not.mpr hcount), if_neg (not_not.mpr hcount)]
    cases hdata : mid.shared.data handle with
    | none => exact ⟨rfl, hshared⟩
    | some d =>
        obtain ⟨known, cacheEl, arena⟩ := d
        cases known with
        | false => exact ⟨rfl, hshared⟩
        | true =>
            cases cacheEl with
            | some el =>
                simp only [handleCachePut, User.handleCachePut, hput, hdata, if_true]
                exact ⟨trivial, trivial⟩
            | none =>
                simp only [handleCachePut, User.handleCachePut, hput, hdata, Bool.false_eq_true,
                  if_false]
                exact ⟨trivial, hdrop _ hput⟩
  · rw [if_pos hcount, if_pos hcount]
    exact ⟨rfl, hdrop s hshared⟩

theorem internalSetHandleData_shared (hshared : s.shared = mid.shared) (answers : Answers) :
    (internalSetHandleData s handle answers.registered answers.setData).1 =
        (User.internalSetHandleData mid handle answers).1.isSome ∧
      (internalSetHandleData s handle answers.registered answers.setData).2.shared =
        { (User.internalSetHandleData mid handle answers).2.shared with
          lost := mid.shared.lost } := by
  rw [internalSetHandleData, User.internalSetHandleData, hshared]
  cases answers.registered with
  | false => exact ⟨rfl, hshared⟩
  | true =>
      cases mid.shared.data handle with
      | some d => exact ⟨rfl, rfl⟩
      | none =>
          cases answers.setData with
          | true => exact ⟨rfl, rfl⟩
          | false => exact ⟨rfl, hshared⟩

theorem createNew_shared (hshared : s.shared = mid.shared) (before : Option Nat)
    (answers : Answers) :
    (createNew s before answers).1 = (User.createNew mid answers).1.isSome ∧
      (createNew s before answers).2.2.shared =
        { (User.createNew mid answers).2.shared with lost := mid.shared.lost } := by
  obtain ⟨shared, user, calls⟩ := mid
  obtain rfl : s.shared = shared := hshared
  rw [createNew, User.createNew]
  cases answers.create with
  | true => exact internalSetHandleData_shared rfl answers
  | false => exact ⟨rfl, rfl⟩

/-- Nor about its start, where it is not written down here which elements of the cache are
lost. -/
theorem createHandle_shared (hshared : s.shared = mid.shared) (before : Option Nat)
    (answers : Answers) :
    (createHandle s before answers).1 = (User.margoCreate mid answers).1.isSome ∧
      (createHandle s before answers).2.2.shared =
        { (User.margoCreate mid answers).2.shared with lost := mid.shared.lost } := by
  have hnone : handleCacheGet mid.shared answers.reset = (none, mid.shared) →
      (createHandle s before answers).1 = (User.margoCreate mid answers).1.isSome ∧
        (createHandle s before answers).2.2.shared =
          { (User.margoCreate mid answers).2.shared with lost := mid.shared.lost } := by
    intro hget
    simp only [createHandle, User.margoCreate, hshared, hget]
    exact createNew_shared rfl before answers
  cases hlist : mid.shared.freeHandleList with
  | nil => exact hnone (by simp only [handleCacheGet, hlist])
  | cons el rest =>
      cases hreset : answers.reset with
      | false => exact hnone (by simp [handleCacheGet, hlist, hreset])
      | true =>
          simp only [createHandle, User.margoCreate, hshared, handleCacheGet, hlist, hreset,
            if_true]
          exact internalSetHandleData_shared rfl answers

end

/-! ## Runs -/

/-- What `*handle` may be before a call of `margo_create`: nothing, or a handle that a client
has been given, which has a session as long as it is in use. -/
def Given (s : State) (before : Option Nat) : Prop :=
  ∀ handle ∈ before, handle ∈ s.owned ++ s.mercury → s.shared.data handle ≠ none →
    s.session handle ≠ none

instance (s : State) (before : Option Nat) : Decidable (Given s before) :=
  inferInstanceAs (Decidable (∀ handle ∈ before, _))

/-- What clients, handlers and Mercury do. -/
inductive Call
  | create (before : Option Nat) (answers : Answers)
  | refIncr (handle : Nat)
  | forward (handle : Nat) (accepted : Bool)
  | respond (handle : Nat) (accepted : Bool)
  /-- Mercury drops its reference after a forward or a response. -/
  | operationEnd (handle : Nat)
  | destroy (handle : Nat)
  | handler (handling : Handling) (responds : Bool)
  | handlerSelf (handle : Nat) (handling : Handling) (responds : Bool)
  | bulkTransfer (kind : RequestKind) (issued : Bool)
  | bulkCb (i : Nat)
  | wait (i : Nat)
  deriving DecidableEq, Repr

/-- One call. -/
def step (s : State) : Call → Option State
  | .create before answers =>
      if Given s before then
        (margoCreate s before answers).map fun (handle, s) =>
          { s with owned := handle.toList ++ s.owned }
      else none
  | .refIncr handle =>
      if handle ∈ s.owned then some { refIncr s handle with owned := handle :: s.owned } else none
  | .forward handle accepted | .respond handle accepted =>
      if handle ∈ s.owned then some (submit s handle accepted) else none
  | .operationEnd handle =>
      if handle ∈ s.mercury then
        some { hgDestroy s handle with mercury := s.mercury.erase handle }
      else none
  | .destroy handle => if handle ∈ s.owned then some (destroyOwned s handle) else none
  | .handler handling responds => rpcHandler (arrive s) s.shared.nextHandle responds handling
  -- only a handle with data is forwarded
  | .handlerSelf handle handling responds =>
      if handle ∈ s.mercury ∧ s.shared.data handle ≠ none then
        rpcHandler (arriveSelf s handle) handle responds handling
      else none
  | .bulkTransfer kind issued => bulkItransferInternal s kind issued
  | .bulkCb i => bulkCb s i
  | .wait i => bulkWait s i

/-- An initialized cache and a new monitor. -/
def start (m : Shared) : State := ⟨m, fun _ => none, .empty, .empty, [], [], []⟩

/-- All references. -/
def State.refs (s : State) : List Nat := s.owned ++ s.mercury

/-- The live handles. -/
def State.live (s : State) : List Nat := s.refs.dedup

/-- The sessions of the live handles. -/
def State.sessions (s : State) : List Nat := s.live.filterMap s.session

/-- The sessions of the bulk transfers. -/
def State.bulkSessions (s : State) : List Nat := s.bulkRequests.map BulkRequest.monitorData

/-- Every session is free or attached to one live handle, every session of a bulk transfer is
free or that of one transfer that goes on, and at the end all are free. -/
structure Conserved (s : State) : Prop where
  sessions : s.sessionArena.Holds s.sessions
  bulkSessions : s.bulkSessionArena.Holds s.bulkSessions
  noHandles : s.live = [] → s.sessionArena.free.Perm (List.range s.sessionArena.size)
  noTransfers : s.bulkRequests = [] →
    s.bulkSessionArena.free.Perm (List.range s.bulkSessionArena.size)

/-- `margo_create` returns `HG_SUCCESS`. -/
def CreateSucceeds (s : State) (answers : Answers) : Prop :=
  answers.registered = true ∧
    (s.shared.freeHandleList ≠ [] ∧ answers.reset = true ∨
      answers.create = true ∧ answers.setData = true)

/-- `margo_create` succeeds, Mercury does not drop the last reference to a handle with a session,
every transfer is issued, and no transfer with a callback completes. -/
def Balanced (s : State) : Call → Prop
  | .create _ answers => CreateSucceeds s answers
  | .operationEnd handle => s.session handle ≠ none → s.shared.refCount handle ≠ 1
  | .bulkTransfer _ issued => issued = true
  | .bulkCb i => ∀ r ∈ s.bulkRequests[i]?, r.kind = .eventual
  | _ => True

instance (s : State) (c : Call) : Decidable (Balanced s c) := by
  unfold Balanced CreateSucceeds
  split <;> infer_instance

end Margo.Monitor.Sessions
