import Margo.Lib.ThreadPool
import Mathlib.Logic.Function.Basic

/-!
# The handle cache and its users

The free list of cached Mercury handles, the data that is attached to the handles,
and the threads that use them: `margo_create`, `margo_ref_incr`, `margo_destroy`,
and the completion of forwards.

## Implementation notes

Handles, cache elements and their addresses are numbers. The outcomes of Mercury
are choices of the step. A section of the mutex of the cache, a call of Mercury
and an access to the data of a handle are one step each; `margo_destroy` with the
last reference accesses the data in one step. A reference to a handle is a thread
of its own, which may be passed on, so a client with several references is several
threads. Mercury owns a reference during a forward. The fields of the data that are
copied from the RPC, and the user data, are left out; `arena` tells where the
memory comes from. The fields `released` and `lost` are not read by any step.
-/

namespace Margo.Handle

open Function Lib.ThreadPool

/-- `struct margo_handle_data`. -/
structure HandleData where
  /-- `mid` is not null. -/
  mid : Bool
  cacheEl : Option Nat
  /-- The object was obtained from `handle_data_arena`. -/
  arena : Bool
  deriving DecidableEq, Repr

/-- The handles of Mercury and the cache of an instance. -/
structure Shared where
  /-- The handle of a cache element. -/
  handle : Nat → Nat
  freeHandleList : List Nat
  /-- The reference count of a handle in Mercury. -/
  refCount : Nat → Nat
  /-- What is attached to a handle. -/
  data : Nat → Option HandleData
  /-- The next new address of a handle. -/
  nextHandle : Nat
  /-- For each object released into `handle_data_arena`, whether it came from there. -/
  released : List Bool
  /-- The cache elements of failed calls of `margo_create`. -/
  lost : List Nat

/-- A cache without elements. -/
def noHandles : Shared where
  handle := fun _ => 0
  freeHandleList := []
  refCount := fun _ => 0
  data := fun _ => none
  nextHandle := 0
  released := []
  lost := []

/-- One iteration of the loop of `__margo_handle_cache_init` that does not fail. -/
def Shared.addElement (m : Shared) (el : Nat) : Shared :=
  { m with
    handle := update m.handle el m.nextHandle
    freeHandleList := el :: m.freeHandleList
    refCount := update m.refCount m.nextHandle 1
    data := update m.data m.nextHandle (some ⟨false, some el, false⟩)
    nextHandle := m.nextHandle + 1 }

/-- `__margo_handle_cache_init`, with whether an iteration succeeds. A failure destroys
the elements so far and is the end of the instance. -/
def handleCacheInit (succeeds : Nat → Bool) : Nat → Option Shared
  | 0 => some noHandles
  | i + 1 => do
      let m ← handleCacheInit succeeds i
      if succeeds i then some (m.addElement i) else none

/-- The program points, named after what the thread does next. -/
inductive Thread
  /-- A client outside of any call. -/
  | client
  /-- `margo_create` at the section of `__margo_handle_cache_get`. -/
  | cacheGet
  /-- At `HG_Reset` of the handle of a cache element. -/
  | reset (el : Nat)
  /-- At the section that returns the element after a failed reset. -/
  | putBack (el : Nat)
  /-- At `HG_Create`. -/
  | hgCreate
  /-- At `__margo_internal_set_handle_data`. -/
  | setData (handle : Nat)
  /-- The owner of a reference outside of any call. -/
  | holder (handle : Nat)
  /-- `margo_destroy` at `HG_Ref_get`. -/
  | refGet (handle : Nat)
  /-- `margo_destroy` at `HG_Destroy`. -/
  | hgDestroy (handle : Nat)
  /-- `margo_destroy` at `__margo_handle_cache_put`. -/
  | cachePut (handle : Nat)
  /-- At the section of `__margo_handle_cache_put`. -/
  | push (el : Nat)
  /-- A forward that Mercury has not completed. -/
  | inFlight (handle : Nat)
  deriving DecidableEq, Repr

/-- What a client does next, and what Mercury answers. -/
inductive Choice
  | create
  | refIncr
  | forward
  | destroy
  | ok
  | fail
  /-- `HG_Set_data` fails. -/
  | noSetData
  deriving DecidableEq, Repr

/-- `__margo_handle_data_free`. -/
def Shared.dataFree (m : Shared) (handle : Nat) : Shared :=
  { m with
    data := update m.data handle none
    released := m.released ++ ((m.data handle).toList.filter (·.mid)).map (·.arena) }

/-- A reference is dropped in Mercury. -/
def Shared.drop (m : Shared) (handle : Nat) : Shared :=
  let m := { m with refCount := update m.refCount handle (m.refCount handle - 1) }
  if m.refCount handle = 0 then m.dataFree handle else m

/-- `__margo_internal_set_handle_data` without a failure. -/
def Shared.setHandleData (m : Shared) (handle : Nat) : Shared :=
  let data := (m.data handle).getD ⟨false, none, true⟩
  { m with data := update m.data handle (some { data with mid := true }) }

/-- What a thread does. -/
def program (m : Shared) : Thread → Choice → Option (Shared × List Thread)
  | .client, .create => some (m, [.cacheGet])
  | .cacheGet, .ok =>
      match m.freeHandleList with
      | [] => some (m, [.hgCreate])
      | el :: rest => some ({ m with freeHandleList := rest }, [.reset el])
  | .reset el, .ok => some (m, [.setData (m.handle el)])
  | .reset el, .fail => some (m, [.putBack el])
  | .putBack el, .ok => some ({ m with freeHandleList := el :: m.freeHandleList }, [.hgCreate])
  | .hgCreate, .ok =>
      some ({ m with
        refCount := update m.refCount m.nextHandle 1
        data := update m.data m.nextHandle none
        nextHandle := m.nextHandle + 1 }, [.setData m.nextHandle])
  | .hgCreate, .fail => some (m, [.client])
  | .setData handle, .ok => some (m.setHandleData handle, [.holder handle])
  -- The instance, the registered data or the information on the handle is missing.
  | .setData handle, .fail =>
      some ({ m with lost := m.lost ++ (m.data handle).toList.flatMap (·.cacheEl.toList) },
        [.client])
  | .setData handle, .noSetData => if m.data handle = none then some (m, [.client]) else none
  | .holder handle, .refIncr =>
      some ({ m with refCount := update m.refCount handle (m.refCount handle + 1) },
        [.holder handle, .holder handle])
  | .holder handle, .forward =>
      some ({ m with refCount := update m.refCount handle (m.refCount handle + 1) },
        [.holder handle, .inFlight handle])
  | .holder handle, .destroy => some (m, [.refGet handle])
  | .refGet handle, .ok =>
      some (m, [if m.refCount handle = 1 then .cachePut handle else .hgDestroy handle])
  | .hgDestroy handle, .ok => some (m.drop handle, [.client])
  | .cachePut handle, .ok =>
      match m.data handle with
      | some ⟨true, some el, arena⟩ =>
          some ({ m with data := update m.data handle (some ⟨false, some el, arena⟩) },
            [.push el])
      | some ⟨true, none, _⟩ => some (m, [.hgDestroy handle])
      -- The instance of the handle is not known: an error is returned.
      | some ⟨false, _, _⟩ | none => some (m, [.holder handle])
  | .push el, .ok => some ({ m with freeHandleList := el :: m.freeHandleList }, [.client])
  | .inFlight handle, .ok => some (m.drop handle, [])
  | _, _ => none

abbrev Handles := Config Shared Thread

/-- Which thread goes on, and with which choice. -/
abbrev Move := Nat × Choice

/-- One of the threads goes on. -/
abbrev step : Handles → Move → Option Handles := Lib.ThreadPool.step program

/-- An initialized cache, and clients outside of any call. -/
def start (m : Shared) (clients : Nat) : Handles := ⟨m, List.replicate clients .client⟩

/-- The handle is one of the cache. -/
def Shared.Cached (m : Shared) (handle : Nat) : Prop :=
  (m.data handle).any (·.cacheEl.isSome) = true

instance (m : Shared) (handle : Nat) : Decidable (m.Cached handle) :=
  inferInstanceAs (Decidable (_ = true))

/-- The data of a cached handle is set without a failure, and `HG_Destroy` and the
completion of a forward do not drop its last reference. -/
def Recycles (s : Handles) (a : Move) : Prop :=
  match s.threads[a.1]?, a.2 with
  | some (.setData handle), .fail => ¬s.shared.Cached handle
  | some (.hgDestroy handle), .ok | some (.inFlight handle), .ok =>
      s.shared.Cached handle → s.shared.refCount handle ≠ 1
  | _, _ => True

instance (s : Handles) (a : Move) : Decidable (Recycles s a) := by
  unfold Recycles
  split <;> infer_instance

end Margo.Handle
