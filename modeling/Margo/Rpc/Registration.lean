import Margo.Abt.Api
import Margo.Lib.KeyedList

/-!
# Registered RPCs and the pools they use

Registration of RPCs with the Mercury classes of the instances that share an
environment, and what it does to the reference counts of the pools:
`margo_provider_register_name`, the registration that a forward makes on the
fly, `margo_deregister`, `margo_rpc_set_pool`, the references that users take
and release, and the cleanup of a child.

## Implementation notes

An id that is registered with Mercury is listed under the instance and the id,
with the pool of its `margo_rpc_data` if it has any. The references that users
hold are listed next to the environment; no function reads them. Ids are
arguments: they are hashes of a name and a provider id.
-/

namespace Margo.Rpc

open Lib Abt

/-- An instance, with the ids of the two RPCs it registers itself. -/
structure Live where
  key : Nat
  mid : Instance
  shutdownRpcId : Nat
  identityRpcId : Nat
  deriving DecidableEq, Repr

/-- The instances that share an environment, what they have registered, and the
references that users hold. -/
structure World where
  abt : MargoAbt
  live : List Live
  rpcs : List ((Nat × Nat) × Option PoolHandle)
  userRefs : List PoolHandle
  deriving DecidableEq, Repr

/-- What Mercury and the allocator answer during a registration. -/
structure RegisterReplies where
  /-- The record of the registration is allocated. -/
  track : Bool
  /-- `HG_Register` succeeds. -/
  register : Bool
  /-- The `margo_rpc_data` is allocated. -/
  alloc : Bool
  /-- `HG_Register_data` succeeds. -/
  registerData : Bool
  deriving DecidableEq, Repr

/-- The given pool, or that of `margo_get_handler_pool` in the place of
`ABT_POOL_NULL`. -/
def orHandlerPool (abt : MargoAbt) (mid : Instance) (pool : PoolHandle) : PoolHandle :=
  if pool = .poolNull then poolAt abt mid.rpcPoolIdx else pool

/-- Update the reference count of a pool, if it is registered. -/
def updateRefcount (f : Nat → Nat) (h : PoolHandle) (abt : MargoAbt) : MargoAbt :=
  match findPoolByHandle abt h with
  | none => abt
  | some i => poolTable.update f i abt

/-- `margo_register_internal`, with the id it returns. The data of an id that
has some is left as it is, but the pool is counted nevertheless. -/
def margoRegisterInternal (r : RegisterReplies) (key : Nat) (mid : Instance) (id : Nat)
    (pool : PoolHandle) (w : World) : World × Nat :=
  let pool := orHandlerPool w.abt mid pool
  if !r.register then (w, 0)
  else
    match w.rpcs.lookup (key, id) with
    | some (some _) => ({ w with abt := updateRefcount incr32 pool w.abt }, id)
    | _ =>
        if r.alloc && r.registerData then
          ({ w with
              abt := updateRefcount incr32 pool w.abt
              rpcs := KeyedList.assign (key, id) (some pool) w.rpcs }, id)
        else ({ w with rpcs := KeyedList.assign (key, id) none w.rpcs }, 0)

/-- `margo_provider_register_name`. -/
def margoProviderRegisterName (r : RegisterReplies) (key : Nat) (mid : Instance) (id : Nat)
    (pool : PoolHandle) (w : World) : World × Nat :=
  if r.track then margoRegisterInternal r key mid id pool w else (w, 0)

/-- The part of a forward that registers an id that Mercury does not know;
`queried` tells whether the two queries before it succeed. -/
def forwardRegister (r : RegisterReplies) (queried : Bool) (key : Nat) (mid : Instance)
    (id : Nat) (w : World) : World :=
  match queried, w.rpcs.lookup (key, id) with
  | true, none => (margoRegisterInternal r key mid id .poolNull w).1
  | _, _ => w

/-- `margo_deregister`. -/
def margoDeregister (key id : Nat) (w : World) : World :=
  match w.rpcs.lookup (key, id) with
  | some (some pool) =>
      { w with
        abt := updateRefcount decr32 pool w.abt
        rpcs := KeyedList.erase (key, id) w.rpcs }
  | _ => { w with rpcs := KeyedList.erase (key, id) w.rpcs }

/-- `margo_rpc_set_pool`. -/
def margoRpcSetPool (key : Nat) (mid : Instance) (id : Nat) (pool : PoolHandle) (w : World) :
    World :=
  match w.rpcs.lookup (key, id) with
  | some (some old) =>
      let pool := orHandlerPool w.abt mid pool
      { w with
        abt := updateRefcount incr32 pool (updateRefcount decr32 old w.abt)
        rpcs := KeyedList.assign (key, id) (some pool) w.rpcs }
  | _ => w

/-- The end of `margo_init_ext`: the instance registers its own two RPCs. -/
def margoInitExt (rs ri : RegisterReplies) (key : Nat) (mid : Instance)
    (shutdownId identityId : Nat) (w : World) : World :=
  let (w, shutdownRpcId) := margoProviderRegisterName rs key mid shutdownId .poolNull w
  let (w, identityRpcId) := margoProviderRegisterName ri key mid identityId .poolNull w
  { w with live := ⟨key, mid, shutdownRpcId, identityRpcId⟩ :: w.live }

/-- `margo_cleanup` of a child: it deregisters its own two RPCs, and the rest of
what it has registered goes with its Mercury class. -/
def margoCleanup (l : Live) (w : World) : World :=
  let w := margoDeregister l.key l.shutdownRpcId w
  let w := margoDeregister l.key l.identityRpcId w
  { w with
    live := w.live.filter fun l' => l'.key ≠ l.key
    rpcs := w.rpcs.filter fun e => e.1.1 ≠ l.key }

/-! ## Operations -/

/-- The three ways to designate a pool. -/
inductive PoolKey
  | handle (h : PoolHandle)
  | name (n : Option String)
  | index (i : Nat)
  deriving DecidableEq, Repr

/-- How the pool is found. -/
def PoolKey.finder : PoolKey → Finder
  | .handle h => poolByHandle h
  | .name n => poolByName n
  | .index i => poolByIndex i

/-- The `margo_pool_ref_incr_*` functions. -/
def PoolKey.refIncr (mid : Option Instance) : PoolKey → Api
  | .handle h => margoPoolRefIncrByHandle mid h
  | .name n => margoPoolRefIncrByName mid n
  | .index i => margoPoolRefIncrByIndex mid i

/-- The `margo_pool_release_*` functions. -/
def PoolKey.release (mid : Option Instance) : PoolKey → Api
  | .handle h => margoPoolReleaseByHandle mid h
  | .name n => margoPoolReleaseByName mid n
  | .index i => margoPoolReleaseByIndex mid i

/-- The `margo_remove_pool_*` functions. -/
def PoolKey.remove (mid : Option Instance) : PoolKey → Api
  | .handle h => margoRemovePoolByHandle mid h
  | .name n => margoRemovePoolByName mid n
  | .index i => margoRemovePoolByIndex mid i

/-- The pool that a reference is taken on or released from. -/
def PoolKey.found (k : PoolKey) (abt : MargoAbt) : Option Nat :=
  if k.finder.ok then k.finder.find abt else none

/-- The operations that concern the users of pools. -/
inductive Op
  | create (mid : Instance) (shutdownId identityId : Nat) (rs ri : RegisterReplies)
  | register (id : Nat) (pool : PoolHandle) (r : RegisterReplies)
  | forward (id : Nat) (queried : Bool) (r : RegisterReplies)
  | deregister (id : Nat)
  | setPool (id : Nat) (pool : PoolHandle)
  | refIncr (k : PoolKey) (r : Replies)
  | release (k : PoolKey) (r : Replies)
  | addPoolFromJson (json : Option Json) (r : Replies)
  | addPoolExternal (name : Option String) (pool : PoolHandle) (takeOwnership : Bool)
      (r : Replies)
  | removePool (k : PoolKey) (r : Replies)
  | finalize

/-- The same instances and registrations after a call on the environment. -/
def World.withAbt (w : World) (abt : MargoAbt) : World := { w with abt := abt }

/-- A user takes a reference. -/
def World.hold (w : World) (i : Option Nat) : World :=
  match i with
  | none => w
  | some i => { w with userRefs := poolAt w.abt i :: w.userRefs }

/-- A user gives a reference back, if there is one to release. -/
def World.drop (w : World) (i : Option Nat) : World :=
  match i with
  | none => w
  | some i =>
      if poolTable.refcount w.abt i = 0 then w
      else { w with userRefs := w.userRefs.erase (poolAt w.abt i) }

/-- One operation through an instance that is alive. -/
def opStep (w : World) (l : Live) : Op → Option World
  | .create .. => none
  | .register id pool r => some (margoProviderRegisterName r l.key l.mid id pool w).1
  | .forward id queried r => some (forwardRegister r queried l.key l.mid id w)
  | .deregister id => some (margoDeregister l.key id w)
  | .setPool id pool => some (margoRpcSetPool l.key l.mid id pool w)
  | .refIncr k r =>
      ((k.refIncr (some l.mid)).run r w.abt).map (w.hold (k.found w.abt)).withAbt
  | .release k r =>
      ((k.release (some l.mid)).run r w.abt).map (w.drop (k.found w.abt)).withAbt
  | .addPoolFromJson json r =>
      ((margoAddPoolFromJson (some l.mid) json).run r w.abt).map w.withAbt
  | .addPoolExternal name pool own r =>
      ((margoAddPoolExternal (some l.mid) name pool own).run r w.abt).map w.withAbt
  | .removePool k r => ((k.remove (some l.mid)).run r w.abt).map w.withAbt
  | .finalize => some (margoCleanup l w)

/-- One operation: a new instance, or an operation through the one with this
key. -/
def step (w : World) (a : Nat × Op) : Option World :=
  match w.live.find? fun l => l.key == a.1, a.2 with
  | none, .create mid shutdownId identityId rs ri =>
      some (margoInitExt rs ri a.1 mid shutdownId identityId w)
  | some l, op => opStep w l op
  | _, _ => none

end Margo.Rpc
