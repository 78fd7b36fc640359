import Margo.Hg.Model
import Margo.Lib.KeyedList
import Margo.Rpc.Ids
import Margo.Rpc.Registration
import Mathlib.Data.List.Flatten

/-!
# The data of the registered RPCs

Mercury keeps a `margo_rpc_data` with each id that margo registers, and the user may attach
a pointer and a callback to it. A pointer that comes with a callback belongs to the
registration from then on: the next `margo_register_data`, `margo_deregister` or the end of the
Mercury class gives it to the callback.

## Implementation notes

The callback releases what the pointer points to. What the user owns is listed beside the
registrations, and a call hands over only what is owned. The pool of a `margo_rpc_data` and the
pools it counts in are in the model of the registration; here the pool is an argument.
-/

namespace Margo.Rpc

open Lib Abt
open Hg (CStr)

/-- A block of margo, or something of the user. -/
inductive Memory
  | block
  | datum
  deriving DecidableEq, Repr

/-- `struct margo_rpc_data`, at its address. -/
structure RpcData where
  address : Nat
  pool : PoolHandle
  rpcName : Option CStr
  userData : Option CStr
  /-- Whether `user_free_callback` is set. -/
  userFreeCallback : Bool
  deriving DecidableEq, Repr

/-- A Mercury class: the ids that are registered, with the data of margo. -/
structure Registry where
  rpcs : List (HgId × Option RpcData)
  world : Ledger Memory

/-- What Mercury and the allocator answer during a registration. -/
structure DataReplies extends RegisterReplies where
  /-- `strdup` of the name. -/
  strdup : Bool
  deriving DecidableEq, Repr

/-! ## Operations -/

/-- `free` of a string, which may be null. -/
def freeName (name : Option CStr) (w : Ledger Memory) : Ledger Memory :=
  match name with
  | none => w
  | some s => w.release .block s.address

/-- The call of `user_free_callback`, if there are data and a callback. -/
def freeUserData (d : RpcData) (w : Ledger Memory) : Ledger Memory :=
  match d.userData, d.userFreeCallback with
  | some u, true => w.release .datum u.address
  | _, _ => w

/-- `margo_rpc_data_free`. -/
def margoRpcDataFree (d : RpcData) (w : Ledger Memory) : Ledger Memory :=
  (freeName d.rpcName (freeUserData d w)).release .block d.address

/-- What Mercury does with the data of a registration that ends. -/
def freeRegistered (d : Option RpcData) (w : Ledger Memory) : Ledger Memory :=
  match d with
  | none => w
  | some d => margoRpcDataFree d w

/-- `name ? strdup(name) : NULL`. -/
def strdupName (answer : Bool) (name : Option String) (w : Ledger Memory) :
    Option CStr × Ledger Memory :=
  match name, answer with
  | some text, true =>
      let (address, w) := w.create .block
      (some ⟨address, text⟩, w)
  | _, _ => (none, w)

/-- The part of `margo_register_internal` for an id without data. -/
def registerNew (r : DataReplies) (name : Option String) (id : HgId) (pool : PoolHandle)
    (c : Registry) : Registry × HgId :=
  if !r.alloc then ({ c with rpcs := KeyedList.assign id none c.rpcs }, 0)
  else
    let (address, w) := c.world.create .block
    let (rpcName, w) := strdupName r.strdup name w
    -- the copy of the name stays if the data are not registered
    if !r.registerData then
      (⟨KeyedList.assign id none c.rpcs, w.release .block address⟩, 0)
    else
      (⟨KeyedList.assign id (some ⟨address, pool, rpcName, none, false⟩) c.rpcs, w⟩, id)

/-- `margo_register_internal`, with the id it returns. -/
def registerInternal (r : DataReplies) (name : Option String) (id : HgId) (pool : PoolHandle)
    (c : Registry) : Registry × HgId :=
  if !r.register then (c, 0)
  else
    match c.rpcs.lookup id with
    | some (some _) => (c, id)
    | _ => registerNew r name id pool c

/-- `margo_deregister`. -/
def deregister (id : HgId) (c : Registry) : Registry :=
  match c.rpcs.lookup id with
  | none => c
  | some d => ⟨KeyedList.erase id c.rpcs, freeRegistered d c.world⟩

/-- `margo_register_data`: whether it succeeds, and the registrations afterwards. -/
def margoRegisterData (id : HgId) (data : Option CStr) (freeCallback : Bool) (c : Registry) :
    Bool × Registry :=
  match c.rpcs.lookup id with
  | some (some d) =>
      (true, ⟨KeyedList.assign id (some { d with
        userData := data, userFreeCallback := freeCallback }) c.rpcs, freeUserData d c.world⟩)
  | _ => (false, c)

/-- What the user does. -/
inductive DataOp
  | register (r : DataReplies) (name : String) (id : HgId) (pool : PoolHandle)
  /-- A forward registers an id that Mercury does not know. -/
  | forward (r : DataReplies) (name : Option String) (id : HgId) (pool : PoolHandle)
  | deregister (id : HgId)
  | registerData (id : HgId) (data : Option CStr) (freeCallback : Bool)
  /-- The user makes something. -/
  | make (text : String)
  /-- The user frees something. -/
  | free (datum : CStr)

/-- The call hands something over. -/
def handsOver (data : Option CStr) (freeCallback : Bool) : List CStr :=
  if freeCallback then data.toList else []

end Margo.Rpc
