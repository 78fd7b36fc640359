import Margo.Abt.Config
import Margo.Lib.SlotArray

/-!
# The arrays of the Argobots environment in memory

The functions of `margo-abt-config.c` that initialize, extend and shrink the
arrays of `struct margo_abt`, on the slots of these arrays: the initializers,
which are handed a slot that they expect to be zero and clear when they fail,
the growth of a full array, and the removals.

## Implementation notes

A pointer to a string is an `Option`. Running into a null pointer and writing
a new entry behind the end of an array are faults. What Argobots and the
allocator answer is an argument, now also to every question about the main
scheduler of an xstream; so is what memory holds before it is cleared.
Allocations whose result is not checked succeed, and a capacity that can be
allocated fits an `unsigned`.
-/

namespace Margo.Abt.Arrays

open Lib

/-- What a call runs into if it does not return. -/
inductive Fault
  | nullPointer
  | outOfBounds
  deriving DecidableEq, Repr

abbrev Mem := Except Fault

/-- Read the string behind a pointer. -/
def deref : Option String → Mem String
  | some s => pure s
  | none => throw .nullPointer

/-- `margo_abt_pool_t` in memory. -/
structure PoolSlot where
  name : Option String
  pool : PoolHandle
  kind : Option String
  access : Option String
  refcount : Nat
  numXstreams : Nat
  margoFreeFlag : Bool
  usedByPrimary : Bool
  deriving DecidableEq, Repr

/-- The bytes of a pool are zero. -/
instance : Zero PoolSlot := ⟨none, .null, none, none, 0, 0, false, false⟩

/-- `margo_abt_xstream_t` in memory. -/
structure XstreamSlot where
  name : Option String
  xstream : XstreamHandle
  refcount : Nat
  schedType : Option String
  margoFreeFlag : Bool
  deriving DecidableEq, Repr

/-- The bytes of an xstream are zero. -/
instance : Zero XstreamSlot := ⟨none, .null, 0, none, false⟩

end Margo.Abt.Arrays

namespace Margo.Abt

open Lib

/-- `margo_abt_t` in memory. -/
structure Arrays where
  pools : SlotArray Arrays.PoolSlot
  xstreams : SlotArray Arrays.XstreamSlot
  deriving DecidableEq, Repr

namespace Arrays

/-- The answers to one series of questions about a scheduler. -/
structure SchedCalls where
  /-- `ABT_xstream_get_main_sched` succeeds. -/
  mainSched : Bool
  /-- `ABT_sched_get_num_pools` succeeds. -/
  numPools : Bool
  /-- `ABT_sched_get_pools` succeeds in the round with this number. -/
  pools : Nat → Bool

/-- What Argobots, the allocator and the memory answer during one operation. -/
structure Env extends Replies where
  /-- While an external scheduler is looked at. -/
  external : SchedCalls
  /-- While the pools of a scheduler are counted. -/
  count : SchedCalls
  /-- While an xstream is destroyed. -/
  destroy : SchedCalls
  /-- What the memory gained by a growth holds. -/
  freshPool : Nat → PoolSlot
  freshXstream : Nat → XstreamSlot

/-! ## Lookup -/

/-- `__margo_abt_find_pool_by_name`. -/
def findPoolByName (a : Arrays) : Option String → Option Nat
  | none => none
  | some name => a.pools.entries.findIdx? fun p => p.name == some name

/-- `__margo_abt_find_pool_by_handle`. -/
def findPoolByHandle (a : Arrays) (pool : PoolHandle) : Option Nat :=
  if pool = .poolNull then none else a.pools.entries.findIdx? fun p => p.pool == pool

/-- `__margo_abt_find_xstream_by_name`. -/
def findXstreamByName (a : Arrays) : Option String → Option Nat
  | none => none
  | some name => a.xstreams.entries.findIdx? fun x => x.name == some name

/-- `__margo_abt_find_xstream_by_handle`. -/
def findXstreamByHandle (a : Arrays) (xstream : XstreamHandle) : Option Nat :=
  if xstream = .xstreamNull then none
  else a.xstreams.entries.findIdx? fun x => x.xstream == xstream

/-- `generate_unused_pool_name`. -/
def generateUnusedPoolName (a : Arrays) : Mem String := do
  let used ← a.pools.entries.mapM fun p => deref p.name
  return generateUnusedName (fun i => "__pool_" ++ printInt i ++ "__") used

/-- `generate_unused_xstream_name`. -/
def generateUnusedXstreamName (a : Arrays) : Mem String := do
  let used ← a.xstreams.entries.mapM fun x => deref x.name
  return generateUnusedName (fun i => "__xstream_" ++ printInt i ++ "__") used

/-- The name passed for an external pool, or a generated one. -/
def poolExternalName (name : Option String) (a : Arrays) : Mem String :=
  match name with
  | some name => pure name
  | none => generateUnusedPoolName a

/-- The name passed for an external xstream, or a generated one. -/
def xstreamExternalName (name : Option String) (a : Arrays) : Mem String :=
  match name with
  | some name => pure name
  | none => generateUnusedXstreamName a

/-- What the checks of a configuration see of the environment; an entry always
has a name. -/
def seen (a : Arrays) : MargoAbt where
  pools := a.pools.entries.map fun p =>
    ⟨p.name.getD "", p.pool, p.kind.getD "", p.access, p.refcount, p.numXstreams,
      p.margoFreeFlag, p.usedByPrimary⟩
  poolsCap := a.pools.cap
  xstreams := a.xstreams.entries.map fun x =>
    ⟨x.name.getD "", x.xstream, x.schedType.getD "", x.refcount, x.margoFreeFlag⟩
  xstreamsCap := a.xstreams.cap

/-! ## Initializers of pools -/

/-- `__margo_abt_pool_destroy` leaves the slot zero. -/
def poolDestroy (_ : PoolSlot) : PoolSlot := 0

/-- The name in the JSON, or a generated one. -/
def poolJsonName (jpool : Json) (a : Arrays) : Mem String :=
  if (jpool.get "name").present then pure (jpool.get "name").getString
  else generateUnusedPoolName a

/-- The name, kind and access of a pool, the latter if the JSON has it. -/
def poolJsonFields (jpool : Json) (name : String) (pool : PoolSlot) : PoolSlot :=
  { pool with
    name := some name
    kind := some (jpool.getStringOr "kind" "fifo_wait")
    access :=
      if (jpool.get "access").present then some (jpool.get "access").getString else pool.access }

/-- `__margo_abt_pool_init_from_json`. -/
def poolInitFromJson (env : Env) (jpool : Json) (a : Arrays) (pool : PoolSlot) :
    Mem (PoolSlot × Bool) := do
  let name ← poolJsonName jpool a
  let pool := poolJsonFields jpool name pool
  if !env.alloc then
    return (poolDestroy pool, false)
  else if jpool.getStringOr "kind" "fifo_wait" ∈
      ["fifo_wait", "fifo", "prio_wait", "earliest_first"] then
    let pool := { pool with access := some (pool.access.getD "mpmc") }
    match env.poolCreate with
    | none => return (poolDestroy pool, false)
    | some id => return ({ pool with pool := .obj id, margoFreeFlag := true }, true)
  else
    return (poolDestroy pool, false)

/-- `__margo_abt_pool_init_external`, which clears the slot first. -/
def poolInitExternal (name : Option String) (handle : PoolHandle) (a : Arrays) (_ : PoolSlot) :
    Mem (PoolSlot × Bool) := do
  let name ← poolExternalName name a
  return ({ (0 : PoolSlot) with name := some name, pool := handle, kind := some "external" }, true)

/-! ## Schedulers -/

/-- The loop that searches the pool with a name; the number of pools if there is
none. -/
def indexOfName (name : String) : List PoolSlot → Mem Nat
  | [] => pure 0
  | p :: ps => do
      let other ← deref p.name
      if other = name then return 0
      let i ← indexOfName name ps
      return i + 1

/-- The index that a reference of a scheduler stands for: a number, read as a
`uint32_t`, or the position of a name. -/
def refPosition (a : Arrays) (ref : Json) : Mem Nat :=
  if ref.isType .int then pure (ref.getInt % 2 ^ 32).toNat
  else indexOfName ref.getString a.pools.entries

/-- The pool that a reference of a scheduler designates. -/
def schedPool (a : Arrays) (ref : Json) : Mem (Option PoolHandle) := do
  let index ← refPosition a ref
  if a.pools.len ≤ index then return none
  return a.pools.slots[index]?.map (·.pool)

/-- The loop over the references, up to an invalid one. -/
def schedPools (a : Arrays) : List Json → Mem (Option (List PoolHandle))
  | [] => pure (some [])
  | ref :: refs => do
      match ← schedPool a ref with
      | none => return none
      | some pool =>
          let pools ← schedPools a refs
          return pools.map (pool :: ·)

/-- `__margo_abt_sched_init_from_json`: the type of the scheduler and its pools. -/
def schedInitFromJson (env : Env) (jsched : Json) (a : Arrays) :
    Mem (Option (String × List PoolHandle)) := do
  match ← schedPools a (jsched.get "pools").items with
  | none => return none
  | some pools =>
      if env.schedCreate then
        return some (jsched.getStringOr "type" "basic_wait", pools.map scheduled)
      else return none

/-- `__margo_abt_sched_init_external`. -/
def schedInitExternal (calls : SchedCalls) (pools : List PoolHandle) (a : Arrays) : Bool :=
  calls.numPools && calls.pools 0 && pools.all fun p => (findPoolByHandle a p).isSome

/-- Update the pool behind each handle in turn, from round `i` on. -/
def walkPools (calls : SchedCalls) (f : PoolSlot → PoolSlot) (a : Arrays) :
    List PoolHandle → Nat → Arrays × Bool
  | [], _ => (a, true)
  | h :: hs, i =>
      if !calls.pools i then (a, false)
      else
        match findPoolByHandle a h with
        | none => (a, false)
        | some k => walkPools calls f { a with pools := a.pools.modify k f } hs (i + 1)

/-- Count one use of a pool by an xstream. -/
def countUse (primary : Bool) (p : PoolSlot) : PoolSlot :=
  { p with
    numXstreams := incr32 p.numXstreams
    usedByPrimary := p.usedByPrimary || primary }

/-- Discount one use. -/
def discountUse (p : PoolSlot) : PoolSlot := { p with numXstreams := decr32 p.numXstreams }

/-! ## Initializers of xstreams -/

/-- `__margo_abt_xstream_destroy`; the slot is zero afterwards. -/
def xstreamDestroy (calls : SchedCalls) (x : XstreamSlot) (a : Arrays) : Arrays × XstreamSlot :=
  match x.xstream with
  | .obj _ pools =>
      if calls.mainSched && calls.numPools then ((walkPools calls discountUse a pools 0).1, 0)
      else (a, 0)
  | _ => (a, 0)

/-- The label `error` of both initializers. -/
def xstreamError (env : Env) (x : XstreamSlot) (a : Arrays) : Arrays × XstreamSlot × Bool :=
  let (a, x) := xstreamDestroy env.destroy x a
  (a, x, false)

/-- The end of both initializers: count the xstream in the pools of its scheduler. -/
def countXstream (env : Env) (primary : Bool) (x : XstreamSlot) (pools : List PoolHandle)
    (a : Arrays) : Arrays × XstreamSlot × Bool :=
  if !env.count.numPools then xstreamError env x a
  else
    match walkPools env.count (countUse primary) a pools 0 with
    | (a, true) => (a, x, true)
    | (a, false) => xstreamError env x a

/-- The name in the JSON, or a generated one. -/
def xstreamJsonName (jxstream : Json) (a : Arrays) : Mem String :=
  if (jxstream.get "name").present then pure (jxstream.get "name").getString
  else generateUnusedXstreamName a

/-- `__margo_abt_xstream_init_from_json`. -/
def xstreamInitFromJson (env : Env) (jxstream : Json) (a : Arrays) (x : XstreamSlot) :
    Mem (Arrays × XstreamSlot × Bool) := do
  let name ← xstreamJsonName jxstream a
  let x := { x with name := some name }
  if !env.alloc then return xstreamError env x a
  match ← schedInitFromJson env (jxstream.get "scheduler") a with
  | none => return xstreamError env { x with schedType := none } a
  | some (type, pools) =>
      let x := { x with schedType := some type }
      if name ≠ "__primary__" then
        let handle := (env.xstreamCreate.map (XstreamHandle.obj · pools)).getD .xstreamNull
        return countXstream env false { x with xstream := handle, margoFreeFlag := true } pools a
      else
        match env.xstreamSelf with
        | none => return xstreamError env x a
        | some id =>
            if env.setMainSched then
              return countXstream env true { x with xstream := .obj id pools } pools a
            else return xstreamError env { x with xstream := .obj id env.selfPools } a

/-- `__margo_abt_xstream_init_external`. -/
def xstreamInitExternal (env : Env) (name : Option String) (handle : XstreamHandle) (a : Arrays)
    (x : XstreamSlot) : Mem (Arrays × XstreamSlot × Bool) := do
  let given ← xstreamExternalName name a
  let x := { x with name := some given, xstream := handle, margoFreeFlag := false }
  match handle with
  | .obj _ pools =>
      if !env.external.mainSched then return xstreamError env x a
      else if !schedInitExternal env.external pools a then
        return xstreamError env { x with schedType := none } a
      else
        let name ← deref name
        return countXstream env (name == "__primary__") { x with schedType := some "external" }
          pools a
  | _ => return xstreamError env x a

/-! ## Registration -/

/-- Run an initializer on the slot after the last pool, `&pools[pools_len]`. -/
def appendPool (init : PoolSlot → Mem (PoolSlot × Bool)) (a : Arrays) : Mem (Arrays × Bool) := do
  match a.pools.slots[a.pools.len]? with
  | none => throw .outOfBounds
  | some slot =>
      let (slot, ok) ← init slot
      let pools := a.pools.write a.pools.len slot
      if ok then return ({ a with pools := { pools with len := pools.len + 1 } }, true)
      else return ({ a with pools := pools }, false)

/-- Run an initializer on the slot after the last xstream. -/
def appendXstream (init : Arrays → XstreamSlot → Mem (Arrays × XstreamSlot × Bool))
    (a : Arrays) : Mem (Arrays × Bool) := do
  match a.xstreams.slots[a.xstreams.len]? with
  | none => throw .outOfBounds
  | some slot =>
      let (a, slot, ok) ← init a slot
      let xstreams := a.xstreams.write a.xstreams.len slot
      if ok then
        return ({ a with xstreams := { xstreams with len := xstreams.len + 1 } }, true)
      else return ({ a with xstreams := xstreams }, false)

/-- Make room for one more pool. -/
def growPools (env : Env) (a : Arrays) : Option Arrays :=
  if a.pools.len = a.pools.cap then
    if env.realloc then
      some { a with pools := a.pools.grow (grownCap a.pools.cap) env.freshPool }
    else none
  else some a

/-- Make room for one more xstream. -/
def growXstreams (env : Env) (a : Arrays) : Option Arrays :=
  if a.xstreams.len = a.xstreams.cap then
    if env.realloc then
      some { a with xstreams := a.xstreams.grow (grownCap a.xstreams.cap) env.freshXstream }
    else none
  else some a

/-- `__margo_abt_add_pool_from_json`. -/
def addPoolFromJson (env : Env) (config : Json) (a : Arrays) : Mem (Arrays × Bool) :=
  match poolValidateJson env.abtInitialized config with
  | .error _ => pure (a, false)
  | .ok () =>
      if (config.get "name").present &&
          (findPoolByName a (some (config.get "name").getString)).isSome then
        pure (a, false)
      else
        match growPools env a with
        | none => pure (a, false)
        | some a => appendPool (poolInitFromJson env config a) a

/-- `__margo_abt_add_external_pool`. -/
def addExternalPool (env : Env) (name : Option String) (pool : PoolHandle) (a : Arrays) :
    Mem (Arrays × Bool) :=
  if (findPoolByName a name).isSome then pure (a, false)
  else if (findPoolByHandle a pool).isSome then pure (a, false)
  else
    match growPools env a with
    | none => pure (a, false)
    | some a => appendPool (poolInitExternal name pool a) a

/-- `__margo_abt_add_xstream_from_json`. -/
def addXstreamFromJson (env : Env) (config : Json) (a : Arrays) : Mem (Arrays × Bool) :=
  match xstreamValidateJson env.abtInitialized config a.seen [] with
  | .error _ => pure (a, false)
  | .ok () =>
      if (config.get "name").present &&
          (findXstreamByName a (some (config.get "name").getString)).isSome then
        pure (a, false)
      else
        match growXstreams env a with
        | none => pure (a, false)
        | some a => appendXstream (xstreamInitFromJson env config) a

/-- `__margo_abt_add_external_xstream`. -/
def addExternalXstream (env : Env) (name : Option String) (xstream : XstreamHandle) (a : Arrays) :
    Mem (Arrays × Bool) :=
  if (findXstreamByName a name).isSome then pure (a, false)
  else if (findXstreamByHandle a xstream).isSome then pure (a, false)
  else
    match growXstreams env a with
    | none => pure (a, false)
    | some a => appendXstream (xstreamInitExternal env name xstream) a

/-! ## Removal -/

/-- `__margo_abt_remove_pool`. -/
def removePool (env : Env) (index : Nat) (a : Arrays) : Mem (Arrays × HgReturn) :=
  if a.pools.len ≤ index then pure (a, .invalidArg)
  else
    match a.pools.slots[index]? with
    | none => throw .outOfBounds
    | some p =>
        if p.refcount ≠ 0 then pure (a, .permission)
        else if p.numXstreams ≠ 0 then pure (a, .permission)
        else
          match env.totalSize with
          | none => pure (a, .otherError)
          | some size =>
              if size ≠ 0 then pure (a, .permission)
              else pure ({ a with pools := a.pools.remove index }, .success)

/-- `__margo_abt_remove_xstream`. -/
def removeXstream (env : Env) (index : Nat) (a : Arrays) : Mem (Arrays × HgReturn) := do
  if a.xstreams.len ≤ index then return (a, .invalidArg)
  match a.xstreams.slots[index]? with
  | none => throw .outOfBounds
  | some x =>
      let name ← deref x.name
      if name = "__primary__" then return (a, .permission)
      if x.refcount ≠ 0 then return (a, .permission)
      let (a, _) := xstreamDestroy env.destroy x a
      return ({ a with xstreams := a.xstreams.remove index }, .success)

/-! ## Initialization -/

/-- The answers to the calls of one initialization. -/
structure InitEnv where
  /-- Argobots was initialized before the call. -/
  abtInitialized : Bool
  /-- `ABT_init` succeeds. -/
  abtInit : Bool
  /-- The answers while the pool with this index is created. -/
  pool : Nat → Env
  /-- The answers while the xstream with this index is created. -/
  xstream : Nat → Env
  /-- `ABT_xstream_get_main_pools` succeeds. -/
  mainPools : Bool
  /-- The calling xstream and the pools of its main scheduler. -/
  self : Nat
  selfPools : List PoolHandle

/-- Stop with a failure. -/
def orElseFail (x : Mem (Arrays × Bool)) (next : Arrays → Mem (Option Arrays)) :
    Mem (Option Arrays) := do
  match ← x with
  | (a, true) => next a
  | (_, false) => return none

/-- The loop over the pools of the configuration. -/
def initPools (env : InitEnv) (a : Arrays) : List Json → Mem (Option Arrays)
  | [] => pure (some a)
  | jpool :: rest =>
      orElseFail (appendPool (poolInitFromJson (env.pool a.pools.len) jpool a) a)
        fun a => initPools env a rest

/-- Create one xstream of the configuration. -/
def initXstream (env : InitEnv) (jxstream : Json) (a : Arrays) : Mem (Arrays × Bool) :=
  appendXstream (xstreamInitFromJson (env.xstream a.xstreams.len) jxstream) a

/-- The loop over the xstreams of the configuration. -/
def initXstreams (env : InitEnv) (a : Arrays) : List Json → Mem (Option Arrays)
  | [] => pure (some a)
  | jxstream :: rest =>
      orElseFail (initXstream env jxstream a) fun a => initXstreams env a rest

/-- A configured primary xstream: a pool named `__primary__` must be its first. -/
def checkPrimary (env : InitEnv) (es : XstreamSlot) (a : Arrays) : Option Arrays :=
  if !env.mainPools then none
  else
    let first := findPoolByHandle a ((mainPools es.xstream).headD .poolNull)
    match findPoolByName a (some "__primary__") with
    | none => some a
    | some i => if first = some i then some a else none

/-- The primary pool, added if the configuration has none. -/
def initPrimaryPool (env : InitEnv) (a : Arrays) : Mem (Arrays × Bool) :=
  match findPoolByName a (some "__primary__") with
  | some _ => pure (a, true)
  | none =>
      appendPool (poolInitFromJson (env.pool a.pools.len)
        (.object [("name", .string "__primary__"), ("access", .string "mpmc")]) a) a

/-- The primary xstream when Margo initialized Argobots. -/
def initPrimary (env : InitEnv) (a : Arrays) : Mem (Option Arrays) :=
  let i := (findPoolByName a (some "__primary__")).getD a.pools.len
  orElseFail (initPrimaryPool env a) fun a =>
    orElseFail
      (initXstream env
        (.object [("name", .string "__primary__"),
          ("scheduler", .object [("pools", .array [.int i])])])
        { a with pools := a.pools.modify i fun p => { p with margoFreeFlag := false } })
      fun a => pure (some a)

/-- The primary xstream when Argobots was initialized before Margo. -/
def initPrimaryExternal (env : InitEnv) (a : Arrays) : Mem (Option Arrays) :=
  orElseFail
    (appendPool (poolInitExternal (some "__primary__") (env.selfPools.headD .poolNull) a) a)
    fun a =>
      orElseFail
        (appendXstream (xstreamInitExternal (env.xstream a.xstreams.len) (some "__primary__")
          (.obj env.self env.selfPools)) a)
        fun a => pure (some a)

/-- `__margo_abt_init_from_json`; a failure destroys the environment. -/
def abtInitFromJson (env : InitEnv) (jabt : Json) : Mem (Option Arrays) := do
  let jpools := (jabt.get "pools").items
  let jxstreams := (jabt.get "xstreams").items
  if !env.abtInitialized && !env.abtInit then return none
  match ← initPools env ⟨.calloc (jpools.length + 3), .calloc (jxstreams.length + 1)⟩ jpools with
  | none => return none
  | some a =>
      match ← initXstreams env a jxstreams with
      | none => return none
      | some a =>
          match findXstreamByName a (some "__primary__") with
          | some _ =>
              match a.xstreams.entries.reverse.find? fun x => x.name == some "__primary__" with
              | some es => return checkPrimary env es a
              | none => return none
          | none => if env.abtInitialized then initPrimaryExternal env a else initPrimary env a

/-! ## Runs -/

/-- An operation on the arrays, or a reference count that somebody else changes. -/
inductive Op
  | addPoolFromJson (config : Json)
  | addExternalPool (name : Option String) (pool : PoolHandle) (takeOwnership : Bool)
  | addXstreamFromJson (config : Json)
  | addExternalXstream (name : Option String) (xstream : XstreamHandle) (takeOwnership : Bool)
  | removePool (index : Nat)
  | removeXstream (index : Nat)
  | poolRefcount (index count : Nat)
  | xstreamRefcount (index count : Nat)

/-- What the caller is told. -/
inductive Report
  | failed
  | added (index : Nat)
  | removed
  | counted
  deriving DecidableEq, Repr

/-- The end of `margo_add_pool_*`. -/
def reportPool : Arrays × Bool → Arrays × Report
  | (a, true) => (a, .added (a.pools.len - 1))
  | (a, false) => (a, .failed)

/-- The end of `margo_add_xstream_*`. -/
def reportXstream : Arrays × Bool → Arrays × Report
  | (a, true) => (a, .added (a.xstreams.len - 1))
  | (a, false) => (a, .failed)

/-- The end of `margo_remove_*`. -/
def reportRemoval : Arrays × HgReturn → Arrays × Report
  | (a, .success) => (a, .removed)
  | (a, _) => (a, .failed)

/-- An added external pool gets the flag that the caller asks for. -/
def ownPool (takeOwnership : Bool) : Arrays × Bool → Arrays × Bool
  | (a, true) =>
      ({ a with pools := a.pools.modify (a.pools.len - 1) fun p =>
        { p with margoFreeFlag := takeOwnership } }, true)
  | (a, false) => (a, false)

/-- An added external xstream gets the flag that the caller asks for. -/
def ownXstream (takeOwnership : Bool) : Arrays × Bool → Arrays × Bool
  | (a, true) =>
      ({ a with xstreams := a.xstreams.modify (a.xstreams.len - 1) fun x =>
        { x with margoFreeFlag := takeOwnership } }, true)
  | (a, false) => (a, false)

/-- The reference count of a pool is changed. -/
def setPoolRefcount (index count : Nat) (a : Arrays) : Arrays :=
  if index < a.pools.len then
    { a with pools := a.pools.modify index fun p => { p with refcount := count } }
  else a

/-- The reference count of an xstream is changed. -/
def setXstreamRefcount (index count : Nat) (a : Arrays) : Arrays :=
  if index < a.xstreams.len then
    { a with xstreams := a.xstreams.modify index fun x => { x with refcount := count } }
  else a

/-- One operation, with what its caller is told. -/
def perform (a : Arrays) : Op × Env → Mem (Arrays × Report)
  | (.addPoolFromJson config, env) => reportPool <$> addPoolFromJson env config a
  | (.addExternalPool name pool takeOwnership, env) =>
      (reportPool ∘ ownPool takeOwnership) <$> addExternalPool env name pool a
  | (.addXstreamFromJson config, env) => reportXstream <$> addXstreamFromJson env config a
  | (.addExternalXstream name xstream takeOwnership, env) =>
      (reportXstream ∘ ownXstream takeOwnership) <$> addExternalXstream env name xstream a
  | (.removePool index, env) => reportRemoval <$> removePool env index a
  | (.removeXstream index, env) => reportRemoval <$> removeXstream env index a
  | (.poolRefcount index count, _) => pure (setPoolRefcount index count a, .counted)
  | (.xstreamRefcount index count, _) => pure (setXstreamRefcount index count a, .counted)

/-- The environment after an operation that returns. -/
def step (a : Arrays) (x : Op × Env) : Option Arrays := ((perform a x).toOption).map (·.1)

end Arrays

end Margo.Abt
