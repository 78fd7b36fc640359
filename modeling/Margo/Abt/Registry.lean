import Margo.Abt.Json
import Margo.Lib.Fresh
import Margo.Lib.MachineInt
import Margo.Lib.SwapRemove

/-!
# The Argobots environment of an instance

The arrays of pools and xstreams of `struct margo_abt`, the functions of
`margo-abt-config.c` that look entries up, create, register, remove and
destroy them, and the JSON checks these make.

## Implementation notes

The occupied part of an array is a list, next to its capacity; the rest of the
array is zero. A handle of an xstream carries the pools of its main scheduler,
which Argobots reports for it as long as it lives, so that comparing handles
compares the xstreams. What Argobots and the allocator answer to the calls of
one operation is an argument of that operation (`Replies`). Dereferencing a
null name is `none` in the functions that can do it. The checks are those
compiled for Argobots before 2.0.
-/

namespace Margo.Abt

open Lib

/-- `ABT_pool`: the C null pointer, `ABT_POOL_NULL`, or a pool. -/
inductive PoolHandle
  | null
  | poolNull
  | obj (id : Nat)
  deriving DecidableEq, Repr

/-- `ABT_xstream`: the C null pointer, `ABT_XSTREAM_NULL`, or an xstream with
the pools of its main scheduler. -/
inductive XstreamHandle
  | null
  | xstreamNull
  | obj (id : Nat) (pools : List PoolHandle)
  deriving DecidableEq, Repr

/-- `margo_abt_pool_t`. -/
structure Pool where
  name : String
  pool : PoolHandle
  kind : String
  access : Option String
  /-- The number of RPC ids and external uses of the pool. -/
  refcount : Nat
  /-- The number of xstreams that use the pool. -/
  numXstreams : Nat
  margoFreeFlag : Bool
  usedByPrimary : Bool
  deriving DecidableEq, Repr

/-- `margo_abt_xstream_t`. -/
structure Xstream where
  name : String
  xstream : XstreamHandle
  schedType : String
  refcount : Nat
  margoFreeFlag : Bool
  deriving DecidableEq, Repr

/-- `margo_abt_t`. -/
structure MargoAbt where
  pools : List Pool
  poolsCap : Nat
  xstreams : List Xstream
  xstreamsCap : Nat
  deriving DecidableEq, Repr

/-- The return codes of the registry. -/
inductive HgReturn
  | success
  | invalidArg
  | noEntry
  | permission
  | otherError
  deriving DecidableEq, Repr

/-- What Argobots and the allocator answer during one operation. -/
structure Replies where
  /-- `ABT_initialized` reports success. -/
  abtInitialized : Bool
  /-- The string and scratch allocations whose result is checked succeed. -/
  alloc : Bool
  /-- Growing an array succeeds. -/
  realloc : Bool
  /-- The pool that `ABT_pool_create_basic` or `ABT_pool_create` returns. -/
  poolCreate : Option Nat
  /-- `ABT_sched_create_basic` succeeds. -/
  schedCreate : Bool
  /-- The xstream that `ABT_xstream_create` returns. -/
  xstreamCreate : Option Nat
  /-- What `ABT_xstream_self` returns, and the pools of its main scheduler. -/
  xstreamSelf : Option Nat
  selfPools : List PoolHandle
  /-- `ABT_xstream_set_main_sched` succeeds. -/
  setMainSched : Bool
  /-- What `ABT_pool_get_total_size` returns. -/
  totalSize : Option Nat
  deriving DecidableEq, Repr

/-! ## Lookup -/

/-- `__margo_abt_find_pool_by_name`. -/
def findPoolByName (abt : MargoAbt) : Option String → Option Nat
  | none => none
  | some name => abt.pools.findIdx? fun p => p.name == name

/-- `__margo_abt_find_pool_by_handle`. -/
def findPoolByHandle (abt : MargoAbt) (pool : PoolHandle) : Option Nat :=
  if pool = .poolNull then none else abt.pools.findIdx? fun p => p.pool == pool

/-- `__margo_abt_find_xstream_by_name`. -/
def findXstreamByName (abt : MargoAbt) : Option String → Option Nat
  | none => none
  | some name => abt.xstreams.findIdx? fun x => x.name == name

/-- `__margo_abt_find_xstream_by_handle`. -/
def findXstreamByHandle (abt : MargoAbt) (xstream : XstreamHandle) : Option Nat :=
  if xstream = .xstreamNull then none
  else abt.xstreams.findIdx? fun x => x.xstream == xstream

/-! ## Generated names -/

/-- An `unsigned` printed with `%d`. -/
def printInt (i : Nat) : String := toString (if i < 2 ^ 31 then (i : Int) else i - 2 ^ 32)

/-- The loop of a name generator: print the candidates from `len` on, in
`unsigned` arithmetic, until one is unused. -/
def generateUnusedName (print : Nat → String) (used : List String) : String :=
  (Fresh.firstUnused (fun k => print ((used.length + k) % 2 ^ 32)) used
    (used.length + 1) 0).getD ""

/-- `generate_unused_pool_name`. -/
def generateUnusedPoolName (abt : MargoAbt) : String :=
  generateUnusedName (fun i => "__pool_" ++ printInt i ++ "__") (abt.pools.map (·.name))

/-- `generate_unused_xstream_name`. -/
def generateUnusedXstreamName (abt : MargoAbt) : String :=
  generateUnusedName (fun i => "__xstream_" ++ printInt i ++ "__")
    (abt.xstreams.map (·.name))

/-! ## Pools -/

/-- The access of a pool in `__margo_abt_pool_validate_json`. -/
def poolAccessValidate (jpool : Json) : Check := do
  assertConfigHasOptional jpool "access" .string "pool"
  if (jpool.get "access").present then
    configIsInEnumString (jpool.get "access") "pool access"
      ["private", "spsc", "mpsc", "spmc", "mpmc"]

/-- The kind of a pool. -/
def poolKindValidate (jpool : Json) : Check := do
  assertConfigHasOptional jpool "kind" .string "pool"
  if (jpool.get "kind").present then
    configIsInEnumString (jpool.get "kind") "pool kind"
      ["fifo", "fifo_wait", "prio_wait", "earliest_first", "external"]
    if (jpool.get "kind").getString = "external" then
      throw "Pool is marked as external and cannot be instantiated"

/-- The name of a pool. -/
def poolNameValidate (abtInitialized : Bool) (jpool : Json) : Check := do
  assertConfigHasOptional jpool "name" .string "pool"
  if (jpool.get "name").present then
    configNameIsValid jpool
    if (jpool.get "name").getString = "__primary__" && abtInitialized then
      throw ("Defining a pool named \"__primary__\" is not allowed when Argobots is " ++
        "initialized before Margo")

/-- `__margo_abt_pool_validate_json`. -/
def poolValidateJson (abtInitialized : Bool) (jpool : Json) : Check :=
  if !jpool.present then pure ()
  else if !jpool.isType .object then
    throw ("pool configuration must be of type object (found " ++
      Json.typeName jpool.getType ++ ")")
  else do
    poolAccessValidate jpool
    poolKindValidate jpool
    poolNameValidate abtInitialized jpool

/-- The name given to a pool: the one in the JSON, or a generated one. -/
def poolJsonName (jpool : Json) (abt : MargoAbt) : String :=
  if (jpool.get "name").present then (jpool.get "name").getString
  else generateUnusedPoolName abt

/-- `__margo_abt_pool_init_from_json`. -/
def poolInitFromJson (r : Replies) (jpool : Json) (abt : MargoAbt) : Option Pool :=
  let kind := jpool.getStringOr "kind" "fifo_wait"
  let access :=
    if (jpool.get "access").present then (jpool.get "access").getString else "mpmc"
  if !r.alloc then none
  else if kind ∈ ["fifo_wait", "fifo", "prio_wait", "earliest_first"] then
    r.poolCreate.map fun id =>
      { name := poolJsonName jpool abt
        pool := .obj id
        kind := kind
        access := some access
        refcount := 0
        numXstreams := 0
        margoFreeFlag := true
        usedByPrimary := false }
  else none

/-- `__margo_abt_pool_init_external`. -/
def poolInitExternal (name : Option String) (handle : PoolHandle) (abt : MargoAbt) : Pool where
  name := name.getD (generateUnusedPoolName abt)
  pool := handle
  kind := "external"
  access := none
  refcount := 0
  numXstreams := 0
  margoFreeFlag := false
  usedByPrimary := false

/-! ## Schedulers -/

/-- One pool reference of `__margo_abt_sched_validate_json`. -/
def poolRefValidateJson (abt : MargoAbt) (extra : List Json) (ref : Json) : Check :=
  if ref.isType .int then
    if ref.getInt < 0 ∨ (abt.pools.length + extra.length : Int) ≤ ref.getInt then
      throw ("Invalid pool index (" ++ toString ref.getInt ++ ") in scheduler configuration")
    else pure ()
  else if ref.isType .string then
    if (findPoolByName abt (some ref.getString)).isSome ||
        extra.any (fun p => (p.get "name").present && (p.get "name").getString == ref.getString)
    then pure ()
    else throw ("Invalid reference to pool \"" ++ ref.getString ++
      "\" in scheduler configuration")
  else throw "Invalid pool type in scheduler configuration (expected integer or string)"

/-- `__margo_abt_sched_validate_json`. -/
def schedValidateJson (jsched : Json) (abt : MargoAbt) (extra : List Json) : Check := do
  if !jsched.present then return
  if !jsched.isType .object then
    throw "\"scheduler\" field in configuration must be an object"
  assertConfigHasOptional jsched "type" .string "scheduler"
  if (jsched.get "type").present then
    configIsInEnumString (jsched.get "type") "scheduler.type"
      ["default", "basic", "prio", "randws", "basic_wait"]
  assertConfigHasOptional jsched "pools" .array "scheduler"
  if (jsched.get "pools").items = [] then
    throw "Argobots < 2.0 requires schedulers to have at least one pool"
  (jsched.get "pools").items.forM (poolRefValidateJson abt extra)

/-- The pool that a reference of a scheduler designates: an index, read as a
`uint32_t`, or the first pool of that name. -/
def schedPool (abt : MargoAbt) (ref : Json) : Option PoolHandle :=
  let index :=
    if ref.isType .int then (ref.getInt % 2 ^ 32).toNat
    else (abt.pools.findIdx? fun p => p.name == ref.getString).getD abt.pools.length
  abt.pools[index]?.map (·.pool)

/-- The pool that a scheduler gets when it is created with the given one: in the
place of a null pool Argobots creates its own, whose handle nobody else has. -/
def scheduled : PoolHandle → PoolHandle
  | .obj id => .obj id
  | _ => .poolNull

/-- `__margo_abt_sched_init_from_json`: the type of the scheduler and its pools. -/
def schedInitFromJson (r : Replies) (jsched : Json) (abt : MargoAbt) :
    Option (String × List PoolHandle) := do
  let pools ← (jsched.get "pools").items.mapM (schedPool abt)
  if r.schedCreate then
    return (jsched.getStringOr "type" "basic_wait", pools.map scheduled)
  else none

/-! ## Use counts -/

/-- Update the pool behind each handle in turn, up to the first handle that is
not registered. -/
def walkPools (f : Pool → Pool) (abt : MargoAbt) : List PoolHandle → MargoAbt × Bool
  | [] => (abt, true)
  | h :: hs =>
      match findPoolByHandle abt h with
      | none => (abt, false)
      | some i => walkPools f { abt with pools := abt.pools.modify i f } hs

/-- Count one use of a pool by an xstream. -/
def countUse (primary : Bool) (p : Pool) : Pool :=
  { p with
    numXstreams := incr32 p.numXstreams
    usedByPrimary := p.usedByPrimary || primary }

/-- Discount one use. -/
def discountUse (p : Pool) : Pool := { p with numXstreams := decr32 p.numXstreams }

/-! ## Xstreams -/

/-- `__margo_abt_xstream_validate_json`. -/
def xstreamValidateJson (abtInitialized : Bool) (jxstream : Json) (abt : MargoAbt)
    (extra : List Json) : Check := do
  if !jxstream.isType .object then
    throw "xstream definition in configuration must be of type object"
  assertConfigHasOptional jxstream "name" .string "xstream"
  assertConfigHasOptional jxstream "cpubind" .int "xstream"
  assertConfigHasOptional jxstream "affinity" .array "xstream"
  schedValidateJson (jxstream.get "scheduler") abt extra
  if !(jxstream.get "scheduler").present then
    throw ("Argobots < 2.0 requires schedulers to have at least one pool, hence it " ++
      "requires a scheduler to be defined for all xstreams")
  (jxstream.get "affinity").items.forM fun value =>
    if value.isType .int then pure ()
    else throw ("Invalid type found in affinity array (expected integer, found " ++
      Json.typeName value.getType ++ ")")
  if (jxstream.get "name").present then
    configNameIsValid jxstream
    if (jxstream.get "name").getString = "__primary__" then
      if abtInitialized then
        throw ("Defining an xstream named \"__primary__\" is not allowed when Argobots is " ++
          "initialized before Margo")
      if ((jxstream.get "scheduler").get "pools").items = [] then
        throw "__primary__ xstream requires scheduler to have at least one pool"

/-- `__margo_abt_xstream_destroy`, as far as the counts are concerned. -/
def xstreamDestroy (x : XstreamHandle) (abt : MargoAbt) : MargoAbt :=
  match x with
  | .obj _ pools => (walkPools discountUse abt pools).1
  | _ => abt

/-- The end of both ways to initialize an xstream: count it in the pools of its
scheduler, or destroy it. -/
def countXstream (primary : Bool) (x : Xstream) (pools : List PoolHandle) (abt : MargoAbt) :
    MargoAbt × Option Xstream :=
  match walkPools (countUse primary) abt pools with
  | (abt', true) => (abt', some x)
  | (abt', false) => (xstreamDestroy x.xstream abt', none)

/-- The name given to an xstream: the one in the JSON, or a generated one. -/
def xstreamJsonName (jxstream : Json) (abt : MargoAbt) : String :=
  if (jxstream.get "name").present then (jxstream.get "name").getString
  else generateUnusedXstreamName abt

/-- `__margo_abt_xstream_init_from_json`. The result of `ABT_xstream_create` is
not checked. -/
def xstreamInitFromJson (r : Replies) (jxstream : Json) (abt : MargoAbt) :
    MargoAbt × Option Xstream :=
  let name := xstreamJsonName jxstream abt
  if !r.alloc then (abt, none)
  else
    match schedInitFromJson r (jxstream.get "scheduler") abt with
    | none => (abt, none)
    | some (type, pools) =>
        if name ≠ "__primary__" then
          let handle :=
            match r.xstreamCreate with
            | some id => XstreamHandle.obj id pools
            | none => .xstreamNull
          countXstream false ⟨name, handle, type, 0, true⟩ pools abt
        else
          match r.xstreamSelf with
          | none => (abt, none)
          | some id =>
              if r.setMainSched then
                countXstream true ⟨name, .obj id pools, type, 0, false⟩ pools abt
              else (xstreamDestroy (.obj id r.selfPools) abt, none)

/-- `__margo_abt_xstream_init_external`. The check that every pool of the
scheduler is registered destroys the xstream when it fails; only after it is
the name compared with `__primary__`. -/
def xstreamInitExternal (name : Option String) (handle : XstreamHandle) (abt : MargoAbt) :
    Option (MargoAbt × Option Xstream) :=
  match handle with
  | .obj _ pools =>
      if pools.any fun p => (findPoolByHandle abt p).isNone then
        some (xstreamDestroy handle abt, none)
      else
        name.map fun n =>
          countXstream (n == "__primary__") ⟨n, handle, "external", 0, false⟩ pools abt
  | _ => some (abt, none)

/-! ## Registration and removal -/

/-- The capacity after an array has grown. -/
def grownCap (cap : Nat) : Nat := cap * 3 / 2 + 1

/-- Make room for one more pool. -/
def growPools (r : Replies) (abt : MargoAbt) : Option MargoAbt :=
  if abt.pools.length = abt.poolsCap then
    if r.realloc then some { abt with poolsCap := grownCap abt.poolsCap } else none
  else some abt

/-- Make room for one more xstream. -/
def growXstreams (r : Replies) (abt : MargoAbt) : Option MargoAbt :=
  if abt.xstreams.length = abt.xstreamsCap then
    if r.realloc then some { abt with xstreamsCap := grownCap abt.xstreamsCap } else none
  else some abt

/-- `pools[pools_len++] = p`. -/
def appendPool (abt : MargoAbt) (p : Pool) : MargoAbt := { abt with pools := abt.pools ++ [p] }

/-- `xstreams[xstreams_len++] = x`. -/
def appendXstream (abt : MargoAbt) (x : Xstream) : MargoAbt :=
  { abt with xstreams := abt.xstreams ++ [x] }

/-- `__margo_abt_add_pool_from_json`. -/
def addPoolFromJson (r : Replies) (config : Json) (abt : MargoAbt) : MargoAbt × Bool :=
  match poolValidateJson r.abtInitialized config with
  | .error _ => (abt, false)
  | .ok () =>
      if (config.get "name").present &&
          (findPoolByName abt (some (config.get "name").getString)).isSome then
        (abt, false)
      else
        match growPools r abt with
        | none => (abt, false)
        | some abt =>
            match poolInitFromJson r config abt with
            | none => (abt, false)
            | some p => (appendPool abt p, true)

/-- `__margo_abt_add_external_pool`. -/
def addExternalPool (r : Replies) (name : Option String) (pool : PoolHandle) (abt : MargoAbt) :
    MargoAbt × Bool :=
  if (findPoolByName abt name).isSome then (abt, false)
  else if (findPoolByHandle abt pool).isSome then (abt, false)
  else
    match growPools r abt with
    | none => (abt, false)
    | some abt => (appendPool abt (poolInitExternal name pool abt), true)

/-- `__margo_abt_add_xstream_from_json`. -/
def addXstreamFromJson (r : Replies) (config : Json) (abt : MargoAbt) : MargoAbt × Bool :=
  match xstreamValidateJson r.abtInitialized config abt [] with
  | .error _ => (abt, false)
  | .ok () =>
      if (config.get "name").present &&
          (findXstreamByName abt (some (config.get "name").getString)).isSome then
        (abt, false)
      else
        match growXstreams r abt with
        | none => (abt, false)
        | some abt =>
            match xstreamInitFromJson r config abt with
            | (abt, none) => (abt, false)
            | (abt, some x) => (appendXstream abt x, true)

/-- `__margo_abt_add_external_xstream`. -/
def addExternalXstream (r : Replies) (name : Option String) (xstream : XstreamHandle)
    (abt : MargoAbt) : Option (MargoAbt × Bool) :=
  if (findXstreamByName abt name).isSome then some (abt, false)
  else if (findXstreamByHandle abt xstream).isSome then some (abt, false)
  else
    match growXstreams r abt with
    | none => some (abt, false)
    | some abt =>
        match xstreamInitExternal name xstream abt with
        | none => none
        | some (abt, none) => some (abt, false)
        | some (abt, some x) => some (appendXstream abt x, true)

/-- `__margo_abt_remove_pool`. -/
def removePool (r : Replies) (index : Nat) (abt : MargoAbt) : MargoAbt × HgReturn :=
  match abt.pools[index]? with
  | none => (abt, .invalidArg)
  | some p =>
      if p.refcount ≠ 0 then (abt, .permission)
      else if p.numXstreams ≠ 0 then (abt, .permission)
      else
        match r.totalSize with
        | none => (abt, .otherError)
        | some size =>
            if size ≠ 0 then (abt, .permission)
            else ({ abt with pools := swapRemove abt.pools index }, .success)

/-- `__margo_abt_remove_xstream`. -/
def removeXstream (index : Nat) (abt : MargoAbt) : MargoAbt × HgReturn :=
  match abt.xstreams[index]? with
  | none => (abt, .invalidArg)
  | some x =>
      if x.name = "__primary__" then (abt, .permission)
      else if x.refcount ≠ 0 then (abt, .permission)
      else
        let abt := xstreamDestroy x.xstream abt
        ({ abt with xstreams := swapRemove abt.xstreams index }, .success)

end Margo.Abt
