import Margo.Abt.Registry

/-!
# Configuring the Argobots environment

`__margo_abt_validate_json` and `__margo_abt_init_from_json`: the pools and
xstreams of a configuration, in order, and the primary pool and xstream that
every instance ends up with.

## Implementation notes

A failed initialization destroys the environment, so it has no result. The
answers of Argobots are numbered like the entries they are about.
-/

namespace Margo.Abt

open Lib

/-- The environment a configuration is checked against. -/
def dummyAbt : MargoAbt := ⟨[], 0, [], 0⟩

/-- `__margo_abt_validate_json`. -/
def abtValidateJson (abtInitialized : Bool) (a : Json) : Check :=
  if !a.present then pure ()
  else if !a.isType .object then
    throw "\"argobots\" field in configuration must be an object"
  else do
    assertConfigHasOptional a "pools" .array "argobots"
    assertConfigHasOptional a "xstreams" .array "argobots"
    assertConfigHasOptional a "abt_mem_max_num_stacks" .int "argobots"
    assertConfigHasOptional a "abt_thread_stacksize" .int "argobots"
    assertConfigHasOptional a "profiling_dir" .string "argobots"
    (a.get "pools").items.forM (poolValidateJson abtInitialized)
    configNamesMustBeUnique (a.get "pools").items "argobots.pools"
    (a.get "xstreams").items.forM fun jxstream =>
      xstreamValidateJson abtInitialized jxstream dummyAbt (a.get "pools").items
    configNamesMustBeUnique (a.get "xstreams").items "argobots.xstreams"

/-- The answers to the calls of one initialization. -/
structure InitReplies where
  /-- Argobots was initialized before the call. -/
  abtInitialized : Bool
  /-- The answers while the pool with this index is created. -/
  pool : Nat → Replies
  /-- The answers while the xstream with this index is created. -/
  xstream : Nat → Replies
  /-- `ABT_xstream_get_main_pools` succeeds. -/
  mainPools : Bool
  /-- The calling xstream and the pools of its main scheduler. -/
  self : Nat
  selfPools : List PoolHandle

/-- The loop over the pools of the configuration. -/
def initPools (r : InitReplies) (abt : MargoAbt) : List Json → Option MargoAbt
  | [] => some abt
  | jpool :: rest =>
      match poolInitFromJson (r.pool abt.pools.length) jpool abt with
      | none => none
      | some p => initPools r (appendPool abt p) rest

/-- Create one xstream of the configuration. -/
def initXstream (r : InitReplies) (jxstream : Json) (abt : MargoAbt) : Option MargoAbt :=
  match xstreamInitFromJson (r.xstream abt.xstreams.length) jxstream abt with
  | (_, none) => none
  | (abt, some x) => some (appendXstream abt x)

/-- The loop over the xstreams of the configuration. -/
def initXstreams (r : InitReplies) (abt : MargoAbt) : List Json → Option MargoAbt
  | [] => some abt
  | jxstream :: rest =>
      match initXstream r jxstream abt with
      | none => none
      | some abt => initXstreams r abt rest

/-- The pools of the main scheduler of an xstream. -/
def mainPools : XstreamHandle → List PoolHandle
  | .obj _ pools => pools
  | _ => []

/-- A configured primary xstream: a pool named `__primary__` must be its first. -/
def checkPrimary (r : InitReplies) (es : Xstream) (abt : MargoAbt) : Option MargoAbt :=
  if !r.mainPools then none
  else
    let first := findPoolByHandle abt ((mainPools es.xstream).headD .poolNull)
    match findPoolByName abt (some "__primary__") with
    | none => some abt
    | some i => if first = some i then some abt else none

/-- The primary pool, added if the configuration has none. -/
def initPrimaryPool (r : InitReplies) (abt : MargoAbt) : Option (MargoAbt × Nat) :=
  match findPoolByName abt (some "__primary__") with
  | some i => some (abt, i)
  | none =>
      (poolInitFromJson (r.pool abt.pools.length)
        (.object [("name", .string "__primary__"), ("access", .string "mpmc")]) abt).map
        fun p => (appendPool abt p, abt.pools.length)

/-- The primary xstream when Margo initialized Argobots. -/
def initPrimary (r : InitReplies) (abt : MargoAbt) : Option MargoAbt :=
  match initPrimaryPool r abt with
  | none => none
  | some (abt, i) =>
      initXstream r
        (.object [("name", .string "__primary__"),
          ("scheduler", .object [("pools", .array [.int i])])])
        { abt with pools := abt.pools.modify i fun p => { p with margoFreeFlag := false } }

/-- The primary xstream when Argobots was initialized before Margo. -/
def initPrimaryExternal (r : InitReplies) (abt : MargoAbt) : Option MargoAbt :=
  let abt := appendPool abt
    (poolInitExternal (some "__primary__") (r.selfPools.headD .poolNull) abt)
  match xstreamInitExternal (some "__primary__") (.obj r.self r.selfPools) abt with
  | some (abt, some x) => some (appendXstream abt x)
  | _ => none

/-- `__margo_abt_init_from_json`. If several xstreams are called `__primary__` to
C, the calling xstream has the scheduler of the last one. -/
def abtInitFromJson (r : InitReplies) (jabt : Json) : Option MargoAbt := do
  let jpools := (jabt.get "pools").items
  let jxstreams := (jabt.get "xstreams").items
  let abt ← initPools r ⟨[], jpools.length + 3, [], jxstreams.length + 1⟩ jpools
  let abt ← initXstreams r abt jxstreams
  match findXstreamByName abt (some "__primary__") with
  | some _ =>
      match abt.xstreams.reverse.find? fun x => x.name == "__primary__" with
      | some es => checkPrimary r es abt
      | none => none
  | none => if r.abtInitialized then initPrimaryExternal r abt else initPrimary r abt

end Margo.Abt
