import Margo.Abt.Api
import Margo.Abt.Config

/-!
# The configuration of an instance and the pools it names

`__margo_validate_json` and the part of `margo_init_ext` that finds or creates
the progress pool and the RPC pool, in the environment of the instance or, for
a child, in that of its parent.

## Implementation notes

The checks of the `mercury` and `plumber` fields are arguments. Warnings are
left out. A resolution that fails leaves behind the environment it has reached,
which belongs to the parent if there is one. The answers while several xstreams
are created are numbered by how many are still to come.
-/

namespace Margo.Init

open Abt

/-! ## Validation -/

/-- `json_object_get_int64`: an integer out of range is clamped. -/
def getInt64 : Json → Int
  | .int i => max (-2 ^ 63) (min i (2 ^ 63 - 1))
  | _ => 0

/-- `CONFIG_INTEGER_MUST_BE_POSITIVE`, which stores the value in an `int`. -/
def configIntegerMustBePositive (config : Json) (key : String) : Check :=
  if Int.bmod (getInt64 (config.get key)) (2 ^ 32) < 0 then
    throw ("\"" ++ key ++ "\" must not be negative")
  else pure ()

/-- An optional integer that must not be negative. -/
def positiveField (config : Json) (key : String) : Check := do
  assertConfigHasOptional config key .int "margo"
  if (config.get key).present then configIntegerMustBePositive config key

/-- `CONFIG_ARRAY_MUST_HAVE_ITEM_NAMED`: the loop ends at a null entry. -/
def configArrayMustHaveItemNamed (items : List Json) (name array : String) : Check :=
  if (items.takeWhile Json.present).any (Json.named name) then pure ()
  else throw ("Could not find element named \"" ++ name ++ "\" in \"" ++ array ++ "\" array")

/-- The check of `progress_pool` or `rpc_pool`. -/
def poolFieldValidate (config : Json) (key : String) (pools : List Json) : Check :=
  let field := config.get key
  if !field.present then pure ()
  else if field.isType .int then
    if field.getInt < 0 ∨ (pools.length : Int) ≤ field.getInt then
      throw ("Invalid \"" ++ key ++ "\" index (" ++ toString field.getInt ++ ")")
    else pure ()
  else if field.isType .string then
    if field.getString ≠ "__primary__" then
      configArrayMustHaveItemNamed pools field.getString "argobots.pools"
    else pure ()
  else throw ("\"" ++ key ++ "\" field in configuration should be an integer or a string")

/-- `__margo_validate_json`. -/
def validateJson (abtInitialized : Bool) (hgValidate plumberValidate : Json → Check)
    (config : Json) : Check := do
  hgValidate (config.get "mercury")
  abtValidateJson abtInitialized (config.get "argobots")
  plumberValidate (config.get "plumber")
  positiveField config "progress_spindown_msec"
  positiveField config "progress_timeout_ub_msec"
  positiveField config "handle_cache_size"
  poolFieldValidate config "progress_pool" ((config.get "argobots").get "pools").items
  assertConfigHasOptional config "use_progress_thread" .boolean "margo"
  poolFieldValidate config "rpc_pool" ((config.get "argobots").get "pools").items
  assertConfigHasOptional config "rpc_thread_count" .int "margo"

/-! ## Resolution -/

/-- The pools of `struct margo_init_info`. -/
structure InitInfo where
  progressPool : PoolHandle
  rpcPool : PoolHandle
  deriving DecidableEq, Repr

/-- A pool was passed: `pool != ABT_POOL_NULL && pool != NULL`. -/
def given : PoolHandle → Bool
  | .obj _ => true
  | _ => false

/-- The answers to the calls that resolve the pools. -/
structure ResolveReplies where
  progressPool : Replies
  progressXstream : Nat → Replies
  rpcPool : Replies
  rpcXstream : Nat → Replies

/-- A pool given by its index or its name; `-1` if there is no such name. -/
def fieldPool (abt : MargoAbt) (field : Json) : Int :=
  if field.isType .int then field.getInt
  else ((findPoolByName abt (some field.getString)).map Int.ofNat).getD (-1)

/-- Add `n` xstreams with the same configuration. -/
def addXstreams (r : Nat → Replies) (jxstream : Json) : Nat → MargoAbt → MargoAbt × Bool
  | 0, abt => (abt, true)
  | n + 1, abt =>
      match addXstreamFromJson (r n) jxstream abt with
      | (abt, true) => addXstreams r jxstream n abt
      | (abt, false) => (abt, false)

/-- Register an external pool. -/
def useExternalPool (r : Replies) (pool : PoolHandle) (abt : MargoAbt) : MargoAbt × Option Int :=
  match addExternalPool r none pool abt with
  | (abt', true) => (abt', some abt.pools.length)
  | (abt', false) => (abt', none)

/-- Create a pool and `n` xstreams that run it. -/
def createServedPool (pool : Replies) (xstream : Nat → Replies) (n : Nat) (abt : MargoAbt) :
    MargoAbt × Option Int :=
  match addPoolFromJson pool (.object [("access", .string "mpmc")]) abt with
  | (abt', false) => (abt', none)
  | (abt', true) =>
      let jxstream := Json.object [("scheduler",
        .object [("pools", .array [.int abt.pools.length])])]
      match addXstreams xstream jxstream n abt' with
      | (abt', true) => (abt', some abt.pools.length)
      | (abt', false) => (abt', none)

/-- The progress pool, next to the environment. -/
def resolveProgressPool (r : ResolveReplies) (info : InitInfo) (config : Json) (primary : Nat)
    (abt : MargoAbt) : MargoAbt × Option Int :=
  if poolAt abt primary ≠ .poolNull ∧ info.progressPool = poolAt abt primary then
    (abt, some primary)
  else if given info.progressPool then useExternalPool r.progressPool info.progressPool abt
  else if (config.get "progress_pool").present then
    (abt, some (fieldPool abt (config.get "progress_pool")))
  else if (config.get "use_progress_thread").getBoolean then
    createServedPool r.progressPool r.progressXstream 1 abt
  else (abt, some primary)

/-- The RPC pool, next to the environment; `primaryPool` is the handle that the
primary pool had before. -/
def resolveRpcPool (r : ResolveReplies) (info : InitInfo) (config : Json) (primary : Nat)
    (primaryPool : PoolHandle) (progress : Int) (abt : MargoAbt) : MargoAbt × Option Int :=
  if primaryPool ≠ .poolNull ∧ info.rpcPool = primaryPool then (abt, some primary)
  else if given info.progressPool ∧ info.rpcPool = info.progressPool then (abt, some progress)
  else if given info.rpcPool then useExternalPool r.rpcPool info.rpcPool abt
  else if (config.get "rpc_pool").present then
    (abt, some (fieldPool abt (config.get "rpc_pool")))
  else if (config.get "rpc_thread_count").getInt < 0 then (abt, some progress)
  else if 0 < (config.get "rpc_thread_count").getInt then
    createServedPool r.rpcPool r.rpcXstream (config.get "rpc_thread_count").getInt.toNat abt
  else (abt, some primary)

/-- An index of the array of pools. -/
def inRange (abt : MargoAbt) (i : Int) : Bool := 0 ≤ i && i < abt.pools.length

/-- The part of `margo_init_ext` from the search for the primary pool to the
check of the two indices. -/
def resolvePools (r : ResolveReplies) (info : InitInfo) (config : Json) (abt : MargoAbt) :
    MargoAbt × Option (Nat × Nat) :=
  match findPoolByName abt (some "__primary__") with
  | none => (abt, none)
  | some primary =>
      let primaryPool := poolAt abt primary
      match resolveProgressPool r info config primary abt with
      | (abt, none) => (abt, none)
      | (abt, some progress) =>
          match resolveRpcPool r info config primary primaryPool progress abt with
          | (abt, none) => (abt, none)
          | (abt, some rpc) =>
              if inRange abt progress && inRange abt rpc then
                (abt, some (progress.toNat, rpc.toNat))
              else (abt, none)

end Margo.Init
