import Margo.Abt.Api

/-!
# The configuration that an instance reports

`margo_get_config_opt` and the functions that turn pools, schedulers, xstreams
and the whole environment into JSON.

## Implementation notes

A scheduler is shown by the positions, or the names, of its pools: Argobots
reports their handles, which are looked up in the environment. What Argobots
answers about processors and stacks, and the parts of an instance that have
nothing to do with pools, are arguments.
-/

namespace Margo.Abt

/-- `MARGO_CONFIG_HIDE_EXTERNAL` and `MARGO_CONFIG_USE_NAMES`; the third option
only changes the layout of the text. -/
structure ConfigOptions where
  hideExternal : Bool
  useNames : Bool
  deriving DecidableEq, Repr

/-- An entry that is skipped: an external pool, or an xstream with an external
scheduler, if these are hidden. -/
def ConfigOptions.skips (options : ConfigOptions) (kind : String) : Bool :=
  options.hideExternal && kind == "external"

/-- What Argobots and the C library answer while the environment is shown. -/
structure AbtInfo where
  /-- `ABT_xstream_get_cpubind`, for the xstream at this position. -/
  cpubind : Nat → Option Int
  /-- `ABT_xstream_get_affinity`. -/
  affinity : Nat → Option (List Int)
  /-- The environment variables `ABT_MEM_MAX_NUM_STACKS` and `ABT_THREAD_STACKSIZE`. -/
  memMaxNumStacks : Option Int
  threadStacksize : Option Int
  profilingDir : String
  lazyStackAlloc : Bool

/-- A field that is only there if it has a value. -/
def optionalField (key : String) : Option Json → List (String × Json)
  | some j => [(key, j)]
  | none => []

/-- `__margo_abt_pool_to_json`. -/
def poolToJson (p : Pool) : Json :=
  .object ([("kind", .string p.kind), ("name", .string p.name)] ++
    optionalField "access" (p.access.map .string))

/-- The reference to one pool of a scheduler; none if it is not registered or is
hidden. -/
def schedPoolToJson (options : ConfigOptions) (abt : MargoAbt) (pool : PoolHandle) :
    Option Json :=
  match findPoolByHandle abt pool with
  | none => none
  | some i =>
      match abt.pools[i]? with
      | none => none
      | some p =>
          if options.skips p.kind then none
          else some (if options.useNames then .string p.name else .int i)

/-- `__margo_abt_sched_to_json`. -/
def schedToJson (options : ConfigOptions) (abt : MargoAbt) (type : String)
    (pools : List PoolHandle) : Json :=
  .object [("type", .string type),
    ("pools", .array (pools.filterMap (schedPoolToJson options abt)))]

/-- `__margo_abt_xstream_to_json` of the xstream at position `i`: nothing is
shown if there is no xstream behind the handle. -/
def xstreamToJson (options : ConfigOptions) (info : AbtInfo) (abt : MargoAbt) (i : Nat)
    (x : Xstream) : Json :=
  match x.xstream with
  | .obj _ pools =>
      .object ([("scheduler", schedToJson options abt x.schedType pools),
        ("name", .string x.name)] ++
        optionalField "cpubind" ((info.cpubind i).map .int) ++
        optionalField "affinity" ((info.affinity i).map fun cpus => .array (cpus.map .int)))
  | _ => .object []

/-- `__margo_abt_to_json`. -/
def abtToJson (options : ConfigOptions) (info : AbtInfo) (abt : MargoAbt) : Json :=
  .object ([("pools", .array ((abt.pools.filter fun p => !options.skips p.kind).map poolToJson)),
    ("xstreams", .array ((abt.xstreams.zipIdx.filter fun e => !options.skips e.1.schedType).map
      fun e => xstreamToJson options info abt e.2 e.1))] ++
    optionalField "abt_mem_max_num_stacks" (info.memMaxNumStacks.map .int) ++
    optionalField "abt_thread_stacksize" (info.threadStacksize.map .int) ++
    [("profiling_dir", .string info.profilingDir),
      ("lazy_stack_alloc", .boolean info.lazyStackAlloc)])

/-- The parts of an instance that are shown besides its pools. -/
structure InstanceInfo where
  abt : AbtInfo
  version : String
  mercury : Json
  monitoring : Option Json
  plumber : Option Json
  progressTimeoutUb : Nat
  progressSpindownMsec : Nat
  handleCacheSize : Nat
  abtProfilingEnabled : Bool

/-- The name in a slot of the array of pools. -/
def poolNameAt (abt : MargoAbt) (i : Nat) : String := (abt.pools[i]?.map (·.name)).getD ""

/-- The `progress_pool` or `rpc_pool` field. -/
def poolFieldToJson (options : ConfigOptions) (abt : MargoAbt) (i : Nat) : Json :=
  if options.useNames then .string (poolNameAt abt i) else .int i

/-- `margo_get_config_opt`, before the JSON is printed. -/
def margoGetConfigOpt (options : ConfigOptions) (info : InstanceInfo) (mid : Instance)
    (abt : MargoAbt) : Json :=
  .object ([("version", .string info.version), ("argobots", abtToJson options info.abt abt),
    ("mercury", info.mercury)] ++
    optionalField "monitoring" info.monitoring ++
    optionalField "plumber" info.plumber ++
    [("progress_timeout_ub_msec", .int info.progressTimeoutUb),
      ("progress_spindown_msec", .int info.progressSpindownMsec),
      ("handle_cache_size", .int info.handleCacheSize),
      ("enable_abt_profiling", .boolean info.abtProfilingEnabled),
      ("progress_pool", poolFieldToJson options abt mid.progressPoolIdx),
      ("rpc_pool", poolFieldToJson options abt mid.rpcPoolIdx)])

/-! ## Reading the JSON back -/

section

variable (options : ConfigOptions) (info : InstanceInfo) (mid : Instance) (abt : MargoAbt)

@[simp] theorem get_argobots :
    (margoGetConfigOpt options info mid abt).get "argobots" = abtToJson options info.abt abt :=
  rfl

@[simp] theorem get_progressPool :
    (margoGetConfigOpt options info mid abt).get "progress_pool" =
      poolFieldToJson options abt mid.progressPoolIdx := by
  unfold margoGetConfigOpt
  cases info.monitoring <;> cases info.plumber <;> rfl

@[simp] theorem get_rpcPool :
    (margoGetConfigOpt options info mid abt).get "rpc_pool" =
      poolFieldToJson options abt mid.rpcPoolIdx := by
  unfold margoGetConfigOpt
  cases info.monitoring <;> cases info.plumber <;> rfl

@[simp] theorem items_pools (info : AbtInfo) :
    ((abtToJson options info abt).get "pools").items =
      (abt.pools.filter fun p => !options.skips p.kind).map poolToJson :=
  rfl

@[simp] theorem items_xstreams (info : AbtInfo) :
    ((abtToJson options info abt).get "xstreams").items =
      (abt.xstreams.zipIdx.filter fun e => !options.skips e.1.schedType).map
        fun e => xstreamToJson options info abt e.2 e.1 :=
  rfl

end

/-- The pools that the scheduler of an xstream is shown with. -/
theorem shownPools_xstreamToJson (options : ConfigOptions) (info : AbtInfo) (abt : MargoAbt)
    (i : Nat) (x : Xstream) :
    (((xstreamToJson options info abt i x).get "scheduler").get "pools").items =
      match x.xstream with
      | .obj _ pools => pools.filterMap (schedPoolToJson options abt)
      | _ => [] := by
  unfold xstreamToJson
  cases x.xstream <;> rfl

theorem getElem?_of_findPoolByHandle {abt : MargoAbt} {pool : PoolHandle} {i : Nat}
    (h : findPoolByHandle abt pool = some i) : ∃ p, abt.pools[i]? = some p ∧ p.pool = pool := by
  unfold findPoolByHandle at h
  split at h
  · cases h
  · obtain ⟨hlt, hp, -⟩ := List.findIdx?_eq_some_iff_getElem.mp h
    exact ⟨_, List.getElem?_eq_getElem hlt, by simpa using hp⟩

end Margo.Abt
