import Margo.Abt.HiddenPools
import Margo.Init.Reading

/-!
# The round trip of a configuration

What `margo_get_config_opt` reports of an instance is a configuration of the same
pools and xstreams: it passes validation, an initialization from it in a fresh
process gives them again, and leads to the same report. The one thing that stands
in the way is an xstream that was registered although `ABT_xstream_create`
failed: it is reported without its scheduler, and the report is refused.

## Implementation notes

What Argobots answers about the processors of an xstream is part of a report, but
not of the environment: the two reports agree on the xstreams exactly if it
answers the same.
-/

namespace Margo.Init

open Lib Abt Abt.Names Abt.Initialization Abt.Description Abt.Report

section

variable {abt abt₂ : MargoAbt} {options : ConfigOptions}

/-! ## The second report -/

theorem poolFieldToJson_congr (hsame : SameDescription abt abt₂) :
    poolFieldToJson options abt₂ = poolFieldToJson options abt := by
  have hnames : abt₂.pools.map (·.name) = abt.pools.map (·.name) := by
    rw [← names_of_description hsame.pools, poolEntries_fst]
  funext k
  have hat : poolNameAt abt₂ k = poolNameAt abt k := by
    unfold poolNameAt
    rw [← List.getElem?_map, ← List.getElem?_map, hnames]
  rw [poolFieldToJson, poolFieldToJson, hat]

/-- The xstream at a position, in both environments. -/
theorem SameDescription.xstream_at (hsame : SameDescription abt abt₂) {k : Nat} {x : Xstream}
    (hx : abt.xstreams[k]? = some x) :
    ∃ y, abt₂.xstreams[k]? = some y ∧
      xstreamDescription abt₂ y = xstreamDescription abt x := by
  have hat := congrArg (fun l : List (String × String × List (Option Nat)) => l[k]?)
    hsame.xstreams
  simp only [List.getElem?_map, hx, Option.map_some] at hat
  exact Option.map_eq_some_iff.mp hat

theorem SameDescription.length_xstreams (hsame : SameDescription abt abt₂) :
    abt₂.xstreams.length = abt.xstreams.length := by
  simpa using congrArg List.length hsame.xstreams

theorem positions_eq {pools : List PoolHandle} :
    positions abt pools = (pools.map (findPoolByHandle abt)).filterMap id := by
  rw [List.filterMap_map]
  rfl

theorem xstreamJson_inj {name type : String} {refs : List Json} {c c' : Option Int}
    {a a' : Option (List Int)} :
    xstreamJson name type refs c a = xstreamJson name type refs c' a' ↔ c = c' ∧ a = a' := by
  constructor
  · intro h
    have hcpubind := congrArg (·.get "cpubind") h
    have haffinity := congrArg (·.get "affinity") h
    simp only [get_cpubind, get_affinity] at hcpubind haffinity
    have hint : Function.Injective Json.int := fun _ _ heq => Json.int.inj heq
    refine ⟨?_, ?_⟩
    · cases c <;> cases c' <;> simp_all
    · cases a <;> cases a' <;> simp_all [List.map_inj_right hint]
  · rintro ⟨rfl, rfl⟩
    rfl

/-- The environment that was initialized from a report has all of its xstreams. -/
theorem SameDescription.obj (hd : Describable abt) (hc : AllCreated abt)
    (hsame : SameDescription abt abt₂) {k : Nat} {x y : Xstream} (hx : abt.xstreams[k]? = some x)
    (hy : abt₂.xstreams[k]? = some y) : ∃ id pools, y.xstream = .obj id pools := by
  obtain ⟨id, pools, hobj, hne, -⟩ := obj_of_created hd hc (List.mem_of_getElem? hx)
  obtain ⟨y', hy', hdesc⟩ := hsame.xstream_at hx
  obtain rfl : y = y' := Option.some.inj (hy.symm.trans hy')
  cases hhandle : y.xstream with
  | obj id' pools' => exact ⟨id', pools', rfl⟩
  | _ =>
      have hlen := congrArg (fun d : String × String × List (Option Nat) => d.2.2.length) hdesc
      simp only [xstreamDescription, hhandle, hobj, mainPools, List.length_map, List.length_nil]
        at hlen
      exact absurd (List.length_eq_zero_iff.mp hlen.symm) hne

/-- Two xstreams of one description are reported alike exactly if Argobots reports
the same processors. -/
theorem xstreamToJson_eq_iff (hd : Describable abt) (hc : AllCreated abt)
    (hshown : options.hideExternal = false) (hsame : SameDescription abt abt₂)
    (info info' : AbtInfo) {k : Nat} {x y : Xstream} (hx : abt.xstreams[k]? = some x)
    (hy : abt₂.xstreams[k]? = some y) :
    xstreamToJson options info' abt₂ k y = xstreamToJson options info abt k x ↔
      info'.cpubind k = info.cpubind k ∧ info'.affinity k = info.affinity k := by
  obtain ⟨id, pools, hobj, -, -⟩ := obj_of_created hd hc (List.mem_of_getElem? hx)
  obtain ⟨id', pools', hobj'⟩ := hsame.obj hd hc hx hy
  obtain ⟨y', hy', hdesc⟩ := hsame.xstream_at hx
  obtain rfl : y = y' := Option.some.inj (hy.symm.trans hy')
  simp only [xstreamDescription, hobj, hobj', mainPools, Prod.mk.injEq] at hdesc
  obtain ⟨hname, htype, hfound⟩ := hdesc
  rw [xstreamToJson_eq hshown info' k hobj', xstreamToJson_eq hshown info k hobj, hname, htype,
    positions_eq, positions_eq, hfound, poolFieldToJson_congr hsame]
  exact xstreamJson_inj

/-- The xstreams of both reports agree exactly if Argobots reports the same
processors for all of them. -/
theorem items_xstreams_eq_iff (hd : Describable abt) (hc : AllCreated abt)
    (hshown : options.hideExternal = false) (hsame : SameDescription abt abt₂)
    (info info' : AbtInfo) :
    ((abtToJson options info' abt₂).get "xstreams").items =
        ((abtToJson options info abt).get "xstreams").items ↔
      ∀ k < abt.xstreams.length,
        info'.cpubind k = info.cpubind k ∧ info'.affinity k = info.affinity k := by
  rw [List.ext_getElem?_iff]
  constructor
  · intro h k hk
    have hx := List.getElem?_eq_getElem hk
    obtain ⟨y, hy, -⟩ := hsame.xstream_at hx
    have hat := h k
    rw [item_at hshown, item_at hshown, hx, hy, Option.map_some, Option.map_some,
      Option.some.injEq] at hat
    exact (xstreamToJson_eq_iff hd hc hshown hsame info info' hx hy).mp hat
  · intro h k
    rw [item_at hshown, item_at hshown]
    cases hx : abt.xstreams[k]? with
    | none =>
        have hge := List.getElem?_eq_none_iff.mp hx
        rw [List.getElem?_eq_none_iff.mpr (hsame.length_xstreams ▸ hge)]
        rfl
    | some x =>
        obtain ⟨y, hy, -⟩ := hsame.xstream_at hx
        have hlt := (List.getElem?_eq_some_iff.mp hx).1
        rw [hy, Option.map_some, Option.map_some,
          (xstreamToJson_eq_iff hd hc hshown hsame info info' hx hy).mpr (h k hlt)]

theorem pools_eq (hshown : options.hideExternal = false) (hsame : SameDescription abt abt₂)
    (info info' : AbtInfo) :
    (abtToJson options info' abt₂).get "pools" = (abtToJson options info abt).get "pools" := by
  have hjson : ∀ p : Pool, poolToJson p = .object ([("kind", .string (poolDescription p).2.1),
      ("name", .string (poolDescription p).1)] ++
      optionalField "access" ((poolDescription p).2.2.map .string)) := fun _ => rfl
  have hmap (abt : MargoAbt) : abt.pools.map poolToJson =
      (abt.pools.map poolDescription).map fun d => .object ([("kind", .string d.2.1),
        ("name", .string d.1)] ++ optionalField "access" (d.2.2.map .string)) := by
    rw [List.map_map]
    exact List.map_congr_left fun p _ => hjson p
  have hitems : (abt₂.pools.map poolToJson) = abt.pools.map poolToJson := by
    rw [hmap, hmap, hsame.pools]
  calc
    (abtToJson options info' abt₂).get "pools"
        = .array ((abtToJson options info' abt₂).get "pools").items := rfl
    _ = .array ((abtToJson options info abt).get "pools").items := by
      rw [items_pools_shown hshown, items_pools_shown hshown, hitems]
    _ = (abtToJson options info abt).get "pools" := rfl

end

/-! ## The round trip -/

/-- What the reports of two environments have in common: the pools, the progress
pool and the RPC pool, and, if Argobots reports the same processors, the
xstreams. -/
structure SameReport (options : ConfigOptions) (info info' : InstanceInfo) (mid : Abt.Instance)
    (abt abt' : MargoAbt) : Prop where
  pools : ((margoGetConfigOpt options info' mid abt').get "argobots").get "pools" =
    ((margoGetConfigOpt options info mid abt).get "argobots").get "pools"
  xstreams : ((margoGetConfigOpt options info' mid abt').get "argobots").get "xstreams" =
      ((margoGetConfigOpt options info mid abt).get "argobots").get "xstreams" ↔
    ∀ k < abt.xstreams.length,
      info'.abt.cpubind k = info.abt.cpubind k ∧ info'.abt.affinity k = info.abt.affinity k
  progressPool : (margoGetConfigOpt options info' mid abt').get "progress_pool" =
    (margoGetConfigOpt options info mid abt).get "progress_pool"
  rpcPool : (margoGetConfigOpt options info' mid abt').get "rpc_pool" =
    (margoGetConfigOpt options info mid abt).get "rpc_pool"

/-- What `margo_get_config_opt` reports is accepted, and initializing from it
gives the same pools and xstreams and the same progress and RPC pools, which are
reported alike. -/
structure RoundTrip (r : ExtReplies) (ext : InitInfo) (options : ConfigOptions)
    (info : InstanceInfo) (mid : Abt.Instance) (abt : MargoAbt) : Prop where
  abtValid :
    abtValidateJson false ((margoGetConfigOpt options info mid abt).get "argobots") = .ok ()
  progressPoolValid : poolFieldValidate (margoGetConfigOpt options info mid abt) "progress_pool"
    (listedPools (margoGetConfigOpt options info mid abt)) = .ok ()
  rpcPoolValid : poolFieldValidate (margoGetConfigOpt options info mid abt) "rpc_pool"
    (listedPools (margoGetConfigOpt options info mid abt)) = .ok ()
  initializes : ∃ abt', initExt r ext (margoGetConfigOpt options info mid abt) =
      some (abt', mid.progressPoolIdx, mid.rpcPoolIdx) ∧
    SameDescription abt abt' ∧ ∀ info', SameReport options info info' mid abt abt'

section

variable {abt abt' : MargoAbt} {options : ConfigOptions}

theorem sameReport (hd : Describable abt) (hc : AllCreated abt)
    (hshown : options.hideExternal = false) (hsame : SameDescription abt abt')
    (info info' : InstanceInfo) (mid : Abt.Instance) :
    SameReport options info info' mid abt abt' where
  pools := by
    rw [get_argobots, get_argobots]
    exact pools_eq hshown hsame info.abt info'.abt
  xstreams := by
    rw [get_argobots, get_argobots, ← items_xstreams_eq_iff hd hc hshown hsame info.abt info'.abt]
    constructor
    · exact congrArg Json.items
    · exact congrArg Json.array
  progressPool := by rw [get_progressPool, get_progressPool, poolFieldToJson_congr hsame]
  rpcPool := by rw [get_rpcPool, get_rpcPool, poolFieldToJson_congr hsame]

/-- An environment that can be described makes the round trip. -/
theorem roundTrip_of_describable (hd : Describable abt) (hl : Led abt) (hn : Nameable abt)
    (hc : AllCreated abt) (hshown : options.hideExternal = false) (info : InstanceInfo)
    {mid : Abt.Instance} (hp : mid.progressPoolIdx < abt.pools.length)
    (hq : mid.rpcPoolIdx < abt.pools.length) {r : ExtReplies} {ext : InitInfo}
    (hr : InitSucceeds r.init) (hinit : r.init.abtInitialized = false) (hnone : NoneGiven ext) :
    RoundTrip r ext options info mid abt := by
  have hlisted : listedPools (margoGetConfigOpt options info mid abt) =
      abt.pools.map poolToJson := by
    rw [listedPools, get_argobots, items_pools_shown hshown]
  obtain ⟨abt', hstage, hsame, hf⟩ :=
    abtInitFromJson_report hd hl hn hc hshown info.abt hr hinit
  have hlen : abt'.pools.length = abt.pools.length := by
    simpa using congrArg List.length hsame.pools
  obtain ⟨i, hprimary⟩ : ∃ i, findPoolByName abt' (some "__primary__") = some i := by
    obtain ⟨-, -, -, p, hpmem, hpname, -⟩ := hl
    obtain ⟨k, hk, rfl⟩ := List.mem_iff_getElem.mp hpmem
    refine ⟨k, ?_⟩
    rw [findPoolByName_entries, names_of_description hsame.pools, List.findIdx?_map, ← hpname]
    exact findIdx?_of_nodup hn.pools (List.getElem?_eq_getElem hk)
  have hresolve : resolvePools r.resolve ext (margoGetConfigOpt options info mid abt) abt' =
      (abt', some (mid.progressPoolIdx, mid.rpcPoolIdx)) := by
    apply resolvePools_fields hf.describable hnone hprimary
    · rw [get_progressPool]
      exact present_poolFieldToJson _
    · rw [get_rpcPool]
      exact present_poolFieldToJson _
    · rw [get_progressPool]
      exact fieldPool_poolFieldToJson hd hn hsame hp
    · rw [get_rpcPool]
      exact fieldPool_poolFieldToJson hd hn hsame hq
    · omega
    · omega
  refine ⟨?_, ?_, ?_, abt', ?_, hsame, fun info' => sameReport hd hc hshown hsame info info' mid⟩
  · rw [get_argobots]
    exact abtToJson_valid hd hn hc hshown info.abt
  · rw [hlisted]
    exact poolField_valid hd hn hp (get_progressPool ..)
  · rw [hlisted]
    exact poolField_valid hd hn hq (get_rpcPool ..)
  · rw [← get_argobots options info mid abt] at hstage
    simp only [initExt, hstage, hresolve]

end

/-- A report makes the round trip exactly if every `ABT_xstream_create` of the
instance has succeeded. -/
theorem round_trip_iff {r r' : ExtReplies} {ext ext' : InitInfo} {config : Json}
    {hg plumber : Json → Check} {abt₀ abt : MargoAbt} {p q : Nat} {mid : Abt.Instance}
    {options : ConfigOptions} (info : InstanceInfo) (hfresh : FreshExt r)
    (hinit : r.init.abtInitialized = false) (hnone : NoneGiven ext)
    (hv : validateJson r.init.abtInitialized hg plumber config = .ok ())
    (h : initExt r ext config = some (abt₀, p, q)) (hlater : Later abt₀ q abt mid)
    (hn : Nameable abt) (hshown : options.hideExternal = false) (hr' : InitSucceeds r'.init)
    (hinit' : r'.init.abtInitialized = false) (hnone' : NoneGiven ext') :
    RoundTrip r' ext' options info mid abt ↔ AllCreated abt := by
  have hlen := hlater.length
  have hfew := hn.fewPools
  obtain ⟨hd, hl, -, hq⟩ :=
    initExt_describable hfresh hinit hnone (validateJson_ok hv).1 h (by omega)
  constructor
  · intro htrip
    have hvalid := htrip.abtValid
    rw [get_argobots] at hvalid
    exact created_of_valid hshown info.abt hvalid
  · intro hc
    have hp := hlater.progressPool
    have hrpc := hlater.rpcPool
    exact roundTrip_of_describable (hlater.describable hd) (hlater.led hl) hn hc hshown info
      (by omega) (by omega) hr' hinit' hnone'

/-- Argobots was not initialized, grants everything, and never returns a pool
twice. -/
def extNumbered : ExtReplies where
  init := { initGranted with pool := fun i => granted (i + 2) }
  resolve := ⟨granted 0, fun n => granted (101 + n), granted 1, fun n => granted (101 + n)⟩

/-- The same, but `ABT_xstream_create` fails for the RPC xstreams. -/
def extRefusing : ExtReplies :=
  { extNumbered with
    resolve := { extNumbered.resolve with
      rpcXstream := fun n => { granted (101 + n) with xstreamCreate := none } } }

theorem freshPools_extNumbered : FreshPools extNumbered.init where
  created i j id hi hj := by
    simp only [extNumbered, granted, Option.some.injEq] at hi hj
    omega
  self i id hi := List.not_mem_nil

theorem freshExt_extNumbered : FreshExt extNumbered where
  init := freshPools_extNumbered
  progressPool k id hk := by
    simp only [extNumbered, granted, Option.some.injEq, ne_eq] at hk ⊢
    omega
  rpcPool k id hk := by
    simp only [extNumbered, granted, Option.some.injEq, ne_eq] at hk ⊢
    omega
  rpcProgress id hid := by
    simp only [extNumbered, granted, Option.some.injEq, ne_eq] at hid ⊢
    omega

theorem freshExt_extRefusing : FreshExt extRefusing :=
  ⟨freshExt_extNumbered.init, freshExt_extNumbered.progressPool, freshExt_extNumbered.rpcPool,
    freshExt_extNumbered.rpcProgress⟩

theorem noneGiven_null : NoneGiven ⟨.null, .null⟩ := ⟨rfl, rfl⟩

/-- The environment of the instance with a named progress pool. -/
def namedAbt : MargoAbt where
  pools := [⟨"p", .obj 2, "fifo_wait", some "mpmc", 0, 0, true, false⟩,
    ⟨"__primary__", .obj 3, "fifo_wait", some "mpmc", 0, 1, false, true⟩,
    ⟨"__pool_2__", .obj 1, "fifo_wait", some "mpmc", 0, 2, true, false⟩]
  poolsCap := 4
  xstreams := [⟨"__primary__", .obj 0 [.obj 3], "basic_wait", 0, false⟩,
    ⟨"__xstream_1__", .obj 102 [.obj 1], "basic_wait", 0, true⟩,
    ⟨"__xstream_2__", .obj 101 [.obj 1], "basic_wait", 0, true⟩]
  xstreamsCap := 4

theorem round_trip_iff_namedProgress :
    initExt extNumbered ⟨.null, .null⟩ namedProgress = some (namedAbt, 0, 2) ∧
      RoundTrip extGranted ⟨.null, .null⟩ ⟨false, true⟩ HiddenPools.bareInfo ⟨0, 2⟩ namedAbt := by
  have hv : validateJson false (fun _ => pure ()) (fun _ => pure ()) namedProgress = .ok () := rfl
  have hinit : initExt extNumbered ⟨.null, .null⟩ namedProgress = some (namedAbt, 0, 2) := by
    decide
  have hlater : Later namedAbt 2 namedAbt ⟨0, 2⟩ := ⟨rfl, rfl, by decide, rfl⟩
  have hn : Nameable namedAbt := ⟨by decide, by decide, by decide, by decide⟩
  refine ⟨hinit, (round_trip_iff HiddenPools.bareInfo freshExt_extNumbered rfl noneGiven_null hv
    hinit hlater hn rfl extSucceeds_granted.init rfl noneGiven_null).mpr ?_⟩
  unfold AllCreated
  decide

/-- An RPC xstream that was not created is reported without a scheduler, and the
report is refused. -/
theorem uncreated_xstream_refused :
    ¬∀ (r r' : ExtReplies) (ext ext' : InitInfo) (config : Json) (hg plumber : Json → Check)
        (abt : MargoAbt) (p q : Nat) (options : ConfigOptions) (info : InstanceInfo),
      FreshExt r → r.init.abtInitialized = false → NoneGiven ext →
      validateJson r.init.abtInitialized hg plumber config = .ok () →
      initExt r ext config = some (abt, p, q) → Nameable abt → options.hideExternal = false →
      InitSucceeds r'.init → r'.init.abtInitialized = false → NoneGiven ext' →
      RoundTrip r' ext' options info ⟨p, q⟩ abt := by
  intro hall
  let abt : MargoAbt :=
    { pools := [⟨"__primary__", .obj 2, "fifo_wait", some "mpmc", 0, 1, false, true⟩,
        ⟨"__pool_1__", .obj 1, "fifo_wait", some "mpmc", 0, 1, true, false⟩]
      poolsCap := 3
      xstreams := [⟨"__primary__", .obj 0 [.obj 2], "basic_wait", 0, false⟩,
        ⟨"__xstream_1__", .xstreamNull, "basic_wait", 0, true⟩]
      xstreamsCap := 2 }
  have hinit : initExt extRefusing ⟨.null, .null⟩ (.object [("rpc_thread_count", .int 1)]) =
      some (abt, 0, 1) := by
    decide
  have htrip := hall extRefusing extGranted ⟨.null, .null⟩ ⟨.null, .null⟩
    (.object [("rpc_thread_count", .int 1)]) (fun _ => pure ()) (fun _ => pure ()) abt 0 1
    ⟨false, true⟩ HiddenPools.bareInfo freshExt_extRefusing rfl noneGiven_null rfl hinit
    ⟨by decide, by decide, by decide, by decide⟩ rfl extSucceeds_granted.init rfl noneGiven_null
  have hvalid := htrip.abtValid
  rw [get_argobots] at hvalid
  have hc := created_of_valid rfl HiddenPools.bareInfo.abt hvalid
  exact hc ⟨"__xstream_1__", .xstreamNull, "basic_wait", 0, true⟩ (by decide) rfl

end Margo.Init
