import Margo.Abt.Description
import Margo.Abt.Emission

/-!
# Reports that are configurations

The report of an environment that can be described is accepted by
`__margo_abt_validate_json`, if all of its xstreams have been created, and says
of it what a configuration can say: the pools with their names, kinds and
accesses, the xstreams with their names, scheduler types and pools.

## Implementation notes

The pools of a scheduler are described by their positions, in whichever way the
report refers to them.
-/

namespace Margo.Abt.Report

open Lib Names Initialization Description

/-! ## Checks that pass -/

theorem check_seq {x y : Check} (hx : x = .ok ()) (hy : y = .ok ()) :
    (x >>= fun _ => y) = .ok () := by
  rw [hx]
  exact hy

theorem forM_eq_ok {α : Type} {f : α → Check} {xs : List α} (h : ∀ x ∈ xs, f x = .ok ()) :
    xs.forM f = .ok () := by
  induction xs with
  | nil => rfl
  | cons a xs ih =>
      have hrest := ih fun x hx => h x (List.mem_cons_of_mem a hx)
      exact check_seq (h a List.mem_cons_self) hrest

theorem assertConfigHasOptional_eq_ok {config : Json} {key : String} {type : JsonType}
    {ctx : String} (h : (config.get key).present = true → (config.get key).isType type = true) :
    assertConfigHasOptional config key type ctx = .ok () := by
  unfold assertConfigHasOptional
  by_cases hpres : (config.get key).present = true
  · simp only [h hpres, Bool.not_true, Bool.and_false, Bool.false_eq_true, if_false]
    rfl
  · simp only [Bool.not_eq_true] at hpres
    simp only [hpres, Bool.false_and, Bool.false_eq_true, if_false]
    rfl

/-- A field that is only there if it has a value is of the type of its values. -/
theorem optional_isType {α : Type} {f : α → Json} {type : JsonType}
    (hf : ∀ a, (f a).isType type = true) (o : Option α)
    (hpres : ((o.map f).getD .null).present = true) :
    ((o.map f).getD .null).isType type = true := by
  cases o with
  | none => cases hpres
  | some a => exact hf a

theorem configIsInEnumString_eq_ok {config : Json} {field : String} {values : List String}
    (h : config.getString ∈ values) : configIsInEnumString config field values = .ok () :=
  if_pos h

/-- Distinct names are unique. -/
theorem configNamesMustBeUnique_eq_ok {items : List Json} {names : List String}
    {container : String} (h : items.map (·.get "name") = names.map .string)
    (hn : names.Nodup) : configNamesMustBeUnique items container = .ok () := by
  apply forM_eq_ok
  intro i hi
  apply forM_eq_ok
  intro b hb
  obtain ⟨k, hk, rfl⟩ := List.mem_take_iff_getElem.mp hb
  have hi' := List.mem_range.mp hi
  have hlen : items.length = names.length := by simpa using congrArg List.length h
  have hget (m : Nat) (hm : m < items.length) (hm' : m < names.length) :
      items[m].get "name" = .string names[m] := by
    have hat := congrArg (fun l : List Json => l[m]?) h
    simpa [hm, hm'] using hat
  have hin : i < names.length := hlen ▸ hi'
  have hkn : k < names.length := by omega
  have hne : names[i] ≠ names[k] := by
    intro heq
    have := (List.Nodup.getElem_inj_iff hn).mp heq
    omega
  rw [List.getD_eq_getElem _ _ hi', hget i hi' hin, hget k (by omega) hkn]
  simp only [Json.equalNames, beq_iff_eq, hne, if_false]
  rfl

/-! ## Pools -/

theorem cString_poolKind {kind : String} (h : kind ∈ poolKinds) : Json.cString kind = kind := by
  have hall : ∀ kind ∈ poolKinds, Json.cString kind = kind := by decide
  exact hall kind h

theorem cString_poolAccess {access : String} (h : access ∈ poolAccesses) :
    Json.cString access = access := by
  have hall : ∀ access ∈ poolAccesses, Json.cString access = access := by decide
  exact hall access h

theorem cString_schedType {type : String} (h : type ∈ schedTypes) : Json.cString type = type := by
  have hall : ∀ type ∈ schedTypes, Json.cString type = type := by decide
  exact hall type h

theorem external_not_mem {kind : String} (h : kind ∈ poolKinds) : kind ≠ "external" := by
  rintro rfl
  revert h
  decide

/-- The configuration of a pool of this name, kind and access. -/
abbrev poolJson (name kind access : String) : Json :=
  .object [("kind", .string kind), ("name", .string name), ("access", .string access)]

theorem poolToJson_eq {p : Pool} {access : String} (h : p.access = some access) :
    poolToJson p = poolJson p.name p.kind access := by
  simp [poolToJson, h, optionalField]

theorem poolJson_valid {name kind access : String} (hname : NameFits name)
    (hkind : kind ∈ poolKinds) (haccess : access ∈ poolAccesses) :
    poolValidateJson false (poolJson name kind access) = .ok () := by
  have hn : (Json.string name).getString = name := hname.cString
  have hk : (Json.string kind).getString = kind := cString_poolKind hkind
  have ha : (Json.string access).getString = access := cString_poolAccess haccess
  have haccess' : poolAccessValidate (poolJson name kind access) = .ok () := by
    refine check_seq (assertConfigHasOptional_eq_ok fun _ => rfl) ?_
    refine configIsInEnumString_eq_ok ?_
    change (Json.string access).getString ∈ poolAccesses
    rwa [ha]
  have hkind' : poolKindValidate (poolJson name kind access) = .ok () := by
    refine check_seq (assertConfigHasOptional_eq_ok fun _ => rfl) (check_seq ?_ ?_)
    · refine configIsInEnumString_eq_ok ?_
      change (Json.string kind).getString ∈ _
      rw [hk]
      have hsub : poolKinds ⊆ ["fifo", "fifo_wait", "prio_wait", "earliest_first", "external"] := by
        decide
      exact hsub hkind
    · refine if_neg ?_
      change (Json.string kind).getString ≠ _
      rw [hk]
      exact external_not_mem hkind
  have hname' : poolNameValidate false (poolJson name kind access) = .ok () := by
    refine check_seq (assertConfigHasOptional_eq_ok fun _ => rfl) (check_seq ?_ ?_)
    · refine configNameIsValid_iff.mpr ?_
      change NameFits (Json.string name).getString
      rwa [hn]
    · refine if_neg ?_
      simp
  exact check_seq haccess' (check_seq hkind' hname')

/-! ## Xstreams -/

/-- The configuration of an xstream of this name and scheduler type, on the
processors that Argobots reports. -/
def xstreamJson (name type : String) (refs : List Json) (cpubind : Option Int)
    (affinity : Option (List Int)) : Json :=
  .object ([("scheduler", .object [("type", .string type), ("pools", .array refs)]),
    ("name", .string name)] ++
    optionalField "cpubind" (cpubind.map .int) ++
    optionalField "affinity" (affinity.map fun cpus => .array (cpus.map .int)))

section

variable {name type : String} {refs : List Json} {cpubind : Option Int}
  {affinity : Option (List Int)}

@[simp] theorem get_scheduler :
    (xstreamJson name type refs cpubind affinity).get "scheduler" =
      .object [("type", .string type), ("pools", .array refs)] :=
  rfl

@[simp] theorem get_name :
    (xstreamJson name type refs cpubind affinity).get "name" = .string name :=
  rfl

@[simp] theorem get_cpubind :
    (xstreamJson name type refs cpubind affinity).get "cpubind" =
      (cpubind.map Json.int).getD .null := by
  cases cpubind <;> cases affinity <;> rfl

@[simp] theorem get_affinity :
    (xstreamJson name type refs cpubind affinity).get "affinity" =
      (affinity.map fun cpus => Json.array (cpus.map .int)).getD .null := by
  cases cpubind <;> cases affinity <;> rfl

theorem schedJson_valid {js : List Json} (htype : type ∈ schedTypes) (hne : refs ≠ [])
    (hrefs : ∀ ref ∈ refs, poolRefValidateJson dummyAbt js ref = .ok ()) :
    schedValidateJson (.object [("type", .string type), ("pools", .array refs)]) dummyAbt js =
      .ok () := by
  have ht : (Json.string type).getString = type := cString_schedType htype
  refine check_seq (assertConfigHasOptional_eq_ok fun _ => rfl) (check_seq ?_ ?_)
  · refine configIsInEnumString_eq_ok ?_
    change (Json.string type).getString ∈ schedTypes
    rwa [ht]
  · refine check_seq (assertConfigHasOptional_eq_ok fun _ => rfl) ?_
    have hitems : ((Json.object [("type", .string type), ("pools", .array refs)]).get
        "pools").items = refs := rfl
    rw [hitems, if_neg hne]
    exact forM_eq_ok hrefs

theorem xstreamJson_valid {js : List Json} (hname : NameFits name) (htype : type ∈ schedTypes)
    (hne : refs ≠ []) (hrefs : ∀ ref ∈ refs, poolRefValidateJson dummyAbt js ref = .ok ()) :
    xstreamValidateJson false (xstreamJson name type refs cpubind affinity) dummyAbt js =
      .ok () := by
  have hn : (Json.string name).getString = name := hname.cString
  have hcpubind : assertConfigHasOptional (xstreamJson name type refs cpubind affinity) "cpubind"
      .int "xstream" = .ok () := by
    refine assertConfigHasOptional_eq_ok ?_
    rw [get_cpubind]
    exact optional_isType (fun _ => rfl) cpubind
  have haffinity : assertConfigHasOptional (xstreamJson name type refs cpubind affinity)
      "affinity" .array "xstream" = .ok () := by
    refine assertConfigHasOptional_eq_ok ?_
    rw [get_affinity]
    exact optional_isType (fun _ => rfl) affinity
  refine check_seq (assertConfigHasOptional_eq_ok fun _ => rfl) (check_seq hcpubind
    (check_seq haffinity (check_seq (schedJson_valid htype hne hrefs) (check_seq ?_ ?_))))
  · refine forM_eq_ok ?_
    intro value hvalue
    rw [get_affinity] at hvalue
    cases affinity with
    | none => exact absurd hvalue List.not_mem_nil
    | some cpus =>
        obtain ⟨cpu, -, rfl⟩ := List.mem_map.mp hvalue
        rfl
  · refine check_seq ?_ ?_
    · refine configNameIsValid_iff.mpr ?_
      rw [get_name, hn]
      exact hname
    · simp only [get_name, get_scheduler, Bool.false_eq_true, if_false]
      split
      · refine if_neg ?_
        exact hne
      · rfl

end

/-! ## Environments -/

/-- The positions of these pools. -/
def positions (abt : MargoAbt) (pools : List PoolHandle) : List Nat :=
  pools.filterMap (findPoolByHandle abt)

/-- The environment has names that are apart, and not too many of them. -/
structure Nameable (abt : MargoAbt) : Prop where
  pools : (abt.pools.map (·.name)).Nodup
  xstreams : (abt.xstreams.map (·.name)).Nodup
  fewPools : abt.pools.length < 2 ^ 30
  fewXstreams : abt.xstreams.length < 2 ^ 30

section

variable {abt : MargoAbt} {options : ConfigOptions}

theorem skips_eq_false (hshown : options.hideExternal = false) (kind : String) :
    options.skips kind = false := by
  simp [ConfigOptions.skips, hshown]

theorem schedPoolToJson_eq (hshown : options.hideExternal = false) (pool : PoolHandle) :
    schedPoolToJson options abt pool =
      (findPoolByHandle abt pool).map (poolFieldToJson options abt) := by
  unfold schedPoolToJson
  cases hfind : findPoolByHandle abt pool with
  | none => rfl
  | some i =>
      obtain ⟨p, hp, -⟩ := getElem?_of_findPoolByHandle hfind
      simp [hp, skips_eq_false hshown, poolFieldToJson, poolNameAt]

theorem xstreamToJson_eq (hshown : options.hideExternal = false) (info : AbtInfo) (i : Nat)
    {x : Xstream} {id : Nat} {pools : List PoolHandle} (hx : x.xstream = .obj id pools) :
    xstreamToJson options info abt i x =
      xstreamJson x.name x.schedType ((positions abt pools).map (poolFieldToJson options abt))
        (info.cpubind i) (info.affinity i) := by
  have hrefs : pools.filterMap (schedPoolToJson options abt) =
      (positions abt pools).map (poolFieldToJson options abt) := by
    rw [positions, List.map_filterMap]
    congr 1
    funext pool
    exact schedPoolToJson_eq hshown pool
  simp only [xstreamToJson, hx, schedToJson, hrefs, xstreamJson]

theorem items_pools_shown (hshown : options.hideExternal = false) (info : AbtInfo) :
    ((abtToJson options info abt).get "pools").items = abt.pools.map poolToJson := by
  rw [items_pools]
  simp [skips_eq_false hshown]

theorem items_xstreams_shown (hshown : options.hideExternal = false) (info : AbtInfo) :
    ((abtToJson options info abt).get "xstreams").items =
      abt.xstreams.zipIdx.map fun e => xstreamToJson options info abt e.2 e.1 := by
  rw [items_xstreams]
  simp [skips_eq_false hshown]

theorem get_memMaxNumStacks (info : AbtInfo) :
    (abtToJson options info abt).get "abt_mem_max_num_stacks" =
      (info.memMaxNumStacks.map Json.int).getD .null := by
  unfold abtToJson
  cases info.memMaxNumStacks <;> cases info.threadStacksize <;> rfl

theorem get_threadStacksize (info : AbtInfo) :
    (abtToJson options info abt).get "abt_thread_stacksize" =
      (info.threadStacksize.map Json.int).getD .null := by
  unfold abtToJson
  cases info.memMaxNumStacks <;> cases info.threadStacksize <;> rfl

theorem get_profilingDir (info : AbtInfo) :
    (abtToJson options info abt).get "profiling_dir" = .string info.profilingDir := by
  unfold abtToJson
  cases info.memMaxNumStacks <;> cases info.threadStacksize <;> rfl

/-- The names of an environment that can be described are read as they are. -/
theorem nameFits_pool (hd : Describable abt) (hfew : abt.pools.length < 2 ^ 30) {p : Pool}
    (hp : p ∈ abt.pools) : NameFits p.name := by
  obtain ⟨k, hk, rfl⟩ := List.mem_iff_getElem.mp hp
  exact hd.poolNames k _ (by simp [hk]) (by omega)

theorem nameFits_xstream (hd : Describable abt) (hfew : abt.xstreams.length < 2 ^ 30)
    {x : Xstream} (hx : x ∈ abt.xstreams) : NameFits x.name := by
  obtain ⟨k, hk, rfl⟩ := List.mem_iff_getElem.mp hx
  exact hd.xstreamNames k _ (by simp [hk]) (by omega)

/-- A pool that can be described is named by its configuration. -/
theorem named_poolToJson (hd : Describable abt) (hfew : abt.pools.length < 2 ^ 30) {p : Pool}
    (hp : p ∈ abt.pools) (name : String) : (poolToJson p).named name = (p.name == name) := by
  have hname : ((poolToJson p).get "name").getString = p.name := (nameFits_pool hd hfew hp).cString
  rw [Json.named, hname]
  rfl

theorem getInt_natCast {k : Nat} (hk : k < 2 ^ 31) : (Json.int k).getInt = k := by
  simp only [Json.getInt]
  omega

/-- The name that a report refers to a pool by. -/
theorem getString_poolNameAt (hd : Describable abt) (hfew : abt.pools.length < 2 ^ 30) {k : Nat}
    (hk : k < abt.pools.length) :
    (Json.string (poolNameAt abt k)).getString = abt.pools[k].name := by
  have hat : poolNameAt abt k = abt.pools[k].name := by simp [poolNameAt, hk]
  rw [hat]
  exact (nameFits_pool hd hfew (List.getElem_mem hk)).cString

theorem any_named (hd : Describable abt) (hfew : abt.pools.length < 2 ^ 30) {k : Nat}
    (hk : k < abt.pools.length) :
    (abt.pools.map poolToJson).any (·.named abt.pools[k].name) = true := by
  have hmem : abt.pools[k] ∈ abt.pools := List.getElem_mem hk
  rw [List.any_eq_true]
  refine ⟨_, List.mem_map_of_mem hmem, ?_⟩
  rw [named_poolToJson hd hfew hmem, beq_self_eq_true]

/-- A reference to a registered pool is accepted. -/
theorem ref_valid (hd : Describable abt) (hfew : abt.pools.length < 2 ^ 30) {k : Nat}
    (hk : k < abt.pools.length) :
    poolRefValidateJson dummyAbt (abt.pools.map poolToJson) (poolFieldToJson options abt k) =
      .ok () := by
  unfold poolFieldToJson
  split
  · unfold poolRefValidateJson
    rw [if_neg (show ¬(Json.string (poolNameAt abt k)).isType .int = true from Bool.false_ne_true),
      if_pos (show (Json.string (poolNameAt abt k)).isType .string = true from rfl),
      getString_poolNameAt hd hfew hk]
    refine if_pos ?_
    rw [Bool.or_eq_true]
    exact Or.inr (any_named hd hfew hk)
  · have hget := getInt_natCast (k := k) (by omega)
    unfold poolRefValidateJson
    rw [if_pos (show (Json.int k).isType .int = true from rfl), hget]
    refine if_neg ?_
    simp only [dummyAbt, List.length_nil, List.length_map]
    omega

/-- Every xstream was created: `ABT_xstream_create` did not fail. -/
def AllCreated (abt : MargoAbt) : Prop := ∀ x ∈ abt.xstreams, x.xstream ≠ .xstreamNull

/-- A created xstream that can be described runs registered pools. -/
theorem obj_of_created (hd : Describable abt) (hc : AllCreated abt) {x : Xstream}
    (hx : x ∈ abt.xstreams) : ∃ id pools, x.xstream = .obj id pools ∧ pools ≠ [] ∧
      ∀ h ∈ pools, h ∈ abt.pools.map (·.pool) := by
  obtain ⟨-, ⟨hnull, -⟩ | hobj⟩ := hd.xstreams x hx
  · exact absurd hnull (hc x hx)
  · exact hobj

/-- Registered pools are found. -/
theorem find_of_mem (hd : Describable abt) {h : PoolHandle} (hh : h ∈ abt.pools.map (·.pool)) :
    ∃ k < abt.pools.length, findPoolByHandle abt h = some k := by
  obtain ⟨p, hp, rfl⟩ := List.mem_map.mp hh
  obtain ⟨id, hid⟩ := (hd.pools p hp).handle
  obtain ⟨k, hk, rfl⟩ := List.mem_iff_getElem.mp hp
  refine ⟨k, hk, ?_⟩
  rw [findPoolByHandle, if_neg (by simp [hid])]
  exact findIdx?_of_nodup hd.handles (List.getElem?_eq_getElem hk)

theorem map_find (hd : Describable abt) {pools : List PoolHandle}
    (hreg : ∀ h ∈ pools, h ∈ abt.pools.map (·.pool)) :
    pools.map (findPoolByHandle abt) = (positions abt pools).map some := by
  induction pools with
  | nil => rfl
  | cons h pools ih =>
      obtain ⟨k, -, hk⟩ := find_of_mem hd (hreg h List.mem_cons_self)
      have hrest := ih fun h' hh' => hreg h' (List.mem_cons_of_mem h hh')
      simp only [positions, List.map_cons, List.filterMap_cons, hk] at hrest ⊢
      rw [hrest]

theorem positions_lt {pools : List PoolHandle} {k : Nat} (hk : k ∈ positions abt pools) :
    k < abt.pools.length := by
  obtain ⟨h, -, hfind⟩ := List.mem_filterMap.mp hk
  obtain ⟨-, p, hp, -⟩ := findPoolByHandle_some hfind
  exact (List.getElem?_eq_some_iff.mp hp).1

/-- The report of an environment that can be described is accepted. -/
theorem abtToJson_valid (hd : Describable abt) (hn : Nameable abt) (hc : AllCreated abt)
    (hshown : options.hideExternal = false) (info : AbtInfo) :
    abtValidateJson false (abtToJson options info abt) = .ok () := by
  have hpools : ((abtToJson options info abt).get "pools").items.forM (poolValidateJson false) =
      .ok () := by
    rw [items_pools_shown hshown]
    refine forM_eq_ok ?_
    intro j hj
    obtain ⟨p, hp, rfl⟩ := List.mem_map.mp hj
    obtain ⟨hkind, ⟨access, haccess, heq⟩, -⟩ := hd.pools p hp
    rw [poolToJson_eq heq]
    exact poolJson_valid (nameFits_pool hd hn.fewPools hp) hkind haccess
  have hpoolNames : configNamesMustBeUnique ((abtToJson options info abt).get "pools").items
      "argobots.pools" = .ok () := by
    rw [items_pools_shown hshown]
    refine configNamesMustBeUnique_eq_ok ?_ hn.pools
    rw [List.map_map, List.map_map]
    rfl
  have hxstreams : ((abtToJson options info abt).get "xstreams").items.forM (fun jxstream =>
      xstreamValidateJson false jxstream dummyAbt
        ((abtToJson options info abt).get "pools").items) = .ok () := by
    rw [items_xstreams_shown hshown, items_pools_shown hshown]
    refine forM_eq_ok ?_
    intro j hj
    obtain ⟨⟨x, i⟩, hmem, rfl⟩ := List.mem_map.mp hj
    have hx : x ∈ abt.xstreams := 
      List.mem_of_getElem? (List.mem_zipIdx_iff_getElem?.mp hmem)
    obtain ⟨id, pools, hobj, hne, hreg⟩ := obj_of_created hd hc hx
    rw [xstreamToJson_eq hshown info i hobj]
    refine xstreamJson_valid (nameFits_xstream hd hn.fewXstreams hx) (hd.xstreams x hx).schedType
      ?_ ?_
    · intro hnil
      have hlen := congrArg List.length (map_find hd hreg)
      rw [List.map_eq_nil_iff.mp hnil, List.length_map, List.map_nil, List.length_nil,
        List.length_eq_zero_iff] at hlen
      exact hne hlen
    · intro ref href
      obtain ⟨k, hk, rfl⟩ := List.mem_map.mp href
      exact ref_valid hd hn.fewPools (positions_lt hk)
  have hxstreamNames : configNamesMustBeUnique
      ((abtToJson options info abt).get "xstreams").items "argobots.xstreams" = .ok () := by
    rw [items_xstreams_shown hshown]
    have hnames : (abt.xstreams.zipIdx.map fun e => xstreamToJson options info abt e.2 e.1).map
        (·.get "name") = (abt.xstreams.map (·.name)).map .string := by
      conv_rhs => rw [← List.zipIdx_map_fst 0 abt.xstreams]
      rw [List.map_map, List.map_map, List.map_map]
      apply List.map_congr_left
      rintro ⟨x, i⟩ hmem
      have hx : x ∈ abt.xstreams := List.mem_of_getElem? (List.mem_zipIdx_iff_getElem?.mp hmem)
      obtain ⟨id, pools, hobj, -, -⟩ := obj_of_created hd hc hx
      simp only [Function.comp_apply, xstreamToJson_eq hshown info i hobj, get_name]
    exact configNamesMustBeUnique_eq_ok hnames hn.xstreams
  have hstacks : assertConfigHasOptional (abtToJson options info abt) "abt_mem_max_num_stacks"
      .int "argobots" = .ok () := by
    refine assertConfigHasOptional_eq_ok ?_
    rw [get_memMaxNumStacks]
    exact optional_isType (fun _ => rfl) info.memMaxNumStacks
  have hstacksize : assertConfigHasOptional (abtToJson options info abt) "abt_thread_stacksize"
      .int "argobots" = .ok () := by
    refine assertConfigHasOptional_eq_ok ?_
    rw [get_threadStacksize]
    exact optional_isType (fun _ => rfl) info.threadStacksize
  have hprofiling : assertConfigHasOptional (abtToJson options info abt) "profiling_dir"
      .string "argobots" = .ok () := by
    refine assertConfigHasOptional_eq_ok ?_
    rw [get_profilingDir]
    exact fun _ => rfl
  exact check_seq (assertConfigHasOptional_eq_ok fun _ => rfl)
    (check_seq (assertConfigHasOptional_eq_ok fun _ => rfl) (check_seq hstacks
      (check_seq hstacksize (check_seq hprofiling (check_seq hpools (check_seq hpoolNames
        (check_seq hxstreams hxstreamNames)))))))

/-- Only if every xstream was created is the report accepted. -/
theorem created_of_valid (hshown : options.hideExternal = false)
    (info : AbtInfo) {b : Bool} (h : abtValidateJson b (abtToJson options info abt) = .ok ()) :
    AllCreated abt := by
  obtain ⟨-, hxstreams⟩ := abtValidateJson_ok h
  rw [items_xstreams_shown hshown] at hxstreams
  intro x hx hnull
  obtain ⟨i, hi⟩ := List.mem_iff_getElem?.mp hx
  have hmem : (x, i) ∈ abt.xstreams.zipIdx := List.mem_zipIdx_iff_getElem?.mpr hi
  obtain ⟨hne, -, -⟩ := xstreamValidateJson_ok (hxstreams _ (List.mem_map_of_mem hmem))
  apply hne
  simp only [xstreamToJson, hnull]
  rfl

end

end Margo.Abt.Report
