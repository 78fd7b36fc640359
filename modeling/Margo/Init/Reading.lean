import Margo.Abt.Report
import Margo.Init.Description

/-!
# Initialization from a report

An environment that is initialized from the report of another one has its pools
and xstreams: every reference leads back to the pool it was made from, the
primary xstream is led by the primary pool, so that nothing is added, and the two
pool fields lead to the pools they were reported for.

## Implementation notes

Pools are compared by their positions, which the report keeps. The report is
that of an environment that can be described, and the calls of the new
initialization succeed.
-/

namespace Margo.Init

open Lib Abt Abt.Names Abt.Initialization Abt.Description Abt.Report

/-! ## What is described -/

/-- What a configuration says of a pool: its name, kind and access. -/
def poolDescription (p : Pool) : String × String × Option String := (p.name, p.kind, p.access)

/-- What a configuration says of an xstream: its name, and the type and the pools
of its scheduler. -/
def xstreamDescription (abt : MargoAbt) (x : Xstream) : String × String × List (Option Nat) :=
  (x.name, x.schedType, (mainPools x.xstream).map (findPoolByHandle abt))

/-- The two environments have the same pools and the same xstreams. -/
structure SameDescription (abt abt' : MargoAbt) : Prop where
  pools : abt'.pools.map poolDescription = abt.pools.map poolDescription
  xstreams : abt'.xstreams.map (xstreamDescription abt') =
    abt.xstreams.map (xstreamDescription abt)

/-! ## Reading a report -/

/-- A pool that is created from its report is described like the one that was
reported. -/
theorem poolInitFromJson_report {r : Replies} {abt : MargoAbt} {p q : Pool} (hp : PoolFits p)
    (hname : NameFits p.name) (h : poolInitFromJson r (poolToJson p) abt = some q) :
    poolDescription q = poolDescription p := by
  obtain ⟨hkind, ⟨access, haccess, heq⟩, -⟩ := hp
  rw [poolToJson_eq heq] at h
  have hn : ((poolJson p.name p.kind access).get "name").getString = p.name := hname.cString
  have hk : (poolJson p.name p.kind access).getStringOr "kind" "fifo_wait" = p.kind :=
    cString_poolKind hkind
  have ha : ((poolJson p.name p.kind access).get "access").getString = access :=
    cString_poolAccess haccess
  have hpresName : ((poolJson p.name p.kind access).get "name").present = true := rfl
  have hpresAccess : ((poolJson p.name p.kind access).get "access").present = true := rfl
  simp only [poolInitFromJson, poolJsonName, hn, hk, ha, hpresName, hpresAccess, if_true] at h
  split_ifs at h
  obtain ⟨id, -, rfl⟩ := Option.map_eq_some_iff.mp h
  simp only [poolDescription, heq]

theorem initPools_reports {r : InitReplies} {ps : List Pool}
    (hps : ∀ p ∈ ps, PoolFits p ∧ NameFits p.name) {abt abt' : MargoAbt}
    (h : initPools r abt (ps.map poolToJson) = some abt') :
    abt'.pools.map poolDescription = abt.pools.map poolDescription ++ ps.map poolDescription ∧
      abt'.xstreams = abt.xstreams := by
  induction ps generalizing abt with
  | nil =>
      obtain rfl := Option.some.inj h
      exact ⟨by simp, rfl⟩
  | cons p ps ih =>
      simp only [List.map_cons, initPools] at h
      split at h
      · cases h
      · next q hq =>
          obtain ⟨hfits, hname⟩ := hps p List.mem_cons_self
          have hdesc := poolInitFromJson_report hfits hname hq
          obtain ⟨hpools, hxs⟩ := ih (fun p' hp' => hps p' (List.mem_cons_of_mem p hp')) h
          refine ⟨?_, hxs⟩
          rw [hpools]
          simp [appendPool, hdesc]

/-- Named xstreams are created under their names and with the types of their
schedulers. -/
theorem initXstreams_types {r : InitReplies} {js : List Json}
    (hjs : ∀ j ∈ js, (j.get "name").present = true ∧ XstreamJsonFits j) {abt abt' : MargoAbt}
    (hf : Founded r abt) (h : initXstreams r abt js = some abt') :
    abt'.xstreams.map (fun x => (x.name, x.schedType)) =
      abt.xstreams.map (fun x => (x.name, x.schedType)) ++
        js.map fun j => ((j.get "name").getString,
          (j.get "scheduler").getStringOr "type" "basic_wait") := by
  induction js generalizing abt with
  | nil =>
      obtain rfl := Option.some.inj h
      simp
  | cons j js ih =>
      obtain ⟨hpres, hfits⟩ := hjs j List.mem_cons_self
      simp only [initXstreams] at h
      split at h
      · cases h
      · next abt₁ hinit =>
          have hf₁ := hf.addXstream hinit hfits
          rw [ih (fun j' hj' => hjs j' (List.mem_cons_of_mem j hj')) hf₁ h]
          unfold initXstream at hinit
          split at hinit
          · cases hinit
          next abt₂ x hx =>
          obtain rfl := Option.some.inj hinit
          obtain ⟨-, hxs, hentry⟩ := xstreamInitFromJson_entries hx
          obtain ⟨-, -, -, htype, -⟩ := xstreamInitFromJson_spec hf.describable.distinct hx
          have hname : x.name = (j.get "name").getString := by
            rw [(hentry x rfl).1, xstreamJsonName, if_pos hpres]
          simp [appendXstream, hxs, hname, htype]

theorem map_mainPools {es : List (String × PoolHandle)} {js : List Json} {xs : List Xstream}
    (h : List.Forall₂ (Matches es) js xs) :
    xs.map (fun x => mainPools x.xstream) = js.map (refHandles es) := by
  induction h with
  | nil => rfl
  | cons hm _ ih => rw [List.map_cons, List.map_cons, ih, hm.2]

/-! ## Initialization from a report -/

section

variable {abt : MargoAbt} {options : ConfigOptions}

/-- The way a report refers to a pool leads to its position. -/
theorem refIndex_poolFieldToJson (hd : Describable abt) (hn : Nameable abt) {k : Nat}
    (hk : k < abt.pools.length) :
    refIndex (abt.pools.map (·.name)) (poolFieldToJson options abt k) = k := by
  have hfew := hn.fewPools
  unfold poolFieldToJson
  split
  · have hfind : abt.pools.findIdx? (fun p => p.name == abt.pools[k].name) = some k :=
      findIdx?_of_nodup hn.pools (List.getElem?_eq_getElem hk)
    have hint : (Json.string (poolNameAt abt k)).isType .int = false := rfl
    simp only [refIndex, hint, Bool.false_eq_true, if_false, getString_poolNameAt hd hfew hk,
      List.findIdx?_map, Function.comp_def, hfind, Option.getD_some]
  · exact refIndex_int (by omega) _

/-- The report of an environment: as a configuration, each of its xstreams is
called and typed like the reported one, and refers to its pools by position. -/
theorem report_at (hd : Describable abt) (hn : Nameable abt) (hc : AllCreated abt)
    (hshown : options.hideExternal = false) (info : AbtInfo) {k : Nat} {x : Xstream}
    (hx : abt.xstreams[k]? = some x) :
    ((xstreamToJson options info abt k x).get "name").getString = x.name ∧
      ((xstreamToJson options info abt k x).get "scheduler").getStringOr "type" "basic_wait" =
        x.schedType ∧
      poolRefs (xstreamToJson options info abt k x) =
        (positions abt (mainPools x.xstream)).map (poolFieldToJson options abt) := by
  have hmem := List.mem_of_getElem? hx
  obtain ⟨id, pools, hobj, -, -⟩ := obj_of_created hd hc hmem
  rw [xstreamToJson_eq hshown info k hobj]
  refine ⟨(nameFits_xstream hd hn.fewXstreams hmem).cString,
    cString_schedType (hd.xstreams x hmem).schedType, ?_⟩
  rw [hobj]
  rfl

theorem item_at (hshown : options.hideExternal = false) (info : AbtInfo) (k : Nat) :
    ((abtToJson options info abt).get "xstreams").items[k]? =
      abt.xstreams[k]?.map (xstreamToJson options info abt k) := by
  rw [items_xstreams_shown hshown, List.getElem?_map, List.getElem?_zipIdx, Option.map_map,
    Nat.zero_add]
  rfl

theorem item_named (hd : Describable abt) (hc : AllCreated abt)
    (hshown : options.hideExternal = false) (info : AbtInfo) {j : Json}
    (hj : j ∈ ((abtToJson options info abt).get "xstreams").items) :
    (j.get "name").present = true := by
  obtain ⟨k, hk⟩ := List.mem_iff_getElem?.mp hj
  rw [item_at hshown, Option.map_eq_some_iff] at hk
  obtain ⟨x, hx, rfl⟩ := hk
  obtain ⟨id, pools, hobj, -, -⟩ := obj_of_created hd hc (List.mem_of_getElem? hx)
  rw [xstreamToJson_eq hshown info k hobj, get_name]
  rfl

variable {r : InitReplies} {abt₁ abt₂ : MargoAbt}

/-- The pools that are created from a report are those that were reported. -/
theorem pools_of_report (hd : Describable abt) (hn : Nameable abt)
    (hshown : options.hideExternal = false) (info : AbtInfo) {n m : Nat}
    (hpools : initPools r ⟨[], n, [], m⟩ ((abtToJson options info abt).get "pools").items =
      some abt₁) :
    abt₁.pools.map poolDescription = abt.pools.map poolDescription ∧ abt₁.xstreams = [] := by
  rw [items_pools_shown hshown] at hpools
  obtain ⟨hdesc, hnil⟩ := initPools_reports
    (fun p hp => ⟨hd.pools p hp, nameFits_pool hd hn.fewPools hp⟩) hpools
  exact ⟨by rw [hdesc]; rfl, hnil⟩

theorem names_of_description (h : abt₂.pools.map poolDescription = abt.pools.map poolDescription) :
    (poolEntries abt₂).map Prod.fst = abt.pools.map (·.name) := by
  have hfst := congrArg (List.map fun d : String × String × Option String => d.1) h
  rw [List.map_map, List.map_map] at hfst
  rw [poolEntries_fst]
  exact hfst

/-- The references of a reported xstream lead back to the pools it had. -/
theorem find_of_report (hd : Describable abt) (hn : Nameable abt) (hc : AllCreated abt)
    (hshown : options.hideExternal = false) (info : AbtInfo) (hr : InitSucceeds r)
    (hconf : Configured r (abtToJson options info abt) abt₂)
    (hnames : (poolEntries abt₂).map Prod.fst = abt.pools.map (·.name)) {k : Nat} {x : Xstream}
    (hx : abt.xstreams[k]? = some x) :
    (refHandles (poolEntries abt₂) (xstreamToJson options info abt k x)).map
        (findPoolByHandle abt₂) = (mainPools x.xstream).map (findPoolByHandle abt) := by
  obtain ⟨-, -, hrefs⟩ := report_at hd hn hc hshown info hx
  obtain ⟨id, pools, hobj, -, hreg⟩ := obj_of_created hd hc (List.mem_of_getElem? hx)
  have hlen : (poolEntries abt₂).length = abt.pools.length := by
    simpa using congrArg List.length hnames
  calc
    (refHandles (poolEntries abt₂) (xstreamToJson options info abt k x)).map
        (findPoolByHandle abt₂)
        = (positions abt (mainPools x.xstream)).map some := by
      rw [refHandles, hrefs, hnames, List.map_map, List.map_map]
      apply List.map_congr_left
      intro i hi
      have hlt := positions_lt hi
      rw [Function.comp_apply, Function.comp_apply, refIndex_poolFieldToJson hd hn hlt]
      exact hconf.find_handle hr (by omega)
    _ = (mainPools x.xstream).map (findPoolByHandle abt) := by
      rw [hobj]
      exact (map_find hd hreg).symm

/-- An environment that is initialized from a report has the pools and xstreams
of the one that was reported. -/
theorem sameDescription_of_report (hd : Describable abt) (hn : Nameable abt)
    (hc : AllCreated abt) (hshown : options.hideExternal = false) (info : AbtInfo)
    (hr : InitSucceeds r) {n m : Nat}
    (hpools : initPools r ⟨[], n, [], m⟩ ((abtToJson options info abt).get "pools").items =
      some abt₁)
    (hxs : initXstreams r abt₁ ((abtToJson options info abt).get "xstreams").items = some abt₂)
    (hconf : Configured r (abtToJson options info abt) abt₂) :
    SameDescription abt abt₂ ∧ Founded r abt₂ := by
  obtain ⟨hpoolsValid, hxstreamsValid⟩ :=
    abtValidateJson_ok (abtToJson_valid hd hn hc hshown info)
  have hf₁ := founded_initPools hr.fresh (fun j hj => poolJsonFits_of_valid (hpoolsValid j hj))
    hpools (founded_empty _ _)
  have hf₂ := founded_initXstreams
    (fun j hj => xstreamJsonFits_of_valid (hxstreamsValid j hj)) hxs hf₁
  obtain ⟨hdesc, hnil⟩ := pools_of_report hd hn hshown info hpools
  have hstatic := congrArg (List.map poolDescription) (initXstreams_static hxs)
  rw [List.map_map, List.map_map] at hstatic
  have hsame : abt₂.pools.map poolDescription = abt.pools.map poolDescription := by
    calc
      abt₂.pools.map poolDescription = abt₁.pools.map poolDescription := hstatic
      _ = abt.pools.map poolDescription := hdesc
  have htypes := initXstreams_types (fun j hj => ⟨item_named hd hc hshown info hj,
    xstreamJsonFits_of_valid (hxstreamsValid j hj)⟩) hf₁ hxs
  rw [hnil, List.map_nil, List.nil_append] at htypes
  have hmain := map_mainPools hconf.xstreams
  refine ⟨⟨hsame, List.ext_getElem? fun k => ?_⟩, hf₂⟩
  have htype := congrArg (fun l : List (String × String) => l[k]?) htypes
  have hhandles := congrArg (fun l : List (List PoolHandle) => l[k]?) hmain
  simp only [List.getElem?_map, item_at hshown] at htype hhandles ⊢
  cases hx : abt.xstreams[k]? with
  | none =>
      rw [hx] at htype
      simpa using htype
  | some x =>
      obtain ⟨hname, hsched, -⟩ := report_at hd hn hc hshown info hx
      rw [hx] at htype hhandles
      simp only [Option.map_some, hname, hsched] at htype hhandles
      obtain ⟨y, hy, hyeq⟩ := Option.map_eq_some_iff.mp htype
      obtain ⟨hyname, hytype⟩ := Prod.mk.inj hyeq
      rw [hy] at hhandles ⊢
      have hypools : mainPools y.xstream =
          refHandles (poolEntries abt₂) (xstreamToJson options info abt k x) :=
        Option.some.inj hhandles
      have hfound := find_of_report hd hn hc hshown info hr hconf (names_of_description hsame) hx
      rw [← hypools] at hfound
      simp only [Option.map_some, xstreamDescription, hyname, hytype, hfound]

/-- A reported xstream is called `__primary__` in the report if it is. -/
theorem named_item (hd : Describable abt) (hn : Nameable abt) (hc : AllCreated abt)
    (hshown : options.hideExternal = false) (info : AbtInfo) {k : Nat} {x : Xstream}
    (hx : abt.xstreams[k]? = some x) :
    (xstreamToJson options info abt k x).named "__primary__" = (x.name == "__primary__") := by
  obtain ⟨hname, -, -⟩ := report_at hd hn hc hshown info hx
  have hmem : xstreamToJson options info abt k x ∈
      ((abtToJson options info abt).get "xstreams").items := by
    apply List.mem_of_getElem? (i := k)
    rw [item_at hshown, hx]
    rfl
  rw [Json.named, hname, item_named hd hc hshown info hmem, Bool.true_and]

/-- The first pool of the primary xstream is found again under its name. -/
theorem checkPrimary_report (hd : Describable abt) (hl : Led abt) (hn : Nameable abt)
    (hc : AllCreated abt) (hshown : options.hideExternal = false) (info : AbtInfo)
    (hr : InitSucceeds r) (hconf : Configured r (abtToJson options info abt) abt₂)
    (hsame : SameDescription abt abt₂) {j : Json} {y : Xstream}
    (hj : j ∈ ((abtToJson options info abt).get "xstreams").items)
    (hnamed : j.named "__primary__" = true) (hm : Matches (poolEntries abt₂) j y) :
    checkPrimary r y abt₂ = some abt₂ := by
  obtain ⟨x, hx, hname, p, hp, hpname, id, rest, hobj⟩ := hl
  obtain ⟨k, hk⟩ := List.mem_iff_getElem?.mp hj
  rw [item_at hshown, Option.map_eq_some_iff] at hk
  obtain ⟨x', hx', rfl⟩ := hk
  rw [named_item hd hn hc hshown info hx', beq_iff_eq] at hnamed
  obtain rfl : x' = x :=
    List.inj_on_of_nodup_map hn.xstreams (List.mem_of_getElem? hx') hx (hnamed.trans hname.symm)
  obtain ⟨i, hi, rfl⟩ := List.mem_iff_getElem.mp hp
  have hnames := names_of_description hsame.pools
  have hfind : findPoolByHandle abt abt.pools[i].pool = some i := by
    obtain ⟨own, hown⟩ := (hd.pools _ hp).handle
    rw [findPoolByHandle, if_neg (by simp [hown])]
    exact findIdx?_of_nodup hd.handles (List.getElem?_eq_getElem hi)
  have hprimary : findPoolByName abt₂ (some "__primary__") = some i := by
    rw [findPoolByName_entries, hnames, List.findIdx?_map, ← hpname]
    exact findIdx?_of_nodup hn.pools (List.getElem?_eq_getElem hi)
  have hfound := find_of_report hd hn hc hshown info hr hconf hnames hx'
  rw [← hm.2, hobj] at hfound
  have hcons : (mainPools y.xstream).map (findPoolByHandle abt₂) =
      findPoolByHandle abt abt.pools[i].pool :: rest.map (findPoolByHandle abt) := hfound
  obtain ⟨h, hs, hmain, hfirst, -⟩ := List.map_eq_cons_iff.mp hcons
  rw [hfind] at hfirst
  simp only [checkPrimary, hr.mainPools, Bool.not_true, Bool.false_eq_true, if_false, hmain,
    List.headD_cons, hfirst, hprimary, if_true]

/-- A fresh process initializes the reported environment from its report. -/
theorem abtInitFromJson_report (hd : Describable abt) (hl : Led abt) (hn : Nameable abt)
    (hc : AllCreated abt) (hshown : options.hideExternal = false) (info : AbtInfo)
    (hr : InitSucceeds r) (hinit : r.abtInitialized = false) :
    ∃ abt₂, Abt.abtInitFromJson r (abtToJson options info abt) = some abt₂ ∧
      SameDescription abt abt₂ ∧ Founded r abt₂ := by
  have hv : abtValidateJson r.abtInitialized (abtToJson options info abt) = .ok () := by
    rw [hinit]
    exact abtToJson_valid hd hn hc hshown info
  obtain ⟨abt₁, abt₂, hpools, hxs, hconf⟩ := configured_of_valid hr hv
  obtain ⟨hsame, hf⟩ := sameDescription_of_report hd hn hc hshown info hr hpools hxs hconf
  refine ⟨abt₂, ?_, hsame, hf⟩
  obtain ⟨hnone, -⟩ | ⟨j, y, hj, hm, hstage⟩ := abtInitFromJson_configured hpools hxs hconf
  · obtain ⟨x, hx, hname, -⟩ := hl
    obtain ⟨k, hk⟩ := List.mem_iff_getElem?.mp hx
    have hitem : ((abtToJson options info abt).get "xstreams").items[k]? = _ :=
      item_at hshown info k
    rw [hk] at hitem
    have hmem := List.mem_reverse.mpr (List.mem_of_getElem? hitem)
    have hnot := List.find?_eq_none.mp hnone _ hmem
    rw [named_item hd hn hc hshown info hk, hname] at hnot
    exact absurd rfl hnot
  · rw [hstage]
    exact checkPrimary_report hd hl hn hc hshown info hr hconf hsame
      (List.mem_reverse.mp (List.mem_of_find?_eq_some hj)) (List.find?_some hj) hm

/-! ## The progress and RPC pools -/

theorem present_poolFieldToJson (k : Nat) : (poolFieldToJson options abt k).present = true := by
  unfold poolFieldToJson
  split <;> rfl

/-- A reported field is accepted. -/
theorem poolField_valid (hd : Describable abt) (hn : Nameable abt) {config : Json} {key : String}
    {k : Nat} (hk : k < abt.pools.length)
    (hget : config.get key = poolFieldToJson options abt k) :
    poolFieldValidate config key (abt.pools.map poolToJson) = .ok () := by
  have hfew := hn.fewPools
  have hpres : ¬(!(config.get key).present) = true := by
    rw [hget, present_poolFieldToJson]
    exact Bool.false_ne_true
  simp only [poolFieldValidate]
  rw [if_neg hpres, hget]
  unfold poolFieldToJson
  split
  · have hall : (abt.pools.map poolToJson).takeWhile Json.present = abt.pools.map poolToJson := by
      rw [List.takeWhile_eq_self_iff]
      intro j hj
      obtain ⟨p, -, rfl⟩ := List.mem_map.mp hj
      rfl
    rw [if_neg (show ¬(Json.string (poolNameAt abt k)).isType .int = true from Bool.false_ne_true),
      if_pos (show (Json.string (poolNameAt abt k)).isType .string = true from rfl),
      getString_poolNameAt hd hfew hk]
    split
    · unfold configArrayMustHaveItemNamed
      rw [hall]
      exact if_pos (any_named hd hfew hk)
    · rfl
  · rw [if_pos (show (Json.int k).isType .int = true from rfl),
      getInt_natCast (show k < 2 ^ 31 by omega)]
    refine if_neg ?_
    rw [List.length_map]
    omega

/-- A reported field leads to the position it was reported for. -/
theorem fieldPool_poolFieldToJson (hd : Describable abt) (hn : Nameable abt)
    (hsame : SameDescription abt abt₂) {k : Nat} (hk : k < abt.pools.length) :
    fieldPool abt₂ (poolFieldToJson options abt k) = k := by
  have hfew := hn.fewPools
  unfold fieldPool poolFieldToJson
  split
  · have hfind : findPoolByName abt₂ (some abt.pools[k].name) = some k := by
      rw [findPoolByName_entries, names_of_description hsame.pools, List.findIdx?_map]
      exact findIdx?_of_nodup hn.pools (List.getElem?_eq_getElem hk)
    rw [if_neg (show ¬(Json.string (poolNameAt abt k)).isType .int = true from Bool.false_ne_true),
      getString_poolNameAt hd hfew hk, hfind]
    rfl
  · rw [if_pos (show (Json.int k).isType .int = true from rfl),
      getInt_natCast (show k < 2 ^ 31 by omega)]

/-- With both fields given, and no pools passed, the pools are those of the
fields. -/
theorem resolvePools_fields {rr : ResolveReplies} {info : InitInfo} {config : Json} {i p q : Nat}
    (hd : Describable abt) (hnone : NoneGiven info)
    (hprimary : findPoolByName abt (some "__primary__") = some i)
    (hprogress : (config.get "progress_pool").present = true)
    (hrpc : (config.get "rpc_pool").present = true)
    (hp : fieldPool abt (config.get "progress_pool") = p)
    (hq : fieldPool abt (config.get "rpc_pool") = q)
    (hplt : p < abt.pools.length) (hqlt : q < abt.pools.length) :
    resolvePools rr info config abt = (abt, some (p, q)) := by
  obtain ⟨hlt, -, -⟩ := List.findIdx?_eq_some_iff_getElem.mp hprimary
  obtain ⟨id, hid⟩ := (hd.pools _ (List.getElem_mem hlt)).handle
  have hat : poolAt abt i = .obj id := by simp [poolAt, hlt, hid]
  have hne (pool : PoolHandle) (hgiven : given pool = false) : pool ≠ poolAt abt i := by
    rintro rfl
    rw [hat] at hgiven
    cases hgiven
  have hrange : (inRange abt p && inRange abt q) = true := by
    simp only [inRange, Bool.and_eq_true, decide_eq_true_eq]
    omega
  have hgp := hnone.progressPool
  have hgr := hnone.rpcPool
  have hresolveProgress : resolveProgressPool rr info config i abt = (abt, some (p : Int)) := by
    unfold resolveProgressPool
    rw [if_neg fun h => hne _ hgp h.2, if_neg (by simp [hgp]), if_pos hprogress, hp]
  have hresolveRpc : resolveRpcPool rr info config i (poolAt abt i) p abt =
      (abt, some (q : Int)) := by
    unfold resolveRpcPool
    rw [if_neg fun h => hne _ hgr h.2, if_neg (by simp [hgp]), if_neg (by simp [hgr]),
      if_pos hrpc, hq]
  simp only [resolvePools, hprimary, hresolveProgress, hresolveRpc, hrange, if_true,
    Int.toNat_natCast]

end

end Margo.Init
