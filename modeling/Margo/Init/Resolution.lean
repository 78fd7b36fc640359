import Margo.Abt.Initialization
import Margo.Init.Config

/-!
# Accepted configurations and the pools they name

A configuration that `__margo_validate_json` accepts names a progress pool and
an RPC pool. If every call of Argobots and of the allocator succeeds,
`margo_init_ext` resolves these names, but for two things that validation does
not look at: the pools of the primary xstream, and the names that are generated
for pools without one.

## Implementation notes

What a configuration names is stated apart from the code, as a `Designation`. A
pool counts as the one that is named by its handle, or, for the primary pool, by
its name. A configuration lists fewer than `2 ^ 31 - 2` pools, since the parser
takes the length of the text as an `int`.
-/

namespace Margo.Init

open Lib Abt Abt.Names Abt.Initialization

/-- The pools of a configuration. -/
abbrev listedPools (config : Json) : List Json := ((config.get "argobots").get "pools").items

/-! ## What a configuration names -/

/-- A pool that a configuration or the arguments of a call name. -/
inductive Designation
  /-- A pool that was passed. -/
  | external (pool : PoolHandle)
  /-- An entry of `argobots.pools`. -/
  | listed (index : Nat)
  | primary
  /-- A pool created for the purpose. -/
  | created
  /-- The progress pool. -/
  | progress
  deriving DecidableEq, Repr

/-- The pool that a `progress_pool` or `rpc_pool` field names. -/
def fieldDesignation (pools : List Json) (field : Json) : Designation :=
  if field.isType .int then .listed field.getInt.toNat
  else if field.getString = "__primary__" then .primary
  else .listed (pools.findIdx (·.named field.getString))

/-- The progress pool of a configuration. -/
def progressDesignation (info : InitInfo) (config : Json) : Designation :=
  if given info.progressPool then .external info.progressPool
  else if (config.get "progress_pool").present then
    fieldDesignation (listedPools config) (config.get "progress_pool")
  else if (config.get "use_progress_thread").getBoolean then .created
  else .primary

/-- The RPC pool of a configuration. -/
def rpcDesignation (info : InitInfo) (config : Json) : Designation :=
  if given info.rpcPool then .external info.rpcPool
  else if (config.get "rpc_pool").present then
    fieldDesignation (listedPools config) (config.get "rpc_pool")
  else if (config.get "rpc_thread_count").getInt < 0 then .progress
  else if 0 < (config.get "rpc_thread_count").getInt then .created
  else .primary

/-- Position `i` of these entries is the pool that is named. The pool listed at
`k` is the one created for it, `own` is the one created for the purpose. -/
def Designation.Is (r : InitReplies) (own : Replies) (progress : Nat)
    (es : List (String × PoolHandle)) (i : Nat) : Designation → Prop
  | .external pool => es[i]?.map Prod.snd = some pool
  | .listed k => ∃ id, (r.pool k).poolCreate = some id ∧ es[i]?.map Prod.snd = some (.obj id)
  | .primary => es[i]?.map Prod.fst = some "__primary__"
  | .created => ∃ id, own.poolCreate = some id ∧ es[i]?.map Prod.snd = some (.obj id)
  | .progress => i = progress

/-- The answers to the calls of `margo_init_ext` that concern the pools. -/
structure ExtReplies where
  init : InitReplies
  resolve : ResolveReplies

/-- `margo_init_ext` without a parent, up to the check of the two indices. -/
def initExt (r : ExtReplies) (info : InitInfo) (config : Json) : Option (MargoAbt × Nat × Nat) :=
  match Abt.abtInitFromJson r.init (config.get "argobots") with
  | none => none
  | some abt =>
      match resolvePools r.resolve info config abt with
      | (abt, some (progress, rpc)) => some (abt, progress, rpc)
      | (_, none) => none

/-- The initialization succeeds and finds the pools that are named. -/
def Initializes (r : ExtReplies) (info : InitInfo) (config : Json) : Prop :=
  ∃ abt progress rpc, initExt r info config = some (abt, progress, rpc) ∧
    (progressDesignation info config).Is r.init r.resolve.progressPool progress
      (poolEntries abt) progress ∧
    (rpcDesignation info config).Is r.init r.resolve.rpcPool progress (poolEntries abt) rpc

/-- Every call succeeds, and the pools that Argobots creates are not those that
were passed. -/
structure ExtSucceeds (r : ExtReplies) (info : InitInfo) : Prop where
  init : InitSucceeds r.init
  progressPool : Succeeds r.resolve.progressPool
  progressXstream : ∀ n, Succeeds (r.resolve.progressXstream n)
  rpcPool : Succeeds r.resolve.rpcPool
  rpcXstream : ∀ n, Succeeds (r.resolve.rpcXstream n)
  new : ∀ k id, (r.init.pool k).poolCreate = some id →
    .obj id ≠ info.progressPool ∧ .obj id ≠ info.rpcPool
  newProgress : ∀ id, r.resolve.progressPool.poolCreate = some id → .obj id ≠ info.rpcPool

/-- No pool before the first one with the name of the field is given that name. -/
def NameReaches (pools : List Json) (field : Json) : Prop :=
  field.isType .string = true → field.getString ≠ "__primary__" →
    field.getString ∉
      givenNames poolPrint [] (pools.take (pools.findIdx (·.named field.getString)))

/-- The condition on a configuration and the arguments of the call. -/
structure Fits (r : ExtReplies) (info : InitInfo) (config : Json) : Prop where
  primary : PrimaryFits r.init (config.get "argobots")
  progress : given info.progressPool = false →
    NameReaches (listedPools config) (config.get "progress_pool")
  rpc : given info.rpcPool = false → NameReaches (listedPools config) (config.get "rpc_pool")

/-! ## What validation says -/

theorem poolFieldValidate_ok {config : Json} {key : String} {pools : List Json}
    (h : poolFieldValidate config key pools = .ok ())
    (hpres : (config.get key).present = true) :
    ((config.get key).isType .int = true ∧ 0 ≤ (config.get key).getInt ∧
      (config.get key).getInt < pools.length) ∨
    ((config.get key).isType .int = false ∧ (config.get key).isType .string = true ∧
      ((config.get key).getString = "__primary__" ∨
        pools.any (·.named (config.get key).getString) = true)) := by
  simp only [poolFieldValidate, hpres, Bool.not_true, Bool.false_eq_true, if_false] at h
  cases hint : (config.get key).isType .int with
  | true =>
      simp only [hint, if_true] at h
      split at h
      · cases h
      · next hrange => exact Or.inl ⟨rfl, by omega, by omega⟩
  | false =>
      simp only [hint, Bool.false_eq_true, if_false] at h
      split at h
      · next hstring =>
          refine Or.inr ⟨rfl, hstring, ?_⟩
          split at h
          · unfold configArrayMustHaveItemNamed at h
            split at h
            · next hany =>
                obtain ⟨j, hj, hnamed⟩ := List.any_eq_true.mp hany
                exact Or.inr (List.any_eq_true.mpr
                  ⟨j, (List.takeWhile_sublist _).subset hj, hnamed⟩)
            · cases h
          · next hprimary => exact Or.inl (not_not.mp hprimary)
      · cases h

theorem validateJson_ok {b : Bool} {hg plumber : Json → Check} {config : Json}
    (h : validateJson b hg plumber config = .ok ()) :
    abtValidateJson b (config.get "argobots") = .ok () ∧
    poolFieldValidate config "progress_pool" (listedPools config) = .ok () ∧
    poolFieldValidate config "rpc_pool" (listedPools config) = .ok () := by
  unfold validateJson at h
  obtain ⟨⟨⟩, -, h⟩ := bind_ok h
  obtain ⟨⟨⟩, habt, h⟩ := bind_ok h
  obtain ⟨⟨⟩, -, h⟩ := bind_ok h
  obtain ⟨⟨⟩, -, h⟩ := bind_ok h
  obtain ⟨⟨⟩, -, h⟩ := bind_ok h
  obtain ⟨⟨⟩, -, h⟩ := bind_ok h
  obtain ⟨⟨⟩, hprogress, h⟩ := bind_ok h
  obtain ⟨⟨⟩, -, h⟩ := bind_ok h
  obtain ⟨⟨⟩, hrpc, -⟩ := bind_ok h
  exact ⟨habt, hprogress, hrpc⟩

/-! ## Additions -/

section

variable {r : Replies} {abt : MargoAbt}

theorem length_poolEntries (abt : MargoAbt) : (poolEntries abt).length = abt.pools.length := by
  simp [poolEntries]

theorem growPools_ok (hr : Succeeds r) (abt : MargoAbt) :
    ∃ abt', growPools r abt = some abt' ∧ abt'.pools = abt.pools := by
  unfold growPools
  split
  · refine ⟨{ abt with poolsCap := grownCap abt.poolsCap }, ?_, rfl⟩
    rw [if_pos hr.realloc]
  · exact ⟨abt, rfl, rfl⟩

theorem growXstreams_ok (hr : Succeeds r) (abt : MargoAbt) :
    ∃ abt', growXstreams r abt = some abt' ∧ abt'.pools = abt.pools := by
  unfold growXstreams
  split
  · refine ⟨{ abt with xstreamsCap := grownCap abt.xstreamsCap }, ?_, rfl⟩
    rw [if_pos hr.realloc]
  · exact ⟨abt, rfl, rfl⟩

/-- A pool that is not registered is registered at the end. -/
theorem useExternalPool_ok (hr : Succeeds r) {pool : PoolHandle}
    (hnew : pool ∉ (poolEntries abt).map Prod.snd) :
    ∃ abt' name, useExternalPool r pool abt = (abt', some (abt.pools.length : Int)) ∧
      poolEntries abt' = poolEntries abt ++ [(name, pool)] := by
  obtain ⟨abt₁, hgrow, hpools⟩ := growPools_ok hr abt
  have hnone : findPoolByHandle abt pool = none := by
    rw [findPoolByHandle]
    split
    · rfl
    · rw [List.findIdx?_eq_none_iff]
      intro p hp
      rw [poolEntries_snd] at hnew
      simp only [beq_eq_false_iff_ne]
      intro heq
      exact hnew (List.mem_map.mpr ⟨p, hp, heq⟩)
  refine ⟨appendPool abt₁ (poolInitExternal none pool abt₁), generateUnusedPoolName abt₁,
    ?_, ?_⟩
  · simp [useExternalPool, addExternalPool, findPoolByName, hnone, hgrow]
  · rw [poolEntries_appendPool, poolEntries, hpools]
    rfl

/-- The configuration of an xstream that runs the pool at position `i`. -/
abbrev servingXstream (i : Nat) : Json :=
  .object [("scheduler", .object [("pools", .array [.int i])])]

theorem servingXstream_valid {i : Nat} (hi : i < abt.pools.length) (hfew : i < 2 ^ 31)
    (b : Bool) : xstreamValidateJson b (servingXstream i) abt [] = .ok () := by
  have hget : (Json.int i).getInt = i := by
    simp only [Json.getInt]
    omega
  have hrange : ¬((Json.int i).getInt < 0 ∨
      (abt.pools.length + ([] : List Json).length : Int) ≤ (Json.int i).getInt) := by
    rw [hget]
    simp only [List.length_nil]
    omega
  have href : poolRefValidateJson abt [] (.int i) = .ok () := by
    unfold poolRefValidateJson
    rw [if_pos (show (Json.int i).isType .int = true from rfl), if_neg hrange]
    rfl
  have hsched : schedValidateJson (.object [("pools", .array [.int i])]) abt [] = .ok () := by
    change (poolRefValidateJson abt [] (.int i) >>= fun _ => pure ()) = .ok ()
    rw [href]
    rfl
  change (schedValidateJson (.object [("pools", .array [.int i])]) abt [] >>= _) = .ok ()
  rw [hsched]
  rfl

theorem addXstreamFromJson_ok {i id : Nat} (hr : Succeeds r) (hfew : i < 2 ^ 31)
    (hid : handleAt (poolEntries abt) i = .obj id) :
    ∃ abt', addXstreamFromJson r (servingXstream i) abt = (abt', true) ∧
      poolEntries abt' = poolEntries abt := by
  have hi : i < abt.pools.length := by
    by_contra hge
    have hnone : (poolEntries abt)[i]? = none := by
      rw [List.getElem?_eq_none_iff, length_poolEntries]
      omega
    simp [handleAt, hnone] at hid
  obtain ⟨abt₁, hgrow, hpools⟩ := growXstreams_ok hr abt
  have hentries : poolEntries abt₁ = poolEntries abt := by rw [poolEntries, hpools, poolEntries]
  have href : RefsResolve (poolEntries abt₁) (servingXstream i) :=
    refsResolve_single hfew rfl (hentries ▸ hid)
  obtain ⟨abt₂, x, hinit, -⟩ := xstreamInitFromJson_ok hr href
  refine ⟨appendXstream abt₂ x, ?_, ?_⟩
  · unfold addXstreamFromJson
    rw [servingXstream_valid hi hfew]
    have hname : ((servingXstream i).get "name").present = false := rfl
    simp only [hname, Bool.false_and, Bool.false_eq_true, if_false, hgrow, hinit]
  · calc
      poolEntries (appendXstream abt₂ x) = poolEntries abt₂ := rfl
      _ = poolEntries abt₁ := poolEntries_of_static (xstreamInitFromJson_entries hinit).1
      _ = poolEntries abt := hentries

theorem addXstreams_ok {rs : Nat → Replies} {i id : Nat} (hr : ∀ n, Succeeds (rs n))
    (hfew : i < 2 ^ 31) (n : Nat) (hid : handleAt (poolEntries abt) i = .obj id) :
    ∃ abt', addXstreams rs (servingXstream i) n abt = (abt', true) ∧
      poolEntries abt' = poolEntries abt := by
  induction n generalizing abt with
  | zero => exact ⟨abt, rfl, rfl⟩
  | succ n ih =>
      obtain ⟨abt₁, hadd, hentries⟩ := addXstreamFromJson_ok (hr n) hfew hid
      have hid₁ : handleAt (poolEntries abt₁) i = .obj id := by rw [hentries, hid]
      obtain ⟨abt', hrest, hentries'⟩ := ih hid₁
      refine ⟨abt', ?_, hentries'.trans hentries⟩
      simp only [addXstreams, hadd]
      exact hrest

/-- A pool with its xstreams is created at the end. -/
theorem createServedPool_ok {rs : Nat → Replies} (hr : Succeeds r) (hrs : ∀ n, Succeeds (rs n))
    (n : Nat) (hfew : abt.pools.length < 2 ^ 31) :
    ∃ abt' name id, createServedPool r rs n abt = (abt', some (abt.pools.length : Int)) ∧
      r.poolCreate = some id ∧ poolEntries abt' = poolEntries abt ++ [(name, .obj id)] := by
  have hvalid : poolValidateJson r.abtInitialized (.object [("access", .string "mpmc")]) =
      .ok () := rfl
  obtain ⟨abt₁, hgrow, hpools⟩ := growPools_ok hr abt
  obtain ⟨p, hp⟩ := poolInitFromJson_ok hr hvalid abt₁
  obtain ⟨id, hid, hpool, -, -, -⟩ := poolInitFromJson_eq hp
  have hadd : addPoolFromJson r (.object [("access", .string "mpmc")]) abt =
      (appendPool abt₁ p, true) := by
    unfold addPoolFromJson
    rw [hvalid]
    have hname : ((Json.object [("access", .string "mpmc")]).get "name").present = false := rfl
    simp only [hname, Bool.false_and, Bool.false_eq_true, if_false, hgrow, hp]
  have hentries : poolEntries (appendPool abt₁ p) = poolEntries abt ++ [(p.name, .obj id)] := by
    rw [poolEntries_appendPool, hpool, poolEntries, hpools]
    rfl
  have hhandle : handleAt (poolEntries (appendPool abt₁ p)) abt.pools.length = .obj id := by
    rw [hentries, ← length_poolEntries]
    simp [handleAt]
  obtain ⟨abt', hxs, hsame⟩ := addXstreams_ok hrs hfew n hhandle
  refine ⟨abt', p.name, id, ?_, hid, hsame.trans hentries⟩
  simp only [createServedPool, hadd]
  rw [hxs]

end

/-! ## Fields -/

theorem take_givenNames (print : Nat → String) (used : List String) (js : List Json) (k : Nat) :
    givenNames print used (js.take k) = (givenNames print used js).take k := by
  induction js generalizing used k with
  | nil => simp [givenNames]
  | cons j js ih =>
      cases k with
      | zero => simp [givenNames]
      | succ k => simp [givenNames, ih]

/-- The first pool with a name is the listed one exactly if no pool before it is
given that name. -/
theorem findIdx?_listed {js : List Json} {name : String} (h : js.any (·.named name) = true) :
    ((givenNames poolPrint [] js).findIdx? (· == name) = some (js.findIdx (·.named name)) ↔
      name ∉ givenNames poolPrint [] (js.take (js.findIdx (·.named name)))) ∧
    ∃ i < js.length, (givenNames poolPrint [] js).findIdx? (· == name) = some i := by
  have hlt : js.findIdx (·.named name) < js.length :=
    List.findIdx_lt_length.mpr (by simpa using h)
  have hgiven : (givenNames poolPrint [] js)[js.findIdx (·.named name)]? = some name :=
    getElem?_givenNames [] (List.getElem?_eq_getElem hlt) (List.findIdx_getElem (w := hlt))
  constructor
  · rw [take_givenNames, List.findIdx?_eq_some_iff_getElem]
    obtain ⟨hlen, hget⟩ := List.getElem?_eq_some_iff.mp hgiven
    constructor
    · rintro ⟨_, _, hfirst⟩ hmem
      obtain ⟨k, hk, heq⟩ := List.mem_take_iff_getElem.mp hmem
      have := hfirst k (by omega)
      simp [heq] at this
    · intro hnot
      refine ⟨hlen, by simp [hget], ?_⟩
      intro k hk heq
      apply hnot
      rw [List.mem_take_iff_getElem]
      exact ⟨k, by omega, by simpa using heq⟩
  · exact exists_findIdx?_givenNames poolPrint h

theorem is_append {r : InitReplies} {own : Replies} {progress i : Nat}
    {es extra : List (String × PoolHandle)} (hi : i < es.length) (d : Designation) :
    d.Is r own progress (es ++ extra) i ↔ d.Is r own progress es i := by
  cases d <;> simp [Designation.Is, List.getElem?_append_left hi]

section

variable {r : InitReplies} {js : List Json} {abt : MargoAbt} {i : Nat}

theorem getElem?_of_handleAt {es : List (String × PoolHandle)} {k id : Nat}
    (h : handleAt es k = .obj id) : k < es.length ∧ es[k]?.map Prod.snd = some (.obj id) := by
  unfold handleAt at h
  cases hk : es[k]? with
  | none => simp [hk] at h
  | some e => exact ⟨(List.getElem?_eq_some_iff.mp hk).1, by simpa [hk] using h⟩

/-- The first pool with a name, after any additions. -/
theorem findPoolByName_append {abt' : MargoAbt} {extra : List (String × PoolHandle)}
    (hes : poolEntries abt' = poolEntries abt ++ extra) {name : String} {k : Nat}
    (h : findPoolByName abt (some name) = some k) :
    findPoolByName abt' (some name) = some k := by
  rw [findPoolByName_entries] at h ⊢
  rw [hes, List.map_append, List.findIdx?_append, h]
  rfl

theorem findPoolByName_listed (hready : Ready r js abt i) {name : String} {k : Nat}
    (h : (givenNames poolPrint [] js).findIdx? (· == name) = some k) :
    findPoolByName abt (some name) = some k := by
  obtain ⟨extra, hnames, -⟩ := hready.names
  rw [findPoolByName_entries, hnames, List.findIdx?_append, h]
  rfl

theorem getElem?_primary (hready : Ready r js abt i) :
    (poolEntries abt)[i]?.map Prod.fst = some "__primary__" := by
  have hfind := hready.primary
  rw [findPoolByName_entries] at hfind
  obtain ⟨hi, hat, -⟩ := List.findIdx?_eq_some_iff_getElem.mp hfind
  rw [← List.getElem?_map, List.getElem?_eq_getElem hi]
  simpa using hat

/-- The pool of a field is the one it names exactly if its name reaches it. -/
theorem fieldPool_iff (hready : Ready r js abt i) (hfresh : FreshPools r) {config : Json}
    {key : String} (hvalid : poolFieldValidate config key js = .ok ())
    (hpres : (config.get key).present = true) {abt' : MargoAbt}
    {extra : List (String × PoolHandle)} (hes : poolEntries abt' = poolEntries abt ++ extra)
    (own : Replies) (progress : Nat) :
    ∃ p : Nat, fieldPool abt' (config.get key) = p ∧ p < (poolEntries abt).length ∧
      ((fieldDesignation js (config.get key)).Is r own progress (poolEntries abt) p ↔
        NameReaches js (config.get key)) := by
  unfold fieldPool fieldDesignation NameReaches
  obtain ⟨hint, hpos, hlt⟩ | ⟨hint, hstring, hname⟩ := poolFieldValidate_ok hvalid hpres
  · obtain ⟨id, hid, hpool⟩ := hready.created (config.get key).getInt.toNat (by omega)
    obtain ⟨hplt, hget⟩ := getElem?_of_handleAt hpool
    refine ⟨(config.get key).getInt.toNat, ?_, hplt, ?_⟩
    · rw [if_pos hint]
      omega
    · have hnot : (config.get key).isType .string = false := by
        cases hk : config.get key <;> simp_all [Json.isType, Json.getType]
      rw [if_pos hint]
      refine iff_of_true ⟨id, hid, hget⟩ ?_
      rw [hnot]
      intro h
      cases h
  · simp only [hint, hstring, Bool.false_eq_true, if_false, true_implies]
    by_cases hprimary : (config.get key).getString = "__primary__"
    · obtain ⟨id, hpool⟩ := hready.primaryPool
      obtain ⟨hplt, -⟩ := getElem?_of_handleAt hpool
      have hfind := hready.primary
      refine ⟨i, ?_, hplt, ?_⟩
      · rw [hprimary, findPoolByName_append hes hfind]
        rfl
      · rw [if_pos hprimary]
        exact iff_of_true (getElem?_primary hready) fun hne => absurd hprimary hne
    · have hany := hname.resolve_left hprimary
      obtain ⟨hiff, k, hk, hfound⟩ := findIdx?_listed hany
      have hfind := findPoolByName_listed hready hfound
      obtain ⟨id, hid, hpool⟩ := hready.created k hk
      obtain ⟨hplt, hget⟩ := getElem?_of_handleAt hpool
      refine ⟨k, ?_, hplt, ?_⟩
      · rw [findPoolByName_append hes hfind]
        rfl
      · rw [if_neg hprimary, ← hiff, hfound]
        simp only [Designation.Is, hget, ne_eq, hprimary, not_false_eq_true, true_implies,
          Option.some.injEq, PoolHandle.obj.injEq]
        constructor
        · rintro ⟨id', hid', rfl⟩
          exact hfresh.created k _ _ hid hid'
        · rintro rfl
          exact ⟨id, hid, rfl⟩

end

/-! ## The two pools -/

section

variable {r : ExtReplies} {info : InitInfo} {config : Json} {abt : MargoAbt} {i : Nat}

theorem poolAt_entries (abt : MargoAbt) (i : Nat) :
    poolAt abt i = handleAt (poolEntries abt) i := by
  unfold poolAt handleAt poolEntries
  rw [List.getElem?_map, Option.map_map]
  rfl

theorem nameReaches_of_absent (pools : List Json) {field : Json} (h : field.present = false) :
    NameReaches pools field := by
  intro hstring
  cases field <;> simp_all [Json.present, Json.isType, Json.getType]

/-- What a field names does not depend on the progress pool. -/
theorem fieldDesignation_is {r : InitReplies} {own : Replies} {p q k : Nat}
    {es : List (String × PoolHandle)} (pools : List Json) (field : Json) :
    (fieldDesignation pools field).Is r own p es k ↔
      (fieldDesignation pools field).Is r own q es k := by
  unfold fieldDesignation
  split
  · rfl
  · split <;> rfl

/-- A pool that Argobots has not created and that is not the primary one is not
registered after the initialization. -/
theorem not_mem_of_ready (hready : Ready r.init (listedPools config) abt i) {pool : PoolHandle}
    (hother : pool ≠ handleAt (poolEntries abt) i)
    (hnew : ∀ k id, (r.init.pool k).poolCreate = some id → .obj id ≠ pool) :
    pool ∉ (poolEntries abt).map Prod.snd := by
  intro hmem
  obtain ⟨e, he, rfl⟩ := List.mem_map.mp hmem
  obtain ⟨k, id, hid, heq⟩ | hprimary := hready.known e he
  · exact hnew k id hid heq.symm
  · exact hother hprimary

/-- What the resolution of the progress pool adds. -/
def AddsProgress (r : ExtReplies) (info : InitInfo) (e : String × PoolHandle) : Prop :=
  (given info.progressPool = true ∧ e.2 = info.progressPool) ∨
    ∃ id, r.resolve.progressPool.poolCreate = some id ∧ e.2 = .obj id

theorem progressPool_iff (hs : ExtSucceeds r info)
    (hready : Ready r.init (listedPools config) abt i)
    (hvalid : poolFieldValidate config "progress_pool" (listedPools config) = .ok ())
    (hfew : abt.pools.length < 2 ^ 31) :
    ∃ abt' extra, ∃ p : Nat,
      resolveProgressPool r.resolve info config i abt = (abt', some (p : Int)) ∧
      poolEntries abt' = poolEntries abt ++ extra ∧ extra.length ≤ 1 ∧
      (∀ e ∈ extra, AddsProgress r info e) ∧ p < (poolEntries abt').length ∧
      ((progressDesignation info config).Is r.init r.resolve.progressPool p (poolEntries abt') p ↔
        (given info.progressPool = false →
          NameReaches (listedPools config) (config.get "progress_pool"))) := by
  obtain ⟨id, hprimary⟩ := hready.primaryPool
  obtain ⟨hplt, hpget⟩ := getElem?_of_handleAt hprimary
  unfold resolveProgressPool progressDesignation
  rw [poolAt_entries, hprimary]
  simp only [ne_eq, reduceCtorEq, not_false_eq_true, true_and]
  by_cases hown : info.progressPool = .obj id
  · refine ⟨abt, [], i, by rw [if_pos hown], by simp, by simp, by simp, hplt, ?_⟩
    simp [hown, given, Designation.Is, hpget]
  rw [if_neg hown]
  by_cases hgiven : given info.progressPool = true
  · have hnew : info.progressPool ∉ (poolEntries abt).map Prod.snd :=
      not_mem_of_ready hready (hprimary ▸ hown) fun k id' hid' => (hs.new k id' hid').1
    obtain ⟨abt', name, hadd, hes⟩ := useExternalPool_ok hs.progressPool hnew
    refine ⟨abt', [(name, info.progressPool)], abt.pools.length, by rw [if_pos hgiven, hadd], hes,
      by simp, ?_, ?_, ?_⟩
    · intro e he
      obtain rfl := List.mem_singleton.mp he
      exact Or.inl ⟨hgiven, rfl⟩
    · simp [hes, length_poolEntries]
    · simp [hgiven, Designation.Is, hes, ← length_poolEntries]
  rw [if_neg hgiven]
  simp only [Bool.not_eq_true] at hgiven
  simp only [hgiven, Bool.false_eq_true, if_false, true_implies]
  by_cases hpres : (config.get "progress_pool").present = true
  · have hnil : poolEntries abt = poolEntries abt ++ [] := (List.append_nil _).symm
    obtain ⟨p, hfield, hp, hiff⟩ :=
      fieldPool_iff hready hs.init.fresh hvalid hpres hnil r.resolve.progressPool 0
    refine ⟨abt, [], p, by rw [if_pos hpres, hfield], by simp, by simp, by simp, hp, ?_⟩
    rw [if_pos hpres, ← hiff]
    exact fieldDesignation_is _ _
  rw [if_neg hpres]
  have hreaches := nameReaches_of_absent (listedPools config) (by simpa using hpres)
  by_cases hthread : (config.get "use_progress_thread").getBoolean = true
  · obtain ⟨abt', name, new, hcreate, hnew, hes⟩ :=
      createServedPool_ok hs.progressPool hs.progressXstream 1 hfew
    refine ⟨abt', [(name, .obj new)], abt.pools.length, by rw [if_pos hthread, hcreate], hes,
      by simp, ?_, ?_, ?_⟩
    · intro e he
      obtain rfl := List.mem_singleton.mp he
      exact Or.inr ⟨new, hnew, rfl⟩
    · simp [hes, length_poolEntries]
    · simp [hthread, hpres, hreaches, Designation.Is, hnew, hes, ← length_poolEntries]
  · refine ⟨abt, [], i, by rw [if_neg hthread], by simp, by simp, by simp, hplt, ?_⟩
    simp [hthread, hpres, hreaches, Designation.Is, getElem?_primary hready]

theorem rpcPool_iff (hs : ExtSucceeds r info)
    (hready : Ready r.init (listedPools config) abt i)
    (hvalid : poolFieldValidate config "rpc_pool" (listedPools config) = .ok ())
    {abt₁ : MargoAbt} {extra₁ : List (String × PoolHandle)} {p : Nat}
    (hes₁ : poolEntries abt₁ = poolEntries abt ++ extra₁)
    (hadds : ∀ e ∈ extra₁, AddsProgress r info e) (hp : p < (poolEntries abt₁).length)
    (hexternal : given info.progressPool = true →
      (poolEntries abt₁)[p]?.map Prod.snd = some info.progressPool)
    (hfew : abt₁.pools.length < 2 ^ 31) :
    ∃ abt' extra, ∃ q : Nat,
      resolveRpcPool r.resolve info config i (poolAt abt i) p abt₁ = (abt', some (q : Int)) ∧
      poolEntries abt' = poolEntries abt₁ ++ extra ∧ q < (poolEntries abt').length ∧
      ((rpcDesignation info config).Is r.init r.resolve.rpcPool p (poolEntries abt') q ↔
        (given info.rpcPool = false →
          NameReaches (listedPools config) (config.get "rpc_pool"))) := by
  obtain ⟨id, hprimary⟩ := hready.primaryPool
  obtain ⟨hplt, hpget⟩ := getElem?_of_handleAt hprimary
  have hile : i < (poolEntries abt₁).length := by
    rw [hes₁, List.length_append]
    omega
  have higet : (poolEntries abt₁)[i]? = (poolEntries abt)[i]? := by
    rw [hes₁, List.getElem?_append_left hplt]
  unfold resolveRpcPool rpcDesignation
  rw [poolAt_entries, hprimary]
  simp only [ne_eq, reduceCtorEq, not_false_eq_true, true_and]
  by_cases hown : info.rpcPool = .obj id
  · refine ⟨abt₁, [], i, by rw [if_pos hown], by simp, hile, ?_⟩
    simp [hown, given, Designation.Is, higet, hpget]
  rw [if_neg hown]
  by_cases hsame : given info.progressPool = true ∧ info.rpcPool = info.progressPool
  · refine ⟨abt₁, [], p, by rw [if_pos hsame], by simp, hp, ?_⟩
    simp [hsame.2, hsame.1, Designation.Is, hexternal hsame.1]
  rw [if_neg hsame]
  by_cases hgiven : given info.rpcPool = true
  · have hold : info.rpcPool ∉ (poolEntries abt).map Prod.snd :=
      not_mem_of_ready hready (hprimary ▸ hown) fun k id' hid' => (hs.new k id' hid').2
    have hnew : info.rpcPool ∉ (poolEntries abt₁).map Prod.snd := by
      rw [hes₁, List.map_append, List.mem_append]
      rintro (hmem | hmem)
      · exact hold hmem
      · obtain ⟨e, he, heq⟩ := List.mem_map.mp hmem
        obtain ⟨hg, hprog⟩ | ⟨id', hid', hcreated⟩ := hadds e he
        · exact hsame ⟨hg, heq.symm.trans hprog⟩
        · exact hs.newProgress id' hid' (hcreated.symm.trans heq)
    obtain ⟨abt', name, hadd, hes⟩ := useExternalPool_ok hs.rpcPool hnew
    refine ⟨abt', [(name, info.rpcPool)], abt₁.pools.length, by rw [if_pos hgiven, hadd], hes,
      ?_, ?_⟩
    · simp [hes, length_poolEntries]
    · simp [hgiven, Designation.Is, hes, ← length_poolEntries]
  rw [if_neg hgiven]
  simp only [Bool.not_eq_true] at hgiven
  simp only [hgiven, Bool.false_eq_true, if_false, true_implies]
  by_cases hpres : (config.get "rpc_pool").present = true
  · obtain ⟨q, hfield, hq, hiff⟩ := fieldPool_iff hready hs.init.fresh hvalid hpres
      hes₁ r.resolve.rpcPool p
    refine ⟨abt₁, [], q, by rw [if_pos hpres, hfield], by simp, ?_, ?_⟩
    · rw [hes₁, List.length_append]
      omega
    · rw [if_pos hpres, ← hiff, hes₁, is_append hq]
  rw [if_neg hpres]
  have hreaches := nameReaches_of_absent (listedPools config) (by simpa using hpres)
  by_cases hneg : (config.get "rpc_thread_count").getInt < 0
  · refine ⟨abt₁, [], p, by rw [if_pos hneg], by simp, hp, ?_⟩
    simp [hneg, hpres, hreaches, Designation.Is]
  rw [if_neg hneg]
  by_cases hposi : 0 < (config.get "rpc_thread_count").getInt
  · obtain ⟨abt', name, new, hcreate, hnew, hes⟩ := createServedPool_ok hs.rpcPool hs.rpcXstream
      (config.get "rpc_thread_count").getInt.toNat hfew
    refine ⟨abt', [(name, .obj new)], abt₁.pools.length, by rw [if_pos hposi, hcreate], hes,
      ?_, ?_⟩
    · simp [hes, length_poolEntries]
    · simp [hneg, hposi, hpres, hreaches, Designation.Is, hnew, hes, ← length_poolEntries]
  · refine ⟨abt₁, [], i, by rw [if_neg hposi], by simp, hile, ?_⟩
    simp [hneg, hposi, hpres, hreaches, Designation.Is, higet, getElem?_primary hready]

/-- Both pools are resolved, and each is the one that is named exactly if its
name reaches it. -/
theorem resolvePools_iff (hs : ExtSucceeds r info)
    (hready : Ready r.init (listedPools config) abt i)
    (hprogress : poolFieldValidate config "progress_pool" (listedPools config) = .ok ())
    (hrpc : poolFieldValidate config "rpc_pool" (listedPools config) = .ok ())
    (hfew : (listedPools config).length + 2 < 2 ^ 31) :
    ∃ abt' p q, resolvePools r.resolve info config abt = (abt', some (p, q)) ∧
      ((progressDesignation info config).Is r.init r.resolve.progressPool p
        (poolEntries abt') p ↔ (given info.progressPool = false →
          NameReaches (listedPools config) (config.get "progress_pool"))) ∧
      ((rpcDesignation info config).Is r.init r.resolve.rpcPool p (poolEntries abt') q ↔
        (given info.rpcPool = false →
          NameReaches (listedPools config) (config.get "rpc_pool"))) := by
  have hlen : abt.pools.length ≤ (listedPools config).length + 1 := by
    obtain ⟨extra, hnames, hone⟩ := hready.names
    have := congrArg List.length hnames
    simp only [List.length_map, length_poolEntries, List.length_append,
      length_givenNames] at this
    omega
  obtain ⟨abt₁, extra₁, p, hp, hes₁, hone₁, hadds, hplt, hpiff⟩ :=
    progressPool_iff hs hready hprogress (by omega)
  have hlen₁ : abt₁.pools.length ≤ abt.pools.length + 1 := by
    have := congrArg List.length hes₁
    simp only [length_poolEntries, List.length_append] at this
    omega
  have hexternal : given info.progressPool = true →
      (poolEntries abt₁)[p]?.map Prod.snd = some info.progressPool := by
    intro hg
    have := hpiff.mpr (by simp [hg])
    simpa [progressDesignation, hg, Designation.Is] using this
  obtain ⟨abt₂, extra₂, q, hq, hes₂, hqlt, hqiff⟩ :=
    rpcPool_iff hs hready hrpc hes₁ hadds hplt hexternal (by omega)
  refine ⟨abt₂, p, q, ?_, ?_, hqiff⟩
  · have hlen₂ := congrArg List.length hes₂
    simp only [length_poolEntries, List.length_append] at hlen₂ hplt hqlt
    have hprange : inRange abt₂ p = true := by
      simp only [inRange, Bool.and_eq_true, decide_eq_true_eq]
      omega
    have hqrange : inRange abt₂ q = true := by
      simp only [inRange, Bool.and_eq_true, decide_eq_true_eq]
      omega
    simp only [resolvePools, hready.primary, hp, hq, hprange, hqrange, Bool.and_self, if_true,
      Int.toNat_natCast]
  · rw [hes₂, is_append hplt]
    exact hpiff

end

/-- Validation and initialization: if every call of Argobots and of the allocator
succeeds, a configuration that validation accepts is initialized with the pools
it names exactly if its primary xstream fits and the pools it names by name are
reached under it. -/
theorem accepted_initializes_iff {r : ExtReplies} {info : InitInfo} {config : Json}
    {hg plumber : Json → Check} (hs : ExtSucceeds r info)
    (hfew : (listedPools config).length + 2 < 2 ^ 31)
    (hv : validateJson r.init.abtInitialized hg plumber config = .ok ()) :
    Initializes r info config ↔ Fits r info config := by
  obtain ⟨habt, hprogress, hrpc⟩ := validateJson_ok hv
  have hpools : ((config.get "argobots").get "pools").items.length < 2 ^ 31 :=
    Nat.lt_of_le_of_lt (Nat.le_add_right _ 2) hfew
  constructor
  · rintro ⟨abt', p, q, hinit, hp, hq⟩
    unfold initExt at hinit
    cases hstage : Abt.abtInitFromJson r.init (config.get "argobots") with
    | none =>
        rw [hstage] at hinit
        cases hinit
    | some abt =>
        simp only [hstage] at hinit
        obtain ⟨i, hi⟩ : ∃ i, findPoolByName abt (some "__primary__") = some i := by
          cases hfind : findPoolByName abt (some "__primary__") with
          | none => simp [resolvePools, hfind] at hinit
          | some i => exact ⟨i, rfl⟩
        have hfits := fits_of_init hs.init habt hstage hi
        obtain ⟨abt₀, i₀, habt₀, hready⟩ := ready_of_fits hs.init habt hpools hfits
        obtain rfl : abt = abt₀ := Option.some.inj (hstage.symm.trans habt₀)
        obtain ⟨abt₁, p₁, q₁, hresolve, hpiff, hqiff⟩ :=
          resolvePools_iff hs hready hprogress hrpc hfew
        simp only [hresolve, Option.some.injEq, Prod.mk.injEq] at hinit
        obtain ⟨rfl, rfl, rfl⟩ := hinit
        exact ⟨hfits, hpiff.mp hp, hqiff.mp hq⟩
  · intro hfits
    obtain ⟨abt, i, hstage, hready⟩ := ready_of_fits hs.init habt hpools hfits.primary
    obtain ⟨abt', p, q, hresolve, hpiff, hqiff⟩ :=
      resolvePools_iff hs hready hprogress hrpc hfew
    refine ⟨abt', p, q, ?_, hpiff.mpr hfits.progress, hqiff.mpr hfits.rpc⟩
    simp only [initExt, hstage, hresolve]

/-- Argobots was not initialized and grants everything. -/
def extGranted : ExtReplies where
  init := initGranted
  resolve := ⟨granted 100, fun n => granted (101 + n), granted 100, fun n => granted (101 + n)⟩

theorem succeeds_granted (id : Nat) : Succeeds (granted id) where
  alloc := rfl
  realloc := rfl
  poolCreate := ⟨id, rfl⟩
  schedCreate := rfl
  xstreamCreate := ⟨id, rfl⟩
  xstreamSelf := ⟨0, rfl⟩
  setMainSched := rfl

theorem extSucceeds_granted : ExtSucceeds extGranted ⟨.null, .null⟩ where
  init :=
    { pool := fun i => succeeds_granted i
      xstream := fun i => succeeds_granted (i + 1)
      mainPools := rfl
      fresh := freshPools_initGranted
      selfPools := by
        intro h
        cases h
      selfPool := by
        intro h hmem
        cases hmem }
  progressPool := succeeds_granted 100
  progressXstream n := succeeds_granted (101 + n)
  rpcPool := succeeds_granted 100
  rpcXstream n := succeeds_granted (101 + n)
  new k id _ := by simp
  newProgress id _ := by simp

/-- A pool, named as the progress pool, and two RPC threads. -/
def namedProgress : Json :=
  .object [("argobots", .object [("pools", .array [.object [("name", .string "p")]])]),
    ("progress_pool", .string "p"), ("rpc_thread_count", .int 2)]

theorem accepted_initializes_namedProgress :
    validateJson false (fun _ => pure ()) (fun _ => pure ()) namedProgress = .ok () ∧
      Initializes extGranted ⟨.null, .null⟩ namedProgress := by
  have hv : validateJson false (fun _ => pure ()) (fun _ => pure ()) namedProgress = .ok () := rfl
  refine ⟨hv, (accepted_initializes_iff extSucceeds_granted (by decide) hv).mpr ?_⟩
  refine ⟨⟨?_, ?_⟩, ?_, ?_⟩
  · intro h
    cases h
  · intro x hx
    cases hx
  · intro _ _ _
    decide
  · intro _ h
    cases h

/-- A primary xstream on a pool that is not called `__primary__` is accepted, and
then there is no primary pool. -/
theorem accepted_without_primary_pool :
    ¬∀ (r : ExtReplies) (info : InitInfo) (config : Json) (hg plumber : Json → Check),
      ExtSucceeds r info → (listedPools config).length + 2 < 2 ^ 31 →
      validateJson r.init.abtInitialized hg plumber config = .ok () →
      Initializes r info config := by
  intro hall
  let config : Json := .object [("argobots", .object
    [("pools", .array [.object [("name", .string "p")]]),
      ("xstreams", .array [.object [("name", .string "__primary__"),
        ("scheduler", .object [("pools", .array [.string "p"])])]])])]
  obtain ⟨abt, p, q, hinit, -⟩ := hall extGranted ⟨.null, .null⟩ config (fun _ => pure ())
    (fun _ => pure ()) extSucceeds_granted (by decide) rfl
  have hfails : initExt extGranted ⟨.null, .null⟩ config = none := by decide
  rw [hfails] at hinit
  cases hinit

end Margo.Init
