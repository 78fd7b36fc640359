import Margo.Abt.Names

/-!
# Initialization of accepted configurations

What `__margo_abt_init_from_json` does with a configuration that
`__margo_abt_validate_json` has accepted, if every call of Argobots and of the
allocator succeeds: the pools and xstreams of the configuration are always
created, and the initialization fails only over the primary xstream.

## Implementation notes

A pool of the configuration is known by its position, a reference to one by the
position it resolves to.
-/

namespace Margo.Abt.Initialization

open Lib Names

/-- Every call succeeds. -/
structure Succeeds (r : Replies) : Prop where
  alloc : r.alloc = true
  realloc : r.realloc = true
  poolCreate : ∃ id, r.poolCreate = some id
  schedCreate : r.schedCreate = true
  xstreamCreate : ∃ id, r.xstreamCreate = some id
  xstreamSelf : ∃ id, r.xstreamSelf = some id
  setMainSched : r.setMainSched = true

/-- Every call of the initialization succeeds, Argobots creates new pools, and
the main scheduler of the calling xstream has pools. -/
structure InitSucceeds (r : InitReplies) : Prop where
  pool : ∀ i, Succeeds (r.pool i)
  xstream : ∀ i, Succeeds (r.xstream i)
  mainPools : r.mainPools = true
  fresh : FreshPools r
  selfPools : r.abtInitialized = true → r.selfPools ≠ []
  selfPool : ∀ h ∈ r.selfPools, ∃ id, h = .obj id

/-! ## Names given to the entries -/

/-- The names given to the entries of a configuration, after these ones. -/
def givenNames (print : Nat → String) : List String → List Json → List String
  | _, [] => []
  | used, j :: js =>
      givenName print used j :: givenNames print (used ++ [givenName print used j]) js

section

variable {print : Nat → String}

@[simp] theorem length_givenNames (used : List String) (js : List Json) :
    (givenNames print used js).length = js.length := by
  induction js generalizing used with
  | nil => rfl
  | cons j js ih => simp [givenNames, ih]

theorem givenName_of_named {name : String} {j : Json} (h : j.named name = true)
    (used : List String) : givenName print used j = name := by
  simp only [Json.named, Bool.and_eq_true, beq_iff_eq] at h
  rw [givenName, if_pos h.1, h.2]

/-- An entry gets the name it has. -/
theorem getElem?_givenNames {name : String} {j : Json} {k : Nat} (used : List String)
    {js : List Json} (hk : js[k]? = some j) (h : j.named name = true) :
    (givenNames print used js)[k]? = some name := by
  induction js generalizing used k with
  | nil => simp at hk
  | cons j' js ih =>
      cases k with
      | zero =>
          obtain rfl : j' = j := by simpa using hk
          simp [givenNames, givenName_of_named h]
      | succ k => exact ih _ (by simpa using hk)

/-- A name that an entry has is found. -/
theorem exists_findIdx?_givenNames (print : Nat → String) {name : String} {js : List Json}
    (h : js.any (·.named name) = true) :
    ∃ i < js.length, (givenNames print [] js).findIdx? (· == name) = some i := by
  obtain ⟨j, hj, hname⟩ := List.any_eq_true.mp h
  obtain ⟨k, hk⟩ := List.mem_iff_getElem?.mp hj
  have hgiven : (givenNames print [] js)[k]? = some name := getElem?_givenNames [] hk hname
  cases hfind : (givenNames print [] js).findIdx? (· == name) with
  | none =>
      have hnone := List.findIdx?_eq_none_iff.mp hfind _ (List.mem_of_getElem? hgiven)
      simp at hnone
  | some i =>
      have hi := (List.findIdx?_eq_some_iff_getElem.mp hfind).1
      exact ⟨i, by simpa using hi, rfl⟩

/-- Where a name is never generated, it is given to the entries that have it. -/
theorem map_givenNames {name : String} (hprint : ∀ used, generateUnusedName print used ≠ name)
    (used : List String) (js : List Json) :
    (givenNames print used js).map (· == name) = js.map (·.named name) := by
  induction js generalizing used with
  | nil => rfl
  | cons j js ih =>
      simp only [givenNames, List.map_cons, ih, List.cons.injEq, and_true]
      by_cases hpres : (j.get "name").present = true
      · simp [givenName, hpres, Json.named]
      · simp [givenName, hpres, Json.named, hprint]

theorem findIdx?_givenNames {name : String}
    (hprint : ∀ used, generateUnusedName print used ≠ name) (js : List Json) :
    (givenNames print [] js).findIdx? (· == name) = js.findIdx? (·.named name) := by
  have hmap := congrArg (List.findIdx? id) (map_givenNames hprint [] js)
  rw [List.findIdx?_map, List.findIdx?_map] at hmap
  exact hmap

end

theorem poolPrint_ne (used : List String) :
    generateUnusedName poolPrint used ≠ "__primary__" :=
  generateUnusedName_ne printedPool_ne used

/-! ## What validation says of the entries -/

theorem abtValidateJson_ok {b : Bool} {j : Json} (h : abtValidateJson b j = .ok ()) :
    (∀ jpool ∈ (j.get "pools").items, poolValidateJson b jpool = .ok ()) ∧
    ∀ jxstream ∈ (j.get "xstreams").items,
      xstreamValidateJson b jxstream dummyAbt (j.get "pools").items = .ok () := by
  cases j with
  | object fields =>
      unfold abtValidateJson at h
      simp only [Json.present, Json.isType, Json.getType, beq_self_eq_true, Bool.not_true,
        Bool.false_eq_true, if_false] at h
      obtain ⟨⟨⟩, -, h⟩ := bind_ok h
      obtain ⟨⟨⟩, -, h⟩ := bind_ok h
      obtain ⟨⟨⟩, -, h⟩ := bind_ok h
      obtain ⟨⟨⟩, -, h⟩ := bind_ok h
      obtain ⟨⟨⟩, -, h⟩ := bind_ok h
      obtain ⟨⟨⟩, hpools, h⟩ := bind_ok h
      obtain ⟨⟨⟩, -, h⟩ := bind_ok h
      obtain ⟨⟨⟩, hxstreams, -⟩ := bind_ok h
      exact ⟨forM_ok hpools, forM_ok hxstreams⟩
  | _ => exact ⟨by simp [Json.get, Json.items], by simp [Json.get, Json.items]⟩

/-- An optional field that passed the check of its type. -/
theorem assertConfigHasOptional_ok {config : Json} {key : String} {type : JsonType}
    {ctx : String} (h : assertConfigHasOptional config key type ctx = .ok ())
    (hpres : (config.get key).present = true) : (config.get key).isType type = true := by
  unfold assertConfigHasOptional at h
  by_contra htype
  simp only [Bool.not_eq_true] at htype
  simp only [hpres, htype, Bool.not_false, Bool.and_self, if_true] at h
  cases h

theorem configIsInEnumString_ok {config : Json} {field : String} {values : List String}
    (h : configIsInEnumString config field values = .ok ()) : config.getString ∈ values := by
  unfold configIsInEnumString at h
  split at h
  · next hmem => exact hmem
  · cases h

/-- The kind of an accepted pool is one that can be created. -/
theorem poolKindValidate_ok {j : Json} (h : poolKindValidate j = .ok ()) :
    j.getStringOr "kind" "fifo_wait" ∈ ["fifo_wait", "fifo", "prio_wait", "earliest_first"] := by
  unfold poolKindValidate at h
  obtain ⟨⟨⟩, htype, h⟩ := bind_ok h
  unfold Json.getStringOr
  by_cases hpres : (j.get "kind").present = true
  · rw [if_pos (assertConfigHasOptional_ok htype hpres)]
    rw [if_pos hpres] at h
    obtain ⟨⟨⟩, henum, h⟩ := bind_ok h
    have hmem := configIsInEnumString_ok henum
    by_cases hext : (j.get "kind").getString = "external"
    · rw [if_pos hext] at h
      cases h
    · simp only [List.mem_cons, List.not_mem_nil, or_false] at hmem ⊢
      tauto
  · have hstring : (j.get "kind").isType .string = false := by
      cases hk : j.get "kind" <;> simp_all [Json.present, Json.isType, Json.getType]
    simp [hstring]

theorem poolInitFromJson_ok {r : Replies} {b : Bool} {j : Json} (hr : Succeeds r)
    (h : poolValidateJson b j = .ok ()) (abt : MargoAbt) :
    ∃ p, poolInitFromJson r j abt = some p := by
  have hkind : j.getStringOr "kind" "fifo_wait" ∈
      ["fifo_wait", "fifo", "prio_wait", "earliest_first"] := by
    unfold poolValidateJson at h
    split at h
    · next hnull =>
        cases j <;> simp_all [Json.present, Json.isType, Json.getType, Json.getStringOr, Json.get]
    · split at h
      · cases h
      · obtain ⟨⟨⟩, -, h⟩ := bind_ok h
        obtain ⟨⟨⟩, hkind, -⟩ := bind_ok h
        exact poolKindValidate_ok hkind
  obtain ⟨id, hid⟩ := hr.poolCreate
  unfold poolInitFromJson
  simp only [hr.alloc, Bool.not_true, Bool.false_eq_true, if_false, hid, Option.map_some]
  rw [if_pos hkind]
  exact ⟨_, rfl⟩

/-- A reference that passed the check designates an entry: by its index, or by
the name of one. -/
theorem poolRefValidateJson_ok {js : List Json} {ref : Json}
    (h : poolRefValidateJson dummyAbt js ref = .ok ()) :
    (ref.isType .int = true ∧ 0 ≤ ref.getInt ∧ ref.getInt < js.length) ∨
    (ref.isType .int = false ∧ js.any (·.named ref.getString) = true) := by
  unfold poolRefValidateJson at h
  cases hint : ref.isType .int with
  | true =>
      simp only [hint, if_true] at h
      split at h
      · cases h
      · next hrange =>
          simp only [dummyAbt, List.length_nil, not_or, not_lt, not_le] at hrange
          refine Or.inl ⟨rfl, hrange.1, ?_⟩
          have := hrange.2
          push_cast at this
          omega
  | false =>
      simp only [hint, Bool.false_eq_true, if_false] at h
      split at h
      · split at h
        · next hfound =>
            refine Or.inr ⟨rfl, ?_⟩
            simpa [dummyAbt, findPoolByName, Json.named] using hfound
        · cases h
      · cases h

/-- A check that was passed. -/
theorem not_of_guard_ok {α : Type} {c : Prop} [Decidable c] {e : String} {f : α → Check}
    {x : Check} (h : (if c then throw e >>= f else x) = .ok ()) : ¬c ∧ x = .ok () := by
  split at h
  · cases h
  · next hc => exact ⟨hc, h⟩

theorem schedValidateJson_ok {jsched : Json} {js : List Json} (hpres : jsched.present = true)
    (h : schedValidateJson jsched dummyAbt js = .ok ()) :
    (jsched.get "pools").items ≠ [] ∧
    ∀ ref ∈ (jsched.get "pools").items, poolRefValidateJson dummyAbt js ref = .ok () := by
  have hrest : (do
      assertConfigHasOptional jsched "pools" .array "scheduler"
      if (jsched.get "pools").items = [] then
        throw "Argobots < 2.0 requires schedulers to have at least one pool"
      (jsched.get "pools").items.forM (poolRefValidateJson dummyAbt js) : Check) = .ok () := by
    unfold schedValidateJson at h
    simp only [hpres, Bool.not_true, Bool.false_eq_true, if_false] at h
    obtain ⟨-, h⟩ := not_of_guard_ok h
    obtain ⟨⟨⟩, -, h⟩ := bind_ok h
    split at h
    · obtain ⟨⟨⟩, -, h⟩ := bind_ok h
      exact h
    · exact h
  obtain ⟨⟨⟩, -, hrest⟩ := bind_ok hrest
  obtain ⟨hne, hrefs⟩ := not_of_guard_ok hrest
  exact ⟨hne, forM_ok hrefs⟩

theorem xstreamValidateJson_ok {b : Bool} {j : Json} {js : List Json}
    (h : xstreamValidateJson b j dummyAbt js = .ok ()) :
    ((j.get "scheduler").get "pools").items ≠ [] ∧
    (∀ ref ∈ ((j.get "scheduler").get "pools").items,
      poolRefValidateJson dummyAbt js ref = .ok ()) ∧
    (b = true → j.named "__primary__" = false) := by
  unfold xstreamValidateJson at h
  obtain ⟨-, h⟩ := not_of_guard_ok h
  obtain ⟨⟨⟩, -, h⟩ := bind_ok h
  obtain ⟨⟨⟩, -, h⟩ := bind_ok h
  obtain ⟨⟨⟩, -, h⟩ := bind_ok h
  obtain ⟨⟨⟩, hsched, h⟩ := bind_ok h
  obtain ⟨hpres, h⟩ := not_of_guard_ok h
  simp only [Bool.not_eq_true] at hpres
  obtain ⟨hne, hrefs⟩ := schedValidateJson_ok (by simpa using hpres) hsched
  refine ⟨hne, hrefs, ?_⟩
  obtain ⟨⟨⟩, -, h⟩ := bind_ok h
  rintro rfl
  by_contra hnamed
  simp only [Bool.not_eq_false, Json.named, Bool.and_eq_true, beq_iff_eq] at hnamed
  rw [if_pos hnamed.1] at h
  obtain ⟨⟨⟩, -, h⟩ := bind_ok h
  rw [if_pos hnamed.2] at h
  exact (not_of_guard_ok h).1 rfl

/-! ## Pools -/

/-- The pools of an accepted configuration are created, under the names given to
them. -/
theorem initPools_ok {r : InitReplies} {b : Bool} (hr : InitSucceeds r) {js : List Json}
    (hjs : ∀ j ∈ js, poolValidateJson b j = .ok ()) (abt : MargoAbt) :
    ∃ abt', initPools r abt js = some abt' ∧
      abt'.pools.map (·.name) =
        abt.pools.map (·.name) ++ givenNames poolPrint (abt.pools.map (·.name)) js ∧
      abt'.xstreams = abt.xstreams := by
  induction js generalizing abt with
  | nil => exact ⟨abt, rfl, by simp [givenNames], rfl⟩
  | cons j js ih =>
      obtain ⟨p, hp⟩ := poolInitFromJson_ok (hr.pool abt.pools.length)
        (hjs j List.mem_cons_self) abt
      obtain ⟨-, -, -, hname, -, -⟩ := poolInitFromJson_eq hp
      obtain ⟨abt', hrest, hnames, hxs⟩ :=
        ih (fun j' hj' => hjs j' (List.mem_cons_of_mem j hj')) (appendPool abt p)
      refine ⟨abt', ?_, ?_, hxs⟩
      · simp only [initPools, hp]
        exact hrest
      · have hgiven : p.name = givenName poolPrint (abt.pools.map (·.name)) j := hname
        rw [hnames]
        simp [appendPool, givenNames, hgiven]

theorem numbered_initPools {r : InitReplies} {js : List Json} {abt abt' : MargoAbt}
    (h : initPools r abt js = some abt') (hn : Numbered r (abt.pools.map (·.pool))) :
    Numbered r (abt'.pools.map (·.pool)) := by
  apply initPools_induction (P := fun s => Numbered r (s.pools.map (·.pool))) _ h hn
  intro j s p hs hp
  obtain ⟨id, hid, hpool, -, -, -⟩ := poolInitFromJson_eq hp
  simp only [appendPool, List.map_append, List.map_singleton, hpool]
  exact hs.append (by rwa [List.length_map])

/-! ## Xstreams -/

/-- The position of the pool that a reference designates. -/
def refIndex (names : List String) (ref : Json) : Nat :=
  if ref.isType .int then (ref.getInt % 2 ^ 32).toNat
  else (names.findIdx? (· == ref.getString)).getD names.length

/-- The handle in a list of entries. -/
def handleAt (es : List (String × PoolHandle)) (i : Nat) : PoolHandle :=
  (es[i]?.map Prod.snd).getD .null

/-- The references of an xstream to the pools of its scheduler. -/
def poolRefs (j : Json) : List Json := ((j.get "scheduler").get "pools").items

/-- The pools that the scheduler of an xstream gets. -/
def refHandles (es : List (String × PoolHandle)) (j : Json) : List PoolHandle :=
  (poolRefs j).map fun ref => handleAt es (refIndex (es.map Prod.fst) ref)

/-- Every reference of the xstream designates a pool. -/
def RefsResolve (es : List (String × PoolHandle)) (j : Json) : Prop :=
  ∀ ref ∈ poolRefs j, ∃ id, handleAt es (refIndex (es.map Prod.fst) ref) = .obj id

theorem schedPool_eq (abt : MargoAbt) (ref : Json) :
    schedPool abt ref =
      (poolEntries abt)[refIndex ((poolEntries abt).map Prod.fst) ref]?.map Prod.snd := by
  rw [poolEntries_fst]
  unfold schedPool refIndex poolEntries
  rw [List.findIdx?_map]
  simp only [List.getElem?_map, Option.map_map, List.length_map]
  rfl

theorem getInt_lt (j : Json) : j.getInt < 2 ^ 31 := by
  cases j <;> simp [Json.getInt]

/-- An accepted reference designates a pool of the configuration. -/
theorem refIndex_lt {js : List Json} {ref : Json}
    (h : poolRefValidateJson dummyAbt js ref = .ok ()) :
    refIndex (givenNames poolPrint [] js) ref < js.length := by
  unfold refIndex
  obtain ⟨hint, hpos, hlt⟩ | ⟨hint, hnamed⟩ := poolRefValidateJson_ok h
  · have hbound := getInt_lt ref
    rw [if_pos hint]
    omega
  · obtain ⟨i, hi, hfind⟩ := exists_findIdx?_givenNames poolPrint hnamed
    rw [hint, hfind]
    exact hi

theorem mapM_eq_map {α β : Type} {f : α → Option β} {g : α → β} {l : List α}
    (h : ∀ a ∈ l, f a = some (g a)) : l.mapM f = some (l.map g) := by
  induction l with
  | nil => rfl
  | cons a l ih =>
      rw [List.mapM_cons, h a List.mem_cons_self,
        ih fun b hb => h b (List.mem_cons_of_mem a hb)]
      rfl

theorem schedInitFromJson_ok {r : Replies} {j : Json} {abt : MargoAbt} (hr : Succeeds r)
    (href : RefsResolve (poolEntries abt) j) :
    ∃ type, schedInitFromJson r (j.get "scheduler") abt =
      some (type, refHandles (poolEntries abt) j) := by
  have hpools : (poolRefs j).mapM (schedPool abt) = some (refHandles (poolEntries abt) j) := by
    apply mapM_eq_map
    intro ref hmem
    obtain ⟨id, hid⟩ := href ref hmem
    rw [schedPool_eq]
    unfold handleAt at hid ⊢
    cases hentry : (poolEntries abt)[refIndex ((poolEntries abt).map Prod.fst) ref]? with
    | none => simp [hentry] at hid
    | some e => rfl
  have hscheduled : (refHandles (poolEntries abt) j).map scheduled =
      refHandles (poolEntries abt) j := by
    rw [refHandles, List.map_map]
    apply List.map_congr_left
    intro ref hmem
    obtain ⟨id, hid⟩ := href ref hmem
    simp [hid, scheduled]
  refine ⟨(j.get "scheduler").getStringOr "type" "basic_wait", ?_⟩
  unfold schedInitFromJson
  rw [show ((j.get "scheduler").get "pools").items = poolRefs j from rfl, hpools]
  simp [hr.schedCreate, hscheduled]

theorem walkPools_ok {f : Pool → Pool} (hf : ∀ p, (f p).pool = p.pool) {abt : MargoAbt}
    {hs : List PoolHandle} (h : ∀ h ∈ hs, registered abt h = true) :
    (walkPools f abt hs).2 = true := by
  induction hs generalizing abt with
  | nil => rfl
  | cons h₀ hs ih =>
      unfold walkPools
      cases hfind : findPoolByHandle abt h₀ with
      | none =>
          have := h h₀ List.mem_cons_self
          simp [registered, hfind] at this
      | some i =>
          apply ih
          intro h' hh'
          have hreg := h h' (List.mem_cons_of_mem h₀ hh')
          rw [registered_iff] at hreg ⊢
          obtain ⟨hnull, hmem⟩ := hreg
          refine ⟨hnull, ?_⟩
          have hmap := map_modify_of_eq (g := Pool.pool) hf abt.pools i
          have hin : h' ∈ (abt.pools.modify i f).map (·.pool) := by
            rw [hmap]
            exact List.mem_map.mpr hmem
          exact List.mem_map.mp hin

theorem registered_of_handleAt {abt : MargoAbt} {i id : Nat}
    (h : handleAt (poolEntries abt) i = .obj id) : registered abt (.obj id) = true := by
  rw [registered_iff]
  refine ⟨by simp, ?_⟩
  unfold handleAt poolEntries at h
  rw [List.getElem?_map] at h
  cases hp : abt.pools[i]? with
  | none => simp [hp] at h
  | some p => exact ⟨p, List.mem_of_getElem? hp, by simpa [hp, poolEntry] using h⟩

theorem countXstream_ok {b : Bool} {x : Xstream} {pools : List PoolHandle} {abt : MargoAbt}
    (h : ∀ h ∈ pools, registered abt h = true) :
    ∃ abt', countXstream b x pools abt = (abt', some x) := by
  have hok := walkPools_ok (countUse_pool b) h
  unfold countXstream
  rcases hwalk : walkPools (countUse b) abt pools with ⟨abt', ok⟩
  rw [hwalk] at hok
  obtain rfl : ok = true := hok
  exact ⟨abt', rfl⟩

/-- An xstream whose references resolve is created, with these pools. -/
theorem xstreamInitFromJson_ok {r : Replies} {j : Json} {abt : MargoAbt} (hr : Succeeds r)
    (href : RefsResolve (poolEntries abt) j) :
    ∃ abt' x, xstreamInitFromJson r j abt = (abt', some x) ∧
      mainPools x.xstream = refHandles (poolEntries abt) j := by
  obtain ⟨type, hsched⟩ := schedInitFromJson_ok hr href
  have hreg : ∀ h ∈ refHandles (poolEntries abt) j, registered abt h = true := by
    intro h hmem
    obtain ⟨ref, hin, rfl⟩ := List.mem_map.mp hmem
    obtain ⟨id, hid⟩ := href ref hin
    rw [hid]
    exact registered_of_handleAt hid
  obtain ⟨created, hcreate⟩ := hr.xstreamCreate
  obtain ⟨self, hself⟩ := hr.xstreamSelf
  unfold xstreamInitFromJson
  simp only [hr.alloc, hsched, hcreate, hself, hr.setMainSched, Bool.not_true,
    Bool.false_eq_true, if_false, if_true]
  split
  · obtain ⟨abt', hcount⟩ := countXstream_ok (b := false)
      (x := ⟨xstreamJsonName j abt, .obj created (refHandles (poolEntries abt) j), type, 0, true⟩)
      hreg
    exact ⟨abt', _, hcount, rfl⟩
  · obtain ⟨abt', hcount⟩ := countXstream_ok (b := true)
      (x := ⟨xstreamJsonName j abt, .obj self (refHandles (poolEntries abt) j), type, 0, false⟩)
      hreg
    exact ⟨abt', _, hcount, rfl⟩

theorem initXstream_ok {r : InitReplies} {j : Json} {abt : MargoAbt} (hr : InitSucceeds r)
    (href : RefsResolve (poolEntries abt) j) :
    ∃ abt' x, initXstream r j abt = some abt' ∧ poolEntries abt' = poolEntries abt ∧
      abt'.xstreams = abt.xstreams ++ [x] ∧ x.name = xstreamJsonName j abt ∧
      mainPools x.xstream = refHandles (poolEntries abt) j := by
  obtain ⟨abt', x, hinit, hpools⟩ := xstreamInitFromJson_ok (hr.xstream abt.xstreams.length) href
  obtain ⟨hstatic, hxs, hentry⟩ := xstreamInitFromJson_entries hinit
  refine ⟨appendXstream abt' x, x, ?_, ?_, ?_, (hentry x rfl).1, hpools⟩
  · simp [initXstream, hinit]
  · exact poolEntries_of_static hstatic
  · rw [appendXstream, hxs]

/-- What an xstream has of its configuration: whether it is the primary one, and
its pools. -/
def Matches (es : List (String × PoolHandle)) (j : Json) (x : Xstream) : Prop :=
  (x.name == "__primary__") = j.named "__primary__" ∧ mainPools x.xstream = refHandles es j

theorem xstreamJsonName_primary (j : Json) (abt : MargoAbt) :
    (xstreamJsonName j abt == "__primary__") = j.named "__primary__" := by
  unfold xstreamJsonName Json.named
  by_cases hpres : (j.get "name").present = true
  · simp [hpres]
  · have hne := generateUnusedXstreamName_ne abt
    simp [hpres, hne]

/-- The xstreams of an accepted configuration are created. -/
theorem initXstreams_ok {r : InitReplies} {es : List (String × PoolHandle)}
    (hr : InitSucceeds r) {js : List Json} (href : ∀ j ∈ js, RefsResolve es j)
    {abt : MargoAbt} (hes : poolEntries abt = es) :
    ∃ abt' xs, initXstreams r abt js = some abt' ∧ poolEntries abt' = es ∧
      abt'.xstreams = abt.xstreams ++ xs ∧ List.Forall₂ (Matches es) js xs := by
  induction js generalizing abt with
  | nil => exact ⟨abt, [], rfl, hes, by simp, .nil⟩
  | cons j js ih =>
      have hrefs : RefsResolve (poolEntries abt) j := by
        rw [hes]
        exact href j List.mem_cons_self
      obtain ⟨abt₁, x, hinit, hpools, hxs, hname, hmain⟩ := initXstream_ok hr hrefs
      obtain ⟨abt', xs, hrest, hes', hxs', hmatch⟩ :=
        ih (fun j' hj' => href j' (List.mem_cons_of_mem j hj')) (hpools.trans hes)
      refine ⟨abt', x :: xs, ?_, hes', ?_, .cons ⟨?_, ?_⟩ hmatch⟩
      · simp only [initXstreams, hinit]
        exact hrest
      · rw [hxs', hxs, List.append_assoc]
        rfl
      · rw [hname]
        exact xstreamJsonName_primary j abt
      · rw [hmain, hes]

/-! ## The primary pool and xstream -/

/-- The first pool of an xstream is the first one called `__primary__`. -/
def LeadsPrimary (js : List Json) (x : Json) : Prop :=
  ∀ ref ∈ (poolRefs x).head?,
    if ref.isType .int then js.findIdx? (·.named "__primary__") = some ref.getInt.toNat
    else ref.getString = "__primary__"

/-- The condition on the primary xstream: if Argobots was initialized before, the
calling xstream has one pool only; if the configuration has a primary xstream,
its first pool is the one called `__primary__`. -/
structure PrimaryFits (r : InitReplies) (j : Json) : Prop where
  self : r.abtInitialized = true → ∀ h ∈ r.selfPools, h = r.selfPools.headD .poolNull
  configured : ∀ x ∈ (j.get "xstreams").items.reverse.find? (·.named "__primary__"),
    LeadsPrimary (j.get "pools").items x

/-- The environment in which the pools are resolved: the pools of the
configuration, and a primary pool at position `primary`. -/
structure Ready (r : InitReplies) (js : List Json) (abt : MargoAbt) (primary : Nat) : Prop where
  names : ∃ extra, (poolEntries abt).map Prod.fst = givenNames poolPrint [] js ++ extra ∧
    extra.length ≤ 1
  created : ∀ k < js.length, ∃ id, (r.pool k).poolCreate = some id ∧
    handleAt (poolEntries abt) k = .obj id
  known : ∀ e ∈ poolEntries abt, (∃ k id, (r.pool k).poolCreate = some id ∧ e.2 = .obj id) ∨
    e.2 = handleAt (poolEntries abt) primary
  primaryPool : ∃ id, handleAt (poolEntries abt) primary = .obj id
  primary : findPoolByName abt (some "__primary__") = some primary

/-- The environment after the pools and xstreams of an accepted configuration. -/
structure Configured (r : InitReplies) (j : Json) (abt : MargoAbt) : Prop where
  names : (poolEntries abt).map Prod.fst = givenNames poolPrint [] (j.get "pools").items
  numbered : Numbered r ((poolEntries abt).map Prod.snd)
  xstreams : List.Forall₂ (Matches (poolEntries abt)) (j.get "xstreams").items abt.xstreams

theorem handleAt_numbered {r : InitReplies} {es : List (String × PoolHandle)}
    (hn : Numbered r (es.map Prod.snd)) {k : Nat} (hk : k < es.length) :
    ∃ id, (r.pool k).poolCreate = some id ∧ handleAt es k = .obj id := by
  have hget : (es.map Prod.snd)[k]? = some (handleAt es k) := by
    simp [handleAt, List.getElem?_eq_getElem hk]
  obtain ⟨id, hid, heq⟩ := hn k _ hget
  exact ⟨id, hid, heq⟩

/-- The first two stages of the initialization of an accepted configuration. -/
theorem configured_of_valid {r : InitReplies} {j : Json} (hr : InitSucceeds r)
    (hv : abtValidateJson r.abtInitialized j = .ok ()) :
    ∃ abt₁ abt₂,
      initPools r ⟨[], (j.get "pools").items.length + 3, [],
        (j.get "xstreams").items.length + 1⟩ (j.get "pools").items = some abt₁ ∧
      initXstreams r abt₁ (j.get "xstreams").items = some abt₂ ∧ Configured r j abt₂ := by
  obtain ⟨hpools, hxstreams⟩ := abtValidateJson_ok hv
  obtain ⟨abt₁, hinit, hnames, hnil⟩ := initPools_ok hr hpools
    ⟨[], (j.get "pools").items.length + 3, [], (j.get "xstreams").items.length + 1⟩
  have hnumbered : Numbered r ((poolEntries abt₁).map Prod.snd) := by
    rw [poolEntries_snd]
    apply numbered_initPools hinit
    intro k h hk
    simp at hk
  have hfst : (poolEntries abt₁).map Prod.fst =
      givenNames poolPrint [] (j.get "pools").items := by
    rw [poolEntries_fst, hnames]
    rfl
  have hlen : (poolEntries abt₁).length = (j.get "pools").items.length := by
    simpa using congrArg List.length hfst
  have href : ∀ x ∈ (j.get "xstreams").items, RefsResolve (poolEntries abt₁) x := by
    intro x hx ref hmem
    obtain ⟨-, hrefs, -⟩ := xstreamValidateJson_ok (hxstreams x hx)
    have hlt := refIndex_lt (hrefs ref hmem)
    rw [← hlen] at hlt
    rw [hfst]
    obtain ⟨id, -, hid⟩ := handleAt_numbered hnumbered hlt
    exact ⟨id, hid⟩
  obtain ⟨abt₂, xs, hinit₂, hes, hxs, hmatch⟩ := initXstreams_ok hr href rfl
  refine ⟨abt₁, abt₂, hinit, hinit₂, ?_, ?_, ?_⟩
  · rw [hes, hfst]
  · rw [hes]
    exact hnumbered
  · rw [hes, hxs, hnil]
    exact hmatch

theorem findPoolByName_entries (abt : MargoAbt) (name : String) :
    findPoolByName abt (some name) =
      ((poolEntries abt).map Prod.fst).findIdx? (· == name) := by
  rw [poolEntries_fst, List.findIdx?_map]
  rfl

theorem Configured.length {r : InitReplies} {j : Json} {abt : MargoAbt}
    (hc : Configured r j abt) : (poolEntries abt).length = (j.get "pools").items.length := by
  simpa using congrArg List.length hc.names

theorem Configured.find_primary {r : InitReplies} {j : Json} {abt : MargoAbt}
    (hc : Configured r j abt) :
    findPoolByName abt (some "__primary__") =
      (j.get "pools").items.findIdx? (·.named "__primary__") := by
  rw [findPoolByName_entries, hc.names]
  exact findIdx?_givenNames poolPrint_ne _

/-- A pool of the configuration is found under its handle. -/
theorem Configured.find_handle {r : InitReplies} {j : Json} {abt : MargoAbt}
    (hr : InitSucceeds r) (hc : Configured r j abt) {k : Nat} (hk : k < (poolEntries abt).length) :
    findPoolByHandle abt (handleAt (poolEntries abt) k) = some k := by
  obtain ⟨id, -, hid⟩ := handleAt_numbered hc.numbered hk
  have hnodup : (abt.pools.map (·.pool)).Nodup := by
    rw [← poolEntries_snd]
    exact hc.numbered.nodup hr.fresh
  have hlt : k < abt.pools.length := by simpa [poolEntries] using hk
  have hp : abt.pools[k]? = some abt.pools[k] := List.getElem?_eq_getElem hlt
  have heq : handleAt (poolEntries abt) k = abt.pools[k].pool := by
    simp [handleAt, poolEntries, hp, poolEntry]
  rw [findPoolByHandle, if_neg (by simp [hid]), heq]
  exact findIdx?_of_nodup hnodup hp

/-- The first pool of an xstream of the configuration. -/
theorem Matches.head {x : Json} {y : Xstream} {abt : MargoAbt}
    (hm : Matches (poolEntries abt) x y) {ref : Json} (href : (poolRefs x).head? = some ref) :
    (mainPools y.xstream).headD .poolNull =
      handleAt (poolEntries abt) (refIndex ((poolEntries abt).map Prod.fst) ref) := by
  rw [hm.2, refHandles, List.headD_eq_head?_getD, List.head?_map, href]
  rfl

/-- The position of the first pool of the primary xstream is that of the first
pool called `__primary__`. -/
theorem leadsPrimary_iff {js : List Json} {x ref : Json}
    (hvalid : poolRefValidateJson dummyAbt js ref = .ok ())
    (href : (poolRefs x).head? = some ref) :
    LeadsPrimary js x ↔
      js.findIdx? (·.named "__primary__") = some (refIndex (givenNames poolPrint [] js) ref) := by
  unfold LeadsPrimary refIndex
  simp only [href, Option.mem_some_iff, forall_eq']
  obtain ⟨hint, hpos, -⟩ | ⟨hint, hnamed⟩ := poolRefValidateJson_ok hvalid
  · have hbound := getInt_lt ref
    have hmod : ref.getInt % 2 ^ 32 = ref.getInt := Int.emod_eq_of_lt hpos (by omega)
    simp only [hint, if_true, hmod]
  · simp only [hint, Bool.false_eq_true, if_false]
    rw [← findIdx?_givenNames poolPrint_ne]
    obtain ⟨i, -, hfind⟩ := exists_findIdx?_givenNames poolPrint hnamed
    rw [hfind]
    constructor
    · intro heq
      rw [← heq, hfind]
      rfl
    · intro hprimary
      obtain ⟨hi, hgot, -⟩ := List.findIdx?_eq_some_iff_getElem.mp hfind
      obtain ⟨hi', hgot', -⟩ := List.findIdx?_eq_some_iff_getElem.mp hprimary
      simp only [Option.getD_some, beq_iff_eq] at hgot hgot'
      exact hgot.symm.trans hgot'

theorem checkPrimary_iff {r : InitReplies} {j x : Json} {y : Xstream} {abt : MargoAbt}
    (hr : InitSucceeds r) (hc : Configured r j abt) (hm : Matches (poolEntries abt) x y)
    (hvalid : xstreamValidateJson r.abtInitialized x dummyAbt (j.get "pools").items = .ok ()) :
    (checkPrimary r y abt = some abt ∧ ∃ i, findPoolByName abt (some "__primary__") = some i) ↔
      LeadsPrimary (j.get "pools").items x := by
  obtain ⟨hne, hrefs, -⟩ := xstreamValidateJson_ok hvalid
  obtain ⟨ref, href⟩ : ∃ ref, (poolRefs x).head? = some ref := by
    cases hp : poolRefs x with
    | nil => exact absurd hp hne
    | cons ref rest => exact ⟨ref, rfl⟩
  have hok := hrefs ref (List.mem_of_mem_head? href)
  have hlt := refIndex_lt hok
  rw [← hc.length] at hlt
  have hfirst : findPoolByHandle abt ((mainPools y.xstream).headD .poolNull) =
      some (refIndex (givenNames poolPrint [] (j.get "pools").items) ref) := by
    rw [hm.head href, hc.names]
    exact hc.find_handle hr hlt
  rw [leadsPrimary_iff hok href, ← hc.find_primary]
  unfold checkPrimary
  simp only [hr.mainPools, Bool.not_true, Bool.false_eq_true, if_false, hfirst]
  cases hfind : findPoolByName abt (some "__primary__") with
  | none => simp
  | some i =>
      simp only [Option.some.injEq, exists_eq', and_true]
      by_cases heq : refIndex (givenNames poolPrint [] (j.get "pools").items) ref = i
      · simp [heq]
      · simp [heq, Ne.symm heq]

/-- Searching two lists that match entry by entry. -/
theorem find?_forall₂ {α β : Type*} {R : α → β → Prop} {p : α → Bool} {q : β → Bool}
    (hR : ∀ a b, R a b → q b = p a) {l : List α} {m : List β} (h : List.Forall₂ R l m) :
    (l.find? p = none ∧ m.find? q = none) ∨
    ∃ a b, l.find? p = some a ∧ m.find? q = some b ∧ R a b := by
  induction h with
  | nil => exact Or.inl ⟨rfl, rfl⟩
  | @cons a b l m hab _ ih =>
      cases hp : p a with
      | true => exact Or.inr ⟨a, b, by simp [hp], by simp [hR a b hab, hp], hab⟩
      | false => simpa [hp, hR a b hab] using ih

/-- The last stage, if the configuration has a primary xstream. -/
theorem abtInitFromJson_configured {r : InitReplies} {j : Json} {abt₁ abt₂ : MargoAbt}
    (hpools : initPools r ⟨[], (j.get "pools").items.length + 3, [],
      (j.get "xstreams").items.length + 1⟩ (j.get "pools").items = some abt₁)
    (hxs : initXstreams r abt₁ (j.get "xstreams").items = some abt₂)
    (hc : Configured r j abt₂) :
    ((j.get "xstreams").items.reverse.find? (·.named "__primary__") = none ∧
      abtInitFromJson r j =
        if r.abtInitialized then initPrimaryExternal r abt₂ else initPrimary r abt₂) ∨
    ∃ x y, (j.get "xstreams").items.reverse.find? (·.named "__primary__") = some x ∧
      Matches (poolEntries abt₂) x y ∧ abtInitFromJson r j = checkPrimary r y abt₂ := by
  have hmatch : ∀ a b, Matches (poolEntries abt₂) a b →
      (b.name == "__primary__") = a.named "__primary__" := fun a b h => h.1
  have hrev := List.forall₂_reverse_iff.mpr hc.xstreams
  obtain ⟨hx, hy⟩ | ⟨x, y, hx, hy, hxy⟩ :=
    find?_forall₂ (p := (·.named "__primary__")) (q := fun x => x.name == "__primary__")
      hmatch hrev
  · have hnone : findXstreamByName abt₂ (some "__primary__") = none := by
      simpa [findXstreamByName] using hy
    refine Or.inl ⟨hx, ?_⟩
    simp only [abtInitFromJson, hpools, hxs, Option.bind_eq_bind, Option.bind_some, hnone]
  · have hsome : (findXstreamByName abt₂ (some "__primary__")).isSome = true := by
      have hmem := List.mem_of_find?_eq_some hy
      have hname := List.find?_some hy
      rw [findXstreamByName, List.findIdx?_isSome, List.any_eq_true]
      exact ⟨y, List.mem_reverse.mp hmem, hname⟩
    obtain ⟨i, hi⟩ := Option.isSome_iff_exists.mp hsome
    refine Or.inr ⟨x, y, hx, hxy, ?_⟩
    simp only [abtInitFromJson, hpools, hxs, Option.bind_eq_bind, Option.bind_some, hi, hy]

section

variable {r : InitReplies} {j : Json} {abt abt' : MargoAbt}

theorem Configured.self_not_mem (hr : InitSucceeds r) (hc : Configured r j abt)
    {h : PoolHandle} (hh : h ∈ r.selfPools) : h ∉ (poolEntries abt).map Prod.snd := by
  intro hmem
  obtain ⟨k, hk⟩ := List.mem_iff_getElem?.mp hmem
  obtain ⟨id, hid, rfl⟩ := hc.numbered k h hk
  exact hr.fresh.self k id hid hh

theorem poolEntries_appendPool (abt : MargoAbt) (p : Pool) :
    poolEntries (appendPool abt p) = poolEntries abt ++ [(p.name, p.pool)] := by
  simp [poolEntries, appendPool, poolEntry]

/-- If Argobots was initialized before, the initialization succeeds exactly if
the calling xstream has one pool only. -/
theorem initPrimaryExternal_iff (hr : InitSucceeds r) (hc : Configured r j abt) :
    (∃ abt', initPrimaryExternal r abt = some abt') ↔
      ∀ h ∈ r.selfPools, h = r.selfPools.headD .poolNull := by
  have hreg : ∀ h ∈ r.selfPools,
      registered (appendPool abt (poolInitExternal (some "__primary__")
        (r.selfPools.headD .poolNull) abt)) h = true ↔ h = r.selfPools.headD .poolNull := by
    intro h hh
    obtain ⟨id, rfl⟩ := hr.selfPool h hh
    have hnot := hc.self_not_mem hr hh
    rw [poolEntries_snd, List.mem_map] at hnot
    rw [registered_iff]
    simp only [appendPool, List.mem_append, List.mem_singleton, ne_eq, reduceCtorEq,
      not_false_eq_true, true_and]
    constructor
    · rintro ⟨p, hp | rfl, hpool⟩
      · exact absurd ⟨p, hp, hpool⟩ hnot
      · exact hpool.symm
    · intro heq
      exact ⟨_, Or.inr rfl, heq.symm⟩
  simp only [initPrimaryExternal, xstreamInitExternal]
  constructor
  · rintro ⟨abt', h⟩ p hp
    split at h
    · next hinit =>
        split at hinit
        · cases hinit
        · next hall =>
            simp only [List.any_eq_true, not_exists, not_and, Option.isNone_iff_eq_none] at hall
            apply (hreg p hp).mp
            exact Option.isSome_iff_ne_none.mpr (hall p hp)
    · cases h
  · intro hall
    have hall' : ∀ h ∈ r.selfPools, registered (appendPool abt
        (poolInitExternal (some "__primary__") (r.selfPools.headD .poolNull) abt)) h = true :=
      fun h hh => (hreg h hh).mpr (hall h hh)
    have hany : (r.selfPools.any fun p => (findPoolByHandle (appendPool abt
        (poolInitExternal (some "__primary__") (r.selfPools.headD .poolNull) abt)) p).isNone) =
        false := by
      rw [List.any_eq_false]
      intro h hh hnone
      have hsome := hall' h hh
      rw [registered, Option.isNone_iff_eq_none.mp hnone] at hsome
      cases hsome
    obtain ⟨abt₁, hcount⟩ := countXstream_ok (b := true)
      (x := ⟨"__primary__", .obj r.self r.selfPools, "external", 0, false⟩) hall'
    refine ⟨appendXstream abt₁ ⟨"__primary__", .obj r.self r.selfPools, "external", 0, false⟩, ?_⟩
    simp only [hany, Bool.false_eq_true, if_false, Option.map_some, beq_self_eq_true, hcount]

theorem initPrimaryExternal_entries (h : initPrimaryExternal r abt = some abt') :
    poolEntries abt' = poolEntries abt ++ [("__primary__", r.selfPools.headD .poolNull)] := by
  simp only [initPrimaryExternal] at h
  split at h
  · next abt₁ x hinit =>
      obtain rfl := Option.some.inj h
      have hstatic := (xstreamInitExternal_entries hinit).1
      calc
        poolEntries (appendXstream abt₁ x) = poolEntries abt₁ := rfl
        _ = _ := poolEntries_of_static hstatic
        _ = _ := poolEntries_appendPool abt _
  · cases h

theorem refIndex_int {i : Nat} (hi : i < 2 ^ 31) (names : List String) :
    refIndex names (.int i) = i := by
  have hget : (Json.int i).getInt = i := by
    simp only [Json.getInt]
    omega
  have hmod : (i : Int) % 2 ^ 32 = i := Int.emod_eq_of_lt (by omega) (by omega)
  simp only [refIndex, Json.isType, Json.getType, beq_self_eq_true, if_true, hget, hmod]
  exact Int.toNat_natCast i

/-- The xstream that runs one pool. -/
theorem refsResolve_single {es : List (String × PoolHandle)} {fields : List (String × Json)}
    {i : Nat} (hi : i < 2 ^ 31)
    (hrefs : poolRefs (.object fields) = [.int i]) {id : Nat} (hid : handleAt es i = .obj id) :
    RefsResolve es (.object fields) := by
  intro ref hmem
  rw [hrefs, List.mem_singleton] at hmem
  subst hmem
  rw [refIndex_int hi]
  exact ⟨id, hid⟩

/-- The entries once there is a primary pool at position `i`: those of the
configuration, and a new one if none of them is called `__primary__`. -/
def HasPrimaryPool (r : InitReplies) (es es' : List (String × PoolHandle)) (i : Nat) : Prop :=
  ((es.map Prod.fst).findIdx? (· == "__primary__") = some i ∧ es' = es) ∨
  ((es.map Prod.fst).findIdx? (· == "__primary__") = none ∧ i = es.length ∧
    ∃ id, (r.pool es.length).poolCreate = some id ∧ es' = es ++ [("__primary__", .obj id)])

theorem HasPrimaryPool.handle {es es' : List (String × PoolHandle)} {i : Nat}
    (hn : Numbered r (es.map Prod.snd)) (h : HasPrimaryPool r es es' i) :
    i ≤ es.length ∧ ∃ id, (r.pool i).poolCreate = some id ∧ handleAt es' i = .obj id := by
  obtain ⟨hfind, rfl⟩ | ⟨-, rfl, id, hid, rfl⟩ := h
  · have hlt : i < es'.length := by
      simpa using (List.findIdx?_eq_some_iff_getElem.mp hfind).1
    exact ⟨Nat.le_of_lt hlt, handleAt_numbered hn hlt⟩
  · exact ⟨Nat.le_refl _, id, hid, by simp [handleAt]⟩

theorem initPrimaryPool_ok (hr : InitSucceeds r) (abt : MargoAbt) :
    ∃ abt' i, initPrimaryPool r abt = some (abt', i) ∧
      HasPrimaryPool r (poolEntries abt) (poolEntries abt') i := by
  have hfind := findPoolByName_entries abt "__primary__"
  unfold initPrimaryPool
  cases hp : findPoolByName abt (some "__primary__") with
  | some i =>
      rw [hp] at hfind
      exact ⟨abt, i, rfl, Or.inl ⟨hfind.symm, rfl⟩⟩
  | none =>
      rw [hp] at hfind
      obtain ⟨p, hinit⟩ := poolInitFromJson_ok (b := false) (hr.pool abt.pools.length)
        (j := .object [("name", .string "__primary__"), ("access", .string "mpmc")]) rfl abt
      obtain ⟨id, hid, hpool, hname, -, -⟩ := poolInitFromJson_eq hinit
      have hlen : abt.pools.length = (poolEntries abt).length := by simp [poolEntries]
      refine ⟨appendPool abt p, abt.pools.length, by rw [hinit]; rfl, Or.inr ⟨hfind.symm, hlen,
        id, by rw [← hlen, hid], ?_⟩⟩
      rw [poolEntries_appendPool, hpool, hname]
      rfl

/-- If Margo initializes Argobots, the primary xstream is created on the primary
pool, which is created if the configuration has none. -/
theorem initPrimary_ok (hr : InitSucceeds r) (hc : Configured r j abt)
    (hfew : (j.get "pools").items.length < 2 ^ 31) :
    ∃ abt' i, initPrimary r abt = some abt' ∧
      HasPrimaryPool r (poolEntries abt) (poolEntries abt') i := by
  obtain ⟨abt₁, i, hpool, hhas⟩ := initPrimaryPool_ok hr abt
  obtain ⟨hle, id, -, hid⟩ := hhas.handle hc.numbered
  have hflag : poolEntries { abt₁ with
      pools := abt₁.pools.modify i fun p => { p with margoFreeFlag := false } } =
      poolEntries abt₁ := by
    rw [poolEntries, map_modify_of_eq (by intro; rfl)]
    rfl
  rw [hc.length] at hle
  have hrefs : RefsResolve (poolEntries abt₁) (.object [("name", .string "__primary__"),
      ("scheduler", .object [("pools", .array [.int i])])]) :=
    refsResolve_single (by omega) rfl hid
  rw [← hflag] at hrefs
  obtain ⟨abt', x, hinit, hentries, -⟩ := initXstream_ok (r := r) hr hrefs
  refine ⟨abt', i, ?_, ?_⟩
  · simp only [initPrimary, hpool, hinit]
  · rw [hentries, hflag]
    exact hhas

/-! ## Accepted configurations -/

theorem handleAt_append {es extra : List (String × PoolHandle)} {k : Nat} (hk : k < es.length) :
    handleAt (es ++ extra) k = handleAt es k := by
  rw [handleAt, List.getElem?_append_left hk]
  rfl

theorem ready_of_entries (hc : Configured r j abt) {extra : List (String × PoolHandle)}
    {i id : Nat} (hes : poolEntries abt' = poolEntries abt ++ extra) (hone : extra.length ≤ 1)
    (hextra : ∀ e ∈ extra, (∃ k id, (r.pool k).poolCreate = some id ∧ e.2 = .obj id) ∨
      e.2 = handleAt (poolEntries abt') i)
    (hpool : handleAt (poolEntries abt') i = .obj id)
    (hfind : ((poolEntries abt').map Prod.fst).findIdx? (· == "__primary__") = some i) :
    Ready r (j.get "pools").items abt' i where
  names := ⟨extra.map Prod.fst, by rw [hes, List.map_append, hc.names], by simpa using hone⟩
  created k hk := by
    have hlt : k < (poolEntries abt).length := by rwa [hc.length]
    rw [hes, handleAt_append hlt]
    exact handleAt_numbered hc.numbered hlt
  known e he := by
    rw [hes, List.mem_append] at he
    obtain he | he := he
    · obtain ⟨k, hk⟩ := List.mem_iff_getElem?.mp (List.mem_map_of_mem (f := Prod.snd) he)
      obtain ⟨id, hid, heq⟩ := hc.numbered k _ hk
      exact Or.inl ⟨k, id, hid, heq⟩
    · exact hextra e he
  primaryPool := ⟨id, hpool⟩
  primary := by rw [findPoolByName_entries, hfind]

theorem ready_of_hasPrimaryPool (hc : Configured r j abt) {i : Nat}
    (h : HasPrimaryPool r (poolEntries abt) (poolEntries abt') i) :
    Ready r (j.get "pools").items abt' i := by
  obtain ⟨-, id, -, hpool⟩ := h.handle hc.numbered
  obtain ⟨hfind, hes⟩ | ⟨hnone, rfl, id', hid', hes⟩ := h
  · have hnil : poolEntries abt' = poolEntries abt ++ [] := by rw [hes, List.append_nil]
    apply ready_of_entries hc hnil (by simp) (by simp) hpool
    rw [hes, hfind]
  · apply ready_of_entries hc hes (by simp) _ hpool
    · rw [hes, List.map_append, List.findIdx?_append, hnone]
      simp
    · intro e he
      obtain rfl := List.mem_singleton.mp he
      exact Or.inl ⟨_, id', hid', rfl⟩

theorem ready_of_external (hr : InitSucceeds r)
    (hv : abtValidateJson true j = .ok ()) (hinit : r.abtInitialized = true)
    (hc : Configured r j abt) (h : initPrimaryExternal r abt = some abt') :
    Ready r (j.get "pools").items abt' (poolEntries abt).length := by
  have hes := initPrimaryExternal_entries h
  obtain ⟨head, rest, hself⟩ := List.exists_cons_of_ne_nil (hr.selfPools hinit)
  obtain ⟨id, hid⟩ := hr.selfPool head (by simp [hself])
  have hpool : handleAt (poolEntries abt') (poolEntries abt).length = .obj id := by
    rw [hes, hself]
    simp [handleAt, hid]
  have hnone : ((poolEntries abt).map Prod.fst).findIdx? (· == "__primary__") = none := by
    rw [hc.names, findIdx?_givenNames poolPrint_ne, List.findIdx?_eq_none_iff]
    intro jpool hmem
    by_contra hnamed
    simp only [Bool.not_eq_false, Json.named, Bool.and_eq_true, beq_iff_eq] at hnamed
    exact abtValidateJson_ne hv hmem hnamed.1 hnamed.2
  apply ready_of_entries hc hes (by simp) _ hpool
  · rw [hes, List.map_append, List.findIdx?_append, hnone]
    simp
  · intro e he
    obtain rfl := List.mem_singleton.mp he
    refine Or.inr ?_
    rw [hpool, hself, ← hid]
    rfl

/-- An accepted configuration whose primary xstream fits is initialized. -/
theorem ready_of_fits (hr : InitSucceeds r) (hv : abtValidateJson r.abtInitialized j = .ok ())
    (hfew : (j.get "pools").items.length < 2 ^ 31) (hfits : PrimaryFits r j) :
    ∃ abt i, abtInitFromJson r j = some abt ∧ Ready r (j.get "pools").items abt i := by
  obtain ⟨abt₁, abt₂, hpools, hxs, hc⟩ := configured_of_valid hr hv
  obtain ⟨-, hstage⟩ | ⟨x, y, hx, hm, hstage⟩ := abtInitFromJson_configured hpools hxs hc
  · cases hinit : r.abtInitialized with
    | true =>
        obtain ⟨abt, habt⟩ := (initPrimaryExternal_iff hr hc).mpr (hfits.self hinit)
        rw [hinit, if_pos rfl] at hstage
        rw [hinit] at hv
        exact ⟨abt, _, hstage.trans habt, ready_of_external hr hv hinit hc habt⟩
    | false =>
        obtain ⟨abt, i, habt, hhas⟩ := initPrimary_ok hr hc hfew
        rw [hinit, if_neg (by simp)] at hstage
        exact ⟨abt, i, hstage.trans habt, ready_of_hasPrimaryPool hc hhas⟩
  · have hmem : x ∈ (j.get "xstreams").items :=
      List.mem_reverse.mp (List.mem_of_find?_eq_some hx)
    have hvalid := (abtValidateJson_ok hv).2 x hmem
    obtain ⟨hcheck, i, hi⟩ := (checkPrimary_iff hr hc hm hvalid).mpr (hfits.configured x hx)
    refine ⟨abt₂, i, hstage.trans hcheck, ready_of_hasPrimaryPool hc (Or.inl ⟨?_, rfl⟩)⟩
    rw [← findPoolByName_entries, hi]

/-- If a configuration is initialized and there is a primary pool, its primary
xstream fits. -/
theorem fits_of_init (hr : InitSucceeds r) (hv : abtValidateJson r.abtInitialized j = .ok ())
    {i : Nat} (h : abtInitFromJson r j = some abt)
    (hprimary : findPoolByName abt (some "__primary__") = some i) : PrimaryFits r j := by
  obtain ⟨abt₁, abt₂, hpools, hxs, hc⟩ := configured_of_valid hr hv
  obtain ⟨hx, hstage⟩ | ⟨x, y, hx, hm, hstage⟩ := abtInitFromJson_configured hpools hxs hc
  · refine ⟨?_, by simp [hx]⟩
    intro hinit
    rw [hinit, if_pos rfl, h] at hstage
    exact (initPrimaryExternal_iff hr hc).mp ⟨abt, hstage.symm⟩
  · have hmem : x ∈ (j.get "xstreams").items :=
      List.mem_reverse.mp (List.mem_of_find?_eq_some hx)
    have hvalid := (abtValidateJson_ok hv).2 x hmem
    obtain ⟨-, -, hnot⟩ := xstreamValidateJson_ok hvalid
    have hcheck : checkPrimary r y abt₂ = some abt := hstage.symm.trans h
    obtain rfl := checkPrimary_eq hcheck
    refine ⟨?_, ?_⟩
    · intro hinit
      have hnamed := List.find?_some hx
      rw [hnot hinit] at hnamed
      cases hnamed
    · intro x' hx'
      obtain rfl : x = x' := by simpa [hx] using hx'
      exact (checkPrimary_iff hr hc hm hvalid).mp ⟨hcheck, i, hprimary⟩

end

end Margo.Abt.Initialization
