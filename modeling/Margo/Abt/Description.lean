import Margo.Abt.Initialization

/-!
# Environments that a configuration can describe

The pools and xstreams that are created from an accepted configuration have
names, kinds, accesses and scheduler types that validation accepts, and the
schedulers run registered pools. This is what a report of the environment needs
to be a configuration again.

## Implementation notes

A generated name ends in the number it was printed with, which must not be
negative: the names are looked at as long as there are fewer than `2 ^ 30`
entries. The text of a configuration is parsed with its length as an `int`, and
an entry takes more than two characters of it.
-/

namespace Margo.Abt.Description

open Lib Names Initialization

/-! ## Names -/

/-- A character that a name may have. -/
def nameChar (c : Char) : Bool := c.isAlphanum || c == '_'

/-- A name that `CONFIG_NAME_IS_VALID` accepts. -/
structure NameFits (name : String) : Prop where
  first : ∃ c rest, name.toList = c :: rest ∧ c.isDigit = false
  chars : ∀ c ∈ name.toList, nameChar c = true

theorem configNameIsValid_iff {j : Json} :
    configNameIsValid j = .ok () ↔ NameFits (j.get "name").getString := by
  unfold configNameIsValid
  constructor
  · intro h
    simp only at h
    split at h
    · cases h
    · next c rest hlist =>
        split at h
        · cases h
        · next hdigit =>
            split at h
            · cases h
            · next hfind =>
                refine ⟨⟨c, rest, hlist, by simpa using hdigit⟩, ?_⟩
                intro c' hc'
                have hnot := List.find?_eq_none.mp hfind c' hc'
                rwa [Bool.not_eq_true, Bool.not_eq_false'] at hnot
  · rintro ⟨⟨c, rest, hlist, hdigit⟩, hchars⟩
    have hfind : (j.get "name").getString.toList.find? (fun c => !(c.isAlphanum || c == '_')) =
        none := by
      rw [List.find?_eq_none]
      intro c' hc'
      rw [Bool.not_eq_true, Bool.not_eq_false']
      exact hchars c' hc'
    simp only [hfind]
    simp only [hlist, hdigit, Bool.false_eq_true, if_false]
    rfl

/-- A name that fits is read as it is. -/
theorem NameFits.cString {name : String} (h : NameFits name) : Json.cString name = name := by
  unfold Json.cString
  rw [List.takeWhile_eq_self_iff.mpr, String.ofList_toList]
  intro c hc
  have hchar := h.chars c hc
  by_contra hnul
  simp only [ne_eq, decide_not, Bool.not_eq_true', decide_eq_false_iff_not, not_not] at hnul
  subst hnul
  revert hchar
  decide

theorem nameFits_digits {before : String} (hbefore : NameFits before) {n : Nat}
    (hn : n < 2 ^ 31) : NameFits (before ++ printInt n ++ "__") := by
  obtain ⟨⟨c, rest, hlist, hdigit⟩, hchars⟩ := hbefore
  have hprint : (printInt n).toList = Nat.toDigits 10 n := by
    rw [printInt, if_pos hn]
    exact Nat.toList_repr
  refine ⟨⟨c, rest ++ ((printInt n).toList ++ "__".toList), ?_, hdigit⟩, ?_⟩
  · simp [String.toList_append, hlist]
  · intro c' hc'
    simp only [String.toList_append, List.append_assoc, List.mem_append, hprint] at hc'
    obtain hc' | hc' | hc' := hc'
    · exact hchars c' hc'
    · have hd := Nat.isDigit_of_mem_toDigits (by decide) (by decide) hc'
      simp [nameChar, Char.isAlphanum, hd]
    · revert c'
      simp [nameChar]

theorem nameFits_poolPrint {n : Nat} (hn : n < 2 ^ 31) : NameFits (poolPrint n) :=
  nameFits_digits ⟨⟨'_', _, rfl, by decide⟩, by simp [nameChar]⟩ hn

theorem nameFits_xstreamPrint {n : Nat} (hn : n < 2 ^ 31) : NameFits (xstreamPrint n) :=
  nameFits_digits ⟨⟨'_', _, rfl, by decide⟩, by simp [nameChar]⟩ hn

theorem nameFits_primary : NameFits "__primary__" := ⟨⟨'_', _, rfl, by decide⟩, by simp [nameChar]⟩

/-! ## Entries of a configuration -/

/-- The kinds of pools that are created. -/
def poolKinds : List String := ["fifo_wait", "fifo", "prio_wait", "earliest_first"]

/-- The ways to access a pool. -/
def poolAccesses : List String := ["private", "spsc", "mpsc", "spmc", "mpmc"]

/-- The types of schedulers. -/
def schedTypes : List String := ["default", "basic", "prio", "randws", "basic_wait"]

/-- The configuration of a pool is one that is accepted. -/
structure PoolJsonFits (j : Json) : Prop where
  name : (j.get "name").present = true → NameFits (j.get "name").getString
  kind : j.getStringOr "kind" "fifo_wait" ∈ poolKinds
  access : (j.get "access").present = true → (j.get "access").getString ∈ poolAccesses

/-- The configuration of an xstream is one that is accepted. -/
structure XstreamJsonFits (j : Json) : Prop where
  name : (j.get "name").present = true → NameFits (j.get "name").getString
  schedType : (j.get "scheduler").getStringOr "type" "basic_wait" ∈ schedTypes
  pools : poolRefs j ≠ []

theorem poolNameValidate_ok {b : Bool} {j : Json} (h : poolNameValidate b j = .ok ())
    (hpres : (j.get "name").present = true) : NameFits (j.get "name").getString := by
  unfold poolNameValidate at h
  obtain ⟨⟨⟩, -, h⟩ := bind_ok h
  rw [if_pos hpres] at h
  obtain ⟨⟨⟩, hname, -⟩ := bind_ok h
  exact configNameIsValid_iff.mp hname

theorem poolAccessValidate_ok {j : Json} (h : poolAccessValidate j = .ok ())
    (hpres : (j.get "access").present = true) : (j.get "access").getString ∈ poolAccesses := by
  unfold poolAccessValidate at h
  obtain ⟨⟨⟩, -, h⟩ := bind_ok h
  rw [if_pos hpres] at h
  exact configIsInEnumString_ok h

theorem poolJsonFits_of_valid {b : Bool} {j : Json} (h : poolValidateJson b j = .ok ()) :
    PoolJsonFits j := by
  unfold poolValidateJson at h
  split at h
  · next hnull =>
      obtain rfl : j = .null := by
        cases j with
        | null => rfl
        | _ => cases hnull
      exact ⟨nofun, List.mem_cons_self, nofun⟩
  · split at h
    · cases h
    · obtain ⟨⟨⟩, haccess, h⟩ := bind_ok h
      obtain ⟨⟨⟩, hkind, hname⟩ := bind_ok h
      exact ⟨poolNameValidate_ok hname, poolKindValidate_ok hkind, poolAccessValidate_ok haccess⟩

/-- The type of an accepted scheduler is one that is known. -/
theorem schedType_of_valid {j : Json} {abt : MargoAbt} {extra : List Json}
    (h : schedValidateJson j abt extra = .ok ()) :
    j.getStringOr "type" "basic_wait" ∈ schedTypes := by
  unfold Json.getStringOr
  by_cases hstring : (j.get "type").isType .string = true
  · have htype : (j.get "type").present = true := by
      cases hj : j.get "type" <;> simp_all [Json.present, Json.isType, Json.getType]
    have hpres : j.present = true := (present_of_get htype).1
    unfold schedValidateJson at h
    simp only [hpres, Bool.not_true, Bool.false_eq_true, if_false, htype, if_true] at h
    obtain ⟨-, h⟩ := not_of_guard_ok h
    obtain ⟨⟨⟩, -, h⟩ := bind_ok h
    obtain ⟨⟨⟩, henum, -⟩ := bind_ok h
    rw [if_pos hstring]
    exact configIsInEnumString_ok henum
  · rw [if_neg hstring]
    decide

/-- An accepted scheduler has pools. -/
theorem schedPools_of_valid {j : Json} {abt : MargoAbt} {extra : List Json}
    (hpres : j.present = true) (h : schedValidateJson j abt extra = .ok ()) :
    (j.get "pools").items ≠ [] := by
  unfold schedValidateJson at h
  simp only [hpres, Bool.not_true, Bool.false_eq_true, if_false] at h
  obtain ⟨-, h⟩ := not_of_guard_ok h
  obtain ⟨⟨⟩, -, h⟩ := bind_ok h
  have hrest : (do
      assertConfigHasOptional j "pools" .array "scheduler"
      if (j.get "pools").items = [] then
        throw "Argobots < 2.0 requires schedulers to have at least one pool"
      (j.get "pools").items.forM (poolRefValidateJson abt extra) : Check) = .ok () := by
    split at h
    · obtain ⟨⟨⟩, -, h⟩ := bind_ok h
      exact h
    · exact h
  obtain ⟨⟨⟩, -, hrest⟩ := bind_ok hrest
  exact (not_of_guard_ok hrest).1

theorem xstreamJsonFits_of_valid {b : Bool} {j : Json} {abt : MargoAbt} {extra : List Json}
    (h : xstreamValidateJson b j abt extra = .ok ()) : XstreamJsonFits j := by
  unfold xstreamValidateJson at h
  obtain ⟨-, h⟩ := not_of_guard_ok h
  obtain ⟨⟨⟩, -, h⟩ := bind_ok h
  obtain ⟨⟨⟩, -, h⟩ := bind_ok h
  obtain ⟨⟨⟩, -, h⟩ := bind_ok h
  obtain ⟨⟨⟩, hsched, h⟩ := bind_ok h
  obtain ⟨hpres, h⟩ := not_of_guard_ok h
  obtain ⟨⟨⟩, -, h⟩ := bind_ok h
  refine ⟨?_, schedType_of_valid hsched, schedPools_of_valid (by simpa using hpres) hsched⟩
  intro hname
  rw [if_pos hname] at h
  obtain ⟨⟨⟩, hvalid, -⟩ := bind_ok h
  exact configNameIsValid_iff.mp hvalid

/-! ## Entries of an environment -/

/-- The pool can be described. -/
structure PoolFits (p : Pool) : Prop where
  kind : p.kind ∈ poolKinds
  access : ∃ access ∈ poolAccesses, p.access = some access
  handle : ∃ id, p.pool = .obj id

/-- The xstream can be described next to the pools with these handles, or it is
one that `ABT_xstream_create` has not created. -/
structure XstreamFits (hs : List PoolHandle) (x : Xstream) : Prop where
  schedType : x.schedType ∈ schedTypes
  handle : (x.xstream = .xstreamNull ∧ x.name ≠ "__primary__") ∨
    ∃ id pools, x.xstream = .obj id pools ∧ pools ≠ [] ∧ ∀ h ∈ pools, h ∈ hs

/-- The names fit, as long as there are not too many. -/
def NamesFit (names : List String) : Prop :=
  ∀ k name, names[k]? = some name → k < 2 ^ 30 → NameFits name

/-- The environment can be described, but for the xstreams that were not
created. -/
structure Describable (abt : MargoAbt) : Prop where
  poolNames : NamesFit (abt.pools.map (·.name))
  pools : ∀ p ∈ abt.pools, PoolFits p
  handles : (abt.pools.map (·.pool)).Nodup
  xstreamNames : NamesFit (abt.xstreams.map (·.name))
  xstreams : ∀ x ∈ abt.xstreams, XstreamFits (abt.pools.map (·.pool)) x

/-- What a configuration says of a pool, and its handle. -/
def poolFace (p : Pool) : String × PoolHandle × String × Option String :=
  (p.name, p.pool, p.kind, p.access)

/-- What a configuration says of an xstream, and its handle. -/
def xstreamFace (x : Xstream) : String × XstreamHandle × String := (x.name, x.xstream, x.schedType)

section

variable {abt abt' : MargoAbt}

theorem poolFace_of_static (h : abt'.pools.map poolStatic = abt.pools.map poolStatic) :
    abt'.pools.map poolFace = abt.pools.map poolFace := by
  have hmap := congrArg (List.map poolFace) h
  simp only [List.map_map] at hmap
  exact hmap

theorem names_of_face (h : abt'.pools.map poolFace = abt.pools.map poolFace) :
    abt'.pools.map (·.name) = abt.pools.map (·.name) := by
  have hmap := congrArg (List.map fun e : String × PoolHandle × String × Option String => e.1) h
  simp only [List.map_map] at hmap
  exact hmap

theorem handles_of_face (h : abt'.pools.map poolFace = abt.pools.map poolFace) :
    abt'.pools.map (·.pool) = abt.pools.map (·.pool) := by
  have hmap := congrArg (List.map fun e : String × PoolHandle × String × Option String => e.2.1) h
  simp only [List.map_map] at hmap
  exact hmap

/-- Counts and flags are not described. -/
theorem Describable.congr (hd : Describable abt)
    (hpools : abt'.pools.map poolFace = abt.pools.map poolFace)
    (hxs : abt'.xstreams.map xstreamFace = abt.xstreams.map xstreamFace) : Describable abt' where
  poolNames := (names_of_face hpools).symm ▸ hd.poolNames
  pools p hp := by
    have hmem : poolFace p ∈ abt.pools.map poolFace := hpools ▸ List.mem_map_of_mem hp
    obtain ⟨q, hq, hface⟩ := List.mem_map.mp hmem
    simp only [poolFace, Prod.mk.injEq] at hface
    obtain ⟨-, hpool, hkind, haccess⟩ := hface
    have hfits := hd.pools q hq
    exact ⟨hkind ▸ hfits.kind, haccess ▸ hfits.access, hpool ▸ hfits.handle⟩
  handles := (handles_of_face hpools).symm ▸ hd.handles
  xstreamNames := by
    have hnames := congrArg (List.map fun e : String × XstreamHandle × String => e.1) hxs
    simp only [List.map_map] at hnames
    have hnames' : abt'.xstreams.map (·.name) = abt.xstreams.map (·.name) := hnames
    rw [hnames']
    exact hd.xstreamNames
  xstreams x hx := by
    have hmem : xstreamFace x ∈ abt.xstreams.map xstreamFace := hxs ▸ List.mem_map_of_mem hx
    obtain ⟨y, hy, hface⟩ := List.mem_map.mp hmem
    simp only [xstreamFace, Prod.mk.injEq] at hface
    obtain ⟨hname, hhandle, htype⟩ := hface
    obtain ⟨hfits, hcase⟩ := hd.xstreams y hy
    rw [htype] at hfits
    rw [hname, hhandle, ← handles_of_face hpools] at hcase
    exact ⟨hfits, hcase⟩

theorem NamesFit.append {names : List String} (hn : NamesFit names) {name : String}
    (h : names.length < 2 ^ 30 → NameFits name) : NamesFit (names ++ [name]) :=
  forall_getElem?_concat hn h

/-- A pool that was not registered is described by its configuration. -/
theorem Describable.addPool (hd : Describable abt) {r : Replies} {j : Json} {p : Pool}
    (hinit : poolInitFromJson r j abt = some p) (hj : PoolJsonFits j)
    (hnew : p.pool ∉ abt.pools.map (·.pool)) : Describable (appendPool abt p) where
  poolNames := by
    simp only [appendPool, List.map_append, List.map_singleton]
    apply hd.poolNames.append
    intro hfew
    rw [List.length_map] at hfew
    obtain ⟨-, -, -, hname, -, -⟩ := poolInitFromJson_eq hinit
    rw [hname, poolJsonName]
    split
    · next hpres => exact hj.name hpres
    · obtain ⟨-, k, hk, heq⟩ := @generateUnusedPoolName_spec abt (by omega)
      rw [heq, Nat.mod_eq_of_lt (by omega)]
      exact nameFits_poolPrint (by omega)
  pools q hq := by
    rcases List.mem_append.mp hq with hq | hq
    · exact hd.pools q hq
    · obtain rfl := List.mem_singleton.mp hq
      simp only [poolInitFromJson] at hinit
      split_ifs at hinit with halloc hkind haccess
      all_goals
        obtain ⟨id, -, rfl⟩ := Option.map_eq_some_iff.mp hinit
      · exact ⟨hj.kind, ⟨_, hj.access haccess, rfl⟩, id, rfl⟩
      · exact ⟨hj.kind, ⟨"mpmc", by decide, rfl⟩, id, rfl⟩
  handles := by
    simp only [appendPool, List.map_append, List.map_singleton]
    exact hd.handles.append (List.nodup_singleton _) (by simpa using hnew)
  xstreamNames := hd.xstreamNames
  xstreams x hx := by
    obtain ⟨htype, hhandle⟩ := hd.xstreams x hx
    refine ⟨htype, ?_⟩
    obtain hnull | ⟨id, pools, heq, hne, hreg⟩ := hhandle
    · exact Or.inl hnull
    · refine Or.inr ⟨id, pools, heq, hne, ?_⟩
      intro h hh
      simp only [appendPool, List.map_append]
      exact List.mem_append_left _ (hreg h hh)

theorem Describable.distinct (hd : Describable abt) : DistinctPools abt := by
  have hpairwise := List.pairwise_map.mp hd.handles
  exact hpairwise.imp fun hne heq => absurd heq hne

theorem length_of_mapM {α β : Type} {f : α → Option β} {l : List α} {l' : List β}
    (h : l.mapM f = some l') : l'.length = l.length := by
  induction l generalizing l' with
  | nil =>
      obtain rfl : [] = l' := Option.some.inj h
      rfl
  | cons a l ih =>
      simp only [List.mapM_cons, Option.bind_eq_bind, Option.bind_eq_some_iff] at h
      obtain ⟨b, -, bs, hbs, heq⟩ := h
      obtain rfl : b :: bs = l' := Option.some.inj heq
      simp [ih hbs]

theorem schedInitFromJson_some {r : Replies} {j : Json} {type : String}
    {pools : List PoolHandle} (h : schedInitFromJson r j abt = some (type, pools)) :
    type = j.getStringOr "type" "basic_wait" ∧
      ∃ handles, (j.get "pools").items.mapM (schedPool abt) = some handles ∧
        pools = handles.map scheduled := by
  simp only [schedInitFromJson, Option.bind_eq_bind, Option.bind_eq_some_iff] at h
  obtain ⟨handles, hmap, h⟩ := h
  split at h
  · obtain ⟨rfl, rfl⟩ := Prod.mk.inj (Option.some.inj h)
    exact ⟨rfl, handles, hmap, rfl⟩
  · cases h

/-- The entry of an xstream that was initialized from JSON with these pools. Only
`ABT_xstream_create` may have failed. -/
structure FromJson (j : Json) (x : Xstream) (pools : List PoolHandle) : Prop where
  schedType : x.schedType = (j.get "scheduler").getStringOr "type" "basic_wait"
  handle : (x.xstream = .xstreamNull ∧ x.name ≠ "__primary__") ∨ ∃ id, x.xstream = .obj id pools

/-- An xstream that is initialized from JSON runs the pools that the
configuration refers to, which are all registered. -/
theorem xstreamInitFromJson_spec {r : Replies} {j : Json} {x : Xstream}
    (hd : DistinctPools abt) (h : xstreamInitFromJson r j abt = (abt', some x)) :
    ∃ handles, (poolRefs j).mapM (schedPool abt) = some handles ∧
      (∀ handle ∈ handles.map scheduled, handle ∈ abt.pools.map (·.pool)) ∧
      FromJson j x (handles.map scheduled) := by
  have hmem {pools : List PoolHandle} (hall : pools.all (registered abt) = true) :
      ∀ handle ∈ pools, handle ∈ abt.pools.map (·.pool) := by
    intro handle hh
    obtain ⟨-, p, hp, heq⟩ := (registered_iff abt handle).mp (List.all_eq_true.mp hall handle hh)
    exact List.mem_map.mpr ⟨p, hp, heq⟩
  simp only [xstreamInitFromJson] at h
  split at h
  · cases (Prod.mk.inj h).2
  split at h
  · cases (Prod.mk.inj h).2
  next type pools hsched =>
  obtain ⟨htype, handles, hmap, rfl⟩ := schedInitFromJson_some hsched
  split at h
  · next hname =>
      obtain ⟨rfl, hall, -, -⟩ := countXstream_some hd h
      refine ⟨handles, hmap, hmem hall, htype, ?_⟩
      cases hcreate : r.xstreamCreate with
      | some id => exact Or.inr ⟨id, rfl⟩
      | none => exact Or.inl ⟨rfl, hname⟩
  · split at h
    · cases (Prod.mk.inj h).2
    next self hself =>
    split at h
    · obtain ⟨rfl, hall, -, -⟩ := countXstream_some hd h
      exact ⟨handles, hmap, hmem hall, htype, Or.inr ⟨self, rfl⟩⟩
    · cases (Prod.mk.inj h).2

/-- A new xstream is described by its configuration. -/
theorem Describable.addXstream (hd : Describable abt) {r : Replies} {j : Json} {x : Xstream}
    (hinit : xstreamInitFromJson r j abt = (abt', some x)) (hj : XstreamJsonFits j) :
    Describable (appendXstream abt' x) := by
  obtain ⟨hstatic, hxs, hentry⟩ := xstreamInitFromJson_entries hinit
  obtain ⟨hname, -⟩ := hentry x rfl
  obtain ⟨handles, hmap, hreg, htype, hhandle⟩ := xstreamInitFromJson_spec hd.distinct hinit
  have hd' : Describable abt' := hd.congr (poolFace_of_static hstatic) (by rw [hxs])
  have hhandles := handles_of_face (poolFace_of_static hstatic)
  refine ⟨hd'.poolNames, hd'.pools, hd'.handles, ?_, ?_⟩
  · simp only [appendXstream, List.map_append, List.map_singleton]
    apply hd'.xstreamNames.append
    intro hfew
    rw [List.length_map, hxs] at hfew
    rw [hname, xstreamJsonName]
    split
    · next hpres => exact hj.name hpres
    · obtain ⟨-, k, hk, heq⟩ := @generateUnusedXstreamName_spec abt (by omega)
      rw [heq, Nat.mod_eq_of_lt (by omega)]
      exact nameFits_xstreamPrint (by omega)
  · intro y hy
    rcases List.mem_append.mp hy with hy | hy
    · exact hd'.xstreams y hy
    · obtain rfl := List.mem_singleton.mp hy
      refine ⟨htype ▸ hj.schedType, ?_⟩
      obtain hnull | ⟨id, hid⟩ := hhandle
      · exact Or.inl hnull
      · refine Or.inr ⟨id, handles.map scheduled, hid, ?_, ?_⟩
        · intro hnil
          have hlen := length_of_mapM hmap
          rw [List.map_eq_nil_iff.mp hnil, List.length_nil, eq_comm,
            List.length_eq_zero_iff] at hlen
          exact hj.pools hlen
        · intro handle hh
          have hin := hreg handle hh
          rwa [← hhandles] at hin

/-! ## Initialization -/

/-- The environment during an initialization: every pool is the one that was
created for its position. -/
structure Founded (r : InitReplies) (abt : MargoAbt) : Prop where
  numbered : Numbered r (abt.pools.map (·.pool))
  describable : Describable abt

variable {r : InitReplies}

theorem Founded.congr (hf : Founded r abt)
    (hpools : abt'.pools.map poolFace = abt.pools.map poolFace)
    (hxs : abt'.xstreams.map xstreamFace = abt.xstreams.map xstreamFace) : Founded r abt' :=
  ⟨(handles_of_face hpools).symm ▸ hf.numbered, hf.describable.congr hpools hxs⟩

theorem Founded.addPool (hf : Founded r abt) (hr : FreshPools r) {j : Json} {p : Pool}
    (hinit : poolInitFromJson (r.pool abt.pools.length) j abt = some p) (hj : PoolJsonFits j) :
    Founded r (appendPool abt p) := by
  obtain ⟨id, hid, hpool, -, -, -⟩ := poolInitFromJson_eq hinit
  have hid' : (r.pool (abt.pools.map (·.pool)).length).poolCreate = some id := by
    rwa [List.length_map]
  refine ⟨?_, hf.describable.addPool hinit hj ?_⟩
  · simp only [appendPool, List.map_append, List.map_singleton, hpool]
    exact hf.numbered.append hid'
  · rw [hpool]
    exact hf.numbered.not_mem hr hid'

theorem Founded.addXstream (hf : Founded r abt) {j : Json}
    (h : initXstream r j abt = some abt') (hj : XstreamJsonFits j) : Founded r abt' := by
  have hstatic := initXstream_static h
  unfold initXstream at h
  split at h
  · cases h
  next abt₁ x hinit =>
  obtain rfl := Option.some.inj h
  refine ⟨?_, hf.describable.addXstream hinit hj⟩
  rw [handles_of_face (poolFace_of_static hstatic)]
  exact hf.numbered

theorem founded_initPools (hr : FreshPools r) {js : List Json} (hjs : ∀ j ∈ js, PoolJsonFits j)
    (h : initPools r abt js = some abt') (hf : Founded r abt) : Founded r abt' := by
  induction js generalizing abt with
  | nil =>
      obtain rfl := Option.some.inj h
      exact hf
  | cons j js ih =>
      simp only [initPools] at h
      split at h
      · cases h
      · next p hp =>
          have hrest := fun j' hj' => hjs j' (List.mem_cons_of_mem j hj')
          exact ih hrest h (hf.addPool hr hp (hjs j List.mem_cons_self))

theorem founded_initXstreams {js : List Json} (hjs : ∀ j ∈ js, XstreamJsonFits j)
    (h : initXstreams r abt js = some abt') (hf : Founded r abt) : Founded r abt' := by
  induction js generalizing abt with
  | nil =>
      obtain rfl := Option.some.inj h
      exact hf
  | cons j js ih =>
      simp only [initXstreams] at h
      split at h
      · cases h
      · next abt₁ hinit =>
          have hrest := fun j' hj' => hjs j' (List.mem_cons_of_mem j hj')
          exact ih hrest h (hf.addXstream hinit (hjs j List.mem_cons_self))

/-- There is a primary xstream, and its first pool is called `__primary__`. -/
def Led (abt : MargoAbt) : Prop :=
  ∃ x ∈ abt.xstreams, x.name = "__primary__" ∧ ∃ p ∈ abt.pools, p.name = "__primary__" ∧
    ∃ id rest, x.xstream = .obj id (p.pool :: rest)

theorem Founded.initPrimaryPool (hf : Founded r abt) (hr : FreshPools r) {i : Nat}
    (h : initPrimaryPool r abt = some (abt', i)) :
    Founded r abt' ∧ ∃ p, abt'.pools[i]? = some p ∧ p.name = "__primary__" := by
  unfold Abt.initPrimaryPool at h
  split at h
  · next k hfind =>
      obtain ⟨rfl, rfl⟩ := Prod.mk.inj (Option.some.inj h)
      obtain ⟨hlt, hname, -⟩ := List.findIdx?_eq_some_iff_getElem.mp hfind
      exact ⟨hf, _, List.getElem?_eq_getElem hlt, by simpa using hname⟩
  · obtain ⟨p, hp, heq⟩ := Option.map_eq_some_iff.mp h
    obtain ⟨rfl, rfl⟩ := Prod.mk.inj heq
    obtain ⟨-, -, -, hname, -, -⟩ := poolInitFromJson_eq hp
    have hfits : PoolJsonFits
        (.object [("name", .string "__primary__"), ("access", .string "mpmc")]) :=
      poolJsonFits_of_valid (b := false) rfl
    exact ⟨hf.addPool hr hp hfits, p, by simp [appendPool], hname⟩

/-- The configuration of the primary xstream that is added. -/
abbrev primaryXstream (i : Nat) : Json :=
  .object [("name", .string "__primary__"), ("scheduler", .object [("pools", .array [.int i])])]

theorem primaryXstream_fits (i : Nat) : XstreamJsonFits (primaryXstream i) where
  name _ := by
    have hname : ((primaryXstream i).get "name").getString = "__primary__" :=
      nameFits_primary.cString
    rw [hname]
    exact nameFits_primary
  schedType := by
    change "basic_wait" ∈ schedTypes
    decide
  pools := List.cons_ne_nil _ _

/-- The scheduler that runs the pool at a position gets this pool. -/
theorem mapM_schedPool_int {i : Nat} {p : Pool} (hp : abt.pools[i]? = some p) (hi : i < 2 ^ 31)
    {handles : List PoolHandle} (h : [Json.int i].mapM (schedPool abt) = some handles) :
    handles = [p.pool] := by
  have hsched : schedPool abt (.int i) = some p.pool := by
    rw [schedPool_eq, refIndex_int hi, poolEntries, List.getElem?_map, hp]
    rfl
  rw [List.mapM_cons, hsched] at h
  exact (Option.some.inj h).symm

/-- The primary xstream that is added runs the primary pool. -/
theorem Founded.initPrimary (hf : Founded r abt) (hr : FreshPools r)
    (h : initPrimary r abt = some abt') :
    Founded r abt' ∧ (abt'.pools.length < 2 ^ 31 → Led abt') := by
  unfold Abt.initPrimary at h
  split at h
  · cases h
  next abt₁ i hpool =>
  obtain ⟨hf₁, p, hp, hname⟩ := hf.initPrimaryPool hr hpool
  have hface := map_modify_of_eq (f := fun p : Pool => { p with margoFreeFlag := false })
    (g := poolFace) (by intro; rfl) abt₁.pools i
  have hf₂ : Founded r { abt₁ with
      pools := abt₁.pools.modify i fun p => { p with margoFreeFlag := false } } :=
    hf₁.congr hface rfl
  refine ⟨hf₂.addXstream h (primaryXstream_fits i), ?_⟩
  intro hfew
  have hstatic := initXstream_static h
  have hlen := congrArg List.length hstatic
  simp only [List.length_map, List.length_modify] at hlen
  have hlt := (List.getElem?_eq_some_iff.mp hp).1
  unfold initXstream at h
  split at h
  · cases h
  next abt₂ x hinit =>
  obtain rfl := Option.some.inj h
  obtain ⟨hstatic₂, -, hentry⟩ := xstreamInitFromJson_entries hinit
  have hxname : x.name = "__primary__" := (hentry x rfl).1.trans nameFits_primary.cString
  obtain ⟨handles, hmap, -, -, hhandle⟩ := xstreamInitFromJson_spec hf₂.describable.distinct hinit
  have hp₂ : (abt₁.pools.modify i fun p => { p with margoFreeFlag := false })[i]? =
      some { p with margoFreeFlag := false } := by
    simp [hp]
  obtain rfl : handles = [p.pool] := by
    refine mapM_schedPool_int (p := { p with margoFreeFlag := false }) ?_ ?_ hmap
    · exact hp₂
    · omega
  obtain ⟨-, hnot⟩ | ⟨id, hid⟩ := hhandle
  · exact absurd hxname hnot
  obtain ⟨own, hown⟩ := (hf₁.describable.pools p (List.mem_of_getElem? hp)).handle
  have hmem : poolFace p ∈ abt₂.pools.map poolFace := by
    rw [poolFace_of_static hstatic₂, hface]
    exact List.mem_map_of_mem (List.mem_of_getElem? hp)
  obtain ⟨q, hq, hface'⟩ := List.mem_map.mp hmem
  simp only [poolFace, Prod.mk.injEq] at hface'
  refine ⟨x, List.mem_append_right _ (List.mem_singleton_self x), hxname, q, hq,
    hface'.1.trans hname, id, [], ?_⟩
  rw [hid, hface'.2.1]
  simp [hown, scheduled]

theorem founded_empty (k m : Nat) : Founded r ⟨[], k, [], m⟩ where
  numbered := by
    intro k h hk
    simp at hk
  describable :=
    { poolNames := by
        intro k name hk
        simp at hk
      pools := nofun
      handles := List.nodup_nil
      xstreamNames := by
        intro k name hk
        simp at hk
      xstreams := nofun }

/-- The first pool of a configured primary xstream is the one called
`__primary__`, if there is one. -/
theorem Founded.checkPrimary (hf : Founded r abt) {es : Xstream} (hes : es ∈ abt.xstreams)
    (hname : es.name = "__primary__") (h : checkPrimary r es abt = some abt') {i : Nat}
    (hfind : findPoolByName abt (some "__primary__") = some i) : Led abt := by
  obtain ⟨-, hnull | ⟨id, pools, heq, hne, -⟩⟩ := hf.describable.xstreams es hes
  · exact absurd hname hnull.2
  obtain ⟨first, rest, rfl⟩ := List.exists_cons_of_ne_nil hne
  have hfirst : findPoolByHandle abt first = some i := by
    simp only [Abt.checkPrimary, heq, mainPools, List.headD_cons, hfind] at h
    split_ifs at h with _ hfirst
    exact hfirst
  obtain ⟨-, p, hp, rfl⟩ := findPoolByHandle_some hfirst
  obtain ⟨hlt, hpname, -⟩ := List.findIdx?_eq_some_iff_getElem.mp hfind
  rw [List.getElem?_eq_getElem hlt, Option.some.injEq] at hp
  subst hp
  exact ⟨es, hes, hname, _, List.getElem_mem hlt, by simpa using hpname, id, rest, heq⟩

/-- An accepted configuration founds an environment, and one that has a primary
pool is led by it, unless its position is too large to be written down. -/
theorem abtInitFromJson_founded (hr : FreshPools r) (hinit : r.abtInitialized = false) {j : Json}
    (hv : abtValidateJson r.abtInitialized j = .ok ()) (h : abtInitFromJson r j = some abt) :
    Founded r abt ∧ (abt.pools.length < 2 ^ 31 →
      ∀ i, findPoolByName abt (some "__primary__") = some i → Led abt) := by
  obtain ⟨hpoolsValid, hxstreamsValid⟩ := abtValidateJson_ok hv
  simp only [abtInitFromJson, Option.bind_eq_bind, Option.bind_eq_some_iff] at h
  obtain ⟨abt₁, hpools, abt₂, hxs, h⟩ := h
  have hf₁ := founded_initPools hr (fun j hj => poolJsonFits_of_valid (hpoolsValid j hj)) hpools
    (founded_empty _ _)
  have hf₂ := founded_initXstreams
    (fun j hj => xstreamJsonFits_of_valid (hxstreamsValid j hj)) hxs hf₁
  split at h
  · split at h
    · next es hes =>
        obtain rfl := checkPrimary_eq h
        refine ⟨hf₂, fun _ i hfind => ?_⟩
        have hmem := List.mem_reverse.mp (List.mem_of_find?_eq_some hes)
        exact hf₂.checkPrimary hmem (by simpa using List.find?_some hes) h hfind
    · cases h
  · rw [hinit, if_neg Bool.false_ne_true] at h
    obtain ⟨hf, hled⟩ := hf₂.initPrimary hr h
    exact ⟨hf, fun hfew _ _ => hled hfew⟩

end

end Margo.Abt.Description
