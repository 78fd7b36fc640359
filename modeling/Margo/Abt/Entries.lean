import Margo.Abt.Calls

/-!
# Names and handles of the entries

What the calls do to the names and handles of pools and xstreams. Counting and
discounting xstreams does not concern them, so that no assumption on the
handles is needed here.
-/

namespace Margo.Abt

open Lib

/-- A pool without what counting an xstream changes. -/
def poolStatic (p : Pool) : Pool := { p with numXstreams := 0, usedByPrimary := false }

theorem xstreamDestroy_poolStatic (x : XstreamHandle) (abt : MargoAbt) :
    (xstreamDestroy x abt).pools.map poolStatic = abt.pools.map poolStatic := by
  cases x with
  | obj id pools => exact walkPools_map (by intro; rfl) abt pools
  | null => rfl
  | xstreamNull => rfl

/-- Counting an xstream leaves the names and handles alone, and registers the
xstream itself or nothing. -/
theorem countXstream_entries {b : Bool} {x : Xstream} {pools : List PoolHandle}
    {abt abt' : MargoAbt} {out : Option Xstream}
    (h : countXstream b x pools abt = (abt', out)) :
    abt'.pools.map poolStatic = abt.pools.map poolStatic ∧
      abt'.xstreams = abt.xstreams ∧
      (out = none ∨ out = some x) := by
  have hpools : (walkPools (countUse b) abt pools).1.pools.map poolStatic =
      abt.pools.map poolStatic := walkPools_map (by intro; rfl) abt pools
  have hxs := walkPools_xstreams (countUse b) abt pools
  unfold countXstream at h
  rcases hwalk : walkPools (countUse b) abt pools with ⟨abt₁, ok⟩
  rw [hwalk] at hpools hxs
  cases ok with
  | true =>
      simp only [hwalk, Prod.mk.injEq] at h
      obtain ⟨rfl, rfl⟩ := h
      exact ⟨hpools, hxs, .inr rfl⟩
  | false =>
      simp only [hwalk, Prod.mk.injEq] at h
      obtain ⟨rfl, rfl⟩ := h
      refine ⟨?_, ?_, .inl rfl⟩
      · rw [xstreamDestroy_poolStatic, hpools]
      · rw [xstreamDestroy_xstreams, hxs]

/-- The handle of an xstream initialized from JSON: new, or the calling xstream
if it is the primary one, unless `ABT_xstream_create` failed. -/
def jsonHandle (r : Replies) (name : String) (x : XstreamHandle) : Prop :=
  if name = "__primary__" then ∃ id pools, r.xstreamSelf = some id ∧ x = .obj id pools
  else
    match r.xstreamCreate with
    | some id => ∃ pools, x = .obj id pools
    | none => x = .xstreamNull

theorem xstreamInitFromJson_entries {r : Replies} {j : Json} {abt abt' : MargoAbt}
    {out : Option Xstream} (h : xstreamInitFromJson r j abt = (abt', out)) :
    abt'.pools.map poolStatic = abt.pools.map poolStatic ∧
      abt'.xstreams = abt.xstreams ∧
      ∀ x, out = some x → x.name = xstreamJsonName j abt ∧ jsonHandle r x.name x.xstream := by
  have hsame (hab : abt' = abt) (hout : out = none) :
      abt'.pools.map poolStatic = abt.pools.map poolStatic ∧
      abt'.xstreams = abt.xstreams ∧
        ∀ x, out = some x → x.name = xstreamJsonName j abt ∧ jsonHandle r x.name x.xstream := by
    refine ⟨by rw [hab], by rw [hab], fun x hx => ?_⟩
    rw [hout] at hx
    cases hx
  simp only [xstreamInitFromJson] at h
  split at h
  · exact hsame (Prod.mk.inj h).1.symm (Prod.mk.inj h).2.symm
  split at h
  · exact hsame (Prod.mk.inj h).1.symm (Prod.mk.inj h).2.symm
  next type pools _ =>
  split at h
  · next hname =>
      obtain ⟨hp, hx, hout⟩ := countXstream_entries h
      refine ⟨hp, hx, fun x hsome => ?_⟩
      rcases hout with rfl | rfl
      · cases hsome
      · obtain rfl := Option.some.inj hsome
        refine ⟨rfl, ?_⟩
        unfold jsonHandle
        rw [if_neg hname]
        cases r.xstreamCreate with
        | none => rfl
        | some id => exact ⟨pools, rfl⟩
  · next hname =>
      split at h
      · exact hsame (Prod.mk.inj h).1.symm (Prod.mk.inj h).2.symm
      next self hself =>
      split at h
      · obtain ⟨hp, hx, hout⟩ := countXstream_entries h
        refine ⟨hp, hx, fun x hsome => ?_⟩
        rcases hout with rfl | rfl
        · cases hsome
        · obtain rfl := Option.some.inj hsome
          refine ⟨rfl, ?_⟩
          unfold jsonHandle
          rw [if_pos (not_not.mp hname)]
          exact ⟨self, pools, hself, rfl⟩
      · obtain ⟨rfl, rfl⟩ := Prod.mk.inj h
        refine ⟨xstreamDestroy_poolStatic _ abt, xstreamDestroy_xstreams _ abt, ?_⟩
        intro x hx
        cases hx

/-- `__margo_abt_add_xstream_from_json` keeps the pools and registers at most
one xstream, under a name that is not in use or a generated one. -/
theorem addXstreamFromJson_entries (r : Replies) (j : Json) (abt : MargoAbt) :
    (addXstreamFromJson r j abt).1.pools.map poolStatic = abt.pools.map poolStatic ∧
    ((addXstreamFromJson r j abt).1.xstreams = abt.xstreams ∨
      ∃ x, x.name = xstreamJsonName j abt ∧ jsonHandle r x.name x.xstream ∧
        ((j.get "name").present = true →
          findXstreamByName abt (some (j.get "name").getString) = none) ∧
        (addXstreamFromJson r j abt).1.xstreams = abt.xstreams ++ [x]) := by
  unfold addXstreamFromJson
  split
  · exact ⟨rfl, .inl rfl⟩
  split
  · exact ⟨rfl, .inl rfl⟩
  next hused =>
  split
  · exact ⟨rfl, .inl rfl⟩
  next abt₁ hgrow =>
  obtain ⟨hpools, hxs⟩ := growXstreams_eq hgrow
  split
  · next abt₂ hinit =>
      obtain ⟨hp, hx, -⟩ := xstreamInitFromJson_entries hinit
      exact ⟨by rw [hp, hpools], .inl (by rw [hx, hxs])⟩
  · next abt₂ x hinit =>
      obtain ⟨hp, hx, hentry⟩ := xstreamInitFromJson_entries hinit
      obtain ⟨hname, hhandle⟩ := hentry x rfl
      refine ⟨by rw [appendXstream, hp, hpools], .inr ⟨x, ?_, hhandle, ?_, ?_⟩⟩
      · rw [hname]
        simp only [xstreamJsonName, generateUnusedXstreamName, hxs]
      · intro hpres
        simpa [hpres] using hused
      · rw [appendXstream, hx, hxs]

theorem xstreamInitExternal_entries {name : Option String} {x : XstreamHandle}
    {abt abt' : MargoAbt} {out : Option Xstream}
    (h : xstreamInitExternal name x abt = some (abt', out)) :
    abt'.pools.map poolStatic = abt.pools.map poolStatic ∧
      abt'.xstreams = abt.xstreams ∧
      ∀ entry, out = some entry → name = some entry.name ∧ entry.xstream = x ∧
        ∃ id pools, x = .obj id pools := by
  cases x with
  | null =>
      obtain ⟨rfl, rfl⟩ : abt = abt' ∧ none = out := by simpa [xstreamInitExternal] using h
      exact ⟨rfl, rfl, fun _ hout => by cases hout⟩
  | xstreamNull =>
      obtain ⟨rfl, rfl⟩ : abt = abt' ∧ none = out := by simpa [xstreamInitExternal] using h
      exact ⟨rfl, rfl, fun _ hout => by cases hout⟩
  | obj id pools =>
      simp only [xstreamInitExternal] at h
      split at h
      · obtain ⟨rfl, rfl⟩ := Prod.mk.inj (Option.some.inj h)
        exact ⟨xstreamDestroy_poolStatic _ abt, xstreamDestroy_xstreams _ abt,
          fun _ hout => by cases hout⟩
      · obtain ⟨n, rfl, hcount⟩ := Option.map_eq_some_iff.mp h
        obtain ⟨hp, hx, hout⟩ := countXstream_entries hcount
        refine ⟨hp, hx, fun entry hentry => ?_⟩
        rcases hout with rfl | rfl
        · cases hentry
        · obtain rfl := Option.some.inj hentry
          exact ⟨rfl, rfl, id, pools, rfl⟩

/-- `__margo_abt_add_external_xstream` keeps the pools and registers at most one
xstream, which was registered under neither its name nor its handle. -/
theorem addExternalXstream_entries {r : Replies} {name : Option String} {x : XstreamHandle}
    {abt abt' : MargoAbt} {ok : Bool} (h : addExternalXstream r name x abt = some (abt', ok)) :
    abt'.pools.map poolStatic = abt.pools.map poolStatic ∧
    (abt'.xstreams = abt.xstreams ∨
      ∃ entry, name = some entry.name ∧ entry.xstream = x ∧ (∃ id pools, x = .obj id pools) ∧
        findXstreamByName abt name = none ∧ findXstreamByHandle abt x = none ∧
        abt'.xstreams = abt.xstreams ++ [entry]) := by
  have hsame (hab : abt = abt') : abt'.pools.map poolStatic = abt.pools.map poolStatic ∧
    (abt'.xstreams = abt.xstreams ∨
      ∃ entry, name = some entry.name ∧ entry.xstream = x ∧ (∃ id pools, x = .obj id pools) ∧
        findXstreamByName abt name = none ∧ findXstreamByHandle abt x = none ∧
        abt'.xstreams = abt.xstreams ++ [entry]) := by
    subst hab
    exact ⟨rfl, .inl rfl⟩
  unfold addExternalXstream at h
  split at h
  · exact hsame (Prod.mk.inj (Option.some.inj h)).1
  next hname =>
  split at h
  · exact hsame (Prod.mk.inj (Option.some.inj h)).1
  next hhandle =>
  simp only [Bool.not_eq_true, Option.isSome_eq_false_iff, Option.isNone_iff_eq_none]
    at hname hhandle
  split at h
  · exact hsame (Prod.mk.inj (Option.some.inj h)).1
  next abt₁ hgrow =>
  obtain ⟨hpools, hxs⟩ := growXstreams_eq hgrow
  split at h
  · cases h
  · next abt₂ hinit =>
      obtain ⟨hp, hx, -⟩ := xstreamInitExternal_entries hinit
      obtain rfl := (Prod.mk.inj (Option.some.inj h)).1
      exact ⟨by rw [hp, hpools], .inl (by rw [hx, hxs])⟩
  · next abt₂ entry hinit =>
      obtain ⟨hp, hx, hentry⟩ := xstreamInitExternal_entries hinit
      obtain ⟨hn, he, hobj⟩ := hentry entry rfl
      obtain rfl := (Prod.mk.inj (Option.some.inj h)).1
      refine ⟨by rw [appendXstream, hp, hpools], .inr ⟨entry, hn, he, hobj, hname, hhandle, ?_⟩⟩
      rw [appendXstream, hx, hxs]

/-- `__margo_abt_remove_xstream` keeps the pools and removes at most one xstream,
never the primary one. -/
theorem removeXstream_entries (i : Nat) (abt : MargoAbt) :
    (removeXstream i abt).1.pools.map poolStatic = abt.pools.map poolStatic ∧
    ((removeXstream i abt).1.xstreams = abt.xstreams ∨
      ∃ x, x.name ≠ "__primary__" ∧
        abt.xstreams.Perm (x :: (removeXstream i abt).1.xstreams)) := by
  rcases removeXstream_cases i abt with hsame | ⟨x, hx, hname, -, hp, hxs⟩
  · rw [hsame]
    exact ⟨rfl, .inl rfl⟩
  · refine ⟨by rw [hp, xstreamDestroy_poolStatic], .inr ⟨x, hname, ?_⟩⟩
    rw [hxs]
    exact perm_swapRemove hx

/-! ## What a call can do to names and handles -/

/-- What tells two pools apart. -/
def poolEntry (p : Pool) : String × PoolHandle := (p.name, p.pool)

/-- The names and handles of the pools. -/
def poolEntries (abt : MargoAbt) : List (String × PoolHandle) := abt.pools.map poolEntry

/-- Counting xstreams leaves the names and handles of the pools alone. -/
theorem poolEntries_of_static {abt abt' : MargoAbt}
    (h : abt'.pools.map poolStatic = abt.pools.map poolStatic) :
    poolEntries abt' = poolEntries abt := by
  have hmap := congrArg (List.map poolEntry) h
  simp only [List.map_map] at hmap
  exact hmap

/-- The names and handles of the xstreams. -/
def xstreamEntries (abt : MargoAbt) : List (String × XstreamHandle) :=
  abt.xstreams.map xstreamKey

/-- The names and handles after a call: at most one entry is new or gone. -/
inductive Change (r : Replies) (abt : MargoAbt) :
    Call → List (String × PoolHandle) → List (String × XstreamHandle) → Prop
  | same {c} : Change r abt c (poolEntries abt) (xstreamEntries abt)
  | poolFromJson {mid j id} (hid : r.poolCreate = some id)
      (hfree : (j.get "name").present = true →
        findPoolByName abt (some (j.get "name").getString) = none) :
      Change r abt (.addPoolFromJson mid (some j))
        (poolEntries abt ++ [(poolJsonName j abt, .obj id)]) (xstreamEntries abt)
  | poolExternal {mid name pool own} (hname : findPoolByName abt name = none)
      (hhandle : findPoolByHandle abt pool = none) :
      Change r abt (.addPoolExternal mid name pool own)
        (poolEntries abt ++ [(name.getD (generateUnusedPoolName abt), pool)])
        (xstreamEntries abt)
  | poolRemoved {c e ps} (hperm : (poolEntries abt).Perm (e :: ps)) :
      Change r abt c ps (xstreamEntries abt)
  | xstreamFromJson {mid j x} (hhandle : jsonHandle r (xstreamJsonName j abt) x)
      (hfree : (j.get "name").present = true →
        findXstreamByName abt (some (j.get "name").getString) = none) :
      Change r abt (.addXstreamFromJson mid (some j)) (poolEntries abt)
        (xstreamEntries abt ++ [(xstreamJsonName j abt, x)])
  | xstreamExternal {mid name id pools own} (hname : findXstreamByName abt (some name) = none)
      (hhandle : findXstreamByHandle abt (.obj id pools) = none) :
      Change r abt (.addXstreamExternal mid (some name) (.obj id pools) own) (poolEntries abt)
        (xstreamEntries abt ++ [(name, .obj id pools)])
  | xstreamRemoved {c e xs} (hperm : (xstreamEntries abt).Perm (e :: xs))
      (hname : e.1 ≠ "__primary__") : Change r abt c (poolEntries abt) xs

theorem SameEntries.entries {abt abt' : MargoAbt} (h : SameEntries abt abt') :
    poolEntries abt' = poolEntries abt ∧ xstreamEntries abt' = xstreamEntries abt := by
  have hp := congrArg (List.map fun k : String × PoolHandle × Nat => (k.1, k.2.1)) h.pools
  simp only [List.map_map, Function.comp_def, poolKey] at hp
  exact ⟨hp, h.xstreams⟩

/-- Every call has one of these effects on names and handles. -/
theorem Call.change {c : Call} {r : Replies} {abt abt' : MargoAbt}
    (h : callStep abt (c, r) = some abt') :
    Change r abt c (poolEntries abt') (xstreamEntries abt') := by
  cases Call.effect h with
  | same hsame =>
      rw [hsame.entries.1, hsame.entries.2]
      exact .same
  | addPoolFromJson =>
      rename_i mid j
      rcases addPoolFromJson_cases r j abt with
        ⟨hp, hx⟩ | ⟨id, p, hid, hpool, hname, -, -, hfree, hp, hx⟩
      · rw [poolEntries, xstreamEntries, hp, hx]
        exact .same
      · rw [poolEntries, xstreamEntries, hp, hx, List.map_append, List.map_singleton, poolEntry,
          hpool, hname]
        exact .poolFromJson hid hfree
  | addPoolExternal hsame =>
      rename_i mid name pool own
      rw [hsame.entries.1, hsame.entries.2]
      rcases addExternalPool_cases r name pool abt with ⟨hp, hx⟩ | ⟨hname, hhandle, -, hp, hx⟩
      · rw [poolEntries, xstreamEntries, hp, hx]
        exact .same
      · rw [poolEntries, xstreamEntries, hp, hx, List.map_append, List.map_singleton]
        exact .poolExternal hname hhandle
  | removePool i =>
      rw [removePool_eq]
      split
      · next hr =>
          obtain ⟨p, hp⟩ := removable_getElem? hr
          exact .poolRemoved ((perm_swapRemove hp).map poolEntry)
      · exact .same
  | addXstreamFromJson =>
      rename_i mid j
      obtain ⟨hp, hx | ⟨x, hname, hhandle, hfree, hx⟩⟩ := addXstreamFromJson_entries r j abt
      · rw [poolEntries_of_static hp, xstreamEntries, hx]
        exact .same
      · rw [poolEntries_of_static hp, xstreamEntries, hx, List.map_append, List.map_singleton,
          xstreamKey, hname]
        exact .xstreamFromJson (hname ▸ hhandle) hfree
  | addXstreamExternal hadd hsame =>
      rename_i mid name x own abt₁ ok
      rw [hsame.entries.1, hsame.entries.2]
      obtain ⟨hp, hx | ⟨entry, rfl, rfl, ⟨id, pools, hobj⟩, hname, hhandle, hx⟩⟩ :=
        addExternalXstream_entries hadd
      · rw [poolEntries_of_static hp, xstreamEntries, hx]
        exact .same
      · rw [poolEntries_of_static hp, xstreamEntries, hx, List.map_append, List.map_singleton,
          xstreamKey]
        rw [hobj] at hhandle ⊢
        exact .xstreamExternal hname hhandle
  | removeXstream i =>
      obtain ⟨hp, hx | ⟨x, hname, hperm⟩⟩ := removeXstream_entries i abt
      · rw [poolEntries_of_static hp, xstreamEntries, hx]
        exact .same
      · rw [poolEntries_of_static hp]
        exact .xstreamRemoved (hperm.map xstreamKey) hname

/-- The primary xstream stays registered. -/
theorem hasPrimary_step {a : Call × Replies} {abt abt' : MargoAbt} (hp : HasPrimary abt)
    (h : callStep abt a = some abt') : HasPrimary abt' := by
  obtain ⟨c, r⟩ := a
  have hiff : ∀ abt : MargoAbt,
      HasPrimary abt ↔ "__primary__" ∈ (xstreamEntries abt).map Prod.fst := by
    intro abt
    simp [HasPrimary, xstreamEntries, xstreamKey]
  rw [hiff] at hp ⊢
  have hchange := Call.change h
  generalize poolEntries abt' = ps, xstreamEntries abt' = xs at hchange ⊢
  cases hchange with
  | same
  | poolFromJson
  | poolExternal
  | poolRemoved => exact hp
  | xstreamFromJson
  | xstreamExternal =>
      rw [List.map_append]
      exact List.mem_append_left _ hp
  | xstreamRemoved hperm hname =>
      rcases List.mem_cons.mp ((hperm.map Prod.fst).mem_iff.mp hp) with heq | hmem
      · exact absurd heq.symm hname
      · exact hmem

/-! ## Initialization -/

/-- What Argobots promises during an initialization: pools that it creates have
new handles. -/
structure FreshPools (r : InitReplies) : Prop where
  created : ∀ i j id, (r.pool i).poolCreate = some id → (r.pool j).poolCreate = some id → i = j
  self : ∀ i id, (r.pool i).poolCreate = some id → .obj id ∉ r.selfPools

/-- Every pool is the one that was created for its position. -/
def Numbered (r : InitReplies) (hs : List PoolHandle) : Prop :=
  ∀ k h, hs[k]? = some h → ∃ id, (r.pool k).poolCreate = some id ∧ h = .obj id

variable {r : InitReplies} {hs : List PoolHandle}

theorem Numbered.not_mem (hn : Numbered r hs) (hr : FreshPools r) {id : Nat}
    (hid : (r.pool hs.length).poolCreate = some id) : .obj id ∉ hs := by
  intro hmem
  obtain ⟨k, hk⟩ := List.mem_iff_getElem?.mp hmem
  obtain ⟨id', hid', heq⟩ := hn k _ hk
  obtain rfl : id = id' := by simpa using heq
  have hlt := (List.getElem?_eq_some_iff.mp hk).1
  have := hr.created _ _ _ hid hid'
  omega

/-- What holds of every position holds after one more entry. -/
theorem forall_getElem?_concat {α : Type*} {P : Nat → α → Prop} {l : List α} {a : α}
    (h : ∀ k e, l[k]? = some e → P k e) (ha : P l.length a) :
    ∀ k e, (l ++ [a])[k]? = some e → P k e := by
  intro k e hk
  rcases Nat.lt_or_ge k l.length with hlt | hge
  · rw [List.getElem?_append_left hlt] at hk
    exact h k e hk
  · rw [List.getElem?_append_right hge, List.getElem?_singleton] at hk
    split_ifs at hk with hz
    obtain rfl := Option.some.inj hk
    obtain rfl : k = l.length := by omega
    exact ha

theorem Numbered.append (hn : Numbered r hs) {id : Nat}
    (hid : (r.pool hs.length).poolCreate = some id) : Numbered r (hs ++ [.obj id]) :=
  forall_getElem?_concat hn ⟨id, hid, rfl⟩

/-- Pools that were created for their positions are distinct. -/
theorem Numbered.nodup (hn : Numbered r hs) (hr : FreshPools r) : hs.Nodup := by
  refine List.nodup_iff_getElem?_ne_getElem?.mpr fun i j hij hj heq => ?_
  obtain ⟨id, hid, hi⟩ := hn i _ (List.getElem?_eq_getElem (Nat.lt_trans hij hj))
  obtain ⟨id', hid', hj'⟩ := hn j _ (List.getElem?_eq_getElem hj)
  rw [List.getElem?_eq_getElem (Nat.lt_trans hij hj), List.getElem?_eq_getElem hj, hi, hj'] at heq
  obtain rfl : id = id' := by simpa using heq
  have := hr.created _ _ _ hid hid'
  omega

/-- The pool that becomes the primary one when Argobots was initialized before
is not one that was created for the configuration. -/
theorem Numbered.self_not_mem (hn : Numbered r hs) (hr : FreshPools r) :
    r.selfPools.headD .poolNull = .poolNull ∨ r.selfPools.headD .poolNull ∉ hs := by
  by_cases hnull : r.selfPools.headD .poolNull = .poolNull
  · exact .inl hnull
  · right
    intro hmem
    obtain ⟨k, hk⟩ := List.mem_iff_getElem?.mp hmem
    obtain ⟨id, hid, heq⟩ := hn k _ hk
    apply hr.self k id hid
    cases hself : r.selfPools with
    | nil => simp [hself] at hnull
    | cons h rest =>
        rw [hself, List.headD_cons] at heq
        exact heq ▸ List.mem_cons_self

/-- Creating xstreams changes no more of the pools than counting them does. -/
theorem initXstream_static {j : Json} {abt abt' : MargoAbt}
    (h : initXstream r j abt = some abt') :
    abt'.pools.map poolStatic = abt.pools.map poolStatic := by
  unfold initXstream at h
  split at h
  · cases h
  next abt₁ x hinit =>
  obtain rfl := Option.some.inj h
  exact (xstreamInitFromJson_entries hinit).1

/-- What a new pool keeps, the pools of the configuration keep. -/
theorem initPools_induction {P : MargoAbt → Prop}
    (hpool : ∀ {j abt p}, P abt →
      poolInitFromJson (r.pool abt.pools.length) j abt = some p → P (appendPool abt p))
    {js : List Json} {abt abt' : MargoAbt} (h : initPools r abt js = some abt') (hP : P abt) :
    P abt' := by
  induction js generalizing abt with
  | nil =>
      obtain rfl := Option.some.inj h
      exact hP
  | cons j js ih =>
      simp only [initPools] at h
      split at h
      · cases h
      · next p hp => exact ih h (hpool hP hp)

/-- What a new xstream keeps, the xstreams of the configuration keep. -/
theorem initXstreams_induction {P : MargoAbt → Prop}
    (hx : ∀ {j abt abt'}, P abt → initXstream r j abt = some abt' → P abt')
    {js : List Json} {abt abt' : MargoAbt} (h : initXstreams r abt js = some abt')
    (hP : P abt) : P abt' := by
  induction js generalizing abt with
  | nil =>
      obtain rfl := Option.some.inj h
      exact hP
  | cons j js ih =>
      simp only [initXstreams] at h
      split at h
      · cases h
      · next abt₁ hinit => exact ih h (hx hP hinit)

/-- The primary pool is a configured one or a new one. -/
theorem initPrimaryPool_cases {abt abt' : MargoAbt} {i : Nat}
    (h : initPrimaryPool r abt = some (abt', i)) :
    abt' = abt ∨ ∃ j p, findPoolByName abt (some (j.get "name").getString) = none ∧
      poolInitFromJson (r.pool abt.pools.length) j abt = some p ∧ abt' = appendPool abt p := by
  unfold initPrimaryPool at h
  split at h
  · obtain ⟨rfl, -⟩ := Prod.mk.inj (Option.some.inj h)
    exact .inl rfl
  · next hnone =>
      obtain ⟨p, hp, heq⟩ := Option.map_eq_some_iff.mp h
      obtain ⟨rfl, -⟩ := Prod.mk.inj heq
      refine .inr ⟨_, p, ?_, hp, rfl⟩
      exact hnone

theorem initXstreams_static {js : List Json} {abt abt' : MargoAbt}
    (h : initXstreams r abt js = some abt') :
    abt'.pools.map poolStatic = abt.pools.map poolStatic :=
  initXstreams_induction (P := fun s => s.pools.map poolStatic = abt.pools.map poolStatic)
    (fun hP hx => (initXstream_static hx).trans hP) h rfl

theorem checkPrimary_eq {es : Xstream} {abt abt' : MargoAbt}
    (h : checkPrimary r es abt = some abt') : abt' = abt := by
  simp only [checkPrimary] at h
  split at h
  · cases h
  · split at h
    · exact (Option.some.inj h).symm
    · split at h
      · exact (Option.some.inj h).symm
      · cases h

theorem hasPrimary_of_find {abt : MargoAbt} {i : Nat}
    (h : findXstreamByName abt (some "__primary__") = some i) : HasPrimary abt := by
  obtain ⟨hlt, hname, -⟩ := List.findIdx?_eq_some_iff_getElem.mp h
  exact ⟨_, List.getElem_mem hlt, by simpa using hname⟩

/-- The stages of a configuration: the pools, the xstreams, and the primary
xstream unless the configuration has one. -/
theorem abtInitFromJson_stages {j : Json} {abt : MargoAbt}
    (h : abtInitFromJson r j = some abt) :
    ∃ abt₁ abt₂,
      initPools r ⟨[], (j.get "pools").items.length + 3, [],
        (j.get "xstreams").items.length + 1⟩ (j.get "pools").items = some abt₁ ∧
      initXstreams r abt₁ (j.get "xstreams").items = some abt₂ ∧
      ((abt = abt₂ ∧ HasPrimary abt) ∨
        ((∀ x ∈ abt₂.xstreams, x.name ≠ "__primary__") ∧
          (if r.abtInitialized then initPrimaryExternal r abt₂ else initPrimary r abt₂) =
            some abt)) := by
  simp only [abtInitFromJson, Option.bind_eq_bind, Option.bind_eq_some_iff] at h
  obtain ⟨abt₁, hpools, abt₂, hxs, h⟩ := h
  refine ⟨abt₁, abt₂, hpools, hxs, ?_⟩
  split at h
  · next i hfind =>
      split at h
      · obtain rfl := checkPrimary_eq h
        exact .inl ⟨rfl, hasPrimary_of_find hfind⟩
      · cases h
  · next hnone => exact .inr ⟨findXstreamByName_none hnone, h⟩

theorem initPrimary_hasPrimary {abt abt' : MargoAbt} (h : initPrimary r abt = some abt') :
    HasPrimary abt' := by
  unfold initPrimary at h
  split at h
  · cases h
  unfold initXstream at h
  split at h
  · cases h
  next abt₁ x hinit =>
  obtain rfl := Option.some.inj h
  obtain ⟨-, -, hentry⟩ := xstreamInitFromJson_entries hinit
  refine ⟨x, List.mem_append_right _ (List.mem_singleton_self x), ?_⟩
  rw [(hentry x rfl).1]
  rfl

theorem initPrimaryExternal_hasPrimary {abt abt' : MargoAbt}
    (h : initPrimaryExternal r abt = some abt') : HasPrimary abt' := by
  simp only [initPrimaryExternal] at h
  split at h
  · next abt₁ x hinit =>
      obtain rfl := Option.some.inj h
      obtain ⟨-, -, hentry⟩ := xstreamInitExternal_entries hinit
      refine ⟨x, List.mem_append_right _ (List.mem_singleton_self x), ?_⟩
      exact (Option.some.inj (hentry x rfl).1).symm
  · cases h

/-- Every configured environment has a primary xstream. -/
theorem abtInitFromJson_hasPrimary {j : Json} {abt : MargoAbt}
    (h : abtInitFromJson r j = some abt) : HasPrimary abt := by
  obtain ⟨_, _, -, -, ⟨-, hprim⟩ | ⟨-, hprimary⟩⟩ := abtInitFromJson_stages h
  · exact hprim
  · split at hprimary
    · exact initPrimaryExternal_hasPrimary hprimary
    · exact initPrimary_hasPrimary hprimary

/-- Argobots was not initialized and grants everything. -/
def initGranted : InitReplies where
  abtInitialized := false
  pool i := granted i
  xstream i := granted (i + 1)
  mainPools := true
  self := 0
  selfPools := []

theorem freshPools_initGranted : FreshPools initGranted where
  created i j id hi hj := by
    simp only [initGranted, granted, Option.some.injEq] at hi hj
    omega
  self i id hi := by simp [initGranted]

/-- The environment of an instance without a configuration. -/
def primaryOnly : MargoAbt where
  pools := [⟨"__primary__", .obj 0, "fifo_wait", some "mpmc", 0, 1, false, true⟩]
  poolsCap := 3
  xstreams := [⟨"__primary__", .obj 0 [.obj 0], "basic_wait", 0, false⟩]
  xstreamsCap := 1

/-- An instance on the primary pool. -/
def caller : Option Instance := some ⟨0, 0⟩

end Margo.Abt
