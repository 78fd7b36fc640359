import Margo.Abt.Config
import Mathlib.Data.List.Count
import Mathlib.Data.List.TakeWhile
import Mathlib.Logic.Function.Iterate

/-!
# What the registry operations can do

One lemma for every operation of the registry: what it needs to succeed, what
it then does to the two arrays, and that it leaves them alone otherwise.
Updates of pools found by their handle, one after the other, are described at
once by how often each pool is met.
-/

namespace Margo.Abt

open Lib

/-! ## Adding and removing pools -/

theorem growPools_eq {r : Replies} {abt abt' : MargoAbt} (h : growPools r abt = some abt') :
    abt'.pools = abt.pools ∧ abt'.xstreams = abt.xstreams := by
  unfold growPools at h
  split_ifs at h <;> obtain rfl := Option.some.inj h <;> exact ⟨rfl, rfl⟩

theorem growXstreams_eq {r : Replies} {abt abt' : MargoAbt}
    (h : growXstreams r abt = some abt') :
    abt'.pools = abt.pools ∧ abt'.xstreams = abt.xstreams := by
  unfold growXstreams at h
  split_ifs at h <;> obtain rfl := Option.some.inj h <;> exact ⟨rfl, rfl⟩

theorem poolInitFromJson_eq {r : Replies} {j : Json} {abt : MargoAbt} {p : Pool}
    (h : poolInitFromJson r j abt = some p) :
    ∃ id, r.poolCreate = some id ∧ p.pool = .obj id ∧ p.name = poolJsonName j abt ∧
      p.refcount = 0 ∧ p.numXstreams = 0 := by
  simp only [poolInitFromJson] at h
  split_ifs at h
  all_goals
    obtain ⟨id, hid, rfl⟩ := Option.map_eq_some_iff.mp h
    exact ⟨id, hid, rfl, rfl, rfl, rfl⟩

/-- `__margo_abt_add_pool_from_json` either leaves the arrays alone or appends a
pool with a new handle, a name that is not in use or a generated one, and no
users. -/
theorem addPoolFromJson_cases (r : Replies) (j : Json) (abt : MargoAbt) :
    ((addPoolFromJson r j abt).1.pools = abt.pools ∧
      (addPoolFromJson r j abt).1.xstreams = abt.xstreams) ∨
    ∃ id p, r.poolCreate = some id ∧ p.pool = .obj id ∧ p.name = poolJsonName j abt ∧
      p.refcount = 0 ∧ p.numXstreams = 0 ∧
      ((j.get "name").present = true →
        findPoolByName abt (some (j.get "name").getString) = none) ∧
      (addPoolFromJson r j abt).1.pools = abt.pools ++ [p] ∧
      (addPoolFromJson r j abt).1.xstreams = abt.xstreams := by
  unfold addPoolFromJson
  split
  · exact .inl ⟨rfl, rfl⟩
  · split
    · exact .inl ⟨rfl, rfl⟩
    · next hname =>
        split
        · exact .inl ⟨rfl, rfl⟩
        · next abt' hgrow =>
            obtain ⟨hpools, hxs⟩ := growPools_eq hgrow
            split
            · exact .inl ⟨hpools, hxs⟩
            · next p hp =>
                obtain ⟨id, hid, hpool, hpname, href, hnum⟩ := poolInitFromJson_eq hp
                refine .inr ⟨id, p, hid, hpool, ?_, href, hnum, ?_, ?_, hxs⟩
                · rw [hpname]
                  simp only [poolJsonName, generateUnusedPoolName, hpools]
                · intro hpres
                  simpa [hpres] using hname
                · simp only [appendPool, hpools]

/-- `__margo_abt_add_external_pool` either leaves the arrays alone or appends
the pool, which was registered under neither its name nor its handle. -/
theorem addExternalPool_cases (r : Replies) (name : Option String) (h : PoolHandle)
    (abt : MargoAbt) :
    ((addExternalPool r name h abt).1.pools = abt.pools ∧
      (addExternalPool r name h abt).1.xstreams = abt.xstreams) ∨
    (findPoolByName abt name = none ∧ findPoolByHandle abt h = none ∧
      (growPools r abt).isSome = true ∧
      (addExternalPool r name h abt).1.pools = abt.pools ++ [poolInitExternal name h abt] ∧
      (addExternalPool r name h abt).1.xstreams = abt.xstreams) := by
  unfold addExternalPool
  split
  · exact .inl ⟨rfl, rfl⟩
  · next hname =>
      split
      · exact .inl ⟨rfl, rfl⟩
      · next hhandle =>
          split
          · exact .inl ⟨rfl, rfl⟩
          · next abt' hgrow =>
              obtain ⟨hpools, hxs⟩ := growPools_eq hgrow
              refine .inr ⟨by simpa using hname, by simpa using hhandle, by rw [hgrow]; rfl, ?_,
                hxs⟩
              simp only [appendPool, poolInitExternal, generateUnusedPoolName, hpools]

/-- An addition reports success exactly if the array of pools is one longer. -/
theorem length_addPoolFromJson (r : Replies) (j : Json) (abt : MargoAbt) :
    (addPoolFromJson r j abt).1.pools.length =
      abt.pools.length + (addPoolFromJson r j abt).2.toNat := by
  unfold addPoolFromJson
  split
  · rfl
  · split
    · rfl
    · split
      · rfl
      · next abt' hgrow =>
          obtain ⟨hpools, -⟩ := growPools_eq hgrow
          split
          · exact congrArg List.length hpools
          · simp [appendPool, hpools]

theorem length_addExternalPool (r : Replies) (name : Option String) (h : PoolHandle)
    (abt : MargoAbt) :
    (addExternalPool r name h abt).1.pools.length =
      abt.pools.length + (addExternalPool r name h abt).2.toNat := by
  unfold addExternalPool
  split
  · rfl
  · split
    · rfl
    · split
      · rfl
      · next abt' hgrow =>
          obtain ⟨hpools, -⟩ := growPools_eq hgrow
          simp [appendPool, hpools]

/-- The condition under which `__margo_abt_remove_pool` removes a pool. -/
def removable (r : Replies) (index : Nat) (abt : MargoAbt) : Bool :=
  abt.pools[index]?.any (fun p => p.refcount == 0 && p.numXstreams == 0) &&
    r.totalSize == some 0

theorem removable_getElem? {r : Replies} {i : Nat} {abt : MargoAbt}
    (h : removable r i abt = true) : ∃ p, abt.pools[i]? = some p := by
  cases hp : abt.pools[i]? with
  | none => simp [removable, hp] at h
  | some p => exact ⟨p, rfl⟩

/-- `__margo_abt_remove_pool` removes a pool without users, or does nothing and
says so. -/
theorem removePool_cases (r : Replies) (index : Nat) (abt : MargoAbt) :
    (removable r index abt = true ∧
      removePool r index abt = ({ abt with pools := swapRemove abt.pools index }, .success)) ∨
    (removable r index abt = false ∧ (removePool r index abt).1 = abt ∧
      (removePool r index abt).2 ≠ .success) := by
  unfold removePool removable
  cases hp : abt.pools[index]? with
  | none => simp
  | some p =>
      by_cases href : p.refcount = 0
      · by_cases hnum : p.numXstreams = 0
        · rcases hs : r.totalSize with _ | _ | size <;> simp [href, hnum]
        · simp [href, hnum]
      · simp [href]

theorem removePool_eq (r : Replies) (index : Nat) (abt : MargoAbt) :
    (removePool r index abt).1 =
      if removable r index abt then { abt with pools := swapRemove abt.pools index }
      else abt := by
  obtain ⟨hrem, heq⟩ | ⟨hrem, heq, -⟩ := removePool_cases r index abt
  · rw [heq, hrem, if_pos rfl]
  · rw [heq, hrem, if_neg Bool.false_ne_true]

/-! ## Pools behind handles -/

/-- The handle is that of a registered pool. -/
def registered (abt : MargoAbt) (h : PoolHandle) : Bool := (findPoolByHandle abt h).isSome

/-- No two registered pools have the same handle, `ABT_POOL_NULL` apart. -/
def DistinctPools (abt : MargoAbt) : Prop :=
  abt.pools.Pairwise fun p q => p.pool = q.pool → p.pool = .poolNull

theorem registered_iff (abt : MargoAbt) (h : PoolHandle) :
    registered abt h = true ↔ h ≠ .poolNull ∧ ∃ p ∈ abt.pools, p.pool = h := by
  unfold registered findPoolByHandle
  by_cases hn : h = .poolNull
  · simp [hn]
  · simp [hn]

theorem findPoolByHandle_some {abt : MargoAbt} {h : PoolHandle} {i : Nat}
    (hf : findPoolByHandle abt h = some i) :
    h ≠ .poolNull ∧ ∃ p, abt.pools[i]? = some p ∧ p.pool = h := by
  unfold findPoolByHandle at hf
  split_ifs at hf with hn
  obtain ⟨hlt, hp, -⟩ := List.findIdx?_eq_some_iff_getElem.mp hf
  exact ⟨hn, _, List.getElem?_eq_getElem hlt, by simpa using hp⟩

theorem findPoolByHandle_none {abt : MargoAbt} {h : PoolHandle}
    (hf : findPoolByHandle abt h = none) : h = .poolNull ∨ h ∉ abt.pools.map (·.pool) := by
  unfold findPoolByHandle at hf
  split_ifs at hf with hn
  · exact .inl hn
  · right
    intro hmem
    obtain ⟨p, hp, rfl⟩ := List.mem_map.mp hmem
    simpa using List.findIdx?_eq_none_iff.mp hf p hp

/-- With distinct handles, updating the pool found by a handle updates every
pool with that handle. -/
theorem modify_eq_map {f : Pool → Pool} {ps : List Pool} {i : Nat} {q : Pool} {h : PoolHandle}
    (hd : ps.Pairwise fun p q => p.pool = q.pool → p.pool = .poolNull) (hn : h ≠ .poolNull)
    (hi : ps[i]? = some q) (hq : q.pool = h) :
    ps.modify i f = ps.map fun p => if p.pool = h then f p else p := by
  induction ps generalizing i with
  | nil => simp at hi
  | cons p ps ih =>
      obtain ⟨hhead, htail⟩ := List.pairwise_cons.mp hd
      cases i with
      | zero =>
          obtain rfl : p = q := by simpa using hi
          have hrest : ps.map (fun p => if p.pool = h then f p else p) = ps := by
            refine (List.map_congr_left fun p' hp' => ?_).trans (List.map_id ps)
            rw [if_neg]
            · rfl
            · intro heq
              exact hn (hq ▸ hhead p' hp' (hq.trans heq.symm))
          simp [hq, hrest]
      | succ i =>
          have hi' : ps[i]? = some q := by simpa using hi
          have hne : p.pool ≠ h := by
            intro heq
            exact hn (heq ▸ hhead q (List.mem_of_getElem? hi') (heq.trans hq.symm))
          simp [hne, ih htail hi']

theorem pairwise_map {f : Pool → Pool} {ps : List Pool} (hf : ∀ p, (f p).pool = p.pool)
    (hd : ps.Pairwise fun p q => p.pool = q.pool → p.pool = .poolNull) :
    (ps.map f).Pairwise fun p q => p.pool = q.pool → p.pool = .poolNull := by
  rw [List.pairwise_map]
  simpa only [hf] using hd

/-- An update that keeps the handles keeps what is registered. -/
theorem registered_map {f : Pool → Pool} (hf : ∀ p, (f p).pool = p.pool) (abt : MargoAbt) :
    registered { abt with pools := abt.pools.map f } = registered abt := by
  funext h
  apply Bool.eq_iff_iff.mpr
  rw [registered_iff, registered_iff]
  simp only [List.mem_map, exists_exists_and_eq_and, hf]

/-- Walking over handles updates every pool as often as its handle is met before
the first one that is not registered, and succeeds if all of them are. -/
theorem walkPools_eq {f : Pool → Pool} (hf : ∀ p, (f p).pool = p.pool) {abt : MargoAbt}
    (hd : DistinctPools abt) (hs : List PoolHandle) :
    walkPools f abt hs =
      ({ abt with pools := abt.pools.map fun p =>
          f^[(hs.takeWhile (registered abt)).count p.pool] p },
        hs.all (registered abt)) := by
  induction hs generalizing abt with
  | nil => simp [walkPools]
  | cons h hs ih =>
      unfold walkPools
      cases hfind : findPoolByHandle abt h with
      | none =>
          have hreg : registered abt h = false := by simp [registered, hfind]
          simp [hreg]
      | some i =>
          have hreg : registered abt h = true := by simp [registered, hfind]
          obtain ⟨hn, q, hi, hq⟩ := findPoolByHandle_some hfind
          have hone : ∀ p : Pool, (if p.pool = h then f p else p).pool = p.pool := by
            intro p
            split
            · exact hf p
            · rfl
          simp only [modify_eq_map hd hn hi hq]
          have hd' : DistinctPools { abt with
              pools := abt.pools.map fun p => if p.pool = h then f p else p } :=
            pairwise_map hone hd
          rw [ih hd', registered_map hone]
          simp only [List.takeWhile_cons, hreg, if_true, List.all_cons, Bool.true_and,
            List.map_map, Prod.mk.injEq, and_true]
          congr 1
          apply List.map_congr_left
          intro p _
          simp only [Function.comp_apply, hone, List.count_cons]
          by_cases hp : p.pool = h
          · simp [hp]
          · simp [hp, Ne.symm hp]

theorem walkPools_xstreams (f : Pool → Pool) (abt : MargoAbt) (hs : List PoolHandle) :
    (walkPools f abt hs).1.xstreams = abt.xstreams := by
  induction hs generalizing abt with
  | nil => rfl
  | cons h hs ih =>
      unfold walkPools
      split
      · rfl
      · exact ih _

theorem map_modify_of_eq {α β : Type*} {f : α → α} {g : α → β} (hg : ∀ a, g (f a) = g a)
    (l : List α) (i : Nat) : (l.modify i f).map g = l.map g := by
  apply List.ext_getElem?
  intro j
  simp only [List.getElem?_map, List.getElem?_modify]
  cases l[j]? with
  | none => rfl
  | some a => by_cases hj : i = j <;> simp [hj, hg]

/-- A field that the update keeps is kept in every pool. -/
theorem walkPools_map {α : Type*} {f : Pool → Pool} {g : Pool → α} (hg : ∀ p, g (f p) = g p)
    (abt : MargoAbt) (hs : List PoolHandle) :
    (walkPools f abt hs).1.pools.map g = abt.pools.map g := by
  induction hs generalizing abt with
  | nil => rfl
  | cons h hs ih =>
      unfold walkPools
      split
      · rfl
      · rw [ih]
        exact map_modify_of_eq hg abt.pools _

/-! ## Adding and removing xstreams -/

theorem registered_congr {abt abt' : MargoAbt} (h : abt'.pools = abt.pools) :
    registered abt' = registered abt := by
  funext handle
  simp only [registered, findPoolByHandle, h]

theorem DistinctPools.congr {abt abt' : MargoAbt} (hd : DistinctPools abt)
    (h : abt'.pools = abt.pools) : DistinctPools abt' := by
  unfold DistinctPools
  rw [h]
  exact hd

theorem countUse_pool (b : Bool) (p : Pool) : (countUse b p).pool = p.pool := rfl

theorem discountUse_pool (p : Pool) : (discountUse p).pool = p.pool := rfl

/-- What tells two pools apart, and the number of their users. -/
def poolKey (p : Pool) : String × PoolHandle × Nat := (p.name, p.pool, p.numXstreams)

theorem poolKey_countUse (b : Bool) (k : Nat) (p : Pool) :
    poolKey ((countUse b)^[k] p) = (p.name, p.pool, incr32^[k] p.numXstreams) := by
  induction k generalizing p with
  | zero => rfl
  | succ k ih =>
      rw [Function.iterate_succ_apply, ih, Function.iterate_succ_apply]
      rfl

theorem poolKey_discountUse (k : Nat) (p : Pool) :
    poolKey (discountUse^[k] p) = (p.name, p.pool, decr32^[k] p.numXstreams) := by
  induction k generalizing p with
  | zero => rfl
  | succ k ih =>
      rw [Function.iterate_succ_apply, ih, Function.iterate_succ_apply]
      rfl

/-- The pools after an xstream with these scheduler pools has been counted. -/
def countedIn (primary : Bool) (handles : List PoolHandle) (ps : List Pool) : List Pool :=
  ps.map fun p => (countUse primary)^[handles.count p.pool] p

/-- The pools after an xstream with these scheduler pools has been discounted. -/
def discountedIn (handles : List PoolHandle) (ps : List Pool) : List Pool :=
  ps.map fun p => discountUse^[handles.count p.pool] p

theorem countXstream_some {b : Bool} {x x' : Xstream} {pools : List PoolHandle}
    {abt abt' : MargoAbt} (hd : DistinctPools abt)
    (h : countXstream b x pools abt = (abt', some x')) :
    x' = x ∧ pools.all (registered abt) = true ∧
      abt'.pools = countedIn b pools abt.pools ∧ abt'.xstreams = abt.xstreams := by
  unfold countXstream at h
  rw [walkPools_eq (countUse_pool b) hd] at h
  cases hall : pools.all (registered abt) with
  | false => simp [hall] at h
  | true =>
      simp only [hall, Prod.mk.injEq, Option.some.injEq] at h
      obtain ⟨rfl, rfl⟩ := h
      refine ⟨rfl, rfl, ?_, rfl⟩
      rw [List.takeWhile_eq_self_iff.mpr (List.all_eq_true.mp hall)]
      rfl

/-- An xstream that could not be counted to the end is discounted as far as it
was counted. -/
theorem countXstream_none {b : Bool} {x : Xstream} {id : Nat} {pools : List PoolHandle}
    {abt abt' : MargoAbt} (hd : DistinctPools abt) (hx : x.xstream = .obj id pools)
    (h : countXstream b x pools abt = (abt', none)) :
    ∃ hs, abt'.pools = discountedIn hs (countedIn b hs abt.pools) ∧
      abt'.xstreams = abt.xstreams := by
  unfold countXstream at h
  rw [walkPools_eq (countUse_pool b) hd] at h
  cases hall : pools.all (registered abt) with
  | true => simp [hall] at h
  | false =>
      simp only [hall, Prod.mk.injEq, and_true, hx, xstreamDestroy] at h
      have hkeep : ∀ p : Pool, ((countUse b)^[
          (pools.takeWhile (registered abt)).count p.pool] p).pool = p.pool := by
        intro p
        exact congrArg (·.2.1) (poolKey_countUse b _ p)
      have hd' : DistinctPools { abt with pools := abt.pools.map fun p =>
          (countUse b)^[(pools.takeWhile (registered abt)).count p.pool] p } :=
        pairwise_map hkeep hd
      rw [walkPools_eq discountUse_pool hd', registered_map hkeep] at h
      subst h
      exact ⟨_, rfl, rfl⟩

/-- An xstream that was initialized from JSON has a handle of its own, the
calling xstream if it is the primary one, and is counted in its pools. -/
theorem xstreamInitFromJson_some {r : Replies} {j : Json} {abt abt' : MargoAbt} {x : Xstream}
    (hd : DistinctPools abt) (hcreate : r.xstreamCreate.isSome = true)
    (h : xstreamInitFromJson r j abt = (abt', some x)) :
    ∃ id pools b, x.xstream = .obj id pools ∧ x.name = xstreamJsonName j abt ∧
      (if x.name = "__primary__" then r.xstreamSelf else r.xstreamCreate) = some id ∧
      pools.all (registered abt) = true ∧ abt'.pools = countedIn b pools abt.pools ∧
      abt'.xstreams = abt.xstreams := by
  obtain ⟨id, hid⟩ := Option.isSome_iff_exists.mp hcreate
  simp only [xstreamInitFromJson, hid] at h
  split at h
  · cases (Prod.mk.inj h).2
  split at h
  · cases (Prod.mk.inj h).2
  next type pools _ =>
  split at h
  · next hname =>
      obtain ⟨rfl, hall, hpools, hxs⟩ := countXstream_some hd h
      exact ⟨id, pools, false, rfl, rfl, by rw [if_neg hname, hid], hall, hpools, hxs⟩
  · next hname =>
      split at h
      · cases (Prod.mk.inj h).2
      next self hself =>
      split at h
      · obtain ⟨rfl, hall, hpools, hxs⟩ := countXstream_some hd h
        exact ⟨self, pools, true, rfl, rfl, by rw [if_pos (not_not.mp hname), hself], hall,
          hpools, hxs⟩
      · cases (Prod.mk.inj h).2

/-- A failing initialization of an xstream that is not the primary one takes
back what it has counted. -/
theorem xstreamInitFromJson_none {r : Replies} {j : Json} {abt abt' : MargoAbt}
    (hd : DistinctPools abt) (hcreate : r.xstreamCreate.isSome = true)
    (hname : xstreamJsonName j abt ≠ "__primary__")
    (h : xstreamInitFromJson r j abt = (abt', none)) :
    ∃ hs, abt'.pools = discountedIn hs (countedIn false hs abt.pools) ∧
      abt'.xstreams = abt.xstreams := by
  have hsame : ∃ hs, abt.pools = discountedIn hs (countedIn false hs abt.pools) ∧
      abt.xstreams = abt.xstreams := ⟨[], by simp [discountedIn, countedIn], rfl⟩
  obtain ⟨id, hid⟩ := Option.isSome_iff_exists.mp hcreate
  simp only [xstreamInitFromJson, hid, hname, ne_eq, not_false_eq_true, if_true] at h
  split at h
  · obtain rfl := (Prod.mk.inj h).1
    exact hsame
  split at h
  · obtain rfl := (Prod.mk.inj h).1
    exact hsame
  · exact countXstream_none hd rfl h

/-- A generated name is printed, unless the generator ran out of candidates. -/
theorem generateUnusedName_cases (print : Nat → String) (used : List String) :
    generateUnusedName print used = "" ∨ ∃ i, generateUnusedName print used = print i := by
  unfold generateUnusedName
  cases h : Fresh.firstUnused (fun k => print ((used.length + k) % 2 ^ 32)) used
      (used.length + 1) 0 with
  | none => exact .inl rfl
  | some name =>
      obtain ⟨-, i, -, -, rfl⟩ := Fresh.firstUnused_spec h
      exact .inr ⟨_, rfl⟩

theorem generateUnusedName_ne {print : Nat → String} (hprint : ∀ i, print i ≠ "__primary__")
    (used : List String) : generateUnusedName print used ≠ "__primary__" := by
  rcases generateUnusedName_cases print used with hempty | ⟨i, hi⟩
  · rw [hempty]
    decide
  · rw [hi]
    exact hprint i

theorem printedPool_ne (i : Nat) : "__pool_" ++ printInt i ++ "__" ≠ "__primary__" := by
  intro h
  have hlist := congrArg String.toList h
  simp [String.toList_append] at hlist

theorem generateUnusedPoolName_ne (abt : MargoAbt) :
    generateUnusedPoolName abt ≠ "__primary__" :=
  generateUnusedName_ne printedPool_ne _

theorem generateUnusedXstreamName_ne (abt : MargoAbt) :
    generateUnusedXstreamName abt ≠ "__primary__" := by
  refine generateUnusedName_ne (fun i h => ?_) _
  have hlist := congrArg String.toList h
  simp [String.toList_append] at hlist

/-- An xstream named like the primary one is registered. -/
def HasPrimary (abt : MargoAbt) : Prop := ∃ x ∈ abt.xstreams, x.name = "__primary__"

theorem findXstreamByName_none {abt : MargoAbt} {name : String}
    (h : findXstreamByName abt (some name) = none) : ∀ x ∈ abt.xstreams, x.name ≠ name := by
  intro x hx
  simpa using List.findIdx?_eq_none_iff.mp h x hx

theorem xstreamJsonName_ne {abt : MargoAbt} {j : Json} (hp : HasPrimary abt)
    (h : (j.get "name").present = true →
      findXstreamByName abt (some (j.get "name").getString) = none) :
    xstreamJsonName j abt ≠ "__primary__" := by
  unfold xstreamJsonName
  split
  · next hpres =>
      obtain ⟨x, hx, hname⟩ := hp
      intro heq
      exact findXstreamByName_none (h hpres) x hx (hname.trans heq.symm)
  · exact generateUnusedXstreamName_ne abt

/-- `__margo_abt_add_xstream_from_json`, next to the primary xstream: it
registers a new xstream counted in its pools, or takes back what it has counted. -/
theorem addXstreamFromJson_cases {r : Replies} {j : Json} {abt : MargoAbt}
    (hd : DistinctPools abt) (hp : HasPrimary abt) (hcreate : r.xstreamCreate.isSome = true) :
    (∃ hs, (addXstreamFromJson r j abt).1.pools =
        discountedIn hs (countedIn false hs abt.pools) ∧
      (addXstreamFromJson r j abt).1.xstreams = abt.xstreams) ∨
    ∃ id pools b x, x.xstream = .obj id pools ∧ x.name = xstreamJsonName j abt ∧
      r.xstreamCreate = some id ∧
      ((j.get "name").present = true →
        findXstreamByName abt (some (j.get "name").getString) = none) ∧
      pools.all (registered abt) = true ∧ (addXstreamFromJson r j abt).2 = true ∧
      (addXstreamFromJson r j abt).1.pools = countedIn b pools abt.pools ∧
      (addXstreamFromJson r j abt).1.xstreams = abt.xstreams ++ [x] := by
  have hsame : ∃ hs, abt.pools = discountedIn hs (countedIn false hs abt.pools) ∧
      abt.xstreams = abt.xstreams := ⟨[], by simp [discountedIn, countedIn], rfl⟩
  unfold addXstreamFromJson
  split
  · exact .inl hsame
  split
  · exact .inl hsame
  next hused =>
  have hfree : (j.get "name").present = true →
      findXstreamByName abt (some (j.get "name").getString) = none := by
    intro hpres
    simpa [hpres] using hused
  split
  · exact .inl hsame
  next abt₁ hgrow =>
  obtain ⟨hpools, hxs⟩ := growXstreams_eq hgrow
  have hname : xstreamJsonName j abt₁ = xstreamJsonName j abt := by
    simp only [xstreamJsonName, generateUnusedXstreamName, hxs]
  have hne := xstreamJsonName_ne hp hfree
  split
  · next abt₂ hinit =>
      obtain ⟨hs, hp₂, hx₂⟩ :=
        xstreamInitFromJson_none (hd.congr hpools) hcreate (hname ▸ hne) hinit
      exact .inl ⟨hs, by rw [hp₂, hpools], by rw [hx₂, hxs]⟩
  · next abt₂ x hinit =>
      obtain ⟨id, pools, b, hx, hxname, hid, hall, hp₂, hx₂⟩ :=
        xstreamInitFromJson_some (hd.congr hpools) hcreate hinit
      rw [hname] at hxname
      rw [hxname, if_neg hne] at hid
      rw [registered_congr hpools] at hall
      refine .inr ⟨id, pools, b, x, hx, hxname, hid, hfree, hall, rfl, ?_, ?_⟩
      · rw [appendXstream, hp₂, hpools]
      · rw [appendXstream, hx₂, hxs]

/-- Initializing an external xstream: its handle may be none, a pool of it may
be missing, and otherwise it is counted in its pools. -/
theorem xstreamInitExternal_cases {name : Option String} {x : XstreamHandle}
    {abt abt' : MargoAbt} {out : Option Xstream} (hd : DistinctPools abt)
    (h : xstreamInitExternal name x abt = some (abt', out)) :
    (abt' = abt ∧ out = none) ∨
    (∃ id pools n b entry, x = .obj id pools ∧ name = some n ∧ out = some entry ∧
      entry.name = n ∧ entry.xstream = x ∧ pools.all (registered abt) = true ∧
      abt'.pools = countedIn b pools abt.pools ∧ abt'.xstreams = abt.xstreams) ∨
    ∃ id pools, x = .obj id pools ∧ out = none ∧ pools.all (registered abt) = false ∧
      abt'.pools = discountedIn (pools.takeWhile (registered abt)) abt.pools ∧
      abt'.xstreams = abt.xstreams := by
  cases x with
  | null => exact .inl (by simpa [xstreamInitExternal, eq_comm] using h)
  | xstreamNull => exact .inl (by simpa [xstreamInitExternal, eq_comm] using h)
  | obj id pools =>
      have hany : (pools.any fun p => (findPoolByHandle abt p).isNone) =
          !pools.all (registered abt) := by
        rw [List.not_all_eq_any_not]
        simp only [registered, Option.not_isSome]
      simp only [xstreamInitExternal, hany] at h
      cases hall : pools.all (registered abt) with
      | false =>
          simp only [hall, Bool.not_false, if_true, Option.some.injEq, Prod.mk.injEq,
            xstreamDestroy, walkPools_eq discountUse_pool hd] at h
          obtain ⟨rfl, rfl⟩ := h
          exact .inr (.inr ⟨id, pools, rfl, rfl, hall, rfl, rfl⟩)
      | true =>
          simp only [hall, Bool.not_true, Bool.false_eq_true, if_false,
            Option.map_eq_some_iff] at h
          obtain ⟨n, rfl, h⟩ := h
          cases out with
          | none =>
              simp [countXstream, walkPools_eq (countUse_pool _) hd, hall] at h
          | some entry =>
              obtain ⟨rfl, -, hpools, hxs⟩ := countXstream_some hd h
              exact .inr (.inl ⟨id, pools, n, _, _, rfl, rfl, rfl, rfl, rfl, hall, hpools, hxs⟩)

/-- `__margo_abt_add_external_xstream`: it does nothing, registers an xstream
all of whose pools are registered and counts it in them, or discounts an xstream
that it has never counted, up to its first pool that is not registered. -/
theorem addExternalXstream_cases {r : Replies} {name : Option String} {x : XstreamHandle}
    {abt abt' : MargoAbt} {ok : Bool} (hd : DistinctPools abt)
    (h : addExternalXstream r name x abt = some (abt', ok)) :
    (abt'.pools = abt.pools ∧ abt'.xstreams = abt.xstreams) ∨
    (∃ id pools n b entry, x = .obj id pools ∧ name = some n ∧
      findXstreamByName abt name = none ∧ findXstreamByHandle abt x = none ∧
      entry.name = n ∧ entry.xstream = x ∧ pools.all (registered abt) = true ∧ ok = true ∧
      abt'.pools = countedIn b pools abt.pools ∧ abt'.xstreams = abt.xstreams ++ [entry]) ∨
    ∃ id pools, x = .obj id pools ∧ findXstreamByName abt name = none ∧
      findXstreamByHandle abt x = none ∧ (growXstreams r abt).isSome = true ∧
      pools.all (registered abt) = false ∧
      abt'.pools = discountedIn (pools.takeWhile (registered abt)) abt.pools ∧
      abt'.xstreams = abt.xstreams := by
  unfold addExternalXstream at h
  split at h
  · obtain rfl := (Prod.mk.inj (Option.some.inj h)).1
    exact .inl ⟨rfl, rfl⟩
  next hname =>
  split at h
  · obtain rfl := (Prod.mk.inj (Option.some.inj h)).1
    exact .inl ⟨rfl, rfl⟩
  next hhandle =>
  simp only [Bool.not_eq_true, Option.isSome_eq_false_iff, Option.isNone_iff_eq_none]
    at hname hhandle
  split at h
  · obtain rfl := (Prod.mk.inj (Option.some.inj h)).1
    exact .inl ⟨rfl, rfl⟩
  next abt₁ hgrow =>
  obtain ⟨hpools, hxs⟩ := growXstreams_eq hgrow
  have hreg := registered_congr hpools
  cases hinit : xstreamInitExternal name x abt₁ with
  | none => simp [hinit] at h
  | some result =>
      obtain ⟨abt₂, out⟩ := result
      rcases xstreamInitExternal_cases (hd.congr hpools) hinit with
        ⟨rfl, rfl⟩ | ⟨id, pools, n, b, entry, rfl, rfl, rfl, hn, hx, hall, hp₂, hx₂⟩ |
        ⟨id, pools, rfl, rfl, hall, hp₂, hx₂⟩
      · simp only [hinit, Option.some.injEq, Prod.mk.injEq] at h
        obtain ⟨rfl, -⟩ := h
        exact .inl ⟨hpools, hxs⟩
      · simp only [hinit, Option.some.injEq, Prod.mk.injEq] at h
        obtain ⟨rfl, hok⟩ := h
        rw [hreg] at hall
        refine .inr (.inl ⟨id, pools, n, b, entry, rfl, rfl, hname, hhandle, hn, hx, hall,
          hok.symm, ?_, ?_⟩)
        · rw [appendXstream, hp₂, hpools]
        · rw [appendXstream, hx₂, hxs]
      · simp only [hinit, Option.some.injEq, Prod.mk.injEq] at h
        obtain ⟨rfl, -⟩ := h
        rw [hreg] at hall
        refine .inr (.inr ⟨id, pools, rfl, hname, hhandle, by rw [hgrow]; rfl, hall, ?_, ?_⟩)
        · rw [hp₂, hreg, hpools]
        · rw [hx₂, hxs]

theorem xstreamDestroy_xstreams (x : XstreamHandle) (abt : MargoAbt) :
    (xstreamDestroy x abt).xstreams = abt.xstreams := by
  cases x with
  | obj id pools => exact walkPools_xstreams discountUse abt pools
  | null => rfl
  | xstreamNull => rfl

/-- `__margo_abt_remove_xstream` removes an xstream that is not the primary one
and discounts it, or does nothing. -/
theorem removeXstream_cases (i : Nat) (abt : MargoAbt) :
    (removeXstream i abt).1 = abt ∨
    ∃ x, abt.xstreams[i]? = some x ∧ x.name ≠ "__primary__" ∧ x.refcount = 0 ∧
      (removeXstream i abt).1.pools = (xstreamDestroy x.xstream abt).pools ∧
      (removeXstream i abt).1.xstreams = swapRemove abt.xstreams i := by
  unfold removeXstream
  split
  · exact .inl rfl
  next x hx =>
  split_ifs with hname href
  · exact .inl rfl
  · exact .inl rfl
  · refine .inr ⟨x, hx, hname, not_not.mp href, rfl, ?_⟩
    exact congrArg (swapRemove · i) (xstreamDestroy_xstreams x.xstream abt)

end Margo.Abt
