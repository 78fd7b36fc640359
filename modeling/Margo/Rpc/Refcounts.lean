import Margo.Abt.Entries
import Margo.Lib.Directory
import Margo.Lib.Runs
import Margo.Lib.UseLedger
import Margo.Rpc.Registration

/-!
# The reference counts of the pools

A pool's `refcount` is meant to be the number of registered RPC ids whose data
names the pool, plus the references that users hold on it. Registering,
deregistering and moving an RPC find the pool by its handle when they happen,
so that a pool that was not yet registered at that time is never counted.

## Implementation notes

As for the use counts, the counts are kept modulo `2 ^ 32` and are exact when
no pool has so many users.
-/

namespace Margo.Rpc

open Lib Lib.Runs Abt

/-- The pools of the ids that have data. -/
def rpcPools (rpcs : List ((Nat × Nat) × Option PoolHandle)) : List PoolHandle :=
  rpcs.filterMap Prod.snd

/-- The pools in use, as often as they are used. -/
def holders (w : World) : List PoolHandle := rpcPools w.rpcs ++ w.userRefs

/-- The number of registered RPC ids whose data names the pool, and of the
references on it that users hold. -/
def users (w : World) (h : PoolHandle) : Nat :=
  w.rpcs.countP (fun e => e.2 = some h) + w.userRefs.count h

/-- Every reference count is the number of users. -/
def Counted (w : World) : Prop := ∀ p ∈ w.abt.pools, p.refcount = users w p.pool

/-- No pool has more users than its counter can tell. -/
def Few (w : World) : Prop := ∀ p ∈ w.abt.pools, users w p.pool < 2 ^ 32

/-- The handles of the pools. -/
def handles (abt : MargoAbt) : List PoolHandle := abt.pools.map (·.pool)

/-- The handles and reference counts of the pools. -/
def refs (abt : MargoAbt) : List (PoolHandle × Nat) :=
  abt.pools.map fun p => (p.pool, p.refcount)

/-- The invariant: the handles are distinct and not null, no id is listed twice,
the counts are right, and users hold references on registered pools only. -/
structure Sound (w : World) : Prop where
  distinct : (handles w.abt).Nodup
  notNull : .poolNull ∉ handles w.abt
  keys : (w.rpcs.map Prod.fst).Nodup
  counts : Counts (2 ^ 32) (refs w.abt) (holders w)
  known : ∀ h ∈ w.userRefs, h ∈ handles w.abt

variable {w w' : World} {abt abt' : MargoAbt} {h : PoolHandle}

theorem users_eq (w : World) (h : PoolHandle) : users w h = (holders w).count h := by
  simp only [users, holders, rpcPools, List.count_append]
  congr 1
  rw [List.count, List.countP_filterMap]
  apply List.countP_congr
  intro e _
  cases e.2 <;> simp

theorem refs_fst (abt : MargoAbt) : (refs abt).map Prod.fst = handles abt := by
  simp only [refs, handles, List.map_map, Function.comp_def]

theorem Sound.counted (hs : Sound w) (hf : Few w) : Counted w := by
  intro p hp
  have hmem : (p.pool, p.refcount) ∈ refs w.abt :=
    List.mem_map_of_mem (f := fun p => (p.pool, p.refcount)) hp
  have hcount : p.refcount = (holders w).count p.pool % 2 ^ 32 := hs.counts _ hmem
  rw [hcount, ← users_eq, Nat.mod_eq_of_lt (hf p hp)]

/-! ## Updating a count -/

theorem handles_updateRefcount (f : Nat → Nat) (h : PoolHandle) (abt : MargoAbt) :
    handles (updateRefcount f h abt) = handles abt := by
  unfold updateRefcount
  split
  · rfl
  · exact map_modify_of_eq (by intro; rfl) abt.pools _

theorem distinctPools_of_nodup (hd : (handles abt).Nodup) : DistinctPools abt := by
  rw [handles, List.Nodup, List.pairwise_map] at hd
  exact hd.imp fun hne heq => absurd heq hne

/-- Updating the count behind a handle updates it in every pool with that handle,
and in none if there is no such pool. -/
theorem refs_updateRefcount (f : Nat → Nat) (hd : (handles abt).Nodup)
    (hnull : .poolNull ∉ handles abt) :
    refs (updateRefcount f h abt) =
      (refs abt).map fun e => (e.1, f^[[h].count e.1] e.2) := by
  unfold updateRefcount
  cases hfind : findPoolByHandle abt h with
  | none =>
      have hnot : h ∉ handles abt := by
        rcases findPoolByHandle_none hfind with rfl | hnot
        · exact hnull
        · exact hnot
      refine (List.map_id _).symm.trans (List.map_congr_left fun e he => ?_)
      have hmem : e.1 ∈ handles abt := refs_fst abt ▸ List.mem_map_of_mem he
      have hne : h ≠ e.1 := fun heq => hnot (heq ▸ hmem)
      simp [hne]
  | some i =>
      obtain ⟨hn, q, hi, hq⟩ := findPoolByHandle_some hfind
      have hmap : (abt.pools.modify i fun p => { p with refcount := f p.refcount }) =
          abt.pools.map fun p => if p.pool = h then { p with refcount := f p.refcount } else p :=
        modify_eq_map (distinctPools_of_nodup hd) hn hi hq
      simp only [refs, poolTable, hmap, List.map_map]
      apply List.map_congr_left
      intro p _
      by_cases hp : p.pool = h
      · simp [hp]
      · simp [hp, Ne.symm hp]

/-- The reference count at a position is the one behind the handle there. -/
theorem update_eq_updateRefcount (f : Nat → Nat) {i : Nat} (hd : (handles abt).Nodup)
    (hnull : .poolNull ∉ handles abt) (hi : i < abt.pools.length) :
    poolTable.update f i abt = updateRefcount f (poolAt abt i) abt := by
  have hp : abt.pools[i]? = some abt.pools[i] := List.getElem?_eq_getElem hi
  have hat : poolAt abt i = abt.pools[i].pool := by simp [poolAt, hp]
  have hne : abt.pools[i].pool ≠ .poolNull := by
    intro heq
    exact hnull (heq ▸ List.mem_map_of_mem (List.getElem_mem hi))
  have hfind : findPoolByHandle abt abt.pools[i].pool = some i := by
    rw [findPoolByHandle, if_neg hne]
    exact findIdx?_of_nodup hd hp
  rw [updateRefcount, hat, hfind]

/-- A new user of a pool is counted. -/
theorem Sound.count (hs : Sound w) (h : PoolHandle) :
    Counts (2 ^ 32) (refs (updateRefcount incr32 h w.abt)) (holders w ++ [h]) := by
  rw [refs_updateRefcount incr32 hs.distinct hs.notNull]
  exact hs.counts.add fun k n => incr32_iterate _ n

/-- A user of a pool that goes is discounted. -/
theorem Sound.discount (hs : Sound w) {us : List PoolHandle}
    (hperm : (holders w).Perm (us ++ [h])) :
    Counts (2 ^ 32) (refs (updateRefcount decr32 h w.abt)) us := by
  rw [refs_updateRefcount decr32 hs.distinct hs.notNull]
  exact hs.counts.remove hperm fun k n => decr32_iterate _ n

/-- The invariant after one count and the users have changed. -/
theorem Sound.update (hs : Sound w) {f : Nat → Nat} (habt : w'.abt = updateRefcount f h w.abt)
    (hkeys : (w'.rpcs.map Prod.fst).Nodup)
    (hcounts : Counts (2 ^ 32) (refs (updateRefcount f h w.abt)) (holders w'))
    (hknown : ∀ h ∈ w'.userRefs, h ∈ handles w.abt) : Sound w' := by
  have hhandles : handles w'.abt = handles w.abt := by rw [habt, handles_updateRefcount]
  refine ⟨?_, ?_, hkeys, ?_, ?_⟩
  · rw [hhandles]
    exact hs.distinct
  · rw [hhandles]
    exact hs.notNull
  · rw [habt]
    exact hcounts
  · rw [hhandles]
    exact hknown

/-! ## Registered ids -/

section Rpcs

variable {rpcs : List ((Nat × Nat) × Option PoolHandle)} {k : Nat × Nat}

theorem rpcPools_erase_some (hd : (rpcs.map Prod.fst).Nodup)
    (hk : rpcs.lookup k = some (some h)) :
    (rpcPools rpcs).Perm (h :: rpcPools (KeyedList.erase k rpcs)) :=
  (KeyedList.perm_erase hd hk).filterMap Prod.snd

/-- An id without data uses no pool. -/
theorem rpcPools_erase_none (hd : (rpcs.map Prod.fst).Nodup)
    (hk : ∀ h, rpcs.lookup k ≠ some (some h)) :
    (rpcPools rpcs).Perm (rpcPools (KeyedList.erase k rpcs)) := by
  cases hl : rpcs.lookup k with
  | none => rw [KeyedList.erase_of_lookup_none hl]
  | some data =>
      cases data with
      | none => exact (KeyedList.perm_erase hd hl).filterMap Prod.snd
      | some h => exact absurd hl (hk h)

end Rpcs

/-- Registering an id keeps the invariant, unless it has data already and the
pool is registered. -/
theorem sound_register {r : RegisterReplies} {key id : Nat} {mid : Instance}
    {pool : PoolHandle} (hs : Sound w)
    (hm : r.register = true → ∀ old, w.rpcs.lookup (key, id) = some (some old) →
      registered w.abt (orHandlerPool w.abt mid pool) = false) :
    Sound (margoRegisterInternal r key mid id pool w).1 := by
  simp only [margoRegisterInternal]
  generalize orHandlerPool w.abt mid pool = h at hm
  split
  · exact hs
  next hreg =>
  split
  · next old hl =>
      have hfind : findPoolByHandle w.abt h = none := by
        simpa [registered] using hm (by simpa using hreg) old hl
      have hsame : updateRefcount incr32 h w.abt = w.abt := by rw [updateRefcount, hfind]
      rw [hsame]
      exact hs
  · next hnone =>
      have hperm := rpcPools_erase_none hs.keys fun old hl => hnone old hl
      split
      · refine hs.update rfl (KeyedList.nodup_assign hs.keys) ((hs.count h).perm ?_) hs.known
        calc
          (holders w ++ [h]).Perm (h :: (rpcPools w.rpcs ++ w.userRefs)) :=
            List.perm_append_singleton h _
          _ |>.Perm (h :: (rpcPools (KeyedList.erase (key, id) w.rpcs) ++ w.userRefs)) :=
            (hperm.append_right w.userRefs).cons h
      · refine ⟨hs.distinct, hs.notNull, KeyedList.nodup_assign hs.keys, ?_, hs.known⟩
        exact hs.counts.perm (hperm.append_right w.userRefs)

theorem sound_deregister (hs : Sound w) (key id : Nat) : Sound (margoDeregister key id w) := by
  unfold margoDeregister
  split
  · next h hl =>
      refine hs.update rfl (KeyedList.nodup_filter hs.keys _) (hs.discount ?_) hs.known
      calc
        (holders w).Perm (h :: (rpcPools (KeyedList.erase (key, id) w.rpcs) ++ w.userRefs)) :=
          (rpcPools_erase_some hs.keys hl).append_right w.userRefs
        _ |>.Perm (rpcPools (KeyedList.erase (key, id) w.rpcs) ++ w.userRefs ++ [h]) :=
          (List.perm_append_singleton h _).symm
  · next hnone =>
      have hperm := rpcPools_erase_none hs.keys fun h hl => hnone h hl
      refine ⟨hs.distinct, hs.notNull, KeyedList.nodup_filter hs.keys _, ?_, hs.known⟩
      exact hs.counts.perm (hperm.append_right w.userRefs)

theorem sound_setPool {key id : Nat} {mid : Instance} {pool : PoolHandle} (hs : Sound w) :
    Sound (margoRpcSetPool key mid id pool w) := by
  unfold margoRpcSetPool
  split
  · next old hl =>
      -- Moving an id is deregistering it and counting it again with the new pool.
      have hd := sound_deregister hs key id
      simp only [margoDeregister, hl] at hd
      refine hd.update rfl (KeyedList.nodup_assign hs.keys) ((hd.count _).perm ?_) hd.known
      exact List.perm_append_singleton _ _
  · exact hs

/-! ## References of users -/

theorem poolAt_mem {i : Nat} (hi : i < abt.pools.length) : poolAt abt i ∈ handles abt := by
  have hp : abt.pools[i]? = some abt.pools[i] := List.getElem?_eq_getElem hi
  simp only [poolAt, hp, Option.map_some, Option.getD_some]
  exact List.mem_map_of_mem (List.getElem_mem hi)

theorem sound_hold {i : Nat} (hs : Sound w) (hi : i < w.abt.pools.length) :
    Sound ((w.hold (some i)).withAbt (poolTable.update incr32 i w.abt)) := by
  rw [update_eq_updateRefcount incr32 hs.distinct hs.notNull hi]
  refine hs.update rfl hs.keys ((hs.count (poolAt w.abt i)).perm ?_) ?_
  · calc
      (holders w ++ [poolAt w.abt i]).Perm (poolAt w.abt i :: (rpcPools w.rpcs ++ w.userRefs)) :=
        List.perm_append_singleton _ _
      _ |>.Perm (rpcPools w.rpcs ++ poolAt w.abt i :: w.userRefs) := List.perm_middle.symm
  · intro h hh
    rcases List.mem_cons.mp hh with rfl | hh
    · exact poolAt_mem hi
    · exact hs.known h hh

theorem sound_drop {i : Nat} (hs : Sound w) (hi : i < w.abt.pools.length)
    (hz : poolTable.refcount w.abt i ≠ 0) (hheld : poolAt w.abt i ∈ w.userRefs) :
    Sound ((w.drop (some i)).withAbt (poolTable.update decr32 i w.abt)) := by
  rw [update_eq_updateRefcount decr32 hs.distinct hs.notNull hi]
  have hdrop : w.drop (some i) = { w with userRefs := w.userRefs.erase (poolAt w.abt i) } :=
    if_neg hz
  rw [hdrop]
  refine hs.update rfl hs.keys (hs.discount ?_) ?_
  · calc
      (holders w).Perm
          (rpcPools w.rpcs ++ poolAt w.abt i :: w.userRefs.erase (poolAt w.abt i)) :=
        (List.perm_cons_erase hheld).append_left _
      _ |>.Perm (poolAt w.abt i :: (rpcPools w.rpcs ++ w.userRefs.erase (poolAt w.abt i))) :=
        List.perm_middle
      _ |>.Perm (rpcPools w.rpcs ++ w.userRefs.erase (poolAt w.abt i) ++ [poolAt w.abt i]) :=
        (List.perm_append_singleton _ _).symm
  · intro h hh
    exact hs.known h (List.mem_of_mem_erase hh)

theorem found_lt {k : PoolKey} {i : Nat} (hf : k.found abt = some i) : i < abt.pools.length := by
  unfold PoolKey.found at hf
  split at hf
  · cases k with
    | handle h =>
        obtain ⟨hlt, -⟩ := List.findIdx?_eq_some_iff_getElem.mp hf
        exact hlt
    | name n =>
        cases n with
        | none => cases hf
        | some n =>
            obtain ⟨hlt, -⟩ := List.findIdx?_eq_some_iff_getElem.mp hf
            exact hlt
    | index i' =>
        simp only [PoolKey.finder, poolByIndex] at hf
        split_ifs at hf with hlt
        obtain rfl := Option.some.inj hf
        exact hlt
  · cases hf

/-- A call that acts on the pool it finds. -/
theorem onEntry_run {mid : Instance} {finder : Finder} {act : Nat → MargoAbt → Exit}
    {r : Replies} :
    (onEntry (some mid) finder act).run r abt =
      some (match if finder.ok then finder.find abt else none with
        | none => abt
        | some i => (act i abt).abt) := by
  simp only [Api.run, onEntry, checked, Option.isSome_some, Bool.true_and]
  cases finder.ok with
  | false => rfl
  | true =>
      cases hf : finder.find abt <;> simp [Exit.plain]

theorem sound_refIncr {k : PoolKey} {mid : Instance} {r : Replies} (hs : Sound w)
    (hrun : (k.refIncr (some mid)).run r w.abt = some abt') :
    Sound ((w.hold (k.found w.abt)).withAbt abt') := by
  have hapi : k.refIncr (some mid) = refIncr poolTable (some mid) k.finder := by
    cases k <;> rfl
  rw [hapi, refIncr, onEntry_run] at hrun
  obtain rfl := Option.some.inj hrun
  change Sound ((w.hold (k.found w.abt)).withAbt (match k.found w.abt with
    | none => w.abt
    | some i => poolTable.update incr32 i w.abt))
  cases hf : k.found w.abt with
  | none => exact hs
  | some i => exact sound_hold hs (found_lt hf)

/-- A release keeps the invariant if the user holds the reference. -/
theorem sound_release {k : PoolKey} {mid : Instance} {r : Replies} (hs : Sound w)
    (hm : ∀ i ∈ k.found w.abt, poolTable.refcount w.abt i ≠ 0 → poolAt w.abt i ∈ w.userRefs)
    (hrun : (k.release (some mid)).run r w.abt = some abt') :
    Sound ((w.drop (k.found w.abt)).withAbt abt') := by
  obtain ⟨n, hapi⟩ : ∃ n, k.release (some mid) = release n poolTable (some mid) k.finder := by
    cases k with
    | handle h => exact ⟨2, rfl⟩
    | name n => exact ⟨2, rfl⟩
    | index i => exact ⟨1, rfl⟩
  rw [hapi, release, onEntry_run] at hrun
  obtain rfl := Option.some.inj hrun
  change Sound ((w.drop (k.found w.abt)).withAbt (match k.found w.abt with
    | none => w.abt
    | some i => Exit.abt (if poolTable.refcount w.abt i = 0
        then ⟨w.abt, .permission, .nothing, n⟩
        else .plain (poolTable.update decr32 i w.abt) .success .nothing)))
  cases hf : k.found w.abt with
  | none => exact hs
  | some i =>
      by_cases hz : poolTable.refcount w.abt i = 0
      · simp only [World.drop, hz, if_true]
        exact hs
      · simp only [hz, if_false]
        exact sound_drop hs (found_lt hf) hz (hm i hf hz)

/-! ## Pools -/

/-- A pool that nobody uses can be registered. -/
theorem sound_newPool (hs : Sound w) (hrefs : refs abt' = refs w.abt ++ [(h, 0)])
    (hnull : h ≠ .poolNull) (hnew : h ∉ handles w.abt) (hunused : h ∉ rpcPools w.rpcs) :
    Sound (w.withAbt abt') := by
  have hhandles : handles abt' = handles w.abt ++ [h] := by
    rw [← refs_fst, hrefs, List.map_append, refs_fst]
    rfl
  refine ⟨?_, ?_, hs.keys, ?_, ?_⟩
  · rw [World.withAbt, hhandles, ← List.concat_eq_append]
    exact hs.distinct.concat hnew
  · rw [World.withAbt, hhandles, List.mem_append, List.mem_singleton]
    rintro (hmem | heq)
    · exact hs.notNull hmem
    · exact hnull heq.symm
  · rw [World.withAbt, hrefs]
    apply hs.counts.addEntry
    rw [holders, List.mem_append]
    rintro (hmem | hmem)
    · exact hunused hmem
    · exact hnew (hs.known _ hmem)
  · intro h hh
    rw [World.withAbt, hhandles]
    exact List.mem_append_left _ (hs.known h hh)

/-- The invariant depends on the handles and reference counts only. -/
theorem sound_congr (hs : Sound w) (hrefs : refs abt' = refs w.abt) : Sound (w.withAbt abt') := by
  have hhandles : handles abt' = handles w.abt := by rw [← refs_fst, hrefs, refs_fst]
  refine ⟨?_, ?_, hs.keys, ?_, ?_⟩
  · rw [World.withAbt, hhandles]
    exact hs.distinct
  · rw [World.withAbt, hhandles]
    exact hs.notNull
  · rw [World.withAbt, hrefs]
    exact hs.counts
  · rw [World.withAbt, hhandles]
    exact hs.known

/-- The addition of an external pool goes through. -/
def addsExternal (r : Replies) (name : Option String) (pool : PoolHandle) (abt : MargoAbt) :
    Bool :=
  (findPoolByName abt name).isNone && (findPoolByHandle abt pool).isNone &&
    (growPools r abt).isSome

theorem sound_addPoolFromJson {mid : Instance} {json : Option Json} {r : Replies} (hs : Sound w)
    (hm : ∀ id ∈ r.poolCreate, .obj id ∉ handles w.abt ∧ .obj id ∉ rpcPools w.rpcs)
    (hrun : (margoAddPoolFromJson (some mid) json).run r w.abt = some abt') :
    Sound (w.withAbt abt') := by
  cases json with
  | none =>
      obtain rfl := Option.some.inj hrun
      exact hs
  | some j =>
      obtain rfl : (Abt.addPoolFromJson r j w.abt).1 = abt' := by
        simpa [Api.run, margoAddPoolFromJson, unchecked] using hrun
      rcases addPoolFromJson_cases r j w.abt with
        ⟨hp, -⟩ | ⟨id, p, hid, hpool, -, href, -, -, hp, -⟩
      · exact sound_congr hs (by rw [refs, hp]; rfl)
      · obtain ⟨hnew, hunused⟩ := hm id hid
        refine sound_newPool hs ?_ (by simp) hnew hunused
        rw [refs, hp, List.map_append, List.map_singleton, hpool, href]
        rfl

theorem sound_addPoolExternal {mid : Instance} {name : Option String} {pool : PoolHandle}
    {own : Bool} {r : Replies} (hs : Sound w)
    (hm : addsExternal r name pool w.abt = true → pool ≠ .poolNull ∧ pool ∉ rpcPools w.rpcs)
    (hrun : (margoAddPoolExternal (some mid) name pool own).run r w.abt = some abt') :
    Sound (w.withAbt abt') := by
  have hrefs : refs abt' = refs (addExternalPool r name pool w.abt).1 := by
    simp only [Api.run, margoAddPoolExternal, checked, Option.isSome_some, Bool.and_self,
      if_true, Option.map_some, Option.some.injEq, added_abt] at hrun
    subst hrun
    split
    · exact map_modify_of_eq (by intro; rfl) _ _
    · rfl
  rcases addExternalPool_cases r name pool w.abt with ⟨hp, -⟩ | ⟨hname, hhandle, hgrow, hp, -⟩
  · exact sound_congr hs (by rw [hrefs, refs, hp]; rfl)
  · obtain ⟨hnull, hunused⟩ := hm (by simp [addsExternal, hname, hhandle, hgrow])
    refine sound_newPool hs ?_ hnull ((findPoolByHandle_none hhandle).resolve_left hnull) hunused
    rw [hrefs, refs, hp, List.map_append]
    rfl

/-- A pool that can be removed has no users. -/
theorem sound_removePool {r : Replies} {i : Nat} (hs : Sound w) (hf : Few w) :
    Sound (w.withAbt (Abt.removePool r i w.abt).1) := by
  rw [removePool_eq]
  split
  · next hr =>
      obtain ⟨p, hp⟩ := removable_getElem? hr
      have hz : users w p.pool = 0 := by
        rw [← hs.counted hf p (List.mem_of_getElem? hp)]
        simp only [removable, hp, Option.any_some, Bool.and_eq_true, beq_iff_eq] at hr
        exact hr.1.1
      have hhandles := (perm_swapRemove hp).map (·.pool)
      have hrefs := (perm_swapRemove hp).map fun p => (p.pool, p.refcount)
      refine ⟨?_, ?_, hs.keys, ?_, ?_⟩
      · exact (List.nodup_cons.mp (hhandles.nodup_iff.mp hs.distinct)).2
      · exact fun hmem => hs.notNull (hhandles.mem_iff.mpr (List.mem_cons_of_mem _ hmem))
      · exact hs.counts.removeEntry hrefs
      · intro h hh
        rcases List.mem_cons.mp (hhandles.mem_iff.mp (hs.known h hh)) with rfl | hmem
        · rw [users_eq] at hz
          exact absurd (List.mem_append_right _ hh) (List.count_eq_zero.mp hz)
        · exact hmem
  · exact hs

theorem remove_run {k : PoolKey} {mid : Instance} {r : Replies}
    (hrun : (k.remove (some mid)).run r abt = some abt') : Removal r abt abt' := by
  cases k with
  | handle h => exact removePoolFound_removal hrun
  | name n => exact removePoolFound_removal hrun
  | index i => exact removePoolByIndex_removal hrun

/-! ## Children -/

/-- Ids can go without being counted if their pools are not registered. -/
theorem sound_filter (hs : Sound w) (live : List Live)
    {q : (Nat × Nat) × Option PoolHandle → Bool}
    (hq : ∀ e ∈ w.rpcs, q e = false → ∀ h ∈ e.2, h ∉ handles w.abt) :
    Sound { w with live := live, rpcs := w.rpcs.filter q } := by
  refine ⟨hs.distinct, hs.notNull, KeyedList.nodup_filter hs.keys q, ?_, hs.known⟩
  intro e he
  rw [hs.counts e he, ← users_eq, ← users_eq]
  have hmem : e.1 ∈ handles w.abt := refs_fst w.abt ▸ List.mem_map_of_mem he
  have hcount : (w.rpcs.filter q).countP (fun d => d.2 = some e.1) =
      w.rpcs.countP (fun d => d.2 = some e.1) := by
    rw [List.countP_filter]
    apply List.countP_congr
    intro d hd
    cases hqd : q d with
    | true => simp
    | false =>
        have hne : d.2 ≠ some e.1 := fun heq => hq d hd hqd e.1 heq hmem
        simp [hne]
  simp only [users, hcount]

theorem margoDeregister_rpcs (key id : Nat) (w : World) :
    (margoDeregister key id w).rpcs = KeyedList.erase (key, id) w.rpcs ∧
      handles (margoDeregister key id w).abt = handles w.abt := by
  unfold margoDeregister
  split
  · exact ⟨rfl, handles_updateRefcount _ _ _⟩
  · exact ⟨rfl, rfl⟩

/-- The cleanup of a child keeps the invariant if nothing that it leaves
registered uses a registered pool. -/
theorem sound_cleanup {l : Live} (hs : Sound w)
    (hm : ∀ e ∈ w.rpcs, e.1.1 = l.key → e.1.2 ≠ l.shutdownRpcId → e.1.2 ≠ l.identityRpcId →
      ∀ h ∈ e.2, h ∉ handles w.abt) : Sound (margoCleanup l w) := by
  have hs₁ := sound_deregister hs l.key l.shutdownRpcId
  have hs₂ := sound_deregister hs₁ l.key l.identityRpcId
  obtain ⟨hr₁, hh₁⟩ := margoDeregister_rpcs l.key l.shutdownRpcId w
  obtain ⟨hr₂, hh₂⟩ :=
    margoDeregister_rpcs l.key l.identityRpcId (margoDeregister l.key l.shutdownRpcId w)
  apply sound_filter hs₂ _
  intro e he hkey h hh
  rw [hh₂, hh₁]
  rw [hr₂, hr₁] at he
  simp only [KeyedList.erase, List.mem_filter, bne_iff_ne, ne_eq] at he
  obtain ⟨⟨hmem, hshut⟩, hident⟩ := he
  have hk : e.1.1 = l.key := by simpa using hkey
  refine hm e hmem hk ?_ ?_ h hh
  · exact fun heq => hshut (Prod.ext hk heq)
  · exact fun heq => hident (Prod.ext hk heq)

/-- What is registered belongs to an instance that is alive. -/
def Owned (w : World) : Prop := ∀ e ∈ w.rpcs, e.1.1 ∈ w.live.map (·.key)

/-- A registration lists no more than its own id, and no new instance. -/
theorem register_rpcs (r : RegisterReplies) (key : Nat) (mid : Instance) (id : Nat)
    (pool : PoolHandle) (w : World) :
    (margoRegisterInternal r key mid id pool w).1.live = w.live ∧
    ∀ e ∈ (margoRegisterInternal r key mid id pool w).1.rpcs, e ∈ w.rpcs ∨ e.1 = (key, id) := by
  have hassign (data : Option PoolHandle) :
      ∀ e ∈ KeyedList.assign (key, id) data w.rpcs, e ∈ w.rpcs ∨ e.1 = (key, id) := by
    intro e he
    rcases List.mem_cons.mp he with rfl | he
    · exact .inr rfl
    · exact .inl (KeyedList.mem_of_mem_erase he)
  simp only [margoRegisterInternal]
  split
  · exact ⟨rfl, fun e he => .inl he⟩
  split
  · exact ⟨rfl, fun e he => .inl he⟩
  split
  · exact ⟨rfl, hassign _⟩
  · exact ⟨rfl, hassign _⟩

theorem registerName_rpcs (r : RegisterReplies) (key : Nat) (mid : Instance) (id : Nat)
    (pool : PoolHandle) (w : World) :
    (margoProviderRegisterName r key mid id pool w).1.live = w.live ∧
    ∀ e ∈ (margoProviderRegisterName r key mid id pool w).1.rpcs,
      e ∈ w.rpcs ∨ e.1 = (key, id) := by
  unfold margoProviderRegisterName
  split
  · exact register_rpcs r key mid id pool w
  · exact ⟨rfl, fun e he => .inl he⟩

theorem sound_registerName {r : RegisterReplies} {key id : Nat} {mid : Instance}
    {pool : PoolHandle} (hs : Sound w)
    (hm : r.track = true → r.register = true →
      ∀ old, w.rpcs.lookup (key, id) = some (some old) →
        registered w.abt (orHandlerPool w.abt mid pool) = false) :
    Sound (margoProviderRegisterName r key mid id pool w).1 := by
  unfold margoProviderRegisterName
  split
  · next ht => exact sound_register hs (hm ht)
  · exact hs

/-- A new instance registers two ids that nobody has registered yet. -/
theorem sound_create {rs ri : RegisterReplies} {key shutdownId identityId : Nat}
    {mid : Instance} (hs : Sound w) (ho : Owned w) (hkey : key ∉ w.live.map (·.key))
    (hne : shutdownId ≠ identityId) :
    Sound (margoInitExt rs ri key mid shutdownId identityId w) := by
  obtain ⟨-, hrpcs⟩ := registerName_rpcs rs key mid shutdownId .poolNull w
  have hs₁ : Sound (margoProviderRegisterName rs key mid shutdownId .poolNull w).1 := by
    apply sound_registerName hs
    intro _ _ old hl
    exact absurd (ho _ (KeyedList.mem_of_lookup hl)) hkey
  have hs₂ : Sound (margoProviderRegisterName ri key mid identityId .poolNull
      (margoProviderRegisterName rs key mid shutdownId .poolNull w).1).1 := by
    apply sound_registerName hs₁
    intro _ _ old hl
    rcases hrpcs _ (KeyedList.mem_of_lookup hl) with hmem | heq
    · exact absurd (ho _ hmem) hkey
    · exact absurd (congrArg Prod.snd heq).symm hne
  exact ⟨hs₂.distinct, hs₂.notNull, hs₂.keys, hs₂.counts, hs₂.known⟩

/-! ## Steps -/

/-- The operations of an instance that count users rightly. A registration does
not count an id again that has data, users release what they hold, a pool that
is added is not in use already, and a child that is cleaned up has deregistered
its RPCs. -/
def countsRightly (w : World) (l : Live) : Op → Bool
  | .register id pool r =>
      !(r.track && r.register && (w.rpcs.lookup (l.key, id)).join.isSome &&
        registered w.abt (orHandlerPool w.abt l.mid pool))
  | .release k _ =>
      (k.found w.abt).all fun i =>
        poolTable.refcount w.abt i == 0 || w.userRefs.contains (poolAt w.abt i)
  | .addPoolFromJson _ r =>
      r.poolCreate.all fun id =>
        !(handles w.abt).contains (.obj id) && !(rpcPools w.rpcs).contains (.obj id)
  | .addPoolExternal name pool _ r =>
      !addsExternal r name pool w.abt ||
        (pool != .poolNull && !(rpcPools w.rpcs).contains pool)
  | .finalize =>
      w.rpcs.all fun e =>
        e.1.1 != l.key || e.1.2 == l.shutdownRpcId || e.1.2 == l.identityRpcId ||
          e.2.all fun h => !(handles w.abt).contains h
  | _ => true

/-- The condition on a step. The two RPCs of an instance have different ids. -/
def meets (w : World) (a : Nat × Op) : Bool :=
  match w.live.find? fun l => l.key == a.1, a.2 with
  | none, .create _ shutdownId identityId _ _ => shutdownId != identityId
  | some l, op => countsRightly w l op
  | _, _ => true

theorem sound_forward {r : RegisterReplies} {queried : Bool} {key id : Nat} {mid : Instance}
    (hs : Sound w) : Sound (forwardRegister r queried key mid id w) := by
  unfold forwardRegister
  split
  · next hl => exact sound_register hs fun _ old hold => by rw [hl] at hold; cases hold
  · exact hs

theorem sound_opStep {l : Live} {op : Op} (hs : Sound w) (hf : Few w)
    (hm : countsRightly w l op = true) (h : opStep w l op = some w') : Sound w' := by
  cases op with
  | create mid shutdownId identityId rs ri => cases h
  | register id pool r =>
      obtain rfl := Option.some.inj h
      apply sound_registerName hs
      intro ht hr old hl
      simpa [countsRightly, ht, hr, hl] using hm
  | forward id queried r =>
      obtain rfl := Option.some.inj h
      exact sound_forward hs
  | deregister id =>
      obtain rfl := Option.some.inj h
      exact sound_deregister hs l.key id
  | setPool id pool =>
      obtain rfl := Option.some.inj h
      exact sound_setPool hs
  | refIncr k r =>
      obtain ⟨abt', hrun, rfl⟩ := Option.map_eq_some_iff.mp h
      exact sound_refIncr hs hrun
  | release k r =>
      obtain ⟨abt', hrun, rfl⟩ := Option.map_eq_some_iff.mp h
      refine sound_release hs (fun i hi hz => ?_) hrun
      simpa [countsRightly, Option.mem_def.mp hi, hz] using hm
  | addPoolFromJson json r =>
      obtain ⟨abt', hrun, rfl⟩ := Option.map_eq_some_iff.mp h
      refine sound_addPoolFromJson hs (fun id hid => ?_) hrun
      simpa [countsRightly, Option.mem_def.mp hid] using hm
  | addPoolExternal name pool own r =>
      simp only [opStep, Option.map_eq_some_iff] at h
      obtain ⟨abt', hrun, rfl⟩ := h
      refine sound_addPoolExternal hs (fun hadd => ?_) hrun
      simpa [countsRightly, hadd] using hm
  | removePool k r =>
      obtain ⟨abt', hrun, rfl⟩ := Option.map_eq_some_iff.mp h
      rcases remove_run hrun with rfl | ⟨i, rfl⟩
      · exact hs
      · exact sound_removePool hs hf
  | finalize =>
      obtain rfl := Option.some.inj h
      apply sound_cleanup hs
      intro e he hkey hshut hident h hh
      have hall := List.all_eq_true.mp hm e he
      simpa [hkey, hshut, hident, Option.mem_def.mp hh] using hall

/-! ## Owners -/

theorem Owned.mono (ho : Owned w) (hlive : w'.live = w.live)
    (hrpcs : ∀ e ∈ w'.rpcs, e ∈ w.rpcs ∨ e.1.1 ∈ w.live.map (·.key)) : Owned w' := by
  intro e he
  rw [hlive]
  exact (hrpcs e he).elim (ho e) id

theorem margoDeregister_live (key id : Nat) (w : World) :
    (margoDeregister key id w).live = w.live := by
  unfold margoDeregister
  split <;> rfl

theorem owned_deregister (ho : Owned w) (key id : Nat) : Owned (margoDeregister key id w) := by
  refine ho.mono (margoDeregister_live key id w) fun e he => .inl ?_
  rw [(margoDeregister_rpcs key id w).1] at he
  exact KeyedList.mem_of_mem_erase he

theorem owned_register {l : Live} {r : RegisterReplies} {id : Nat} {pool : PoolHandle}
    (ho : Owned w) (hl : l ∈ w.live) :
    Owned (margoRegisterInternal r l.key l.mid id pool w).1 := by
  obtain ⟨hlive, hrpcs⟩ := register_rpcs r l.key l.mid id pool w
  refine ho.mono hlive fun e he => (hrpcs e he).imp_right fun heq => ?_
  rw [heq]
  exact List.mem_map_of_mem hl

theorem owned_setPool {l : Live} {id : Nat} {pool : PoolHandle} (ho : Owned w)
    (hl : l ∈ w.live) : Owned (margoRpcSetPool l.key l.mid id pool w) := by
  unfold margoRpcSetPool
  split
  · refine ho.mono rfl fun e he => ?_
    rcases List.mem_cons.mp he with rfl | he
    · exact .inr (List.mem_map_of_mem hl)
    · exact .inl (KeyedList.mem_of_mem_erase he)
  · exact ho

theorem owned_cleanup (ho : Owned w) (l : Live) : Owned (margoCleanup l w) := by
  have ho₂ := owned_deregister (owned_deregister ho l.key l.shutdownRpcId) l.key l.identityRpcId
  intro e he
  obtain ⟨hmem, hkey⟩ := List.mem_filter.mp he
  obtain ⟨l', hl', heq⟩ := List.mem_map.mp (ho₂ e hmem)
  refine List.mem_map.mpr ⟨l', List.mem_filter.mpr ⟨hl', ?_⟩, heq⟩
  rwa [heq]

theorem owned_opStep {l : Live} {op : Op} (ho : Owned w) (hl : l ∈ w.live)
    (h : opStep w l op = some w') : Owned w' := by
  have hrun {x : Option MargoAbt} {v : World} (hv : Owned v) (hx : x.map v.withAbt = some w') :
      Owned w' := by
    obtain ⟨abt', -, rfl⟩ := Option.map_eq_some_iff.mp hx
    exact hv
  cases op with
  | create mid shutdownId identityId rs ri => cases h
  | register id pool r =>
      obtain rfl := Option.some.inj h
      unfold margoProviderRegisterName
      split
      · exact owned_register ho hl
      · exact ho
  | forward id queried r =>
      obtain rfl := Option.some.inj h
      unfold forwardRegister
      split
      · exact owned_register ho hl
      · exact ho
  | deregister id =>
      obtain rfl := Option.some.inj h
      exact owned_deregister ho l.key id
  | setPool id pool =>
      obtain rfl := Option.some.inj h
      exact owned_setPool ho hl
  | refIncr k r =>
      refine hrun (v := w.hold (k.found w.abt)) ?_ h
      unfold World.hold
      split <;> exact ho
  | release k r =>
      refine hrun (v := w.drop (k.found w.abt)) ?_ h
      unfold World.drop
      split
      · exact ho
      · split <;> exact ho
  | addPoolFromJson json r => exact hrun ho h
  | addPoolExternal name pool own r =>
      simp only [opStep] at h
      exact hrun ho h
  | removePool k r => exact hrun ho h
  | finalize =>
      obtain rfl := Option.some.inj h
      exact owned_cleanup ho l

theorem owned_create (ho : Owned w) (rs ri : RegisterReplies) (key : Nat) (mid : Instance)
    (shutdownId identityId : Nat) :
    Owned (margoInitExt rs ri key mid shutdownId identityId w) := by
  obtain ⟨hlive, hrpcs⟩ := registerName_rpcs rs key mid shutdownId .poolNull w
  obtain ⟨hlive', hrpcs'⟩ := registerName_rpcs ri key mid identityId .poolNull
    (margoProviderRegisterName rs key mid shutdownId .poolNull w).1
  intro e he
  simp only [margoInitExt, List.map_cons, List.mem_cons, hlive', hlive]
  rcases hrpcs' e he with hmem | heq
  · rcases hrpcs e hmem with hmem | heq
    · exact .inr (ho e hmem)
    · exact .inl (congrArg Prod.fst heq)
  · exact .inl (congrArg Prod.fst heq)

/-- A step that meets the condition keeps the invariant. -/
theorem sound_step {a : Nat × Op} (hs : Sound w) (ho : Owned w) (hf : Few w)
    (hm : meets w a = true) (h : step w a = some w') : Sound w' ∧ Owned w' := by
  obtain ⟨key, op⟩ := a
  unfold step at h
  unfold meets at hm
  cases hfind : w.live.find? fun l => l.key == key with
  | none =>
      rw [hfind] at h hm
      cases op with
      | create mid shutdownId identityId rs ri =>
          obtain rfl := Option.some.inj h
          refine ⟨sound_create hs ho ?_ (by simpa using hm), owned_create ho rs ri key mid _ _⟩
          simpa using hfind
      | _ => cases h
  | some l =>
      rw [hfind] at h hm
      exact ⟨sound_opStep hs hf hm h, owned_opStep ho (List.mem_of_find?_eq_some hfind) h⟩

/-! ## Initialization -/

/-- The pools of an environment that is being configured have the handles that
were created for them, and nobody refers to them. -/
structure Unused (r : InitReplies) (abt : MargoAbt) : Prop where
  numbered : Numbered r (handles abt)
  zero : ∀ e ∈ refs abt, e.2 = 0

variable {r : InitReplies}

theorem Unused.congr (hu : Unused r abt) (h : refs abt' = refs abt) : Unused r abt' := by
  refine ⟨?_, h ▸ hu.zero⟩
  rw [← refs_fst, h, refs_fst]
  exact hu.numbered

theorem refs_of_static (h : abt'.pools.map poolStatic = abt.pools.map poolStatic) :
    refs abt' = refs abt := by
  have hmap := congrArg (List.map fun p => (p.pool, p.refcount)) h
  rw [List.map_map, List.map_map] at hmap
  exact hmap

theorem refs_appendPool (abt : MargoAbt) (p : Pool) :
    refs (appendPool abt p) = refs abt ++ [(p.pool, p.refcount)] := List.map_append

theorem unused_newPool (hu : Unused r abt) {j : Json} {p : Pool}
    (h : poolInitFromJson (r.pool abt.pools.length) j abt = some p) :
    Unused r (appendPool abt p) := by
  obtain ⟨id, hid, hpool, -, href, -⟩ := poolInitFromJson_eq h
  have hrefs : refs (appendPool abt p) = refs abt ++ [(.obj id, 0)] := by
    rw [refs_appendPool, hpool, href]
  constructor
  · have hid' : (r.pool (handles abt).length).poolCreate = some id := by
      rwa [handles, List.length_map]
    rw [← refs_fst, hrefs, List.map_append, refs_fst]
    exact hu.numbered.append hid'
  · rw [hrefs]
    exact List.forall_mem_append.mpr ⟨hu.zero, by simp⟩

theorem unused_initPrimary (hu : Unused r abt) (h : initPrimary r abt = some abt') :
    Unused r abt' := by
  unfold initPrimary at h
  split at h
  · cases h
  next abt₁ i hpool =>
  have hu₁ : Unused r abt₁ := by
    rcases initPrimaryPool_cases hpool with rfl | ⟨j, p, -, hp, rfl⟩
    · exact hu
    · exact unused_newPool hu hp
  refine hu₁.congr ((refs_of_static (initXstream_static h)).trans ?_)
  exact map_modify_of_eq (by intro; rfl) _ _

/-- Nothing is registered and nobody refers to a pool yet. -/
def unregistered (abt : MargoAbt) : World := ⟨abt, [], [], []⟩

theorem sound_unregistered (hd : (handles abt).Nodup) (hnull : .poolNull ∉ handles abt)
    (hzero : ∀ e ∈ refs abt, e.2 = 0) : Sound (unregistered abt) := by
  refine ⟨hd, hnull, List.nodup_nil, fun e he => ?_, fun h hh => ?_⟩
  · rw [hzero e he]
    rfl
  · cases hh

theorem Unused.sound (hu : Unused r abt) (hr : FreshPools r) : Sound (unregistered abt) := by
  refine sound_unregistered (hu.numbered.nodup hr) (fun hmem => ?_) hu.zero
  obtain ⟨k, hk⟩ := List.mem_iff_getElem?.mp hmem
  obtain ⟨id, -, heq⟩ := hu.numbered k _ hk
  cases heq

theorem sound_initPrimaryExternal (hr : FreshPools r)
    (hself : r.selfPools.headD .poolNull ≠ .poolNull) (hu : Unused r abt)
    (h : initPrimaryExternal r abt = some abt') : Sound (unregistered abt') := by
  simp only [initPrimaryExternal] at h
  split at h
  · next abt₁ x hinit =>
      obtain rfl := Option.some.inj h
      have hrefs : refs abt₁ = refs abt ++ [(r.selfPools.headD .poolNull, 0)] :=
        (refs_of_static (xstreamInitExternal_entries hinit).1).trans (refs_appendPool abt _)
      have hnew := (hu.numbered.self_not_mem hr).resolve_left hself
      exact sound_congr (sound_newPool (hu.sound hr) hrefs hself hnew List.not_mem_nil) rfl
  · cases h

/-- The configured environment satisfies the invariant. -/
theorem abtInitFromJson_sound {j : Json} (hr : FreshPools r)
    (hself : r.abtInitialized = true → r.selfPools.headD .poolNull ≠ .poolNull)
    (h : abtInitFromJson r j = some abt) : Sound (unregistered abt) := by
  have hempty (m n : Nat) : Unused r ⟨[], m, [], n⟩ :=
    ⟨fun k h hk => by simp [handles] at hk, fun e he => by cases he⟩
  obtain ⟨abt₁, abt₂, hpools, hxs, hprimary⟩ := abtInitFromJson_stages h
  have hu₁ : Unused r abt₁ :=
    initPools_induction (fun hu hp => unused_newPool hu hp) hpools (hempty _ _)
  have hu : Unused r abt₂ := hu₁.congr (refs_of_static (initXstreams_static hxs))
  rcases hprimary with ⟨rfl, -⟩ | ⟨-, hprimary⟩
  · exact hu.sound hr
  · split at hprimary
    · next hinit => exact sound_initPrimaryExternal hr (hself hinit) hu hprimary
    · exact (unused_initPrimary hu hprimary).sound hr

/-! ## Runs -/

/-- The reference counts of the pools: in every run that meets the condition,
all registered ids belong to instances that are alive and every count is the
number of users. No count is 0 that the end of a registration or of a reference
decrements, and the count of a pool whose users are gone is 0. -/
theorem refcounts_count_users {j : Json} {abt₀ : MargoAbt} {as : List (Nat × Op)}
    (hr : FreshPools r)
    (hself : r.abtInitialized = true → r.selfPools.headD .poolNull ≠ .poolNull)
    (hinit : abtInitFromJson r j = some abt₀)
    (hrun : Run step (fun s a s' => meets s a = true ∧ Few s') (unregistered abt₀) as w) :
    Owned w ∧ Counted w ∧
    (∀ p ∈ w.abt.pools, (some p.pool ∈ w.rpcs.map Prod.snd ∨ p.pool ∈ w.userRefs) →
      0 < p.refcount) ∧
    (∀ p ∈ w.abt.pools, some p.pool ∉ w.rpcs.map Prod.snd → p.pool ∉ w.userRefs →
      p.refcount = 0) := by
  have hs₀ := abtInitFromJson_sound hr hself hinit
  have hf₀ : Few (unregistered abt₀) := fun p _ => Nat.two_pow_pos 32
  obtain ⟨hs, ho, hf⟩ : Sound w ∧ Owned w ∧ Few w := by
    refine hrun.invariant (P := fun s => Sound s ∧ Owned s ∧ Few s) ?_
      ⟨hs₀, fun e he => absurd he List.not_mem_nil, hf₀⟩
    rintro s a s' ⟨hs, ho, hf⟩ ⟨hm, hf'⟩ h
    obtain ⟨hs', ho'⟩ := sound_step hs ho hf hm h
    exact ⟨hs', ho', hf'⟩
  have hcounted := hs.counted hf
  have hmem (h : PoolHandle) : h ∈ holders w ↔ some h ∈ w.rpcs.map Prod.snd ∨ h ∈ w.userRefs := by
    simp [holders, rpcPools]
  refine ⟨ho, hcounted, fun p hp hused => ?_, fun p hp hrpcs hrefs => ?_⟩
  · rw [hcounted p hp, users_eq]
    exact List.count_pos_iff.mpr ((hmem p.pool).mpr hused)
  · rw [hcounted p hp, users_eq]
    exact List.count_eq_zero.mpr fun h => ((hmem p.pool).mp h).elim hrpcs hrefs

instance (w : World) : Decidable (Counted w) :=
  inferInstanceAs (Decidable (∀ p ∈ w.abt.pools, _))

instance (w : World) : Decidable (Few w) :=
  inferInstanceAs (Decidable (∀ p ∈ w.abt.pools, _))

/-- Mercury and the allocator do what they are asked to. -/
def answered : RegisterReplies := ⟨true, true, true, true⟩

/-- A pool besides the primary one. -/
def withPool (refcount refcount' : Nat) : MargoAbt :=
  { primaryOnly with
    pools := [⟨"__primary__", .obj 0, "fifo_wait", some "mpmc", refcount, 1, false, true⟩,
      ⟨"p", .obj 5, "external", none, refcount', 0, false, false⟩] }

/-- A parent moves an RPC away from a pool that a user holds a reference on, and
a child deregisters the RPC it has on that pool before it is cleaned up. -/
def familyOps : List (Nat × Op) :=
  [(0, .create ⟨0, 0⟩ 1 2 answered answered),
    (0, .addPoolExternal (some "p") (.obj 5) false (granted 9)),
    (1, .create ⟨0, 1⟩ 1 2 answered answered),
    (0, .register 7 (.obj 5) answered),
    (1, .forward 8 true answered),
    (0, .refIncr (.name (some "p")) (granted 9)),
    (0, .setPool 7 .poolNull),
    (1, .deregister 8),
    (1, .finalize)]

/-- The parent's three RPCs use the primary pool, and the user the other one. -/
def parentOnly : World where
  abt := withPool 3 1
  live := [⟨0, ⟨0, 0⟩, 1, 2⟩]
  rpcs := [((0, 7), some (.obj 0)), ((0, 2), some (.obj 0)), ((0, 1), some (.obj 0))]
  userRefs := [.obj 5]

theorem refcounts_count_users_family :
    abtInitFromJson initGranted (.object []) = some primaryOnly ∧
    Run step (fun s a s' => meets s a = true ∧ Few s') (unregistered primaryOnly) familyOps
      parentOnly ∧
    Counted parentOnly := by
  have hinit : abtInitFromJson initGranted (.object []) = some primaryOnly := by decide
  have hrun : Run step (fun s a s' => meets s a = true ∧ Few s') (unregistered primaryOnly)
      familyOps parentOnly := run_of_exec (by decide)
  have hself : initGranted.abtInitialized = true →
      initGranted.selfPools.headD .poolNull ≠ .poolNull := by simp [initGranted]
  exact ⟨hinit, hrun,
    (refcounts_count_users freshPools_initGranted hself hinit hrun).2.1⟩

/-- An id is registered twice and deregistered, and its pool keeps a count that
nobody accounts for. -/
theorem second_registration_counts :
    ¬∀ (r : InitReplies) (j : Json) (abt₀ : MargoAbt) (as : List (Nat × Op)) (w : World),
      FreshPools r →
      (r.abtInitialized = true → r.selfPools.headD .poolNull ≠ .poolNull) →
      abtInitFromJson r j = some abt₀ →
      Run step Any (unregistered abt₀) as w → Counted w := by
  intro hall
  have hrun : Run step Any (unregistered primaryOnly)
      [(0, .create ⟨0, 0⟩ 1 2 answered answered),
        (0, .addPoolExternal (some "p") (.obj 5) false (granted 9)),
        (0, .register 7 (.obj 5) answered),
        (0, .register 7 (.obj 5) answered),
        (0, .deregister 7)]
      { abt := withPool 2 1
        live := [⟨0, ⟨0, 0⟩, 1, 2⟩]
        rpcs := [((0, 2), some (.obj 0)), ((0, 1), some (.obj 0))]
        userRefs := [] } := run_of_exec (by decide)
  have hcounted := hall initGranted (.object []) _ _ _ freshPools_initGranted
    (by simp [initGranted]) (by decide) hrun
  exact absurd hcounted (by decide)

end Margo.Rpc
