import Margo.Abt.Entries
import Margo.Lib.Runs
import Margo.Lib.UseLedger

/-!
# How many xstreams use a pool

`num_xstreams` of a pool is counted up for every position in the scheduler of
an xstream that is registered, and counted down by the destructor of the
xstream, which is also the way out for xstreams that could not be registered.
Pools may be repeated in a scheduler.

## Implementation notes

The counts and the schedulers form a ledger of uses. The invariant speaks of
the ledger only, so that a call that does not change it keeps it at once. It is
kept modulo `2 ^ 32` and gives the exact counts when no pool is used so often.
-/

namespace Margo.Abt.UseCounts

open Lib Lib.Runs

/-- The number of pairs of a registered xstream and a position in its scheduler
whose pool this is. -/
def uses (abt : MargoAbt) (h : PoolHandle) : Nat :=
  (abt.xstreams.flatMap fun x => mainPools x.xstream).count h

/-- Every pool in the scheduler of a registered xstream is registered, and the
pools know how often they are used. -/
structure Counted (abt : MargoAbt) : Prop where
  scheduled : ∀ x ∈ abt.xstreams, ∀ h ∈ mainPools x.xstream, registered abt h = true
  counts : ∀ p ∈ abt.pools, p.numXstreams = uses abt p.pool

/-- No pool is used more often than its counter can tell. -/
def Few (abt : MargoAbt) : Prop := ∀ p ∈ abt.pools, uses abt p.pool < 2 ^ 32

/-! ## The ledger of an environment -/

/-- The handles and the counts of the pools. -/
def entries (ps : List Pool) : List (PoolHandle × Nat) := ps.map fun p => (p.pool, p.numXstreams)

/-- The counts of the pools and the pools of the schedulers. -/
def ledger (abt : MargoAbt) : UseLedger PoolHandle where
  entries := entries abt.pools
  users := abt.xstreams.map fun x => mainPools x.xstream

/-- The invariant: distinct handles, no null pool in a scheduler, and balanced
counts. -/
structure Sound (l : UseLedger PoolHandle) : Prop where
  distinct : l.entries.Pairwise fun e f => e.1 = f.1 → e.1 = .poolNull
  notNull : ∀ u ∈ l.users, .poolNull ∉ u
  balanced : l.Balanced (2 ^ 32)

theorem uses_ledger (abt : MargoAbt) (h : PoolHandle) : (ledger abt).uses h = uses abt h := by
  simp only [UseLedger.uses, ledger, uses, List.flatMap_def]

theorem registered_iff_ledger (abt : MargoAbt) (h : PoolHandle) :
    registered abt h = true ↔ h ≠ .poolNull ∧ h ∈ (ledger abt).entries.map Prod.fst := by
  rw [registered_iff]
  simp [ledger, entries]

theorem distinctPools_iff (abt : MargoAbt) :
    DistinctPools abt ↔
      (ledger abt).entries.Pairwise fun e f => e.1 = f.1 → e.1 = .poolNull := by
  simp only [DistinctPools, ledger, entries, List.pairwise_map]

theorem SameEntries.ledger {abt abt' : MargoAbt} (h : SameEntries abt abt') :
    ledger abt' = ledger abt := by
  have hp := congrArg (List.map fun k : String × PoolHandle × Nat => k.2) h.pools
  have hx := congrArg (List.map fun k : String × XstreamHandle => mainPools k.2) h.xstreams
  simp only [List.map_map, Function.comp_def, poolKey, xstreamKey] at hp hx
  simp only [UseCounts.ledger, entries, hp, hx]

variable {abt abt' : MargoAbt}

theorem Sound.distinctPools (hs : Sound (ledger abt)) : DistinctPools abt :=
  (distinctPools_iff abt).mpr hs.distinct

theorem Sound.scheduled (hs : Sound (ledger abt)) {x : Xstream}
    (hx : x ∈ abt.xstreams) {h : PoolHandle} (hh : h ∈ mainPools x.xstream) :
    registered abt h = true := by
  have hu : mainPools x.xstream ∈ (ledger abt).users := List.mem_map_of_mem hx
  refine (registered_iff_ledger abt h).mpr ⟨?_, hs.balanced.known _ hu h hh⟩
  rintro rfl
  exact hs.notNull _ hu hh

/-- With few uses, the counts are exact. -/
theorem Sound.counted (hs : Sound (ledger abt)) (hf : Few abt) : Counted abt where
  scheduled x hx h hh := hs.scheduled hx hh
  counts p hp := by
    have hmem : (p.pool, p.numXstreams) ∈ (ledger abt).entries :=
      List.mem_map_of_mem (f := fun p => (p.pool, p.numXstreams)) hp
    have hcount : p.numXstreams = (ledger abt).uses p.pool % 2 ^ 32 :=
      hs.balanced.counts _ hmem
    rw [uses_ledger, Nat.mod_eq_of_lt (hf p hp)] at hcount
    exact hcount

/-! ## What keeps the invariant -/

theorem entries_countedIn (b : Bool) (hs : List PoolHandle) (ps : List Pool) :
    entries (countedIn b hs ps) =
      (entries ps).map fun e => (e.1, incr32^[hs.count e.1] e.2) := by
  simp only [entries, countedIn, List.map_map]
  apply List.map_congr_left
  intro p _
  exact congrArg (·.2) (poolKey_countUse b _ p)

theorem entries_discountedIn (hs : List PoolHandle) (ps : List Pool) :
    entries (discountedIn hs ps) =
      (entries ps).map fun e => (e.1, decr32^[hs.count e.1] e.2) := by
  simp only [entries, discountedIn, List.map_map]
  apply List.map_congr_left
  intro p _
  exact congrArg (·.2) (poolKey_discountUse _ p)

variable {l : UseLedger PoolHandle}

theorem Sound.addPool (hs : Sound l) {h : PoolHandle}
    (hnew : h = .poolNull ∨ h ∉ l.entries.map Prod.fst) :
    Sound ⟨l.entries ++ [(h, 0)], l.users⟩ where
  distinct := by
    refine List.pairwise_append.mpr ⟨hs.distinct, List.pairwise_singleton _ _, ?_⟩
    intro e he f hf heq
    obtain rfl := List.mem_singleton.mp hf
    rcases hnew with rfl | hnew
    · exact heq
    · have hmem : e.1 ∈ l.entries.map Prod.fst := List.mem_map_of_mem he
      rw [show e.1 = h from heq] at hmem
      exact absurd hmem hnew
  notNull := hs.notNull
  balanced := by
    apply hs.balanced.addEntry
    intro u hu hmem
    rcases hnew with rfl | hnew
    · exact hs.notNull u hu hmem
    · exact hnew (hs.balanced.known u hu h hmem)

theorem Sound.removePool (hs : Sound l) {e : PoolHandle × Nat}
    {es : List (PoolHandle × Nat)} (hperm : l.entries.Perm (e :: es)) (hz : l.uses e.1 = 0) :
    Sound ⟨es, l.users⟩ where
  distinct := by
    have hsymm : ∀ {e f : PoolHandle × Nat}, (e.1 = f.1 → e.1 = .poolNull) →
        (f.1 = e.1 → f.1 = .poolNull) := fun h heq => heq.trans (h heq.symm)
    exact (List.pairwise_cons.mp ((hperm.pairwise_iff hsymm).mp hs.distinct)).2
  notNull := hs.notNull
  balanced := hs.balanced.removeEntry hperm hz

/-- Changing the counts alone keeps the handles distinct. -/
theorem pairwise_recount (hd : l.entries.Pairwise fun e f => e.1 = f.1 → e.1 = .poolNull)
    (count : PoolHandle → Nat → Nat) :
    (l.entries.map fun e => (e.1, count e.1 e.2)).Pairwise
      fun e f => e.1 = f.1 → e.1 = .poolNull := by
  rw [List.pairwise_map]
  exact hd

theorem Sound.addXstream (hs : Sound l) {u : List PoolHandle}
    (hu : ∀ h ∈ u, h ≠ .poolNull ∧ h ∈ l.entries.map Prod.fst) :
    Sound ⟨l.entries.map fun e => (e.1, incr32^[u.count e.1] e.2), l.users ++ [u]⟩ where
  distinct := pairwise_recount hs.distinct fun h => incr32^[u.count h]
  notNull := by
    intro v hv hmem
    rcases List.mem_append.mp hv with hv | hv
    · exact hs.notNull v hv hmem
    · obtain rfl := List.mem_singleton.mp hv
      exact (hu _ hmem).1 rfl
  balanced := hs.balanced.addUser (fun h hh => (hu h hh).2)
    fun h n => incr32_iterate (u.count h) n

theorem Sound.removeXstream (hs : Sound l) {u : List PoolHandle} {us : List (List PoolHandle)}
    (hperm : l.users.Perm (u :: us)) :
    Sound ⟨l.entries.map fun e => (e.1, decr32^[u.count e.1] e.2), us⟩ where
  distinct := pairwise_recount hs.distinct fun h => decr32^[u.count h]
  notNull v hv := hs.notNull v (hperm.mem_iff.mpr (List.mem_cons_of_mem u hv))
  balanced := hs.balanced.removeUser hperm
    fun h n => decr32_iterate (u.count h) n

/-- Counting and discounting the same xstream changes nothing. -/
theorem Sound.entries_recounted (hs : Sound l) (u : List PoolHandle) :
    (l.entries.map fun e => (e.1, incr32^[u.count e.1] e.2)).map
      (fun e => (e.1, decr32^[u.count e.1] e.2)) = l.entries := by
  rw [List.map_map]
  refine (List.map_congr_left fun e he => ?_).trans (List.map_id _)
  have hcount := hs.balanced.counts e he
  simp only [Function.comp_apply, id_eq]
  rw [hcount, incr32_iterate, decr32_iterate, ← hcount]

/-! ## Calls -/

/-- The call fails after it has discounted an xstream that was never counted:
some pool of its scheduler is not registered, but the first one is. -/
def discountsUncounted (r : Replies) (name : Option String) (x : XstreamHandle)
    (abt : MargoAbt) : Bool :=
  (findXstreamByName abt name).isNone && (findXstreamByHandle abt x).isNone &&
    (growXstreams r abt).isSome && !(mainPools x).all (registered abt) &&
    (mainPools x).head?.any (registered abt)

/-- The calls that keep the counts. Pools that Argobots creates have new
handles. -/
def meets (abt : MargoAbt) (a : Call × Replies) : Bool :=
  match a.1 with
  | .addPoolFromJson _ _ =>
      a.2.poolCreate.all fun id => .obj id ∉ abt.pools.map (·.pool)
  | .addXstreamFromJson _ _ => a.2.xstreamCreate.isSome
  | .addXstreamExternal _ name x _ => !discountsUncounted a.2 name x abt
  | _ => true

theorem takeWhile_eq_nil {r : Replies} {name : Option String} {x : XstreamHandle}
    (hm : discountsUncounted r name x abt = false) (hname : findXstreamByName abt name = none)
    (hhandle : findXstreamByHandle abt x = none) (hgrow : (growXstreams r abt).isSome = true)
    (hall : (mainPools x).all (registered abt) = false) :
    (mainPools x).takeWhile (registered abt) = [] := by
  simp only [discountsUncounted, hname, hhandle, hgrow, hall, Option.isNone_none,
    Bool.not_false, Bool.and_self, Bool.true_and] at hm
  cases hp : mainPools x with
  | nil => rfl
  | cons h hs => simpa [hp] using hm

/-- The invariant after a new pool without users. -/
theorem sound_newPool {p : Pool} (hs : Sound (ledger abt))
    (hp : abt'.pools = abt.pools ++ [p]) (hx : abt'.xstreams = abt.xstreams)
    (hnum : p.numXstreams = 0)
    (hnew : p.pool = .poolNull ∨ p.pool ∉ abt.pools.map (·.pool)) :
    Sound (ledger abt') := by
  have hkeys : (ledger abt).entries.map Prod.fst = abt.pools.map (·.pool) := by
    simp only [ledger, entries, List.map_map, Function.comp_def]
  have hsound := hs.addPool (h := p.pool) (by rwa [hkeys])
  rw [ledger, hp, hx, entries, List.map_append, List.map_singleton, hnum]
  exact hsound

/-- The invariant after a new xstream that is counted in its pools. -/
theorem sound_newXstream {b : Bool} {id : Nat} {pools : List PoolHandle} {x : Xstream}
    (hs : Sound (ledger abt)) (hall : pools.all (registered abt) = true)
    (hx : x.xstream = .obj id pools) (hp : abt'.pools = countedIn b pools abt.pools)
    (hxs : abt'.xstreams = abt.xstreams ++ [x]) : Sound (ledger abt') := by
  have hnew := hs.addXstream (u := pools)
    fun h hh => (registered_iff_ledger abt h).mp (List.all_eq_true.mp hall h hh)
  rw [ledger, hp, hxs, entries_countedIn, List.map_append, List.map_singleton, hx]
  exact hnew

/-- An addition from JSON keeps the invariant, and a failing one changes no count
and no xstream. -/
theorem addXstreamFromJson_sound {r : Replies} {j : Json} (hs : Sound (ledger abt))
    (hprim : HasPrimary abt) (hcreate : r.xstreamCreate.isSome = true) :
    Sound (ledger (addXstreamFromJson r j abt).1) ∧
    ((addXstreamFromJson r j abt).2 = false →
      ledger (addXstreamFromJson r j abt).1 = ledger abt ∧
      (addXstreamFromJson r j abt).1.xstreams = abt.xstreams) := by
  rcases addXstreamFromJson_cases hs.distinctPools hprim hcreate with
    ⟨hs', hp, hx⟩ | ⟨id, pools, b, x, hx, hname, -, -, hall, hok, hp, hxs⟩
  · have hentries : entries (addXstreamFromJson r j abt).1.pools = entries abt.pools := by
      rw [hp, entries_discountedIn, entries_countedIn]
      exact hs.entries_recounted hs'
    have hledger : ledger (addXstreamFromJson r j abt).1 = ledger abt := by
      rw [ledger, hentries, hx]
      rfl
    refine ⟨?_, fun _ => ⟨hledger, hx⟩⟩
    rw [hledger]
    exact hs
  · exact ⟨sound_newXstream hs hall hx hp hxs, fun hfalse => absurd hok (by simp [hfalse])⟩

/-- The same for the addition of an external xstream. -/
theorem addExternalXstream_sound {r : Replies} {name : Option String} {x : XstreamHandle}
    {ok : Bool} (hs : Sound (ledger abt))
    (hm : discountsUncounted r name x abt = false)
    (h : addExternalXstream r name x abt = some (abt', ok)) :
    Sound (ledger abt') ∧
    (ok = false → ledger abt' = ledger abt ∧ abt'.xstreams = abt.xstreams) := by
  have hsame (hp : abt'.pools = abt.pools) (hx : abt'.xstreams = abt.xstreams) :
      Sound (ledger abt') ∧
      (ok = false → ledger abt' = ledger abt ∧ abt'.xstreams = abt.xstreams) := by
    have hledger : ledger abt' = ledger abt := by rw [ledger, hp, hx]; rfl
    refine ⟨?_, fun _ => ⟨hledger, hx⟩⟩
    rw [hledger]
    exact hs
  rcases addExternalXstream_cases hs.distinctPools h with
    ⟨hp, hx⟩ | ⟨id, pools, n, b, entry, rfl, rfl, -, -, hn, hx, hall, rfl, hp, hxs⟩ |
    ⟨id, pools, rfl, hname, hhandle, hgrow, hall, hp, hx⟩
  · exact hsame hp hx
  · exact ⟨sound_newXstream hs hall hx hp hxs, fun hfalse => absurd hfalse (by decide)⟩
  · have hnil : pools.takeWhile (registered abt) = [] :=
      takeWhile_eq_nil hm hname hhandle hgrow hall
    refine hsame ?_ hx
    rw [hp, hnil]
    simp [discountedIn]

/-- A pool that can be removed is in no scheduler. -/
theorem removable_unused {r : Replies} {i : Nat} {p : Pool} (hc : Counted abt)
    (hp : abt.pools[i]? = some p) (hr : removable r i abt = true) : uses abt p.pool = 0 := by
  rw [← hc.counts p (List.mem_of_getElem? hp)]
  simp only [removable, hp, Option.any_some, Bool.and_eq_true, beq_iff_eq] at hr
  exact hr.1.2

theorem removePool_sound {r : Replies} {i : Nat} (hs : Sound (ledger abt))
    (hf : Few abt) :
    Sound (ledger (removePool r i abt).1) := by
  rw [removePool_eq]
  split
  · next hr =>
      obtain ⟨p, hp⟩ := removable_getElem? hr
      have hz := removable_unused (hs.counted hf) hp hr
      have hperm := (perm_swapRemove hp).map fun p => (p.pool, p.numXstreams)
      exact hs.removePool hperm (by rw [uses_ledger]; exact hz)
  · exact hs

theorem xstreamDestroy_pools {x : XstreamHandle} (hd : DistinctPools abt)
    (hreg : ∀ h ∈ mainPools x, registered abt h = true) :
    (xstreamDestroy x abt).pools = discountedIn (mainPools x) abt.pools := by
  cases x with
  | null => simp [xstreamDestroy, mainPools, discountedIn]
  | xstreamNull => simp [xstreamDestroy, mainPools, discountedIn]
  | obj id pools =>
      have hall : pools.takeWhile (registered abt) = pools :=
        List.takeWhile_eq_self_iff.mpr hreg
      rw [xstreamDestroy, walkPools_eq discountUse_pool hd, hall]
      rfl

theorem removeXstream_sound {i : Nat} (hs : Sound (ledger abt)) :
    Sound (ledger (removeXstream i abt).1) := by
  rcases removeXstream_cases i abt with hsame | ⟨x, hx, -, -, hp, hxs⟩
  · rw [hsame]
    exact hs
  · have hreg : ∀ h ∈ mainPools x.xstream, registered abt h = true :=
      fun h hh => hs.scheduled (List.mem_of_getElem? hx) hh
    have hperm := (perm_swapRemove hx).map fun x => mainPools x.xstream
    have hnew := hs.removeXstream hperm
    rw [ledger, hp, hxs, xstreamDestroy_pools hs.distinctPools hreg, entries_discountedIn]
    exact hnew

/-- One call keeps the invariant. -/
theorem sound_step {a : Call × Replies} (hs : Sound (ledger abt)) (hprim : HasPrimary abt)
    (hf : Few abt) (hm : meets abt a = true) (h : callStep abt a = some abt') :
    Sound (ledger abt') := by
  obtain ⟨c, r⟩ := a
  cases Call.effect h with
  | same hsame => rw [SameEntries.ledger hsame]; exact hs
  | addPoolFromJson =>
      rename_i j
      rcases addPoolFromJson_cases r j abt with
        ⟨hp, hx⟩ | ⟨id, p, hid, hpool, -, -, hnum, -, hp, hx⟩
      · rw [ledger, hp, hx]
        exact hs
      · have hfresh : .obj id ∉ abt.pools.map (·.pool) := by simpa [meets, hid] using hm
        exact sound_newPool hs hp hx hnum (.inr (hpool ▸ hfresh))
  | addPoolExternal hsame =>
      rename_i name pool own
      rw [SameEntries.ledger hsame]
      rcases addExternalPool_cases r name pool abt with ⟨hp, hx⟩ | ⟨-, hhandle, -, hp, hx⟩
      · rw [ledger, hp, hx]
        exact hs
      · exact sound_newPool hs hp hx rfl (findPoolByHandle_none hhandle)
  | removePool i => exact removePool_sound hs hf
  | addXstreamFromJson => exact (addXstreamFromJson_sound hs hprim hm).1
  | addXstreamExternal hadd hsame =>
      rw [SameEntries.ledger hsame]
      exact (addExternalXstream_sound hs (by simpa [meets] using hm) hadd).1
  | removeXstream i => exact removeXstream_sound hs

/-! ## Initialization -/

/-- Creating an xstream succeeds whenever the initialization asks for it. -/
def Creates (r : InitReplies) : Prop := ∀ i, (r.xstream i).xstreamCreate.isSome = true

/-- The invariant during the initialization. -/
structure Building (r : InitReplies) (abt : MargoAbt) : Prop where
  sound : Sound (ledger abt)
  numbered : Numbered r (abt.pools.map (·.pool))

variable {r : InitReplies}

theorem building_newPool (hr : FreshPools r) (hb : Building r abt) {j : Json} {p : Pool}
    (h : poolInitFromJson (r.pool abt.pools.length) j abt = some p) :
    Building r (appendPool abt p) := by
  obtain ⟨id, hid, hpool, -, -, hnum⟩ := poolInitFromJson_eq h
  have hid' : (r.pool (abt.pools.map (·.pool)).length).poolCreate = some id := by
    rwa [List.length_map]
  refine ⟨sound_newPool hb.sound rfl rfl hnum (.inr ?_), ?_⟩
  · rw [hpool]
    exact hb.numbered.not_mem hr hid'
  · simp only [appendPool, List.map_append, List.map_singleton, hpool]
    exact hb.numbered.append hid'

theorem building_newXstream {b : Bool} {id : Nat} {pools : List PoolHandle} {x : Xstream}
    (hb : Building r abt) (hall : pools.all (registered abt) = true)
    (hx : x.xstream = .obj id pools) (hp : abt'.pools = countedIn b pools abt.pools)
    (hxs : abt'.xstreams = abt.xstreams) : Building r (appendXstream abt' x) := by
  refine ⟨sound_newXstream hb.sound hall hx hp (by rw [appendXstream, hxs]), ?_⟩
  have hkeys := congrArg (List.map Prod.fst) (entries_countedIn b pools abt.pools)
  simp only [entries, List.map_map, Function.comp_def] at hkeys
  rw [appendXstream, hp, hkeys]
  exact hb.numbered

theorem building_initXstream (hc : Creates r) {j : Json} (hb : Building r abt)
    (h : initXstream r j abt = some abt') : Building r abt' := by
  unfold initXstream at h
  split at h
  · cases h
  · next abt₁ x hinit =>
      obtain rfl := Option.some.inj h
      obtain ⟨id, pools, b, hx, -, -, hall, hp, hxs⟩ :=
        xstreamInitFromJson_some hb.sound.distinctPools (hc _) hinit
      exact building_newXstream hb hall hx hp hxs

theorem building_initPrimaryPool (hr : FreshPools r) {i : Nat} (hb : Building r abt)
    (h : initPrimaryPool r abt = some (abt', i)) : Building r abt' := by
  rcases initPrimaryPool_cases h with rfl | ⟨j, p, -, hp, rfl⟩
  · exact hb
  · exact building_newPool hr hb hp

theorem building_initPrimary (hr : FreshPools r) (hc : Creates r) (hb : Building r abt)
    (h : initPrimary r abt = some abt') : Sound (ledger abt') := by
  unfold initPrimary at h
  split at h
  · cases h
  next abt₁ i hpool =>
  have hb₁ := building_initPrimaryPool hr hb hpool
  have hflag : Building r { abt₁ with
      pools := abt₁.pools.modify i fun p => { p with margoFreeFlag := false } } := by
    constructor
    · rw [ledger, entries, map_modify_of_eq (by intro; rfl)]
      exact hb₁.sound
    · rw [map_modify_of_eq (by intro; rfl)]
      exact hb₁.numbered
  exact (building_initXstream hc hflag h).sound

theorem building_initPrimaryExternal (hr : FreshPools r) (hb : Building r abt)
    (h : initPrimaryExternal r abt = some abt') : Sound (ledger abt') := by
  unfold initPrimaryExternal at h
  have hpool : Sound (ledger (appendPool abt
      (poolInitExternal (some "__primary__") (r.selfPools.headD .poolNull) abt))) :=
    sound_newPool hb.sound rfl rfl rfl (hb.numbered.self_not_mem hr)
  generalize appendPool abt
    (poolInitExternal (some "__primary__") (r.selfPools.headD .poolNull) abt) = abt₁ at h hpool
  cases hinit : xstreamInitExternal (some "__primary__") (.obj r.self r.selfPools) abt₁ with
  | none => simp [hinit] at h
  | some result =>
      obtain ⟨abt₂, out⟩ := result
      rcases xstreamInitExternal_cases hpool.distinctPools hinit with
        ⟨rfl, rfl⟩ | ⟨id, pools, n, b, entry, hobj, -, rfl, -, hx, hall, hp, hxs⟩ |
        ⟨id, pools, -, rfl, -⟩
      · simp [hinit] at h
      · obtain rfl : appendXstream abt₂ entry = abt' := by simpa [hinit] using h
        exact sound_newXstream hpool hall (hx.trans hobj) hp (by rw [appendXstream, hxs])
      · simp [hinit] at h

/-- The configured environment satisfies the invariant. -/
theorem abtInitFromJson_sound (hr : FreshPools r) (hc : Creates r) {j : Json}
    (h : abtInitFromJson r j = some abt) : Sound (ledger abt) := by
  have hempty (m n : Nat) : Building r ⟨[], m, [], n⟩ := by
    refine ⟨⟨List.Pairwise.nil, fun u hu => ?_, fun u hu => ?_, fun e he => ?_⟩, fun k h hk => ?_⟩
    · cases hu
    · cases hu
    · cases he
    · simp at hk
  obtain ⟨abt₁, abt₂, hpools, hxs, ⟨rfl, -⟩ | ⟨-, hprimary⟩⟩ := abtInitFromJson_stages h
  all_goals
    have hb₁ := initPools_induction (fun hb hp => building_newPool hr hb hp) hpools (hempty _ _)
    have hb := initXstreams_induction (fun hb hx => building_initXstream hc hb hx) hxs hb₁
  · exact hb.sound
  · split at hprimary
    · exact building_initPrimaryExternal hr hb hprimary
    · exact building_initPrimary hr hc hb hprimary

/-! ## Runs -/

theorem removePool_success {r : Replies} {i : Nat} (h : (removePool r i abt).2 = .success) :
    removable r i abt = true := by
  unfold removePool at h
  split at h
  · cases h
  next p hp =>
  split at h
  · cases h
  split at h
  · cases h
  split at h
  · cases h
  split at h
  · cases h
  · simp_all [removable]

/-- Use counts: in every run from a configured environment in which Argobots
creates what it is asked to and no failing addition discounts an xstream it has
not counted, all pools of registered schedulers are registered and the counts
are right. A pool that is removed is then in no scheduler, and an addition that
fails changes no count. -/
theorem use_counts {r : InitReplies} {j : Json} {abt₀ abt : MargoAbt}
    {as : List (Call × Replies)} (hr : FreshPools r) (hc : Creates r)
    (hinit : abtInitFromJson r j = some abt₀) (hf : Few abt₀)
    (hrun : Run callStep (fun s a s' => meets s a = true ∧ Few s') abt₀ as abt) :
    Counted abt ∧
    (∀ r i p, abt.pools[i]? = some p → (removePool r i abt).2 = .success →
      ∀ x ∈ abt.xstreams, p.pool ∉ mainPools x.xstream) ∧
    (∀ r j, r.xstreamCreate.isSome = true → (addXstreamFromJson r j abt).2 = false →
      entries (addXstreamFromJson r j abt).1.pools = entries abt.pools ∧
      (addXstreamFromJson r j abt).1.xstreams = abt.xstreams) ∧
    (∀ r name x abt', discountsUncounted r name x abt = false →
      addExternalXstream r name x abt = some (abt', false) →
      entries abt'.pools = entries abt.pools ∧ abt'.xstreams = abt.xstreams) := by
  have hs₀ := abtInitFromJson_sound hr hc hinit
  have hp₀ := abtInitFromJson_hasPrimary hinit
  obtain ⟨hs, hprim, hfew⟩ : Sound (ledger abt) ∧ HasPrimary abt ∧ Few abt := by
    refine hrun.invariant (P := fun s => Sound (ledger s) ∧ HasPrimary s ∧ Few s) ?_
      ⟨hs₀, hp₀, hf⟩
    rintro s a s' ⟨hs, hprim, hfew⟩ ⟨hm, hfew'⟩ h
    exact ⟨sound_step hs hprim hfew hm h, hasPrimary_step hprim h, hfew'⟩
  have hcounted := hs.counted hfew
  refine ⟨hcounted, ?_, ?_, ?_⟩
  · intro r i p hp hsucc x hx hmem
    have hz := removable_unused hcounted hp (removePool_success hsucc)
    exact List.count_eq_zero.mp hz (List.mem_flatMap.mpr ⟨x, hx, hmem⟩)
  · intro r j hcreate hfail
    obtain ⟨hledger, hx⟩ := (addXstreamFromJson_sound hs hprim hcreate).2 hfail
    exact ⟨congrArg UseLedger.entries hledger, hx⟩
  · intro r name x abt' hm hadd
    obtain ⟨hledger, hx⟩ := (addExternalXstream_sound hs hm hadd).2 rfl
    exact ⟨congrArg UseLedger.entries hledger, hx⟩

instance (abt : MargoAbt) : Decidable (Few abt) :=
  inferInstanceAs (Decidable (∀ p ∈ abt.pools, _))

/-- After a pool and an xstream that uses it twice have been added. -/
def withExternal : MargoAbt where
  pools := [⟨"__primary__", .obj 0, "fifo_wait", some "mpmc", 0, 2, false, true⟩,
    ⟨"p", .obj 5, "external", none, 0, 2, false, false⟩]
  poolsCap := 3
  xstreams := primaryOnly.xstreams ++
    [⟨"x", .obj 7 [.obj 5, .obj 0, .obj 5], "external", 0, false⟩]
  xstreamsCap := 4

/-- A pool and an xstream that uses it twice are added, and another xstream is
refused for its first pool. -/
def externalCalls : List (Call × Replies) :=
  [(.addPoolExternal caller (some "p") (.obj 5) false, granted 9),
    (.addXstreamExternal caller (some "x") (.obj 7 [.obj 5, .obj 0, .obj 5]) false, granted 9),
    (.addXstreamExternal caller (some "y") (.obj 8 [.obj 6, .obj 5]) false, granted 9)]

theorem use_counts_external :
    abtInitFromJson initGranted (.object []) = some primaryOnly ∧
    Run callStep (fun s a s' => meets s a = true ∧ Few s') primaryOnly externalCalls
      withExternal ∧
    Counted withExternal := by
  have hinit : abtInitFromJson initGranted (.object []) = some primaryOnly := by decide
  have hrun : Run callStep (fun s a s' => meets s a = true ∧ Few s') primaryOnly externalCalls
      withExternal := run_of_exec (by decide)
  exact ⟨hinit, hrun,
    (use_counts freshPools_initGranted (fun _ => rfl) hinit (by decide) hrun).1⟩

/-- An external xstream is refused for its second pool, and its first one, which
the primary xstream uses, is discounted. -/
theorem refused_xstream_discounts :
    ¬∀ (r : InitReplies) (j : Json) (abt₀ abt : MargoAbt) (as : List (Call × Replies)),
      FreshPools r → Creates r → abtInitFromJson r j = some abt₀ →
      Run callStep Any abt₀ as abt → Counted abt := by
  intro hall
  have hrun : Run callStep Any primaryOnly
      [(.addXstreamExternal caller (some "x") (.obj 7 [.obj 0, .obj 6]) false, granted 9)]
      { primaryOnly with
        pools := [⟨"__primary__", .obj 0, "fifo_wait", some "mpmc", 0, 0, false, true⟩]
        xstreamsCap := 2 } := run_of_exec (by decide)
  have hcounted := hall initGranted (.object []) _ _ _ freshPools_initGranted (fun _ => rfl)
    (by decide) hrun
  exact absurd (hcounted.counts _ List.mem_cons_self) (by decide)

end Margo.Abt.UseCounts
