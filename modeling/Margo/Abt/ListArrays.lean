import Margo.Abt.ArraySpecs
import Margo.Abt.Calls
import Margo.Lib.Runs

/-!
# The lists of the registry in memory

The arrays in memory are the lists of the registry with zero slots up to the capacity.
As long as Argobots answers every question about a scheduler, the functions on the one
do what the functions on the other do, so that every run of the public calls on the lists
is a run on the arrays.

## Implementation notes

An entry of a list has a name and a kind. Where the registry has no result, the function
in memory runs into a null pointer.
-/

namespace Margo.Abt.Arrays

open Lib

/-- A pool in memory. -/
def poolSlot (p : Pool) : PoolSlot :=
  ⟨some p.name, p.pool, some p.kind, p.access, p.refcount, p.numXstreams, p.margoFreeFlag,
    p.usedByPrimary⟩

/-- An xstream in memory. -/
def xstreamSlot (x : Xstream) : XstreamSlot :=
  ⟨some x.name, x.xstream, x.refcount, some x.schedType, x.margoFreeFlag⟩

/-- The lists in memory. -/
def inMemory (abt : MargoAbt) : Arrays where
  pools := .image poolSlot abt.pools abt.poolsCap
  xstreams := .image xstreamSlot abt.xstreams abt.xstreamsCap

/-- The entries fit the capacities. -/
structure Fits (abt : MargoAbt) : Prop where
  pools : abt.pools.length ≤ abt.poolsCap
  xstreams : abt.xstreams.length ≤ abt.xstreamsCap

/-- Every question about a scheduler is answered. -/
structure SchedCalls.Grants (calls : SchedCalls) : Prop where
  mainSched : calls.mainSched = true
  numPools : calls.numPools = true
  pools : ∀ i, calls.pools i = true

/-- So it is whenever the operation asks. -/
structure Env.Grants (env : Env) : Prop where
  external : env.external.Grants
  count : env.count.Grants
  destroy : env.destroy.Grants

section

variable {abt abt' : MargoAbt} {env : Env} {calls : SchedCalls}

/-! ## Lookup -/

theorem findPoolByName_inMemory (abt : MargoAbt) (name : Option String) :
    findPoolByName (inMemory abt) name = Abt.findPoolByName abt name := by
  cases name with
  | none => rfl
  | some name =>
      rw [findPoolByName, inMemory, SlotArray.entries_image, List.findIdx?_map]
      rfl

theorem findPoolByHandle_inMemory (abt : MargoAbt) (pool : PoolHandle) :
    findPoolByHandle (inMemory abt) pool = Abt.findPoolByHandle abt pool := by
  rw [findPoolByHandle, inMemory, SlotArray.entries_image, List.findIdx?_map]
  rfl

theorem findXstreamByName_inMemory (abt : MargoAbt) (name : Option String) :
    findXstreamByName (inMemory abt) name = Abt.findXstreamByName abt name := by
  cases name with
  | none => rfl
  | some name =>
      rw [findXstreamByName, inMemory, SlotArray.entries_image, List.findIdx?_map]
      rfl

theorem findXstreamByHandle_inMemory (abt : MargoAbt) (xstream : XstreamHandle) :
    findXstreamByHandle (inMemory abt) xstream = Abt.findXstreamByHandle abt xstream := by
  rw [findXstreamByHandle, inMemory, SlotArray.entries_image, List.findIdx?_map]
  rfl

/-- The names of entries that have one. -/
theorem mapM_deref {α β : Type} (slot : α → β) (nameOf : β → Option String) (name : α → String)
    (hname : ∀ a, nameOf (slot a) = some (name a)) (l : List α) :
    (l.map slot).mapM (fun b => deref (nameOf b)) = .ok (l.map name) := by
  induction l with
  | nil => rfl
  | cons a l ih =>
      rw [List.map_cons, List.mapM_cons, ih, hname]
      rfl

theorem generateUnusedPoolName_inMemory (abt : MargoAbt) :
    generateUnusedPoolName (inMemory abt) = .ok (Abt.generateUnusedPoolName abt) := by
  rw [generateUnusedPoolName, inMemory, SlotArray.entries_image,
    mapM_deref poolSlot PoolSlot.name Pool.name fun _ => rfl]
  rfl

theorem generateUnusedXstreamName_inMemory (abt : MargoAbt) :
    generateUnusedXstreamName (inMemory abt) = .ok (Abt.generateUnusedXstreamName abt) := by
  rw [generateUnusedXstreamName, inMemory, SlotArray.entries_image,
    mapM_deref xstreamSlot XstreamSlot.name Xstream.name fun _ => rfl]
  rfl

theorem poolJsonName_inMemory (jpool : Json) (abt : MargoAbt) :
    poolJsonName jpool (inMemory abt) = .ok (Abt.poolJsonName jpool abt) := by
  rw [poolJsonName, Abt.poolJsonName, generateUnusedPoolName_inMemory]
  split <;> rfl

theorem xstreamJsonName_inMemory (jxstream : Json) (abt : MargoAbt) :
    xstreamJsonName jxstream (inMemory abt) = .ok (Abt.xstreamJsonName jxstream abt) := by
  rw [xstreamJsonName, Abt.xstreamJsonName, generateUnusedXstreamName_inMemory]
  split <;> rfl

theorem poolExternalName_inMemory (name : Option String) (abt : MargoAbt) :
    poolExternalName name (inMemory abt) = .ok (name.getD (Abt.generateUnusedPoolName abt)) := by
  cases name with
  | none => exact generateUnusedPoolName_inMemory abt
  | some name => rfl

theorem xstreamExternalName_inMemory (name : Option String) (abt : MargoAbt) :
    xstreamExternalName name (inMemory abt) =
      .ok (name.getD (Abt.generateUnusedXstreamName abt)) := by
  cases name with
  | none => exact generateUnusedXstreamName_inMemory abt
  | some name => rfl

/-- The checks of a configuration see the lists. -/
theorem seen_inMemory (h : Fits abt) : (inMemory abt).seen = abt := by
  have hpools : (abt.pools.map poolSlot).map (fun p => (⟨p.name.getD "", p.pool, p.kind.getD "",
      p.access, p.refcount, p.numXstreams, p.margoFreeFlag, p.usedByPrimary⟩ : Pool)) =
      abt.pools := by
    rw [List.map_map]
    exact List.map_id _
  have hxstreams : (abt.xstreams.map xstreamSlot).map (fun x => (⟨x.name.getD "", x.xstream,
      x.schedType.getD "", x.refcount, x.margoFreeFlag⟩ : Xstream)) = abt.xstreams := by
    rw [List.map_map]
    exact List.map_id _
  simp only [seen, inMemory, SlotArray.entries_image, SlotArray.cap_image h.pools,
    SlotArray.cap_image h.xstreams, hpools, hxstreams]

/-! ## New pools -/

theorem len_pools_inMemory (abt : MargoAbt) : (inMemory abt).pools.len = abt.pools.length :=
  SlotArray.len_image

theorem len_xstreams_inMemory (abt : MargoAbt) :
    (inMemory abt).xstreams.len = abt.xstreams.length := SlotArray.len_image

theorem cap_pools_inMemory (h : Fits abt) : (inMemory abt).pools.cap = abt.poolsCap :=
  SlotArray.cap_image h.pools

theorem cap_xstreams_inMemory (h : Fits abt) : (inMemory abt).xstreams.cap = abt.xstreamsCap :=
  SlotArray.cap_image h.xstreams

theorem growPools_inMemory (h : Fits abt) (env : Env) :
    growPools env (inMemory abt) = (Abt.growPools env.toReplies abt).map inMemory := by
  rw [growPools, Abt.growPools, len_pools_inMemory, cap_pools_inMemory h]
  split
  · split
    · have hle : abt.poolsCap ≤ grownCap abt.poolsCap :=
        (Nat.le_succ _).trans (le_grownCap abt.poolsCap)
      have hgrow : (inMemory abt).pools.grow (grownCap abt.poolsCap) env.freshPool =
          .image poolSlot abt.pools (grownCap abt.poolsCap) :=
        SlotArray.grow_image h.pools hle env.freshPool
      rw [hgrow]
      rfl
    · rfl
  · rfl

theorem growXstreams_inMemory (h : Fits abt) (env : Env) :
    growXstreams env (inMemory abt) = (Abt.growXstreams env.toReplies abt).map inMemory := by
  rw [growXstreams, Abt.growXstreams, len_xstreams_inMemory, cap_xstreams_inMemory h]
  split
  · split
    · have hle : abt.xstreamsCap ≤ grownCap abt.xstreamsCap :=
        (Nat.le_succ _).trans (le_grownCap abt.xstreamsCap)
      have hgrow : (inMemory abt).xstreams.grow (grownCap abt.xstreamsCap) env.freshXstream =
          .image xstreamSlot abt.xstreams (grownCap abt.xstreamsCap) :=
        SlotArray.grow_image h.xstreams hle env.freshXstream
      rw [hgrow]
      rfl
    · rfl
  · rfl

/-- After a growth of the pools there is room for one more. -/
theorem fits_growPools {r : Replies} (h : Fits abt) (hgrow : Abt.growPools r abt = some abt') :
    Fits abt' ∧ abt'.pools.length < abt'.poolsCap := by
  have hpools := h.pools
  unfold Abt.growPools at hgrow
  split_ifs at hgrow
  all_goals obtain rfl := Option.some.inj hgrow
  · have hgrown := le_grownCap abt.poolsCap
    refine ⟨⟨?_, h.xstreams⟩, ?_⟩
    · change abt.pools.length ≤ grownCap abt.poolsCap
      omega
    · change abt.pools.length < grownCap abt.poolsCap
      omega
  · exact ⟨h, by omega⟩

/-- After a growth of the xstreams there is room for one more. -/
theorem fits_growXstreams {r : Replies} (h : Fits abt)
    (hgrow : Abt.growXstreams r abt = some abt') :
    Fits abt' ∧ abt'.xstreams.length < abt'.xstreamsCap := by
  have hxstreams := h.xstreams
  unfold Abt.growXstreams at hgrow
  split_ifs at hgrow
  all_goals obtain rfl := Option.some.inj hgrow
  · have hgrown := le_grownCap abt.xstreamsCap
    refine ⟨⟨h.pools, ?_⟩, ?_⟩
    · change abt.xstreams.length ≤ grownCap abt.xstreamsCap
      omega
    · change abt.xstreams.length < grownCap abt.xstreamsCap
      omega
  · exact ⟨h, by omega⟩

/-- How an initializer of pools leaves the slot. -/
def poolResult : Option Pool → PoolSlot × Bool
  | none => (0, false)
  | some p => (poolSlot p, true)

/-- The lists with a new pool, if there is one. -/
def withPool (abt : MargoAbt) : Option Pool → MargoAbt × Bool
  | none => (abt, false)
  | some p => (Abt.appendPool abt p, true)

theorem poolInitFromJson_inMemory (env : Env) (jpool : Json) (abt : MargoAbt) :
    poolInitFromJson env jpool (inMemory abt) 0 =
      .ok (poolResult (Abt.poolInitFromJson env.toReplies jpool abt)) := by
  rw [poolInitFromJson, poolJsonName_inMemory, Abt.poolInitFromJson]
  change (if !env.alloc then _ else _) = _
  split
  · rfl
  · split
    · cases env.poolCreate with
      | none => rfl
      | some id =>
          have haccess : (poolJsonFields jpool (Abt.poolJsonName jpool abt) 0).access.getD "mpmc" =
              if (jpool.get "access").present then (jpool.get "access").getString else "mpmc" := by
            unfold poolJsonFields
            split <;> rfl
          simp only [haccess]
          rfl
    · rfl

theorem poolInitExternal_inMemory (name : Option String) (handle : PoolHandle) (abt : MargoAbt) :
    poolInitExternal name handle (inMemory abt) 0 =
      .ok (poolResult (some (Abt.poolInitExternal name handle abt))) := by
  rw [poolInitExternal, poolExternalName_inMemory]
  rfl

/-- A pool is appended where there is room. -/
theorem appendPool_inMemory {init : PoolSlot → Mem (PoolSlot × Bool)} {p : Option Pool}
    (hroom : abt.pools.length < abt.poolsCap) (hinit : init 0 = .ok (poolResult p)) :
    appendPool init (inMemory abt) = .ok (Prod.map inMemory id (withPool abt p)) := by
  have hslot : (inMemory abt).pools.slots[abt.pools.length]? = some 0 :=
    SlotArray.slots_image_length hroom
  rw [appendPool, len_pools_inMemory, hslot]
  change init 0 >>= _ = _
  rw [hinit]
  cases p with
  | none =>
      have hwrite : (inMemory abt).pools.write abt.pools.length 0 = (inMemory abt).pools :=
        SlotArray.write_zero_image hroom
      change Except.ok (({ inMemory abt with
        pools := (inMemory abt).pools.write abt.pools.length 0 } : Arrays), false) = _
      rw [hwrite]
      rfl
  | some p =>
      have hwrite : { (inMemory abt).pools.write abt.pools.length (poolSlot p) with
          len := (inMemory abt).pools.len + 1 } = (inMemory (Abt.appendPool abt p)).pools := by
        rw [len_pools_inMemory]
        exact SlotArray.write_image hroom p
      change Except.ok (({ inMemory abt with
        pools := { (inMemory abt).pools.write abt.pools.length (poolSlot p) with
          len := (inMemory abt).pools.len + 1 } } : Arrays), true) = _
      rw [hwrite]
      rfl

theorem addPoolFromJson_inMemory (h : Fits abt) (env : Env) (config : Json) :
    addPoolFromJson env config (inMemory abt) =
      .ok (Prod.map inMemory id (Abt.addPoolFromJson env.toReplies config abt)) := by
  rw [addPoolFromJson, Abt.addPoolFromJson, findPoolByName_inMemory, growPools_inMemory h]
  cases poolValidateJson env.abtInitialized config with
  | error => rfl
  | ok _ =>
      dsimp only
      split
      · rfl
      · cases hgrow : Abt.growPools env.toReplies abt with
        | none => rfl
        | some abt' =>
            have hinit := poolInitFromJson_inMemory env config abt'
            dsimp only [Option.map_some]
            rw [appendPool_inMemory (fits_growPools h hgrow).2 hinit]
            cases Abt.poolInitFromJson env.toReplies config abt' with
            | none => rfl
            | some p => rfl

theorem addExternalPool_inMemory (h : Fits abt) (env : Env) (name : Option String)
    (pool : PoolHandle) :
    addExternalPool env name pool (inMemory abt) =
      .ok (Prod.map inMemory id (Abt.addExternalPool env.toReplies name pool abt)) := by
  rw [addExternalPool, Abt.addExternalPool, findPoolByName_inMemory, findPoolByHandle_inMemory,
    growPools_inMemory h]
  split
  · rfl
  · split
    · rfl
    · cases hgrow : Abt.growPools env.toReplies abt with
      | none => rfl
      | some abt' =>
          exact appendPool_inMemory (fits_growPools h hgrow).2
            (poolInitExternal_inMemory name pool abt')

/-! ## Schedulers -/

theorem indexOfName_inMemory (name : String) (pools : List Pool) :
    indexOfName name (pools.map poolSlot) =
      .ok ((pools.findIdx? fun p => p.name == name).getD pools.length) := by
  induction pools with
  | nil => rfl
  | cons p pools ih =>
      rw [List.map_cons, indexOfName, ih, List.findIdx?_cons]
      change (if p.name = name then _ else _) = _
      by_cases hname : p.name = name
      · rw [if_pos hname, if_pos (beq_iff_eq.mpr hname)]
        rfl
      · rw [if_neg hname, if_neg (mt beq_iff_eq.mp hname)]
        cases pools.findIdx? fun p => p.name == name with
        | none => rfl
        | some i => rfl

theorem slots_pools_inMemory (abt : MargoAbt) {i : Nat} (hi : i < abt.pools.length) :
    (inMemory abt).pools.slots[i]? = abt.pools[i]?.map poolSlot := SlotArray.slots_image hi

theorem slots_xstreams_inMemory (abt : MargoAbt) {i : Nat} (hi : i < abt.xstreams.length) :
    (inMemory abt).xstreams.slots[i]? = abt.xstreams[i]?.map xstreamSlot :=
  SlotArray.slots_image hi

theorem schedPool_inMemory (abt : MargoAbt) (ref : Json) :
    schedPool (inMemory abt) ref = .ok (Abt.schedPool abt ref) := by
  have hposition : refPosition (inMemory abt) ref = .ok (if ref.isType .int then
      (ref.getInt % 2 ^ 32).toNat
      else (abt.pools.findIdx? fun p => p.name == ref.getString).getD abt.pools.length) := by
    rw [refPosition, inMemory, SlotArray.entries_image, indexOfName_inMemory]
    split <;> rfl
  rw [schedPool, Abt.schedPool, hposition]
  generalize (if ref.isType .int then (ref.getInt % 2 ^ 32).toNat
    else (abt.pools.findIdx? fun p => p.name == ref.getString).getD abt.pools.length) = index
  change (if (inMemory abt).pools.len ≤ index then _ else _) = _
  rw [len_pools_inMemory]
  by_cases hout : abt.pools.length ≤ index
  · rw [if_pos hout, List.getElem?_eq_none hout]
    rfl
  · rw [if_neg hout, slots_pools_inMemory abt (Nat.lt_of_not_le hout), Option.map_map]
    rfl

theorem schedPools_inMemory (abt : MargoAbt) (refs : List Json) :
    schedPools (inMemory abt) refs = .ok (refs.mapM (Abt.schedPool abt)) := by
  induction refs with
  | nil => rfl
  | cons ref refs ih =>
      rw [schedPools, schedPool_inMemory, ih, List.mapM_cons]
      cases Abt.schedPool abt ref with
      | none => rfl
      | some pool =>
          cases refs.mapM (Abt.schedPool abt) with
          | none => rfl
          | some pools => rfl

theorem schedInitFromJson_inMemory (env : Env) (jsched : Json) (abt : MargoAbt) :
    schedInitFromJson env jsched (inMemory abt) =
      .ok (Abt.schedInitFromJson env.toReplies jsched abt) := by
  rw [schedInitFromJson, Abt.schedInitFromJson, schedPools_inMemory]
  cases (jsched.get "pools").items.mapM (Abt.schedPool abt) with
  | none => rfl
  | some pools =>
      change (if env.schedCreate then _ else _) = Except.ok (if env.schedCreate then _ else _)
      split <;> rfl

theorem schedInitExternal_inMemory (hcalls : calls.Grants) (pools : List PoolHandle)
    (abt : MargoAbt) :
    schedInitExternal calls pools (inMemory abt) =
      !pools.any fun p => (Abt.findPoolByHandle abt p).isNone := by
  simp only [schedInitExternal, hcalls.numPools, hcalls.pools, findPoolByHandle_inMemory,
    Bool.true_and, List.not_any_eq_all_not, Option.not_isNone]

/-! ## Use counts -/

theorem modifyPool_inMemory (abt : MargoAbt) {f : Pool → Pool} {g : PoolSlot → PoolSlot}
    (hg : ∀ p, g (poolSlot p) = poolSlot (f p)) {i : Nat} (hi : i < abt.pools.length) :
    { inMemory abt with pools := (inMemory abt).pools.modify i g } =
      inMemory { abt with pools := abt.pools.modify i f } :=
  congrArg (Arrays.mk · _) (SlotArray.modify_image hg hi)

theorem modifyXstream_inMemory (abt : MargoAbt) {f : Xstream → Xstream}
    {g : XstreamSlot → XstreamSlot} (hg : ∀ x, g (xstreamSlot x) = xstreamSlot (f x)) {i : Nat}
    (hi : i < abt.xstreams.length) :
    { inMemory abt with xstreams := (inMemory abt).xstreams.modify i g } =
      inMemory { abt with xstreams := abt.xstreams.modify i f } :=
  congrArg (Arrays.mk _) (SlotArray.modify_image hg hi)

theorem walkPools_inMemory (hcalls : calls.Grants) {f : Pool → Pool} {g : PoolSlot → PoolSlot}
    (hg : ∀ p, g (poolSlot p) = poolSlot (f p)) (abt : MargoAbt) (hs : List PoolHandle)
    (i : Nat) :
    walkPools calls g (inMemory abt) hs i = Prod.map inMemory id (Abt.walkPools f abt hs) := by
  induction hs generalizing abt i with
  | nil => rfl
  | cons h hs ih =>
      rw [walkPools, Abt.walkPools, findPoolByHandle_inMemory]
      simp only [hcalls.pools i, Bool.not_true, Bool.false_eq_true, if_false]
      cases hfind : Abt.findPoolByHandle abt h with
      | none => rfl
      | some k =>
          obtain ⟨-, p, hp, -⟩ := findPoolByHandle_some hfind
          have hk : k < abt.pools.length := (List.getElem?_eq_some_iff.mp hp).1
          dsimp only
          rw [modifyPool_inMemory abt hg hk]
          exact ih { abt with pools := abt.pools.modify k f } (i + 1)

/-! ## New xstreams -/

/-- How an initializer of xstreams leaves the environment and the slot. -/
def xstreamResult : MargoAbt × Option Xstream → Arrays × XstreamSlot × Bool
  | (abt, none) => (inMemory abt, 0, false)
  | (abt, some x) => (inMemory abt, xstreamSlot x, true)

/-- The lists with a new xstream, if there is one. -/
def withXstream : MargoAbt × Option Xstream → MargoAbt × Bool
  | (abt, none) => (abt, false)
  | (abt, some x) => (Abt.appendXstream abt x, true)

theorem xstreamDestroy_inMemory (hcalls : calls.Grants) (x : XstreamSlot) (abt : MargoAbt) :
    xstreamDestroy calls x (inMemory abt) = (inMemory (Abt.xstreamDestroy x.xstream abt), 0) := by
  obtain ⟨name, xstream, refcount, schedType, margoFreeFlag⟩ := x
  cases xstream with
  | null
  | xstreamNull => rfl
  | obj _ pools =>
      have hwalk : walkPools calls discountUse (inMemory abt) pools 0 =
          Prod.map inMemory id (Abt.walkPools Abt.discountUse abt pools) :=
        walkPools_inMemory hcalls (fun _ => rfl) abt pools 0
      change (if calls.mainSched && calls.numPools then _ else _) = _
      rw [hcalls.mainSched, hcalls.numPools, hwalk]
      rfl

theorem xstreamError_inMemory (henv : env.Grants) (x : XstreamSlot) (abt : MargoAbt) :
    xstreamError env x (inMemory abt) =
      xstreamResult (Abt.xstreamDestroy x.xstream abt, none) := by
  rw [xstreamError, xstreamDestroy_inMemory henv.destroy]
  rfl

theorem countXstream_inMemory (henv : env.Grants) (primary : Bool) (x : Xstream)
    (pools : List PoolHandle) (abt : MargoAbt) :
    countXstream env primary (xstreamSlot x) pools (inMemory abt) =
      xstreamResult (Abt.countXstream primary x pools abt) := by
  rw [countXstream, henv.count.numPools,
    walkPools_inMemory henv.count (f := Abt.countUse primary) (fun _ => rfl), Abt.countXstream]
  obtain ⟨abt', ok⟩ := Abt.walkPools (Abt.countUse primary) abt pools
  cases ok with
  | true => rfl
  | false => exact xstreamError_inMemory henv (xstreamSlot x) abt'

theorem xstreamInitFromJson_inMemory (henv : env.Grants) (jxstream : Json) (abt : MargoAbt) :
    xstreamInitFromJson env jxstream (inMemory abt) 0 =
      .ok (xstreamResult (Abt.xstreamInitFromJson env.toReplies jxstream abt)) := by
  rw [xstreamInitFromJson, xstreamJsonName_inMemory, Abt.xstreamInitFromJson]
  change (if !env.alloc then _ else _) = _
  split
  · exact congrArg Except.ok (xstreamError_inMemory henv _ abt)
  · rw [schedInitFromJson_inMemory]
    cases Abt.schedInitFromJson env.toReplies (jxstream.get "scheduler") abt with
    | none => exact congrArg Except.ok (xstreamError_inMemory henv _ abt)
    | some sched =>
        obtain ⟨type, pools⟩ := sched
        change (if Abt.xstreamJsonName jxstream abt ≠ "__primary__" then _ else _) = _
        dsimp only
        split
        · cases env.xstreamCreate with
          | none => exact congrArg Except.ok (countXstream_inMemory henv false
              ⟨Abt.xstreamJsonName jxstream abt, .xstreamNull, type, 0, true⟩ pools abt)
          | some id => exact congrArg Except.ok (countXstream_inMemory henv false
              ⟨Abt.xstreamJsonName jxstream abt, .obj id pools, type, 0, true⟩ pools abt)
        · cases env.xstreamSelf with
          | none => exact congrArg Except.ok (xstreamError_inMemory henv _ abt)
          | some id =>
              change (if env.setMainSched then _ else _) = _
              dsimp only
              split
              · exact congrArg Except.ok (countXstream_inMemory henv true
                  ⟨Abt.xstreamJsonName jxstream abt, .obj id pools, type, 0, false⟩ pools abt)
              · exact congrArg Except.ok (xstreamError_inMemory henv _ abt)

/-- The result of a call, which without one runs into a null pointer. -/
def orFault {α : Type} : Option α → Mem α
  | some a => .ok a
  | none => .error .nullPointer

theorem xstreamInitExternal_inMemory (henv : env.Grants) (name : Option String)
    (handle : XstreamHandle) (abt : MargoAbt) :
    xstreamInitExternal env name handle (inMemory abt) 0 =
      orFault ((Abt.xstreamInitExternal name handle abt).map xstreamResult) := by
  rw [xstreamInitExternal, xstreamExternalName_inMemory]
  unfold Abt.xstreamInitExternal
  cases handle with
  | null
  | xstreamNull => exact congrArg Except.ok (xstreamError_inMemory henv _ abt)
  | obj id pools =>
      change (if !env.external.mainSched then _ else _) = _
      rw [henv.external.mainSched, schedInitExternal_inMemory henv.external]
      dsimp only
      cases pools.any fun p => (Abt.findPoolByHandle abt p).isNone with
      | true => exact congrArg Except.ok (xstreamError_inMemory henv _ abt)
      | false =>
          cases name with
          | none => rfl
          | some name =>
              exact congrArg Except.ok (countXstream_inMemory henv (name == "__primary__")
                ⟨name, .obj id pools, "external", 0, false⟩ pools abt)

/-- The uses of pools may be counted differently, but nothing else has happened to the
arrays. -/
structure SameRoom (abt abt' : MargoAbt) : Prop where
  pools : abt'.pools.length = abt.pools.length
  poolsCap : abt'.poolsCap = abt.poolsCap
  xstreams : abt'.xstreams = abt.xstreams
  xstreamsCap : abt'.xstreamsCap = abt.xstreamsCap

theorem SameRoom.refl (abt : MargoAbt) : SameRoom abt abt := ⟨rfl, rfl, rfl, rfl⟩

theorem SameRoom.trans {abt'' : MargoAbt} (h : SameRoom abt abt') (h' : SameRoom abt' abt'') :
    SameRoom abt abt'' :=
  ⟨h'.pools.trans h.pools, h'.poolsCap.trans h.poolsCap, h'.xstreams.trans h.xstreams,
    h'.xstreamsCap.trans h.xstreamsCap⟩

theorem SameRoom.fits (h : SameRoom abt abt') (hfits : Fits abt) : Fits abt' := by
  refine ⟨?_, ?_⟩
  · rw [h.pools, h.poolsCap]
    exact hfits.pools
  · rw [h.xstreams, h.xstreamsCap]
    exact hfits.xstreams

theorem walkPools_sameRoom (f : Pool → Pool) (abt : MargoAbt) (hs : List PoolHandle) :
    SameRoom abt (Abt.walkPools f abt hs).1 := by
  induction hs generalizing abt with
  | nil => exact SameRoom.refl abt
  | cons h hs ih =>
      rw [Abt.walkPools]
      split
      · exact SameRoom.refl abt
      · next i _ =>
          have hmodify : SameRoom abt { abt with pools := abt.pools.modify i f } :=
            ⟨List.length_modify f abt.pools i, rfl, rfl, rfl⟩
          exact hmodify.trans (ih _)

theorem xstreamDestroy_sameRoom (x : XstreamHandle) (abt : MargoAbt) :
    SameRoom abt (Abt.xstreamDestroy x abt) := by
  cases x with
  | null
  | xstreamNull => exact SameRoom.refl abt
  | obj id pools => exact walkPools_sameRoom Abt.discountUse abt pools

theorem countXstream_sameRoom (primary : Bool) (x : Xstream) (pools : List PoolHandle)
    (abt : MargoAbt) : SameRoom abt (Abt.countXstream primary x pools abt).1 := by
  have hwalk := walkPools_sameRoom (Abt.countUse primary) abt pools
  rw [Abt.countXstream]
  generalize Abt.walkPools (Abt.countUse primary) abt pools = r at hwalk
  obtain ⟨abt', ok⟩ := r
  cases ok with
  | true => exact hwalk
  | false => exact hwalk.trans (xstreamDestroy_sameRoom x.xstream abt')

theorem xstreamInitFromJson_sameRoom (r : Replies) (jxstream : Json) (abt : MargoAbt) :
    SameRoom abt (Abt.xstreamInitFromJson r jxstream abt).1 := by
  rw [Abt.xstreamInitFromJson]
  dsimp only
  split
  · exact SameRoom.refl abt
  · cases Abt.schedInitFromJson r (jxstream.get "scheduler") abt with
    | none => exact SameRoom.refl abt
    | some sched =>
        dsimp only
        by_cases hname : Abt.xstreamJsonName jxstream abt ≠ "__primary__"
        · rw [if_pos hname]
          exact countXstream_sameRoom _ _ _ abt
        · rw [if_neg hname]
          cases r.xstreamSelf with
          | none => exact SameRoom.refl abt
          | some id =>
              dsimp only
              split
              · exact countXstream_sameRoom _ _ _ abt
              · exact xstreamDestroy_sameRoom (.obj id r.selfPools) abt

theorem xstreamInitExternal_sameRoom {name : Option String} {handle : XstreamHandle}
    {r : MargoAbt × Option Xstream} (h : Abt.xstreamInitExternal name handle abt = some r) :
    SameRoom abt r.1 := by
  unfold Abt.xstreamInitExternal at h
  cases handle with
  | null
  | xstreamNull =>
      obtain rfl := Option.some.inj h
      exact SameRoom.refl abt
  | obj id pools =>
      dsimp only at h
      split at h
      · obtain rfl := Option.some.inj h
        exact xstreamDestroy_sameRoom (.obj id pools) abt
      · obtain ⟨n, -, rfl⟩ := Option.map_eq_some_iff.mp h
        exact countXstream_sameRoom _ _ _ abt

/-- The initializer is handed the zero slot. -/
theorem appendXstream_slot (init : Arrays → XstreamSlot → Mem (Arrays × XstreamSlot × Bool))
    (hroom : abt.xstreams.length < abt.xstreamsCap) :
    appendXstream init (inMemory abt) = do
      let (a, slot, ok) ← init (inMemory abt) 0
      let xstreams := a.xstreams.write a.xstreams.len slot
      if ok then
        return ({ a with xstreams := { xstreams with len := xstreams.len + 1 } }, true)
      else return ({ a with xstreams := xstreams }, false) := by
  have hslot : (inMemory abt).xstreams.slots[abt.xstreams.length]? = some 0 :=
    SlotArray.slots_image_length hroom
  rw [appendXstream, len_xstreams_inMemory, hslot]

/-- An xstream is appended where there is room. -/
theorem appendXstream_inMemory
    {init : Arrays → XstreamSlot → Mem (Arrays × XstreamSlot × Bool)}
    {r : MargoAbt × Option Xstream} (hsame : SameRoom abt r.1)
    (hroom : abt.xstreams.length < abt.xstreamsCap)
    (hinit : init (inMemory abt) 0 = .ok (xstreamResult r)) :
    appendXstream init (inMemory abt) = .ok (Prod.map inMemory id (withXstream r)) := by
  obtain ⟨abt', x⟩ := r
  have hroom' : abt'.xstreams.length < abt'.xstreamsCap := by
    rwa [hsame.xstreams, hsame.xstreamsCap]
  rw [appendXstream_slot init hroom, hinit]
  cases x with
  | none =>
      have hwrite : (inMemory abt').xstreams.write (inMemory abt').xstreams.len 0 =
          (inMemory abt').xstreams := by
        rw [len_xstreams_inMemory]
        exact SlotArray.write_zero_image hroom'
      change Except.ok (({ inMemory abt' with
        xstreams := (inMemory abt').xstreams.write (inMemory abt').xstreams.len 0 } : Arrays),
        false) = _
      rw [hwrite]
      rfl
  | some x =>
      have hwrite : { (inMemory abt').xstreams.write (inMemory abt').xstreams.len (xstreamSlot x)
          with len := (inMemory abt').xstreams.len + 1 } =
          (inMemory (Abt.appendXstream abt' x)).xstreams := by
        rw [len_xstreams_inMemory]
        exact SlotArray.write_image hroom' x
      change Except.ok (({ inMemory abt' with
        xstreams := { (inMemory abt').xstreams.write (inMemory abt').xstreams.len (xstreamSlot x)
          with len := (inMemory abt').xstreams.len + 1 } } : Arrays), true) = _
      rw [hwrite]
      rfl

theorem appendXstream_fault {init : Arrays → XstreamSlot → Mem (Arrays × XstreamSlot × Bool)}
    {fault : Fault} (hroom : abt.xstreams.length < abt.xstreamsCap)
    (hinit : init (inMemory abt) 0 = .error fault) :
    appendXstream init (inMemory abt) = .error fault := by
  rw [appendXstream_slot init hroom, hinit]
  rfl

theorem addXstreamFromJson_inMemory (h : Fits abt) (henv : env.Grants) (config : Json) :
    addXstreamFromJson env config (inMemory abt) =
      .ok (Prod.map inMemory id (Abt.addXstreamFromJson env.toReplies config abt)) := by
  rw [addXstreamFromJson, Abt.addXstreamFromJson, seen_inMemory h, findXstreamByName_inMemory,
    growXstreams_inMemory h]
  cases xstreamValidateJson env.abtInitialized config abt [] with
  | error => rfl
  | ok _ =>
      dsimp only
      split
      · rfl
      · cases hgrow : Abt.growXstreams env.toReplies abt with
        | none => rfl
        | some abt' =>
            dsimp only [Option.map_some]
            rw [appendXstream_inMemory (xstreamInitFromJson_sameRoom env.toReplies config abt')
              (fits_growXstreams h hgrow).2 (xstreamInitFromJson_inMemory henv config abt')]
            obtain ⟨abt'', x⟩ := Abt.xstreamInitFromJson env.toReplies config abt'
            cases x with
            | none => rfl
            | some x => rfl

theorem addExternalXstream_inMemory (h : Fits abt) (henv : env.Grants) (name : Option String)
    (xstream : XstreamHandle) :
    addExternalXstream env name xstream (inMemory abt) =
      orFault ((Abt.addExternalXstream env.toReplies name xstream abt).map
        (Prod.map inMemory id)) := by
  rw [addExternalXstream, Abt.addExternalXstream, findXstreamByName_inMemory,
    findXstreamByHandle_inMemory, growXstreams_inMemory h]
  split
  · rfl
  · split
    · rfl
    · cases hgrow : Abt.growXstreams env.toReplies abt with
      | none => rfl
      | some abt' =>
          have hinit := xstreamInitExternal_inMemory henv name xstream abt'
          have hroom := (fits_growXstreams h hgrow).2
          dsimp only [Option.map_some]
          cases hresult : Abt.xstreamInitExternal name xstream abt' with
          | none =>
              rw [hresult] at hinit
              exact appendXstream_fault hroom hinit
          | some r =>
              rw [hresult] at hinit
              rw [appendXstream_inMemory (xstreamInitExternal_sameRoom hresult) hroom hinit]
              obtain ⟨abt'', x⟩ := r
              cases x with
              | none => rfl
              | some x => rfl

/-! ## Removals -/

theorem removePoolSlot_inMemory (h : Fits abt) {i : Nat} (hi : i < abt.pools.length) :
    { inMemory abt with pools := (inMemory abt).pools.remove i } =
      inMemory { abt with pools := swapRemove abt.pools i } :=
  congrArg (Arrays.mk · _) (SlotArray.remove_image h.pools hi)

theorem removeXstreamSlot_inMemory (h : Fits abt) {i : Nat} (hi : i < abt.xstreams.length) :
    { inMemory abt with xstreams := (inMemory abt).xstreams.remove i } =
      inMemory { abt with xstreams := swapRemove abt.xstreams i } :=
  congrArg (Arrays.mk _) (SlotArray.remove_image h.xstreams hi)

theorem removePool_inMemory (h : Fits abt) (env : Env) (index : Nat) :
    removePool env index (inMemory abt) =
      .ok (Prod.map inMemory id (Abt.removePool env.toReplies index abt)) := by
  rw [removePool, Abt.removePool, len_pools_inMemory]
  by_cases hout : abt.pools.length ≤ index
  · rw [if_pos hout, List.getElem?_eq_none hout]
    rfl
  · have hin : index < abt.pools.length := Nat.lt_of_not_le hout
    rw [if_neg hout, slots_pools_inMemory abt hin, List.getElem?_eq_getElem hin]
    rw [Option.map_some]
    dsimp only
    rw [removePoolSlot_inMemory h hin]
    change (if abt.pools[index].refcount ≠ 0 then _ else _) = _
    split
    · rfl
    · change (if abt.pools[index].numXstreams ≠ 0 then _ else _) = _
      split
      · rfl
      · cases env.totalSize with
        | none => rfl
        | some size =>
            dsimp only
            split <;> rfl

theorem removeXstream_inMemory (h : Fits abt) (henv : env.Grants) (index : Nat) :
    removeXstream env index (inMemory abt) =
      .ok (Prod.map inMemory id (Abt.removeXstream index abt)) := by
  rw [removeXstream, Abt.removeXstream, len_xstreams_inMemory]
  by_cases hout : abt.xstreams.length ≤ index
  · rw [if_pos hout, List.getElem?_eq_none hout]
    rfl
  · have hin : index < abt.xstreams.length := Nat.lt_of_not_le hout
    rw [if_neg hout, slots_xstreams_inMemory abt hin, List.getElem?_eq_getElem hin]
    generalize abt.xstreams[index] = x
    change (if x.name = "__primary__" then _ else _) = _
    dsimp only
    split
    · rfl
    · change (if x.refcount ≠ 0 then _ else _) = _
      split
      · rfl
      · have hsame := xstreamDestroy_sameRoom x.xstream abt
        have hin' : index < (Abt.xstreamDestroy x.xstream abt).xstreams.length := by
          rwa [hsame.xstreams]
        rw [xstreamDestroy_inMemory henv.destroy]
        exact congrArg (fun a => Except.ok (a, HgReturn.success))
          (removeXstreamSlot_inMemory (hsame.fits h) hin')

/-! ## Capacities -/

theorem fits_appendPool (h : Fits abt) (hroom : abt.pools.length < abt.poolsCap) (p : Pool) :
    Fits (Abt.appendPool abt p) := by
  refine ⟨?_, h.xstreams⟩
  change (abt.pools ++ [p]).length ≤ abt.poolsCap
  rw [List.length_append, List.length_singleton]
  omega

theorem fits_appendXstream (h : Fits abt) (hroom : abt.xstreams.length < abt.xstreamsCap)
    (x : Xstream) : Fits (Abt.appendXstream abt x) := by
  refine ⟨h.pools, ?_⟩
  change (abt.xstreams ++ [x]).length ≤ abt.xstreamsCap
  rw [List.length_append, List.length_singleton]
  omega

/-- What an initializer of xstreams leaves fits if there was room for one more. -/
theorem SameRoom.fits_withXstream {r : MargoAbt × Option Xstream} (hsame : SameRoom abt r.1)
    (h : Fits abt) (hroom : abt.xstreams.length < abt.xstreamsCap) : Fits (withXstream r).1 := by
  obtain ⟨abt', x⟩ := r
  cases x with
  | none => exact hsame.fits h
  | some x =>
      refine fits_appendXstream (hsame.fits h) ?_ x
      rw [hsame.xstreams, hsame.xstreamsCap]
      exact hroom

theorem fits_addPoolFromJson (h : Fits abt) (r : Replies) (config : Json) :
    Fits (Abt.addPoolFromJson r config abt).1 := by
  unfold Abt.addPoolFromJson
  split
  · exact h
  · split
    · exact h
    · split
      · exact h
      · next abt' hgrow =>
          obtain ⟨hfits, hroom⟩ := fits_growPools h hgrow
          split
          · exact hfits
          · exact fits_appendPool hfits hroom _

theorem fits_addExternalPool (h : Fits abt) (r : Replies) (name : Option String)
    (pool : PoolHandle) : Fits (Abt.addExternalPool r name pool abt).1 := by
  unfold Abt.addExternalPool
  split
  · exact h
  · split
    · exact h
    · split
      · exact h
      · next abt' hgrow =>
          obtain ⟨hfits, hroom⟩ := fits_growPools h hgrow
          exact fits_appendPool hfits hroom _

theorem fits_addXstreamFromJson (h : Fits abt) (r : Replies) (config : Json) :
    Fits (Abt.addXstreamFromJson r config abt).1 := by
  unfold Abt.addXstreamFromJson
  split
  · exact h
  · split
    · exact h
    · split
      · exact h
      · next abt' hgrow =>
          obtain ⟨hfits, hroom⟩ := fits_growXstreams h hgrow
          have hadd : Fits (withXstream (Abt.xstreamInitFromJson r config abt')).1 :=
            (xstreamInitFromJson_sameRoom r config abt').fits_withXstream hfits hroom
          split
          · next heq =>
              rw [heq] at hadd
              exact hadd
          · next heq =>
              rw [heq] at hadd
              exact hadd

theorem fits_addExternalXstream (h : Fits abt) {r : Replies} {name : Option String}
    {xstream : XstreamHandle} {result : MargoAbt × Bool}
    (hadd : Abt.addExternalXstream r name xstream abt = some result) : Fits result.1 := by
  unfold Abt.addExternalXstream at hadd
  split at hadd
  · obtain rfl := Option.some.inj hadd
    exact h
  · split at hadd
    · obtain rfl := Option.some.inj hadd
      exact h
    · split at hadd
      · obtain rfl := Option.some.inj hadd
        exact h
      · next abt' hgrow =>
          obtain ⟨hfits, hroom⟩ := fits_growXstreams h hgrow
          split at hadd
          · cases hadd
          · next hinit =>
              obtain rfl := Option.some.inj hadd
              exact (xstreamInitExternal_sameRoom hinit).fits hfits
          · next hinit =>
              obtain rfl := Option.some.inj hadd
              exact (xstreamInitExternal_sameRoom hinit).fits_withXstream hfits hroom

theorem fits_removePool (h : Fits abt) (r : Replies) (index : Nat) :
    Fits (Abt.removePool r index abt).1 := by
  rw [removePool_eq]
  split
  · refine ⟨?_, h.xstreams⟩
    have hpools := h.pools
    change (swapRemove abt.pools index).length ≤ abt.poolsCap
    rw [length_swapRemove]
    omega
  · exact h

theorem fits_removeXstream (h : Fits abt) (index : Nat) :
    Fits (Abt.removeXstream index abt).1 := by
  unfold Abt.removeXstream
  split
  · exact h
  · next x _ =>
      split
      · exact h
      · split
        · exact h
        · obtain ⟨hpools, hxstreams⟩ := (xstreamDestroy_sameRoom x.xstream abt).fits h
          refine ⟨hpools, ?_⟩
          change (swapRemove _ index).length ≤ (Abt.xstreamDestroy x.xstream abt).xstreamsCap
          rw [length_swapRemove]
          omega

end

end Margo.Abt.Arrays
