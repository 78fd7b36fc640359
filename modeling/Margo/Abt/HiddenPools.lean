import Margo.Abt.Emission

/-!
# References to pools when external pools are hidden

With `MARGO_CONFIG_HIDE_EXTERNAL` the external pools are left out of the array
of pools, while references to pools remain positions in the array of the
instance. They are positions in the shown array only as long as no external
pool comes before the pool they refer to.

## Implementation notes

The shown array is described by the positions that its entries have in the
instance, so that pools with equal entries are told apart.
-/

namespace Margo.Abt.HiddenPools

/-- External pools and xstreams are hidden, pools are shown by position. -/
def hidden : ConfigOptions := ⟨true, false⟩

/-- The slot holds a pool that is not external. -/
def Internal (abt : MargoAbt) (i : Nat) : Prop :=
  ∃ p, abt.pools[i]? = some p ∧ p.kind ≠ "external"

/-- The positions of the pools that are shown. -/
def shownPools (abt : MargoAbt) : List Nat :=
  (abt.pools.zipIdx.filter fun e => !hidden.skips e.1.kind).map Prod.snd

/-- Every reference to a pool in a reported configuration: those of the
schedulers, `progress_pool` and `rpc_pool`. -/
def references (config : Json) : List Json :=
  (((config.get "argobots").get "xstreams").items.flatMap fun jxstream =>
      ((jxstream.get "scheduler").get "pools").items) ++
    [config.get "progress_pool", config.get "rpc_pool"]

/-- The reference is the position of a pool of the instance, and the entry at
this position of the shown array is the one of that pool. -/
def Valid (abt : MargoAbt) (config ref : Json) : Prop :=
  ∃ (i : Nat) (p : Pool), ref = .int i ∧ abt.pools[i]? = some p ∧
    ((config.get "argobots").get "pools").items[i]? = some (poolToJson p) ∧
    (shownPools abt)[i]? = some i

/-- The pools that are referred to: the progress and the RPC pool, and the
internal pools of the xstreams that are shown. -/
def Referred (mid : Instance) (abt : MargoAbt) (i : Nat) : Prop :=
  i = mid.progressPoolIdx ∨ i = mid.rpcPoolIdx ∨
    Internal abt i ∧ ∃ x ∈ abt.xstreams, x.schedType ≠ "external" ∧
      ∃ id pools, x.xstream = .obj id pools ∧ ∃ pool ∈ pools, findPoolByHandle abt pool = some i

/-! ## Positions in a filtered list -/

/-- Position `i` of a filtered range is `i` exactly if nothing before it is
left out. -/
theorem getElem?_filter_range {p : Nat → Bool} {n i : Nat} (hi : i < n) (hp : p i = true) :
    ((List.range n).filter p)[i]? = some i ↔ ∀ k < i, p k = true := by
  have hrange : List.range n = List.range i ++ i :: List.range' (i + 1) (n - i - 1) := by
    obtain ⟨m, rfl⟩ : ∃ m, n = i + (m + 1) := ⟨n - i - 1, by omega⟩
    have hsplit := List.range'_append_1 (s := 0) (m := i) (n := m + 1)
    rw [Nat.zero_add, List.range'_succ, ← List.range_eq_range', ← List.range_eq_range'] at hsplit
    rw [← hsplit]
    congr 3
    omega
  have hat : ((List.range n).filter p)[((List.range i).filter p).length]? = some i := by
    rw [hrange, List.filter_append, List.filter_cons_of_pos hp]
    simp
  constructor
  · intro h
    have hlen : i = ((List.range i).filter p).length :=
      (List.getElem?_inj (List.getElem?_eq_some_iff.mp h).1 (List.nodup_range.filter p)).mp
        (h.trans hat.symm)
    have hall := List.length_filter_eq_length_iff.mp
      (hlen.symm.trans (List.length_range (n := i)).symm)
    intro k hk
    exact hall k (List.mem_range.mpr hk)
  · intro h
    have hall : (List.range i).filter p = List.range i :=
      List.filter_eq_self.mpr fun k hk => h k (List.mem_range.mp hk)
    rwa [hall, List.length_range] at hat

section

variable {abt : MargoAbt} {mid : Instance}

theorem internal_iff {i : Nat} :
    Internal abt i ↔ (abt.pools[i]?.any fun p => !hidden.skips p.kind) = true := by
  simp [Internal, Option.any_eq_true, ConfigOptions.skips, hidden]

theorem Internal.lt {i : Nat} (h : Internal abt i) : i < abt.pools.length := by
  obtain ⟨p, hp, -⟩ := h
  exact (List.getElem?_eq_some_iff.mp hp).1

/-- The entry at a position of the shown array is that of the pool it was shown
for. -/
theorem getElem?_shown (info : AbtInfo) {k i : Nat} (h : (shownPools abt)[k]? = some i) :
    ((abtToJson hidden info abt).get "pools").items[k]? = abt.pools[i]?.map poolToJson := by
  have hitems : ((abtToJson hidden info abt).get "pools").items =
      (abt.pools.zipIdx.filter fun e => !hidden.skips e.1.kind).map fun e => poolToJson e.1 := by
    rw [items_pools]
    conv_lhs => rw [← List.zipIdx_map_fst 0 abt.pools]
    rw [List.filter_map, List.map_map]
    rfl
  rw [shownPools, List.getElem?_map, Option.map_eq_some_iff] at h
  obtain ⟨e, he, rfl⟩ := h
  have hmem := List.mem_of_mem_filter (List.mem_of_getElem? he)
  rw [hitems, List.getElem?_map, he, List.mem_zipIdx_iff_getElem?.mp hmem]
  rfl

theorem shownPools_eq :
    shownPools abt = (List.range abt.pools.length).filter fun i =>
      abt.pools[i]?.any fun p => !hidden.skips p.kind := by
  have hrange : List.range abt.pools.length = abt.pools.zipIdx.map Prod.snd := by
    rw [List.zipIdx_map_snd, List.range_eq_range']
  rw [shownPools, hrange, List.filter_map]
  congr 1
  apply List.filter_congr
  intro e he
  simp [List.mem_zipIdx_iff_getElem?.mp he]

/-- A reference to an internal pool is valid exactly if no external pool comes
before it. -/
theorem valid_iff (info : InstanceInfo) {i : Nat} (hi : Internal abt i) :
    Valid abt (margoGetConfigOpt hidden info mid abt) (.int i) ↔ ∀ k < i, Internal abt k := by
  have hvalid : Valid abt (margoGetConfigOpt hidden info mid abt) (.int i) ↔
      (shownPools abt)[i]? = some i := by
    constructor
    · rintro ⟨k, p, hk, -, -, hshown⟩
      obtain rfl : i = k := Int.natCast_inj.mp (Json.int.inj hk)
      exact hshown
    · intro hshown
      obtain ⟨p, hp, -⟩ := hi
      refine ⟨i, p, rfl, hp, ?_, hshown⟩
      rw [get_argobots, getElem?_shown info.abt hshown, hp]
      rfl
  rw [hvalid, shownPools_eq, getElem?_filter_range hi.lt (internal_iff.mp hi)]
  exact forall₂_congr fun _ _ => internal_iff.symm

/-- The references of a scheduler are those to its internal pools. -/
theorem schedPoolToJson_eq_some {pool : PoolHandle} {ref : Json} :
    schedPoolToJson hidden abt pool = some ref ↔
      ∃ i, findPoolByHandle abt pool = some i ∧ Internal abt i ∧ ref = .int i := by
  unfold schedPoolToJson
  cases hfind : findPoolByHandle abt pool with
  | none => simp
  | some i =>
      obtain ⟨p, hp, -⟩ := getElem?_of_findPoolByHandle hfind
      by_cases hkind : p.kind = "external"
      · simp [hp, Internal, ConfigOptions.skips, hidden, hkind]
      · have hint : Internal abt i := ⟨p, hp, hkind⟩
        simp only [hp, ConfigOptions.skips, hidden, Bool.true_and, beq_iff_eq, hkind, if_false,
          Bool.false_eq_true, Option.some.injEq, exists_eq_left', hint, true_and]
        exact eq_comm

/-- The references of a configuration are the positions of the pools referred
to. -/
theorem mem_references (info : InstanceInfo) {ref : Json} :
    ref ∈ references (margoGetConfigOpt hidden info mid abt) ↔
      ∃ i, Referred mid abt i ∧ ref = .int i := by
  have hsched : ref ∈ (((abtToJson hidden info.abt abt).get "xstreams").items.flatMap
      fun jxstream => ((jxstream.get "scheduler").get "pools").items) ↔
      ∃ i, (Internal abt i ∧ ∃ x ∈ abt.xstreams, x.schedType ≠ "external" ∧
        ∃ id pools, x.xstream = .obj id pools ∧
          ∃ pool ∈ pools, findPoolByHandle abt pool = some i) ∧ ref = .int i := by
    simp only [items_xstreams, List.mem_flatMap, List.mem_map, List.mem_filter]
    constructor
    · rintro ⟨j, ⟨⟨x, k⟩, ⟨hmem, hshown⟩, rfl⟩, href⟩
      rw [shownPools_xstreamToJson] at href
      have hx := List.mem_of_getElem? (List.mem_zipIdx_iff_getElem?.mp hmem)
      cases hobj : x.xstream with
      | obj id pools =>
          rw [hobj, List.mem_filterMap] at href
          obtain ⟨pool, hpool, heq⟩ := href
          obtain ⟨i, hfind, hint, rfl⟩ := schedPoolToJson_eq_some.mp heq
          refine ⟨i, ⟨hint, x, hx, ?_, id, pools, hobj, pool, hpool, hfind⟩, rfl⟩
          simpa [ConfigOptions.skips, hidden] using hshown
      | _ =>
          rw [hobj] at href
          exact absurd href List.not_mem_nil
    · rintro ⟨i, ⟨hint, x, hx, hext, id, pools, hobj, pool, hpool, hfind⟩, rfl⟩
      obtain ⟨k, hk⟩ := List.mem_iff_getElem?.mp hx
      refine ⟨_, ⟨(x, k), ⟨List.mem_zipIdx_iff_getElem?.mpr hk, ?_⟩, rfl⟩, ?_⟩
      · simpa [ConfigOptions.skips, hidden] using hext
      · rw [shownPools_xstreamToJson, hobj, List.mem_filterMap]
        exact ⟨pool, hpool, schedPoolToJson_eq_some.mpr ⟨i, hfind, hint, rfl⟩⟩
  rw [references, get_argobots, get_progressPool, get_rpcPool, List.mem_append, hsched]
  simp only [poolFieldToJson, hidden, Bool.false_eq_true, if_false, List.mem_cons,
    List.not_mem_nil, or_false, Referred]
  constructor
  · rintro (⟨i, h, rfl⟩ | rfl | rfl)
    · exact ⟨i, Or.inr (Or.inr h), rfl⟩
    · exact ⟨_, Or.inl rfl, rfl⟩
    · exact ⟨_, Or.inr (Or.inl rfl), rfl⟩
  · rintro ⟨i, rfl | rfl | h, rfl⟩
    · exact Or.inr (Or.inl rfl)
    · exact Or.inr (Or.inr rfl)
    · exact Or.inl ⟨i, h, rfl⟩

/-- With external pools hidden, every reference of the reported configuration is
the position in the shown array of the pool it refers to exactly if no external
pool comes before a pool that is referred to. -/
theorem hidden_references_iff (info : InstanceInfo) (hprogress : Internal abt mid.progressPoolIdx)
    (hrpc : Internal abt mid.rpcPoolIdx) :
    (∀ ref ∈ references (margoGetConfigOpt hidden info mid abt),
      Valid abt (margoGetConfigOpt hidden info mid abt) ref) ↔
      ∀ i, Referred mid abt i → ∀ k < i, Internal abt k := by
  have hinternal : ∀ i, Referred mid abt i → Internal abt i := by
    rintro i (rfl | rfl | h)
    · exact hprogress
    · exact hrpc
    · exact h.1
  constructor
  · intro h i hi
    exact (valid_iff info (hinternal i hi)).mp (h _ ((mem_references info).mpr ⟨i, hi, rfl⟩))
  · intro h ref href
    obtain ⟨i, hi, rfl⟩ := (mem_references info).mp href
    exact (valid_iff info (hinternal i hi)).mpr (h i hi)

end

/-- Nothing to report but the pools. -/
def bareInfo : InstanceInfo where
  abt := ⟨fun _ => none, fun _ => none, none, none, ".", false⟩
  version := ""
  mercury := .object []
  monitoring := none
  plumber := none
  progressTimeoutUb := 100
  progressSpindownMsec := 10
  handleCacheSize := 256
  abtProfilingEnabled := false

/-- A pool of the kind, with an xstream of its own. -/
def pool (id : Nat) (name kind : String) : Pool :=
  ⟨name, .obj id, kind, none, 0, 1, true, false⟩

def xstream (id : Nat) (name : String) : Xstream := ⟨name, .obj id [.obj id], "basic_wait", 0, true⟩

/-- The primary pool, then one more. -/
def twoPools (second : Pool) (rest : List Pool) (xstreams : List Xstream) : MargoAbt :=
  ⟨pool 0 "__primary__" "fifo_wait" :: second :: rest, 4, xstream 0 "__primary__" :: xstreams, 2⟩

/-- An external pool at the end is no obstacle. -/
theorem hidden_references_last :
    shownPools (twoPools (pool 1 "e" "external") [] []) = [0] ∧
    ∀ ref ∈ references (margoGetConfigOpt hidden bareInfo
      ⟨0, 0⟩ (twoPools (pool 1 "e" "external") [] [])),
      Valid (twoPools (pool 1 "e" "external") [] [])
        (margoGetConfigOpt hidden bareInfo ⟨0, 0⟩ (twoPools (pool 1 "e" "external") [] []))
        ref := by
  let mid : Instance := ⟨0, 0⟩
  have hprimary : Internal (twoPools (pool 1 "e" "external") [] []) mid.progressPoolIdx :=
    ⟨_, rfl, by decide⟩
  refine ⟨by decide, (hidden_references_iff bareInfo hprimary hprimary).mpr ?_⟩
  rintro i (rfl | rfl | ⟨-, x, hx, -, id, pools, hobj, p, hp, hfind⟩) k hk
  · exact absurd hk (Nat.not_lt_zero k)
  · exact absurd hk (Nat.not_lt_zero k)
  · obtain rfl := List.mem_singleton.mp hx
    obtain ⟨rfl, rfl⟩ := XstreamHandle.obj.inj hobj
    obtain rfl := List.mem_singleton.mp hp
    obtain rfl : 0 = i := Option.some.inj hfind
    exact absurd hk (Nat.not_lt_zero k)

/-- An external pool is registered between two internal ones: the reference of
the second xstream is past the end of the shown array. -/
theorem reference_shifted :
    ¬∀ (info : InstanceInfo) (mid : Instance) (abt : MargoAbt),
      Internal abt mid.progressPoolIdx → Internal abt mid.rpcPoolIdx →
      ∀ ref ∈ references (margoGetConfigOpt hidden info mid abt),
        Valid abt (margoGetConfigOpt hidden info mid abt) ref := by
  intro hall
  let abt := twoPools (pool 1 "e" "external") [pool 2 "p" "fifo_wait"] [xstream 2 "x"]
  have hprimary : Internal abt 0 := ⟨_, rfl, by decide⟩
  have href : Json.int 2 ∈ references (margoGetConfigOpt hidden bareInfo ⟨0, 0⟩ abt) :=
    List.mem_cons_of_mem _ List.mem_cons_self
  obtain ⟨i, -, hi, -, -, hshown⟩ := hall bareInfo ⟨0, 0⟩ abt hprimary hprimary _ href
  obtain rfl : 2 = i := Int.natCast_inj.mp (Json.int.inj hi)
  exact absurd hshown (by decide)

end Margo.Abt.HiddenPools
