import Margo.Abt.Description
import Margo.Abt.Indices
import Margo.Init.Resolution

/-!
# Instances that a configuration can describe

An instance that `margo_init_ext` creates from an accepted configuration, without
external pools and in a process without Argobots, has an environment that can be
described, is led by its primary pool, and has its progress and RPC pools in it.

## Implementation notes

Argobots may refuse any call. That the pools it creates have new handles is
assumed of all the calls of one initialization together.
-/

namespace Margo.Init

open Lib Lib.Runs Abt Abt.Names Abt.Initialization Abt.Description

/-- What Argobots promises during `margo_init_ext`: pools that it creates have
new handles. -/
structure FreshExt (r : ExtReplies) : Prop where
  init : FreshPools r.init
  progressPool : ∀ k id, (r.init.pool k).poolCreate = some id →
    r.resolve.progressPool.poolCreate ≠ some id
  rpcPool : ∀ k id, (r.init.pool k).poolCreate = some id →
    r.resolve.rpcPool.poolCreate ≠ some id
  rpcProgress : ∀ id, r.resolve.progressPool.poolCreate = some id →
    r.resolve.rpcPool.poolCreate ≠ some id

/-- The environment has only grown, but for counts and flags. -/
structure Extends (abt abt' : MargoAbt) : Prop where
  pools : ∃ more, abt'.pools.map poolFace = abt.pools.map poolFace ++ more
  xstreams : ∃ more, abt'.xstreams = abt.xstreams ++ more

section

variable {abt abt' abt'' : MargoAbt}

theorem Extends.refl (abt : MargoAbt) : Extends abt abt := ⟨⟨[], by simp⟩, ⟨[], by simp⟩⟩

theorem Extends.trans (h : Extends abt abt') (h' : Extends abt' abt'') : Extends abt abt'' := by
  obtain ⟨⟨ps, hps⟩, ⟨xs, hxs⟩⟩ := h
  obtain ⟨⟨ps', hps'⟩, ⟨xs', hxs'⟩⟩ := h'
  exact ⟨⟨ps ++ ps', by rw [hps', hps, List.append_assoc]⟩,
    ⟨xs ++ xs', by rw [hxs', hxs, List.append_assoc]⟩⟩

theorem Extends.length_le (h : Extends abt abt') : abt.pools.length ≤ abt'.pools.length := by
  obtain ⟨more, hpools⟩ := h.pools
  have hlen := congrArg List.length hpools
  simp only [List.length_map, List.length_append] at hlen
  omega

/-- The first pool of the primary xstream stays. -/
theorem Extends.led (h : Extends abt abt') (hl : Led abt) : Led abt' := by
  obtain ⟨x, hx, hname, p, hp, hpname, id, rest, hpool⟩ := hl
  obtain ⟨⟨ps, hps⟩, ⟨xs, hxs⟩⟩ := h
  have hmem : poolFace p ∈ abt'.pools.map poolFace := by
    rw [hps]
    exact List.mem_append_left _ (List.mem_map_of_mem hp)
  obtain ⟨q, hq, hface⟩ := List.mem_map.mp hmem
  simp only [poolFace, Prod.mk.injEq] at hface
  refine ⟨x, ?_, hname, q, hq, hface.1.trans hpname, id, rest, ?_⟩
  · rw [hxs]
    exact List.mem_append_left _ hx
  · rw [hpool, hface.2.1]

/-! ## Additions -/

variable {r : Replies}

theorem describable_addPoolFromJson (hd : Describable abt) {j : Json}
    (h : addPoolFromJson r j abt = (abt', true))
    (hnew : ∀ id, r.poolCreate = some id → .obj id ∉ abt.pools.map (·.pool)) :
    Describable abt' ∧ Extends abt abt' ∧
      ∃ id, r.poolCreate = some id ∧
        abt'.pools.map (·.pool) = abt.pools.map (·.pool) ++ [.obj id] := by
  unfold Abt.addPoolFromJson at h
  split at h
  · cases h
  next hv =>
  split at h
  · cases h
  split at h
  · cases h
  next abt₁ hgrow =>
  obtain ⟨hpools, hxs⟩ := growPools_eq hgrow
  split at h
  · cases h
  next p hp =>
  obtain rfl := (Prod.mk.inj h).1
  obtain ⟨id, hid, hpool, -, -, -⟩ := poolInitFromJson_eq hp
  have hd₁ : Describable abt₁ := hd.congr (by rw [hpools]) (by rw [hxs])
  refine ⟨hd₁.addPool hp (poolJsonFits_of_valid hv) ?_, ⟨⟨[poolFace p], ?_⟩, ⟨[], ?_⟩⟩, id, hid, ?_⟩
  · rw [hpool, hpools]
    exact hnew id hid
  · simp [appendPool, hpools]
  · simp [appendPool, hxs]
  · simp [appendPool, hpools, hpool]

theorem describable_addXstreamFromJson (hd : Describable abt) {j : Json}
    (h : addXstreamFromJson r j abt = (abt', true)) :
    Describable abt' ∧ Extends abt abt' ∧ abt'.pools.map poolFace = abt.pools.map poolFace := by
  unfold Abt.addXstreamFromJson at h
  split at h
  · cases h
  next hv =>
  split at h
  · cases h
  split at h
  · cases h
  next abt₁ hgrow =>
  obtain ⟨hpools, hxs⟩ := growXstreams_eq hgrow
  split at h
  · cases h
  next abt₂ x hinit =>
  obtain rfl := (Prod.mk.inj h).1
  obtain ⟨hstatic, hxs₂, -⟩ := xstreamInitFromJson_entries hinit
  have hd₁ : Describable abt₁ := hd.congr (by rw [hpools]) (by rw [hxs])
  have hface : abt₂.pools.map poolFace = abt.pools.map poolFace := by
    rw [poolFace_of_static hstatic, hpools]
  refine ⟨hd₁.addXstream hinit (xstreamJsonFits_of_valid hv), ⟨⟨[], ?_⟩, ⟨[x], ?_⟩⟩, hface⟩
  · rw [List.append_nil]
    exact hface
  · rw [appendXstream, hxs₂, hxs]

theorem describable_addXstreams {rs : Nat → Replies} {j : Json} {n : Nat} (hd : Describable abt)
    (h : addXstreams rs j n abt = (abt', true)) :
    Describable abt' ∧ Extends abt abt' ∧ abt'.pools.map poolFace = abt.pools.map poolFace := by
  induction n generalizing abt with
  | zero =>
      obtain rfl := (Prod.mk.inj h).1
      exact ⟨hd, .refl abt, rfl⟩
  | succ n ih =>
      simp only [Init.addXstreams] at h
      split at h
      · next abt₁ hadd =>
          obtain ⟨hd₁, hext₁, hface₁⟩ := describable_addXstreamFromJson hd hadd
          obtain ⟨hd', hext, hface⟩ := ih hd₁ h
          exact ⟨hd', hext₁.trans hext, hface.trans hface₁⟩
      · cases (Prod.mk.inj h).2

/-- A pool with its xstreams is described, if its handle is new. -/
theorem describable_createServedPool {rs : Nat → Replies} {n : Nat} {k : Int}
    (hd : Describable abt) (h : createServedPool r rs n abt = (abt', some k))
    (hnew : ∀ id, r.poolCreate = some id → .obj id ∉ abt.pools.map (·.pool)) :
    Describable abt' ∧ Extends abt abt' ∧
      ∃ id, r.poolCreate = some id ∧
        abt'.pools.map (·.pool) = abt.pools.map (·.pool) ++ [.obj id] := by
  unfold Init.createServedPool at h
  split at h
  · cases (Prod.mk.inj h).2
  next abt₁ hadd =>
  simp only at h
  split at h
  · next abt₂ hxs =>
      obtain rfl := (Prod.mk.inj h).1
      obtain ⟨hd₁, hext₁, id, hid, hhandles⟩ := describable_addPoolFromJson hd hadd hnew
      obtain ⟨hd', hext, hface⟩ := describable_addXstreams hd₁ hxs
      exact ⟨hd', hext₁.trans hext, id, hid, (handles_of_face hface).trans hhandles⟩
  · cases (Prod.mk.inj h).2

/-! ## Resolution -/

variable {rr : ResolveReplies} {info : InitInfo} {config : Json}

/-- Without a pool that was passed, the progress pool is a registered one or is
created. -/
theorem resolveProgressPool_cases {primary : Nat} {k : Int}
    (hgiven : given info.progressPool = false)
    (h : resolveProgressPool rr info config primary abt = (abt', some k)) :
    abt' = abt ∨ Init.createServedPool rr.progressPool rr.progressXstream 1 abt =
      (abt', some k) := by
  unfold resolveProgressPool at h
  split_ifs at h
  · exact Or.inl (Prod.mk.inj h).1.symm
  · next htrue => exact absurd htrue (by simp [hgiven])
  · exact Or.inl (Prod.mk.inj h).1.symm
  · exact Or.inr h
  · exact Or.inl (Prod.mk.inj h).1.symm

/-- The same for the RPC pool. -/
theorem resolveRpcPool_cases {primary : Nat} {primaryPool : PoolHandle} {progress k : Int}
    (hgiven : given info.rpcPool = false)
    (h : resolveRpcPool rr info config primary primaryPool progress abt = (abt', some k)) :
    abt' = abt ∨ ∃ n, Init.createServedPool rr.rpcPool rr.rpcXstream n abt = (abt', some k) := by
  unfold resolveRpcPool at h
  split_ifs at h
  · exact Or.inl (Prod.mk.inj h).1.symm
  · exact Or.inl (Prod.mk.inj h).1.symm
  · next htrue => exact absurd htrue (by simp [hgiven])
  · exact Or.inl (Prod.mk.inj h).1.symm
  · exact Or.inl (Prod.mk.inj h).1.symm
  · exact Or.inr ⟨_, h⟩
  · exact Or.inl (Prod.mk.inj h).1.symm

end

/-- No pools are passed to `margo_init_ext`. -/
structure NoneGiven (info : InitInfo) : Prop where
  progressPool : given info.progressPool = false
  rpcPool : given info.rpcPool = false

section

variable {r : ExtReplies} {info : InitInfo} {config : Json} {abt abt' : MargoAbt}

/-- The handles of pools that an initialization has created so far. -/
def Created (r : ExtReplies) (hs : List PoolHandle) : Prop :=
  ∀ h ∈ hs, ∃ id, h = .obj id ∧ ((∃ k, (r.init.pool k).poolCreate = some id) ∨
    r.resolve.progressPool.poolCreate = some id)

theorem describable_progress {primary : Nat} {k : Int} (hr : FreshExt r)
    (hf : Founded r.init abt) (hnone : NoneGiven info)
    (h : resolveProgressPool r.resolve info config primary abt = (abt', some k)) :
    Describable abt' ∧ Extends abt abt' ∧ Created r (abt'.pools.map (·.pool)) := by
  have hcreated : Created r (abt.pools.map (·.pool)) := by
    intro handle hmem
    obtain ⟨i, hi⟩ := List.mem_iff_getElem?.mp hmem
    obtain ⟨id, hid, heq⟩ := hf.numbered i handle hi
    exact ⟨id, heq, Or.inl ⟨i, hid⟩⟩
  obtain rfl | hserved := resolveProgressPool_cases hnone.progressPool h
  · exact ⟨hf.describable, .refl abt', hcreated⟩
  · have hnew : ∀ id, r.resolve.progressPool.poolCreate = some id →
        .obj id ∉ abt.pools.map (·.pool) := by
      intro id hid hmem
      obtain ⟨i, hi⟩ := List.mem_iff_getElem?.mp hmem
      obtain ⟨id', hid', heq⟩ := hf.numbered i _ hi
      obtain rfl := PoolHandle.obj.inj heq
      exact hr.progressPool i id hid' hid
    obtain ⟨hd, hext, id, hid, hhandles⟩ := describable_createServedPool hf.describable hserved hnew
    refine ⟨hd, hext, ?_⟩
    rw [hhandles]
    intro handle hmem
    rcases List.mem_append.mp hmem with hmem | hmem
    · exact hcreated handle hmem
    · exact ⟨id, List.mem_singleton.mp hmem, Or.inr hid⟩

theorem describable_rpc {primary : Nat} {primaryPool : PoolHandle} {progress k : Int}
    (hr : FreshExt r) (hd : Describable abt) (hnone : NoneGiven info)
    (hcreated : Created r (abt.pools.map (·.pool)))
    (h : resolveRpcPool r.resolve info config primary primaryPool progress abt =
      (abt', some k)) : Describable abt' ∧ Extends abt abt' := by
  obtain rfl | ⟨n, hserved⟩ := resolveRpcPool_cases hnone.rpcPool h
  · exact ⟨hd, .refl abt'⟩
  · have hnew : ∀ id, r.resolve.rpcPool.poolCreate = some id →
        .obj id ∉ abt.pools.map (·.pool) := by
      intro id hid hmem
      obtain ⟨id', heq, hmade⟩ := hcreated _ hmem
      obtain rfl := PoolHandle.obj.inj heq
      obtain ⟨i, hi⟩ | hprogress := hmade
      · exact hr.rpcPool i id hi hid
      · exact hr.rpcProgress id hprogress hid
    obtain ⟨hd', hext, -⟩ := describable_createServedPool hd hserved hnew
    exact ⟨hd', hext⟩

end

/-- An instance that was created from an accepted configuration can be described,
and its pools are registered. -/
theorem initExt_describable {r : ExtReplies} {info : InitInfo} {config : Json} {abt : MargoAbt}
    {p q : Nat} (hr : FreshExt r) (hinit : r.init.abtInitialized = false) (hnone : NoneGiven info)
    (hv : abtValidateJson r.init.abtInitialized (config.get "argobots") = .ok ())
    (h : initExt r info config = some (abt, p, q)) (hfew : abt.pools.length < 2 ^ 31) :
    Describable abt ∧ Led abt ∧ p < abt.pools.length ∧ q < abt.pools.length := by
  unfold initExt at h
  split at h
  · cases h
  next abt₀ habt₀ =>
  split at h
  swap
  · cases h
  next abt₂ progress rpc hresolve =>
  obtain ⟨rfl, rfl, rfl⟩ : abt₂ = abt ∧ progress = p ∧ rpc = q := by simpa using h
  unfold resolvePools at hresolve
  split at hresolve
  · cases (Prod.mk.inj hresolve).2
  next primary hprimary =>
  simp only at hresolve
  split at hresolve
  · cases (Prod.mk.inj hresolve).2
  next abt₁ k₁ hprogress =>
  split at hresolve
  · cases (Prod.mk.inj hresolve).2
  next abt₃ k₂ hrpc =>
  split at hresolve
  swap
  · cases (Prod.mk.inj hresolve).2
  next hrange =>
  obtain ⟨rfl, hpq⟩ := Prod.mk.inj hresolve
  simp only [Option.some.injEq, Prod.mk.injEq] at hpq
  simp only [inRange, Bool.and_eq_true, decide_eq_true_eq] at hrange
  obtain ⟨hf, hled⟩ := abtInitFromJson_founded hr.init hinit hv habt₀
  obtain ⟨hd₁, hext₁, hknown⟩ := describable_progress hr hf hnone hprogress
  obtain ⟨hd₂, hext₂⟩ := describable_rpc hr hd₁ hnone hknown hrpc
  have hext := hext₁.trans hext₂
  have hlen := hext.length_le
  exact ⟨hd₂, hext.led (hled (by omega) _ hprimary), by omega, by omega⟩

/-! ## Later states -/

/-- A later state of an instance to which no pool or xstream was added, and from
which none was removed. Counts and flags may have changed, and the progress loop
may have been migrated to another pool. -/
structure Later (abt : MargoAbt) (rpc : Nat) (abt' : MargoAbt) (mid : Abt.Instance) : Prop where
  pools : abt'.pools.map poolFace = abt.pools.map poolFace
  xstreams : abt'.xstreams.map xstreamFace = abt.xstreams.map xstreamFace
  progressPool : mid.progressPoolIdx < abt.pools.length
  rpcPool : mid.rpcPoolIdx = rpc

section

variable {abt abt' : MargoAbt} {rpc : Nat} {mid : Abt.Instance}

theorem Later.length (h : Later abt rpc abt' mid) : abt'.pools.length = abt.pools.length := by
  simpa using congrArg List.length h.pools

/-- Counting references to a pool leads to a later state. -/
theorem Later.poolUpdate (h : Later abt rpc abt' mid) (f : Nat → Nat) (i : Nat) :
    Later abt rpc (poolTable.update f i abt') mid where
  pools := (map_modify_of_eq (by intro; rfl) abt'.pools i).trans h.pools
  xstreams := h.xstreams
  progressPool := h.progressPool
  rpcPool := h.rpcPool

/-- The same for an xstream. -/
theorem Later.xstreamUpdate (h : Later abt rpc abt' mid) (f : Nat → Nat) (i : Nat) :
    Later abt rpc (xstreamTable.update f i abt') mid where
  pools := h.pools
  xstreams := (map_modify_of_eq (by intro; rfl) abt'.xstreams i).trans h.xstreams
  progressPool := h.progressPool
  rpcPool := h.rpcPool

/-- Migrating the progress loop leads to a later state. -/
theorem Later.migrate {l : Indices.Live} (h : Later abt rpc abt' l.mid) (poolIdx : Nat)
    (migrated : Bool) :
    Later abt rpc abt' (Indices.margoMigrateProgressLoop abt' poolIdx migrated l).mid := by
  have hlen := h.length
  unfold Indices.margoMigrateProgressLoop
  split
  · exact h
  next hrange =>
  split
  · exact h
  · refine ⟨h.pools, h.xstreams, ?_, h.rpcPool⟩
    change poolIdx < abt.pools.length
    omega

/-- At most one reference count has changed. -/
theorem Later.counts {abt'' : MargoAbt} (h : Later abt rpc abt' mid)
    (hcounts : poolTable.Counts abt' abt'' ∨ xstreamTable.Counts abt' abt'') :
    Later abt rpc abt'' mid := by
  obtain (rfl | ⟨f, i, rfl⟩) | rfl | ⟨f, i, rfl⟩ := hcounts
  · exact h
  · exact h.poolUpdate f i
  · exact h
  · exact h.xstreamUpdate f i

/-- What happens to an instance: a call about pools or xstreams, through it or through
another one that shares its environment, or a migration of its progress loop. -/
inductive Event
  | call (c : Call) (r : Replies)
  | migrateProgressLoop (poolIdx : Nat) (migrated : Bool)

/-- An event, with the environment and the instance. -/
def eventStep (s : MargoAbt × Indices.Live) : Event → Option (MargoAbt × Indices.Live)
  | .call c r => (callStep s.1 (c, r)).map (·, s.2)
  | .migrateProgressLoop poolIdx migrated =>
      some (s.1, Indices.margoMigrateProgressLoop s.1 poolIdx migrated s.2)

/-- Nothing is added and nothing is removed. -/
def Event.Keeps : Event → Prop
  | .call c _ => c.about = true
  | .migrateProgressLoop _ _ => True

theorem later_step {s s' : MargoAbt × Indices.Live} {e : Event} (h : Later abt rpc s.1 s.2.mid)
    (he : e.Keeps) (hstep : eventStep s e = some s') : Later abt rpc s'.1 s'.2.mid := by
  cases e with
  | call c r =>
      obtain ⟨abt', hcall, rfl⟩ := Option.map_eq_some_iff.mp hstep
      exact h.counts (Call.counts he hcall)
  | migrateProgressLoop poolIdx migrated =>
      obtain rfl := Option.some.inj hstep
      exact h.migrate poolIdx migrated

/-- What such events lead to is a later state. -/
theorem later_run {l : Indices.Live} {s : MargoAbt × Indices.Live} {es : List Event}
    (hprogress : l.mid.progressPoolIdx < abt.pools.length)
    (hrun : Run eventStep (fun _ e _ => e.Keeps) (abt, l) es s) :
    Later abt l.mid.rpcPoolIdx s.1 s.2.mid := by
  have hstart : Later abt l.mid.rpcPoolIdx (abt, l).1 (abt, l).2.mid := ⟨rfl, rfl, hprogress, rfl⟩
  refine hrun.invariant (P := fun s => Later abt l.mid.rpcPoolIdx s.1 s.2.mid) ?_ hstart
  intro s e s' h he hstep
  exact later_step h he hstep

theorem Later.describable (h : Later abt rpc abt' mid) (hd : Describable abt) :
    Describable abt' :=
  hd.congr h.pools h.xstreams

theorem Later.led (h : Later abt rpc abt' mid) (hl : Led abt) : Led abt' := by
  obtain ⟨x, hx, hname, p, hp, hpname, id, rest, hobj⟩ := hl
  have hxmem : xstreamFace x ∈ abt'.xstreams.map xstreamFace :=
    h.xstreams.symm ▸ List.mem_map_of_mem hx
  have hpmem : poolFace p ∈ abt'.pools.map poolFace := h.pools.symm ▸ List.mem_map_of_mem hp
  obtain ⟨y, hy, hyface⟩ := List.mem_map.mp hxmem
  obtain ⟨q, hq, hqface⟩ := List.mem_map.mp hpmem
  simp only [xstreamFace, poolFace, Prod.mk.injEq] at hyface hqface
  refine ⟨y, hy, hyface.1.trans hname, q, hq, hqface.1.trans hpname, id, rest, ?_⟩
  rw [hyface.2.1, hqface.2.1]
  exact hobj

/-- An instance that was created from an accepted configuration can be described for as
long as nothing is added or removed. -/
theorem initExt_run_describable {r : ExtReplies} {info : InitInfo} {config : Json}
    {l : Indices.Live} {s : MargoAbt × Indices.Live} {es : List Event} (hr : FreshExt r)
    (hinit : r.init.abtInitialized = false) (hnone : NoneGiven info)
    (hv : abtValidateJson r.init.abtInitialized (config.get "argobots") = .ok ())
    (h : initExt r info config = some (abt, l.mid.progressPoolIdx, l.mid.rpcPoolIdx))
    (hfew : abt.pools.length < 2 ^ 31)
    (hrun : Run eventStep (fun _ e _ => e.Keeps) (abt, l) es s) :
    Describable s.1 ∧ Led s.1 ∧ s.2.mid.progressPoolIdx < s.1.pools.length ∧
      s.2.mid.rpcPoolIdx < s.1.pools.length := by
  obtain ⟨hd, hled, hprogress, hrpc⟩ := initExt_describable hr hinit hnone hv h hfew
  have hlater := later_run hprogress hrun
  refine ⟨hlater.describable hd, hlater.led hled, ?_, ?_⟩
  · rw [hlater.length]
    exact hlater.progressPool
  · rw [hlater.length, hlater.rpcPool]
    exact hrpc

end

end Margo.Init
