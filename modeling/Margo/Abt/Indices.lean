import Margo.Abt.Calls
import Margo.Lib.Runs

/-!
# Positions of the progress and RPC pools

A parent and its children share one array of pools and each keep two
positions in it. Removing a pool moves the last one into its place, and only
the calling instance's own pools are protected; migrating a progress loop
changes the position before it is known whether the migration succeeds.

## Implementation notes

Next to its positions every instance carries the pools they should designate:
the one its RPCs started with, and for its progress loop the one it started
with or was last migrated to. No function reads them.
-/

namespace Margo.Abt.Indices

open Lib Lib.Runs

/-- An instance and the pools its positions should designate. -/
structure Live where
  mid : Instance
  progress : PoolHandle
  rpc : PoolHandle
  deriving DecidableEq, Repr

/-- An environment and the instances that share it. -/
structure Sharing where
  abt : MargoAbt
  instances : List Live
  deriving DecidableEq, Repr

/-- The same instances after a call on their environment. -/
def Sharing.withAbt (s : Sharing) (abt : MargoAbt) : Sharing := { s with abt := abt }

/-- The same environment after a call on instance number `n`. -/
def Sharing.withLive (s : Sharing) (n : Nat) (l : Live) : Sharing :=
  { s with instances := s.instances.set n l }

/-- The calls that concern pools. -/
inductive Op
  | addPoolFromJson (json : Option Json) (r : Replies)
  | addPoolExternal (name : Option String) (pool : PoolHandle) (takeOwnership : Bool)
      (r : Replies)
  | removePoolByIndex (index : Nat) (r : Replies)
  | removePoolByName (name : Option String) (r : Replies)
  | removePoolByHandle (handle : PoolHandle) (r : Replies)
  | migrateProgressLoop (poolIdx : Nat) (migrated : Bool)

/-- `margo_migrate_progress_loop`, with the result of
`ABT_thread_migrate_to_pool`. -/
def margoMigrateProgressLoop (abt : MargoAbt) (poolIdx : Nat) (migrated : Bool) (l : Live) :
    Live :=
  if abt.pools.length ≤ poolIdx then l
  else if poolIdx = l.mid.progressPoolIdx then { l with progress := poolAt abt poolIdx }
  else
    { l with
      mid := { l.mid with progressPoolIdx := poolIdx }
      progress := if migrated then poolAt abt poolIdx else l.progress }

/-- One call through instance number `a.1`. -/
def step (s : Sharing) (a : Nat × Op) : Option Sharing :=
  match s.instances[a.1]? with
  | none => none
  | some l =>
      match a.2 with
      | .addPoolFromJson json r =>
          ((margoAddPoolFromJson (some l.mid) json).run r s.abt).map s.withAbt
      | .addPoolExternal name pool own r =>
          ((margoAddPoolExternal (some l.mid) name pool own).run r s.abt).map s.withAbt
      | .removePoolByIndex index r =>
          ((margoRemovePoolByIndex (some l.mid) index).run r s.abt).map s.withAbt
      | .removePoolByName name r =>
          ((margoRemovePoolByName (some l.mid) name).run r s.abt).map s.withAbt
      | .removePoolByHandle handle r =>
          ((margoRemovePoolByHandle (some l.mid) handle).run r s.abt).map s.withAbt
      | .migrateProgressLoop poolIdx migrated =>
          some (s.withLive a.1 (margoMigrateProgressLoop s.abt poolIdx migrated l))

/-- The positions are in range and designate the pools they should. -/
def Designates (abt : MargoAbt) (l : Live) : Prop :=
  (l.mid.progressPoolIdx < abt.pools.length ∧ poolAt abt l.mid.progressPoolIdx = l.progress) ∧
  l.mid.rpcPoolIdx < abt.pools.length ∧ poolAt abt l.mid.rpcPoolIdx = l.rpc

/-- Every instance finds its pools. -/
def Stable (s : Sharing) : Prop := ∀ l ∈ s.instances, Designates s.abt l

/-- Removing pool `i` does not move the pool at position `k` or put another one
there. -/
def Untouched (abt : MargoAbt) (i k : Nat) : Prop :=
  k ≠ abt.pools.length - 1 ∧ (k = i → poolAt abt (abt.pools.length - 1) = poolAt abt i)

/-- The removal through this instance takes place. -/
def removes (r : Replies) (mid : Instance) (i : Nat) (abt : MargoAbt) : Bool :=
  poolAt abt i ≠ poolAt abt mid.progressPoolIdx && poolAt abt i ≠ poolAt abt mid.rpcPoolIdx &&
    removable r i abt

instance (abt : MargoAbt) (l : Live) : Decidable (Designates abt l) :=
  inferInstanceAs (Decidable ((_ ∧ _) ∧ _ ∧ _))

instance (s : Sharing) : Decidable (Stable s) :=
  inferInstanceAs (Decidable (∀ l ∈ s.instances, _))

/-- If the removal takes place, it touches no position of any instance. -/
def RemovalKeeps (s : Sharing) (r : Replies) (mid : Instance) (i : Nat) : Prop :=
  removes r mid i s.abt = true → ∀ l ∈ s.instances,
    Untouched s.abt i l.mid.progressPoolIdx ∧ Untouched s.abt i l.mid.rpcPoolIdx

/-- The calls after which every instance still finds its pools. -/
def Keeps (s : Sharing) (a : Nat × Op) : Prop :=
  ∀ l ∈ s.instances[a.1]?,
    match a.2 with
    | .addPoolFromJson _ _ | .addPoolExternal _ _ _ _ => True
    | .removePoolByIndex i r => RemovalKeeps s r l.mid i
    | .removePoolByName name r => ∀ i ∈ findPoolByName s.abt name, RemovalKeeps s r l.mid i
    | .removePoolByHandle handle r =>
        ∀ i ∈ findPoolByHandle s.abt handle, RemovalKeeps s r l.mid i
    | .migrateProgressLoop poolIdx migrated =>
        migrated = false → poolIdx < s.abt.pools.length →
          poolAt s.abt poolIdx = poolAt s.abt l.mid.progressPoolIdx

/-! ## Additions -/

instance (abt : MargoAbt) (i k : Nat) : Decidable (Untouched abt i k) :=
  inferInstanceAs (Decidable (_ ∧ (_ → _)))

instance (s : Sharing) (r : Replies) (mid : Instance) (i : Nat) :
    Decidable (RemovalKeeps s r mid i) :=
  inferInstanceAs (Decidable (_ → ∀ l ∈ s.instances, _))

instance (s : Sharing) : ∀ a, Decidable (Keeps s a)
  | (n, .addPoolFromJson _ _) | (n, .addPoolExternal _ _ _ _) =>
      inferInstanceAs (Decidable (∀ _ ∈ s.instances[n]?, True))
  | (n, .removePoolByIndex i r) =>
      inferInstanceAs (Decidable (∀ l ∈ s.instances[n]?, RemovalKeeps s r l.mid i))
  | (n, .removePoolByName name r) =>
      inferInstanceAs (Decidable (∀ l ∈ s.instances[n]?, ∀ i ∈ findPoolByName s.abt name,
        RemovalKeeps s r l.mid i))
  | (n, .removePoolByHandle handle r) =>
      inferInstanceAs (Decidable (∀ l ∈ s.instances[n]?, ∀ i ∈ findPoolByHandle s.abt handle,
        RemovalKeeps s r l.mid i))
  | (n, .migrateProgressLoop poolIdx migrated) =>
      inferInstanceAs (Decidable (∀ l ∈ s.instances[n]?,
        migrated = false → poolIdx < s.abt.pools.length →
          poolAt s.abt poolIdx = poolAt s.abt l.mid.progressPoolIdx))

theorem poolAt_eq_of_handles {abt abt' : MargoAbt} {hs : List PoolHandle}
    (h : abt'.pools.map (·.pool) = abt.pools.map (·.pool) ++ hs) {k : Nat}
    (hk : k < abt.pools.length) : k < abt'.pools.length ∧ poolAt abt' k = poolAt abt k := by
  have hlen : abt'.pools.length = abt.pools.length + hs.length := by
    simpa using congrArg List.length h
  have hget : (abt'.pools.map (·.pool))[k]? = (abt.pools.map (·.pool))[k]? := by
    rw [h, List.getElem?_append_left (by simpa using hk)]
  simp only [List.getElem?_map] at hget
  exact ⟨by omega, by rw [poolAt, poolAt, hget]⟩

/-- Appending pools moves none. -/
theorem stable_append {s : Sharing} {abt' : MargoAbt} {hs : List PoolHandle} (hst : Stable s)
    (h : abt'.pools.map (·.pool) = s.abt.pools.map (·.pool) ++ hs) :
    Stable (s.withAbt abt') := by
  intro l hl
  obtain ⟨⟨hp, hpe⟩, hr, hre⟩ := hst l hl
  obtain ⟨hp', hpe'⟩ := poolAt_eq_of_handles h hp
  obtain ⟨hr', hre'⟩ := poolAt_eq_of_handles h hr
  exact ⟨⟨hp', hpe'.trans hpe⟩, hr', hre'.trans hre⟩

theorem addPoolFromJson_handles (r : Replies) (j : Json) (abt : MargoAbt) :
    ∃ hs, (addPoolFromJson r j abt).1.pools.map (·.pool) = abt.pools.map (·.pool) ++ hs := by
  rcases addPoolFromJson_cases r j abt with ⟨h, -⟩ | ⟨_, p, -, -, -, -, -, -, h, -⟩
  · exact ⟨[], by simp [h]⟩
  · exact ⟨[p.pool], by simp [h]⟩

theorem addExternalPool_handles (r : Replies) (name : Option String) (pool : PoolHandle)
    (abt : MargoAbt) :
    ∃ hs, (addExternalPool r name pool abt).1.pools.map (·.pool) =
      abt.pools.map (·.pool) ++ hs := by
  rcases addExternalPool_cases r name pool abt with ⟨h, -⟩ | ⟨-, -, -, h, -⟩
  · exact ⟨[], by simp [h]⟩
  · exact ⟨[(poolInitExternal name pool abt).pool], by simp [h]⟩

theorem stable_addPoolFromJson {s s' : Sharing} {l : Live} {json : Option Json} {r : Replies}
    (hs : Stable s)
    (h : ((margoAddPoolFromJson (some l.mid) json).run r s.abt).map s.withAbt = some s') :
    Stable s' := by
  cases json with
  | none =>
      obtain rfl : s.withAbt s.abt = s' := by simpa [Api.run, margoAddPoolFromJson] using h
      exact hs
  | some j =>
      obtain ⟨hs', hh⟩ := addPoolFromJson_handles r j s.abt
      obtain rfl : s.withAbt (addPoolFromJson r j s.abt).1 = s' := by
        simpa [Api.run, margoAddPoolFromJson, unchecked, added_abt] using h
      exact stable_append hs hh

theorem stable_addPoolExternal {s s' : Sharing} {l : Live} {name : Option String}
    {pool : PoolHandle} {own : Bool} {r : Replies} (hs : Stable s)
    (h : ((margoAddPoolExternal (some l.mid) name pool own).run r s.abt).map s.withAbt =
      some s') : Stable s' := by
  obtain ⟨hs', hh⟩ := addExternalPool_handles r name pool s.abt
  simp only [Api.run, margoAddPoolExternal, checked, Option.isSome_some, Bool.and_self, if_true,
    Option.map_some, Option.some.injEq, added_abt] at h
  subst h
  refine stable_append hs (?_ : _ = _ ++ hs')
  split
  · rw [map_modify_of_eq (by intro; rfl), hh]
  · exact hh

/-! ## Removals -/

/-- One position after a removal. -/
theorem poolAt_swapRemove {abt : MargoAbt} {i k : Nat} (hk : k < abt.pools.length) :
    (k < (swapRemove abt.pools i).length ∧
      poolAt { abt with pools := swapRemove abt.pools i } k = poolAt abt k) ↔
    Untouched abt i k := by
  rcases List.eq_nil_or_concat abt.pools with hnil | ⟨init, last, hpools⟩
  · simp [hnil] at hk
  rw [List.concat_eq_append] at hpools
  have hlen : (swapRemove abt.pools i).length = init.length := by
    rw [length_swapRemove, hpools, List.length_append, List.length_singleton,
      Nat.add_sub_cancel]
  have hlast : abt.pools.length - 1 = init.length := by simp [hpools]
  unfold Untouched
  rw [hlen, hlast]
  by_cases hend : k = init.length
  · simp [hend]
  · have hlt : k < init.length := by
      simp only [hpools, List.length_append, List.length_singleton] at hk
      omega
    have hget := getElem?_swapRemove init last i k hlt
    have hold : (init ++ [last])[k]? = init[k]? := List.getElem?_append_left hlt
    simp only [poolAt, hpools, hget, hlt, hend, ne_eq, not_false_eq_true, true_and,
      List.getElem?_concat_length, Option.map_some, Option.getD_some]
    by_cases hik : i = k
    · subst hik
      simp [hold]
    · simp [hik, Ne.symm hik, hold]

/-- A removal through an instance takes place, or does nothing and says so. -/
theorem removePoolAt_cases (r : Replies) (mid : Instance) (i : Nat) (abt : MargoAbt) :
    (removes r mid i abt = true ∧ removePoolAt r mid i abt =
      .plain { abt with pools := swapRemove abt.pools i } .success .nothing) ∨
    (removes r mid i abt = false ∧ (removePoolAt r mid i abt).abt = abt ∧
      (removePoolAt r mid i abt).ret ≠ .success) := by
  unfold removePoolAt removes
  by_cases hrange : abt.pools.length ≤ i
  · have hnot : removable r i abt = false := by
      simp [removable, List.getElem?_eq_none hrange]
    simp [hrange, hnot, Exit.plain]
  · by_cases hp : poolAt abt i = poolAt abt mid.progressPoolIdx
    · simp [hrange, hp, Exit.plain]
    · by_cases hr : poolAt abt i = poolAt abt mid.rpcPoolIdx
      · simp [hrange, hr, Exit.plain]
      · simp only [hrange, hp, hr, if_false, ne_eq, not_false_eq_true, decide_true,
          Bool.true_and]
        obtain ⟨hrem, heq⟩ | ⟨hrem, heq, hret⟩ := removePool_cases r i abt
        · exact Or.inl ⟨hrem, by rw [heq]⟩
        · exact Or.inr ⟨hrem, heq, hret⟩

/-- A removal keeps every position in place exactly if it touches none. -/
theorem stable_removePoolAt {s : Sharing} (hs : Stable s) (r : Replies) (mid : Instance)
    (i : Nat) :
    Stable (s.withAbt (removePoolAt r mid i s.abt).abt) ↔ RemovalKeeps s r mid i := by
  unfold RemovalKeeps
  obtain ⟨hrem, heq⟩ | ⟨hrem, heq, -⟩ := removePoolAt_cases r mid i s.abt
  · rw [heq, hrem]
    simp only [true_implies]
    apply forall₂_congr
    intro l hl
    obtain ⟨⟨hp, hpe⟩, hr, hre⟩ := hs l hl
    rw [← poolAt_swapRemove hp, ← poolAt_swapRemove hr, hpe, hre]
    rfl
  · rw [heq, hrem]
    simp only [Bool.false_eq_true, false_implies, iff_true]
    exact hs

theorem stable_removePoolFound {s s' : Sharing} {l : Live} {find : MargoAbt → Option Nat}
    {r : Replies} (hs : Stable s)
    (h : ((removePoolFound (some l.mid) find).run r s.abt).map s.withAbt = some s') :
    Stable s' ↔ ∀ i ∈ find s.abt, RemovalKeeps s r l.mid i := by
  simp only [Api.run, removePoolFound, checked, Option.isSome_some, Bool.and_self, if_true,
    Option.map_some, Option.some.injEq] at h
  subst h
  cases hfind : find s.abt with
  | none => exact iff_of_true hs (by simp)
  | some i =>
      simp only [Option.mem_some_iff, forall_eq']
      exact stable_removePoolAt hs r l.mid i

/-! ## Migrations -/

theorem designates_migrate {abt : MargoAbt} {l : Live} (hl : Designates abt l) (poolIdx : Nat)
    (migrated : Bool) :
    Designates abt (margoMigrateProgressLoop abt poolIdx migrated l) ↔
    (migrated = false → poolIdx < abt.pools.length →
      poolAt abt poolIdx = poolAt abt l.mid.progressPoolIdx) := by
  obtain ⟨⟨hp, hpe⟩, hr⟩ := hl
  unfold margoMigrateProgressLoop
  by_cases hrange : abt.pools.length ≤ poolIdx
  · have hnot : ¬poolIdx < abt.pools.length := Nat.not_lt.mpr hrange
    simp [hrange, hnot, Designates, hp, hpe, hr]
  · have hlt : poolIdx < abt.pools.length := Nat.lt_of_not_le hrange
    by_cases hsame : poolIdx = l.mid.progressPoolIdx
    · simp [hsame, Designates, hp, hr, Nat.not_le.mpr hp]
    · cases migrated with
      | false => simp [hrange, hsame, Designates, hlt, hpe, hr]
      | true => simp [hrange, hsame, Designates, hlt, hr]

/-- A migration keeps the positions of the other instances, and its own if it
is refused, if it succeeds, or if the pool is the same one. -/
theorem stable_migrate {s : Sharing} (hs : Stable s) {n : Nat} {l : Live}
    (hl : s.instances[n]? = some l) (poolIdx : Nat) (migrated : Bool) :
    Stable (s.withLive n (margoMigrateProgressLoop s.abt poolIdx migrated l)) ↔
    (migrated = false → poolIdx < s.abt.pools.length →
      poolAt s.abt poolIdx = poolAt s.abt l.mid.progressPoolIdx) := by
  rw [← designates_migrate (hs l (List.mem_of_getElem? hl))]
  obtain ⟨hn, -⟩ := List.getElem?_eq_some_iff.mp hl
  constructor
  · intro h
    exact h _ (List.mem_set hn _)
  · intro h l' hl'
    rcases List.mem_or_eq_of_mem_set hl' with hmem | rfl
    · exact hs l' hmem
    · exact h

/-! ## Runs -/

/-- What one call does to the positions: they all still designate their pools
exactly if the call is one that keeps them. -/
theorem stable_step {s s' : Sharing} {a : Nat × Op} (hs : Stable s) (h : step s a = some s') :
    Stable s' ↔ Keeps s a := by
  obtain ⟨n, op⟩ := a
  unfold step at h
  cases hl : s.instances[n]? with
  | none => simp [hl] at h
  | some l =>
      simp only [hl] at h
      unfold Keeps
      simp only [hl, Option.mem_some_iff, forall_eq']
      cases op with
      | addPoolFromJson json r =>
          refine iff_of_true ?_ trivial
          exact stable_addPoolFromJson hs h
      | addPoolExternal name pool own r =>
          refine iff_of_true ?_ trivial
          exact stable_addPoolExternal hs h
      | removePoolByIndex index r =>
          obtain rfl : s.withAbt (removePoolAt r l.mid index s.abt).abt = s' := by
            simpa [Api.run, margoRemovePoolByIndex, checked] using h
          exact stable_removePoolAt hs r l.mid index
      | removePoolByName name r => exact stable_removePoolFound hs h
      | removePoolByHandle handle r => exact stable_removePoolFound hs h
      | migrateProgressLoop poolIdx migrated =>
          obtain rfl := Option.some.inj h
          exact stable_migrate hs hl poolIdx migrated

/-- Stability of the progress and RPC pools: in every sequence of calls through
the instances that share an environment, every position stays in range and
designates its pool after every call exactly when no call removes or moves a
pool that some instance designates and no failing migration goes to another
pool. -/
theorem pools_stay_designated {s₀ : Sharing} (h₀ : Stable s₀) (as : List (Nat × Op))
    (s : Sharing) :
    Run step (fun _ _ s' => Stable s') s₀ as s ↔ Run step (fun s a _ => Keeps s a) s₀ as s :=
  Run.invariant_iff stable_step h₀

/-- An unused pool. -/
def idlePool (name : String) (id : Nat) : Pool :=
  ⟨name, .obj id, "fifo_wait", some "mpmc", 0, 0, true, false⟩

/-- A parent on the pools 0 and 1 and a child on the pools 0 and 2. -/
def family : Sharing where
  abt := ⟨[idlePool "__primary__" 0, idlePool "a" 1, idlePool "b" 2], 6, [], 1⟩
  instances := [⟨⟨0, 1⟩, .obj 0, .obj 1⟩, ⟨⟨0, 2⟩, .obj 0, .obj 2⟩]

/-- The parent adds a pool and migrates its progress loop, and the child removes
the pool that was added. -/
theorem pools_stay_designated_add_remove :
    Run step (fun _ _ s => Stable s) family
      [(0, .addPoolExternal (some "c") (.obj 3) false (granted 4)),
        (0, .migrateProgressLoop 1 true),
        (1, .removePoolByName (some "c") (granted 5))]
      (family.withLive 0 ⟨⟨1, 1⟩, .obj 1, .obj 1⟩) :=
  (pools_stay_designated (by decide) _ _).mpr (run_of_exec (by decide))

/-- An instance removes a pool it does not use, and its own RPC pool is not
where it was any more. -/
theorem removal_displaces_rpc_pool :
    ¬∀ (s₀ : Sharing) (as : List (Nat × Op)) (s : Sharing),
      Stable s₀ → Run step Any s₀ as s → Stable s := by
  intro hall
  let s₀ : Sharing := { family with instances := [⟨⟨0, 2⟩, .obj 0, .obj 2⟩] }
  let s : Sharing := s₀.withAbt
    ⟨[idlePool "__primary__" 0, idlePool "b" 2], 6, [], 1⟩
  have hrun : Run step Any s₀ [(0, .removePoolByIndex 1 (granted 3))] s :=
    run_of_exec (by decide)
  exact absurd (hall s₀ _ s (by decide) hrun) (by decide)

end Margo.Abt.Indices
