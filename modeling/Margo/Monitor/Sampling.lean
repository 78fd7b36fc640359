import Margo.Abt.Indices
import Margo.Monitor.Series

/-!
# The monitors of the instances that share an environment

Every instance has its own default monitor with its own arrays of time series,
while the array of pools is shared. An addition announces itself, before it is
known whether it succeeds, to the monitor of the instance it is made through; a
removal tells the same monitor when it has succeeded.

## Implementation notes

Additions and removals are those of the public functions. The sizes that
Argobots reports for the pools are an argument of a sample.
-/

namespace Margo.Monitor

open Lib Lib.Runs Abt Abt.Indices

/-- Which of its two arrays of series a monitor uses. -/
inductive Measure
  | size
  | totalSize
  deriving DecidableEq, Repr

/-- An instance and the arrays of its monitor. -/
structure Member where
  mid : Instance
  size : Track
  totalSize : Track
  deriving DecidableEq, Repr

/-- An environment and the instances that share it. -/
structure Group where
  abt : MargoAbt
  members : List Member
  deriving DecidableEq, Repr

/-- The number of pools. -/
abbrev Group.numPools (s : Group) : Nat := s.abt.pools.length

/-- A change of the environment and of the arrays. -/
def Group.update (s : Group) (abt : MargoAbt) (f : Nat → Measure → Track → Track) : Group where
  abt := abt
  members := s.members.mapIdx fun j m =>
    ⟨m.mid, f j .size m.size, f j .totalSize m.totalSize⟩

/-- A condition on every array, with the number of its instance. -/
def Group.Each (s : Group) (Q : Nat → Measure → Track → Prop) : Prop :=
  ∀ j < s.members.length, ∀ m ∈ s.members[j]?, Q j .size m.size ∧ Q j .totalSize m.totalSize

instance (s : Group) (Q : Nat → Measure → Track → Prop) [∀ j k t, Decidable (Q j k t)] :
    Decidable (s.Each Q) :=
  inferInstanceAs (Decidable (∀ j < s.members.length, _))

/-- Every array of every monitor has an entry for every pool, with the samples
taken of it. -/
def Group.Follows (s : Group) : Prop := s.Each fun _ _ t => t.Follows s.numPools

instance (s : Group) : Decidable s.Follows := inferInstanceAs (Decidable (s.Each _))

/-- A pool to remove. -/
inductive Target
  | index (i : Nat)
  | named (name : Option String)
  | handle (handle : PoolHandle)

/-- The position of the pool to remove. -/
def Target.find (abt : MargoAbt) : Target → Option Nat
  | .index i => some i
  | .named n => findPoolByName abt n
  | .handle h => findPoolByHandle abt h

/-- The calls and events that concern pools and their time series. -/
inductive Op
  | addPoolFromJson (json : Option Json) (r : Replies)
  | addPoolExternal (name : Option String) (pool : PoolHandle) (takeOwnership : Bool)
      (r : Replies)
  /-- `margo_remove_pool_by_index`, `_by_name` and `_by_handle`. -/
  | removePool (target : Target) (r : Replies)
  /-- `update_pool_time_series`, with the sizes and total sizes that could be read. -/
  | sample (timestamp : Nat) (reads : List (Option (Nat × Nat)))
  /-- `pool_time_series_to_json` with a reset. -/
  | reset

/-- An addition through instance number `k`. -/
def addPool (k : Nat) (api : Api) (r : Replies) (s : Group) : Option Group :=
  match api.enter with
  | .locks =>
      (api.body r s.abt).map fun e =>
        s.update e.abt fun j _ t =>
          let t := if j = k then onAddPool s.numPools t else t
          if e.ret = .success then poolAdded t else t
  | .returns _ => some s
  | .crashes => none

/-- A removal through instance number `k`. -/
def removePoolFrom (k : Nat) (mid : Instance) (target : Target) (r : Replies) (s : Group) :
    Group :=
  match target.find s.abt with
  | none => s
  | some i =>
      let e := removePoolAt r mid i s.abt
      if e.ret = .success then
        s.update e.abt fun j _ t =>
          poolRemoved i (if j = k then onRemovePool e.abt.pools.length i t else t)
      else { s with abt := e.abt }

/-- The value that a sample adds to the series of pool `i`. -/
def sampled (timestamp : Nat) (reads : List (Option (Nat × Nat))) (measure : Measure) (i : Nat) :
    Option Timedval :=
  reads[i]?.join.map fun v =>
    match measure with
    | .size => ⟨timestamp, v.1⟩
    | .totalSize => ⟨timestamp, v.2⟩

/-- One call or event at instance number `a.1`. -/
def step (s : Group) (a : Nat × Op) : Option Group :=
  match s.members[a.1]? with
  | none => none
  | some m =>
      match a.2 with
      | .addPoolFromJson json r => addPool a.1 (margoAddPoolFromJson (some m.mid) json) r s
      | .addPoolExternal name pool own r =>
          addPool a.1 (margoAddPoolExternal (some m.mid) name pool own) r s
      | .removePool target r => some (removePoolFrom a.1 m.mid target r s)
      | .sample timestamp reads =>
          some (s.update s.abt fun j measure t =>
            if j = a.1 then updatePools s.numPools (sampled timestamp reads measure) t else t)
      | .reset =>
          some (s.update s.abt fun j _ t => if j = a.1 then resetPools s.numPools t else t)

/-- The instances with the arrays their monitors have allocated. -/
def initial (abt : MargoAbt) (mids : List Instance) : Group where
  abt := abt
  members := mids.map fun mid =>
    ⟨mid, initialTrack abt.pools.length, initialTrack abt.pools.length⟩

/-- The addition succeeds. -/
def succeeds (api : Api) (r : Replies) (abt : MargoAbt) : Bool :=
  api.enter = .locks && (api.body r abt).any (·.ret = .success)

/-- A successful addition finds a pool whose capacity it can copy, and in the
arrays of every other monitor an empty entry behind those in use. -/
def AdditionKeeps (s : Group) (k : Nat) (api : Api) (r : Replies) : Prop :=
  succeeds api r s.abt = true →
    s.Each fun j _ t => if j = k then s.numPools ≠ 0 else t.Vacant s.numPools

/-- A removal of pool `i`: in the monitor that hears of it the pools behind have
the same samples, in every other one the last pool has those of the one
removed. -/
def RemovalKeeps (s : Group) (k : Nat) (mid : Instance) (r : Replies) (i : Nat) : Prop :=
  removes r mid i s.abt = true →
    s.Each fun j _ t =>
      if j = k then t.AlikeAfter (s.numPools - 1) i
      else i < s.numPools - 1 → t.samples[i]? = t.samples[s.numPools - 1]?

/-- The calls and events after which the arrays still follow the pools. -/
def Keeps (s : Group) (a : Nat × Op) : Prop :=
  ∀ m ∈ s.members[a.1]?,
    match a.2 with
    | .addPoolFromJson json r => AdditionKeeps s a.1 (margoAddPoolFromJson (some m.mid) json) r
    | .addPoolExternal name pool own r =>
        AdditionKeeps s a.1 (margoAddPoolExternal (some m.mid) name pool own) r
    | .removePool target r => ∀ i ∈ target.find s.abt, RemovalKeeps s a.1 m.mid r i
    | .sample timestamp reads =>
        s.Each fun j measure t =>
          j = a.1 → t.HasRoom s.numPools (sampled timestamp reads measure)
    | .reset => True

/-! ## Arrays of all monitors -/

section

variable {s : Group}

theorem each_update {Q : Nat → Measure → Track → Prop} (abt : MargoAbt)
    (f : Nat → Measure → Track → Track) :
    (s.update abt f).Each Q ↔ s.Each fun j measure t => Q j measure (f j measure t) := by
  unfold Group.Each Group.update
  simp

theorem Group.Each.imp {P Q : Nat → Measure → Track → Prop} (h : s.Each P)
    (himp : ∀ j measure t, P j measure t → Q j measure t) : s.Each Q := by
  intro j hj m hm
  obtain ⟨hsize, htotal⟩ := h j hj m hm
  exact ⟨himp j _ _ hsize, himp j _ _ htotal⟩

theorem Group.Each.and {P Q : Nat → Measure → Track → Prop} (hp : s.Each P) (hq : s.Each Q) :
    s.Each fun j measure t => P j measure t ∧ Q j measure t := by
  intro j hj m hm
  obtain ⟨hsize, htotal⟩ := hp j hj m hm
  obtain ⟨hsize', htotal'⟩ := hq j hj m hm
  exact ⟨⟨hsize, hsize'⟩, htotal, htotal'⟩

/-- Two conditions that agree on the arrays at hand. -/
theorem Group.Each.congr {P Q R : Nat → Measure → Track → Prop} (h : s.Each R)
    (hiff : ∀ j measure t, R j measure t → (P j measure t ↔ Q j measure t)) :
    s.Each P ↔ s.Each Q := by
  constructor
  · intro hp
    apply (h.and hp).imp
    rintro j measure t ⟨hr, hp⟩
    exact (hiff j measure t hr).mp hp
  · intro hq
    apply (h.and hq).imp
    rintro j measure t ⟨hr, hq⟩
    exact (hiff j measure t hr).mpr hq

/-- There is a list of samples for each pool, and no series has lost a frame. -/
def Group.Sound (s : Group) : Prop := s.Each fun _ _ t => t.Sound s.numPools

/-! ## One step -/

/-- An addition that succeeds makes the array of pools one longer, and one that
fails leaves its length. -/
def Adds (api : Api) : Prop :=
  ∀ {r abt e}, api.body r abt = some e →
    e.abt.pools.length = abt.pools.length + if e.ret = .success then 1 else 0

theorem toNat_added_ret (table : Table) (last : MargoAbt → Nat) (x : MargoAbt × Bool) :
    (if (added table last x).ret = .success then 1 else 0) = x.2.toNat := by
  obtain ⟨abt, ok⟩ := x
  cases ok <;> rfl

theorem adds_fromJson (mid : Option Instance) (json : Option Json) :
    Adds (margoAddPoolFromJson mid json) := by
  intro r abt e he
  obtain rfl := Option.some.inj he
  rw [added_abt, toNat_added_ret]
  exact length_addPoolFromJson r (json.getD .null) abt

theorem adds_external (mid : Option Instance) (name : Option String) (pool : PoolHandle)
    (own : Bool) : Adds (margoAddPoolExternal mid name pool own) := by
  intro r abt e he
  simp only [margoAddPoolExternal, Option.some.injEq] at he
  subst he
  rw [added_abt, toNat_added_ret]
  have hlen := length_addExternalPool r name pool abt
  -- Setting the flag of the new pool keeps the length.
  cases hok : (addExternalPool r name pool abt).2 with
  | false => simpa [hok] using hlen
  | true => simpa [hok] using hlen

/-- Where a pool is removed there was one. -/
theorem numPools_of_removes {r : Replies} {mid : Instance} {i : Nat} {abt : MargoAbt}
    (h : removes r mid i abt = true) : ∃ n, abt.pools.length = n + 1 := by
  have hremovable : removable r i abt = true := by
    simp only [removes, Bool.and_eq_true] at h
    exact h.2
  obtain ⟨p, hp⟩ := removable_getElem? hremovable
  have hlt := (List.getElem?_eq_some_iff.mp hp).1
  exact ⟨abt.pools.length - 1, by omega⟩

theorem addPool_cases {k : Nat} {api : Api} {r : Replies} {s' : Group}
    (h : addPool k api r s = some s') :
    (succeeds api r s.abt = false ∧ s' = s) ∨
    ∃ e, api.body r s.abt = some e ∧ succeeds api r s.abt = decide (e.ret = .success) ∧
      s' = s.update e.abt fun j _ t =>
        let t := if j = k then onAddPool s.numPools t else t
        if e.ret = .success then poolAdded t else t := by
  unfold addPool at h
  cases henter : api.enter with
  | locks =>
      rw [henter] at h
      obtain ⟨e, he, rfl⟩ := Option.map_eq_some_iff.mp h
      exact Or.inr ⟨e, he, by simp [succeeds, henter, he], rfl⟩
  | returns ret =>
      rw [henter] at h
      exact Or.inl ⟨by simp [succeeds, henter], (Option.some.inj h).symm⟩
  | crashes =>
      rw [henter] at h
      cases h

theorem addPool_follows {k : Nat} {api : Api} {r : Replies} {s' : Group} (hadds : Adds api)
    (hs : s.Sound) (hf : s.Follows) (h : addPool k api r s = some s') :
    s'.Follows ↔ AdditionKeeps s k api r := by
  obtain ⟨hfails, rfl⟩ | ⟨e, he, hsucceeds, rfl⟩ := addPool_cases h
  · simp [AdditionKeeps, hfails, hf]
  · unfold Group.Follows AdditionKeeps
    rw [each_update, Group.numPools, Group.update, hadds he, hsucceeds]
    by_cases hret : e.ret = .success
    · simp only [hret, if_true, decide_true, true_implies]
      apply (hs.and hf).congr
      rintro j measure t ⟨hsound, hfollows⟩
      by_cases hj : j = k
      · simp only [hj, if_true]
        exact follows_added hsound.1 hfollows
      · simp only [hj, if_false]
        exact follows_poolAdded hsound.1 hfollows
    · simp only [hret, if_false, decide_false, Bool.false_eq_true, false_implies, iff_true]
      apply hf.imp
      intro j measure t hfollows
      by_cases hj : j = k
      · simp only [hj, if_true]
        exact follows_onAddPool hfollows
      · simp only [hj, if_false]
        exact hfollows

theorem addPool_sound {k : Nat} {api : Api} {r : Replies} {s' : Group} (hadds : Adds api)
    (hs : s.Sound) (hkeeps : AdditionKeeps s k api r) (h : addPool k api r s = some s') :
    s'.Sound := by
  obtain ⟨hfails, rfl⟩ | ⟨e, he, hsucceeds, rfl⟩ := addPool_cases h
  · exact hs
  · unfold Group.Sound
    rw [each_update, Group.numPools, Group.update, hadds he]
    by_cases hret : e.ret = .success
    · simp only [hret, if_true]
      have hvacant := hkeeps (by simp [hsucceeds, hret])
      apply (hs.and hvacant).imp
      rintro j measure t ⟨hsound, hv⟩
      by_cases hj : j = k
      · simp only [hj, if_true]
        exact sound_added hsound
      · simp only [hj, if_false] at hv ⊢
        exact sound_poolAdded hsound hv
    · simp only [hret, if_false]
      apply hs.imp
      intro j measure t hsound
      by_cases hj : j = k
      · simp only [hj, if_true]
        exact sound_onAddPool hsound
      · simp only [hj, if_false]
        exact hsound

theorem removePoolFrom_cases (k : Nat) (mid : Instance) (target : Target) (r : Replies) :
    (removePoolFrom k mid target r s = s ∧
      ∀ i ∈ target.find s.abt, removes r mid i s.abt = false) ∨
    ∃ i, target.find s.abt = some i ∧ removes r mid i s.abt = true ∧
      removePoolFrom k mid target r s =
        s.update { s.abt with pools := swapRemove s.abt.pools i } fun j _ t =>
          poolRemoved i (if j = k then onRemovePool (s.numPools - 1) i t else t) := by
  unfold removePoolFrom
  cases hfind : target.find s.abt with
  | none => exact Or.inl ⟨rfl, by simp⟩
  | some i =>
      obtain ⟨hremoves, heq⟩ | ⟨hremoves, habt, hret⟩ := removePoolAt_cases r mid i s.abt
      · refine Or.inr ⟨i, rfl, hremoves, ?_⟩
        simp only [heq, Exit.plain, if_true, length_swapRemove]
      · refine Or.inl ⟨?_, by simpa using hremoves⟩
        simp only [hret, habt]
        simp

theorem removePoolFrom_follows (k : Nat) (mid : Instance) (target : Target) (r : Replies)
    (hs : s.Sound) (hf : s.Follows) :
    (removePoolFrom k mid target r s).Follows ↔
      ∀ i ∈ target.find s.abt, RemovalKeeps s k mid r i := by
  obtain ⟨heq, hnone⟩ | ⟨i, hfind, hremoves, heq⟩ := removePoolFrom_cases (s := s) k mid target r
  · rw [heq]
    refine iff_of_true hf ?_
    intro i hi hremoves
    simp [hnone i hi] at hremoves
  · obtain ⟨n, hn⟩ := numPools_of_removes hremoves
    unfold Group.Follows RemovalKeeps Group.Sound at *
    rw [heq, each_update]
    simp only [hfind, Option.mem_some_iff, forall_eq', hremoves, true_implies, Group.numPools,
      Group.update, length_swapRemove] at *
    rw [hn, Nat.add_sub_cancel]
    rw [hn] at hs hf
    apply (hs.and hf).congr
    rintro j measure t ⟨hsound, hfollows⟩
    by_cases hj : j = k
    · simp only [hj, if_true]
      exact follows_removed hsound.1 hfollows i
    · simp only [hj, if_false]
      exact follows_poolRemoved hsound.1 hfollows i

theorem removePoolFrom_sound (k : Nat) (mid : Instance) (target : Target) (r : Replies)
    (hs : s.Sound) : (removePoolFrom k mid target r s).Sound := by
  obtain ⟨heq, -⟩ | ⟨i, hfind, hremoves, heq⟩ := removePoolFrom_cases (s := s) k mid target r
  · rw [heq]
    exact hs
  · obtain ⟨n, hn⟩ := numPools_of_removes hremoves
    unfold Group.Sound at *
    rw [heq, each_update]
    simp only [Group.numPools, Group.update, length_swapRemove] at *
    rw [hn, Nat.add_sub_cancel]
    rw [hn] at hs
    apply hs.imp
    intro j measure t hsound
    by_cases hj : j = k
    · simp only [hj, if_true]
      exact sound_removed hsound i
    · simp only [hj, if_false]
      exact sound_poolRemoved hsound i

/-- A change of the arrays of instance number `k` only. -/
theorem each_update_own {Q : Track → Prop} (hs : s.Each fun _ _ t => Q t) (k : Nat)
    (f : Measure → Track → Track) :
    ((s.update s.abt fun j measure t => if j = k then f measure t else t).Each fun _ _ t => Q t) ↔
      s.Each fun j measure t => j = k → Q (f measure t) := by
  rw [each_update]
  apply hs.congr
  intro j measure t hq
  by_cases hj : j = k
  · simp [hj]
  · simp [hj, hq]

/-- Every array follows the pools after a step exactly if the step is one that
keeps them. -/
theorem step_follows {s' : Group} {a : Nat × Op} (hs : s.Sound) (hf : s.Follows)
    (h : step s a = some s') : s'.Follows ↔ Keeps s a := by
  obtain ⟨k, op⟩ := a
  unfold step at h
  cases hm : s.members[k]? with
  | none => simp [hm] at h
  | some m =>
      simp only [hm] at h
      unfold Keeps
      simp only [hm, Option.mem_some_iff, forall_eq']
      cases op with
      | addPoolFromJson json r => exact addPool_follows (adds_fromJson _ _) hs hf h
      | addPoolExternal name pool own r =>
          exact addPool_follows (adds_external _ _ _ _) hs hf h
      | removePool target r =>
          obtain rfl := Option.some.inj h
          exact removePoolFrom_follows k m.mid target r hs hf
      | sample timestamp reads =>
          obtain rfl := Option.some.inj h
          unfold Group.Follows
          rw [show (s.update s.abt _).numPools = s.numPools from rfl, each_update_own hf]
          apply (hs.and hf).congr
          rintro j measure t ⟨hsound, hfollows⟩
          apply imp_congr_right
          intro _
          exact follows_updatePools hsound hfollows _
      | reset =>
          obtain rfl := Option.some.inj h
          refine iff_of_true ?_ trivial
          unfold Group.Follows
          rw [show (s.update s.abt _).numPools = s.numPools from rfl, each_update_own hf]
          apply hf.imp
          intro j measure t hfollows _
          exact follows_resetPools hfollows

theorem step_sound {s' : Group} {a : Nat × Op} (hs : s.Sound) (hkeeps : Keeps s a)
    (h : step s a = some s') : s'.Sound := by
  obtain ⟨k, op⟩ := a
  unfold step at h
  cases hm : s.members[k]? with
  | none => simp [hm] at h
  | some m =>
      simp only [hm] at h
      have hkeeps := hkeeps m hm
      cases op with
      | addPoolFromJson json r => exact addPool_sound (adds_fromJson _ _) hs hkeeps h
      | addPoolExternal name pool own r =>
          exact addPool_sound (adds_external _ _ _ _) hs hkeeps h
      | removePool target r =>
          obtain rfl := Option.some.inj h
          exact removePoolFrom_sound k m.mid target r hs
      | sample timestamp reads =>
          obtain rfl := Option.some.inj h
          unfold Group.Sound
          rw [show (s.update s.abt _).numPools = s.numPools from rfl, each_update_own hs]
          apply (hs.and hkeeps).imp
          rintro j measure t ⟨hsound, hroom⟩ hj
          exact sound_updatePools hsound (hroom hj)
      | reset =>
          obtain rfl := Option.some.inj h
          unfold Group.Sound
          rw [show (s.update s.abt _).numPools = s.numPools from rfl, each_update_own hs]
          apply hs.imp
          intro j measure t hsound _
          exact sound_resetPools hsound

end

/-! ## Runs -/

theorem follows_initialTrack (n : Nat) : (initialTrack n).Follows n := by
  intro i hi
  have hslot : (initialTrack n).slot i = some ⟨256, .empty⟩ := by
    simp [Track.slot, initialTrack, hi]
  rw [entry_iff hslot]
  simp [initialTrack, hi, TimeSeries.values]

theorem sound_initialTrack (n : Nat) : (initialTrack n).Sound n := by
  refine ⟨by simp [initialTrack], ?_⟩
  intro i hi s hs
  obtain rfl : (⟨256, .empty⟩ : TimeSeries) = s := by
    simpa [Track.slot, initialTrack, hi] using hs
  rfl

theorem each_initial (abt : MargoAbt) (mids : List Instance) {Q : Track → Prop}
    (h : Q (initialTrack abt.pools.length)) : (initial abt mids).Each fun _ _ t => Q t := by
  intro j _ m hm
  obtain ⟨_, -, rfl⟩ : ∃ mid, mids[j]? = some mid ∧ _ = m := by
    simpa [initial] using hm
  exact ⟨h, h⟩

/-- The time series follow the pools: whatever the instances that share an
environment add, remove, sample and reset, every array of every monitor has an
entry with the samples of each pool after every step exactly when no successful
addition lacks an empty entry in another monitor, no removal displaces samples,
and no sample needs a second frame. -/
theorem series_follow_pools (abt : MargoAbt) (mids : List Instance) (as : List (Nat × Op))
    (s : Group) :
    Run step (fun _ _ s' => s'.Follows) (initial abt mids) as s ↔
      Run step (fun s a _ => Keeps s a) (initial abt mids) as s := by
  apply Run.invariant_iff_of_invariant (I := Group.Sound) (P := Group.Follows)
  · intro u a u' hs hf hf' h
    exact step_sound hs ((step_follows hs hf h).mp hf') h
  · intro u a u' hs hf h
    exact step_follows hs hf h
  · exact each_initial abt mids (sound_initialTrack _)
  · exact each_initial abt mids (follows_initialTrack _)

/-- The last pool takes the place of the removed one in the registry, while its
series moves up by one. -/
theorem removal_swaps_series :
    ¬∀ (abt : MargoAbt) (mids : List Instance) (as : List (Nat × Op)) (s : Group),
      Run step Any (initial abt mids) as s → s.Follows := by
  intro hall
  let abt : MargoAbt :=
    ⟨[idlePool "__primary__" 0, idlePool "a" 1, idlePool "b" 2, idlePool "c" 3], 6, [], 1⟩
  let as : List (Nat × Op) :=
    [(0, .sample 1 [some (7, 7), some (0, 0), some (5, 5), some (6, 6)]),
      (0, .removePool (.named (some "a")) (granted 4))]
  let track (x y z : Nat) : Track :=
    ⟨[some ⟨256, .one (.new ⟨1, 7⟩)⟩, some ⟨256, .one (.new ⟨1, x⟩)⟩,
      some ⟨256, .one (.new ⟨1, y⟩)⟩, some ⟨256, .one (.new ⟨1, z⟩)⟩],
      [[⟨1, 7⟩], [⟨1, 6⟩], [⟨1, 5⟩]]⟩
  let s : Group :=
    ⟨⟨[idlePool "__primary__" 0, idlePool "c" 3, idlePool "b" 2], 6, [], 1⟩,
      [⟨⟨0, 0⟩, track 5 6 6, track 5 6 6⟩]⟩
  have hrun : Run step Any (initial abt [⟨0, 0⟩]) as s := run_of_exec (by decide)
  exact absurd (hall abt _ as s hrun) (by decide)

end Margo.Monitor
