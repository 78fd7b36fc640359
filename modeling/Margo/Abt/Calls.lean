import Margo.Abt.Api
import Margo.Abt.Effects

/-!
# Calls on pools and xstreams

The public functions on pools and xstreams as one type of calls, and what a
whole call can do to the environment: next to nothing, or one operation of the
registry.

## Implementation notes

Reference counts, ownership flags and capacities are left out of the
comparison of two environments: what a call can do to the entries is told by
their names, their handles and the use counts.
-/

namespace Margo.Abt

open Lib

/-- A call of a public function on pools or xstreams. -/
inductive Call
  | findPoolByHandle (mid : Option Instance) (handle : PoolHandle)
  | findPoolByName (mid : Option Instance) (name : Option String)
  | findPoolByIndex (mid : Option Instance) (index : Nat)
  | poolRefIncrByHandle (mid : Option Instance) (handle : PoolHandle)
  | poolRefIncrByName (mid : Option Instance) (name : Option String)
  | poolRefIncrByIndex (mid : Option Instance) (index : Nat)
  | poolRefCountByHandle (mid : Option Instance) (handle : PoolHandle)
  | poolRefCountByName (mid : Option Instance) (name : Option String)
  | poolRefCountByIndex (mid : Option Instance) (index : Nat)
  | poolReleaseByHandle (mid : Option Instance) (handle : PoolHandle)
  | poolReleaseByName (mid : Option Instance) (name : Option String)
  | poolReleaseByIndex (mid : Option Instance) (index : Nat)
  | getNumPools (mid : Option Instance)
  | addPoolFromJson (mid : Option Instance) (json : Option Json)
  | addPoolExternal (mid : Option Instance) (name : Option String) (pool : PoolHandle)
      (takeOwnership : Bool)
  | removePoolByIndex (mid : Option Instance) (index : Nat)
  | removePoolByName (mid : Option Instance) (name : Option String)
  | removePoolByHandle (mid : Option Instance) (handle : PoolHandle)
  | findXstreamByHandle (mid : Option Instance) (handle : XstreamHandle)
  | findXstreamByName (mid : Option Instance) (name : Option String)
  | findXstreamByIndex (mid : Option Instance) (index : Nat)
  | xstreamRefIncrByHandle (mid : Option Instance) (handle : XstreamHandle)
  | xstreamRefIncrByName (mid : Option Instance) (name : Option String)
  | xstreamRefIncrByIndex (mid : Option Instance) (index : Nat)
  | xstreamRefCountByHandle (mid : Option Instance) (handle : XstreamHandle)
  | xstreamRefCountByName (mid : Option Instance) (name : Option String)
  | xstreamRefCountByIndex (mid : Option Instance) (index : Nat)
  | xstreamReleaseByHandle (mid : Option Instance) (handle : XstreamHandle)
  | xstreamReleaseByName (mid : Option Instance) (name : Option String)
  | xstreamReleaseByIndex (mid : Option Instance) (index : Nat)
  | getNumXstreams (mid : Option Instance)
  | addXstreamFromJson (mid : Option Instance) (json : Option Json)
  | addXstreamExternal (mid : Option Instance) (name : Option String)
      (xstream : XstreamHandle) (takeOwnership : Bool)
  | removeXstreamByIndex (mid : Option Instance) (index : Nat)
  | removeXstreamByName (mid : Option Instance) (name : Option String)
  | removeXstreamByHandle (mid : Option Instance) (handle : XstreamHandle)

/-- The function that a call runs. -/
def Call.api : Call → Api
  | .findPoolByHandle mid handle => margoFindPoolByHandle mid handle
  | .findPoolByName mid name => margoFindPoolByName mid name
  | .findPoolByIndex mid index => margoFindPoolByIndex mid index
  | .poolRefIncrByHandle mid handle => margoPoolRefIncrByHandle mid handle
  | .poolRefIncrByName mid name => margoPoolRefIncrByName mid name
  | .poolRefIncrByIndex mid index => margoPoolRefIncrByIndex mid index
  | .poolRefCountByHandle mid handle => margoPoolRefCountByHandle mid handle
  | .poolRefCountByName mid name => margoPoolRefCountByName mid name
  | .poolRefCountByIndex mid index => margoPoolRefCountByIndex mid index
  | .poolReleaseByHandle mid handle => margoPoolReleaseByHandle mid handle
  | .poolReleaseByName mid name => margoPoolReleaseByName mid name
  | .poolReleaseByIndex mid index => margoPoolReleaseByIndex mid index
  | .getNumPools mid => margoGetNumPools mid
  | .addPoolFromJson mid json => margoAddPoolFromJson mid json
  | .addPoolExternal mid name pool takeOwnership =>
      margoAddPoolExternal mid name pool takeOwnership
  | .removePoolByIndex mid index => margoRemovePoolByIndex mid index
  | .removePoolByName mid name => margoRemovePoolByName mid name
  | .removePoolByHandle mid handle => margoRemovePoolByHandle mid handle
  | .findXstreamByHandle mid handle => margoFindXstreamByHandle mid handle
  | .findXstreamByName mid name => margoFindXstreamByName mid name
  | .findXstreamByIndex mid index => margoFindXstreamByIndex mid index
  | .xstreamRefIncrByHandle mid handle => margoXstreamRefIncrByHandle mid handle
  | .xstreamRefIncrByName mid name => margoXstreamRefIncrByName mid name
  | .xstreamRefIncrByIndex mid index => margoXstreamRefIncrByIndex mid index
  | .xstreamRefCountByHandle mid handle => margoXstreamRefCountByHandle mid handle
  | .xstreamRefCountByName mid name => margoXstreamRefCountByName mid name
  | .xstreamRefCountByIndex mid index => margoXstreamRefCountByIndex mid index
  | .xstreamReleaseByHandle mid handle => margoXstreamReleaseByHandle mid handle
  | .xstreamReleaseByName mid name => margoXstreamReleaseByName mid name
  | .xstreamReleaseByIndex mid index => margoXstreamReleaseByIndex mid index
  | .getNumXstreams mid => margoGetNumXstreams mid
  | .addXstreamFromJson mid json => margoAddXstreamFromJson mid json
  | .addXstreamExternal mid name xstream takeOwnership =>
      margoAddXstreamExternal mid name xstream takeOwnership
  | .removeXstreamByIndex mid index => margoRemoveXstreamByIndex mid index
  | .removeXstreamByName mid name => margoRemoveXstreamByName mid name
  | .removeXstreamByHandle mid handle => margoRemoveXstreamByHandle mid handle

/-- One call on an environment that nobody else uses. -/
def callStep (abt : MargoAbt) (a : Call × Replies) : Option MargoAbt := a.1.api.run a.2 abt

/-- Argobots and the allocator grant everything. -/
def granted (id : Nat) : Replies where
  abtInitialized := true
  alloc := true
  realloc := true
  poolCreate := some id
  schedCreate := true
  xstreamCreate := some id
  xstreamSelf := some 0
  selfPools := []
  setMainSched := true
  totalSize := some 0

/-! ## Calls about the entries that are there -/

/-- The call neither adds nor removes. -/
def Call.about : Call → Bool
  | .addPoolFromJson .. | .addPoolExternal .. | .removePoolByIndex .. | .removePoolByName ..
  | .removePoolByHandle .. | .addXstreamFromJson .. | .addXstreamExternal ..
  | .removeXstreamByIndex .. | .removeXstreamByName .. | .removeXstreamByHandle .. => false
  | _ => true

/-- At most one reference count of the table has changed. -/
def Table.Counts (table : Table) (abt abt' : MargoAbt) : Prop :=
  abt' = abt ∨ ∃ f i, abt' = table.update f i abt

section

variable {table : Table} {mid : Option Instance} {finder : Finder} {r : Replies}
  {abt abt' : MargoAbt}

/-- A call on an entry leaves the environment alone or acts on the entry that it finds. -/
theorem onEntry_cases {act : Nat → MargoAbt → Exit}
    (h : (onEntry mid finder act).run r abt = some abt') :
    abt' = abt ∨ ∃ i, abt' = (act i abt).abt := by
  simp only [Api.run, onEntry, checked] at h
  split_ifs at h
  · simp only [Option.map_eq_some_iff] at h
    obtain ⟨e, he, rfl⟩ := h
    split at he <;> obtain rfl := Option.some.inj he
    · exact .inl rfl
    · exact .inr ⟨_, rfl⟩
  · exact .inl (Option.some.inj h).symm

theorem findEntry_counts {other : Table} (h : (findEntry table mid finder).run r abt = some abt') :
    other.Counts abt abt' := by
  obtain rfl | ⟨i, hi⟩ := onEntry_cases h
  · exact .inl rfl
  · exact .inl hi

theorem refIncr_counts (h : (refIncr table mid finder).run r abt = some abt') :
    table.Counts abt abt' :=
  (onEntry_cases h).imp_right fun ⟨i, hi⟩ => ⟨incr32, i, hi⟩

theorem refCount_counts {other : Table} (h : (refCount table mid finder).run r abt = some abt') :
    other.Counts abt abt' := by
  obtain rfl | ⟨i, hi⟩ := onEntry_cases h
  · exact .inl rfl
  · exact .inl hi

theorem release_counts {n : Nat} (h : (release n table mid finder).run r abt = some abt') :
    table.Counts abt abt' := by
  obtain rfl | ⟨i, hi⟩ := onEntry_cases h
  · exact .inl rfl
  · split at hi
    · exact .inl hi
    · exact .inr ⟨decr32, i, hi⟩

theorem getNum_counts {out : MargoAbt → Output}
    (h : (Api.mk (unchecked mid) fun _ abt => some (.plain abt .success (out abt))).run r abt =
      some abt') : table.Counts abt abt' := by
  cases mid with
  | none => cases h
  | some mid => exact .inl (Option.some.inj h).symm

/-- A call about the entries that are there changes at most one reference count. -/
theorem Call.counts {c : Call} (habout : c.about = true) (h : callStep abt (c, r) = some abt') :
    poolTable.Counts abt abt' ∨ xstreamTable.Counts abt abt' := by
  cases c with
  | findPoolByHandle
  | findPoolByName
  | findPoolByIndex
  | findXstreamByHandle
  | findXstreamByName
  | findXstreamByIndex => exact .inl (findEntry_counts h)
  | poolRefIncrByHandle
  | poolRefIncrByName
  | poolRefIncrByIndex => exact .inl (refIncr_counts h)
  | xstreamRefIncrByHandle
  | xstreamRefIncrByName
  | xstreamRefIncrByIndex => exact .inr (refIncr_counts h)
  | poolRefCountByHandle
  | poolRefCountByName
  | poolRefCountByIndex
  | xstreamRefCountByHandle
  | xstreamRefCountByName
  | xstreamRefCountByIndex => exact .inl (refCount_counts h)
  | poolReleaseByHandle
  | poolReleaseByName
  | poolReleaseByIndex => exact .inl (release_counts h)
  | xstreamReleaseByHandle
  | xstreamReleaseByName
  | xstreamReleaseByIndex => exact .inr (release_counts h)
  | getNumPools
  | getNumXstreams => exact .inl (getNum_counts h)
  | addPoolFromJson
  | addPoolExternal
  | removePoolByIndex
  | removePoolByName
  | removePoolByHandle
  | addXstreamFromJson
  | addXstreamExternal
  | removeXstreamByIndex
  | removeXstreamByName
  | removeXstreamByHandle => cases habout

end

/-! ## What a call can do -/

/-- What tells two xstreams apart. -/
def xstreamKey (x : Xstream) : String × XstreamHandle := (x.name, x.xstream)

/-- The same entries, but for reference counts, flags and capacities. -/
structure SameEntries (abt abt' : MargoAbt) : Prop where
  pools : abt'.pools.map poolKey = abt.pools.map poolKey
  xstreams : abt'.xstreams.map xstreamKey = abt.xstreams.map xstreamKey

theorem SameEntries.refl (abt : MargoAbt) : SameEntries abt abt := ⟨rfl, rfl⟩

/-- The effect of a call on an environment: at most one operation of the
registry, of the kind that the call is about. -/
inductive Effect (r : Replies) (abt : MargoAbt) : Call → MargoAbt → Prop
  | same {c abt'} (h : SameEntries abt abt') : Effect r abt c abt'
  | addPoolFromJson {mid j} :
      Effect r abt (.addPoolFromJson mid (some j)) (addPoolFromJson r j abt).1
  | addPoolExternal {mid name pool own abt'}
      (h : SameEntries (addExternalPool r name pool abt).1 abt') :
      Effect r abt (.addPoolExternal mid name pool own) abt'
  | removePool {c} (i) : Effect r abt c (removePool r i abt).1
  | addXstreamFromJson {mid j} :
      Effect r abt (.addXstreamFromJson mid (some j)) (addXstreamFromJson r j abt).1
  | addXstreamExternal {mid name x own abt₁ ok abt'}
      (hadd : addExternalXstream r name x abt = some (abt₁, ok)) (h : SameEntries abt₁ abt') :
      Effect r abt (.addXstreamExternal mid name x own) abt'
  | removeXstream {c} (i) : Effect r abt c (removeXstream i abt).1

/-- A table whose updates keep the entries. -/
def Table.Harmless (table : Table) : Prop :=
  ∀ f i abt, SameEntries abt (table.update f i abt)

theorem poolTable_harmless : poolTable.Harmless := by
  intro f i abt
  refine ⟨?_, rfl⟩
  exact map_modify_of_eq (by intro; rfl) abt.pools i

theorem xstreamTable_harmless : xstreamTable.Harmless := by
  intro f i abt
  refine ⟨rfl, ?_⟩
  exact map_modify_of_eq (by intro; rfl) abt.xstreams i

theorem Table.Counts.effect {table : Table} {c : Call} {r : Replies} {abt abt' : MargoAbt}
    (h : table.Counts abt abt') (ht : table.Harmless) : Effect r abt c abt' := by
  obtain rfl | ⟨f, i, rfl⟩ := h
  · exact .same (SameEntries.refl abt')
  · exact .same (ht f i abt)

theorem addPoolFromJson_effect {mid : Option Instance} {json : Option Json} {r : Replies}
    {abt abt' : MargoAbt} (h : (margoAddPoolFromJson mid json).run r abt = some abt') :
    Effect r abt (.addPoolFromJson mid json) abt' := by
  cases json with
  | none =>
      obtain rfl := Option.some.inj h
      exact .same (SameEntries.refl abt)
  | some j =>
      cases mid with
      | none => cases h
      | some mid =>
          obtain rfl : (addPoolFromJson r j abt).1 = abt' := by
            simpa [Api.run, margoAddPoolFromJson, unchecked] using h
          exact .addPoolFromJson

theorem addPoolExternal_effect {mid : Option Instance} {name : Option String}
    {pool : PoolHandle} {own : Bool} {r : Replies} {abt abt' : MargoAbt}
    (h : (margoAddPoolExternal mid name pool own).run r abt = some abt') :
    Effect r abt (.addPoolExternal mid name pool own) abt' := by
  cases mid with
  | none =>
      obtain rfl := Option.some.inj h
      exact .same (SameEntries.refl abt)
  | some mid =>
      apply Effect.addPoolExternal
      simp only [Api.run, margoAddPoolExternal, checked, Option.isSome_some, Bool.and_self,
        if_true, Option.map_some, Option.some.injEq, added_abt] at h
      subst h
      split
      · exact ⟨map_modify_of_eq (by intro; rfl) _ _, rfl⟩
      · exact SameEntries.refl _

/-- A removal of a pool leaves the environment alone or removes one pool. -/
def Removal (r : Replies) (abt abt' : MargoAbt) : Prop :=
  abt' = abt ∨ ∃ i, abt' = (removePool r i abt).1

theorem Removal.effect {c : Call} {r : Replies} {abt abt' : MargoAbt}
    (h : Removal r abt abt') : Effect r abt c abt' := by
  obtain rfl | ⟨i, rfl⟩ := h
  · exact .same (SameEntries.refl abt')
  · exact .removePool i

theorem removePoolAt_removal (r : Replies) (mid : Instance) (i : Nat) (abt : MargoAbt) :
    Removal r abt (removePoolAt r mid i abt).abt := by
  unfold removePoolAt
  split_ifs
  · exact .inl rfl
  · exact .inl rfl
  · exact .inl rfl
  · exact .inr ⟨i, rfl⟩

theorem removePoolByIndex_removal {mid : Option Instance} {index : Nat} {r : Replies}
    {abt abt' : MargoAbt} (h : (margoRemovePoolByIndex mid index).run r abt = some abt') :
    Removal r abt abt' := by
  cases mid with
  | none => exact .inl (Option.some.inj h).symm
  | some mid =>
      obtain rfl := Option.some.inj h
      exact removePoolAt_removal r mid index abt

theorem removePoolFound_removal {mid : Option Instance} {find : MargoAbt → Option Nat}
    {r : Replies} {abt abt' : MargoAbt}
    (h : (removePoolFound mid find).run r abt = some abt') : Removal r abt abt' := by
  cases mid with
  | none => exact .inl (Option.some.inj h).symm
  | some mid =>
      obtain rfl := Option.some.inj h
      split
      · exact .inl rfl
      · exact removePoolAt_removal r mid _ abt

theorem addXstreamFromJson_effect {mid : Option Instance} {json : Option Json} {r : Replies}
    {abt abt' : MargoAbt} (h : (margoAddXstreamFromJson mid json).run r abt = some abt') :
    Effect r abt (.addXstreamFromJson mid json) abt' := by
  cases mid with
  | none =>
      obtain rfl := Option.some.inj h
      exact .same (SameEntries.refl abt)
  | some mid =>
      cases json with
      | none =>
          obtain rfl := Option.some.inj h
          exact .same (SameEntries.refl abt)
      | some j =>
          obtain rfl : (addXstreamFromJson r j abt).1 = abt' := by
            simpa [Api.run, margoAddXstreamFromJson, checked] using h
          exact .addXstreamFromJson

theorem addXstreamExternal_effect {mid : Option Instance} {name : Option String}
    {x : XstreamHandle} {own : Bool} {r : Replies} {abt abt' : MargoAbt}
    (h : (margoAddXstreamExternal mid name x own).run r abt = some abt') :
    Effect r abt (.addXstreamExternal mid name x own) abt' := by
  cases mid with
  | none =>
      obtain rfl := Option.some.inj h
      exact .same (SameEntries.refl abt)
  | some mid =>
      simp only [Api.run, margoAddXstreamExternal, checked, Option.isSome_some, Bool.and_self,
        if_true, Option.map_map, Option.map_eq_some_iff] at h
      obtain ⟨⟨abt₁, ok⟩, hadd, rfl⟩ := h
      apply Effect.addXstreamExternal hadd
      simp only [Function.comp_apply, added_abt]
      split
      · exact ⟨rfl, map_modify_of_eq (by intro; rfl) _ _⟩
      · exact SameEntries.refl _

theorem removeXstreamFound_effect {c : Call} {mid : Option Instance}
    {find : MargoAbt → Option Nat} {missing : HgReturn} {r : Replies} {abt abt' : MargoAbt}
    (h : (removeXstreamFound mid find missing).run r abt = some abt') : Effect r abt c abt' := by
  cases mid with
  | none =>
      obtain rfl := Option.some.inj h
      exact .same (SameEntries.refl abt)
  | some mid =>
      simp only [Api.run, removeXstreamFound, checked, Option.isSome_some, Bool.and_self,
        if_true] at h
      split at h <;> obtain rfl := Option.some.inj h
      · exact .same (SameEntries.refl abt)
      · exact .removeXstream _

/-- Every call has one of the effects. -/
theorem Call.effect {c : Call} {r : Replies} {abt abt' : MargoAbt}
    (h : callStep abt (c, r) = some abt') : Effect r abt c abt' := by
  by_cases habout : c.about = true
  · obtain hpool | hxstream := Call.counts habout h
    · exact hpool.effect poolTable_harmless
    · exact hxstream.effect xstreamTable_harmless
  cases c with
  | addPoolFromJson => exact addPoolFromJson_effect h
  | addPoolExternal => exact addPoolExternal_effect h
  | removePoolByIndex => exact (removePoolByIndex_removal h).effect
  | removePoolByName
  | removePoolByHandle => exact (removePoolFound_removal h).effect
  | addXstreamFromJson => exact addXstreamFromJson_effect h
  | addXstreamExternal => exact addXstreamExternal_effect h
  | removeXstreamByIndex
  | removeXstreamByName
  | removeXstreamByHandle => exact removeXstreamFound_effect h
  | _ => exact absurd rfl habout

end Margo.Abt
