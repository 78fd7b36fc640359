import Margo.Abt.Entries
import Margo.Lib.Directory
import Margo.Lib.Runs
import Mathlib

/-!
# Uniqueness of names and handles

Names are kept apart in three ways: the validation of a configuration compares
its explicit names, an addition at run time looks its name up first, and
generated names avoid those already in use. An explicit name of a configuration
is not compared with the names generated before it.

## Implementation notes

The invariant is about the lists of names and handles, which a call changes in
at most one place. Whether an initialization clashes depends on the
configuration alone, since the names that are generated do.
-/

namespace Margo.Abt.Names

open Lib Lib.Runs

/-! ## Generated names -/

theorem printInt_inj {a b : Nat} (ha : a < 2 ^ 32) (hb : b < 2 ^ 32)
    (h : printInt a = printInt b) : a = b := by
  simp only [printInt, Int.toString_eq_repr] at h
  have hint := Int.repr_injective h
  split_ifs at hint <;> omega

theorem print_inj {before after : String} {a b : Nat} (ha : a < 2 ^ 32) (hb : b < 2 ^ 32)
    (h : before ++ printInt a ++ after = before ++ printInt b ++ after) : a = b := by
  apply printInt_inj ha hb
  have hlist := congrArg String.toList h
  simp only [String.toList_append] at hlist
  exact String.toList_injective (List.append_cancel_left (List.append_cancel_right hlist))

/-- The generator finds a candidate that is not in use after at most as many
attempts as there are names. -/
theorem generateUnusedName_spec {print : Nat → String} {used : List String}
    (hprint : ∀ a b, a < 2 ^ 32 → b < 2 ^ 32 → print a = print b → a = b)
    (hlen : used.length < 2 ^ 32) :
    generateUnusedName print used ∉ used ∧
    ∃ k ≤ used.length, generateUnusedName print used = print ((used.length + k) % 2 ^ 32) := by
  obtain ⟨name, hname⟩ : ∃ name, Fresh.firstUnused
      (fun k => print ((used.length + k) % 2 ^ 32)) used (used.length + 1) 0 = some name := by
    apply Fresh.exists_firstUnused
    intro i j _ hi _ hj heq
    have hmod := hprint _ _ (Nat.mod_lt _ (by decide)) (Nat.mod_lt _ (by decide)) heq
    omega
  rw [generateUnusedName, hname]
  obtain ⟨hnot, k, -, hk, heq⟩ := Fresh.firstUnused_spec hname
  exact ⟨hnot, k, by omega, heq⟩

/-- How the generated name of a pool is printed. -/
def poolPrint (i : Nat) : String := "__pool_" ++ printInt i ++ "__"

/-- How the generated name of an xstream is printed. -/
def xstreamPrint (i : Nat) : String := "__xstream_" ++ printInt i ++ "__"

theorem generateUnusedPoolName_spec {abt : MargoAbt} (hlen : abt.pools.length < 2 ^ 32) :
    generateUnusedPoolName abt ∉ abt.pools.map (·.name) ∧
    ∃ k ≤ abt.pools.length,
      generateUnusedPoolName abt = poolPrint ((abt.pools.length + k) % 2 ^ 32) := by
  have hspec := @generateUnusedName_spec poolPrint (abt.pools.map (·.name))
    (fun _ _ ha hb => print_inj ha hb) (by rwa [List.length_map])
  rwa [List.length_map] at hspec

theorem generateUnusedXstreamName_spec {abt : MargoAbt}
    (hlen : abt.xstreams.length < 2 ^ 32) :
    generateUnusedXstreamName abt ∉ abt.xstreams.map (·.name) ∧
    ∃ k ≤ abt.xstreams.length,
      generateUnusedXstreamName abt = xstreamPrint ((abt.xstreams.length + k) % 2 ^ 32) := by
  have hspec := @generateUnusedName_spec xstreamPrint (abt.xstreams.map (·.name))
    (fun _ _ ha hb => print_inj ha hb) (by rwa [List.length_map])
  rwa [List.length_map] at hspec

/-! ## The invariant -/

/-- Names and handles are pairwise distinct, and no handle is null. -/
structure Distinct (ps : List (String × PoolHandle)) (xs : List (String × XstreamHandle)) :
    Prop where
  pools : Directory .poolNull ps
  xstreams : Directory .xstreamNull xs

variable {abt abt' : MargoAbt}

theorem poolEntries_fst : (poolEntries abt).map Prod.fst = abt.pools.map (·.name) := by
  simp only [poolEntries, List.map_map, Function.comp_def, poolEntry]

theorem poolEntries_snd : (poolEntries abt).map Prod.snd = abt.pools.map (·.pool) := by
  simp only [poolEntries, List.map_map, Function.comp_def, poolEntry]

theorem xstreamEntries_fst : (xstreamEntries abt).map Prod.fst = abt.xstreams.map (·.name) := by
  simp only [xstreamEntries, List.map_map, Function.comp_def, xstreamKey]

theorem xstreamEntries_snd :
    (xstreamEntries abt).map Prod.snd = abt.xstreams.map (·.xstream) := by
  simp only [xstreamEntries, List.map_map, Function.comp_def, xstreamKey]

/-- The arrays are short enough for an `int` to index them. -/
def Small (abt : MargoAbt) : Prop := abt.pools.length < 2 ^ 31 ∧ abt.xstreams.length < 2 ^ 31

instance (abt : MargoAbt) : Decidable (Small abt) := inferInstanceAs (Decidable (_ ∧ _))

theorem findPoolByName_eq_none {name : String} :
    findPoolByName abt (some name) = none ↔ name ∉ abt.pools.map (·.name) := by
  rw [findPoolByName, List.findIdx?_eq_none_iff]
  simp

theorem findXstreamByName_eq_none {name : String} :
    findXstreamByName abt (some name) = none ↔ name ∉ abt.xstreams.map (·.name) := by
  rw [findXstreamByName, List.findIdx?_eq_none_iff]
  simp

/-- The name of a pool that passed the check of its explicit name is new. -/
theorem poolJsonName_not_mem {j : Json} (hs : abt.pools.length < 2 ^ 32)
    (h : (j.get "name").present = true →
      findPoolByName abt (some (j.get "name").getString) = none) :
    poolJsonName j abt ∉ (poolEntries abt).map Prod.fst := by
  rw [poolEntries_fst]
  unfold poolJsonName
  split
  · next hpres => exact findPoolByName_eq_none.mp (h hpres)
  · exact (generateUnusedPoolName_spec hs).1

/-- The same for an xstream. -/
theorem xstreamJsonName_not_mem {j : Json} (hs : abt.xstreams.length < 2 ^ 32)
    (h : (j.get "name").present = true →
      findXstreamByName abt (some (j.get "name").getString) = none) :
    xstreamJsonName j abt ∉ (xstreamEntries abt).map Prod.fst := by
  rw [xstreamEntries_fst]
  unfold xstreamJsonName
  split
  · next hpres => exact findXstreamByName_eq_none.mp (h hpres)
  · exact (generateUnusedXstreamName_spec hs).1

/-! ## Calls -/

/-- No registered xstream has this number. -/
def newXstream (abt : MargoAbt) (id : Nat) : Bool :=
  abt.xstreams.all fun x =>
    match x.xstream with
    | .obj id' _ => id' != id
    | _ => true

/-- An external xstream without a name gets to the comparison of its name. -/
def comparesNull (r : Replies) (x : XstreamHandle) (abt : MargoAbt) : Bool :=
  (findXstreamByHandle abt x).isNone && (growXstreams r abt).isSome &&
    match x with
    | .obj _ pools => pools.all (registered abt)
    | _ => false

/-- The calls that return and keep names and handles apart. Argobots creates
pools and xstreams with new handles. -/
def meets (abt : MargoAbt) (a : Call × Replies) : Bool :=
  match a.1 with
  | .addPoolFromJson _ _ => a.2.poolCreate.all fun id => .obj id ∉ abt.pools.map (·.pool)
  | .addPoolExternal _ _ pool _ => pool ≠ .poolNull
  | .addXstreamFromJson _ _ => a.2.xstreamCreate.any (newXstream abt)
  | .addXstreamExternal _ none x _ => !comparesNull a.2 x abt
  | _ => true

theorem newXstream_not_mem {id : Nat} (h : newXstream abt id = true) (pools : List PoolHandle) :
    .obj id pools ∉ (xstreamEntries abt).map Prod.snd := by
  rw [xstreamEntries_snd]
  intro hmem
  obtain ⟨x, hx, heq⟩ := List.mem_map.mp hmem
  have hne := List.all_eq_true.mp h x hx
  simp [heq] at hne

/-- One call keeps names and handles apart. -/
theorem distinct_step {a : Call × Replies}
    (hd : Distinct (poolEntries abt) (xstreamEntries abt)) (hprim : HasPrimary abt)
    (hs : Small abt) (hm : meets abt a = true) (h : callStep abt a = some abt') :
    Distinct (poolEntries abt') (xstreamEntries abt') := by
  obtain ⟨c, r⟩ := a
  have hchange := Call.change h
  generalize poolEntries abt' = ps, xstreamEntries abt' = xs at hchange ⊢
  cases hchange with
  | same => exact hd
  | poolFromJson hid hfree =>
      rename_i mid j id
      refine ⟨hd.pools.add (poolJsonName_not_mem (by have := hs.1; omega) hfree) ?_ ?_,
        hd.xstreams⟩
      · rw [poolEntries_snd]
        simpa [meets, hid] using hm
      · simp
  | poolExternal hname hhandle =>
      rename_i mid name pool own
      have hnull : pool ≠ .poolNull := by simpa [meets] using hm
      refine ⟨hd.pools.add ?_ ?_ hnull, hd.xstreams⟩
      · rw [poolEntries_fst]
        cases name with
        | none => exact (generateUnusedPoolName_spec (by have := hs.1; omega)).1
        | some name => exact findPoolByName_eq_none.mp hname
      · rw [poolEntries_snd]
        exact (findPoolByHandle_none hhandle).resolve_left hnull
  | poolRemoved hperm => exact ⟨hd.pools.remove hperm, hd.xstreams⟩
  | xstreamFromJson hhandle hfree =>
      rename_i mid j x
      obtain ⟨id, hid, hnew⟩ : ∃ id, r.xstreamCreate = some id ∧ newXstream abt id = true := by
        cases hid : r.xstreamCreate with
        | none => simp [meets, hid] at hm
        | some id => exact ⟨id, rfl, by simpa [meets, hid] using hm⟩
      simp only [jsonHandle, xstreamJsonName_ne hprim hfree, if_false, hid] at hhandle
      obtain ⟨pools, rfl⟩ := hhandle
      refine ⟨hd.pools, hd.xstreams.add ?_ (newXstream_not_mem hnew pools) (by simp)⟩
      exact xstreamJsonName_not_mem (by have := hs.2; omega) hfree
  | xstreamExternal hname hhandle =>
      refine ⟨hd.pools, hd.xstreams.add ?_ ?_ (by simp)⟩
      · rw [xstreamEntries_fst]
        exact findXstreamByName_eq_none.mp hname
      · rw [xstreamEntries_snd]
        intro hmem
        obtain ⟨x, hx, heq⟩ := List.mem_map.mp hmem
        simp only [findXstreamByHandle, reduceCtorEq, if_false] at hhandle
        have hne := List.findIdx?_eq_none_iff.mp hhandle x hx
        simp [heq] at hne
  | xstreamRemoved hperm _ => exact ⟨hd.pools, hd.xstreams.remove hperm⟩

theorem run_isSome {api : Api} {r : Replies} (henter : api.enter ≠ .crashes)
    (hbody : api.enter = .locks → (api.body r abt).isSome = true) :
    (api.run r abt).isSome = true := by
  unfold Api.run
  cases he : api.enter with
  | locks => simpa using hbody he
  | returns ret => rfl
  | crashes => exact absurd he henter

theorem onEntry_body_isSome {mid : Option Instance} {finder : Finder}
    {act : Nat → MargoAbt → Exit} {r : Replies} :
    ((onEntry mid finder act).body r abt).isSome = true := by
  simp only [onEntry]
  split <;> rfl

theorem removeXstreamFound_body_isSome {mid : Option Instance} {find : MargoAbt → Option Nat}
    {missing : HgReturn} {r : Replies} :
    ((removeXstreamFound mid find missing).body r abt).isSome = true := by
  simp only [removeXstreamFound]
  split <;> rfl

theorem isSome_of_locks {mid : Option Instance} {ok : Bool} (h : checked mid ok = .locks) :
    mid.isSome = true := by
  cases mid with
  | none => simp [checked] at h
  | some mid => rfl

theorem addExternalXstream_isSome {r : Replies} {name : Option String} {x : XstreamHandle}
    (h : name = none → comparesNull r x abt = false) :
    (addExternalXstream r name x abt).isSome = true := by
  unfold addExternalXstream
  split
  · rfl
  split
  · rfl
  next hhandle =>
  split
  · rfl
  next abt₁ hgrow =>
  have hreg := registered_congr (growXstreams_eq hgrow).1
  suffices hinit : (xstreamInitExternal name x abt₁).isSome = true by
    obtain ⟨⟨abt₂, out⟩, hout⟩ := Option.isSome_iff_exists.mp hinit
    rw [hout]
    cases out <;> rfl
  cases x with
  | null => rfl
  | xstreamNull => rfl
  | obj id pools =>
      simp only [xstreamInitExternal]
      split
      · rfl
      next hany =>
      cases name with
      | some n => rfl
      | none =>
          have hall : pools.all (registered abt) = true := by
            rw [← hreg]
            simpa [registered, Option.isSome_iff_ne_none] using hany
          have hnull := h rfl
          simp [comparesNull, hgrow, hall] at hnull
          simp [hnull] at hhandle

/-- A call through an instance returns, unless it compares a null name. -/
theorem callStep_isSome {a : Call × Replies} (hinst : a.1.api.enter ≠ .crashes)
    (hm : meets abt a = true) : (callStep abt a).isSome = true := by
  obtain ⟨c, r⟩ := a
  apply run_isSome hinst
  intro hlocks
  cases c with
  | addPoolFromJson
  | addPoolExternal
  | addXstreamFromJson
  | getNumPools
  | getNumXstreams => rfl
  | removePoolByIndex
  | removePoolByName
  | removePoolByHandle =>
      obtain ⟨mid, rfl⟩ := Option.isSome_iff_exists.mp (isSome_of_locks hlocks)
      rfl
  | addXstreamExternal mid name x own =>
      simp only [Call.api, margoAddXstreamExternal, Option.isSome_map]
      apply addExternalXstream_isSome
      rintro rfl
      simpa [meets] using hm
  | removeXstreamByIndex
  | removeXstreamByName
  | removeXstreamByHandle => exact removeXstreamFound_body_isSome
  | _ => exact onEntry_body_isSome

/-! ## Lookup -/

/-- Every entry is found under its name, its handle and its position. -/
structure FindsAgree (abt : MargoAbt) : Prop where
  pools : ∀ i p, abt.pools[i]? = some p →
    findPoolByName abt (some p.name) = some i ∧ findPoolByHandle abt p.pool = some i ∧
      (poolByIndex i).find abt = some i
  xstreams : ∀ i x, abt.xstreams[i]? = some x →
    findXstreamByName abt (some x.name) = some i ∧ findXstreamByHandle abt x.xstream = some i ∧
      (xstreamByIndex i).find abt = some i

theorem Distinct.findsAgree (hd : Distinct (poolEntries abt) (xstreamEntries abt)) :
    FindsAgree abt where
  pools i p hp := by
    have hlt := (List.getElem?_eq_some_iff.mp hp).1
    have hnull : p.pool ≠ .poolNull := by
      intro heq
      apply hd.pools.notNull
      rw [poolEntries_snd]
      exact heq ▸ List.mem_map_of_mem (List.mem_of_getElem? hp)
    refine ⟨?_, ?_, ?_⟩
    · exact findIdx?_of_nodup (poolEntries_fst ▸ hd.pools.names) hp
    · rw [findPoolByHandle, if_neg hnull]
      exact findIdx?_of_nodup (poolEntries_snd ▸ hd.pools.handles) hp
    · exact if_pos hlt
  xstreams i x hx := by
    have hlt := (List.getElem?_eq_some_iff.mp hx).1
    have hnull : x.xstream ≠ .xstreamNull := by
      intro heq
      apply hd.xstreams.notNull
      rw [xstreamEntries_snd]
      exact heq ▸ List.mem_map_of_mem (List.mem_of_getElem? hx)
    refine ⟨?_, ?_, ?_⟩
    · exact findIdx?_of_nodup (xstreamEntries_fst ▸ hd.xstreams.names) hx
    · rw [findXstreamByHandle, if_neg hnull]
      exact findIdx?_of_nodup (xstreamEntries_snd ▸ hd.xstreams.handles) hx
    · exact if_pos hlt

/-! ## Initialization -/

/-- The name given to an entry of a configuration after these ones. -/
def givenName (print : Nat → String) (used : List String) (j : Json) : String :=
  if (j.get "name").present then (j.get "name").getString else generateUnusedName print used

/-- No explicit name is one that an earlier entry was given. -/
def namesFree (print : Nat → String) : List String → List Json → Bool
  | _, [] => true
  | used, j :: js =>
      (!(j.get "name").present || (j.get "name").getString ∉ used) &&
        namesFree print (used ++ [givenName print used j]) js

/-- What Argobots promises during an initialization: xstreams are created when
asked for, with new handles. -/
structure FreshXstreams (r : InitReplies) : Prop where
  creates : ∀ i, (r.xstream i).xstreamCreate.isSome = true
  created : ∀ i j id, (r.xstream i).xstreamCreate = some id →
    (r.xstream j).xstreamCreate = some id → i = j
  self : ∀ i j id, (r.xstream i).xstreamCreate = some id → (r.xstream j).xstreamSelf ≠ some id
  calling : ∀ i id, (r.xstream i).xstreamCreate = some id → id ≠ r.self

/-- Every xstream is the one that was created for its position, the calling one
if it is the primary. -/
def XstreamsNumbered (r : InitReplies) (xs : List (String × XstreamHandle)) : Prop :=
  ∀ k e, xs[k]? = some e → jsonHandle (r.xstream k) e.1 e.2

/-- The invariant during the initialization. -/
structure Building (r : InitReplies) (abt : MargoAbt) : Prop where
  distinct : Distinct (poolEntries abt) (xstreamEntries abt)
  numbered : Numbered r (abt.pools.map (·.pool))
  xstreamsNumbered : XstreamsNumbered r (xstreamEntries abt)

variable {r : InitReplies} {xs : List (String × XstreamHandle)}

theorem jsonHandle_obj (hr : FreshXstreams r) {k : Nat} {name : String} {x : XstreamHandle}
    (h : jsonHandle (r.xstream k) name x) :
    ∃ id pools, x = .obj id pools ∧
      (if name = "__primary__" then (r.xstream k).xstreamSelf else (r.xstream k).xstreamCreate) =
        some id := by
  unfold jsonHandle at h
  split at h
  · next hname =>
      obtain ⟨id, pools, hid, rfl⟩ := h
      exact ⟨id, pools, rfl, by rw [if_pos hname, hid]⟩
  · next hname =>
      obtain ⟨id, hid⟩ := Option.isSome_iff_exists.mp (hr.creates k)
      rw [hid] at h
      obtain ⟨pools, rfl⟩ := h
      exact ⟨id, pools, rfl, by rw [if_neg hname, hid]⟩

/-- The handle of the next xstream is new, if its name is. -/
theorem XstreamsNumbered.not_mem (hn : XstreamsNumbered r xs) (hr : FreshXstreams r)
    {name : String} {x : XstreamHandle} (hname : name ∉ xs.map Prod.fst)
    (h : jsonHandle (r.xstream xs.length) name x) : x ∉ xs.map Prod.snd := by
  obtain ⟨id, pools, rfl, hid⟩ := jsonHandle_obj hr h
  intro hmem
  obtain ⟨e, he, heq⟩ := List.mem_map.mp hmem
  have hne : e.1 ≠ name := fun heq => hname (heq ▸ List.mem_map_of_mem he)
  obtain ⟨k, hk⟩ := List.mem_iff_getElem?.mp he
  have hlt := (List.getElem?_eq_some_iff.mp hk).1
  obtain ⟨id', pools', heq', hid'⟩ := jsonHandle_obj hr (hn k e hk)
  obtain ⟨rfl, -⟩ : id' = id ∧ pools' = pools := by simpa [heq] using heq'.symm
  split_ifs at hid hid' with hprim hprim' hprim'
  · exact hne (hprim'.trans hprim.symm)
  · exact hr.self _ _ _ hid' hid
  · exact hr.self _ _ _ hid hid'
  · have := hr.created _ _ _ hid hid'
    omega

theorem building_newPool (hr : FreshPools r) (hb : Building r abt) {j : Json} {p : Pool}
    (hs : abt.pools.length < 2 ^ 32)
    (hfree : (j.get "name").present = true →
      findPoolByName abt (some (j.get "name").getString) = none)
    (h : poolInitFromJson (r.pool abt.pools.length) j abt = some p) :
    Building r (appendPool abt p) := by
  obtain ⟨id, hid, hpool, hname, -, -⟩ := poolInitFromJson_eq h
  have hid' : (r.pool (abt.pools.map (·.pool)).length).poolCreate = some id := by
    rwa [List.length_map]
  have hentries : poolEntries (appendPool abt p) =
      poolEntries abt ++ [(poolJsonName j abt, .obj id)] := by
    simp only [poolEntries, appendPool, List.map_append, List.map_singleton, poolEntry, hpool,
      hname]
  refine ⟨⟨?_, hb.distinct.xstreams⟩, ?_, hb.xstreamsNumbered⟩
  · rw [hentries]
    refine hb.distinct.pools.add (poolJsonName_not_mem hs hfree) ?_ (by simp)
    rw [poolEntries_snd]
    exact hb.numbered.not_mem hr hid'
  · simp only [appendPool, List.map_append, List.map_singleton, hpool]
    exact hb.numbered.append hid'

theorem building_initPools (hr : FreshPools r) {js : List Json} (hb : Building r abt)
    (hs : abt.pools.length + js.length < 2 ^ 32)
    (hfree : namesFree poolPrint (abt.pools.map (·.name)) js = true)
    (h : initPools r abt js = some abt') :
    Building r abt' ∧ abt'.pools.length = abt.pools.length + js.length ∧
      abt'.xstreams = abt.xstreams := by
  induction js generalizing abt with
  | nil =>
      obtain rfl := Option.some.inj h
      exact ⟨hb, rfl, rfl⟩
  | cons j js ih =>
      simp only [initPools] at h
      split at h
      · cases h
      next p hp =>
      simp only [List.length_cons] at hs
      simp only [namesFree, Bool.and_eq_true] at hfree
      obtain ⟨-, -, -, hname, -, -⟩ := poolInitFromJson_eq hp
      have hj : (j.get "name").present = true →
          findPoolByName abt (some (j.get "name").getString) = none := by
        intro hpres
        rw [findPoolByName_eq_none]
        simpa [hpres] using hfree.1
      have hlen : (appendPool abt p).pools.length = abt.pools.length + 1 := by
        simp [appendPool]
      have hrest : namesFree poolPrint ((appendPool abt p).pools.map (·.name)) js = true := by
        simp only [appendPool, List.map_append, List.map_singleton, hname]
        exact hfree.2
      obtain ⟨hb', hlen', hxs⟩ := ih (building_newPool hr hb (by omega) hj hp) (by omega) hrest h
      refine ⟨hb', ?_, hxs⟩
      rw [List.length_cons]
      omega

theorem building_initXstream (hr : FreshXstreams r) (hb : Building r abt) {j : Json}
    (hs : abt.xstreams.length < 2 ^ 32)
    (hfree : (j.get "name").present = true →
      findXstreamByName abt (some (j.get "name").getString) = none)
    (h : initXstream r j abt = some abt') :
    Building r abt' ∧ poolEntries abt' = poolEntries abt ∧
      abt'.xstreams.map (·.name) = abt.xstreams.map (·.name) ++ [xstreamJsonName j abt] := by
  unfold initXstream at h
  split at h
  · cases h
  next abt₁ x hinit =>
  obtain rfl := Option.some.inj h
  obtain ⟨hp, hxs, hentry⟩ := xstreamInitFromJson_entries hinit
  obtain ⟨hname, hhandle⟩ := hentry x rfl
  have hpools : poolEntries (appendXstream abt₁ x) = poolEntries abt := poolEntries_of_static hp
  have hentries : xstreamEntries (appendXstream abt₁ x) =
      xstreamEntries abt ++ [(xstreamJsonName j abt, x.xstream)] := by
    simp only [xstreamEntries, appendXstream, hxs, List.map_append, List.map_singleton,
      xstreamKey, hname]
  have hnew := xstreamJsonName_not_mem hs hfree
  have hhandle' : jsonHandle (r.xstream (xstreamEntries abt).length) (xstreamJsonName j abt)
      x.xstream := by
    rw [xstreamEntries, List.length_map, ← hname]
    exact hhandle
  obtain ⟨id, pools, hobj, -⟩ := jsonHandle_obj hr hhandle'
  refine ⟨⟨⟨?_, ?_⟩, ?_, ?_⟩, hpools, ?_⟩
  · rw [hpools]
    exact hb.distinct.pools
  · rw [hentries]
    exact hb.distinct.xstreams.add hnew (hb.xstreamsNumbered.not_mem hr hnew hhandle')
      (by simp [hobj])
  · rw [← poolEntries_snd, hpools, poolEntries_snd]
    exact hb.numbered
  · rw [hentries]
    exact forall_getElem?_concat hb.xstreamsNumbered hhandle'
  · rw [← xstreamEntries_fst, hentries, List.map_append, xstreamEntries_fst]
    rfl

theorem building_initXstreams (hr : FreshXstreams r) {js : List Json} (hb : Building r abt)
    (hs : abt.xstreams.length + js.length < 2 ^ 32)
    (hfree : namesFree xstreamPrint (abt.xstreams.map (·.name)) js = true)
    (h : initXstreams r abt js = some abt') :
    Building r abt' ∧ poolEntries abt' = poolEntries abt ∧
      abt'.xstreams.length = abt.xstreams.length + js.length := by
  induction js generalizing abt with
  | nil =>
      obtain rfl := Option.some.inj h
      exact ⟨hb, rfl, rfl⟩
  | cons j js ih =>
      simp only [initXstreams] at h
      split at h
      · cases h
      next abt₁ hx =>
      simp only [List.length_cons] at hs
      simp only [namesFree, Bool.and_eq_true] at hfree
      have hj : (j.get "name").present = true →
          findXstreamByName abt (some (j.get "name").getString) = none := by
        intro hpres
        rw [findXstreamByName_eq_none]
        simpa [hpres] using hfree.1
      obtain ⟨hb₁, hpools, hnames⟩ := building_initXstream hr hb (by omega) hj hx
      have hlen : abt₁.xstreams.length = abt.xstreams.length + 1 := by
        simpa using congrArg List.length hnames
      obtain ⟨hb', hpools', hlen'⟩ := ih hb₁ (by omega) (by rw [hnames]; exact hfree.2) h
      refine ⟨hb', hpools'.trans hpools, ?_⟩
      rw [List.length_cons]
      omega

/-! ### The primary pool and xstream -/

theorem building_initPrimaryPool (hr : FreshPools r) {i : Nat} (hb : Building r abt)
    (hs : abt.pools.length < 2 ^ 32) (h : initPrimaryPool r abt = some (abt', i)) :
    Building r abt' ∧ abt'.xstreams = abt.xstreams := by
  rcases initPrimaryPool_cases h with rfl | ⟨j, p, hnone, hp, rfl⟩
  · exact ⟨hb, rfl⟩
  · exact ⟨building_newPool hr hb hs (fun _ => hnone) hp, rfl⟩

theorem building_initPrimary (hr : FreshPools r) (hx : FreshXstreams r) (hb : Building r abt)
    (hp : abt.pools.length < 2 ^ 32) (hs : abt.xstreams.length < 2 ^ 32)
    (hnone : ∀ x ∈ abt.xstreams, x.name ≠ "__primary__")
    (h : initPrimary r abt = some abt') :
    Distinct (poolEntries abt') (xstreamEntries abt') := by
  unfold initPrimary at h
  split at h
  · cases h
  next abt₁ i hpool =>
  obtain ⟨hb₁, hxs⟩ := building_initPrimaryPool hr hb hp hpool
  have hflag : Building r { abt₁ with
      pools := abt₁.pools.modify i fun p => { p with margoFreeFlag := false } } := by
    refine ⟨⟨?_, hb₁.distinct.xstreams⟩, ?_, hb₁.xstreamsNumbered⟩
    · rw [poolEntries, map_modify_of_eq (by intro; rfl)]
      exact hb₁.distinct.pools
    · rw [map_modify_of_eq (by intro; rfl)]
      exact hb₁.numbered
  refine (building_initXstream hx hflag (by rwa [hxs]) (fun _ => ?_) h).1.distinct
  rw [findXstreamByName_eq_none, hxs]
  intro hmem
  obtain ⟨x, hx, hname⟩ := List.mem_map.mp hmem
  exact hnone x hx hname

theorem building_initPrimaryExternal (hr : FreshPools r) (hx : FreshXstreams r)
    (hself : r.selfPools.headD .poolNull ≠ .poolNull) (hb : Building r abt)
    (hpools : "__primary__" ∉ abt.pools.map (·.name))
    (hnone : ∀ x ∈ abt.xstreams, x.name ≠ "__primary__")
    (h : initPrimaryExternal r abt = some abt') :
    Distinct (poolEntries abt') (xstreamEntries abt') := by
  simp only [initPrimaryExternal] at h
  split at h
  · next abt₁ x hinit =>
      obtain rfl := Option.some.inj h
      obtain ⟨hp, hxs, hentry⟩ := xstreamInitExternal_entries hinit
      obtain ⟨hname, hhandle, -⟩ := hentry x rfl
      have hentries : poolEntries (appendXstream abt₁ x) =
          poolEntries abt ++ [("__primary__", r.selfPools.headD .poolNull)] := by
        have hstatic : poolEntries (appendXstream abt₁ x) = poolEntries _ :=
          poolEntries_of_static hp
        rw [hstatic, poolEntries, appendPool, List.map_append]
        rfl
      have hxentries : xstreamEntries (appendXstream abt₁ x) =
          xstreamEntries abt ++ [("__primary__", .obj r.self r.selfPools)] := by
        rw [xstreamEntries, appendXstream, hxs, List.map_append, List.map_singleton, xstreamKey,
          hhandle, ← Option.some.inj hname]
        rfl
      rw [hentries, hxentries]
      refine ⟨hb.distinct.pools.add ?_ ?_ hself, hb.distinct.xstreams.add ?_ ?_ (by simp)⟩
      · rwa [poolEntries_fst]
      · rw [poolEntries_snd]
        exact (hb.numbered.self_not_mem hr).resolve_left hself
      · rw [xstreamEntries_fst]
        intro hmem
        obtain ⟨y, hy, hyname⟩ := List.mem_map.mp hmem
        exact hnone y hy hyname
      · intro hmem
        obtain ⟨e, he, heq⟩ := List.mem_map.mp hmem
        obtain ⟨k, hk⟩ := List.mem_iff_getElem?.mp he
        obtain ⟨id, pools, hobj, hid⟩ := jsonHandle_obj hx (hb.xstreamsNumbered k e hk)
        obtain ⟨y, hy, rfl⟩ := List.mem_map.mp he
        rw [if_neg (show (xstreamKey y).1 ≠ _ from hnone y hy)] at hid
        obtain ⟨rfl, -⟩ : id = r.self ∧ pools = r.selfPools := by simpa [heq] using hobj.symm
        exact hx.calling k _ hid rfl
  · cases h

/-! ### Validation -/

theorem present_of_get {j : Json} {key : String} (h : (j.get key).present = true) :
    j.present = true ∧ j.isType .object = true := by
  cases j with
  | object fields => exact ⟨rfl, rfl⟩
  | _ => cases h

/-- A pool that is accepted when Argobots is initialized is not called
`__primary__`. -/
theorem poolValidateJson_ne {j : Json} (h : poolValidateJson true j = .ok ())
    (hpres : (j.get "name").present = true) : (j.get "name").getString ≠ "__primary__" := by
  intro hname
  obtain ⟨hp, hobj⟩ := present_of_get hpres
  simp only [poolValidateJson, hp, hobj, Bool.not_true, Bool.false_eq_true, if_false] at h
  obtain ⟨⟨⟩, -, h⟩ := bind_ok h
  obtain ⟨⟨⟩, -, h⟩ := bind_ok h
  unfold poolNameValidate at h
  obtain ⟨⟨⟩, -, h⟩ := bind_ok h
  rw [if_pos hpres] at h
  obtain ⟨⟨⟩, -, h⟩ := bind_ok h
  rw [if_pos (by simp [hname])] at h
  cases h

theorem abtValidateJson_ne {j jpool : Json} (h : abtValidateJson true j = .ok ())
    (hmem : jpool ∈ (j.get "pools").items) (hpres : (jpool.get "name").present = true) :
    (jpool.get "name").getString ≠ "__primary__" := by
  have hpools : (j.get "pools").present = true := by
    cases hp : j.get "pools" with
    | array items => rfl
    | _ => simp [hp, Json.items] at hmem
  obtain ⟨hp, hobj⟩ := present_of_get hpools
  simp only [abtValidateJson, hp, hobj, Bool.not_true, Bool.false_eq_true, if_false] at h
  obtain ⟨⟨⟩, -, h⟩ := bind_ok h
  obtain ⟨⟨⟩, -, h⟩ := bind_ok h
  obtain ⟨⟨⟩, -, h⟩ := bind_ok h
  obtain ⟨⟨⟩, -, h⟩ := bind_ok h
  obtain ⟨⟨⟩, -, h⟩ := bind_ok h
  obtain ⟨⟨⟩, hvalid, -⟩ := bind_ok h
  exact poolValidateJson_ne (forM_ok hvalid jpool hmem) hpres

/-- Without an explicit `__primary__`, no pool of the configuration is called so. -/
theorem initPools_ne {js : List Json}
    (hjs : ∀ j ∈ js, (j.get "name").present = true → (j.get "name").getString ≠ "__primary__")
    (hne : "__primary__" ∉ abt.pools.map (·.name)) (h : initPools r abt js = some abt') :
    "__primary__" ∉ abt'.pools.map (·.name) := by
  induction js generalizing abt with
  | nil =>
      obtain rfl := Option.some.inj h
      exact hne
  | cons j js ih =>
      simp only [initPools] at h
      split at h
      · cases h
      next p hp =>
      obtain ⟨-, -, -, hname, -, -⟩ := poolInitFromJson_eq hp
      refine ih (fun j' hj' => hjs j' (List.mem_cons_of_mem j hj')) ?_ h
      simp only [appendPool, List.map_append, List.map_singleton, List.mem_append,
        List.mem_singleton, hname]
      rintro (hmem | heq)
      · exact hne hmem
      · unfold poolJsonName at heq
        split at heq
        · next hpres => exact hjs j List.mem_cons_self hpres heq.symm
        · exact generateUnusedPoolName_ne abt heq.symm

/-- A configuration that was accepted and whose explicit names are free. -/
structure Accepted (r : InitReplies) (j : Json) : Prop where
  valid : abtValidateJson r.abtInitialized j = .ok ()
  poolNames : namesFree poolPrint [] (j.get "pools").items = true
  xstreamNames : namesFree xstreamPrint [] (j.get "xstreams").items = true
  fewPools : (j.get "pools").items.length < 2 ^ 31
  fewXstreams : (j.get "xstreams").items.length < 2 ^ 31

/-- The names and handles of a configured environment are distinct. -/
theorem abtInitFromJson_distinct (hr : FreshPools r) (hx : FreshXstreams r)
    (hself : r.abtInitialized = true → r.selfPools.headD .poolNull ≠ .poolNull) {j : Json}
    (hj : Accepted r j) (h : abtInitFromJson r j = some abt) :
    Distinct (poolEntries abt) (xstreamEntries abt) := by
  have hempty (m n : Nat) : Building r ⟨[], m, [], n⟩ := by
    refine ⟨⟨Directory.empty, Directory.empty⟩, fun k h hk => ?_, fun k e hk => ?_⟩
    · simp at hk
    · simp [xstreamEntries] at hk
  have hfp := hj.fewPools
  have hfx := hj.fewXstreams
  obtain ⟨abt₁, abt₂, hpools, hxs, hprimary⟩ := abtInitFromJson_stages h
  obtain ⟨hb₁, hlen₁, hnil⟩ := building_initPools hr (hempty _ _)
    (by simp only [List.length_nil]; omega) hj.poolNames hpools
  obtain ⟨hb₂, hentries, hlen₂⟩ := building_initXstreams hx hb₁
    (by simp only [hnil, List.length_nil]; omega) (by rw [hnil]; exact hj.xstreamNames) hxs
  have hpnames : abt₂.pools.map (·.name) = abt₁.pools.map (·.name) := by
    rw [← poolEntries_fst, hentries, poolEntries_fst]
  have hplen : abt₂.pools.length = abt₁.pools.length := by
    simpa using congrArg List.length hpnames
  simp only [hnil, List.length_nil] at hlen₁ hlen₂
  rcases hprimary with ⟨rfl, -⟩ | ⟨hnone, hprimary⟩
  · exact hb₂.distinct
  · split at hprimary
    · next hinit =>
        refine building_initPrimaryExternal hr hx (hself hinit) hb₂ ?_ hnone hprimary
        have hvalid := hj.valid
        rw [hinit] at hvalid
        rw [hpnames]
        exact initPools_ne (fun _ hmem => abtValidateJson_ne hvalid hmem) (by simp) hpools
    · exact building_initPrimary hr hx hb₂ (by omega) (by omega) hnone hprimary

/-! ## Runs -/

/-- Names and handles are pairwise distinct. -/
structure Unique (abt : MargoAbt) : Prop where
  poolNames : (abt.pools.map (·.name)).Nodup
  poolHandles : (abt.pools.map (·.pool)).Nodup
  xstreamNames : (abt.xstreams.map (·.name)).Nodup
  xstreamHandles : (abt.xstreams.map (·.xstream)).Nodup

theorem Distinct.unique (hd : Distinct (poolEntries abt) (xstreamEntries abt)) :
    Unique abt where
  poolNames := poolEntries_fst ▸ hd.pools.names
  poolHandles := poolEntries_snd ▸ hd.pools.handles
  xstreamNames := xstreamEntries_fst ▸ hd.xstreams.names
  xstreamHandles := xstreamEntries_snd ▸ hd.xstreams.handles

/-- Uniqueness: in every run from an accepted configuration without clashes, in
which no null pool is added, no external xstream without a name gets as far as
the comparison of its name and Argobots creates what it is asked to, names and
handles are pairwise distinct, every entry is found under its name, its handle
and its position, the name generators stop, and every call returns. -/
theorem names_unique {j : Json} {abt₀ : MargoAbt} {as : List (Call × Replies)}
    (hr : FreshPools r) (hx : FreshXstreams r)
    (hself : r.abtInitialized = true → r.selfPools.headD .poolNull ≠ .poolNull)
    (hj : Accepted r j) (hinit : abtInitFromJson r j = some abt₀) (hsmall : Small abt₀)
    (hrun : Run callStep (fun s a s' => meets s a = true ∧ Small s') abt₀ as abt) :
    Unique abt ∧ FindsAgree abt ∧
    (∃ k ≤ abt.pools.length,
      generateUnusedPoolName abt = poolPrint ((abt.pools.length + k) % 2 ^ 32)) ∧
    (∃ k ≤ abt.xstreams.length,
      generateUnusedXstreamName abt = xstreamPrint ((abt.xstreams.length + k) % 2 ^ 32)) ∧
    ∀ a : Call × Replies, a.1.api.enter ≠ .crashes → meets abt a = true →
      (callStep abt a).isSome = true := by
  obtain ⟨hd, -, hs⟩ : Distinct (poolEntries abt) (xstreamEntries abt) ∧ HasPrimary abt ∧
      Small abt := by
    refine hrun.invariant (P := fun s => Distinct (poolEntries s) (xstreamEntries s) ∧
      HasPrimary s ∧ Small s) ?_ ⟨abtInitFromJson_distinct hr hx hself hj hinit,
        abtInitFromJson_hasPrimary hinit, hsmall⟩
    rintro s a s' ⟨hd, hprim, hs⟩ ⟨hm, hs'⟩ h
    exact ⟨distinct_step hd hprim hs hm h, hasPrimary_step hprim h, hs'⟩
  have hp := hs.1
  have hxs := hs.2
  exact ⟨hd.unique, hd.findsAgree, (generateUnusedPoolName_spec (by omega)).2,
    (generateUnusedXstreamName_spec (by omega)).2, fun a => callStep_isSome⟩

theorem freshXstreams_initGranted : FreshXstreams initGranted where
  creates i := rfl
  created i j id hi hj := by
    simp only [initGranted, granted, Option.some.injEq] at hi hj
    omega
  self i j id hi hj := by
    simp only [initGranted, granted, Option.some.injEq] at hi hj
    omega
  calling i id hi := by
    simp only [initGranted, granted, Option.some.injEq] at hi ⊢
    omega

/-- A named pool and one without a name. -/
def twoPools : Json := .object [("pools", .array [.object [("name", .string "a")], .object []])]

/-- Their environment. -/
def twoPoolsAbt : MargoAbt where
  pools := [⟨"a", .obj 0, "fifo_wait", some "mpmc", 0, 0, true, false⟩,
    ⟨"__pool_1__", .obj 1, "fifo_wait", some "mpmc", 0, 0, true, false⟩,
    ⟨"__primary__", .obj 2, "fifo_wait", some "mpmc", 0, 1, false, true⟩]
  poolsCap := 5
  xstreams := [⟨"__primary__", .obj 0 [.obj 2], "basic_wait", 0, false⟩]
  xstreamsCap := 1

/-- A pool without a name is added, and an xstream on it is added and removed. -/
def unnamedCalls : List (Call × Replies) :=
  [(.addPoolExternal caller none (.obj 7) false, granted 9),
    (.addXstreamExternal caller (some "x") (.obj 7 [.obj 7]) false, granted 9),
    (.removeXstreamByName caller (some "x"), granted 9)]

/-- What these calls leave behind. -/
def withUnnamed : MargoAbt :=
  { twoPoolsAbt with
    pools := twoPoolsAbt.pools ++ [⟨"__pool_3__", .obj 7, "external", none, 0, 0, false, false⟩]
    xstreamsCap := 2 }

theorem accepted_twoPools : Accepted initGranted twoPools where
  valid := rfl
  poolNames := by decide
  xstreamNames := rfl
  fewPools := by decide
  fewXstreams := by decide

theorem names_unique_unnamed :
    abtInitFromJson initGranted twoPools = some twoPoolsAbt ∧
    Run callStep (fun s a s' => meets s a = true ∧ Small s') twoPoolsAbt unnamedCalls
      withUnnamed ∧
    Unique withUnnamed := by
  have hinit : abtInitFromJson initGranted twoPools = some twoPoolsAbt := by decide
  have hrun : Run callStep (fun s a s' => meets s a = true ∧ Small s') twoPoolsAbt unnamedCalls
      withUnnamed := run_of_exec (by decide)
  refine ⟨hinit, hrun, ?_⟩
  exact (names_unique freshPools_initGranted freshXstreams_initGranted (fun h => by cases h)
    accepted_twoPools hinit (by decide) hrun).1

/-- A pool without a name, and one with the name that the first is given. -/
def clashingPools : Json :=
  .object [("pools", .array [.object [], .object [("name", .string "__pool_0__")]])]

/-- The configuration is accepted and gives two pools the same name. -/
theorem generated_name_clashes :
    ¬∀ (r : InitReplies) (j : Json) (abt₀ abt : MargoAbt) (as : List (Call × Replies)),
      FreshPools r → FreshXstreams r →
      (r.abtInitialized = true → r.selfPools.headD .poolNull ≠ .poolNull) →
      abtValidateJson r.abtInitialized j = .ok () → abtInitFromJson r j = some abt₀ →
      Run callStep Any abt₀ as abt → Unique abt := by
  intro hall
  let abt : MargoAbt :=
    { pools := [⟨"__pool_0__", .obj 0, "fifo_wait", some "mpmc", 0, 0, true, false⟩,
        ⟨"__pool_0__", .obj 1, "fifo_wait", some "mpmc", 0, 0, true, false⟩,
        ⟨"__primary__", .obj 2, "fifo_wait", some "mpmc", 0, 1, false, true⟩]
      poolsCap := 5
      xstreams := [⟨"__primary__", .obj 0 [.obj 2], "basic_wait", 0, false⟩]
      xstreamsCap := 1 }
  have hunique := hall initGranted clashingPools abt abt [] freshPools_initGranted
    freshXstreams_initGranted (fun h => by cases h) rfl (by decide) (Run.nil abt)
  exact absurd hunique.poolNames (by decide)

end Margo.Abt.Names
