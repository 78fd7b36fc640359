import Margo.Init.Child
import Margo.Rpc.Refcounts

/-!
# What a failed initialization of a child leaves behind

The label `error` of `margo_init_ext` gives back the reference on the parent and
nothing else. A pool that was added to the environment of the parent stays
there, and so do the counts of the RPCs that the child had registered.

## Implementation notes

The condition is on the state before the call and on the answers it gets, not
on where the call fails. The two registrations ask for the same pool, so only
the number of those that count it matters.
-/

namespace Margo.Init

open Lib Abt Rpc

/-! ## What a failed call must leave -/

/-- The arrays of the environment and the state of the parent are the same. -/
structure Untouched (s s' : Family) : Prop where
  pools : s'.world.abt.pools = s.world.abt.pools
  xstreams : s'.world.abt.xstreams = s.world.abt.xstreams
  parent : s'.parent = s.parent

/-- A pool was passed that is not the primary pool. -/
def foreign (abt : MargoAbt) (primary : Nat) (pool : PoolHandle) : Bool :=
  given pool && pool ≠ poolAt abt primary

/-- An id has `margo_rpc_data` in a class. -/
def hasData (hgClass id : Nat) (w : World) : Bool :=
  match w.rpcs.lookup (hgClass, id) with
  | some (some _) => true
  | _ => false

/-- A registration gets as far as counting its pool. -/
def counted (r : RegisterReplies) (hgClass id : Nat) (w : World) : Bool :=
  r.track && r.register && (hasData hgClass id w || (r.alloc && r.registerData))

/-- The index of the RPC pool of a child to which no pool was passed that its
parent does not have. -/
def parentRpcPool (info : InitInfo) (config : Json) (primary : Nat) (abt : MargoAbt) : Int :=
  if poolAt abt primary ≠ .poolNull ∧ info.rpcPool = poolAt abt primary then primary
  else if (config.get "rpc_pool").present then fieldPool abt (config.get "rpc_pool")
  else primary

/-- The condition on a call that gets as far as resolving its pools: no pool is
added, the count of references on the parent is neither 0 nor at its end, and no
registration counts a pool. -/
def LeavesParent (r : ChildReplies) (args : ChildArgs) (config : Json) (primary : Nat)
    (s : Family) : Prop :=
  if foreign s.world.abt primary args.pools.progressPool then
    addsExternal r.resolve.progressPool none args.pools.progressPool s.world.abt = false
  else if foreign s.world.abt primary args.pools.rpcPool then
    addsExternal r.resolve.rpcPool none args.pools.rpcPool s.world.abt = false
  else
    r.calloc = true → (0 < s.parent.refcount ∧ s.parent.refcount + 1 < 2 ^ 32) ∧
      (r.setUp args = true →
        poolAt s.world.abt (parentRpcPool args.pools config primary s.world.abt).toNat =
          .poolNull ∨
        counted r.shutdown args.hgClass args.shutdownId s.world = false ∧
          counted r.identity args.hgClass args.identityId s.world = false)

instance (r : ChildReplies) (args : ChildArgs) (config : Json) (primary : Nat) (s : Family) :
    Decidable (LeavesParent r args config primary s) :=
  inferInstanceAs (Decidable (ite _ _ _))

/-- The condition on a call. -/
def Restores (r : ChildReplies) (hg plumber : Json → Check) (args : ChildArgs)
    (config : Option Json) (s : Family) : Prop :=
  ∀ j i, config = some j → validateJsonWithParent hg plumber s.world.abt j = .ok () →
    r.hgInit = true → findPoolByName s.world.abt (some "__primary__") = some i →
    LeavesParent r args j i s

/-! ## Validation and resolution -/

section

variable {config : Json} {abt : MargoAbt} {primary : Nat}

/-- An accepted field names a pool of the parent. -/
theorem fieldPool_inRange {key : String} (h : parentPoolFieldValidate config key abt = .ok ())
    (hprimary : findPoolByName abt (some "__primary__") = some primary)
    (hpres : (config.get key).present = true) :
    inRange abt (fieldPool abt (config.get key)) = true := by
  have hname : ∀ {name : String} {k : Nat}, findPoolByName abt (some name) = some k →
      inRange abt k = true := by
    intro name k hfind
    obtain ⟨hlt, -⟩ := List.findIdx?_eq_some_iff_getElem.mp hfind
    simp [inRange, hlt]
  simp only [parentPoolFieldValidate, hpres, Bool.not_true, Bool.false_eq_true, if_false] at h
  unfold fieldPool
  split at h
  · next hint =>
      rw [if_pos hint]
      split at h
      · cases h
      · next hrange =>
          simp only [inRange, Bool.and_eq_true, decide_eq_true_eq]
          omega
  · next hint =>
      rw [if_neg hint]
      split at h
      · split at h
        · cases h
        · next hfound =>
            by_cases heq : (config.get key).getString = "__primary__"
            · rw [heq, hprimary]
              exact hname hprimary
            · cases hfind : findPoolByName abt (some (config.get key).getString) with
              | none => exact absurd ⟨heq, hfind⟩ hfound
              | some k => exact hname hfind
      · cases h

theorem rejectField_ok {article key : String} (h : rejectField config article key = .ok ()) :
    (config.get key).present = false := by
  unfold rejectField at h
  split at h
  · cases h
  · next hpres => exact Bool.eq_false_iff.mpr hpres

theorem validateJsonWithParent_ok {hg plumber : Json → Check}
    (h : validateJsonWithParent hg plumber abt config = .ok ()) :
    (config.get "use_progress_thread").present = false ∧
    (config.get "rpc_thread_count").present = false ∧
    parentPoolFieldValidate config "progress_pool" abt = .ok () ∧
    parentPoolFieldValidate config "rpc_pool" abt = .ok () := by
  unfold validateJsonWithParent at h
  obtain ⟨⟨⟩, -, h⟩ := bind_ok h
  obtain ⟨⟨⟩, -, h⟩ := bind_ok h
  obtain ⟨⟨⟩, hthread, h⟩ := bind_ok h
  obtain ⟨⟨⟩, hcount, h⟩ := bind_ok h
  obtain ⟨⟨⟩, -, h⟩ := bind_ok h
  obtain ⟨⟨⟩, -, h⟩ := bind_ok h
  obtain ⟨⟨⟩, -, h⟩ := bind_ok h
  obtain ⟨⟨⟩, -, h⟩ := bind_ok h
  obtain ⟨⟨⟩, hprogress, hrpc⟩ := bind_ok h
  exact ⟨rejectField_ok hthread, rejectField_ok hcount, hprogress, hrpc⟩

theorem getInt_of_absent {j : Json} (h : j.present = false) : j.getInt = 0 := by
  cases j with
  | null => rfl
  | _ => cases h

theorem getBoolean_of_absent {j : Json} (h : j.present = false) : j.getBoolean = false := by
  cases j with
  | null => rfl
  | _ => cases h

/-- An external pool is added, or nothing happens. -/
theorem useExternalPool_of_adds {r : Replies} {pool : PoolHandle}
    (h : addsExternal r none pool abt = true) :
    ∃ abt', useExternalPool r pool abt = (abt', some (abt.pools.length : Int)) ∧
      abt'.pools.length = abt.pools.length + 1 := by
  have hlen := length_addExternalPool r none pool abt
  have hok : (addExternalPool r none pool abt).2 = true := by
    simp only [addsExternal, Bool.and_eq_true, Option.isNone_iff_eq_none] at h
    obtain ⟨⟨hname, hhandle⟩, hgrow⟩ := h
    obtain ⟨abt', hgrow⟩ := Option.isSome_iff_exists.mp hgrow
    simp [addExternalPool, hname, hhandle, hgrow]
  rw [hok] at hlen
  refine ⟨(addExternalPool r none pool abt).1, ?_, hlen⟩
  rw [useExternalPool, ← Prod.eta (addExternalPool r none pool abt), hok]

theorem useExternalPool_of_not_adds {r : Replies} {pool : PoolHandle}
    (h : addsExternal r none pool abt = false) : useExternalPool r pool abt = (abt, none) := by
  have hsame : addExternalPool r none pool abt = (abt, false) := by
    unfold addExternalPool
    split
    · rfl
    · next hname =>
        split
        · rfl
        · next hhandle =>
            rw [Option.not_isSome_iff_eq_none] at hname hhandle
            have hgrow : growPools r abt = none := by
              simpa [addsExternal, hname, hhandle] using h
            rw [hgrow]
  rw [useExternalPool, hsame]

theorem given_obj {pool : PoolHandle} (h : given pool = true) : pool ≠ .poolNull := by
  rintro rfl
  cases h

variable {r : ResolveReplies} {info : InitInfo}

/-- A foreign pool is added as the progress pool. -/
theorem resolveProgressPool_foreign (h : foreign abt primary info.progressPool = true) :
    resolveProgressPool r info config primary abt =
      useExternalPool r.progressPool info.progressPool abt := by
  obtain ⟨hgiven, hne⟩ : given info.progressPool = true ∧
      info.progressPool ≠ poolAt abt primary := by simpa [foreign] using h
  rw [resolveProgressPool, if_neg (fun heq => hne heq.2), if_pos hgiven]

/-- Otherwise the progress pool is one of the parent's. -/
theorem resolveProgressPool_own
    (hprimary : findPoolByName abt (some "__primary__") = some primary)
    (hfield : parentPoolFieldValidate config "progress_pool" abt = .ok ())
    (hthread : (config.get "use_progress_thread").present = false)
    (h : foreign abt primary info.progressPool = false) :
    ∃ p, resolveProgressPool r info config primary abt = (abt, some p) ∧
      inRange abt p = true := by
  obtain ⟨hlt, -⟩ := List.findIdx?_eq_some_iff_getElem.mp hprimary
  have hin : inRange abt primary = true := by simp [inRange, hlt]
  unfold resolveProgressPool
  split
  · exact ⟨primary, rfl, hin⟩
  · next hne =>
      split
      · next hgiven =>
          have heq : info.progressPool = poolAt abt primary := by
            simpa [foreign, hgiven] using h
          exact absurd ⟨heq ▸ given_obj hgiven, heq⟩ hne
      · split
        · next hpres => exact ⟨_, rfl, fieldPool_inRange hfield hprimary hpres⟩
        · rw [getBoolean_of_absent hthread]
          exact ⟨primary, rfl, hin⟩

/-- A foreign pool is added as the RPC pool. -/
theorem resolveRpcPool_foreign {progress : Int}
    (hp : foreign abt primary info.progressPool = false)
    (h : foreign abt primary info.rpcPool = true) :
    resolveRpcPool r info config primary (poolAt abt primary) progress abt =
      useExternalPool r.rpcPool info.rpcPool abt := by
  obtain ⟨hgiven, hne⟩ : given info.rpcPool = true ∧ info.rpcPool ≠ poolAt abt primary := by
    simpa [foreign] using h
  have hother : ¬(given info.progressPool = true ∧ info.rpcPool = info.progressPool) := by
    rintro ⟨-, heq⟩
    rw [← heq, h] at hp
    cases hp
  rw [resolveRpcPool, if_neg (fun heq => hne heq.2), if_neg hother, if_pos hgiven]

/-- Otherwise the RPC pool is one of the parent's. -/
theorem resolveRpcPool_own (progress : Int)
    (hprimary : findPoolByName abt (some "__primary__") = some primary)
    (hfield : parentPoolFieldValidate config "rpc_pool" abt = .ok ())
    (hcount : (config.get "rpc_thread_count").present = false)
    (h : foreign abt primary info.rpcPool = false) :
    resolveRpcPool r info config primary (poolAt abt primary) progress abt =
        (abt, some (parentRpcPool info config primary abt)) ∧
      inRange abt (parentRpcPool info config primary abt) = true := by
  obtain ⟨hlt, -⟩ := List.findIdx?_eq_some_iff_getElem.mp hprimary
  have hin : inRange abt primary = true := by simp [inRange, hlt]
  unfold resolveRpcPool parentRpcPool
  split
  · exact ⟨rfl, hin⟩
  · next hne =>
      have hgiven : ¬given info.rpcPool = true := by
        intro hgiven
        have heq : info.rpcPool = poolAt abt primary := by simpa [foreign, hgiven] using h
        exact hne ⟨heq ▸ given_obj hgiven, heq⟩
      have hother : ¬(given info.progressPool = true ∧ info.rpcPool = info.progressPool) :=
        fun hsame => hgiven (hsame.2 ▸ hsame.1)
      rw [if_neg hother, if_neg hgiven]
      split
      · next hpres => exact ⟨rfl, fieldPool_inRange hfield hprimary hpres⟩
      · rw [getInt_of_absent hcount]
        exact ⟨rfl, hin⟩

/-- Whatever the RPC pool of a child is, no pool goes away. -/
theorem length_le_resolveRpcPool {pool : PoolHandle} {progress : Int}
    (hcount : (config.get "rpc_thread_count").present = false) :
    abt.pools.length ≤
      (resolveRpcPool r info config primary pool progress abt).1.pools.length := by
  unfold resolveRpcPool
  split
  · exact le_rfl
  · split
    · exact le_rfl
    · split
      · cases hadds : addsExternal r.rpcPool none info.rpcPool abt with
        | false =>
            rw [useExternalPool_of_not_adds hadds]
        | true =>
            obtain ⟨abt', heq, hlen⟩ := useExternalPool_of_adds hadds
            rw [heq]
            exact hlen ▸ Nat.le_succ _
      · split
        · exact le_rfl
        · rw [getInt_of_absent hcount]
          exact le_rfl

/-- The environment that the resolution reaches is that of its last addition. -/
theorem resolvePools_fst {abt₁ : MargoAbt} {p : Int}
    (hprimary : findPoolByName abt (some "__primary__") = some primary)
    (hp : resolveProgressPool r info config primary abt = (abt₁, some p)) :
    (resolvePools r info config abt).1 =
      (resolveRpcPool r info config primary (poolAt abt primary) p abt₁).1 := by
  simp only [resolvePools, hprimary, hp]
  split
  · next heq => rw [heq]
  · next heq =>
      rw [heq]
      split <;> rfl

/-- The outcomes of the resolution for a child. -/
theorem resolvePools_cases (r : ResolveReplies) (info : InitInfo) {hg plumber : Json → Check}
    (hv : validateJsonWithParent hg plumber abt config = .ok ())
    (hprimary : findPoolByName abt (some "__primary__") = some primary) :
    if foreign abt primary info.progressPool then
      if addsExternal r.progressPool none info.progressPool abt then
        abt.pools.length < (resolvePools r info config abt).1.pools.length
      else resolvePools r info config abt = (abt, none)
    else if foreign abt primary info.rpcPool then
      if addsExternal r.rpcPool none info.rpcPool abt then
        abt.pools.length < (resolvePools r info config abt).1.pools.length
      else resolvePools r info config abt = (abt, none)
    else
      ∃ p, resolvePools r info config abt =
          (abt, some (p, (parentRpcPool info config primary abt).toNat)) ∧
        inRange abt (parentRpcPool info config primary abt) = true := by
  obtain ⟨hthread, hcount, hprogress, hrpc⟩ := validateJsonWithParent_ok hv
  split
  · next hforeign =>
      have hp : resolveProgressPool r info config primary abt =
          useExternalPool r.progressPool info.progressPool abt :=
        resolveProgressPool_foreign hforeign
      split
      · next hadds =>
          obtain ⟨abt₁, heq, hlen⟩ := useExternalPool_of_adds hadds
          rw [resolvePools_fst hprimary (hp.trans heq)]
          calc
            abt.pools.length < abt₁.pools.length := hlen ▸ Nat.lt_succ_self _
            _ ≤ _ := length_le_resolveRpcPool hcount
      · next hadds =>
          rw [Bool.not_eq_true] at hadds
          simp only [resolvePools, hprimary, hp, useExternalPool_of_not_adds hadds]
  · next hforeign =>
      rw [Bool.not_eq_true] at hforeign
      obtain ⟨p, hp, hin⟩ :=
        resolveProgressPool_own (r := r) hprimary hprogress hthread hforeign
      split
      · next hforeign' =>
          have hq : resolveRpcPool r info config primary (poolAt abt primary) p abt =
              useExternalPool r.rpcPool info.rpcPool abt :=
            resolveRpcPool_foreign hforeign hforeign'
          split
          · next hadds =>
              obtain ⟨abt₁, heq, hlen⟩ := useExternalPool_of_adds hadds
              rw [resolvePools_fst hprimary hp, hq, heq]
              exact hlen ▸ Nat.lt_succ_self _
          · next hadds =>
              rw [Bool.not_eq_true] at hadds
              simp only [resolvePools, hprimary, hp, hq, useExternalPool_of_not_adds hadds]
      · next hforeign' =>
          rw [Bool.not_eq_true] at hforeign'
          obtain ⟨hq, hin'⟩ :=
            resolveRpcPool_own (r := r) p hprimary hrpc hcount hforeign'
          refine ⟨p.toNat, ?_, hin'⟩
          simp only [resolvePools, hprimary, hp, hq, hin, hin', Bool.and_self, if_true]

end

/-! ## Registrations -/

section

variable {r : RegisterReplies} {hgClass id : Nat} {w : World}

/-- What a registration through the handler pool does to the environment. -/
theorem registerName_abt (r : RegisterReplies) (hgClass id : Nat) (mid : Abt.Instance)
    (w : World) :
    (margoProviderRegisterName r hgClass mid id .poolNull w).1.abt =
      if counted r hgClass id w then updateRefcount incr32 (poolAt w.abt mid.rpcPoolIdx) w.abt
      else w.abt := by
  unfold margoProviderRegisterName margoRegisterInternal counted hasData
  cases r.track with
  | false => rfl
  | true =>
      cases r.register with
      | false => rfl
      | true =>
          cases hstore : r.alloc && r.registerData with
          | false =>
              rcases w.rpcs.lookup (hgClass, id) with _ | _ | pool <;> rfl
          | true =>
              rcases w.rpcs.lookup (hgClass, id) with _ | _ | pool <;> rfl

/-- A registration that does not count its pool stores no data either. -/
theorem hasData_register (h : counted r hgClass id w = false) (mid : Abt.Instance)
    (hgClass' id' : Nat) :
    hasData hgClass' id' (margoProviderRegisterName r hgClass mid id .poolNull w).1 =
      hasData hgClass' id' w := by
  unfold margoProviderRegisterName margoRegisterInternal
  unfold counted at h
  cases htrack : r.track with
  | false => rfl
  | true =>
      cases hregister : r.register with
      | false => rfl
      | true =>
          obtain ⟨hnone, hstore⟩ : hasData hgClass id w = false ∧
              (r.alloc && r.registerData) = false := by
            simpa [htrack, hregister] using h
          have hkept : hasData hgClass' id'
              { w with rpcs := KeyedList.assign (hgClass, id) none w.rpcs } =
              hasData hgClass' id' w := by
            unfold hasData
            rw [KeyedList.lookup_assign]
            split_ifs with heq
            · obtain ⟨rfl, rfl⟩ := Prod.mk.inj heq
              exact hnone.symm
            · rfl
          unfold hasData at hnone
          rcases hlook : w.rpcs.lookup (hgClass, id) with _ | _ | pool
          · simpa [hstore] using hkept
          · simpa [hstore] using hkept
          · rw [hlook] at hnone
            cases hnone

theorem poolAt_updateRefcount (f : Nat → Nat) (h : PoolHandle) (abt : MargoAbt) (i : Nat) :
    poolAt (updateRefcount f h abt) i = poolAt abt i := by
  have hmap := handles_updateRefcount f h abt
  have hget := congrArg (·[i]?) hmap
  simp only [handles, List.getElem?_map] at hget
  rw [poolAt, hget, poolAt]

theorem findPoolByHandle_updateRefcount (f : Nat → Nat) (h h' : PoolHandle) (abt : MargoAbt) :
    findPoolByHandle (updateRefcount f h abt) h' = findPoolByHandle abt h' := by
  have hfind : ∀ abt : MargoAbt, findPoolByHandle abt h' =
      if h' = .poolNull then none else (handles abt).findIdx? (· == h') := by
    intro abt
    rw [handles, List.findIdx?_map]
    rfl
  rw [hfind, hfind, handles_updateRefcount]

/-- The entry behind a handle after `n` updates. -/
theorem getElem?_iterate_updateRefcount {f : Nat → Nat} {h : PoolHandle} {i : Nat} {p : Pool}
    (n : Nat) {abt : MargoAbt} (hfind : findPoolByHandle abt h = some i)
    (hp : abt.pools[i]? = some p) :
    ((updateRefcount f h)^[n] abt).pools[i]? = some { p with refcount := f^[n] p.refcount } := by
  induction n generalizing abt p with
  | zero => exact hp
  | succ n ih =>
      have hone : (updateRefcount f h abt).pools[i]? =
          some { p with refcount := f p.refcount } := by
        simp [updateRefcount, hfind, poolTable, hp]
      rw [Function.iterate_succ_apply, ih ((findPoolByHandle_updateRefcount f h h abt).trans hfind)
        hone, Function.iterate_succ_apply]

/-- Counting a pool changes the array, unless there is no such pool. -/
theorem pools_iterate_updateRefcount {n : Nat} (hn : n < 2 ^ 32) (h : PoolHandle) (abt : MargoAbt) :
    ((updateRefcount incr32 h)^[n] abt).pools = abt.pools ↔
      n = 0 ∨ findPoolByHandle abt h = none := by
  constructor
  · intro heq
    cases hfind : findPoolByHandle abt h with
    | none => exact Or.inr rfl
    | some i =>
        left
        by_contra hne
        obtain ⟨-, p, hp, -⟩ := findPoolByHandle_some hfind
        have hget := getElem?_iterate_updateRefcount (f := incr32) n hfind hp
        rw [heq, hp] at hget
        have hcount : p.refcount = incr32^[n] p.refcount :=
          congrArg Pool.refcount (Option.some.inj hget)
        exact incr32_iterate_ne (Nat.pos_of_ne_zero hne) hn p.refcount hcount.symm
  · rintro (rfl | hnone)
    · rfl
    · have hfixed : updateRefcount incr32 h abt = abt := by rw [updateRefcount, hnone]
      rw [Function.iterate_fixed hfixed]

/-- The two registrations count the RPC pool at most twice. -/
theorem registerOwn_abt (r : ChildReplies) (args : ChildArgs) (mid : Abt.Instance) (w : World) :
    ∃ n ≤ 2, (registerOwn r args mid w).1.abt =
        (updateRefcount incr32 (poolAt w.abt mid.rpcPoolIdx))^[n] w.abt ∧
      (n = 0 ↔ counted r.shutdown args.hgClass args.shutdownId w = false ∧
        counted r.identity args.hgClass args.identityId w = false) := by
  have hown : (registerOwn r args mid w).1 =
      (margoProviderRegisterName r.identity args.hgClass mid args.identityId .poolNull
        (margoProviderRegisterName r.shutdown args.hgClass mid args.shutdownId .poolNull w).1).1 :=
    rfl
  rw [hown, registerName_abt]
  have hfirst := registerName_abt r.shutdown args.hgClass args.shutdownId mid w
  cases hs : counted r.shutdown args.hgClass args.shutdownId w with
  | false =>
      -- The second registration reads the table as the first one left it.
      have hsame := hasData_register hs mid args.hgClass args.identityId
      rw [hs, if_neg Bool.false_ne_true] at hfirst
      rw [hfirst, counted, hsame, ← counted]
      cases counted r.identity args.hgClass args.identityId w with
      | false => exact ⟨0, by omega, rfl, by simp⟩
      | true => exact ⟨1, by omega, rfl, by simp⟩
  | true =>
      rw [hs, if_pos rfl] at hfirst
      rw [hfirst, poolAt_updateRefcount]
      split
      · exact ⟨2, le_rfl, rfl, by simp⟩
      · exact ⟨1, by omega, rfl, by simp⟩

end

/-! ## A failed call -/

section

variable {r : ChildReplies} {args : ChildArgs} {mid : Abt.Instance} {s : Family}

theorem hgDestroy_abt (args : ChildArgs) (w : World) : (hgDestroy args w).abt = w.abt := by
  unfold hgDestroy
  split <;> rfl

theorem xstreams_iterate_updateRefcount (f : Nat → Nat) (h : PoolHandle) (n : Nat)
    (abt : MargoAbt) : ((updateRefcount f h)^[n] abt).xstreams = abt.xstreams := by
  induction n generalizing abt with
  | zero => rfl
  | succ n ih =>
      rw [Function.iterate_succ_apply, ih, updateRefcount]
      split <;> rfl

theorem length_iterate_updateRefcount (f : Nat → Nat) (h : PoolHandle) (n : Nat)
    (abt : MargoAbt) : ((updateRefcount f h)^[n] abt).pools.length = abt.pools.length := by
  induction n generalizing abt with
  | zero => rfl
  | succ n ih =>
      have hlen := congrArg List.length (handles_updateRefcount f h abt)
      simp only [handles, List.length_map] at hlen
      rw [Function.iterate_succ_apply, ih, hlen]

/-- The pool in a slot is found, unless it is `ABT_POOL_NULL`. -/
theorem findPoolByHandle_poolAt_iff {abt : MargoAbt} {i : Nat} (hi : i < abt.pools.length) :
    findPoolByHandle abt (poolAt abt i) = none ↔ poolAt abt i = .poolNull := by
  constructor
  · intro hnone
    exact (findPoolByHandle_none hnone).resolve_right fun hnot => hnot (poolAt_mem hi)
  · intro hnull
    rw [findPoolByHandle, if_pos hnull]

/-- The three failures from the allocation on. -/
theorem startChild_failed (hfail : (startChild r args mid s).2 = none) :
    (r.calloc = false ∧ (startChild r args mid s).1 = ⟨s.parent, hgDestroy args s.world⟩) ∨
    (r.calloc = true ∧ r.setUp args = false ∧
      (startChild r args mid s).1 =
        ⟨margoInstanceRelease (margoInstanceRefIncr s.parent), hgDestroy args s.world⟩) ∨
    (r.calloc = true ∧ r.setUp args = true ∧
      (startChild r args mid s).1 =
        ⟨margoInstanceRelease (margoInstanceRefIncr s.parent),
          hgDestroy args (registerOwn r args mid s.world).1⟩) := by
  unfold startChild at hfail ⊢
  cases hcalloc : r.calloc with
  | false => exact Or.inl ⟨rfl, rfl⟩
  | true =>
      cases hsetUp : r.setUp args with
      | false => exact Or.inr (Or.inl ⟨rfl, rfl, rfl⟩)
      | true =>
          rw [hcalloc, hsetUp] at hfail
          cases hthread : r.threadCreate with
          | false => exact Or.inr (Or.inr ⟨rfl, rfl, rfl⟩)
          | true =>
              rw [hthread] at hfail
              cases hfail

/-- No pool is added or removed from the allocation on. -/
theorem length_startChild (hfail : (startChild r args mid s).2 = none) :
    (startChild r args mid s).1.world.abt.pools.length = s.world.abt.pools.length := by
  obtain ⟨-, heq⟩ | ⟨-, -, heq⟩ | ⟨-, -, heq⟩ := startChild_failed hfail
  · rw [heq, hgDestroy_abt]
  · rw [heq, hgDestroy_abt]
  · obtain ⟨n, -, habt, -⟩ := registerOwn_abt r args mid s.world
    rw [heq, hgDestroy_abt, habt, length_iterate_updateRefcount]

/-- What a failure from the allocation on leaves. -/
theorem startChild_untouched_iff (href : s.parent.refcount < 2 ^ 32)
    (hin : mid.rpcPoolIdx < s.world.abt.pools.length)
    (hfail : (startChild r args mid s).2 = none) :
    Untouched s (startChild r args mid s).1 ↔
      (r.calloc = true → (0 < s.parent.refcount ∧ s.parent.refcount + 1 < 2 ^ 32) ∧
        (r.setUp args = true → poolAt s.world.abt mid.rpcPoolIdx = .poolNull ∨
          counted r.shutdown args.hgClass args.shutdownId s.world = false ∧
            counted r.identity args.hgClass args.identityId s.world = false)) := by
  obtain ⟨hcalloc, heq⟩ | ⟨hcalloc, hsetUp, heq⟩ | ⟨hcalloc, hsetUp, heq⟩ :=
    startChild_failed hfail
  · rw [heq, hcalloc]
    refine ⟨fun _ h => absurd h Bool.false_ne_true, fun _ => ⟨?_, ?_, rfl⟩⟩ <;>
      rw [hgDestroy_abt]
  · rw [heq, hcalloc, hsetUp, ← release_refIncr_iff href]
    constructor
    · exact fun h _ => ⟨h.parent, fun h => absurd h Bool.false_ne_true⟩
    · refine fun h => ⟨?_, ?_, (h rfl).1⟩ <;> rw [hgDestroy_abt]
  · obtain ⟨n, hn, habt, hcounted⟩ := registerOwn_abt r args mid s.world
    have hpools := pools_iterate_updateRefcount (show n < 2 ^ 32 by omega)
      (poolAt s.world.abt mid.rpcPoolIdx) s.world.abt
    rw [findPoolByHandle_poolAt_iff hin, hcounted, or_comm] at hpools
    rw [heq, hcalloc, hsetUp, ← release_refIncr_iff href, ← hpools]
    constructor
    · intro h _
      refine ⟨h.parent, fun _ => ?_⟩
      rw [← habt, ← hgDestroy_abt args]
      exact h.pools
    · intro h
      refine ⟨?_, ?_, (h rfl).1⟩
      · rw [hgDestroy_abt, habt]
        exact (h rfl).2 rfl
      · rw [hgDestroy_abt, habt, xstreams_iterate_updateRefcount]

end

theorem untouched_of_abt {s : Family} {w : World} (heq : w.abt = s.world.abt) :
    Untouched s ⟨s.parent, w⟩ :=
  ⟨by rw [heq], by rw [heq], rfl⟩

/-- A call that has added a pool and fails leaves it behind. -/
theorem joinParent_touched {r : ChildReplies} {args : ChildArgs} {config : Json} {s : Family}
    (hadds : s.world.abt.pools.length <
      (resolvePools r.resolve args.pools config s.world.abt).1.pools.length)
    (hfail : (joinParent r args config s).2 = none) :
    ¬Untouched s (joinParent r args config s).1 := by
  intro h
  have hlen := congrArg List.length h.pools
  revert hfail hadds hlen
  unfold joinParent
  rcases resolvePools r.resolve args.pools config s.world.abt with ⟨abt, _ | ⟨progress, rpc⟩⟩
  · intro hadds _ hlen
    rw [hgDestroy_abt] at hlen
    exact Nat.ne_of_gt hadds hlen
  · intro hadds hfail hlen
    rw [length_startChild hfail] at hlen
    exact Nat.ne_of_gt hadds hlen

/-- What a failure from the search for the primary pool on leaves. -/
theorem joinParent_untouched_iff {r : ChildReplies} {hg plumber : Json → Check}
    {args : ChildArgs} {j : Json} {s : Family} {i : Nat} (href : s.parent.refcount < 2 ^ 32)
    (hv : validateJsonWithParent hg plumber s.world.abt j = .ok ())
    (hprimary : findPoolByName s.world.abt (some "__primary__") = some i)
    (hfail : (joinParent r args j s).2 = none) :
    Untouched s (joinParent r args j s).1 ↔ LeavesParent r args j i s := by
  unfold LeavesParent
  have hcases := resolvePools_cases r.resolve args.pools hv hprimary
  have hunresolved : resolvePools r.resolve args.pools j s.world.abt = (s.world.abt, none) →
      Untouched s (joinParent r args j s).1 := by
    intro hnone
    rw [joinParent, hnone]
    exact untouched_of_abt (hgDestroy_abt args _)
  split at hcases
  · next hforeign =>
      rw [if_pos hforeign]
      split at hcases
      · next hadds => exact iff_of_false (joinParent_touched hcases hfail) (by simp [hadds])
      · next hadds => exact iff_of_true (hunresolved hcases) (Bool.eq_false_iff.mpr hadds)
  · next hforeign =>
      rw [if_neg hforeign]
      split at hcases
      · next hforeign' =>
          rw [if_pos hforeign']
          split at hcases
          · next hadds => exact iff_of_false (joinParent_touched hcases hfail) (by simp [hadds])
          · next hadds => exact iff_of_true (hunresolved hcases) (Bool.eq_false_iff.mpr hadds)
      · next hforeign' =>
          rw [if_neg hforeign']
          obtain ⟨p, hresolve, hin⟩ := hcases
          have hlt : (parentRpcPool args.pools j i s.world.abt).toNat <
              s.world.abt.pools.length := by
            simp only [inRange, Bool.and_eq_true, decide_eq_true_eq] at hin
            omega
          rw [joinParent, hresolve] at hfail ⊢
          exact startChild_untouched_iff href hlt hfail

/-- A call that fails leaves the parent and its environment as they were exactly
if it has added no pool, can give its reference back and has counted no pool. -/
theorem failed_child_untouched_iff {r : ChildReplies} {hg plumber : Json → Check}
    {args : ChildArgs} {config : Option Json} {s : Family} (href : s.parent.refcount < 2 ^ 32)
    (hfail : (initChild r hg plumber args config s).2 = none) :
    Untouched s (initChild r hg plumber args config s).1 ↔
      Restores r hg plumber args config s := by
  cases config with
  | none =>
      refine iff_of_true (untouched_of_abt rfl) ?_
      rintro j i ⟨⟩
  | some j =>
      unfold initChild at hfail ⊢
      dsimp only at hfail ⊢
      cases hv : validateJsonWithParent hg plumber s.world.abt j with
      | error e =>
          refine iff_of_true (untouched_of_abt rfl) ?_
          rintro j' i ⟨⟩ hok
          rw [hv] at hok
          cases hok
      | ok u =>
          cases hinit : r.hgInit with
          | false =>
              refine iff_of_true (untouched_of_abt rfl) ?_
              intro j' i _ _ hok
              rw [hinit] at hok
              cases hok
          | true =>
              rw [hv, hinit] at hfail
              cases hprimary : findPoolByName s.world.abt (some "__primary__") with
              | none =>
                  have hnone : resolvePools r.resolve args.pools j s.world.abt =
                      (s.world.abt, none) := by rw [resolvePools, hprimary]
                  refine iff_of_true ?_ ?_
                  · change Untouched s (joinParent r args j s).1
                    rw [joinParent, hnone]
                    exact untouched_of_abt (hgDestroy_abt args _)
                  · intro j' i _ _ _ hfound
                    rw [hprimary] at hfound
                    cases hfound
              | some i =>
                  refine (joinParent_untouched_iff href hv hprimary hfail).trans ⟨?_, ?_⟩
                  · rintro h j' i' ⟨⟩ - - hfound
                    rw [hprimary] at hfound
                    cases hfound
                    exact h
                  · intro h
                    exact h j i rfl hv hinit hprimary

/-- A running parent with two pools. -/
def parentFamily : Family := ⟨Shutdown.freshInstance 0 1, parentOnly⟩

/-- Everything is granted. -/
def childGranted : ChildReplies where
  hgInit := true
  resolve := ⟨granted 100, fun n => granted (101 + n), granted 100, fun n => granted (101 + n)⟩
  calloc := true
  handleCache := true
  requestArena := true
  handleDataArena := true
  keyCreate := true
  monitorAlloc := true
  shutdown := answered
  identity := answered
  threadCreate := true

/-- Everything is granted but the handle cache. -/
def cacheRefused : ChildReplies := { childGranted with handleCache := false }

/-- A child with a class of its own. -/
def childArgs (progressPool rpcPool : PoolHandle) : ChildArgs :=
  ⟨⟨progressPool, rpcPool⟩, 1, true, false, 1, 2⟩

theorem failed_child_untouched_cacheRefused :
    Untouched parentFamily
      (initChild cacheRefused (fun _ => pure ()) (fun _ => pure ()) (childArgs (.obj 0) .null)
        (some (.object [("rpc_pool", .string "p")])) parentFamily).1 := by
  refine (failed_child_untouched_iff (by decide) (by decide)).mpr ?_
  rintro j i ⟨⟩ - - hprimary
  obtain rfl : 0 = i := Option.some.inj hprimary
  decide

/-- The external progress pool is new to the parent and is added, the external
RPC pool is one of the parent's and is refused. -/
theorem failed_child_leaves_pool :
    ¬∀ (r : ChildReplies) (hg plumber : Json → Check) (args : ChildArgs)
      (config : Option Json) (s : Family), s.parent.refcount < 2 ^ 32 →
      (initChild r hg plumber args config s).2 = none →
      Untouched s (initChild r hg plumber args config s).1 := by
  intro hall
  have huntouched := hall childGranted (fun _ => pure ()) (fun _ => pure ())
    (childArgs (.obj 7) (.obj 5)) (some (.object [])) parentFamily (by decide) (by decide)
  exact absurd (congrArg List.length huntouched.pools) (by decide)

end Margo.Init
