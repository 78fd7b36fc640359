import Margo.Init.Config
import Margo.Rpc.Registration
import Margo.Shutdown.Model

/-!
# The initialization of a child

`margo_init_ext` with `parent_mid`: the validation against the pools of the
parent, the pools that are added to the environment of the parent, the
reference taken on the parent, the RPCs that the child registers itself, and
the label `error`.

## Implementation notes

The call runs alone. Every way in which it can fail is an answer of its
environment. What concerns only the child is left out: its Mercury
configuration, logger, monitor and timers. A Mercury class that Margo created
takes what is registered with it along; a class of the user stays.
-/

namespace Margo.Init

open Lib Abt Rpc

/-! ## Validation -/

/-- The check of `progress_pool` or `rpc_pool` against the pools of the parent. -/
def parentPoolFieldValidate (config : Json) (key : String) (abt : MargoAbt) : Check :=
  let field := config.get key
  if !field.present then pure ()
  else if field.isType .int then
    if field.getInt < 0 ∨ (abt.pools.length : Int) ≤ field.getInt then
      throw ("Invalid \"" ++ key ++ "\" index (" ++ toString field.getInt ++ ")")
    else pure ()
  else if field.isType .string then
    if field.getString ≠ "__primary__" ∧
        findPoolByName abt (some field.getString) = none then
      throw ("Could not find pool named \"" ++ field.getString ++ "\" in parent's pool list")
    else pure ()
  else throw ("\"" ++ key ++ "\" field in configuration should be an integer or a string")

/-- A field that a child must not have; `article` is that of the message. -/
def rejectField (config : Json) (article key : String) : Check :=
  if (config.get key).present then
    throw ("Margo instance initialized with a parent cannot have " ++ article ++ " \"" ++ key ++
      "\" configuration")
  else pure ()

/-- `__margo_validate_json_with_parent`. -/
def validateJsonWithParent (hgValidate plumberValidate : Json → Check) (abt : MargoAbt)
    (config : Json) : Check := do
  hgValidate (config.get "mercury")
  rejectField config "an" "argobots"
  rejectField config "a" "use_progress_thread"
  rejectField config "an" "rpc_thread_count"
  plumberValidate (config.get "plumber")
  positiveField config "progress_spindown_msec"
  positiveField config "progress_timeout_ub_msec"
  positiveField config "handle_cache_size"
  parentPoolFieldValidate config "progress_pool" abt
  parentPoolFieldValidate config "rpc_pool" abt

/-! ## The reference on the parent -/

/-- `margo_finalize`, from its call to its return. -/
def margoFinalize (mid : Shutdown.Instance) : Shutdown.Instance :=
  if mid.shutdownState &&& Shutdown.MARGO_PENDING_MASK ≠ 0 then Shutdown.requestFinalize mid
  else
    let mid := { Shutdown.requestFinalize mid with
      teardowns := mid.teardowns + 1
      refcount := decr32 mid.refcount
      finalizeFlag := true
      broadcasts := mid.broadcasts + 1 }
    if Shutdown.doCleanup mid then { mid with cleanups := mid.cleanups + 1 } else mid

/-- `margo_instance_ref_incr`. -/
def margoInstanceRefIncr (mid : Shutdown.Instance) : Shutdown.Instance :=
  { mid with refcount := incr32 mid.refcount }

/-- `margo_instance_release`, from its call to its return. -/
def margoInstanceRelease (mid : Shutdown.Instance) : Shutdown.Instance :=
  if mid.refcount = 0 then mid
  else
    let mid := { mid with refcount := decr32 mid.refcount }
    if mid.refcount = 0 then
      if mid.finalizeFlag then { mid with cleanups := mid.cleanups + 1 }
      else margoFinalize (margoInstanceRefIncr mid)
    else mid

/-! ## The call -/

/-- A parent, and the environment that it shares with its children. -/
structure Family where
  parent : Shutdown.Instance
  world : World

/-- The arguments of the call. `hgClass` is the Mercury class of the child, which
Margo creates unless `args.hg_class` is set. -/
structure ChildArgs where
  pools : InitInfo
  hgClass : Nat
  ownsClass : Bool
  monitor : Bool
  shutdownId : Nat
  identityId : Nat

/-- The answers to the calls of `margo_init_ext`, in their order. -/
structure ChildReplies where
  hgInit : Bool
  resolve : ResolveReplies
  calloc : Bool
  handleCache : Bool
  requestArena : Bool
  handleDataArena : Bool
  keyCreate : Bool
  monitorAlloc : Bool
  shutdown : RegisterReplies
  identity : RegisterReplies
  threadCreate : Bool

/-- Everything between the reference on the parent and the first registration
succeeds. -/
def ChildReplies.setUp (r : ChildReplies) (args : ChildArgs) : Bool :=
  r.handleCache && (r.requestArena && r.handleDataArena) && r.keyCreate &&
    (!args.monitor || r.monitorAlloc)

/-- `__margo_hg_destroy`. -/
def hgDestroy (args : ChildArgs) (w : World) : World :=
  if args.ownsClass then { w with rpcs := w.rpcs.filter fun e => e.1.1 ≠ args.hgClass } else w

/-- The child registers its own two RPCs. -/
def registerOwn (r : ChildReplies) (args : ChildArgs) (mid : Abt.Instance) (w : World) :
    World × Nat × Nat :=
  let (w, shutdownRpcId) :=
    margoProviderRegisterName r.shutdown args.hgClass mid args.shutdownId .poolNull w
  let (w, identityRpcId) :=
    margoProviderRegisterName r.identity args.hgClass mid args.identityId .poolNull w
  (w, shutdownRpcId, identityRpcId)

/-- From the allocation of the child on. -/
def startChild (r : ChildReplies) (args : ChildArgs) (mid : Abt.Instance) (s : Family) :
    Family × Option Live :=
  if !r.calloc then (⟨s.parent, hgDestroy args s.world⟩, none)
  else
    let parent := margoInstanceRefIncr s.parent
    if !r.setUp args then (⟨margoInstanceRelease parent, hgDestroy args s.world⟩, none)
    else
      let (w, shutdownRpcId, identityRpcId) := registerOwn r args mid s.world
      if !r.threadCreate then (⟨margoInstanceRelease parent, hgDestroy args w⟩, none)
      else
        let l : Live := ⟨args.hgClass, mid, shutdownRpcId, identityRpcId⟩
        (⟨parent, { w with live := l :: w.live }⟩, some l)

/-- From the search for the primary pool on. -/
def joinParent (r : ChildReplies) (args : ChildArgs) (config : Json) (s : Family) :
    Family × Option Live :=
  match resolvePools r.resolve args.pools config s.world.abt with
  | (abt, none) => (⟨s.parent, hgDestroy args (s.world.withAbt abt)⟩, none)
  | (abt, some (progress, rpc)) =>
      startChild r args ⟨progress, rpc⟩ ⟨s.parent, s.world.withAbt abt⟩

/-- `margo_init_ext` with a parent. The configuration is `none` if it cannot be
parsed. -/
def initChild (r : ChildReplies) (hgValidate plumberValidate : Json → Check) (args : ChildArgs)
    (config : Option Json) (s : Family) : Family × Option Live :=
  match config with
  | none => (s, none)
  | some config =>
      match validateJsonWithParent hgValidate plumberValidate s.world.abt config with
      | .error _ => (s, none)
      | .ok () => if !r.hgInit then (s, none) else joinParent r args config s

/-! ## Taking and giving back a reference -/

section

open Lib.Runs

variable {mid mid' : Shutdown.Instance} {t : Shutdown.Thread} {ts : List Shutdown.Thread}
  {as : List Shutdown.Label} {s : Shutdown.State}

/-- One step of a thread that runs alone. -/
theorem alone_cons (h : Shutdown.threadStep mid t false = some (mid', ts))
    (tail : Run Shutdown.step Any ⟨mid', ts⟩ as s) :
    Run Shutdown.step Any ⟨mid, [t]⟩ ((0, false) :: as) s := by
  refine Run.cons ?_ trivial tail
  simp [Shutdown.step, Lib.ThreadPool.step, h]

/-- A call of `margo_finalize` that nothing interrupts. -/
theorem margoFinalize_run (mid : Shutdown.Instance) :
    ∃ as, Run Shutdown.step Any ⟨mid, [.finalize .user]⟩ as ⟨margoFinalize mid, []⟩ := by
  unfold margoFinalize
  split
  · next hpending =>
      exact ⟨_, alone_cons (by rw [Shutdown.threadStep, if_pos hpending]; rfl) (Run.nil _)⟩
  · next hpending =>
      have hstart : Shutdown.threadStep mid (.finalize .user) false =
          some ({ Shutdown.requestFinalize mid with teardowns := mid.teardowns + 1 },
            [.prefinalize .user]) := by
        rw [Shutdown.threadStep, if_neg hpending]
      set torn : Shutdown.Instance := { Shutdown.requestFinalize mid with
        teardowns := mid.teardowns + 1
        refcount := decr32 mid.refcount
        finalizeFlag := true }
      have hbroadcast : Shutdown.threadStep torn (.broadcast .user (Shutdown.doCleanup torn))
          false = some ({ torn with broadcasts := torn.broadcasts + 1 },
            if Shutdown.doCleanup torn then [.cleanup .user] else []) := rfl
      dsimp only
      split
      · next hcleanup =>
          rw [if_pos (show Shutdown.doCleanup torn = true from hcleanup)] at hbroadcast
          exact ⟨_, alone_cons hstart (alone_cons rfl (alone_cons rfl (alone_cons rfl
            (alone_cons rfl (alone_cons hbroadcast (alone_cons rfl (Run.nil _)))))))⟩
      · next hcleanup =>
          rw [if_neg (show ¬Shutdown.doCleanup torn = true from hcleanup)] at hbroadcast
          exact ⟨_, alone_cons hstart (alone_cons rfl (alone_cons rfl (alone_cons rfl
            (alone_cons rfl (alone_cons hbroadcast (Run.nil _))))))⟩

/-- A call of `margo_instance_release` that nothing interrupts. -/
theorem margoInstanceRelease_run (mid : Shutdown.Instance) :
    ∃ as, Run Shutdown.step Any ⟨mid, [.holder]⟩ as ⟨margoInstanceRelease mid, []⟩ := by
  unfold margoInstanceRelease
  split
  · next hzero =>
      refine ⟨_, alone_cons ?_ (Run.nil _)⟩
      exact congrArg some (Prod.ext rfl (if_pos hzero))
  · next hpos =>
      have hstart : Shutdown.threadStep mid .holder false = some (mid, [.relDecr]) :=
        congrArg some (Prod.ext rfl (if_neg hpos))
      dsimp only
      split
      · next hlast =>
          have hdecr : Shutdown.threadStep mid .relDecr false =
              some ({ mid with refcount := decr32 mid.refcount }, [.relFlag]) :=
            congrArg some (Prod.ext rfl (if_pos hlast))
          have hread : Shutdown.threadStep { mid with refcount := decr32 mid.refcount } .relFlag
              false = some ({ mid with refcount := decr32 mid.refcount },
                if mid.finalizeFlag then [.cleanup .user] else [.relIncr]) := rfl
          split
          · next hflag =>
              rw [if_pos hflag] at hread
              exact ⟨_, alone_cons hstart (alone_cons hdecr (alone_cons hread
                (alone_cons rfl (Run.nil _))))⟩
          · next hflag =>
              rw [if_neg hflag] at hread
              obtain ⟨as, hfinalize⟩ := margoFinalize_run
                (margoInstanceRefIncr { mid with refcount := decr32 mid.refcount })
              exact ⟨_, alone_cons hstart (alone_cons hdecr (alone_cons hread
                (alone_cons rfl hfinalize)))⟩
      · next hlast =>
          refine ⟨_, alone_cons hstart (alone_cons ?_ (Run.nil _))⟩
          exact congrArg some (Prod.ext rfl (if_neg hlast))

end

/-- A call of `margo_finalize` is deferred, or it tears the instance down. -/
theorem margoFinalize_cases (mid : Shutdown.Instance) :
    (margoFinalize mid).refcount = mid.refcount ∨
      (margoFinalize mid).teardowns = mid.teardowns + 1 := by
  unfold margoFinalize
  split
  · exact Or.inl rfl
  · right
    dsimp only
    split <;> rfl

/-- The release of the last reference. -/
theorem margoInstanceRelease_last {mid : Shutdown.Instance} (h : mid.refcount = 1) :
    margoInstanceRelease mid =
      if mid.finalizeFlag then { mid with refcount := 0, cleanups := mid.cleanups + 1 }
      else margoFinalize mid := by
  have hdecr : decr32 mid.refcount = 0 := by rw [h]; rfl
  have hback : margoInstanceRefIncr { mid with refcount := 0 } = mid := by
    obtain ⟨_, _, _, _, _, _, _, _⟩ := mid
    subst h
    rfl
  have hne : mid.refcount ≠ 0 := by omega
  rw [margoInstanceRelease, if_neg hne]
  simp only [hdecr, if_true, hback]

/-- A reference that is taken and given back leaves the parent as it was exactly
if the count was neither 0 nor at its end. -/
theorem release_refIncr_iff {mid : Shutdown.Instance} (hlt : mid.refcount < 2 ^ 32) :
    margoInstanceRelease (margoInstanceRefIncr mid) = mid ↔
      0 < mid.refcount ∧ mid.refcount + 1 < 2 ^ 32 := by
  constructor
  · intro h
    by_contra hends
    obtain hzero | hmax : mid.refcount = 0 ∨ mid.refcount + 1 = 2 ^ 32 := by omega
    · -- The reference taken is the only one, so that giving it back finalizes.
      have hone : (margoInstanceRefIncr mid).refcount = 1 := by
        rw [margoInstanceRefIncr, hzero]
        rfl
      rw [margoInstanceRelease_last hone] at h
      split at h
      · have hcleanups := congrArg Shutdown.Instance.cleanups h
        exact absurd hcleanups (Nat.succ_ne_self _)
      · obtain href | htear := margoFinalize_cases (margoInstanceRefIncr mid)
        · rw [h, hone, hzero] at href
          cases href
        · rw [h] at htear
          exact absurd htear.symm (Nat.succ_ne_self _)
    · -- The increment wraps to 0, and the release of such a count does nothing.
      have hincr : incr32 mid.refcount = 0 := by rw [incr32, hmax, Nat.mod_self]
      have hrefs := congrArg Shutdown.Instance.refcount h
      simp only [margoInstanceRelease, margoInstanceRefIncr, hincr, if_true] at hrefs
      omega
  · rintro ⟨hpos, hmax⟩
    have hincr : incr32 mid.refcount = mid.refcount + 1 := incr32_of_lt hmax
    have hdecr : decr32 (mid.refcount + 1) = mid.refcount := decr32_of_pos (Nat.succ_pos _)
    simp only [margoInstanceRelease, margoInstanceRefIncr, hincr, hdecr,
      Nat.succ_ne_zero, if_false, Nat.ne_of_gt hpos]

end Margo.Init
