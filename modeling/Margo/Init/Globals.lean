import Margo.Lib.Runs
import Mathlib.Data.List.Count

/-!
# The process-wide instance count

`margo_init_ext` and `margo_cleanup` share `g_margo_num_instances` and
`g_margo_abt_init`: the count goes up in the middle of
`__margo_abt_init_from_json` and down in `__margo_abt_destroy`, which is called
by `margo_cleanup`, by the error path of `__margo_abt_init_from_json` and by
the error path of `margo_init_ext`.

## Implementation notes

An initialization is described by the stages of it that fail, in the order of
the source. `live` and `finalizes` are not read by the code: they record the
instances that exist and, for every call of `ABT_finalize`, how many
parent-less instances were alive when it was made.
-/

namespace Margo.Init

open Lib.Runs

/-- The points at which `margo_init_ext` can fail. -/
inductive Stage
  | jsonParse
  | validateJson
  | hgInit
  | abtInit
  | poolsAlloc
  | poolInit
  | xstreamsAlloc
  | xstreamInit
  | primaryMainPools
  | primaryPoolMismatch
  | primaryPoolInit
  | primaryXstreamInit
  | findPrimaryPool
  | progressPool
  | rpcPool
  | progressPoolIndex
  | rpcPoolIndex
  | sanityCheck
  | instanceAlloc
  | abtAlloc
  | handleCache
  | arenas
  | keyCreate
  | monitorAlloc
  | progressThread
  deriving DecidableEq, Repr

/-- Everything `__margo_abt_init_from_json` does after it has counted the
instance. -/
def abtConfigStages : List Stage :=
  [.poolsAlloc, .poolInit, .xstreamsAlloc, .xstreamInit, .primaryMainPools,
    .primaryPoolMismatch, .primaryPoolInit, .primaryXstreamInit]

/-- Everything `margo_init_ext` does after `__margo_abt_init_from_json`. -/
def laterStages : List Stage :=
  [.findPrimaryPool, .progressPool, .rpcPool, .progressPoolIndex, .rpcPoolIndex, .sanityCheck,
    .instanceAlloc, .abtAlloc, .handleCache, .arenas, .keyCreate, .monitorAlloc,
    .progressThread]

/-- A margo instance that exists. -/
structure Instance where
  id : Nat
  parent : Option Nat
  deriving DecidableEq, Repr

/-- The globals, the state of Argobots and the instances of the process. -/
structure Process where
  /-- `g_margo_num_instances`. -/
  numInstances : Int
  /-- `g_margo_abt_init`. -/
  abtInit : Bool
  /-- Whether `ABT_initialized` reports success. -/
  abtInitialized : Bool
  live : List Instance
  nextId : Nat
  finalizes : List Nat
  deriving DecidableEq, Repr

/-- The number of live instances without a parent. -/
def parentless (p : Process) : Nat := p.live.countP fun i => i.parent.isNone

/-- `__margo_abt_destroy`. -/
def abtDestroy (p : Process) : Process :=
  let p := { p with numInstances := p.numInstances - 1 }
  if p.numInstances = 0 ∧ p.abtInit then
    { p with
      abtInit := false
      abtInitialized := false
      finalizes := p.finalizes ++ [parentless p] }
  else p

/-- The configuration part of `__margo_abt_init_from_json`: pools, xstreams and
the primary pool and xstream. -/
def abtConfigure (fails : Stage → Bool) (p : Process) : Process × Bool :=
  if abtConfigStages.any fails then (abtDestroy p, false) else (p, true)

/-- `__margo_abt_init_from_json`. -/
def abtInitFromJson (fails : Stage → Bool) (p : Process) : Process × Bool :=
  if p.abtInitialized then
    abtConfigure fails { p with numInstances := p.numInstances + 1 }
  else if fails .abtInit then (abtDestroy p, false)
  else
    abtConfigure fails
      { p with abtInit := true, abtInitialized := true, numInstances := p.numInstances + 1 }

/-- The `error` label of `margo_init_ext`. -/
def initError (parent : Option Nat) (p : Process) : Process :=
  if parent.isSome then p else abtDestroy p

/-- `margo_init_ext` after `__margo_abt_init_from_json`. -/
def initLater (fails : Stage → Bool) (parent : Option Nat) (p : Process) : Process :=
  if laterStages.any fails then initError parent p
  else { p with live := ⟨p.nextId, parent⟩ :: p.live, nextId := p.nextId + 1 }

/-- `margo_init_ext`. -/
def margoInitExt (fails : Stage → Bool) (parent : Option Nat) (p : Process) : Process :=
  if fails .jsonParse then p
  else if fails .validateJson then initError parent p
  else if fails .hgInit then initError parent p
  else if parent.isSome then initLater fails parent p
  else
    match abtInitFromJson fails p with
    | (p, true) => initLater fails parent p
    | (p, false) => initError parent p

/-- `margo_cleanup`, as far as the globals are concerned. -/
def margoCleanup (i : Instance) (p : Process) : Process :=
  let p := { p with live := p.live.erase i }
  if i.parent.isNone then abtDestroy p else p

/-- The calls of the program. -/
inductive Op
  | init (fails : Stage → Bool) (parent : Option Nat)
  | cleanup (id : Nat)

/-- One call. A child needs a live parent, and only a live instance is cleaned
up. -/
def step (p : Process) : Op → Option Process
  | .init fails parent =>
      if parent.all fun id => p.live.any fun i => i.id == id then
        some (margoInitExt fails parent p)
      else none
  | .cleanup id => (p.live.find? fun i => i.id == id).map fun i => margoCleanup i p

/-- The process before the first call, with Argobots initialized by the program
or not. -/
def fresh (abtInitialized : Bool) : Process := ⟨0, false, abtInitialized, [], 0, []⟩

/-- The count is the number of live parent-less instances, and `ABT_finalize`
was never called while one was alive. -/
def Accounted (p : Process) : Prop :=
  p.numInstances = parentless p ∧ ∀ n ∈ p.finalizes, n = 0

/-- A parent-less `margo_init_ext` that does not fail in the validation of its
JSON, in Mercury or in `__margo_abt_init_from_json`; every other call. -/
def Clean (p : Process) : Op → Prop
  | .init fails none =>
      fails .jsonParse = true ∨ fails .validateJson = false ∧ fails .hgInit = false ∧
        (p.abtInitialized = false → fails .abtInit = false) ∧
        abtConfigStages.any fails = false
  | _ => True

theorem abtDestroy_spec (p : Process) :
    (abtDestroy p).numInstances = p.numInstances - 1 ∧
      parentless (abtDestroy p) = parentless p ∧
      ((abtDestroy p).finalizes = p.finalizes ∨
        p.numInstances = 1 ∧ (abtDestroy p).finalizes = p.finalizes ++ [parentless p]) := by
  unfold abtDestroy
  dsimp only
  split
  · next h => exact ⟨rfl, rfl, .inr ⟨by omega, rfl⟩⟩
  · exact ⟨rfl, rfl, .inl rfl⟩

/-- Destroying an environment that was counted restores the balance. -/
theorem accounted_abtDestroy {p : Process} (hn : p.numInstances = parentless p + 1)
    (hf : ∀ n ∈ p.finalizes, n = 0) : Accounted (abtDestroy p) := by
  obtain ⟨hnum, hlive, hlog⟩ := abtDestroy_spec p
  refine ⟨by omega, ?_⟩
  rcases hlog with hsame | ⟨hone, hmore⟩
  · rwa [hsame]
  · rw [hmore]
    intro n hn'
    rcases List.mem_append.mp hn' with hold | hnew
    · exact hf n hold
    · rw [List.mem_singleton.mp hnew]
      omega

/-- Destroying one that was not counted loses it. -/
theorem not_accounted_abtDestroy {p : Process} (hn : p.numInstances ≤ parentless p) :
    ¬Accounted (abtDestroy p) := by
  obtain ⟨hnum, hlive, -⟩ := abtDestroy_spec p
  rintro ⟨heq, -⟩
  omega

theorem accounted_initLater {fails : Stage → Bool} {p : Process}
    (hn : p.numInstances = parentless p + 1) (hf : ∀ n ∈ p.finalizes, n = 0) :
    Accounted (initLater fails none p) := by
  unfold initLater
  split
  · exact accounted_abtDestroy hn hf
  · refine ⟨?_, hf⟩
    simp [parentless] at hn ⊢
    omega

theorem initLater_child {fails : Stage → Bool} {p : Process} (id : Nat) :
    (initLater fails (some id) p).numInstances = p.numInstances ∧
      parentless (initLater fails (some id) p) = parentless p ∧
      (initLater fails (some id) p).finalizes = p.finalizes := by
  unfold initLater
  split
  · exact ⟨rfl, rfl, rfl⟩
  · exact ⟨rfl, by simp [parentless], rfl⟩

/-- A child never touches the globals. -/
theorem margoInitExt_child (fails : Stage → Bool) (p : Process) (id : Nat) :
    (margoInitExt fails (some id) p).numInstances = p.numInstances ∧
      parentless (margoInitExt fails (some id) p) = parentless p ∧
      (margoInitExt fails (some id) p).finalizes = p.finalizes := by
  unfold margoInitExt
  split_ifs with hparse hval hhg hsome
  · exact ⟨rfl, rfl, rfl⟩
  · exact ⟨rfl, rfl, rfl⟩
  · exact ⟨rfl, rfl, rfl⟩
  · exact initLater_child id
  · exact absurd rfl hsome

/-- The rest of `margo_init_ext` once the instance was counted: both error paths
destroy the environment when its configuration fails. -/
theorem accounted_configured (fails : Stage → Bool) {p : Process}
    (hn : p.numInstances = parentless p + 1) (hf : ∀ n ∈ p.finalizes, n = 0) :
    Accounted (match abtConfigure fails p with
      | (p, true) => initLater fails none p
      | (p, false) => initError none p) ↔ abtConfigStages.any fails = false := by
  unfold abtConfigure
  cases hany : abtConfigStages.any fails with
  | true =>
      have hbal := accounted_abtDestroy hn hf
      have hlost : ¬Accounted (abtDestroy (abtDestroy p)) :=
        not_accounted_abtDestroy (Int.le_of_eq hbal.1)
      simpa [initError] using hlost
  | false => simpa using accounted_initLater hn hf

/-- A parent-less initialization keeps the account exactly when it is clean. -/
theorem accounted_margoInitExt {fails : Stage → Bool} {p : Process} (h : Accounted p) :
    Accounted (margoInitExt fails none p) ↔ Clean p (.init fails none) := by
  have hlost : ¬Accounted (initError none p) :=
    not_accounted_abtDestroy (Int.le_of_eq h.1)
  simp only [margoInitExt, Clean]
  cases hparse : fails .jsonParse with
  | true => simpa using h
  | false =>
  cases hval : fails .validateJson with
  | true => simpa using hlost
  | false =>
  cases hhg : fails .hgInit with
  | true => simpa using hlost
  | false =>
      simp only [abtInitFromJson]
      cases hinit : p.abtInitialized with
      | true =>
          have hiff := accounted_configured fails
            (p := { p with numInstances := p.numInstances + 1 })
            (congrArg (· + 1) h.1) h.2
          simpa [hinit] using hiff
      | false =>
      cases habt : fails .abtInit with
      | true =>
          have hdest : (abtDestroy p).numInstances ≤ parentless (abtDestroy p) := by
            obtain ⟨hnum, hlive, -⟩ := abtDestroy_spec p
            have heq := h.1
            omega
          simpa [initError] using not_accounted_abtDestroy hdest
      | false =>
          have hiff := accounted_configured fails
            (p := { p with
              abtInit := true, abtInitialized := true, numInstances := p.numInstances + 1 })
            (congrArg (· + 1) h.1) h.2
          simpa using hiff

/-- Cleaning up a live instance keeps the account. -/
theorem accounted_margoCleanup {i : Instance} {p : Process} (h : Accounted p)
    (hi : i ∈ p.live) : Accounted (margoCleanup i p) := by
  have hcount := List.countP_erase (fun i : Instance => i.parent.isNone) p.live i
  have hpos : i.parent.isNone = true → 0 < parentless p := fun hp =>
    List.countP_pos_iff.mpr ⟨i, hi, hp⟩
  have hbal := h.1
  unfold margoCleanup
  split
  · next hp =>
      refine accounted_abtDestroy ?_ h.2
      have := hpos hp
      simp only [parentless, hi, hp, and_self, if_true] at *
      omega
  · next hp =>
      refine ⟨?_, h.2⟩
      simp only [hp, Bool.false_eq_true, and_false, if_false] at hcount
      simp only [parentless] at *
      omega

/-- The call concerns a child: it creates one or cleans one up. -/
def childOp (p : Process) : Op → Bool
  | .init _ parent => parent.isSome
  | .cleanup id => (p.live.find? fun i => i.id == id).any fun i => i.parent.isSome

theorem accounted_step {p p' : Process} {op : Op} (hp : Accounted p)
    (h : step p op = some p') : Accounted p' ↔ Clean p op := by
  cases op with
  | init fails parent =>
      simp only [step] at h
      split at h
      · obtain rfl := Option.some.inj h
        cases parent with
        | none => exact accounted_margoInitExt hp
        | some id =>
            obtain ⟨hnum, hlive, hlog⟩ := margoInitExt_child fails p id
            simpa only [Accounted, hnum, hlive, hlog, Clean, iff_true] using hp
      · cases h
  | cleanup id =>
      simp only [step, Option.map_eq_some_iff] at h
      obtain ⟨i, hfind, rfl⟩ := h
      exact iff_of_true (accounted_margoCleanup hp (List.mem_of_find?_eq_some hfind)) trivial

theorem childOp_step {p p' : Process} {op : Op} (h : step p op = some p')
    (hchild : childOp p op = true) : p'.numInstances = p.numInstances := by
  cases op with
  | init fails parent =>
      simp only [step] at h
      split at h
      · obtain rfl := Option.some.inj h
        cases parent with
        | none => cases hchild
        | some id => exact (margoInitExt_child fails p id).1
      · cases h
  | cleanup id =>
      simp only [step, Option.map_eq_some_iff] at h
      obtain ⟨i, hfind, rfl⟩ := h
      simp only [childOp, hfind, Option.any_some] at hchild
      unfold margoCleanup
      rw [if_neg (by cases hpar : i.parent <;> simp_all)]

/-- Global accounting: in every sequence of calls, the count is the number of
live parent-less instances and `ABT_finalize` is only called when there are
none, after every call, exactly when every call is clean. Children never change
the count. -/
theorem instance_accounting (abtInitialized : Bool) (ops : List Op) (p : Process) :
    (Run step (fun _ _ p' => Accounted p') (fresh abtInitialized) ops p ↔
      Run step (fun p op _ => Clean p op) (fresh abtInitialized) ops p) ∧
    ∀ q op q', step q op = some q' → childOp q op = true →
      q'.numInstances = q.numInstances := by
  refine ⟨?_, fun q op q' h hchild => childOp_step h hchild⟩
  have hfresh : Accounted (fresh abtInitialized) := ⟨rfl, by simp [fresh]⟩
  exact Run.invariant_iff accounted_step hfresh

instance (p : Process) : Decidable (Accounted p) := inferInstanceAs (Decidable (_ ∧ _))

/-- One instance is alive and a second `margo_init_ext` fails in the validation
of its JSON: the count drops to 0 and Argobots is finalized under the first. -/
theorem failed_init_finalizes_argobots :
    ¬∀ (abtInitialized : Bool) (ops : List Op) (p : Process),
      Run step Any (fresh abtInitialized) ops p → Accounted p := by
  intro hall
  have hrun : Run step Any (fresh false)
      [.init (fun _ => false) none, .init (fun stage => stage == .validateJson) none]
      ⟨0, false, false, [⟨0, none⟩], 1, [1]⟩ := run_of_exec (by decide)
  exact absurd (hall _ _ _ hrun) (by decide)

end Margo.Init
