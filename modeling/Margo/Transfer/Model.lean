import Margo.Lib.MachineInt
import Margo.Lib.Runs
import Margo.Request.Model
import Mathlib.Algebra.GroupWithZero.Nat
import Mathlib.Logic.Function.Basic

/-!
# Parallel bulk transfers

`margo_bulk_parallel_transfer` with its two loops: one issues the chunks, the
other waits for them. The calls of `margo_cb` for the chunks that were issued
run at any time in between.

## Implementation notes

The transfers are numbered in the order in which they are issued. Each one has
an eventual of its own, with the same number, and writes to the request it was
issued with; the index of the request wraps with the loop counter, which is an
`unsigned`. The array of requests is allocated. `margo_cb` is one step: what it
does with a request after it has set the eventual is looked at with the
requests of the arena.
-/

namespace Margo.Transfer

open Lib Request

/-- The arguments of the call and what its environment answers. -/
structure Call where
  originOffset : Nat
  localOffset : Nat
  size : Nat
  chunkSize : Nat
  /-- What the calls reply that issue the transfer with some number. -/
  replies : Nat → Replies
  /-- `info->ret` at the completion of the transfer with some number. -/
  outcome : Nat → HgReturn
  /-- `HG_INVALID_PARAM`. -/
  invalidParam : HgReturn

/-- `margo_bulk_itransfer_internal` without a timeout, on a zeroed request. -/
def Call.issue (c : Call) (k : Nat) : HgReturn :=
  (bulkItransferInternal (c.replies k) 0 .eventual).hret

/-- The number of chunks. -/
def Call.count (c : Call) : Nat :=
  let count := c.size / c.chunkSize
  if SizeT.mul count c.chunkSize < c.size then SizeT.add count 1 else count

/-- A transfer that was issued, with the index of its request. -/
structure Chunk where
  originOffset : Nat
  localOffset : Nat
  length : Nat
  request : Nat
  deriving DecidableEq, Repr

/-- A `margo_request_struct` in the array. -/
structure Slot where
  /-- The number of its eventual. -/
  ev : Nat
  hret : HgReturn
  deriving DecidableEq, Repr

/-- Where the call is. -/
inductive Point
  /-- At the test of the first loop. -/
  | issuing (i : Nat)
  /-- At the test of the second loop. -/
  | waiting (i j : Nat) (hret : HgReturn)
  /-- The array has been freed. -/
  | returned (hret : HgReturn)
  deriving DecidableEq, Repr

/-- The variables of the call, its requests, and the eventuals. -/
structure State where
  point : Point
  originOffset : Nat
  localOffset : Nat
  chunkSize : Nat
  remainingSize : Nat
  issued : List Chunk
  request : Nat → Slot
  /-- The transfers whose `margo_cb` has run. -/
  completed : List Nat
  /-- The eventuals that are set. -/
  ready : List Nat
  /-- The eventuals that have been waited for and freed. -/
  freed : List Nat

/-- The call before its first loop. -/
def start (c : Call) : State where
  point := if c.chunkSize = 0 then .returned c.invalidParam else .issuing 0
  originOffset := c.originOffset
  localOffset := c.localOffset
  chunkSize := c.chunkSize
  remainingSize := c.size
  issued := []
  request _ := ⟨0, .success⟩
  completed := []
  ready := []
  freed := []

/-- The next action of the call, or the completion of a transfer. -/
inductive Label
  | call
  | complete (k : Nat)
  deriving DecidableEq, Repr

/-- The chunk size of the next iteration. -/
def State.nextSize (s : State) : Nat :=
  if s.remainingSize < s.chunkSize then s.remainingSize else s.chunkSize

/-- The body of the first loop. -/
def State.issue (c : Call) (s : State) (i : Nat) : State :=
  let k := s.issued.length
  let chunkSize := s.nextSize
  let request := Function.update s.request i { s.request i with ev := k }
  if c.issue k ≠ .success then
    { s with chunkSize := chunkSize, request := request, point := .waiting i 0 (c.issue k) }
  else
    { s with
      chunkSize := chunkSize
      request := request
      issued := s.issued ++ [⟨s.originOffset, s.localOffset, chunkSize, i⟩]
      originOffset := SizeT.add s.originOffset chunkSize
      localOffset := SizeT.add s.localOffset chunkSize
      point := .issuing (incr32 i) }

/-- The body of the second loop, once the eventual is ready. -/
def State.wait (s : State) (i j : Nat) (hret : HgReturn) : State :=
  let hretWait := waitInternal .bulk (s.request j).hret ⟨.success, true, .success, .success⟩
  let s := { s with freed := (s.request j).ev :: s.freed }
  if hret = .success ∧ hretWait ≠ .success then
    { s with point := .returned hretWait }
  else
    { s with point := .waiting i (incr32 j) hret }

/-- `margo_cb` for a transfer. -/
def State.complete (c : Call) (s : State) (k : Nat) (x : Chunk) : State :=
  { s with
    request := Function.update s.request x.request
      { s.request x.request with hret := margoCb (c.outcome k) false }
    completed := k :: s.completed
    ready := (s.request x.request).ev :: s.ready }

/-- One step; a wait for an eventual that is not ready is none. -/
def step (c : Call) (s : State) : Label → Option State
  | .call =>
      match s.point with
      | .issuing i =>
          if i < c.count then some (s.issue c i)
          else some { s with point := .waiting i 0 .success }
      | .waiting i j hret =>
          if j < i then
            if (s.request j).ev ∈ s.ready then some (s.wait i j hret) else none
          else some { s with point := .returned hret }
      | .returned _ => none
  | .complete k =>
      match s.issued[k]? with
      | none => none
      | some x => if k ∈ s.completed then none else some (s.complete c k x)

/-! ## What a step does -/

@[simp] theorem waitInternal_bulk (hret : HgReturn) (out : Output) :
    waitInternal .bulk hret out = hret := by
  unfold waitInternal
  split
  · rfl
  · next h => simpa using (not_not.mp h).symm

@[simp] theorem margoCb_false (ret : HgReturn) : margoCb ret false = ret := by simp [margoCb]

/-- The cases of a step, with their conditions. -/
inductive Effect (c : Call) (s : State) : State → Prop
  | issued {i} (hpoint : s.point = .issuing i) (hi : i < c.count)
      (hissue : c.issue s.issued.length = .success) :
      Effect c s { s with
        chunkSize := s.nextSize
        request := Function.update s.request i { s.request i with ev := s.issued.length }
        issued := s.issued ++ [⟨s.originOffset, s.localOffset, s.nextSize, i⟩]
        originOffset := SizeT.add s.originOffset s.nextSize
        localOffset := SizeT.add s.localOffset s.nextSize
        point := .issuing (incr32 i) }
  | refused {i} (hpoint : s.point = .issuing i) (hi : i < c.count)
      (hissue : c.issue s.issued.length ≠ .success) :
      Effect c s { s with
        chunkSize := s.nextSize
        request := Function.update s.request i { s.request i with ev := s.issued.length }
        point := .waiting i 0 (c.issue s.issued.length) }
  | exit {i} (hpoint : s.point = .issuing i) (hi : ¬i < c.count) :
      Effect c s { s with point := .waiting i 0 .success }
  | waited {i j hret} (hpoint : s.point = .waiting i j hret) (hj : j < i)
      (hready : (s.request j).ev ∈ s.ready)
      (hgo : ¬(hret = .success ∧ (s.request j).hret ≠ .success)) :
      Effect c s { s with
        freed := (s.request j).ev :: s.freed
        point := .waiting i (incr32 j) hret }
  | failed {i j} (hpoint : s.point = .waiting i j .success) (hj : j < i)
      (hready : (s.request j).ev ∈ s.ready) (hfail : (s.request j).hret ≠ .success) :
      Effect c s { s with
        freed := (s.request j).ev :: s.freed
        point := .returned (s.request j).hret }
  | ended {i j hret} (hpoint : s.point = .waiting i j hret) (hj : ¬j < i) :
      Effect c s { s with point := .returned hret }
  | completed {k x} (hx : s.issued[k]? = some x) (hk : k ∉ s.completed) :
      Effect c s { s with
        request := Function.update s.request x.request
          { s.request x.request with hret := c.outcome k }
        completed := k :: s.completed
        ready := (s.request x.request).ev :: s.ready }

theorem step_cases {c : Call} {s s' : State} {a : Label} (h : step c s a = some s') :
    Effect c s s' := by
  cases a with
  | call =>
      cases hpoint : s.point with
      | issuing i =>
          simp only [step, hpoint] at h
          split at h
          · next hi =>
              obtain rfl := Option.some.inj h
              by_cases hissue : c.issue s.issued.length = .success
              · rw [State.issue, if_neg (not_not.mpr hissue)]
                exact .issued hpoint hi hissue
              · rw [State.issue, if_pos hissue]
                exact .refused hpoint hi hissue
          · next hi => exact Option.some.inj h ▸ .exit hpoint hi
      | waiting i j hret =>
          simp only [step, hpoint] at h
          split at h
          · next hj =>
              split at h
              · next hready =>
                  obtain rfl := Option.some.inj h
                  unfold State.wait
                  simp only [waitInternal_bulk]
                  split
                  · next hfail =>
                      obtain ⟨rfl, hfail⟩ := hfail
                      exact .failed hpoint hj hready hfail
                  · next hgo => exact .waited hpoint hj hready hgo
              · cases h
          · next hj => exact Option.some.inj h ▸ .ended hpoint hj
      | returned hret =>
          simp only [step, hpoint] at h
          cases h
  | complete k =>
      simp only [step] at h
      split at h
      · cases h
      · next x hx =>
          split at h
          · cases h
          · next hk =>
              obtain rfl := Option.some.inj h
              rw [State.complete, margoCb_false]
              exact .completed hx hk

/-- An execution from the start of the call. -/
def Reaches (c : Call) (s : State) : Prop :=
  ∃ as, Runs.Run (step c) Runs.Any (start c) as s

theorem reaches_start (c : Call) : Reaches c (start c) := ⟨[], Runs.Run.nil _⟩

theorem Reaches.step {c : Call} {s s' : State} {a : Label} (hs : Reaches c s)
    (hstep : step c s a = some s') : Reaches c s' := by
  obtain ⟨as, hrun⟩ := hs
  exact ⟨as ++ [a], hrun.append (Runs.Run.cons hstep trivial (Runs.Run.nil s'))⟩

end Margo.Transfer
