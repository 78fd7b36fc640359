import Margo.Lib.Links
import Margo.Lib.Runs

/-!
# The `prio_wait` pool

The custom pool of `margo-prio-pool.c`: two circular lists of units, a counter
of units, a counter of pops and the flag and push counter of every unit.

## Implementation notes

The fields of the units are functions of the unit, so that a store is an update
of one of them; `none` as a whole result is a run into a null pointer. The
number of units is an unbounded integer, the counter of pops a 32-bit word.
A call of `pool_pop` can be interrupted between its test of `num` and its
mutex section, one of `pool_pop_timedwait` while it waits on the condition
variable; what it does afterwards is the same whether it was signalled or ran
into its timeout. The push counter belongs to the thread that pushes the unit,
so a push is one step.
-/

namespace Margo.Pool.Prio

open Function Lib.Runs

/-- `SCHED_COUNTER_PRIORITY_LIMIT`. -/
def schedCounterPriorityLimit : Nat := 25

/-- The fields of all `unit_t`. -/
structure Mem (α : Type*) where
  prev : α → Option α
  next : α → Option α
  schedCounter : α → Nat
  isInPool : α → Bool

/-- `queue_t`. -/
structure Queue (α : Type*) where
  tail : Option α
  head : Option α

/-- `pool_t`, without its mutex and condition variable. -/
structure PoolT (α : Type*) where
  highPrioQueue : Queue α
  lowPrioQueue : Queue α
  num : Int
  cnt : BitVec 32

variable {α : Type*}

/-- `pool_unit_create_from_thread` and `pool_unit_create_from_task`, for all
units. -/
def createdUnits : Mem α := ⟨fun _ => none, fun _ => none, fun _ => 0, fun _ => false⟩

/-- `pool_init`. -/
def poolInit : PoolT α := ⟨⟨none, none⟩, ⟨none, none⟩, 0, 0⟩

variable [DecidableEq α]

/-! ## Queues -/

/-- `queue_push`. -/
def queuePush (m : Mem α) (q : Queue α) (unit : α) : Option (Mem α × Queue α) :=
  match q.head with
  | none =>
      some ({ m with
        next := update m.next unit (some unit)
        prev := update m.prev unit (some unit)
        isInPool := update m.isInPool unit true }, ⟨some unit, some unit⟩)
  | some head =>
      q.tail.map fun tail =>
        ({ m with
          next := update (update m.next tail (some unit)) unit (some head)
          prev := update (update m.prev head (some unit)) unit (some tail)
          isInPool := update m.isInPool unit true }, { q with tail := some unit })

/-- The last stores of `queue_pop`. -/
def unlinked (m : Mem α) (unit : α) : Mem α :=
  { m with
    next := update m.next unit none
    prev := update m.prev unit none
    isInPool := update m.isInPool unit false }

/-- `queue_pop`. -/
def queuePop (m : Mem α) (q : Queue α) : Option (Mem α × Queue α × Option α) :=
  match q.head with
  | none => some (m, q, none)
  | some unit =>
      if q.head = q.tail then some (unlinked m unit, ⟨none, none⟩, some unit)
      else do
        let before ← m.prev unit
        let m := { m with next := update m.next before (m.next unit) }
        let after ← m.next unit
        let m := { m with prev := update m.prev after (m.prev unit) }
        return (unlinked m unit, { q with head := m.next unit }, some unit)

/-! ## The pool -/

/-- The push counter of a unit is incremented up to the limit. -/
def countPush (m : Mem α) (unit : α) : Mem α :=
  if m.schedCounter unit < schedCounterPriorityLimit then
    { m with schedCounter := update m.schedCounter unit (m.schedCounter unit + 1) }
  else m

/-- `pool_push`: the queue depends on the counter before the push. -/
def poolPush (m : Mem α) (pool : PoolT α) (unit : α) : Option (Mem α × PoolT α) :=
  let schedCounter := m.schedCounter unit
  let m := countPush m unit
  if schedCounter = 0 ∨ schedCounterPriorityLimit ≤ schedCounter then
    (queuePush m pool.lowPrioQueue unit).map fun (m, q) =>
      (m, { pool with lowPrioQueue := q, num := pool.num + 1 })
  else
    (queuePush m pool.highPrioQueue unit).map fun (m, q) =>
      (m, { pool with highPrioQueue := q, num := pool.num + 1 })

/-- `queue_pop(&p_pool->high_prio_queue)`. -/
def popHigh (m : Mem α) (pool : PoolT α) : Option (Mem α × PoolT α × Option α) :=
  (queuePop m pool.highPrioQueue).map fun (m, q, unit) =>
    (m, { pool with highPrioQueue := q }, unit)

/-- `queue_pop(&p_pool->low_prio_queue)`. -/
def popLow (m : Mem α) (pool : PoolT α) : Option (Mem α × PoolT α × Option α) :=
  (queuePop m pool.lowPrioQueue).map fun (m, q, unit) =>
    (m, { pool with lowPrioQueue := q }, unit)

/-- Pop from one queue, and from the other if that one was empty. -/
def popEither (first second : Mem α → PoolT α → Option (Mem α × PoolT α × Option α))
    (m : Mem α) (pool : PoolT α) : Option (Mem α × PoolT α × Option α) :=
  match first m pool with
  | some (m, pool, none) => second m pool
  | result => result

/-- The loop body that the two ways to pop have in common, and the update of the
number of units after it. -/
def popUnit (m : Mem α) (pool : PoolT α) : Option (Mem α × PoolT α × Option α) :=
  let fromHigh := pool.cnt &&& 0xFF ≠ 0
  let pool := { pool with cnt := pool.cnt + 1 }
  (if fromHigh then popEither popHigh popLow m pool else popEither popLow popHigh m pool).map
    fun (m, pool, unit) =>
      (m, if unit.isSome then { pool with num := pool.num - 1 } else pool, unit)

/-- `pool_pop`, without interruption. -/
def poolPop (m : Mem α) (pool : PoolT α) : Option (Mem α × PoolT α × Option α) :=
  if pool.num = 0 then some (m, pool, none) else popUnit m pool

/-- `pool_pop_timedwait`, where `wait` is what the others do to the pool while the
call waits. -/
def poolPopTimedwait (wait : Mem α × PoolT α → Mem α × PoolT α) (m : Mem α) (pool : PoolT α) :
    Option (Mem α × PoolT α × Option α) :=
  let (m, pool) := if pool.num = 0 then wait (m, pool) else (m, pool)
  popUnit m pool

/-- The value of `ABT_SUCCESS`. -/
def abtSuccess : Int := 0

/-- The first half of `pool_remove`: the unit before this one is linked to the
unit after it; without one the head of the queue is moved. -/
def removeBefore (m : Mem α) (pool : PoolT α) (unit : α) : Mem α × PoolT α :=
  match m.prev unit with
  | some before => ({ m with next := update m.next before (m.next unit) }, pool)
  | none =>
      if pool.highPrioQueue.head = some unit then
        (m, { pool with highPrioQueue := { pool.highPrioQueue with head := m.next unit } })
      else if pool.lowPrioQueue.head = some unit then
        (m, { pool with lowPrioQueue := { pool.lowPrioQueue with head := m.next unit } })
      else (m, pool)

/-- The second half of `pool_remove`, for the other direction and the tail. -/
def removeAfter (m : Mem α) (pool : PoolT α) (unit : α) : Mem α × PoolT α :=
  match m.next unit with
  | some after => ({ m with prev := update m.prev after (m.prev unit) }, pool)
  | none =>
      if pool.highPrioQueue.tail = some unit then
        (m, { pool with highPrioQueue := { pool.highPrioQueue with tail := m.prev unit } })
      else if pool.lowPrioQueue.tail = some unit then
        (m, { pool with lowPrioQueue := { pool.lowPrioQueue with tail := m.prev unit } })
      else (m, pool)

/-- `pool_remove`. -/
def poolRemove (m : Mem α) (pool : PoolT α) (unit : α) : Int × Mem α × PoolT α :=
  let (m, pool) := removeBefore m pool unit
  let (m, pool) := removeAfter m pool unit
  (abtSuccess, m, { pool with num := pool.num - 1 })

/-! ## Interleavings -/

/-- The pool, its units and the calls in progress. -/
structure State (α : Type*) where
  mem : Mem α
  pool : PoolT α
  /-- The calls of `pool_pop` that have found `num` not to be 0. -/
  tested : Nat
  /-- The calls of `pool_pop_timedwait` that wait. -/
  waiting : Nat
  /-- What the calls have returned, in order. -/
  returned : List (Option α)

/-- The steps: a push, the test and the mutex section of `pool_pop`, and the
mutex section of `pool_pop_timedwait` up to its wait and after it. -/
inductive Label (α : Type*)
  | push (unit : α)
  | popTest
  | popLocked
  | timedwait
  | wake
  deriving DecidableEq, Repr

/-- A mutex section that pops a unit and returns it. -/
def State.pop (s : State α) : Option (State α) :=
  (popUnit s.mem s.pool).map fun (mem, pool, unit) =>
    { s with mem, pool, returned := s.returned ++ [unit] }

/-- A unit is only pushed if it is not in the pool; a call only goes on if it is
in progress. -/
def Allowed (s : State α) : Label α → Prop
  | .push unit => s.mem.isInPool unit = false
  | .popLocked => 0 < s.tested
  | .wake => 0 < s.waiting
  | .popTest | .timedwait => True

instance (s : State α) (l : Label α) : Decidable (Allowed s l) :=
  match l with
  | .push unit => inferInstanceAs (Decidable (s.mem.isInPool unit = false))
  | .popLocked => inferInstanceAs (Decidable (0 < s.tested))
  | .wake => inferInstanceAs (Decidable (0 < s.waiting))
  | .popTest | .timedwait => inferInstanceAs (Decidable True)

/-- What a step does if it is allowed. -/
def act (s : State α) : Label α → Option (State α)
  | .push unit => (poolPush s.mem s.pool unit).map fun (mem, pool) => { s with mem, pool }
  | .popTest =>
      if s.pool.num = 0 then some { s with returned := s.returned ++ [none] }
      else some { s with tested := s.tested + 1 }
  | .popLocked => State.pop { s with tested := s.tested - 1 }
  | .timedwait =>
      if s.pool.num = 0 then some { s with waiting := s.waiting + 1 } else s.pop
  | .wake => State.pop { s with waiting := s.waiting - 1 }

def step (s : State α) (l : Label α) : Option (State α) :=
  if Allowed s l then act s l else none

/-- A new pool, and units that were never pushed. -/
def initial : State α := ⟨createdUnits, poolInit, 0, 0, []⟩

end Margo.Pool.Prio
