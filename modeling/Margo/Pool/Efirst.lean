import Margo.Lib.BinaryHeap
import Margo.Lib.Runs
import Mathlib.Logic.Function.Basic

/-!
# The `earliest_first` pool

The custom pool of `margo-efirst-pool.c`: a binary heap of units by priority, a
linked list of the units that were pushed often, and the flags of every unit.

## Implementation notes

The fields of the units are functions of the unit; `none` as a whole result is
an access outside of the array or to a null pointer. Sizes are unbounded, the
priority, the two counters of the pool and the flags have their widths. What
`realloc` appends is not initialized, so the new cells stay empty. The two
loads of the fast path of `pool_pop` are two steps, and the mutex section is
one; a call of `pool_pop_timedwait` can wait between the test and the pop, and
goes on in the same way after a signal and after its timeout.
-/

namespace Margo.Pool.Efirst

open Function Lib.BinaryHeap Lib.Runs

/-- `IS_IN_POOL`. -/
def isInPool : BitVec 8 := 0x1

/-- `IS_THREAD`. -/
def isThread : BitVec 8 := 0x2

/-- The fields of all `unit_t`. -/
structure Mem (α : Type*) where
  priority : α → BitVec 64
  flag : α → BitVec 8
  csCount : α → Nat
  next : α → Option α

/-- `queue_t`. -/
structure Queue (α : Type*) where
  pops : BitVec 64
  entries : Cells α
  prioSize : Nat
  first : Option α
  last : Option α
  fifoSize : Nat

/-- `pool_t`, without its mutex and condition variable. -/
structure PoolT (α : Type*) where
  queue : Queue α
  num : BitVec 64

variable {α : Type*}

/-- `pool_unit_create_from_thread` and `pool_unit_create_from_task`, for all
units. -/
def createdUnits (thread : α → Bool) : Mem α :=
  ⟨fun _ => 0, fun unit => if thread unit then isThread else 0, fun _ => 0, fun _ => none⟩

/-- `create_queue`. -/
def createQueue (initialCapacity : Nat) : Queue α :=
  ⟨0, ⟨fun _ => none, initialCapacity⟩, 0, none, none, 0⟩

/-- `pool_init`. -/
def poolInit : PoolT α := ⟨createQueue 32, 0⟩

/-- Priorities are compared by value. -/
def Mem.key (m : Mem α) (unit : α) : Nat := (m.priority unit).toNat

variable [DecidableEq α]

/-! ## Pushes -/

/-- `p_unit->flag |= IS_IN_POOL`. -/
def Mem.setInPool (m : Mem α) (unit : α) : Mem α :=
  { m with flag := update m.flag unit (m.flag unit ||| isInPool) }

/-- `p_unit->flag ^= IS_IN_POOL`. -/
def Mem.flipInPool (m : Mem α) (unit : α) : Mem α :=
  { m with flag := update m.flag unit (m.flag unit ^^^ isInPool) }

/-- The array is doubled if it is full. -/
def Queue.grown (queue : Queue α) : Queue α :=
  if queue.entries.capacity ≤ queue.prioSize then
    { queue with entries := { queue.entries with capacity := queue.entries.capacity * 2 } }
  else queue

/-- `queue_push_prio`. -/
def queuePushPrio (m : Mem α) (queue : Queue α) (unit : α) : Option (Mem α × Queue α) :=
  let size := queue.prioSize + 1
  let queue := queue.grown
  (siftUp m.key unit queue.entries size).map fun entries =>
    (m.setInPool unit, { queue with entries, prioSize := size })

/-- `queue_push_fifo`. -/
def queuePushFifo (m : Mem α) (queue : Queue α) (unit : α) : Option (Mem α × Queue α) :=
  let m := { m with next := update m.next unit none }
  if queue.fifoSize = 0 then
    some (m.setInPool unit,
      { queue with first := some unit, last := some unit, fifoSize := queue.fifoSize + 1 })
  else
    queue.last.map fun last =>
      let m := { m with next := update m.next last (some unit) }
      (m.setInPool unit, { queue with last := some unit, fifoSize := queue.fifoSize + 1 })

/-- `queue_push`. -/
def queuePush (m : Mem α) (queue : Queue α) (unit : α) : Option (Mem α × Queue α) :=
  if m.csCount unit < 32 then
    (queuePushPrio m queue unit).map fun (m, queue) =>
      ({ m with csCount := update m.csCount unit (m.csCount unit + 1) }, queue)
  else queuePushFifo m queue unit

/-- A unit that has no priority gets the next one. -/
def assignPriority (m : Mem α) (num : BitVec 64) (unit : α) : Mem α × BitVec 64 :=
  if m.priority unit = 0 then
    ({ m with priority := update m.priority unit (num + 1) }, num + 1)
  else (m, num)

/-- `pool_push`. -/
def poolPush (m : Mem α) (pool : PoolT α) (unit : α) : Option (Mem α × PoolT α) :=
  let (m, num) := assignPriority m pool.num unit
  (queuePush m pool.queue unit).map fun (m, queue) => (m, ⟨queue, num⟩)

/-! ## Pops -/

/-- `queue_pop_prio`. -/
def queuePopPrio (m : Mem α) (queue : Queue α) : Option (Mem α × Queue α × Option α) :=
  match queue.prioSize with
  | 0 => some (m, queue, none)
  | size + 1 => do
      let minEntry ← queue.entries.read 1
      let lastEntry ← queue.entries.read (size + 1)
      let entries ← siftDown m.key lastEntry size queue.entries 1
      return (m.flipInPool minEntry, { queue with entries, prioSize := size }, some minEntry)

/-- `queue_pop_fifo`. -/
def queuePopFifo (m : Mem α) (queue : Queue α) : Option (Mem α × Queue α × Option α) :=
  if queue.fifoSize = 0 then some (m, queue, none)
  else
    queue.first.map fun unit =>
      let fifoSize := queue.fifoSize - 1
      let last := if fifoSize = 0 then none else queue.last
      let queue := { queue with first := m.next unit, last, fifoSize }
      let m := { m with next := update m.next unit none }
      (m.flipInPool unit, queue, some unit)

/-- `queue_pop`. -/
def queuePop (m : Mem α) (queue : Queue α) : Option (Mem α × Queue α × Option α) :=
  let queue := { queue with pops := queue.pops + 1 }
  if queue.pops % 2 = 0 then
    if 0 < queue.fifoSize then queuePopFifo m queue else queuePopPrio m queue
  else
    if 0 < queue.prioSize then queuePopPrio m queue else queuePopFifo m queue

/-! ## Interleavings -/

/-- The pool, its units and the calls in progress. -/
structure State (α : Type*) where
  mem : Mem α
  pool : PoolT α
  /-- The calls of `pool_pop` that have found `prio.size` to be 0. -/
  testing : Nat
  /-- The calls of `pool_pop` that go on to the mutex section. -/
  tested : Nat
  /-- The calls of `pool_pop_timedwait` that wait. -/
  waiting : Nat
  /-- What the calls have returned, in order. -/
  returned : List (Option α)

/-- The steps: a push, the two tests and the mutex section of `pool_pop`, and the
mutex section of `pool_pop_timedwait` up to its wait and after it. -/
inductive Label (α : Type*)
  | push (unit : α)
  | testPrio
  | testFifo
  | popLocked
  | timedwait
  | wake
  deriving DecidableEq, Repr

/-- A mutex section that pops a unit and returns it. -/
def State.pop (s : State α) : Option (State α) :=
  (queuePop s.mem s.pool.queue).map fun (mem, queue, unit) =>
    { s with mem, pool := { s.pool with queue }, returned := s.returned ++ [unit] }

/-- A unit is only pushed if it is not in the pool; a call only goes on if it is
in progress. -/
def Allowed (s : State α) : Label α → Prop
  | .push unit => s.mem.flag unit &&& isInPool = 0
  | .testFifo => 0 < s.testing
  | .popLocked => 0 < s.tested
  | .wake => 0 < s.waiting
  | .testPrio | .timedwait => True

instance (s : State α) (l : Label α) : Decidable (Allowed s l) :=
  match l with
  | .push unit => inferInstanceAs (Decidable (s.mem.flag unit &&& isInPool = 0))
  | .testFifo => inferInstanceAs (Decidable (0 < s.testing))
  | .popLocked => inferInstanceAs (Decidable (0 < s.tested))
  | .wake => inferInstanceAs (Decidable (0 < s.waiting))
  | .testPrio | .timedwait => inferInstanceAs (Decidable True)

/-- What a step does if it is allowed. -/
def act (s : State α) : Label α → Option (State α)
  | .push unit => (poolPush s.mem s.pool unit).map fun (mem, pool) => { s with mem, pool }
  | .testPrio =>
      if s.pool.queue.prioSize = 0 then some { s with testing := s.testing + 1 }
      else some { s with tested := s.tested + 1 }
  | .testFifo =>
      if s.pool.queue.fifoSize = 0 then
        some { s with testing := s.testing - 1, returned := s.returned ++ [none] }
      else some { s with testing := s.testing - 1, tested := s.tested + 1 }
  | .popLocked => State.pop { s with tested := s.tested - 1 }
  | .timedwait =>
      if s.pool.queue.prioSize = 0 ∧ s.pool.queue.fifoSize = 0 then
        some { s with waiting := s.waiting + 1 }
      else s.pop
  | .wake => State.pop { s with waiting := s.waiting - 1 }

def step (s : State α) (l : Label α) : Option (State α) :=
  if Allowed s l then act s l else none

/-- A new pool, and units that were never pushed. -/
def initial (thread : α → Bool) : State α := ⟨createdUnits thread, poolInit, 0, 0, 0, []⟩

end Margo.Pool.Efirst
