import Margo.Lib.EndStack
import Margo.Lib.MachineInt
import Margo.Lib.Runs

/-!
# Pools of bulk handles

`margo_bulk_pool_get`, `margo_bulk_pool_tryget` and `margo_bulk_pool_release`
on the array of a pool, and the threads that call them. The critical section of
a call is one step.

## Implementation notes

A call on `MARGO_BULK_POOL_NULL` returns at once and is left out. The checks
that `margo_bulk_pool_release` makes before it takes the mutex read only fields
that no call changes, so they belong to its step. A thread that waits on the
condition may wake up at any time, signalled or not. What the threads were
handed is recorded beside the pool and is read by no call.
-/

namespace Margo.Bulk

open Lib

/-- `hg_bulk_t`. -/
abbrev Handle := Nat

/-- `HG_BULK_NULL`. -/
def null : Handle := 0

/-- What Mercury says of a bulk handle. -/
structure Mercury where
  /-- `margo_bulk_get_size`. -/
  getSize : Handle → Nat
  /-- `margo_bulk_access` for one segment from an offset, with a size and a
  flag: the address and the size of the segment, if it succeeds. -/
  access : Handle → Nat → Nat → Nat → Option (Nat × Nat)

/-- `struct margo_bulk_pool`. -/
structure Pool where
  buf : Nat
  bulks : List Handle
  count : Nat
  size : Nat
  numFree : Nat
  flag : Nat
  deriving DecidableEq, Repr

/-- `margo_bp_get`, unless it reads outside the array. -/
def Pool.bpGet (p : Pool) : Option (Handle × Pool) :=
  match p.bulks[SizeT.sub p.count p.numFree]? with
  | none => none
  | some bulk => some (bulk, { p with numFree := SizeT.sub p.numFree 1 })

/-- `margo_bp_tryget`. -/
def Pool.bpTryget (p : Pool) : Option (Handle × Pool) :=
  if p.numFree = 0 then some (null, p) else p.bpGet

/-- `margo_bp_release`, unless it writes outside the array. -/
def Pool.bpRelease (p : Pool) (bulk : Handle) : Option Pool :=
  let numFree := SizeT.add p.numFree 1
  let index := SizeT.sub p.count numFree
  if index < p.bulks.length then
    some { p with bulks := p.bulks.set index bulk, numFree := numFree }
  else
    none

/-- The checks of `margo_bulk_pool_release`. -/
def Pool.accepts (hg : Mercury) (p : Pool) (bulk : Handle) : Bool :=
  bulk ≠ null && p.size = hg.getSize bulk &&
    match hg.access bulk 0 p.size p.flag with
    | none => false
    | some (bufPtr, bufSize) =>
        !(bufPtr < p.buf || bufPtr + bufSize > p.buf + SizeT.mul p.size p.count)

/-- `margo_bulk_pool_release`: the pool and the code that is returned. -/
def Pool.release (hg : Mercury) (p : Pool) (bulk : Handle) : Option (Pool × Int) :=
  if p.accepts hg bulk then (p.bpRelease bulk).map fun p => (p, 0) else some (p, -1)

abbrev Thread := Nat

/-- A pool, who was handed what, and the threads in `ABT_cond_wait`. -/
structure State where
  pool : Pool
  held : List (Thread × Handle)
  waiting : List Thread
  deriving DecidableEq, Repr

/-- What the calls of the threads do next. -/
inductive Step
  /-- `margo_bulk_pool_get` enters its critical section. -/
  | get (t : Thread)
  /-- `margo_bulk_pool_get` is back from `ABT_cond_wait`. -/
  | wake (t : Thread)
  | tryget (t : Thread)
  | release (t : Thread) (bulk : Handle)
  deriving DecidableEq, Repr

/-- How a step ends. -/
inductive Reply
  /-- In `ABT_cond_wait`. -/
  | waits
  /-- The call returns 0 and stores a handle. -/
  | bulk (b : Handle)
  /-- `margo_bulk_pool_release` returns. -/
  | code (c : Int)
  deriving DecidableEq, Repr

/-- A handle, unless it is null, is the thread's from now on. -/
def State.handOut (s : State) (t : Thread) (b : Handle) (p : Pool) : State :=
  { s with pool := p, held := if b = null then s.held else (t, b) :: s.held }

/-- The loop of `margo_bulk_pool_get`: to `ABT_cond_wait`, or out of it with a handle. -/
def State.get (s : State) (t : Thread) : Option (State × Reply) :=
  if s.pool.numFree = 0 then
    some ({ s with waiting := t :: s.waiting }, .waits)
  else
    s.pool.bpGet.map fun (b, p) => (s.handOut t b p, .bulk b)

/-- The handle goes back from the thread that holds it. -/
def State.giveBack (s : State) (bulk : Handle) : State :=
  { s with held := s.held.eraseP (·.2 = bulk) }

/-- A step with its reply, unless it reads or writes outside the array. -/
def perform (hg : Mercury) (s : State) : Step → Option (State × Reply)
  | .get t => s.get t
  | .wake t => State.get { s with waiting := s.waiting.erase t } t
  | .tryget t => s.pool.bpTryget.map fun (b, p) => (s.handOut t b p, .bulk b)
  | .release _ bulk =>
      (s.pool.release hg bulk).map fun (p, c) =>
        ({ (if c = 0 then s.giveBack bulk else s) with pool := p }, .code c)

/-- A thread that waits does nothing else. -/
def Enabled (s : State) : Step → Prop
  | .get t | .tryget t | .release t _ => t ∉ s.waiting
  | .wake t => t ∈ s.waiting

instance : ∀ s a, Decidable (Enabled s a)
  | s, .get t | s, .tryget t | s, .release t _ => inferInstanceAs (Decidable (t ∉ s.waiting))
  | s, .wake t => inferInstanceAs (Decidable (t ∈ s.waiting))

/-- One critical section. -/
def step (hg : Mercury) (s : State) (a : Step) : Option State :=
  if Enabled s a then (perform hg s a).map Prod.fst else none

/-! ## Pools as they are created -/

/-- The pool that `margo_bulk_pool_create` returns, with its bulk handles. -/
def Pool.created (buf size flag : Nat) (handles : List Handle) : Pool where
  buf := buf
  bulks := handles
  count := handles.length
  size := size
  numFree := handles.length
  flag := flag

/-- A pool that nobody has called yet. -/
def State.initial (p : Pool) : State := ⟨p, [], []⟩

/-- The handles of a pool as Mercury created them: distinct, not null, and each
for one segment of the pool's buffer, which is what Mercury says of it. -/
structure Registered (hg : Mercury) (buf size flag : Nat) (handles : List Handle) : Prop where
  nodup : handles.Nodup
  ne_null : null ∉ handles
  fits : size * handles.length < 2 ^ 64
  count_lt : handles.length < 2 ^ 64
  getSize : ∀ b ∈ handles, hg.getSize b = size
  access : ∀ i b, handles[i]? = some b → hg.access b 0 size flag = some (buf + i * size, size)

end Margo.Bulk
