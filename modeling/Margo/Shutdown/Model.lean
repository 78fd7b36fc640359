import Margo.Lib.MachineInt
import Margo.Lib.ThreadPool

/-!
# The shutdown protocol of a margo instance

The threads that take part in shutting an instance down, one program point
for every atomic operation on `shutdown_state`, `refcount` and
`finalize_flag`, every critical section of `finalize_mutex` and every
Argobots call: incoming RPC handlers and the ULTs they create,
`margo_finalize`, `margo_finalize_and_wait`, `margo_wait_for_finalize`,
`margo_instance_ref_incr` and `margo_instance_release`.

## Implementation notes

`finalize_cond` is a generation count: a waiter remembers the generation at
which it went to sleep and can go on once a broadcast has raised it, so a
broadcast that precedes the wait is lost. The counts `admissions`,
`teardowns` and `cleanups` are not read by any step; they record how often
`__margo_internal_incr_pending` returned 1, how often `margo_finalize` got
past its pending check and how often `margo_cleanup` ran.
-/

namespace Margo.Shutdown

open Lib Lib.ThreadPool

def MARGO_FINALIZE_BIT : BitVec 32 := 0x80000000#32

def MARGO_PENDING_MASK : BitVec 32 := 0x7FFFFFFF#32

/-- The fields of `struct margo_instance` that decide how it is shut down. -/
structure Instance where
  /-- Bit 31: finalization requested. Bits 0 to 30: pending operations. -/
  shutdownState : BitVec 32
  /-- `_Atomic unsigned refcount`, taken modulo `2 ^ 32`. -/
  refcount : Nat
  finalizeFlag : Bool
  finalizeRefcount : Int
  /-- The number of broadcasts on `finalize_cond` so far. -/
  broadcasts : Nat
  admissions : Nat
  teardowns : Nat
  cleanups : Nat
  deriving DecidableEq, Repr

/-- To whom a `margo_finalize` call returns: to the program that called it
(or to nobody, at the end of an RPC or of a release), or into the second half
of `margo_finalize_and_wait`. -/
inductive Caller
  | user
  | rpc
  | andWait
  deriving DecidableEq, Repr

/-- The program points, named after what the thread does next. -/
inductive Thread
  /-- `__MARGO_INTERNAL_RPC_HANDLER_BODY` at the load of `incr_pending`. -/
  | handler
  /-- `incr_pending` at its compare-exchange, with its copy of the word. -/
  | incrCas (cur : BitVec 32)
  /-- The handler, admitted, at `ABT_thread_create`. -/
  | create
  /-- The handler at the `decr_pending` of its failure branch. -/
  | createFailed
  /-- An RPC ULT at the `decr_pending` of its post-wrapper hook. -/
  | ult
  /-- An RPC ULT at the `finalize_requested` test after its decrement. -/
  | ultCheck
  /-- `margo_finalize` at its fetch-or. -/
  | finalize (k : Caller)
  /-- `margo_finalize` past its pending check, at the prefinalize callbacks. -/
  | prefinalize (k : Caller)
  /-- `margo_finalize` at the join of the progress ULT. -/
  | join (k : Caller)
  /-- `margo_finalize` at `mid->refcount--`. -/
  | refDecr (k : Caller)
  /-- `margo_finalize` at its critical section. -/
  | critical (k : Caller)
  /-- `margo_finalize` at its broadcast, with its `do_cleanup`. -/
  | broadcast (k : Caller) (doCleanup : Bool)
  /-- A thread that calls `margo_cleanup` next. -/
  | cleanup (k : Caller)
  /-- `margo_finalize_and_wait` at its first critical section. -/
  | andWait
  /-- `margo_wait_for_finalize` at its critical section. -/
  | waitForFinalize
  /-- A waiter about to test `finalize_flag` under the mutex again. -/
  | waitLoop
  /-- A waiter asleep in `ABT_cond_wait` since the given generation. -/
  | condWait (generation : Nat)
  /-- The owner of one reference, outside any call. -/
  | holder
  /-- `margo_instance_release` at `--mid->refcount`. -/
  | relDecr
  /-- `margo_instance_release`, refcount dropped to 0, at `finalize_flag`. -/
  | relFlag
  /-- `margo_instance_release` at the `++mid->refcount` before it finalizes. -/
  | relIncr
  deriving DecidableEq, Repr

/-- The loop test of `__margo_internal_incr_pending` on a fresh copy of the
word: a set finalize bit makes it return 0, and the handler answers with an
error and is gone. -/
def incrTest (cur : BitVec 32) : List Thread :=
  if cur &&& MARGO_FINALIZE_BIT ≠ 0 then [] else [.incrCas cur]

/-- `__margo_internal_finalize_requested`. -/
def finalizeRequested (mid : Instance) : Bool :=
  mid.shutdownState &&& MARGO_FINALIZE_BIT ≠ 0

/-- `__margo_internal_decr_pending`. -/
def decrPending (mid : Instance) : Instance :=
  { mid with shutdownState := mid.shutdownState - 1 }

/-- The fetch-or of `MARGO_FINALIZE_BIT`. -/
def requestFinalize (mid : Instance) : Instance :=
  { mid with shutdownState := mid.shutdownState ||| MARGO_FINALIZE_BIT }

/-- What is left of a thread when its `margo_finalize` returns. -/
def afterFinalize : Caller → List Thread
  | .user => []
  | .rpc => []
  | .andWait => [.waitLoop]

/-- The `do_cleanup` test made under `finalize_mutex`. -/
def doCleanup (mid : Instance) : Bool :=
  mid.finalizeRefcount = 0 ∧ mid.refcount = 0

/-- A waiter holding `finalize_mutex` at the test of its wait loop: it goes to
sleep, or stops being counted, leaves the section and cleans up if it was the
last. -/
def waitSection (mid : Instance) : Instance × List Thread :=
  if mid.finalizeFlag then
    let mid' := { mid with finalizeRefcount := mid.finalizeRefcount - 1 }
    (mid', if doCleanup mid' then [.cleanup .user] else [])
  else (mid, [.condWait mid.broadcasts])

/-- One step of one thread. The choice `ok` is read where the environment
decides: whether a weak compare-exchange is spared a spurious failure, whether
`ABT_thread_create` succeeds, and whether the owner of a reference takes
another one or releases its own. -/
def threadStep (mid : Instance) : Thread → Bool → Option (Instance × List Thread)
  | .handler, _ => some (mid, incrTest mid.shutdownState)
  | .incrCas cur, ok =>
      if ok ∧ mid.shutdownState = cur then
        some ({ mid with shutdownState := cur + 1, admissions := mid.admissions + 1 },
          [.create])
      else some (mid, incrTest mid.shutdownState)
  | .create, ok => some (mid, if ok then [.ult] else [.createFailed])
  | .createFailed, _ => some (decrPending mid, [])
  | .ult, _ => some (decrPending mid, [.ultCheck])
  | .ultCheck, _ => some (mid, if finalizeRequested mid then [.finalize .rpc] else [])
  | .finalize k, _ =>
      if mid.shutdownState &&& MARGO_PENDING_MASK ≠ 0 then
        some (requestFinalize mid, afterFinalize k)
      else
        some ({ requestFinalize mid with teardowns := mid.teardowns + 1 },
          [.prefinalize k])
  | .prefinalize k, _ => some (mid, [.join k])
  | .join k, _ => some (mid, [.refDecr k])
  | .refDecr k, _ => some ({ mid with refcount := decr32 mid.refcount }, [.critical k])
  | .critical k, _ =>
      some ({ mid with finalizeFlag := true }, [.broadcast k (doCleanup mid)])
  | .broadcast k doCleanup, _ =>
      some ({ mid with broadcasts := mid.broadcasts + 1 },
        if doCleanup then [.cleanup k] else afterFinalize k)
  | .cleanup k, _ => some ({ mid with cleanups := mid.cleanups + 1 }, afterFinalize k)
  | .andWait, _ =>
      some ({ requestFinalize mid with finalizeRefcount := mid.finalizeRefcount + 1 },
        [.finalize .andWait])
  | .waitForFinalize, _ =>
      some (waitSection { mid with finalizeRefcount := mid.finalizeRefcount + 1 })
  | .waitLoop, _ => some (waitSection mid)
  | .condWait generation, _ =>
      if generation < mid.broadcasts then some (mid, [.waitLoop]) else none
  | .holder, true => some ({ mid with refcount := incr32 mid.refcount }, [.holder, .holder])
  | .holder, false => some (mid, if mid.refcount = 0 then [] else [.relDecr])
  | .relDecr, _ =>
      some ({ mid with refcount := decr32 mid.refcount },
        if decr32 mid.refcount = 0 then [.relFlag] else [])
  | .relFlag, _ => some (mid, if mid.finalizeFlag then [.cleanup .user] else [.relIncr])
  | .relIncr, _ =>
      some ({ mid with refcount := incr32 mid.refcount }, [.finalize .user])

/-- All threads of the process on one instance. -/
abbrev State := Config Instance Thread

/-- The scheduler picks a thread and resolves its choice. -/
abbrev Label := Nat × Bool

/-- One step of the process. -/
def step (s : State) (a : Label) : Option State := Lib.ThreadPool.step threadStep s a

/-- The instance as `margo_init_ext` leaves it, with `admitted` operations in
flight and `refs` references. -/
def freshInstance (admitted refs : Nat) : Instance where
  shutdownState := BitVec.ofNat 32 admitted
  refcount := refs
  finalizeFlag := false
  finalizeRefcount := 0
  broadcasts := 0
  admissions := 0
  teardowns := 0
  cleanups := 0

/-- A fresh instance on which the given calls are about to be made. -/
def start (calls : List Thread) : State := ⟨freshInstance 0 1, calls⟩

end Margo.Shutdown
