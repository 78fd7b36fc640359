import Margo.Lib.ThreadPool
import Margo.Request.Model

/-!
# Requests from the arena

The request arena of an instance and the threads that use its objects: the
issuers of forwards and bulk transfers with an eventual or a callback,
`margo_cb` and `margo_wait`, with one program point for every access to a
request.

## Implementation notes

The intrusive free list is a list of addresses. An object that is released
keeps its contents until `mochi_arena_get` zeroes it for the next user. The
two parties of an accepted operation, the thread that runs `margo_cb` and the
one that waits, share a point, which records where each of them is. Tickets
number the acquisitions; no step reads them.
-/

namespace Margo.Request

open Lib Lib.ThreadPool

/-- A `margo_request_struct` in the arena. -/
structure Object where
  kind : RequestKind
  /-- The eventual has been set. -/
  ready : Bool
  /-- The acquisition the object stands for. -/
  ticket : Nat
  deriving DecidableEq, Repr

/-- `struct mochi_arena`. -/
structure Arena where
  blockCapacity : Nat
  objects : List Object
  freeList : List Nat
  tickets : Nat
  deriving DecidableEq, Repr

/-- `mochi_arena_create`. -/
def Arena.create (initialCapacity : Nat) : Arena :=
  ⟨if initialCapacity < 1 then 1 else initialCapacity, [], [], 0⟩

/-- `mochi_arena_grow`: the objects of the new block are pushed one by one. -/
def Arena.grow (a : Arena) : Arena :=
  { a with
    objects := a.objects ++ List.replicate a.blockCapacity ⟨.eventual, false, 0⟩
    freeList := (List.range' a.objects.length a.blockCapacity).reverse ++ a.freeList }

/-- Take the head of the free list and zero it. -/
def Arena.pop (a : Arena) : Option (Nat × Arena) :=
  match a.freeList with
  | [] => none
  | o :: rest =>
      some (o, { a with
        objects := a.objects.set o ⟨.eventual, false, a.tickets⟩
        freeList := rest
        tickets := a.tickets + 1 })

/-- `mochi_arena_get`, with the result of the `malloc` of a new block. -/
def Arena.get (a : Arena) (malloc : Bool) : Option (Nat × Arena) :=
  if a.freeList = [] ∧ malloc then a.grow.pop else a.pop

/-- `mochi_arena_release`. -/
def Arena.release (a : Arena) (o : Nat) : Arena := { a with freeList := o :: a.freeList }

/-- `req->kind == MARGO_REQ_CALLBACK`. -/
def Arena.isCallback (a : Arena) (o : Nat) : Bool :=
  (a.objects[o]?).any (·.kind = .callback)

/-- The eventual of the object is set. -/
def Arena.isReady (a : Arena) (o : Nat) : Bool := (a.objects[o]?).any (·.ready)

/-- Write to an object. -/
def Arena.write (a : Arena) (o : Nat) (f : Object → Object) : Arena :=
  { a with objects := a.objects.modify o f }

/-- An operation and the object it was given. -/
structure Op where
  type : RequestType
  kind : RequestKind
  object : Nat
  ticket : Nat
  deriving DecidableEq, Repr

/-- Where `margo_cb` is. -/
inductive CbStage
  /-- At the `FN_START` monitoring. -/
  | start
  /-- At the cancellation and destruction of the timer. -/
  | timer
  /-- At the first test of `kind` and the completion it selects. -/
  | complete
  /-- At the `FN_END` monitoring. -/
  | finish
  /-- At the second test of `kind`. -/
  | kindTest
  /-- At `mochi_arena_release`. -/
  | release
  | ended
  deriving DecidableEq, Repr

/-- Where `margo_wait` is. -/
inductive WaitStage
  /-- At its test of `kind`. -/
  | kindTest
  /-- At `MARGO_EVENTUAL_WAIT`. -/
  | wait
  /-- At `MARGO_EVENTUAL_FREE`. -/
  | free
  /-- At `mochi_arena_release`. -/
  | release
  | ended
  deriving DecidableEq, Repr

/-- A thread, or the two threads that share an accepted operation. -/
inductive Point
  /-- An issuing call at `mochi_arena_get`. -/
  | issue (type : RequestType) (kind : RequestKind)
  /-- A wrapper with its object, before it fills it in. -/
  | acquired (p : Op)
  /-- The routine, up to and including the call of Mercury. -/
  | submit (p : Op)
  /-- A wrapper on its error path, at `mochi_arena_release`. -/
  | failed (p : Op)
  | flight (p : Op) (c : CbStage) (w : WaitStage)
  deriving DecidableEq, Repr

/-- What the environment resolves: whether the memory, or Mercury, is available,
and which party of an operation goes on. -/
inductive Choice
  | ok
  | fail
  | waiter
  deriving DecidableEq, Repr

/-- One step of `margo_cb`. -/
def cbStep (a : Arena) (o : Nat) : CbStage → Option (Arena × CbStage)
  | .start => some (a, .timer)
  | .timer => some (a, .complete)
  | .complete =>
      some (if a.isCallback o then a else a.write o fun x => { x with ready := true }, .finish)
  | .finish => some (a, .kindTest)
  | .kindTest => some (a, if a.isCallback o then .release else .ended)
  | .release => some (a.release o, .ended)
  | .ended => none

/-- One step of `margo_wait`. -/
def waitStep (a : Arena) (o : Nat) : WaitStage → Option (Arena × WaitStage)
  | .kindTest => some (a, if a.isCallback o then .release else .wait)
  | .wait => if a.isReady o then some (a, .free) else none
  | .free => some (a.write o fun x => { x with ready := false }, .release)
  | .release => some (a.release o, .ended)
  | .ended => none

/-- One step of one thread. -/
def pointStep (a : Arena) : Point → Choice → Option (Arena × List Point)
  | .issue type kind, c =>
      match a.get (c = .ok) with
      | none => some (a, [])
      | some (o, a') => some (a', [.acquired ⟨type, kind, o, a.tickets⟩])
  | .acquired p, _ =>
      some (if p.kind = .callback then a.write p.object fun x => { x with kind := .callback }
        else a, [.submit p])
  | .submit p, .ok =>
      -- a request of the eventual kind is handed to the user, who will wait for it
      some (a, [.flight p .start (if p.kind = .eventual then .kindTest else .ended)])
  | .submit p, _ => some (a, [.failed p])
  | .failed p, _ => some (a.release p.object, [])
  | .flight p c w, .waiter =>
      (waitStep a p.object w).map fun r => (r.1, [.flight p c r.2])
  | .flight p c w, _ => (cbStep a p.object c).map fun r => (r.1, [.flight p r.2 w])

abbrev Process := Config Arena Point

/-- One step of the process: any thread moves. -/
def step (s : Process) (a : Nat × Choice) : Option Process :=
  ThreadPool.step pointStep s a

/-- A new instance and the threads that will issue operations. -/
def start (initialCapacity : Nat) (calls : List (RequestType × RequestKind)) : Process :=
  ⟨.create initialCapacity, calls.map fun c => .issue c.1 c.2⟩

end Margo.Request
