import Margo.Lib.ByteMemory
import Margo.Lib.Runs

/-!
# The arena in raw memory

`mochi-arena.c` on a memory of bytes: the blocks that `malloc` returned, the free
list that is threaded through the objects themselves, and the holders of the
others, who write what they like into them.

## Implementation notes

Sizes are 64-bit words, addresses are numbers, and a null pointer is 0. The
structure of the arena lies outside of the modelled memory. `malloc` answers with
nothing or with a block of whatever contents at an address that it may choose:
aligned, inside the address space and away from the blocks it has returned. The
functions hold the spinlock of the arena from their first access to the end, so
each is one step; a holder writes one byte a step.
-/

namespace Margo.Arena

open Lib.Bytes Lib.ByteMemory Lib.Runs

/-- `struct mochi_arena`, without its mutex. -/
structure MochiArena where
  objectSize : BitVec 64
  blockCapacity : BitVec 64
  freeList : Nat
  blocks : Nat
  deriving DecidableEq, Repr

/-- `round_up`. -/
def roundUp (x a : BitVec 64) : BitVec 64 := (x + (a - 1)) &&& ~~~(a - 1)

/-- `mochi_arena_create`, after a `calloc` that succeeds. -/
def mochiArenaCreate (objectSize initialCapacity : BitVec 64) : MochiArena :=
  let objectSize := if objectSize < 8 then 8 else objectSize
  ⟨roundUp objectSize 8, if initialCapacity < 1 then 1 else initialCapacity, 0, 0⟩

/-- The room for a `struct mochi_arena_block`, which is one pointer. -/
def header : BitVec 64 := roundUp 8 8

/-- What `mochi_arena_grow` asks `malloc` for. -/
def MochiArena.total (arena : MochiArena) : BitVec 64 :=
  header + arena.blockCapacity * arena.objectSize

/-- A block that `malloc` returns. -/
structure Allocation where
  address : Nat
  contents : Nat → Byte

/-- The memory with the contents of a new block. -/
def Allocation.place (block : Allocation) (m : Memory) (size : Nat) : Memory := fun x =>
  if block.address ≤ x ∧ x < block.address + size then block.contents (x - block.address) else m x

/-- The body of the loop of `mochi_arena_grow`. -/
def threadObject (base : Nat) (objectSize : BitVec 64) (s : Memory × Nat) (i : Nat) :
    Memory × Nat :=
  let obj := base + (BitVec.ofNat 64 i * objectSize).toNat
  (storeWord s.1 obj s.2, obj)

/-- `mochi_arena_grow`, with the answer of `malloc`. -/
def mochiArenaGrow (m : Memory) (arena : MochiArena) :
    Option Allocation → Option (Memory × MochiArena)
  | none => none
  | some block =>
      let m := block.place m arena.total.toNat
      let m := storeWord m block.address arena.blocks
      let base := block.address + header.toNat
      let threaded := (List.range arena.blockCapacity.toNat).foldl
        (threadObject base arena.objectSize) (m, arena.freeList)
      some (threaded.1, { arena with freeList := threaded.2, blocks := block.address })

/-- The end of `mochi_arena_get`, with an object on the free list. -/
def takeObject (m : Memory) (arena : MochiArena) : Memory × MochiArena × Nat :=
  let obj := arena.freeList
  (store m obj (List.replicate arena.objectSize.toNat 0),
    { arena with freeList := loadWord m obj }, obj)

/-- `mochi_arena_get`, with the answer of `malloc` in case it is called. -/
def mochiArenaGet (m : Memory) (arena : MochiArena) (malloc : Option Allocation) :
    Memory × MochiArena × Nat :=
  if arena.freeList = 0 then
    match mochiArenaGrow m arena malloc with
    | none => (m, arena, 0)
    | some (m, arena) => takeObject m arena
  else takeObject m arena

/-- `mochi_arena_release`. -/
def mochiArenaRelease (m : Memory) (arena : MochiArena) (obj : Nat) : Memory × MochiArena :=
  if obj = 0 then (m, arena)
  else (storeWord m obj arena.freeList, { arena with freeList := obj })

/-- The blocks that `mochi_arena_destroy` frees, in order, with a bound on the number of
times its loop is entered. -/
def mochiArenaDestroy (m : Memory) : Nat → Nat → List Nat
  | 0, _ => []
  | fuel + 1, block =>
      if block = 0 then [] else block :: mochiArenaDestroy m fuel (loadWord m block)

/-! ## Interleavings -/

/-- The memory and the arena, the blocks that `malloc` returned and the objects that
somebody holds. -/
structure State where
  mem : Memory
  arena : MochiArena
  allocated : List Nat
  held : List Nat

inductive Label
  | get (malloc : Option Allocation)
  | release (obj : Nat)
  | write (address : Nat) (byte : Byte)

/-- `malloc` may return this block. -/
def State.Mallocs (s : State) (block : Allocation) : Prop :=
  0 < block.address ∧ 8 ∣ block.address ∧
    block.address + s.arena.total.toNat ≤ 2 ^ 64 ∧
    ∀ b ∈ s.allocated, Apart s.arena.total.toNat block.address b

/-- Objects are released and written to by their holders. -/
def State.Allowed (s : State) : Label → Prop
  | .get malloc => ∀ block ∈ malloc, s.Mallocs block
  | .release obj => obj ∈ s.held
  | .write address _ =>
      ∃ obj ∈ s.held, obj ≤ address ∧ address < obj + s.arena.objectSize.toNat

instance (s : State) (block : Allocation) : Decidable (s.Mallocs block) :=
  inferInstanceAs (Decidable (_ ∧ _ ∧ _ ∧ ∀ b ∈ s.allocated, _ ∨ _))

instance (s : State) (l : Label) : Decidable (s.Allowed l) :=
  match l with
  | .get none => .isTrue fun _ h => nomatch h
  | .get (some block) => decidable_of_iff (s.Mallocs block) (by simp [State.Allowed])
  | .release obj => inferInstanceAs (Decidable (obj ∈ s.held))
  | .write address _ => inferInstanceAs
      (Decidable (∃ obj ∈ s.held, obj ≤ address ∧ address < obj + s.arena.objectSize.toNat))

/-- What a step does if it is allowed. -/
def act (s : State) : Label → State
  | .get malloc =>
      let result := mochiArenaGet s.mem s.arena malloc
      { mem := result.1
        arena := result.2.1
        -- `malloc` is only called if the free list is empty
        allocated := if s.arena.freeList = 0 then
          malloc.toList.map Allocation.address ++ s.allocated else s.allocated
        held := if result.2.2 = 0 then s.held else result.2.2 :: s.held }
  | .release obj =>
      let result := mochiArenaRelease s.mem s.arena obj
      { s with mem := result.1, arena := result.2, held := s.held.erase obj }
  | .write address byte => { s with mem := store s.mem address [byte] }

def step (s : State) (l : Label) : Option State :=
  if s.Allowed l then some (act s l) else none

/-- A new arena in whatever memory. -/
def initial (m : Memory) (objectSize initialCapacity : BitVec 64) : State :=
  ⟨m, mochiArenaCreate objectSize initialCapacity, [], []⟩

end Margo.Arena
