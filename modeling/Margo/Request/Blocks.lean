import Margo.Arena.Conservation
import Margo.Request.Arena
import Mathlib.Data.List.Forall2

/-!
# The request arena in memory

The arena that the requests use, a list of objects with a free list of indices, is what
the arena in raw memory is with the objects numbered in the order in which their blocks
were allocated. Both hand out and take back the same objects, whatever the holders write.
-/

namespace Margo.Request

open Lib.Bytes Lib.ByteMemory Lib.Runs
open Margo.Arena (Shape MochiArena Allocation Label Inv Usable Outside zeroed mochiArenaGet
  mochiArenaGrow mochiArenaRelease takeObject)

/-- The objects of the blocks, those of the first block first. -/
def addresses (sh : Shape) (allocated : List Nat) : List Nat := sh.all allocated.reverse

/-- The object with this index lies at this address. -/
def LiesAt (sh : Shape) (allocated : List Nat) (o address : Nat) : Prop :=
  (addresses sh allocated)[o]? = some address

/-- The list of objects stands for the arena in memory. -/
structure Located (sh : Shape) (m : Memory) (arena : MochiArena) (allocated : List Nat)
    (a : Arena) : Prop where
  capacity : a.blockCapacity = sh.capacity
  length : a.objects.length = (addresses sh allocated).length
  free : ∃ free, Threaded m arena.freeList free ∧
    List.Forall₂ (LiesAt sh allocated) a.freeList free

section

variable {sh : Shape} {m m' : Memory} {arena : MochiArena} {allocated held : List Nat}
  {a : Arena} {o obj block : Nat}

theorem addresses_cons (sh : Shape) (block : Nat) (allocated : List Nat) :
    addresses sh (block :: allocated) = addresses sh allocated ++ sh.objects block := by
  rw [addresses, Shape.all, List.reverse_cons, List.flatMap_append, List.flatMap_singleton]
  rfl

theorem mem_addresses : obj ∈ addresses sh allocated ↔ obj ∈ sh.all allocated :=
  ((allocated.reverse_perm).flatMap_right sh.objects).mem_iff

theorem LiesAt.mem (h : LiesAt sh allocated o obj) : obj ∈ sh.all allocated :=
  mem_addresses.mp (List.mem_of_getElem? h)

/-- The free lists end together. -/
theorem Located.freeList_eq_zero_iff (h : Located sh m arena allocated a) :
    arena.freeList = 0 ↔ a.freeList = [] := by
  obtain ⟨free, hthreaded, hfree⟩ := h.free
  rw [hthreaded.eq_zero_iff]
  constructor
  · rintro rfl
    exact List.forall₂_nil_right_iff.mp hfree
  · intro hnil
    rw [hnil] at hfree
    exact List.forall₂_nil_left_iff.mp hfree

/-- Where the objects of a new block lie. -/
theorem liesAt_block (sh : Shape) (block : Nat) (allocated : List Nat) :
    List.Forall₂ (LiesAt sh (block :: allocated))
      (List.range' (addresses sh allocated).length sh.capacity) (sh.objects block) := by
  rw [List.range'_eq_map_range, Shape.objects, List.forall₂_map_left_iff,
    List.forall₂_map_right_iff, List.forall₂_same]
  intro i hi
  rw [LiesAt, addresses_cons, List.getElem?_append_right (Nat.le_add_right _ _),
    Nat.add_sub_cancel_left, Shape.objects, List.getElem?_map, List.getElem?_range
      (List.mem_range.mp hi), Option.map_some]

/-! ## What the functions do -/

/-- `mochi_arena_grow`. -/
theorem Located.grow {b : Allocation} (h : Located sh m arena allocated a)
    (hinv : Inv sh m arena allocated held) (hnil : arena.freeList = 0)
    (hblock : Usable sh allocated b.address) :
    ∃ m' arena', mochiArenaGrow m arena (some b) = some (m', arena') ∧
      Inv sh m' arena' (b.address :: allocated) held ∧ arena'.freeList ≠ 0 ∧
        Located sh m' arena' (b.address :: allocated) a.grow := by
  obtain ⟨m', arena', hgrow, hinv', hne, hthreaded⟩ := hinv.grow hnil hblock
  refine ⟨m', arena', hgrow, hinv', hne, h.capacity, ?_, _, hthreaded, ?_⟩
  · rw [addresses_cons, List.length_append, Shape.objects, List.length_map, List.length_range,
      ← h.length, ← h.capacity]
    exact (List.length_append ..).trans (congrArg _ List.length_replicate)
  · change List.Forall₂ _ ((List.range' a.objects.length a.blockCapacity).reverse ++ a.freeList) _
    rw [h.freeList_eq_zero_iff.mp hnil, List.append_nil, List.forall₂_reverse_iff, h.length,
      h.capacity]
    exact liesAt_block sh b.address allocated

/-- The first object of the free list is handed out. -/
theorem Located.pop (h : Located sh m arena allocated a) (hinv : Inv sh m arena allocated held)
    (hne : arena.freeList ≠ 0) :
    ∃ o a', a.pop = some (o, a') ∧ LiesAt sh allocated o arena.freeList ∧
      Located sh (zeroed sh m arena.freeList)
        { arena with freeList := loadWord m arena.freeList } allocated a' := by
  obtain ⟨rest, hthreaded, hrest, -⟩ := hinv.pop hne
  obtain ⟨free, hthreaded', hfree⟩ := h.free
  obtain rfl := hthreaded'.unique hthreaded
  obtain ⟨o, os, ho, hos, hlist⟩ := List.forall₂_cons_right_iff.mp hfree
  refine ⟨o, { a with
    objects := a.objects.set o ⟨.eventual, false, a.tickets⟩
    freeList := os
    tickets := a.tickets + 1 }, ?_, ho, h.capacity, ?_, rest, hrest, hos⟩
  · rw [Arena.pop, hlist]
  · exact List.length_set.trans h.length

/-- `mochi_arena_release`. -/
theorem Located.release (h : Located sh m arena allocated a)
    (hinv : Inv sh m arena allocated held) (hobj : obj ∈ held) (ho : LiesAt sh allocated o obj) :
    Located sh (mochiArenaRelease m arena obj).1 (mochiArenaRelease m arena obj).2 allocated
      (a.release o) := by
  obtain ⟨free, hthreaded, hfree⟩ := h.free
  rw [mochiArenaRelease, if_neg (hinv.bounds ho.mem).1]
  exact ⟨h.capacity, h.length, obj :: free, hinv.push hobj hthreaded, .cons ho hfree⟩

/-- Whatever is written into an object that is held. -/
theorem Located.write (h : Located sh m arena allocated a)
    (hinv : Inv sh m arena allocated held) (hobj : obj ∈ held) (hout : Outside sh obj m m') :
    Located sh m' arena allocated a := by
  obtain ⟨free, hthreaded, hfree⟩ := h.free
  obtain ⟨free', hthreaded', hperm⟩ := hinv.free
  obtain rfl := hthreaded.unique hthreaded'
  obtain ⟨hapart, -⟩ := hinv.objects hperm
  refine ⟨h.capacity, h.length, free, hout.threaded hthreaded fun q hq => ?_, hfree⟩
  exact ((List.pairwise_append.mp hapart).2.2 q hq obj hobj).symm

end

/-! ## Runs -/

/-- What the list of objects does while the arena in memory takes a step. -/
def Arena.follow (sh : Shape) (s : Margo.Arena.State) (a : Arena) : Label → Arena
  | .get malloc => ((a.get malloc.isSome).map Prod.snd).getD a
  | .release obj => a.release ((addresses sh s.allocated).idxOf obj)
  | .write _ _ => a

/-- Both arenas take a step. -/
def bothStep (sh : Shape) (p : Margo.Arena.State × Arena) (l : Label) :
    Option (Margo.Arena.State × Arena) :=
  (Margo.Arena.step p.1 l).map (·, p.2.follow sh p.1 l)

/-- The list of objects stands for the arena in memory of a state. -/
def Stands (sh : Shape) (s : Margo.Arena.State) (a : Arena) : Prop :=
  Located sh s.mem s.arena s.allocated a

/-- `mochi_arena_get` fails on both sides, or both hand out the same object. -/
def SameGet (sh : Shape) (s : Margo.Arena.State) (a : Arena) (malloc : Option Allocation) :
    Prop :=
  ((mochiArenaGet s.mem s.arena malloc).2.2 = 0 ∧ a.get malloc.isSome = none) ∨
    ∃ o a', a.get malloc.isSome = some (o, a') ∧
      LiesAt sh (Margo.Arena.act s (.get malloc)).allocated o
        (mochiArenaGet s.mem s.arena malloc).2.2 ∧
      (mochiArenaGet s.mem s.arena malloc).2.2 ≠ 0

section

variable {sh : Shape} {s s' : Margo.Arena.State} {a : Arena} {l : Label}

/-- A call that finds an object, with or without a new block. -/
theorem Stands.take {malloc : Option Allocation} {m : Memory} {arena : MochiArena} {b : Arena}
    (hget : mochiArenaGet s.mem s.arena malloc = takeObject m arena)
    (hinv : Inv sh m arena (s.allocatedBy malloc) s.held) (hne : arena.freeList ≠ 0)
    (hb : Located sh m arena (s.allocatedBy malloc) b) (hpop : a.get malloc.isSome = b.pop) :
    SameGet sh s a malloc ∧
      Stands sh (Margo.Arena.act s (.get malloc)) (a.follow sh s (.get malloc)) := by
  have hact := Margo.Arena.State.Inv.act_get hget hinv hne
  obtain ⟨o, a', hpop', ho, hlocated⟩ := hb.pop hinv hne
  rw [hinv.takeObject_eq] at hget
  rw [hpop'] at hpop
  constructor
  · refine .inr ⟨o, a', hpop, ?_⟩
    rw [hact, hget]
    exact ⟨ho, hne⟩
  · rw [Arena.follow, hpop, Stands, hact]
    exact hlocated

/-- `mochi_arena_get` on both sides. -/
theorem Stands.get {malloc : Option Allocation} (h : Stands sh s a) (hinv : s.Inv sh)
    (hallowed : s.Allowed (.get malloc)) :
    SameGet sh s a malloc ∧
      Stands sh (Margo.Arena.act s (.get malloc)) (a.follow sh s (.get malloc)) := by
  by_cases hfree : s.arena.freeList = 0
  · have hlist := h.freeList_eq_zero_iff.mp hfree
    cases malloc with
    | none =>
        have hget : mochiArenaGet s.mem s.arena none = (s.mem, s.arena, 0) := by
          rw [mochiArenaGet, if_pos hfree]
          rfl
        have hnone : a.get false = none := by
          rw [Arena.get, if_neg (fun hmalloc => Bool.false_ne_true hmalloc.2), Arena.pop, hlist]
        refine ⟨.inl ⟨congrArg (·.2.2) hget, hnone⟩, ?_⟩
        have hact : Margo.Arena.act s (.get none) = s := by
          simp only [Margo.Arena.act, hget, if_pos hfree]
          rfl
        rw [hact, Arena.follow, Option.isSome_none, hnone]
        exact h
    | some block =>
        obtain ⟨m, arena, hgrow, hinv', hne, hlocated⟩ :=
          Located.grow h hinv hfree (hinv.usable (hallowed block rfl))
        have hallocated : s.allocatedBy (some block) = block.address :: s.allocated :=
          if_pos hfree
        apply Stands.take (m := m) (b := a.grow)
        · rw [mochiArenaGet, if_pos hfree, hgrow]
        · rw [hallocated]
          exact hinv'
        · exact hne
        · rw [hallocated]
          exact hlocated
        · exact if_pos ⟨hlist, rfl⟩
  · have hlist : a.freeList ≠ [] := mt h.freeList_eq_zero_iff.mpr hfree
    have hallocated : s.allocatedBy malloc = s.allocated := if_neg hfree
    apply Stands.take (b := a) (if_neg hfree) _ hfree _ (if_neg fun hget => hlist hget.1)
    · rw [hallocated]
      exact hinv
    · rw [hallocated]
      exact h

/-- Both arenas take one step. -/
theorem Stands.step (h : Stands sh s a) (hinv : s.Inv sh)
    (hstep : Margo.Arena.step s l = some s') : Stands sh s' (a.follow sh s l) := by
  obtain ⟨hallowed, hact⟩ := Option.ite_none_right_eq_some.mp hstep
  obtain rfl := Option.some.inj hact
  cases l with
  | get malloc => exact (h.get hinv hallowed).2
  | release obj =>
      have hmem : obj ∈ addresses sh s.allocated := by
        obtain ⟨free, -, hperm⟩ := hinv.free
        exact mem_addresses.mpr (hperm.subset (List.mem_append_right _ hallowed))
      have hlies : LiesAt sh s.allocated ((addresses sh s.allocated).idxOf obj) obj := by
        rw [LiesAt, List.getElem?_idxOf hmem]
      exact Located.release h hinv hallowed hlies
  | write address byte =>
      obtain ⟨obj, hobj, hle, hlt⟩ := hallowed
      rw [hinv.fits.size] at hlt
      refine Located.write h hinv hobj fun x hx => store_of_not_mem ?_
      rw [List.length_singleton]
      omega

theorem stands_initial {objectSize initialCapacity : BitVec 64} (m : Memory)
    (h : 8 + Arena.capacity initialCapacity * Arena.objectBytes objectSize < 2 ^ 64) :
    Stands (Shape.of objectSize initialCapacity h)
      (Margo.Arena.initial m objectSize initialCapacity) (.create initialCapacity.toNat) where
  capacity := by
    change (if initialCapacity.toNat < 1 then 1 else initialCapacity.toNat) =
      max initialCapacity.toNat 1
    split <;> omega
  length := rfl
  free := ⟨[], .nil, .nil⟩

/-- In every run of the arena in memory the list of objects stands for it and answers the
next call as it does. -/
theorem arenas_agree {objectSize initialCapacity : BitVec 64} {m : Memory} {labels : List Label}
    (hsize : 8 + Arena.capacity initialCapacity * Arena.objectBytes objectSize < 2 ^ 64)
    (hrun : Run (bothStep (Shape.of objectSize initialCapacity hsize)) Any
      (Margo.Arena.initial m objectSize initialCapacity, .create initialCapacity.toNat) labels
      (s, a)) :
    Stands (Shape.of objectSize initialCapacity hsize) s a ∧
      ∀ malloc, s.Allowed (.get malloc) →
        SameGet (Shape.of objectSize initialCapacity hsize) s a malloc := by
  let sh := Shape.of objectSize initialCapacity hsize
  have hboth : s.Inv sh ∧ Stands sh s a := by
    refine hrun.invariant (P := fun p => p.1.Inv sh ∧ Stands sh p.1 p.2) ?_
      ⟨Margo.Arena.inv_initial m hsize, stands_initial m hsize⟩
    intro p l p' h _ hstep
    obtain ⟨s', hs', rfl⟩ := Option.map_eq_some_iff.mp hstep
    exact ⟨h.1.step hs', h.2.step h.1 hs'⟩
  exact ⟨hboth.2, fun malloc hallowed => (hboth.2.get hboth.1 hallowed).1⟩

end

end Margo.Request
