import Margo.Arena.Shape

/-!
# The arena keeps every object

The free list and the objects that are held partition the objects of all blocks,
whatever the holders write. The free objects are threaded through memory by
their first words, which nobody else may write to, because objects do not
overlap each other or the header of a block.
-/

namespace Margo.Arena

open Lib.Bytes Lib.ByteMemory Lib.Runs

/-! ## The invariant -/

/-- The blocks lie apart and are chained by their headers, and the free list and the
objects that are held are the objects of the blocks. -/
structure Inv (sh : Shape) (m : Memory) (arena : MochiArena) (allocated held : List Nat) :
    Prop where
  fits : sh.Fits arena
  blocks : ∀ b ∈ allocated, 8 ∣ b ∧ b + sh.total ≤ 2 ^ 64
  apart : allocated.Pairwise (Apart sh.total)
  chain : Threaded m arena.blocks allocated
  free : ∃ free, Threaded m arena.freeList free ∧ (free ++ held).Perm (sh.all allocated)

/-- Outside of an object nothing has changed. -/
def Outside (sh : Shape) (obj : Nat) (m m' : Memory) : Prop :=
  ∀ x, x < obj ∨ obj + sh.size ≤ x → m' x = m x

section

variable {sh : Shape} {m m' : Memory} {arena : MochiArena} {allocated held free : List Nat}
  {obj p : Nat}

theorem Outside.threaded (h : Outside sh obj m m') (hthreaded : Threaded m p free)
    (hapart : ∀ q ∈ free, Apart sh.size obj q) : Threaded m' p free := by
  apply hthreaded.congr
  intro q hq x hle hlt
  have hroom := sh.room
  have hqa := hapart q hq
  unfold Apart at hqa
  apply h
  omega

/-- The chain of blocks is not touched by stores into objects. -/
theorem Inv.outside (h : Inv sh m arena allocated held) (hobj : obj ∈ sh.all allocated)
    (hout : Outside sh obj m m') : Threaded m' arena.blocks allocated := by
  apply h.chain.congr
  intro b hb x hle hlt
  have := Shape.header_apart h.apart hb hobj
  apply hout
  omega

/-- The objects in some order, none of which overlaps another one. -/
theorem Inv.objects (h : Inv sh m arena allocated held) {objs : List Nat}
    (hperm : objs.Perm (sh.all allocated)) : objs.Pairwise (Apart sh.size) ∧ objs.Nodup := by
  have hapart := (hperm.pairwise_iff Apart.symm).mpr (Shape.all_apart h.apart)
  exact ⟨hapart, Shape.nodup_of_apart hapart⟩

/-- An object lies inside the address space and is not the null pointer. -/
theorem Inv.bounds (h : Inv sh m arena allocated held) (hobj : obj ∈ sh.all allocated) :
    obj ≠ 0 ∧ obj < 2 ^ 64 := by
  obtain ⟨b, hb, hobj⟩ := List.mem_flatMap.mp hobj
  obtain ⟨hle, hend⟩ := Shape.inside hobj
  have hblock := (h.blocks b hb).2
  have hroom := sh.room
  omega

/-! ## What the functions do -/

/-- Whatever is written into an object that is held. -/
theorem Inv.write (h : Inv sh m arena allocated held) (hobj : obj ∈ held)
    (hout : Outside sh obj m m') : Inv sh m' arena allocated held := by
  obtain ⟨free, hthreaded, hperm⟩ := h.free
  obtain ⟨hapart, -⟩ := h.objects hperm
  have hmem : obj ∈ sh.all allocated := hperm.subset (List.mem_append_right _ hobj)
  have hfree : ∀ q ∈ free, Apart sh.size obj q :=
    fun q hq => ((List.pairwise_append.mp hapart).2.2 q hq obj hobj).symm
  exact { h with
    chain := h.outside hmem hout
    free := ⟨free, hout.threaded hthreaded hfree, hperm⟩ }

/-- An object that is held is put in front of the free list. -/
theorem Inv.push (h : Inv sh m arena allocated held) (hobj : obj ∈ held)
    (hfree : Threaded m arena.freeList free) :
    Threaded (storeWord m obj arena.freeList) obj (obj :: free) := by
  obtain ⟨free', hthreaded, hperm⟩ := h.free
  obtain rfl := hfree.unique hthreaded
  obtain ⟨hapart, -⟩ := h.objects hperm
  obtain ⟨hne, hlt⟩ := h.bounds (hperm.subset (List.mem_append_right _ hobj))
  apply hfree.push hne hlt
  intro q hq
  exact ((List.pairwise_append.mp hapart).2.2 q hq obj hobj).symm.mono sh.room

/-- The object goes from its holder to the front of the free list. -/
theorem Inv.release (h : Inv sh m arena allocated held) (hobj : obj ∈ held) :
    Inv sh (mochiArenaRelease m arena obj).1 (mochiArenaRelease m arena obj).2 allocated
      (held.erase obj) := by
  obtain ⟨free, hthreaded, hperm⟩ := h.free
  have hmem : obj ∈ sh.all allocated := hperm.subset (List.mem_append_right _ hobj)
  have hout : Outside sh obj m (storeWord m obj arena.freeList) := by
    intro x hx
    have := sh.room
    apply store_of_not_mem
    rw [length_digits]
    omega
  rw [mochiArenaRelease, if_neg (h.bounds hmem).1]
  refine ⟨⟨h.fits.size, h.fits.capacity⟩, h.blocks, h.apart, h.outside hmem hout,
    obj :: free, h.push hobj hthreaded, ?_⟩
  calc
    (obj :: free ++ held.erase obj).Perm (free ++ obj :: held.erase obj) := List.perm_middle.symm
    List.Perm _ (free ++ held) := (List.perm_cons_erase hobj).symm.append_left free
    List.Perm _ (sh.all allocated) := hperm

/-- The memory with the bytes of an object zero. -/
def zeroed (sh : Shape) (m : Memory) (obj : Nat) : Memory :=
  store m obj (List.replicate sh.size 0)

theorem load_zeroed (sh : Shape) (m : Memory) (obj : Nat) :
    load (zeroed sh m obj) obj sh.size = List.replicate sh.size 0 := by
  have hload := load_store_self m obj (List.replicate sh.size 0)
  rwa [List.length_replicate] at hload

theorem outside_zeroed (sh : Shape) (m : Memory) (obj : Nat) :
    Outside sh obj m (zeroed sh m obj) := by
  intro x hx
  apply store_of_not_mem
  rwa [List.length_replicate]

theorem Inv.takeObject_eq (h : Inv sh m arena allocated held) :
    takeObject m arena = (zeroed sh m arena.freeList,
      { arena with freeList := loadWord m arena.freeList }, arena.freeList) := by
  rw [takeObject, h.fits.size]
  rfl

/-- The free list without its first object, after that one was cleared. -/
theorem Inv.pop (h : Inv sh m arena allocated held) (hne : arena.freeList ≠ 0) :
    ∃ rest, Threaded m arena.freeList (arena.freeList :: rest) ∧
      Threaded (zeroed sh m arena.freeList) (loadWord m arena.freeList) rest ∧
      (arena.freeList :: rest ++ held).Perm (sh.all allocated) := by
  obtain ⟨free, hthreaded, hperm⟩ := h.free
  obtain ⟨rest, rfl, hrest⟩ := hthreaded.pop hne
  obtain ⟨hapart, -⟩ := h.objects hperm
  obtain ⟨hfirst, -⟩ := List.pairwise_cons.mp hapart
  refine ⟨rest, hthreaded, ?_, hperm⟩
  exact (outside_zeroed sh m arena.freeList).threaded hrest fun q hq =>
    hfirst q (List.mem_append_left _ hq)

/-- The first object of the free list is handed out. -/
theorem Inv.take (h : Inv sh m arena allocated held) (hne : arena.freeList ≠ 0) :
    Inv sh (zeroed sh m arena.freeList) { arena with freeList := loadWord m arena.freeList }
        allocated (arena.freeList :: held) ∧
      arena.freeList ∉ held ∧ arena.freeList ∈ sh.all allocated := by
  obtain ⟨rest, -, hrest, hperm⟩ := h.pop hne
  obtain ⟨-, hnodup⟩ := h.objects hperm
  have hmem : arena.freeList ∈ sh.all allocated := hperm.subset List.mem_cons_self
  have hout := outside_zeroed sh m arena.freeList
  refine ⟨⟨⟨h.fits.size, h.fits.capacity⟩, h.blocks, h.apart, h.outside hmem hout, rest, hrest,
    List.perm_middle.trans hperm⟩, ?_, hmem⟩
  exact fun hheld => (List.nodup_cons.mp hnodup).1 (List.mem_append_right _ hheld)

/-- The addresses at which the loop of `mochi_arena_grow` threads objects. -/
theorem Shape.Fits.node (h : sh.Fits arena) (base : Nat) {i : Nat} (hi : i < sh.capacity) :
    base + (BitVec.ofNat 64 i * arena.objectSize).toNat = base + i * sh.size := by
  have hfits := sh.fits
  have hmul : i * sh.size ≤ sh.capacity * sh.size := Nat.mul_le_mul_right _ hi.le
  have hle : i ≤ sh.capacity * sh.size := by
    have := Nat.le_mul_of_pos_right sh.capacity (Nat.lt_of_lt_of_le (by decide) sh.room)
    omega
  rw [BitVec.toNat_mul, BitVec.toNat_ofNat, h.size, Nat.mod_eq_of_lt (by omega : i < 2 ^ 64),
    Nat.mod_eq_of_lt (by omega)]

/-- A block that `malloc` may return. -/
structure Usable (sh : Shape) (allocated : List Nat) (block : Nat) : Prop where
  pos : 0 < block
  aligned : 8 ∣ block
  bound : block + sh.total ≤ 2 ^ 64
  apart : ∀ b ∈ allocated, Apart sh.total block b

/-- A new block becomes the first one of the chain, and its objects go to the empty
free list. -/
theorem Inv.grow {block : Allocation} (h : Inv sh m arena allocated held)
    (hnil : arena.freeList = 0) (hblock : Usable sh allocated block.address) :
    ∃ m' arena', mochiArenaGrow m arena (some block) = some (m', arena') ∧
      Inv sh m' arena' (block.address :: allocated) held ∧ arena'.freeList ≠ 0 ∧
        Threaded m' arena'.freeList (sh.objects block.address).reverse := by
  obtain ⟨free, hthreaded, hperm⟩ := h.free
  obtain rfl := hthreaded.eq_zero_iff.mp hnil
  let node (i : Nat) : Nat :=
    block.address + header.toNat + (BitVec.ofNat 64 i * arena.objectSize).toNat
  have hnode {i : Nat} (hi : i < sh.capacity) : node i = block.address + 8 + i * sh.size := by
    change block.address + header.toNat + _ = _
    rw [h.fits.node _ hi, header_toNat]
  have hobjects : (List.range sh.capacity).map node = sh.objects block.address :=
    List.map_congr_left fun i hi => hnode (List.mem_range.mp hi)
  have hmem {i : Nat} (hi : i < sh.capacity) : node i ∈ sh.objects block.address :=
    hobjects ▸ List.mem_map_of_mem (List.mem_range.mpr hi)
  -- the block with its link to the other blocks, before the loop
  let m₁ := storeWord (block.place m arena.total.toNat) block.address arena.blocks
  have hplaced : Threaded (block.place m arena.total.toNat) arena.blocks allocated := by
    apply h.chain.congr
    intro b hb x hle hlt
    have hapart := hblock.apart b hb
    have htotal : 8 ≤ sh.total := Nat.le_add_right ..
    unfold Apart at hapart
    rw [Allocation.place, h.fits.total, if_neg (by omega)]
  have hchain₁ : Threaded m₁ block.address (block.address :: allocated) := by
    apply hplaced.push hblock.pos.ne'
    · have := hblock.bound
      have htotal : 8 ≤ sh.total := Nat.le_add_right ..
      omega
    · exact fun b hb => (hblock.apart b hb).mono (Nat.le_add_right ..)
  have hpairs : (block.address :: allocated).Pairwise (Apart sh.total) :=
    List.pairwise_cons.mpr ⟨hblock.apart, h.apart⟩
  have hbounds (i : Nat) (hi : i < sh.capacity) : node i ≠ 0 ∧ node i < 2 ^ 64 := by
    obtain ⟨hle, hend⟩ := Shape.inside (hmem hi)
    have hbound := hblock.bound
    have hroom := sh.room
    omega
  have hnodes (i : Nat) (hi : i < sh.capacity) (j : Nat) (hj : j < i) :
      Apart 8 (node i) (node j) := by
    rw [hnode hi, hnode (hj.trans hi)]
    exact (Shape.apart_of_lt hj).symm.mono sh.room
  let result := (List.range sh.capacity).foldl
    (fun s i => (storeWord s.1 (node i) s.2, node i)) (m₁, 0)
  have hgrow : mochiArenaGrow m arena (some block) =
      some (result.1, { arena with freeList := result.2, blocks := block.address }) := by
    simp only [mochiArenaGrow, h.fits.capacity, hnil]
    rfl
  have hfree : Threaded result.1 result.2 (sh.objects block.address).reverse := by
    have hall : Threaded result.1 result.2 (((List.range sh.capacity).map node).reverse ++ []) :=
      Threaded.push_all .nil hbounds (fun _ _ _ hr => absurd hr List.not_mem_nil) hnodes
    rwa [hobjects, List.append_nil] at hall
  refine ⟨_, _, hgrow, ⟨⟨h.fits.size, h.fits.capacity⟩, ?_, hpairs, ?_, ?_⟩, ?_, hfree⟩
  · intro b hb
    obtain rfl | hb := List.mem_cons.mp hb
    · exact ⟨hblock.aligned, hblock.bound⟩
    · exact h.blocks b hb
  · -- the loop stores into objects of the new block only
    apply hchain₁.congr
    intro b hb
    apply kept_push_all
    intro i hi
    have hall : node i ∈ sh.all (block.address :: allocated) :=
      List.mem_flatMap.mpr ⟨block.address, List.mem_cons_self, hmem hi⟩
    have := Shape.header_apart hpairs hb hall
    have := sh.room
    omega
  · refine ⟨_, hfree, ?_⟩
    rw [List.nil_append] at hperm
    exact (List.reverse_perm _).append hperm
  · intro hzero
    have hempty := hfree.eq_zero_iff.mp hzero
    rw [List.reverse_eq_nil_iff, Shape.objects, List.map_eq_nil_iff, List.range_eq_nil] at hempty
    exact absurd hempty (Nat.ne_of_gt sh.nonempty)

end

/-! ## What holds of a state -/

/-- The objects of a block, in terms of the fields of the arena. -/
def blockObjects (arena : MochiArena) (block : Nat) : List Nat :=
  (List.range arena.blockCapacity.toNat).map fun i =>
    block + header.toNat + i * arena.objectSize.toNat

/-- The objects of all blocks. -/
def State.objects (s : State) : List Nat := s.allocated.flatMap (blockObjects s.arena)

/-- `mochi_arena_get` hands out an object that nobody holds, all bytes zero, and fails
only if the free list is empty and `malloc` fails, without any change. -/
structure GetsObject (s : State) (malloc : Option Allocation) : Prop where
  taken : (mochiArenaGet s.mem s.arena malloc).2.2 ≠ 0 →
    (mochiArenaGet s.mem s.arena malloc).2.2 ∉ s.held ∧
      (mochiArenaGet s.mem s.arena malloc).2.2 ∈ (act s (.get malloc)).objects ∧
      load (mochiArenaGet s.mem s.arena malloc).1 (mochiArenaGet s.mem s.arena malloc).2.2
          s.arena.objectSize.toNat = List.replicate s.arena.objectSize.toNat 0
  failed : (mochiArenaGet s.mem s.arena malloc).2.2 = 0 →
    s.arena.freeList = 0 ∧ malloc = none ∧ act s (.get malloc) = s

/-- The objects of an arena for a requested size and number of objects a block: each of
them is free or held, once, they lie apart and aligned inside their blocks, and
`mochi_arena_get` hands them out as it should. -/
structure Conserves (objectSize initialCapacity : BitVec 64) (s : State) : Prop where
  partition : ∃ free, Threaded s.mem s.arena.freeList free ∧ (free ++ s.held).Nodup ∧
    (free ++ s.held).Perm s.objects
  capacity : s.arena.blockCapacity.toNat = max initialCapacity.toNat 1
  size : objectSize.toNat ≤ s.arena.objectSize.toNat
  apart : s.objects.Pairwise (Apart s.arena.objectSize.toNat)
  inside : ∀ block ∈ s.allocated, ∀ obj ∈ blockObjects s.arena block,
    8 ∣ obj ∧ block + header.toNat ≤ obj ∧
      obj + s.arena.objectSize.toNat ≤ block + s.arena.total.toNat
  gets : ∀ malloc, s.Allowed (.get malloc) → GetsObject s malloc

/-- The invariant of a state. -/
def State.Inv (sh : Shape) (s : State) : Prop :=
  Arena.Inv sh s.mem s.arena s.allocated s.held

section

variable {sh : Shape} {s s' : State} {l : Label}

theorem Shape.Fits.blockObjects {arena : MochiArena} (h : sh.Fits arena) (block : Nat) :
    blockObjects arena block = sh.objects block := by
  rw [Arena.blockObjects, header_toNat, h.size, h.capacity, Shape.objects]

theorem State.Inv.objects_eq (h : s.Inv sh) : s.objects = sh.all s.allocated :=
  List.flatMap_congr fun block _ => h.fits.blockObjects block

theorem State.Inv.usable {block : Allocation} (h : s.Inv sh) (hmalloc : s.Mallocs block) :
    Usable sh s.allocated block.address := by
  obtain ⟨hpos, haligned, hbound, hapart⟩ := hmalloc
  rw [h.fits.total] at hbound hapart
  exact ⟨hpos, haligned, hbound, hapart⟩

/-- The blocks after a call of `mochi_arena_get`. -/
def State.allocatedBy (s : State) (malloc : Option Allocation) : List Nat :=
  if s.arena.freeList = 0 then malloc.toList.map Allocation.address ++ s.allocated else s.allocated

/-- The state after a call of `mochi_arena_get` that finds an object, with or without a new
block. -/
theorem State.Inv.act_get {malloc : Option Allocation} {m : Memory} {arena : MochiArena}
    (hget : mochiArenaGet s.mem s.arena malloc = takeObject m arena)
    (hinv : Arena.Inv sh m arena (s.allocatedBy malloc) s.held) (hne : arena.freeList ≠ 0) :
    act s (.get malloc) = ⟨zeroed sh m arena.freeList,
      { arena with freeList := loadWord m arena.freeList }, s.allocatedBy malloc,
      arena.freeList :: s.held⟩ := by
  rw [hinv.takeObject_eq] at hget
  simp only [act, hget, if_neg hne, allocatedBy]

/-- A call of `mochi_arena_get` that finds an object. -/
theorem State.Inv.gets {malloc : Option Allocation} {m : Memory} {arena : MochiArena}
    (h : s.Inv sh) (hget : mochiArenaGet s.mem s.arena malloc = takeObject m arena)
    (hinv : Arena.Inv sh m arena (s.allocatedBy malloc) s.held) (hne : arena.freeList ≠ 0) :
    (act s (.get malloc)).Inv sh ∧ GetsObject s malloc := by
  have hact := act_get hget hinv hne
  rw [hinv.takeObject_eq] at hget
  obtain ⟨hinv', hheld, hmem⟩ := hinv.take hne
  have hafter : (act s (.get malloc)).Inv sh := by
    rw [hact]
    exact hinv'
  refine ⟨hafter, fun _ => ?_, fun hzero => ?_⟩
  · rw [hafter.objects_eq, hact, hget, h.fits.size]
    exact ⟨hheld, hmem, load_zeroed sh m _⟩
  · rw [hget] at hzero
    exact absurd hzero hne

/-- A call of `mochi_arena_get`. -/
theorem State.Inv.get {malloc : Option Allocation} (h : s.Inv sh)
    (hallowed : s.Allowed (.get malloc)) :
    (act s (.get malloc)).Inv sh ∧ GetsObject s malloc := by
  by_cases hfree : s.arena.freeList = 0
  · cases malloc with
    | none =>
        have hget : mochiArenaGet s.mem s.arena none = (s.mem, s.arena, 0) := by
          rw [mochiArenaGet, if_pos hfree]
          rfl
        have hact : act s (.get none) = s := by
          simp only [act, hget, if_pos hfree]
          rfl
        refine ⟨?_, fun hne => ?_, fun _ => ⟨hfree, rfl, hact⟩⟩
        · rw [hact]
          exact h
        · rw [hget] at hne
          exact absurd rfl hne
    | some block =>
        obtain ⟨m', arena', hgrow, hinv, hne, -⟩ :=
          Inv.grow h hfree (h.usable (hallowed block rfl))
        apply h.gets (m := m') _ _ hne
        · rw [mochiArenaGet, if_pos hfree, hgrow]
        · rw [allocatedBy, if_pos hfree]
          exact hinv
  · apply h.gets (if_neg hfree) _ hfree
    rw [allocatedBy, if_neg hfree]
    exact h

/-- Every step keeps the invariant. -/
theorem State.Inv.step (h : s.Inv sh) (hstep : Arena.step s l = some s') : s'.Inv sh := by
  obtain ⟨hallowed, hact⟩ := Option.ite_none_right_eq_some.mp hstep
  obtain rfl := Option.some.inj hact
  cases l with
  | get malloc => exact (h.get hallowed).1
  | release obj => exact Inv.release h hallowed
  | write address byte =>
      obtain ⟨obj, hobj, hle, hlt⟩ := hallowed
      rw [h.fits.size] at hlt
      refine Inv.write h hobj fun x hx => store_of_not_mem ?_
      rw [List.length_singleton]
      omega

theorem inv_initial {objectSize initialCapacity : BitVec 64} (m : Memory)
    (h : 8 + Arena.capacity initialCapacity * objectBytes objectSize < 2 ^ 64) :
    (initial m objectSize initialCapacity).Inv (Shape.of objectSize initialCapacity h) where
  fits := Shape.fits_create h
  blocks := by
    intro b hb
    cases hb
  apart := List.Pairwise.nil
  chain := .nil
  free := ⟨[], .nil, .refl _⟩

theorem mochiArenaDestroy_of_threaded {m : Memory} {p fuel : Nat} {blocks : List Nat}
    (h : Threaded m p blocks) (hfuel : blocks.length ≤ fuel) :
    mochiArenaDestroy m fuel p = blocks := by
  induction h generalizing fuel with
  | nil => cases fuel <;> rfl
  | cons hne _ _ ih =>
      obtain ⟨fuel, rfl⟩ := Nat.exists_eq_add_one.mpr (Nat.lt_of_lt_of_le (Nat.succ_pos _) hfuel)
      rw [mochiArenaDestroy, if_neg hne, ih (Nat.le_of_succ_le_succ hfuel)]

/-- Whatever was written into the objects, the blocks that are freed in the end are those
that were allocated, each once. -/
theorem destroy_frees_allocated {objectSize initialCapacity : BitVec 64} {m : Memory}
    {labels : List Label} {fuel : Nat}
    (hsize : 8 + Arena.capacity initialCapacity * objectBytes objectSize < 2 ^ 64)
    (hrun : Run Arena.step Any (initial m objectSize initialCapacity) labels s)
    (hfuel : s.allocated.length ≤ fuel) :
    mochiArenaDestroy s.mem fuel s.arena.blocks = s.allocated := by
  have h : s.Inv (Shape.of objectSize initialCapacity hsize) :=
    hrun.invariant (fun h _ hstep => State.Inv.step h hstep) (inv_initial m hsize)
  exact mochiArenaDestroy_of_threaded h.chain hfuel

/-- An arena conserves its objects in every run. -/
theorem arena_conserves {objectSize initialCapacity : BitVec 64} {m : Memory} {labels : List Label}
    (hsize : 8 + Arena.capacity initialCapacity * objectBytes objectSize < 2 ^ 64)
    (hrun : Run Arena.step Any (initial m objectSize initialCapacity) labels s) :
    Conserves objectSize initialCapacity s := by
  let sh := Shape.of objectSize initialCapacity hsize
  have h : s.Inv sh :=
    hrun.invariant (fun h _ hstep => State.Inv.step h hstep) (inv_initial m hsize)
  have hobjects := h.objects_eq
  constructor
  · obtain ⟨free, hthreaded, hperm⟩ := h.free
    exact ⟨free, hthreaded, (Inv.objects h hperm).2, hobjects ▸ hperm⟩
  · exact h.fits.capacity
  · rw [h.fits.size]
    change objectSize.toNat ≤ (max objectSize.toNat 8 + 7) / 8 * 8
    omega
  · rw [hobjects, h.fits.size]
    exact Shape.all_apart h.apart
  · intro block hblock obj hobj
    rw [h.fits.blockObjects] at hobj
    rw [header_toNat, h.fits.size, h.fits.total]
    exact ⟨Shape.dvd hobj (h.blocks block hblock).1, Shape.inside hobj⟩
  · intro malloc hallowed
    exact (h.get hallowed).2

end

/-- Both objects of a block are handed out, overwritten and released, and the one that
was released last is handed out again. -/
theorem arena_conserves_two : ∃ s, s.held = [4104] ∧ s.allocated = [4096] ∧ Conserves 12 2 s := by
  let labels : List Label := [.get (some ⟨4096, fun _ => 255⟩), .get none, .write 4104 7,
    .write 4127 9, .release 4120, .release 4104, .get none]
  have hresult : (exec step Any (initial (fun _ => 170) 12 2) labels).map
      (fun s => (s.held, s.allocated)) = some ([4104], [4096]) := by decide +kernel
  obtain ⟨s, hrun, hs⟩ := run_of_exec_map hresult
  obtain ⟨hheld, hallocated⟩ := Prod.mk.inj hs
  exact ⟨s, hheld, hallocated, arena_conserves (by decide) hrun⟩

end Margo.Arena
