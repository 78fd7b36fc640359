import Margo.Arena.Model
import Mathlib.Data.List.Pairwise

/-!
# Blocks and objects of an arena

How large the objects and blocks of an arena are, and where the objects of its
blocks lie: aligned, behind the header of their block, and away from each other.

## Implementation notes

A shape is the size and the number of the objects of a block, with what makes
the arithmetic of `size_t` exact.
-/

namespace Margo.Arena

open Lib.Bytes Lib.ByteMemory Lib.Runs

/-! ## Sizes -/

theorem and_not_seven (x : BitVec 64) : (x &&& ~~~7).toNat = x.toNat / 8 * 8 := by
  have hmask : (~~~(7 : BitVec 64)).toNat = (2 ^ 61 - 1) <<< 3 := by decide
  have hshift : x.toNat / 8 * 8 = (x.toNat >>> 3) <<< 3 := by
    rw [Nat.shiftLeft_eq, Nat.shiftRight_eq_div_pow]
  rw [BitVec.toNat_and, hmask, hshift]
  apply Nat.eq_of_testBit_eq
  intro i
  simp only [Nat.testBit_and, Nat.testBit_shiftLeft, Nat.testBit_two_pow_sub_one,
    Nat.testBit_shiftRight]
  by_cases hlow : 3 ≤ i
  · rw [show 3 + (i - 3) = i by omega]
    by_cases hhigh : i < 64
    · simp [hlow, show i - 3 < 61 by omega]
    · have hbit : x.toNat.testBit i = false :=
        Nat.testBit_lt_two_pow (x.isLt.trans_le (Nat.pow_le_pow_right (by decide) (by omega)))
      simp [hbit]
  · simp [hlow]

/-- `round_up` gives the next multiple of 8. -/
theorem roundUp_eight (x : BitVec 64) (h : x.toNat + 7 < 2 ^ 64) :
    (roundUp x 8).toNat = (x.toNat + 7) / 8 * 8 := by
  have hsum : (x + 7).toNat = x.toNat + 7 := by
    rw [BitVec.toNat_add]
    exact Nat.mod_eq_of_lt h
  rw [roundUp, show (8 : BitVec 64) - 1 = 7 by decide, and_not_seven, hsum]

theorem header_toNat : header.toNat = 8 := by decide

/-- The size of the objects for a requested size. -/
def objectBytes (objectSize : BitVec 64) : Nat := (max objectSize.toNat 8 + 7) / 8 * 8

/-- The number of objects of a block for a requested number. -/
def capacity (initialCapacity : BitVec 64) : Nat := max initialCapacity.toNat 1

/-- The sizes of the blocks of an arena. -/
structure Shape where
  size : Nat
  capacity : Nat
  room : 8 ≤ size
  aligned : 8 ∣ size
  nonempty : 1 ≤ capacity
  fits : 8 + capacity * size < 2 ^ 64

/-- The shape of a new arena whose blocks have a size that is a `size_t`. -/
def Shape.of (objectSize initialCapacity : BitVec 64)
    (h : 8 + Arena.capacity initialCapacity * objectBytes objectSize < 2 ^ 64) : Shape where
  size := objectBytes objectSize
  capacity := Arena.capacity initialCapacity
  room := by
    unfold objectBytes
    omega
  aligned := Nat.dvd_mul_left 8 _
  nonempty := Nat.le_max_right ..
  fits := h

def Shape.total (sh : Shape) : Nat := 8 + sh.capacity * sh.size

/-- The arena has this shape. -/
structure Shape.Fits (sh : Shape) (arena : MochiArena) : Prop where
  size : arena.objectSize.toNat = sh.size
  capacity : arena.blockCapacity.toNat = sh.capacity

theorem Shape.Fits.total {sh : Shape} {arena : MochiArena} (h : sh.Fits arena) :
    arena.total.toNat = sh.total := by
  have hfits := sh.fits
  have hmul : (arena.blockCapacity * arena.objectSize).toNat = sh.capacity * sh.size := by
    rw [BitVec.toNat_mul, h.size, h.capacity]
    exact Nat.mod_eq_of_lt (by omega)
  rw [MochiArena.total, BitVec.toNat_add, header_toNat, hmul]
  exact Nat.mod_eq_of_lt hfits

theorem Shape.fits_create {objectSize initialCapacity : BitVec 64}
    (h : 8 + Arena.capacity initialCapacity * objectBytes objectSize < 2 ^ 64) :
    (Shape.of objectSize initialCapacity h).Fits
      (mochiArenaCreate objectSize initialCapacity) where
  size := by
    have hcapacity : 1 ≤ Arena.capacity initialCapacity := Nat.le_max_right ..
    have hsize : objectBytes objectSize < 2 ^ 64 - 8 := by
      have := Nat.le_mul_of_pos_left (objectBytes objectSize) hcapacity
      omega
    have hmax : (if objectSize < 8 then 8 else objectSize : BitVec 64).toNat =
        max objectSize.toNat 8 := by
      have hlt : objectSize < 8 ↔ objectSize.toNat < 8 := BitVec.lt_def
      split
      · next hless =>
          have := hlt.mp hless
          change 8 = _
          omega
      · next hless =>
          have := mt hlt.mpr hless
          omega
    unfold objectBytes at hsize
    change (roundUp (if objectSize < 8 then 8 else objectSize) 8).toNat = objectBytes objectSize
    rw [roundUp_eight _ (by rw [hmax]; omega), hmax, objectBytes]
  capacity := by
    have hlt : initialCapacity < 1 ↔ initialCapacity.toNat < 1 := BitVec.lt_def
    change (if initialCapacity < 1 then 1 else initialCapacity : BitVec 64).toNat =
      max initialCapacity.toNat 1
    split
    · next hless =>
        have := hlt.mp hless
        change 1 = _
        omega
    · next hless =>
        have := mt hlt.mpr hless
        omega

/-! ## Objects -/

section

variable {sh : Shape} {block obj : Nat} {blocks : List Nat}

/-- The objects of a block. -/
def Shape.objects (sh : Shape) (block : Nat) : List Nat :=
  (List.range sh.capacity).map fun i => block + 8 + i * sh.size

/-- The objects of all blocks. -/
def Shape.all (sh : Shape) (blocks : List Nat) : List Nat := blocks.flatMap sh.objects

/-- An object begins behind the header and ends inside the block. -/
theorem Shape.inside (h : obj ∈ sh.objects block) :
    block + 8 ≤ obj ∧ obj + sh.size ≤ block + sh.total := by
  obtain ⟨i, hi, rfl⟩ := List.mem_map.mp h
  have hle : (i + 1) * sh.size ≤ sh.capacity * sh.size :=
    Nat.mul_le_mul_right _ (List.mem_range.mp hi)
  rw [Nat.succ_mul] at hle
  unfold total
  omega

theorem Shape.dvd (h : obj ∈ sh.objects block) (hblock : 8 ∣ block) : 8 ∣ obj := by
  obtain ⟨i, -, rfl⟩ := List.mem_map.mp h
  exact Nat.dvd_add (Nat.dvd_add hblock (Nat.dvd_refl 8)) (sh.aligned.mul_left i)

/-- Two objects of a block do not overlap. -/
theorem Shape.apart_of_lt {i j : Nat} (h : i < j) :
    Apart sh.size (block + 8 + i * sh.size) (block + 8 + j * sh.size) := by
  have hle : (i + 1) * sh.size ≤ j * sh.size := Nat.mul_le_mul_right _ h
  rw [Nat.succ_mul] at hle
  left
  omega

theorem Shape.objects_apart (sh : Shape) (block : Nat) :
    (sh.objects block).Pairwise (Apart sh.size) := by
  rw [objects, List.pairwise_map]
  exact List.pairwise_lt_range.imp apart_of_lt

/-- No two objects overlap. -/
theorem Shape.all_apart (h : blocks.Pairwise (Apart sh.total)) :
    (sh.all blocks).Pairwise (Apart sh.size) := by
  rw [all, List.pairwise_flatMap]
  refine ⟨fun block _ => sh.objects_apart block, h.imp ?_⟩
  intro b c hbc x hx y hy
  have hxb := inside hx
  have hyc := inside hy
  unfold Apart at hbc ⊢
  omega

theorem Shape.nodup_of_apart {objs : List Nat} (h : objs.Pairwise (Apart sh.size)) :
    objs.Nodup := by
  apply h.imp
  rintro a _ hab rfl
  have := sh.room
  unfold Apart at hab
  omega

/-- An object does not overlap the header of a block. -/
theorem Shape.header_apart (hblocks : blocks.Pairwise (Apart sh.total)) (hblock : block ∈ blocks)
    (hobj : obj ∈ sh.all blocks) : block + 8 ≤ obj ∨ obj + sh.size ≤ block := by
  obtain ⟨b, hb, hobj⟩ := List.mem_flatMap.mp hobj
  have hinside := inside hobj
  by_cases heq : b = block
  · omega
  · have hapart : Apart sh.total b block := hblocks.forall hb hblock heq
    unfold Apart at hapart
    have hheader : 8 ≤ sh.total := Nat.le_add_right ..
    omega

end

end Margo.Arena
