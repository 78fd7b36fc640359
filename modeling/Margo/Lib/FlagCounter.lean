import Mathlib.Algebra.Group.Nat.Defs
import Mathlib.Data.Nat.Basic

/-!
# A flag and a counter packed into one machine word

The top bit of an `(n + 1)`-bit word is a flag, its low `n` bits a counter.
Setting the flag never touches the counter. Adding or subtracting one moves
only the counter, as long as the addition does not carry into the flag and
the subtraction does not borrow from it.
-/

namespace Margo.Lib.FlagCounter

variable {n : Nat}

/-- The flag carried by the top bit. -/
def flag (w : BitVec (n + 1)) : Bool := w.msb

/-- The counter carried by the low bits. -/
def count (w : BitVec (n + 1)) : Nat := w.toNat % 2 ^ n

theorem count_lt (w : BitVec (n + 1)) : count w < 2 ^ n :=
  Nat.mod_lt _ (Nat.two_pow_pos n)

theorem flag_eq_decide (w : BitVec (n + 1)) : flag w = decide (2 ^ n ≤ w.toNat) := by
  simp [flag, BitVec.msb_eq_decide]

/-- A word is determined by its flag and its counter. -/
theorem toNat_eq (w : BitVec (n + 1)) :
    w.toNat = (if flag w then 2 ^ n else 0) + count w := by
  have hw : w.toNat < 2 ^ n * 2 := by
    have h := w.isLt
    rwa [Nat.pow_succ] at h
  rw [flag_eq_decide, count]
  by_cases h : 2 ^ n ≤ w.toNat
  · have hsub : w.toNat % 2 ^ n = w.toNat - 2 ^ n := by
      rw [Nat.mod_eq_sub_mod h, Nat.mod_eq_of_lt (by omega)]
    simp only [h, decide_true, if_true]
    omega
  · have hlt : w.toNat % 2 ^ n = w.toNat := Nat.mod_eq_of_lt (by omega)
    simp [h, hlt]

theorem flag_count_of_toNat {w : BitVec (n + 1)} {b : Bool} {k : Nat} (hk : k < 2 ^ n)
    (h : w.toNat = (if b then 2 ^ n else 0) + k) : flag w = b ∧ count w = k := by
  constructor
  · rw [flag_eq_decide, h]
    cases b <;> simp [hk]
  · rw [count, h]
    cases b <;> simp [Nat.mod_eq_of_lt hk]

/-- The top bit alone, as a word. -/
def topBit (n : Nat) : BitVec (n + 1) := BitVec.twoPow (n + 1) n

@[simp] theorem flag_or_topBit (w : BitVec (n + 1)) : flag (w ||| topBit n) = true := by
  simp [flag, topBit, BitVec.msb_or, BitVec.msb_twoPow]

@[simp] theorem count_or_topBit (w : BitVec (n + 1)) :
    count (w ||| topBit n) = count w := by
  simp only [count, topBit, BitVec.toNat_or, BitVec.toNat_twoPow, Nat.or_mod_two_pow]
  have h : 2 ^ n % 2 ^ (n + 1) = 2 ^ n :=
    Nat.mod_eq_of_lt (Nat.pow_lt_pow_right (by omega) (by omega))
  simp [h]

/-- All bits but the top one, as a word. -/
def lowBits (n : Nat) : BitVec (n + 1) := BitVec.ofNat (n + 1) (2 ^ n - 1)

/-- Masking with the top bit tests the flag. -/
theorem and_topBit_eq_zero_iff (w : BitVec (n + 1)) :
    w &&& topBit n = 0#(n + 1) ↔ flag w = false := by
  have hmsb : flag w = w.getLsbD n := by simp [flag, BitVec.msb_eq_getLsbD_last]
  rw [hmsb, topBit, BitVec.and_twoPow]
  cases w.getLsbD n <;> simp

/-- Masking with the low bits tests the counter. -/
theorem and_lowBits_eq_zero_iff (w : BitVec (n + 1)) :
    w &&& lowBits n = 0#(n + 1) ↔ count w = 0 := by
  have hmask : (2 ^ n - 1) % 2 ^ (n + 1) = 2 ^ n - 1 := by
    have hp : 2 ^ (n + 1) = 2 ^ n * 2 := Nat.pow_succ 2 n
    have hpos : 0 < 2 ^ n := Nat.two_pow_pos n
    rw [Nat.mod_eq_of_lt]
    omega
  have hval : (w &&& lowBits n).toNat = count w := by
    rw [BitVec.toNat_and, lowBits, BitVec.toNat_ofNat, hmask,
      Nat.and_two_pow_sub_one_eq_mod, count]
  rw [← hval]
  exact ⟨fun h => by simp [h], fun h => BitVec.eq_of_toNat_eq (by simpa using h)⟩

/-- Counting up without a carry. -/
theorem add_one (w : BitVec (n + 1)) (h : count w + 1 < 2 ^ n) :
    flag (w + 1) = flag w ∧ count (w + 1) = count w + 1 := by
  apply flag_count_of_toNat h
  have hw := toNat_eq w
  have hp : 2 ^ (n + 1) = 2 ^ n * 2 := Nat.pow_succ 2 n
  have hone : (1 : BitVec (n + 1)).toNat = 1 := by
    simp [BitVec.toNat_ofNat]
  rw [BitVec.toNat_add, hone, Nat.mod_eq_of_lt]
  · omega
  · split at hw <;> omega

/-- Counting down without a borrow. -/
theorem sub_one (w : BitVec (n + 1)) (h : 0 < count w) :
    flag (w - 1) = flag w ∧ count (w - 1) = count w - 1 := by
  have hlt := count_lt w
  apply flag_count_of_toNat (by omega)
  have hw := toNat_eq w
  have hp : 2 ^ (n + 1) = 2 ^ n * 2 := Nat.pow_succ 2 n
  have hone : (1 : BitVec (n + 1)).toNat = 1 := by
    simp [BitVec.toNat_ofNat]
  have hsub : 2 ^ (n + 1) - 1 + w.toNat = (w.toNat - 1) + 2 ^ (n + 1) := by omega
  rw [BitVec.toNat_sub, hone, hsub, Nat.add_mod_right, Nat.mod_eq_of_lt]
  · omega
  · split at hw <;> omega

end Margo.Lib.FlagCounter
