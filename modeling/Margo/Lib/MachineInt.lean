import Margo.Lib.Bytes
import Mathlib.Algebra.Group.Nat.Defs
import Mathlib.Logic.Function.Iterate
import Mathlib.Tactic.NormNum

/-!
# Machine integers

The arithmetic of `size_t`, `unsigned` and `int`, of 64, 32 and 32 bits.

## Implementation notes

An unsigned value is a natural number below `2 ^ 64` or `2 ^ 32`, a signed one an
integer. A result is taken modulo the number of values into the range of the type, and it
is exact where it is in this range. In memory an `int` is four bytes, lowest first.
-/

/-! ## `size_t` -/

namespace Margo.Lib.SizeT

/-- `+` on a `size_t`. -/
def add (a b : Nat) : Nat := (a + b) % 2 ^ 64

/-- `-` on a `size_t`. -/
def sub (a b : Nat) : Nat := (a + (2 ^ 64 - b)) % 2 ^ 64

/-- `*` on a `size_t`. -/
def mul (a b : Nat) : Nat := (a * b) % 2 ^ 64

variable {a b : Nat}

theorem add_of_lt (h : a + b < 2 ^ 64) : add a b = a + b := Nat.mod_eq_of_lt h

theorem sub_of_le (hle : b ≤ a) (ha : a < 2 ^ 64) : sub a b = a - b := by
  unfold sub
  omega

theorem mul_of_lt (h : a * b < 2 ^ 64) : mul a b = a * b := Nat.mod_eq_of_lt h

end Margo.Lib.SizeT

/-! ## Counters in an `unsigned` -/

namespace Margo.Lib

/-- `++` on an `unsigned`. -/
def incr32 (x : Nat) : Nat := (x + 1) % 2 ^ 32

/-- `--` on an `unsigned`. -/
def decr32 (x : Nat) : Nat := if x = 0 then 2 ^ 32 - 1 else x - 1

theorem incr32_of_lt {x : Nat} (h : x + 1 < 2 ^ 32) : incr32 x = x + 1 :=
  Nat.mod_eq_of_lt h

theorem decr32_of_pos {x : Nat} (h : 0 < x) : decr32 x = x - 1 :=
  if_neg (Nat.ne_of_gt h)

theorem incr32_mod (n : Nat) : incr32 (n % 2 ^ 32) = (n + 1) % 2 ^ 32 :=
  Nat.mod_add_mod n (2 ^ 32) 1

theorem decr32_mod (n : Nat) : decr32 ((n + 1) % 2 ^ 32) = n % 2 ^ 32 := by
  unfold decr32
  split <;> omega

/-- Counting up `k` times. -/
theorem incr32_iterate (k n : Nat) : incr32^[k] (n % 2 ^ 32) = (n + k) % 2 ^ 32 := by
  induction k generalizing n with
  | zero => rfl
  | succ k ih => rw [Function.iterate_succ_apply, incr32_mod, ih, Nat.add_right_comm, Nat.add_assoc]

/-- A count comes back to its value only after `2 ^ 32` steps. -/
theorem incr32_iterate_ne {k : Nat} (hpos : 0 < k) (hlt : k < 2 ^ 32) (x : Nat) :
    incr32^[k] x ≠ x := by
  obtain ⟨j, rfl⟩ := Nat.exists_eq_succ_of_ne_zero (Nat.ne_of_gt hpos)
  rw [Function.iterate_succ_apply, incr32, incr32_iterate]
  omega

/-- Counting down `k` times. -/
theorem decr32_iterate (k n : Nat) : decr32^[k] ((n + k) % 2 ^ 32) = n % 2 ^ 32 := by
  induction k with
  | zero => rfl
  | succ k ih => rw [Function.iterate_succ_apply, ← Nat.add_assoc, decr32_mod, ih]

end Margo.Lib

/-! ## `int` -/

namespace Margo.Lib.Int32

open Bytes

/-- The value that an `int` takes. -/
def wrap (x : Int) : Int := (x + 2 ^ 31) % 2 ^ 32 - 2 ^ 31

/-- The four bytes of an `int`. -/
def toBytes (x : Int) : List Byte := digits 4 (x % 2 ^ 32).toNat

/-- The `int` in memory. -/
def ofBytes (bs : List Byte) : Int := wrap (value bs)

theorem wrap_of_mem {x : Int} (hlower : -2 ^ 31 ≤ x) (hupper : x < 2 ^ 31) : wrap x = x := by
  rw [wrap]
  omega

theorem wrap_mem (x : Int) : -2 ^ 31 ≤ wrap x ∧ wrap x < 2 ^ 31 := by
  rw [wrap]
  omega

@[simp] theorem length_toBytes (x : Int) : (toBytes x).length = 4 := length_digits 4 _

theorem ofBytes_toBytes {x : Int} (hlower : -2 ^ 31 ≤ x) (hupper : x < 2 ^ 31) :
    ofBytes (toBytes x) = x := by
  have hvalue : value (toBytes x) = (x % 2 ^ 32).toNat := by
    rw [toBytes, value_digits]
    omega
  rw [ofBytes, hvalue, wrap]
  omega

/-- The largest `int` has these bytes. -/
theorem ofBytes_eq_max_iff {bs : List Byte} (hlen : bs.length = 4) :
    ofBytes bs = 2 ^ 31 - 1 ↔ bs = [255, 255, 255, 127] := by
  have hmax : value [255, 255, 255, 127] = 2 ^ 31 - 1 := rfl
  have hlt := value_lt bs
  rw [hlen] at hlt
  constructor
  · intro h
    have hvalue : value bs = 2 ^ 31 - 1 := by
      rw [ofBytes, wrap] at h
      omega
    calc
      bs = digits bs.length (value bs) := (digits_value bs).symm
      _ = digits 4 (2 ^ 31 - 1) := by rw [hlen, hvalue]
      _ = [255, 255, 255, 127] := rfl
  · rintro rfl
    rw [ofBytes, hmax]
    rfl

end Margo.Lib.Int32
