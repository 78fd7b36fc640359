import Mathlib.Data.BitVec

/-!
# Numbers as bytes in memory

A fixed number of bytes of a number, lowest first, and the number that a list
of bytes stands for. A bit vector whose width is a whole number of bytes is
recovered from its bytes.
-/

namespace Margo.Lib.Bytes

abbrev Byte := BitVec 8

/-- The `n` lowest bytes of a number, lowest first. -/
def digits : Nat → Nat → List Byte
  | 0, _ => []
  | n + 1, x => BitVec.ofNat 8 x :: digits n (x / 256)

/-- The number that a list of bytes stands for. -/
def value : List Byte → Nat
  | [] => 0
  | b :: bs => b.toNat + 256 * value bs

@[simp] theorem length_digits (n x : Nat) : (digits n x).length = n := by
  induction n generalizing x with
  | zero => rfl
  | succ n ih => simp [digits, ih]

theorem value_digits (n x : Nat) : value (digits n x) = x % 256 ^ n := by
  induction n generalizing x with
  | zero => simp [digits, value, Nat.mod_one]
  | succ n ih =>
      rw [digits, value, ih, BitVec.toNat_ofNat, pow_succ' 256 n, Nat.mod_mul]

theorem value_lt (bs : List Byte) : value bs < 256 ^ bs.length := by
  induction bs with
  | nil => exact Nat.one_pos
  | cons b bs ih =>
      have hb := b.isLt
      rw [value, List.length_cons, pow_succ']
      omega

/-- Bytes are told by the number they stand for. -/
theorem digits_value (bs : List Byte) : digits bs.length (value bs) = bs := by
  induction bs with
  | nil => rfl
  | cons b bs ih =>
      have hb := b.isLt
      have hhead : BitVec.ofNat 8 (value (b :: bs)) = b := by
        apply BitVec.eq_of_toNat_eq
        rw [BitVec.toNat_ofNat, value]
        omega
      have htail : value (b :: bs) / 256 = value bs := by
        rw [value]
        omega
      rw [List.length_cons, digits, hhead, htail, ih]

/-- The bytes of a word in memory. -/
def ofWord {w : Nat} (x : BitVec w) : List Byte := digits (w / 8) x.toNat

/-- The word that the bytes in memory are. -/
def toWord (w : Nat) (bs : List Byte) : BitVec w := BitVec.ofNat w (value bs)

@[simp] theorem length_ofWord {w : Nat} (x : BitVec w) : (ofWord x).length = w / 8 :=
  length_digits _ _

theorem toWord_ofWord {w : Nat} (hw : 8 ∣ w) (x : BitVec w) : toWord w (ofWord x) = x := by
  obtain ⟨n, rfl⟩ := hw
  have hlt : x.toNat < 256 ^ n := by
    have := x.isLt
    rwa [pow_mul] at this
  have hvalue : value (ofWord x) = x.toNat := by
    rw [ofWord, value_digits, Nat.mul_div_cancel_left n (by decide), Nat.mod_eq_of_lt hlt]
  rw [toWord, hvalue, BitVec.ofNat_toNat, BitVec.setWidth_eq]

/-- Words of one width take the same room. -/
theorem take_ofWord {w : Nat} (x y : BitVec w) (rest : List Byte) :
    (ofWord x ++ rest).take (ofWord y).length = ofWord x := by
  rw [length_ofWord, ← length_ofWord x, List.take_left]

theorem drop_ofWord {w : Nat} (x y : BitVec w) (rest : List Byte) :
    (ofWord x ++ rest).drop (ofWord y).length = rest := by
  rw [length_ofWord, ← length_ofWord x, List.drop_left]

end Margo.Lib.Bytes
