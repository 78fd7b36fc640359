import Mathlib.Algebra.BigOperators.Group.List.Basic
import Mathlib.Algebra.Order.BigOperators.Group.List
import Mathlib.Algebra.BigOperators.Ring.List
import Mathlib.Algebra.Order.Field.Basic
import Mathlib.Algebra.Order.Ring.Abs
import Mathlib.Tactic.FieldSimp
import Mathlib.Tactic.Ring

/-!
# Mean and squared deviations of a list of numbers

The sum of the squared deviations from the mean grows with every number by the product of
its deviations from the old and from the new mean. Divided by the number of entries it is
the variance.
-/

namespace Margo.Lib.Deviation

section

variable {K : Type*} [Field K]

/-- The mean, 0 for no numbers. -/
def mean (xs : List K) : K := xs.sum / xs.length

/-- The sum of the squared deviations from the mean. -/
def deviations (xs : List K) : K := (xs.map fun x => (x - mean xs) ^ 2).sum

/-- The population variance. -/
def variance (xs : List K) : K := deviations xs / xs.length

theorem sum_sq_sub (xs : List K) (m : K) :
    (xs.map fun x => (x - m) ^ 2).sum =
      (xs.map (· ^ 2)).sum - 2 * m * xs.sum + xs.length * m ^ 2 := by
  induction xs with
  | nil => simp
  | cons x xs ih =>
      simp only [List.map_cons, List.sum_cons, List.length_cons, ih]
      push_cast
      ring

variable [CharZero K]

theorem deviations_eq {xs : List K} (hne : xs ≠ []) :
    deviations xs = (xs.map (· ^ 2)).sum - xs.sum ^ 2 / xs.length := by
  have hlen : (xs.length : K) ≠ 0 := Nat.cast_ne_zero.mpr (mt List.length_eq_zero_iff.mp hne)
  rw [deviations, sum_sq_sub, mean]
  field_simp
  ring

/-- One more number. -/
theorem deviations_concat (xs : List K) (x : K) :
    deviations (xs ++ [x]) = deviations xs + (x - mean xs) * (x - mean (xs ++ [x])) := by
  by_cases hne : xs = []
  · simp [hne, deviations, mean]
  · have hlen : (xs.length : K) ≠ 0 := Nat.cast_ne_zero.mpr (mt List.length_eq_zero_iff.mp hne)
    have hsucc : (xs.length : K) + 1 ≠ 0 := Nat.cast_add_one_ne_zero xs.length
    rw [deviations_eq hne, deviations_eq (List.append_ne_nil_of_right_ne_nil xs (by simp)), mean,
      mean]
    simp only [List.map_append, List.map_singleton, List.sum_append, List.sum_singleton,
      List.length_append, List.length_singleton]
    push_cast
    field_simp
    ring

end

section

variable {K : Type*} [Field K] [LinearOrder K] [IsStrictOrderedRing K] {xs : List K}

/-- The deviations vanish exactly if all numbers are equal. -/
theorem deviations_eq_zero_iff : deviations xs = 0 ↔ ∀ x ∈ xs, ∀ y ∈ xs, x = y := by
  constructor
  · intro hzero
    have hmean : ∀ x ∈ xs, x = mean xs := by
      intro x hx
      have hle := List.single_le_sum (l := xs.map fun x => (x - mean xs) ^ 2)
        (by simp [sq_nonneg]) _ (List.mem_map_of_mem hx)
      have hsq : (x - mean xs) ^ 2 = 0 := le_antisymm (hle.trans_eq hzero) (sq_nonneg _)
      exact sub_eq_zero.mp (pow_eq_zero_iff two_ne_zero |>.mp hsq)
    intro x hx y hy
    rw [hmean x hx, ← hmean y hy]
  · intro hequal
    cases xs with
    | nil => rfl
    | cons a xs =>
        have hall : ∀ x ∈ a :: xs, x = a := fun x hx => hequal x hx a List.mem_cons_self
        have hlist : a :: xs = List.replicate (xs.length + 1) a := List.eq_replicate_of_mem hall
        have hlen : ((xs.length : K) + 1) ≠ 0 := Nat.cast_add_one_ne_zero xs.length
        have hmean : mean (a :: xs) = a := by
          rw [hlist, mean, List.sum_replicate, List.length_replicate, nsmul_eq_mul]
          push_cast
          field_simp
        rw [deviations, hmean, List.sum_eq_zero]
        intro d hd
        obtain ⟨x, hx, rfl⟩ := List.mem_map.mp hd
        rw [hall x hx, sub_self, zero_pow two_ne_zero]

/-- The sum of the squared deviations is the variance exactly if all numbers are equal. -/
theorem deviations_eq_variance_iff (hne : xs ≠ []) :
    deviations xs = variance xs ↔ ∀ x ∈ xs, ∀ y ∈ xs, x = y := by
  rw [variance, ← deviations_eq_zero_iff]
  constructor
  · intro h
    by_cases hone : xs.length = 1
    · obtain ⟨x, rfl⟩ := List.length_eq_one_iff.mp hone
      simp [deviations, mean]
    · have hlen : (xs.length : K) ≠ 0 :=
        Nat.cast_ne_zero.mpr (mt List.length_eq_zero_iff.mp hne)
      have hmany : (xs.length : K) - 1 ≠ 0 := sub_ne_zero.mpr (mt Nat.cast_eq_one.mp hone)
      have hproduct : deviations xs * ((xs.length : K) - 1) = 0 := by
        field_simp at h
        rw [mul_sub, mul_one, sub_eq_zero]
        exact h
      exact (mul_eq_zero.mp hproduct).resolve_right hmany
  · intro hzero
    rw [hzero, zero_div]

end

end Margo.Lib.Deviation
