import Mathlib.Data.List.Basic

/-!
# A stack at the end of an array

The last `k` entries of an array are a stack whose top is the first of them.
The entries before it are stale: a pop leaves its entry where it is, and a push
overwrites the one just before the top.
-/

namespace Margo.Lib.EndStack

variable {α : Type*} {xs : List α} {k : Nat}

/-- The last `k` entries of an array. -/
def region (xs : List α) (k : Nat) : List α := xs.drop (xs.length - k)

@[simp] theorem region_zero (xs : List α) : region xs 0 = [] := by
  rw [region, Nat.sub_zero, List.drop_length]

@[simp] theorem region_length_self (xs : List α) : region xs xs.length = xs := by
  rw [region, Nat.sub_self, List.drop_zero]

theorem length_region (h : k ≤ xs.length) : (region xs k).length = k := by
  rw [region, List.length_drop]
  omega

/-- A pop reads the entry that follows the stale ones. -/
theorem region_succ (h : k < xs.length) :
    region xs (k + 1) = xs[xs.length - (k + 1)] :: region xs k := by
  have hnext : xs.length - (k + 1) + 1 = xs.length - k := by omega
  rw [region, List.drop_eq_getElem_cons (by omega), hnext, region]

/-- A push overwrites the last of the stale entries. -/
theorem region_set (h : k < xs.length) (x : α) :
    region (xs.set (xs.length - (k + 1)) x) (k + 1) = x :: region xs k := by
  have hlt : xs.length - (k + 1) < xs.length := by omega
  have hnext : xs.length - (k + 1) + 1 = xs.length - k := by omega
  rw [region, List.length_set, List.drop_eq_getElem_cons (by rwa [List.length_set]),
    List.getElem_set_self, List.drop_set_of_lt (by omega), hnext, region]

end Margo.Lib.EndStack
