import Mathlib.Data.List.Range
import Mathlib.Data.List.Rotate
import Mathlib.Data.Int.ModEq

/-!
# Going around a cycle

Numbers below `n` that each follow the one before, with 0 after `n - 1`: any `n`
consecutive ones are all the numbers below `n`.
-/

namespace Margo.Lib.Cycle

/-- The first `n` numbers from `s` on, around the cycle of length `n`. -/
def lap (n s : Nat) : List Nat := (List.range n).rotate s

theorem lap_perm (n s : Nat) : (lap n s).Perm (List.range n) := List.rotate_perm _ _

theorem getElem?_lap {n i : Nat} (s : Nat) (hi : i < n) : (lap n s)[i]? = some ((s + i) % n) := by
  have hlen : (lap n s).length = n := by rw [lap, List.length_rotate, List.length_range]
  rw [List.getElem?_eq_getElem (hlen.symm ▸ hi)]
  simp [lap, List.getElem_rotate, Nat.add_comm]

/-- Entries of a list that follow each other around a cycle are a lap. -/
theorem take_eq_lap {l : List Int} {n s : Nat} (hs : s < n) (hhead : l[0]? = some (s : Int))
    (hnext : ∀ i (x : Int), i + 1 < n → l[i]? = some x → l[i + 1]? = some ((x + 1) % n)) :
    l.take n = (lap n s).map Int.ofNat := by
  have hentry : ∀ i < n, l[i]? = some (((s + i) % n : Nat) : Int) := by
    intro i
    induction i with
    | zero =>
        intro _
        rw [hhead, Nat.add_zero, Nat.mod_eq_of_lt hs]
    | succ i ih =>
        intro hi
        rw [hnext i _ hi (ih (by omega))]
        congr 1
        push_cast
        rw [Int.emod_add_emod, add_assoc]
  apply List.ext_getElem?
  intro i
  rw [List.getElem?_take, List.getElem?_map]
  split
  · next hi => rw [hentry i hi, getElem?_lap s hi, Option.map_some, Int.ofNat_eq_natCast]
  · next hi =>
      have hlen : (lap n s).length = n := by rw [lap, List.length_rotate, List.length_range]
      rw [List.getElem?_eq_none (by omega), Option.map_none]

/-- A lap meets every number once. -/
theorem take_perm {l : List Int} {n s : Nat} (hs : s < n) (hhead : l[0]? = some (s : Int))
    (hnext : ∀ i (x : Int), i + 1 < n → l[i]? = some x → l[i + 1]? = some ((x + 1) % n)) :
    (l.take n).Perm ((List.range n).map Int.ofNat) := by
  rw [take_eq_lap hs hhead hnext]
  exact (lap_perm n s).map _

end Margo.Lib.Cycle
