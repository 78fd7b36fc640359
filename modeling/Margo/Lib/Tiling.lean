import Mathlib.Algebra.GroupWithZero.Nat
import Mathlib.Data.List.Basic
import Mathlib.Data.List.Range

/-!
# Consecutive pieces of a range

A list of pieces, each a start and a length, tiles a range of addresses if the
first piece starts where the range does and each next one starts where the one
before it ends, up to the end of the range.
-/

namespace Margo.Lib.Tiling

/-- The pieces follow each other from `lo` to `hi`. -/
def Tiles : Nat → List (Nat × Nat) → Nat → Prop
  | lo, [], hi => lo = hi
  | lo, p :: ps, hi => p.1 = lo ∧ Tiles (lo + p.2) ps hi

variable {lo hi : Nat} {ps : List (Nat × Nat)}

theorem Tiles.sum (h : Tiles lo ps hi) : lo + (ps.map Prod.snd).sum = hi := by
  induction ps generalizing lo with
  | nil => exact h
  | cons p ps ih =>
      rw [List.map_cons, List.sum_cons, ← Nat.add_assoc]
      exact ih h.2

theorem Tiles.le (h : Tiles lo ps hi) : lo ≤ hi := h.sum ▸ Nat.le_add_right _ _

/-- No piece reaches out of the range. -/
theorem Tiles.within (h : Tiles lo ps hi) {p : Nat × Nat} (hp : p ∈ ps) :
    lo ≤ p.1 ∧ p.1 + p.2 ≤ hi := by
  induction ps generalizing lo with
  | nil => exact absurd hp List.not_mem_nil
  | cons q ps ih =>
      obtain rfl | hp := List.mem_cons.mp hp
      · exact ⟨h.1.ge, h.1.symm ▸ h.2.le⟩
      · exact ⟨Nat.le_of_add_right_le (ih h.2 hp).1, (ih h.2 hp).2⟩

/-- Pieces do not overlap. -/
theorem Tiles.pairwise (h : Tiles lo ps hi) : ps.Pairwise fun p q => p.1 + p.2 ≤ q.1 := by
  induction ps generalizing lo with
  | nil => exact List.Pairwise.nil
  | cons p ps ih =>
      refine List.Pairwise.cons (fun q hq => ?_) (ih h.2)
      rw [h.1]
      exact (h.2.within hq).1

/-- The pieces cover the range. -/
theorem Tiles.cover (h : Tiles lo ps hi) (a : Nat) :
    (∃ p ∈ ps, p.1 ≤ a ∧ a < p.1 + p.2) ↔ lo ≤ a ∧ a < hi := by
  constructor
  · rintro ⟨p, hp, hle, hlt⟩
    have hin := h.within hp
    omega
  · rintro ⟨hle, hlt⟩
    induction ps generalizing lo with
    | nil =>
        obtain rfl : lo = hi := h
        omega
    | cons p ps ih =>
        by_cases hin : a < lo + p.2
        · exact ⟨p, List.mem_cons_self, h.1.symm ▸ hle, h.1.symm ▸ hin⟩
        · obtain ⟨q, hq, hcover⟩ := ih h.2 (Nat.le_of_not_lt hin)
          exact ⟨q, List.mem_cons_of_mem p hq, hcover⟩

/-- Pieces of one length tile a multiple of it. -/
theorem tiles_range (lo e n : Nat) :
    Tiles lo ((List.range n).map fun j => (lo + j * e, e)) (lo + n * e) := by
  induction n generalizing lo with
  | zero => simp [Tiles]
  | succ n ih =>
      rw [List.range_succ_eq_map, List.map_cons, List.map_map]
      refine ⟨by simp, ?_⟩
      have hshift : ((fun j => (lo + j * e, e)) ∘ Nat.succ) = fun j => (lo + e + j * e, e) := by
        funext j
        rw [Function.comp_apply, Nat.succ_mul, Nat.add_comm (j * e), Nat.add_assoc]
      have hend : lo + (n + 1) * e = lo + e + n * e := by
        rw [Nat.succ_mul]
        omega
      rw [hshift, hend]
      exact ih (lo + e)

end Margo.Lib.Tiling
