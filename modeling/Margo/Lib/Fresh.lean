import Mathlib.Data.List.Nodup
import Mathlib.Data.List.Perm.Subperm

/-!
# Finding a name that is not in use

A generator tries candidates one after the other until one is not in a list
of used names. Distinct candidates cannot all be in a shorter list, so one
more candidate than there are names is always enough.
-/

namespace Margo.Lib.Fresh

variable {β : Type*} [DecidableEq β]

/-- The first of `fuel` candidates, from number `k` on, that is not used. -/
def firstUnused (candidate : Nat → β) (used : List β) : Nat → Nat → Option β
  | 0, _ => none
  | fuel + 1, k =>
      if candidate k ∈ used then firstUnused candidate used fuel (k + 1)
      else some (candidate k)

variable {candidate : Nat → β} {used : List β}

/-- What is found is a candidate that is not used. -/
theorem firstUnused_spec {fuel k : Nat} {b : β}
    (h : firstUnused candidate used fuel k = some b) :
    b ∉ used ∧ ∃ j, k ≤ j ∧ j < k + fuel ∧ b = candidate j := by
  induction fuel generalizing k with
  | zero => cases h
  | succ fuel ih =>
      simp only [firstUnused] at h
      split at h
      · obtain ⟨hb, j, hle, hlt, rfl⟩ := ih h
        exact ⟨hb, j, by omega, by omega, rfl⟩
      · next hnot =>
          obtain rfl := Option.some.inj h
          exact ⟨hnot, k, Nat.le_refl k, by omega, rfl⟩

theorem mem_of_firstUnused_none {fuel k : Nat}
    (h : firstUnused candidate used fuel k = none) :
    ∀ j, k ≤ j → j < k + fuel → candidate j ∈ used := by
  induction fuel generalizing k with
  | zero => exact fun j hle hlt => absurd hlt (by omega)
  | succ fuel ih =>
      simp only [firstUnused] at h
      split at h
      · next hmem =>
          intro j hle hlt
          rcases Nat.eq_or_lt_of_le hle with rfl | hlt'
          · exact hmem
          · exact ih h j hlt' (by omega)
      · cases h

/-- With distinct candidates, one more than there are names suffices. -/
theorem exists_firstUnused {k : Nat}
    (hinj : ∀ i j, k ≤ i → i ≤ k + used.length → k ≤ j → j ≤ k + used.length →
      candidate i = candidate j → i = j) :
    ∃ b, firstUnused candidate used (used.length + 1) k = some b := by
  cases hs : firstUnused candidate used (used.length + 1) k with
  | some b => exact ⟨b, rfl⟩
  | none =>
      have hmem := mem_of_firstUnused_none hs
      let tried := (List.range' k (used.length + 1)).map candidate
      have hnodup : tried.Nodup := by
        apply List.Nodup.map_on _ List.nodup_range'
        intro i hi j hj heq
        rw [List.mem_range'_1] at hi hj
        exact hinj i j hi.1 (by omega) hj.1 (by omega) heq
      have hsub : tried ⊆ used := by
        intro b hb
        obtain ⟨j, hj, rfl⟩ := List.mem_map.mp hb
        rw [List.mem_range'_1] at hj
        exact hmem j hj.1 hj.2
      have hlen := (hnodup.subperm hsub).length_le
      simp only [tried, List.length_map, List.length_range'] at hlen
      omega

/-- What is found with some fuel is found with more. -/
theorem firstUnused_mono {fuel fuel' k : Nat} {b : β}
    (h : firstUnused candidate used fuel k = some b) (hle : fuel ≤ fuel') :
    firstUnused candidate used fuel' k = some b := by
  induction fuel generalizing fuel' k with
  | zero => cases h
  | succ fuel ih =>
      obtain ⟨fuel', rfl⟩ := Nat.exists_eq_add_one.mpr (Nat.lt_of_lt_of_le (Nat.succ_pos _) hle)
      rw [firstUnused] at h ⊢
      by_cases hmem : candidate k ∈ used
      · rw [if_pos hmem] at h ⊢
        exact ih h (Nat.le_of_succ_le_succ hle)
      · rwa [if_neg hmem] at h ⊢

end Margo.Lib.Fresh
