import Mathlib.Data.List.Perm.Basic

/-!
# Removal that moves the last element into the gap

Removing an entry of an array without keeping its order: the last entry takes
the place of the removed one and the array gets one shorter. Up to order this
is the removal of one entry, and every position but the two concerned keeps
its entry.
-/

namespace Margo.Lib

variable {α : Type*}

/-- Overwrite entry `i` with the last one and drop the last one. -/
def swapRemove (l : List α) (i : Nat) : List α :=
  match l.getLast? with
  | none => l
  | some last => (l.set i last).dropLast

theorem length_swapRemove {l : List α} {i : Nat} : (swapRemove l i).length = l.length - 1 := by
  unfold swapRemove
  cases l with
  | nil => rfl
  | cons a l => simp [List.getLast?_cons]

theorem swapRemove_concat (init : List α) (last : α) (i : Nat) :
    swapRemove (init ++ [last]) i = init.set i last := by
  simp only [swapRemove, List.getLast?_concat]
  by_cases hi : i < init.length
  · rw [List.set_append_left _ _ hi, List.dropLast_concat]
  · have hset : init.set i last = init := List.set_eq_of_length_le (by omega)
    rw [List.set_append_right _ _ (by omega), hset]
    cases hd : i - init.length with
    | zero => rw [List.set_cons_zero, List.dropLast_concat]
    | succ n => rw [List.set_cons_succ, List.set_nil, List.dropLast_concat]

/-- A removal among the images is the image of the removal. -/
theorem map_swapRemove {β : Type*} (f : α → β) (l : List α) (i : Nat) :
    swapRemove (l.map f) i = (swapRemove l i).map f := by
  obtain rfl | ⟨init, last, rfl⟩ := List.eq_nil_or_concat l
  · rfl
  · rw [List.concat_eq_append, List.map_append, List.map_singleton, swapRemove_concat,
      swapRemove_concat, List.map_set]

/-- Position `j` after the removal of entry `i`. -/
theorem getElem?_swapRemove (init : List α) (last : α) (i j : Nat) (hj : j < init.length) :
    (swapRemove (init ++ [last]) i)[j]? = if i = j then some last else init[j]? := by
  rw [swapRemove_concat, List.getElem?_set]
  by_cases hij : i = j
  · subst hij
    simp [hj]
  · simp [hij]

/-- Up to order, one entry is gone. -/
theorem perm_swapRemove {l : List α} {i : Nat} {a : α} (h : l[i]? = some a) :
    l.Perm (a :: swapRemove l i) := by
  rcases List.eq_nil_or_concat l with rfl | ⟨init, last, rfl⟩
  · simp at h
  rw [List.concat_eq_append] at h ⊢
  rw [swapRemove_concat]
  by_cases hi : i < init.length
  · rw [List.getElem?_append_left hi] at h
    obtain ⟨hi', rfl⟩ := List.getElem?_eq_some_iff.mp h
    have hsplit : init = init.take i ++ init[i] :: init.drop (i + 1) := by
      rw [List.getElem_cons_drop, List.take_append_drop]
    rw [List.set_eq_take_append_cons_drop, if_pos hi']
    calc
      (init ++ [last]).Perm (last :: init) := List.perm_append_singleton last init
      _ |>.Perm (last :: (init.take i ++ init[i] :: init.drop (i + 1))) :=
        List.Perm.of_eq (congrArg _ hsplit)
      _ |>.Perm (last :: init[i] :: (init.take i ++ init.drop (i + 1))) :=
        List.perm_middle.cons last
      _ |>.Perm (init[i] :: last :: (init.take i ++ init.drop (i + 1))) :=
        List.Perm.swap _ _ _
      _ |>.Perm (init[i] :: (init.take i ++ last :: init.drop (i + 1))) :=
        List.perm_middle.symm.cons _
  · have hlen : i = init.length := by
      have hlt := (List.getElem?_eq_some_iff.mp h).1
      simp only [List.length_append, List.length_cons, List.length_nil] at hlt
      omega
    subst hlen
    obtain rfl : last = a := by simpa using h
    rw [List.set_eq_of_length_le (Nat.le_refl _)]
    exact List.perm_append_singleton last init

end Margo.Lib
