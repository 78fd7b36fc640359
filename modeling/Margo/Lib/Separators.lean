import Mathlib

/-!
# Texts put together with a separator

Where a character cannot occur in one of two parts of a text, it tells where the part ends:
the first part if it is the one without the character, else the last one. The digits of a
number contain no other character, and they tell the number.
-/

namespace Margo.Lib.Separators

section

variable {α : Type*} {c : α} {xs xs' ys ys' : List α}

/-- A first part without the separator ends where the separator is met first. -/
theorem split_first (hx : c ∉ xs) (hx' : c ∉ xs') (h : xs ++ c :: ys = xs' ++ c :: ys') :
    xs = xs' ∧ ys = ys' := by
  induction xs generalizing xs' with
  | nil =>
      cases xs' with
      | nil => exact ⟨rfl, (List.cons.inj h).2⟩
      | cons x' xs' => exact absurd ((List.cons.inj h).1 ▸ List.mem_cons_self) hx'
  | cons x xs ih =>
      cases xs' with
      | nil => exact absurd ((List.cons.inj h).1 ▸ List.mem_cons_self) hx
      | cons x' xs' =>
          obtain ⟨rfl, hrest⟩ := List.cons.inj h
          obtain ⟨rfl, rfl⟩ := ih (fun hmem => hx (List.mem_cons_of_mem x hmem))
            (fun hmem => hx' (List.mem_cons_of_mem x hmem)) hrest
          exact ⟨rfl, rfl⟩

/-- A last part without the separator starts where the separator is met last. -/
theorem split_last (hy : c ∉ ys) (hy' : c ∉ ys') (h : xs ++ c :: ys = xs' ++ c :: ys') :
    xs = xs' ∧ ys = ys' := by
  have hreverse := congrArg List.reverse h
  simp only [List.reverse_append, List.reverse_cons, List.append_assoc, List.singleton_append]
    at hreverse
  obtain ⟨hys, hxs⟩ := split_first (mt List.mem_reverse.mp hy) (mt List.mem_reverse.mp hy')
    hreverse
  exact ⟨List.reverse_inj.mp hxs, List.reverse_inj.mp hys⟩

end

/-! ## Decimals -/

/-- The digits of a number. -/
theorem isDigit_of_mem_repr {n : Nat} {c : Char} (hc : c ∈ n.repr.toList) : c.isDigit = true := by
  rw [Nat.toList_repr] at hc
  exact Nat.isDigit_of_mem_toDigits (by decide) (by decide) hc

theorem not_mem_repr {c : Char} (hc : c.isDigit = false) (n : Nat) : c ∉ n.repr.toList := by
  intro hmem
  rw [isDigit_of_mem_repr hmem] at hc
  cases hc

/-- A number, a separator and the rest. -/
theorem repr_append_inj {n m : Nat} {c : Char} {s t : String} (hc : c.isDigit = false)
    (h : n.repr ++ (String.singleton c ++ s) = m.repr ++ (String.singleton c ++ t)) :
    n = m ∧ s = t := by
  have hlist := congrArg String.toList h
  simp only [String.toList_append, String.toList_singleton, List.singleton_append] at hlist
  obtain ⟨hn, hs⟩ := split_first (not_mem_repr hc n) (not_mem_repr hc m) hlist
  exact ⟨Nat.repr_injective (String.toList_injective hn), String.toList_injective hs⟩

/-- A text, a separator and a number. -/
theorem append_repr_inj {n m : Nat} {c : Char} {s t : String} (hc : c.isDigit = false)
    (h : s ++ (String.singleton c ++ n.repr) = t ++ (String.singleton c ++ m.repr)) :
    s = t ∧ n = m := by
  have hlist := congrArg String.toList h
  simp only [String.toList_append, String.toList_singleton, List.singleton_append] at hlist
  obtain ⟨hs, hn⟩ := split_last (not_mem_repr hc n) (not_mem_repr hc m) hlist
  exact ⟨String.toList_injective hs, Nat.repr_injective (String.toList_injective hn)⟩

end Margo.Lib.Separators
