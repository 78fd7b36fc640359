import Mathlib.Data.List.Nodup
import Mathlib.Data.List.Perm.Basic

/-!
# Lists of values under keys

A finite map as a list of pairs in which no key occurs twice. Assigning a value
drops the old one, so that up to order exactly one pair changes.
-/

namespace Margo.Lib.KeyedList

variable {κ ν : Type*} [BEq κ] [LawfulBEq κ]

/-- Drop the value under a key. -/
def erase (k : κ) (l : List (κ × ν)) : List (κ × ν) := l.filter fun e => e.1 != k

/-- Put a value under a key. -/
def assign (k : κ) (v : ν) (l : List (κ × ν)) : List (κ × ν) := (k, v) :: erase k l

variable {k : κ} {v : ν} {l : List (κ × ν)}

theorem not_mem_erase : k ∉ (erase k l).map Prod.fst := by
  simp [erase]

omit [BEq κ] [LawfulBEq κ] in
theorem nodup_filter (h : (l.map Prod.fst).Nodup) (p : κ × ν → Bool) :
    ((l.filter p).map Prod.fst).Nodup :=
  h.sublist (List.filter_sublist.map Prod.fst)

theorem nodup_assign (h : (l.map Prod.fst).Nodup) : ((assign k v l).map Prod.fst).Nodup :=
  List.nodup_cons.mpr ⟨not_mem_erase, nodup_filter h _⟩

theorem erase_of_not_mem (h : k ∉ l.map Prod.fst) : erase k l = l := by
  apply List.filter_eq_self.mpr
  intro e he
  have hmem : e.1 ∈ l.map Prod.fst := List.mem_map_of_mem he
  have hne : e.1 ≠ k := fun heq => h (heq ▸ hmem)
  simpa using hne

theorem erase_of_lookup_none (h : l.lookup k = none) : erase k l = l := by
  apply erase_of_not_mem
  intro hmem
  obtain ⟨e, he, rfl⟩ := List.mem_map.mp hmem
  simpa using List.lookup_eq_none_iff.mp h e he

/-- Dropping one key leaves the values under the others. -/
theorem lookup_erase_of_ne {k' : κ} (hne : k' ≠ k) : (erase k l).lookup k' = l.lookup k' := by
  induction l with
  | nil => rfl
  | cons e l ih =>
      by_cases he : e.1 = k
      · have hdrop : erase k (e :: l) = erase k l := by simp [erase, he]
        have hother : (k' == e.1) = false := by simpa [he] using hne
        rw [hdrop, ih, List.lookup_cons, hother]
      · have hkeep : erase k (e :: l) = e :: erase k l := by simp [erase, he]
        rw [hkeep, List.lookup_cons, List.lookup_cons, ih]

/-- The value under a key after an assignment. -/
theorem lookup_assign [DecidableEq κ] (k' : κ) :
    (assign k v l).lookup k' = if k' = k then some v else l.lookup k' := by
  split
  · next heq =>
      subst heq
      exact List.lookup_cons_self
  · next hne =>
      have hother : (k' == k) = false := by simpa using hne
      rw [assign, List.lookup_cons, hother]
      exact lookup_erase_of_ne hne

omit [LawfulBEq κ] in
theorem mem_of_mem_erase {e : κ × ν} (h : e ∈ erase k l) : e ∈ l := List.mem_of_mem_filter h

theorem mem_of_lookup (h : l.lookup k = some v) : (k, v) ∈ l := by
  obtain ⟨before, after, rfl, -⟩ := List.lookup_eq_some_iff.mp h
  exact List.mem_append_right _ List.mem_cons_self

/-- Up to order, a value that is found is the one that is dropped. -/
theorem perm_erase (hd : (l.map Prod.fst).Nodup) (h : l.lookup k = some v) :
    l.Perm ((k, v) :: erase k l) := by
  induction l with
  | nil => cases h
  | cons e l ih =>
      obtain ⟨hnot, hd'⟩ := List.nodup_cons.mp hd
      obtain ⟨k', v'⟩ := e
      by_cases hk : k = k'
      · subst hk
        obtain rfl : v' = v := by simpa using h
        have hdrop : erase k ((k, v') :: l) = erase k l := by simp [erase]
        rw [hdrop, erase_of_not_mem hnot]
      · have hl : l.lookup k = some v := by
          simpa [List.lookup_cons, beq_false_of_ne hk] using h
        have hkeep : erase k ((k', v') :: l) = (k', v') :: erase k l := by
          simp [erase, Ne.symm hk]
        rw [hkeep]
        exact ((ih hd' hl).cons _).trans (List.Perm.swap _ _ _)

end Margo.Lib.KeyedList
