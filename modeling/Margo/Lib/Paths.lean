import Mathlib.Data.List.Nodup
import Mathlib.Logic.Function.Basic

/-!
# Singly linked lists

The nodes from a pointer on, each linked to the one after it and the last one to nothing.
Such a list is determined by its pointer, so its nodes are distinct. Loops that follow the
links take an amount of steps; as many as there are nodes are enough.
-/

namespace Margo.Lib.Paths

open Function

variable {α : Type*}

/-- The nodes that the links lead through from a pointer on. -/
def Path (next : α → Option α) : Option α → List α → Prop
  | p, [] => p = none
  | p, a :: us => p = some a ∧ Path next (next a) us

/-- `while (p) p = next(p)`: the nodes met. -/
def walk (next : α → Option α) : Nat → Option α → List α
  | 0, _ => []
  | _ + 1, none => []
  | fuel + 1, some a => a :: walk next fuel (next a)

/-- `while (p && !test(p)) { prev = p; p = next(p); }`: both pointers afterwards. -/
def search (next : α → Option α) (test : α → Bool) :
    Nat → Option α → Option α → Option α × Option α
  | 0, prev, p => (prev, p)
  | _ + 1, prev, none => (prev, none)
  | fuel + 1, prev, some a =>
      if test a then (prev, some a) else search next test fuel (some a) (next a)

section

variable {next : α → Option α} {p : Option α} {us vs xs ys : List α} {a d t : α} {fuel : Nat}

@[simp] theorem path_nil : Path next p [] ↔ p = none := Iff.rfl

@[simp] theorem path_cons : Path next p (a :: us) ↔ p = some a ∧ Path next (next a) us := Iff.rfl

theorem Path.head (h : Path next p us) : us.head? = p := by
  cases us with
  | nil => exact (path_nil.mp h).symm
  | cons a us => exact h.1.symm

/-- The links leave no choice. -/
theorem Path.unique (h : Path next p us) (h' : Path next p vs) : us = vs := by
  induction us generalizing p vs with
  | nil =>
      rw [path_nil.mp h] at h'
      cases vs with
      | nil => rfl
      | cons v vs => cases h'.1
  | cons a us ih =>
      obtain ⟨rfl, hrest⟩ := h
      cases vs with
      | nil => cases path_nil.mp h'
      | cons v vs =>
          obtain ⟨hv, hrest'⟩ := h'
          obtain rfl := Option.some.inj hv
          rw [ih hrest hrest']

/-- The nodes after any place are again a list. -/
theorem Path.drop (h : Path next p (xs ++ a :: ys)) : Path next (next a) ys := by
  induction xs generalizing p with
  | nil => exact h.2
  | cons x xs ih => exact ih h.2

/-- A list that comes back to a node would go on forever. -/
theorem Path.nodup (h : Path next p us) : us.Nodup := by
  induction us generalizing p with
  | nil => exact List.nodup_nil
  | cons a us ih =>
      refine List.nodup_cons.mpr ⟨?_, ih h.2⟩
      intro hmem
      obtain ⟨xs, ys, hsplit⟩ := List.append_of_mem hmem
      have hrest := h.2
      rw [hsplit] at hrest
      have hagain : Path next (next a) ys := hrest.drop
      have hlen := congrArg List.length (h.2.unique hagain)
      rw [hsplit, List.length_append, List.length_cons] at hlen
      omega

theorem Path.walk_eq (h : Path next p us) (hfuel : us.length ≤ fuel) :
    walk next fuel p = us := by
  induction us generalizing p fuel with
  | nil =>
      rw [path_nil.mp h]
      cases fuel <;> rfl
  | cons a us ih =>
      obtain ⟨rfl, hrest⟩ := h
      cases fuel with
      | zero => simp at hfuel
      | succ fuel =>
          have hfuel' : us.length ≤ fuel := by simpa using hfuel
          rw [walk, ih hrest hfuel']

/-- The search stops at the first node that passes the test. -/
theorem Path.search_eq {test : α → Bool} {prev : Option α} (h : Path next p us)
    (hfuel : us.length ≤ fuel) :
    search next test fuel prev p =
      ((us.takeWhile fun a => !test a).getLast?.or prev, us.find? test) := by
  induction us generalizing p prev fuel with
  | nil =>
      rw [path_nil.mp h]
      cases fuel <;> rfl
  | cons a us ih =>
      obtain ⟨rfl, hrest⟩ := h
      cases fuel with
      | zero => simp at hfuel
      | succ fuel =>
          have hfuel' : us.length ≤ fuel := by simpa using hfuel
          cases htest : test a with
          | true => simp [search, htest]
          | false =>
              rw [search, if_neg (by simp [htest]), ih hrest hfuel',
                List.takeWhile_cons_of_pos (by simp [htest]),
                List.find?_cons_of_neg (by simp [htest]), List.getLast?_cons]
              cases (us.takeWhile fun a => !test a).getLast? <;> rfl

/-- Links of other nodes do not matter. -/
theorem Path.congr {next' : α → Option α} (h : Path next p us)
    (hnext : ∀ a ∈ us, next' a = next a) : Path next' p us := by
  induction us generalizing p with
  | nil => exact h
  | cons a us ih =>
      refine ⟨h.1, ?_⟩
      rw [hnext a List.mem_cons_self]
      exact ih h.2 fun b hb => hnext b (List.mem_cons_of_mem a hb)

variable [DecidableEq α]

theorem Path.update (h : Path next p us) (ha : a ∉ us) (v : Option α) :
    Path (update next a v) p us := by
  apply h.congr
  intro b hb
  exact update_of_ne (ne_of_mem_of_not_mem hb ha) v next

/-- Put a node before the first one. -/
theorem Path.push (h : Path next p us) (ha : a ∉ us) :
    Path (Function.update next a p) (some a) (a :: us) := by
  refine ⟨rfl, ?_⟩
  rw [update_self]
  exact h.update ha p

/-- Unlink a node that has one before it. -/
theorem Path.unlink (h : Path next p (xs ++ d :: ys)) (ht : xs.getLast? = some t) :
    Path (Function.update next t (next d)) p (xs ++ ys) := by
  induction xs generalizing p with
  | nil => cases ht
  | cons x xs ih =>
      have hnot : x ∉ xs ++ d :: ys := (List.nodup_cons.mp h.nodup).1
      refine ⟨h.1, ?_⟩
      cases xs with
      | nil =>
          obtain rfl : x = t := by simpa using ht
          rw [update_self]
          apply h.2.2.update
          exact fun hmem => hnot (List.mem_cons_of_mem d hmem)
      | cons y xs =>
          rw [List.getLast?_cons_cons] at ht
          have hne : x ≠ t := by
            rintro rfl
            exact hnot (List.mem_append_left _ (List.mem_of_getLast? ht))
          rw [update_of_ne hne]
          exact ih h.2 ht

end

end Margo.Lib.Paths
