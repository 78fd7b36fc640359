import Margo.Lib.Bytes

/-!
# A memory of bytes

Loads and stores of bytes and of words of 8 bytes, the lowest first. What a load
gives depends on the bytes of its range only, so a store is framed by its
range. Lists are threaded through memory: the first word of a node is the
address of the next node, and null ends the list.
-/

namespace Margo.Lib.ByteMemory

open Lib.Bytes

abbrev Memory := Nat → Byte

/-- Store bytes from an address on. -/
def store (m : Memory) (a : Nat) (bs : List Byte) : Memory :=
  fun x => if a ≤ x then bs.getD (x - a) (m x) else m x

/-- Load `n` bytes from an address on. -/
def load (m : Memory) (a n : Nat) : List Byte := (List.range n).map fun i => m (a + i)

/-- Store a pointer. -/
def storeWord (m : Memory) (a x : Nat) : Memory := store m a (digits 8 x)

/-- Load a pointer. -/
def loadWord (m : Memory) (a : Nat) : Nat := value (load m a 8)

/-- The two ranges of `n` bytes do not overlap. -/
def Apart (n a b : Nat) : Prop := a + n ≤ b ∨ b + n ≤ a

/-- The `n` bytes from an address on are the same. -/
def Kept (n a : Nat) (m m' : Memory) : Prop := ∀ x, a ≤ x → x < a + n → m' x = m x

variable {m m' : Memory} {a b n x p q : Nat} {bs : List Byte} {ps : List Nat}

theorem Apart.symm (h : Apart n a b) : Apart n b a := Or.symm h

instance : Std.Symm (Apart n) := ⟨fun _ _ => Apart.symm⟩

theorem Apart.mono {k : Nat} (h : Apart n a b) (hk : k ≤ n) : Apart k a b := by
  unfold Apart at h ⊢
  omega

/-! ## Loads and stores -/

theorem store_of_not_mem (h : x < a ∨ a + bs.length ≤ x) : store m a bs x = m x := by
  unfold store
  split
  · rw [List.getD_eq_getElem?_getD, List.getElem?_eq_none (by omega), Option.getD_none]
  · rfl

theorem load_store_self (m : Memory) (a : Nat) (bs : List Byte) :
    load (store m a bs) a bs.length = bs := by
  apply List.ext_getElem
  · simp [load]
  · intro i _ hi
    simp [load, store, hi]

theorem load_congr (h : Kept n a m m') : load m' a n = load m a n := by
  apply List.map_congr_left
  intro i hi
  exact h (a + i) (by omega) (by have := List.mem_range.mp hi; omega)

theorem loadWord_congr (h : Kept 8 a m m') : loadWord m' a = loadWord m a := by
  rw [loadWord, load_congr h, loadWord]

theorem loadWord_storeWord (m : Memory) (a : Nat) (hx : x < 2 ^ 64) :
    loadWord (storeWord m a x) a = x := by
  have hload := load_store_self m a (digits 8 x)
  rw [length_digits] at hload
  rw [loadWord, storeWord, hload, value_digits]
  exact Nat.mod_eq_of_lt hx

theorem kept_store (h : b + n ≤ a ∨ a + bs.length ≤ b) : Kept n b m (store m a bs) := by
  intro x hle hlt
  apply store_of_not_mem
  omega

theorem kept_storeWord (h : Apart 8 a b) : Kept 8 b m (storeWord m a x) := by
  apply kept_store
  rw [length_digits]
  exact h.symm

/-! ## Threaded lists -/

/-- From the pointer on these are the nodes, up to the null pointer. -/
inductive Threaded (m : Memory) : Nat → List Nat → Prop
  | nil : Threaded m 0 []
  | cons {p : Nat} {ps : List Nat} (hne : p ≠ 0) (hlt : p < 2 ^ 64)
      (hrest : Threaded m (loadWord m p) ps) : Threaded m p (p :: ps)

theorem Threaded.lt (h : Threaded m p ps) : p < 2 ^ 64 := by
  cases h with
  | nil => decide
  | cons _ hlt _ => exact hlt

theorem Threaded.eq_zero_iff (h : Threaded m p ps) : p = 0 ↔ ps = [] := by
  cases h with
  | nil => simp
  | cons hne _ _ => simp [hne]

/-- There is one list from a node on. -/
theorem Threaded.unique {qs : List Nat} (h : Threaded m p ps) (h' : Threaded m p qs) : ps = qs := by
  induction h generalizing qs with
  | nil => exact (h'.eq_zero_iff.mp rfl).symm
  | cons hne _ _ ih =>
      cases h' with
      | nil => exact absurd rfl hne
      | cons _ _ hrest => rw [ih hrest]

/-- Stores outside of the first words of the nodes do not matter. -/
theorem Threaded.congr (h : Threaded m p ps) (hkept : ∀ q ∈ ps, Kept 8 q m m') :
    Threaded m' p ps := by
  induction h with
  | nil => exact .nil
  | cons hne hlt _ ih =>
      refine .cons hne hlt ?_
      rw [loadWord_congr (hkept _ List.mem_cons_self)]
      exact ih fun q hq => hkept q (List.mem_cons_of_mem _ hq)

/-- A node is put in front. -/
theorem Threaded.push (h : Threaded m p ps) (hne : q ≠ 0) (hlt : q < 2 ^ 64)
    (hapart : ∀ r ∈ ps, Apart 8 q r) : Threaded (storeWord m q p) q (q :: ps) := by
  refine .cons hne hlt ?_
  rw [loadWord_storeWord m q h.lt]
  exact h.congr fun r hr => kept_storeWord (hapart r hr)

/-- The first node is taken. -/
theorem Threaded.pop (h : Threaded m p ps) (hp : p ≠ 0) :
    ∃ qs, ps = p :: qs ∧ Threaded m (loadWord m p) qs := by
  cases h with
  | nil => exact absurd rfl hp
  | @cons _ qs _ _ hrest => exact ⟨qs, rfl, hrest⟩

/-- Nodes are put in front one after the other. -/
theorem Threaded.push_all {node : Nat → Nat} (h : Threaded m p ps)
    (hne : ∀ i < n, node i ≠ 0 ∧ node i < 2 ^ 64) (hnew : ∀ i < n, ∀ r ∈ ps, Apart 8 (node i) r)
    (hapart : ∀ i < n, ∀ j < i, Apart 8 (node i) (node j)) :
    Threaded ((List.range n).foldl (fun s i => (storeWord s.1 (node i) s.2, node i)) (m, p)).1
      ((List.range n).foldl (fun s i => (storeWord s.1 (node i) s.2, node i)) (m, p)).2
      (((List.range n).map node).reverse ++ ps) := by
  induction n with
  | zero => exact h
  | succ n ih =>
      have hrest := ih (fun i hi => hne i (Nat.lt_succ_of_lt hi))
        (fun i hi => hnew i (Nat.lt_succ_of_lt hi)) (fun i hi => hapart i (Nat.lt_succ_of_lt hi))
      obtain ⟨hne, hlt⟩ := hne n (Nat.lt_succ_self n)
      rw [List.range_succ, List.foldl_append, List.map_append, List.reverse_append]
      refine hrest.push hne hlt ?_
      intro r hr
      obtain hr | hr := List.mem_append.mp hr
      · obtain ⟨j, hj, rfl⟩ := List.mem_map.mp (List.mem_reverse.mp hr)
        exact hapart n (Nat.lt_succ_self n) j (List.mem_range.mp hj)
      · exact hnew n (Nat.lt_succ_self n) r hr

/-- Putting nodes in front touches their first words only. -/
theorem kept_push_all {node : Nat → Nat} (h : ∀ i < n, a + b ≤ node i ∨ node i + 8 ≤ a) :
    Kept b a m
      ((List.range n).foldl (fun s i => (storeWord s.1 (node i) s.2, node i)) (m, p)).1 := by
  induction n with
  | zero => exact fun _ _ _ => rfl
  | succ n ih =>
      intro x hle hlt
      rw [List.range_succ, List.foldl_append]
      have hrest := ih (fun i hi => h i (Nat.lt_succ_of_lt hi)) x hle hlt
      have hn := h n (Nat.lt_succ_self n)
      refine (store_of_not_mem ?_).trans hrest
      rw [length_digits]
      omega

end Margo.Lib.ByteMemory
