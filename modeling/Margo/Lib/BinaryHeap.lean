import Mathlib.Data.List.Perm.Basic
import Mathlib.Logic.Equiv.Basic
import Mathlib.Order.Lattice
import Mathlib.Data.List.Nodup
import Mathlib.Data.List.Range

/-!
# Binary heaps in a bounded array

A binary min-heap at the positions 1 to n of an array. The two sift loops move a
hole: they copy one entry at a time and store the entry in hand only at the end.

## Implementation notes

Every read and every store is checked against the capacity, and `none` is an
access outside of the positions 1 to the capacity or a read of an empty cell.
What the loops do is seen through a view of the array that has the entry in
hand in the hole: a move of the hole swaps two positions of the view, so that
no entry is lost.
-/

namespace Margo.Lib.BinaryHeap

open Function

/-- An array of cells with the positions 1 to `capacity`. -/
structure Cells (α : Type*) where
  slots : Nat → Option α
  capacity : Nat

variable {α κ : Type*} [LinearOrder κ]

/-- Read a cell that is in the array and not empty. -/
def Cells.read (cells : Cells α) (i : Nat) : Option α :=
  if 1 ≤ i ∧ i ≤ cells.capacity then cells.slots i else none

/-- Store into a cell that is in the array. -/
def Cells.write (cells : Cells α) (i : Nat) (x : α) : Option (Cells α) :=
  if 1 ≤ i ∧ i ≤ cells.capacity then
    some { cells with slots := update cells.slots i (some x) }
  else none

/-- Move the hole up past the larger entries, then store the entry. -/
def siftUp (key : α → κ) (x : α) (cells : Cells α) (index : Nat) : Option (Cells α) :=
  if 1 < index then do
    let parent ← cells.read (index / 2)
    if key x < key parent then
      let cells ← cells.write index parent
      siftUp key x cells (index / 2)
    else cells.write index x
  else cells.write index x
termination_by index
decreasing_by omega

/-- The child of a position with the smaller key, the left one on a tie. -/
def smallerChild (key : α → κ) (cells : Cells α) (size index : Nat) : Option (Nat × α) := do
  let left ← cells.read (index * 2)
  if index * 2 ≠ size then
    let right ← cells.read (index * 2 + 1)
    return if key right < key left then (index * 2 + 1, right) else (index * 2, left)
  else return (index * 2, left)

theorem smallerChild_eq_some {key : α → κ} {cells : Cells α} {size index child : Nat} {c : α}
    (h : smallerChild key cells size index = some (child, c)) :
    child = index * 2 ∨ child = index * 2 + 1 := by
  simp only [smallerChild, Option.bind_eq_bind, Option.bind_eq_some_iff] at h
  obtain ⟨left, -, h⟩ := h
  by_cases hlast : index * 2 ≠ size
  · rw [if_pos hlast, Option.bind_eq_some_iff] at h
    obtain ⟨right, -, h⟩ := h
    by_cases hlt : key right < key left
    · rw [if_pos hlt] at h
      exact .inr (congrArg Prod.fst (Option.some.inj h)).symm
    · rw [if_neg hlt] at h
      exact .inl (congrArg Prod.fst (Option.some.inj h)).symm
  · rw [if_neg hlast] at h
    exact .inl (congrArg Prod.fst (Option.some.inj h)).symm

/-- Move the hole down past the smaller entries, then store the entry. -/
def siftDown (key : α → κ) (x : α) (size : Nat) (cells : Cells α) (index : Nat) :
    Option (Cells α) :=
  if 1 ≤ index ∧ index * 2 ≤ size then
    match _hchild : smallerChild key cells size index with
    | none => none
    | some (child, c) =>
        if key c < key x then do
          let cells ← cells.write index c
          siftDown key x size cells child
        else cells.write index x
  else cells.write index x
termination_by size + 1 - index
decreasing_by
  have := smallerChild_eq_some _hchild
  omega

/-! ## Views -/

/-- The cells 1 to n hold what the view says, except for the hole. -/
def Shows (cells : Cells α) (n hole : Nat) (view : Nat → α) : Prop :=
  ∀ i, 1 ≤ i → i ≤ n → i ≠ hole → cells.slots i = some (view i)

/-- The entries of a view, from position 1 on. -/
def contents (view : Nat → α) (n : Nat) : List α := (List.range' 1 n).map view

/-- Every entry has a key at least that of its parent. -/
def IsHeap (key : α → κ) (view : Nat → α) (n : Nat) : Prop :=
  ∀ i, 1 < i → i ≤ n → key (view (i / 2)) ≤ key (view i)

/-- A heap but for the edge from the hole up, which can be moved down past. -/
structure UpOrder (key : α → κ) (view : Nat → α) (n hole : Nat) : Prop where
  except : ∀ i, 1 < i → i ≤ n → i ≠ hole → key (view (i / 2)) ≤ key (view i)
  grand : ∀ i, i ≤ n → i / 2 = hole → 1 < hole → key (view (hole / 2)) ≤ key (view i)

/-- A heap but for the edges from the hole down, which can be moved up past. -/
structure DownOrder (key : α → κ) (view : Nat → α) (n hole : Nat) : Prop where
  except : ∀ i, 1 < i → i ≤ n → i / 2 ≠ hole → key (view (i / 2)) ≤ key (view i)
  grand : ∀ i, i ≤ n → i / 2 = hole → 1 < hole → key (view (hole / 2)) ≤ key (view i)

section

variable {cells : Cells α} {view : Nat → α} {key : α → κ} {n hole i : Nat} {x : α}

omit [LinearOrder κ]

theorem Cells.read_of_shows (h : Shows cells n hole view) (hn : n ≤ cells.capacity) (hpos : 1 ≤ i)
    (hle : i ≤ n) (hne : i ≠ hole) : cells.read i = some (view i) := by
  rw [read, if_pos ⟨hpos, hle.trans hn⟩]
  exact h i hpos hle hne

theorem Cells.write_of_le (hn : n ≤ cells.capacity) (hpos : 1 ≤ i) (hle : i ≤ n) :
    cells.write i x = some { cells with slots := update cells.slots i (some x) } :=
  if_pos ⟨hpos, hle.trans hn⟩

/-- Storing the entry in hand fills the hole. -/
theorem Shows.fill (h : Shows cells n hole view) (hx : view hole = x) (hole' : Nat) :
    Shows { cells with slots := update cells.slots hole (some x) } n hole' view := by
  intro i hpos hle _
  by_cases hi : i = hole
  · rw [hi, ← hx]
    exact update_self ..
  · exact (update_of_ne hi ..).trans (h i hpos hle hi)

/-- Moving the hole swaps two positions of the view. -/
theorem Shows.move (h : Shows cells n hole view) (i : Nat) :
    Shows { cells with slots := update cells.slots hole (some (view i)) } n i
      (view ∘ Equiv.swap hole i) := by
  intro j hpos hle hj
  by_cases hhole : j = hole
  · rw [hhole, comp_apply, Equiv.swap_apply_left]
    exact update_self ..
  · rw [comp_apply, Equiv.swap_apply_of_ne_of_ne hhole hj]
    exact (update_of_ne hhole ..).trans (h j hpos hle hhole)

theorem mem_contents : x ∈ contents view n ↔ ∃ i, 1 ≤ i ∧ i ≤ n ∧ view i = x := by
  simp only [contents, List.mem_map, List.mem_range'_1]
  constructor
  · rintro ⟨i, ⟨hpos, hlt⟩, hi⟩
    exact ⟨i, hpos, by omega, hi⟩
  · rintro ⟨i, hpos, hle, hi⟩
    exact ⟨i, ⟨hpos, by omega⟩, hi⟩

theorem length_contents : (contents view n).length = n := by
  rw [contents, List.length_map, List.length_range']

theorem contents_succ : contents view (n + 1) = contents view n ++ [view (n + 1)] := by
  rw [contents, List.range'_1_concat, List.map_append, Nat.add_comm 1 n]
  rfl

theorem contents_congr {view' : Nat → α} (h : ∀ i, 1 ≤ i → i ≤ n → view i = view' i) :
    contents view n = contents view' n := by
  apply List.map_congr_left
  intro i hi
  obtain ⟨hpos, hlt⟩ := List.mem_range'_1.mp hi
  exact h i hpos (by omega)

/-- A swap of two positions keeps the entries. -/
theorem contents_swap {j : Nat} (hi : 1 ≤ i ∧ i ≤ n) (hj : 1 ≤ j ∧ j ≤ n) :
    (contents (view ∘ Equiv.swap i j) n).Perm (contents view n) := by
  have hperm : ((List.range' 1 n).map (Equiv.swap i j)).Perm (List.range' 1 n) := by
    apply (List.perm_ext_iff_of_nodup ?_ List.nodup_range').mpr
    · intro a
      rw [List.mem_map]
      constructor
      · rintro ⟨b, hb, rfl⟩
        rw [Equiv.swap_apply_def]
        simp only [List.mem_range'_1] at hb ⊢
        split_ifs <;> omega
      · intro ha
        refine ⟨Equiv.swap i j a, ?_, by simp⟩
        rw [Equiv.swap_apply_def]
        simp only [List.mem_range'_1] at ha ⊢
        split_ifs <;> omega
    · exact List.Nodup.map (Equiv.swap i j).injective List.nodup_range'
  rw [contents, ← List.map_map]
  exact hperm.map view

end

/-! ## Order -/

section

variable {view : Nat → α} {key : α → κ} {n hole child : Nat}

/-- The first entry of a heap has the smallest key. -/
theorem IsHeap.le (h : IsHeap key view n) {i : Nat} (hpos : 1 ≤ i) (hle : i ≤ n) :
    key (view 1) ≤ key (view i) := by
  induction i using Nat.strong_induction_on with
  | h i ih =>
      by_cases hroot : i = 1
      · rw [hroot]
      · calc
          key (view 1) ≤ key (view (i / 2)) := ih (i / 2) (by omega) (by omega) (by omega)
          _ ≤ key (view i) := h i (by omega) hle

/-- Values of the view after a swap of the hole with another position. -/
theorem swap_other {i : Nat} (hhole : i ≠ hole) (hchild : i ≠ child) :
    (view ∘ Equiv.swap hole child) i = view i :=
  congrArg view (Equiv.swap_apply_of_ne_of_ne hhole hchild)

theorem swap_left : (view ∘ Equiv.swap hole child) hole = view child :=
  congrArg view (Equiv.swap_apply_left hole child)

theorem swap_right : (view ∘ Equiv.swap hole child) child = view hole :=
  congrArg view (Equiv.swap_apply_right hole child)

theorem UpOrder.move (h : UpOrder key view n hole) (hpos : 1 < hole) (hle : hole ≤ n)
    (hlt : key (view hole) < key (view (hole / 2))) :
    UpOrder key (view ∘ Equiv.swap hole (hole / 2)) n (hole / 2) where
  except i hi hin hne := by
    by_cases hhole : i = hole
    · rw [hhole, swap_left, swap_right]
      exact hlt.le
    · rw [swap_other hhole hne]
      by_cases hdown : i / 2 = hole
      · rw [hdown, swap_left]
        exact h.grand i hin hdown hpos
      · by_cases hsibling : i / 2 = hole / 2
        · rw [hsibling, swap_right]
          exact hlt.le.trans (hsibling ▸ h.except i hi hin hhole)
        · rw [swap_other hdown hsibling]
          exact h.except i hi hin hhole
  grand i hin hdown hparent := by
    have hgrand : key (view (hole / 2 / 2)) ≤ key (view (hole / 2)) :=
      h.except (hole / 2) hparent (by omega) (by omega)
    rw [swap_other (by omega) (by omega)]
    by_cases hhole : i = hole
    · rw [hhole, swap_left]
      exact hgrand
    · rw [swap_other hhole (by omega)]
      exact hgrand.trans (hdown ▸ h.except i (by omega) hin hhole)

/-- The move up ends where the entry in hand is not smaller than the parent. -/
theorem UpOrder.finish (h : UpOrder key view n hole)
    (hstop : 1 < hole → key (view (hole / 2)) ≤ key (view hole)) : IsHeap key view n := by
  intro i hi hin
  by_cases hhole : i = hole
  · rw [hhole]
    exact hstop (hhole ▸ hi)
  · exact h.except i hi hin hhole

theorem DownOrder.move (h : DownOrder key view n hole) (hchild : child / 2 = hole)
    (hle : child ≤ n) (hlt : key (view child) < key (view hole))
    (hmin : ∀ i, i ≤ n → i / 2 = hole → key (view child) ≤ key (view i)) :
    DownOrder key (view ∘ Equiv.swap hole child) n child where
  except i hi hin hne := by
    by_cases hhole : i = hole
    · rw [hhole, swap_left, swap_other (by omega) (by omega)]
      exact h.grand child hle hchild (by omega)
    · by_cases hdown : i / 2 = hole
      · rw [hdown, swap_left]
        by_cases hic : i = child
        · rw [hic, swap_right]
          exact hlt.le
        · rw [swap_other hhole hic]
          exact hmin i hin hdown
      · rw [swap_other hhole (by omega), swap_other hdown hne]
        exact h.except i hi hin hdown
  grand i hin hdown _ := by
    rw [hchild, swap_left, swap_other (by omega) (by omega)]
    exact hdown ▸ h.except i (by omega) hin (by omega)

/-- The move down ends where the entry in hand is not larger than the children. -/
theorem DownOrder.finish (h : DownOrder key view n hole)
    (hstop : ∀ i, i ≤ n → i / 2 = hole → key (view hole) ≤ key (view i)) :
    IsHeap key view n := by
  intro i hi hin
  by_cases hhole : i / 2 = hole
  · rw [hhole]
    exact hstop i hin hhole
  · exact h.except i hi hin hhole

end

/-! ## The loops -/

section

variable {cells : Cells α} {view : Nat → α} {key : α → κ} {n hole : Nat} {x : α}

/-- What a sift leaves: a heap of the same entries. -/
structure Sifted (key : α → κ) (cells cells' : Cells α) (view : Nat → α) (n : Nat)
    (view' : Nat → α) : Prop where
  capacity : cells'.capacity = cells.capacity
  shows : ∀ i, 1 ≤ i → i ≤ n → cells'.slots i = some (view' i)
  heap : IsHeap key view' n
  same : (contents view' n).Perm (contents view n)

/-- The store at the end of a sift. -/
theorem sifted_fill (h : Shows cells n hole view) (hx : view hole = x) (hn : n ≤ cells.capacity)
    (hpos : 1 ≤ hole) (hle : hole ≤ n) (hheap : IsHeap key view n) :
    ∃ cells' view', cells.write hole x = some cells' ∧ Sifted key cells cells' view n view' := by
  refine ⟨_, view, Cells.write_of_le hn hpos hle, rfl, ?_, hheap, .refl _⟩
  intro i hi hin
  exact h.fill hx 0 i hi hin (by omega)

theorem siftUp_spec (h : Shows cells n hole view) (hx : view hole = x) (hn : n ≤ cells.capacity)
    (hpos : 1 ≤ hole) (hle : hole ≤ n) (horder : UpOrder key view n hole) :
    ∃ cells' view', siftUp key x cells hole = some cells' ∧
      Sifted key cells cells' view n view' := by
  induction hole using Nat.strong_induction_on generalizing cells view with
  | h hole ih =>
      rw [siftUp]
      by_cases hroot : 1 < hole
      · have hread : cells.read (hole / 2) = some (view (hole / 2)) :=
          Cells.read_of_shows h hn (by omega) (by omega) (by omega)
        rw [if_pos hroot, hread, Option.bind_eq_bind, Option.bind_some]
        by_cases hlt : key x < key (view (hole / 2))
        · have hmove := horder.move hroot hle (hx ▸ hlt)
          obtain ⟨cells', view', hsift, hsifted⟩ := ih (hole / 2) (by omega) (h.move (hole / 2))
            (swap_right.trans hx) hn (by omega) (by omega) hmove
          refine ⟨cells', view', ?_, hsifted.capacity, hsifted.shows, hsifted.heap, ?_⟩
          · rw [if_pos hlt, Cells.write_of_le hn hpos hle]
            exact hsift
          · exact hsifted.same.trans (contents_swap ⟨hpos, hle⟩ ⟨by omega, by omega⟩)
        · rw [if_neg hlt]
          exact sifted_fill h hx hn hpos hle (horder.finish fun _ => hx ▸ not_lt.mp hlt)
      · rw [if_neg hroot]
        exact sifted_fill h hx hn hpos hle (horder.finish fun hnot => absurd hnot hroot)

/-- The child that the loop looks at is a smallest one. -/
theorem smallerChild_spec (key : α → κ) (h : Shows cells n hole view) (hn : n ≤ cells.capacity)
    (hpos : 1 ≤ hole) (hle : hole * 2 ≤ n) :
    ∃ child, smallerChild key cells n hole = some (child, view child) ∧ child / 2 = hole ∧
      child ≤ n ∧ ∀ i, i ≤ n → i / 2 = hole → key (view child) ≤ key (view i) := by
  have hleft : cells.read (hole * 2) = some (view (hole * 2)) :=
    Cells.read_of_shows h hn (by omega) hle (by omega)
  unfold smallerChild
  rw [hleft, Option.bind_eq_bind, Option.bind_some]
  have htwo {i : Nat} (hi : i / 2 = hole) : i = hole * 2 ∨ i = hole * 2 + 1 := by omega
  by_cases hlast : hole * 2 ≠ n
  · have hright : cells.read (hole * 2 + 1) = some (view (hole * 2 + 1)) :=
      Cells.read_of_shows h hn (by omega) (by omega) (by omega)
    rw [if_pos hlast, hright, Option.bind_some]
    by_cases hlt : key (view (hole * 2 + 1)) < key (view (hole * 2))
    · rw [if_pos hlt]
      refine ⟨hole * 2 + 1, rfl, by omega, by omega, ?_⟩
      intro i _ hi
      obtain rfl | rfl := htwo hi
      · exact hlt.le
      · exact le_rfl
    · rw [if_neg hlt]
      refine ⟨hole * 2, rfl, by omega, hle, ?_⟩
      intro i _ hi
      obtain rfl | rfl := htwo hi
      · exact le_rfl
      · exact not_lt.mp hlt
  · rw [if_neg hlast]
    refine ⟨hole * 2, rfl, by omega, hle, ?_⟩
    intro i hin hi
    obtain rfl : i = hole * 2 := by omega
    exact le_rfl

theorem siftDown_spec (h : Shows cells n hole view) (hx : view hole = x) (hn : n ≤ cells.capacity)
    (hpos : 1 ≤ hole) (hle : hole ≤ n) (horder : DownOrder key view n hole) :
    ∃ cells' view', siftDown key x n cells hole = some cells' ∧
      Sifted key cells cells' view n view' := by
  induction hrest : n - hole using Nat.strong_induction_on generalizing cells view hole with
  | h rest ih =>
      rw [siftDown]
      by_cases hchildren : hole * 2 ≤ n
      · obtain ⟨child, hsmaller, hparent, hchild, hmin⟩ :=
          smallerChild_spec key h hn hpos hchildren
        rw [if_pos ⟨hpos, hchildren⟩]
        split
        · next hnone =>
            rw [hsmaller] at hnone
            cases hnone
        · next child' c hsome =>
            rw [hsmaller, Option.some.injEq, Prod.mk.injEq] at hsome
            obtain ⟨rfl, rfl⟩ := hsome
            by_cases hlt : key (view child) < key x
            · obtain ⟨cells', view', hsift, hsifted⟩ := ih (n - child) (by omega) (h.move child)
                (swap_right.trans hx) hn (by omega) hchild
                (horder.move hparent hchild (hx ▸ hlt) hmin) rfl
              refine ⟨cells', view', ?_, hsifted.capacity, hsifted.shows, hsifted.heap, ?_⟩
              · rw [if_pos hlt, Cells.write_of_le hn hpos hle]
                exact hsift
              · exact hsifted.same.trans (contents_swap ⟨hpos, hle⟩ ⟨by omega, hchild⟩)
            · rw [if_neg hlt]
              apply sifted_fill h hx hn hpos hle
              exact horder.finish fun i hin hi => hx ▸ (not_lt.mp hlt).trans (hmin i hin hi)
      · rw [if_neg fun hnot => hchildren hnot.2]
        apply sifted_fill h hx hn hpos hle
        exact horder.finish fun i hin hi => absurd hi (by omega)

end

/-! ## Heaps of given entries -/

/-- The first n cells are a heap of these entries. -/
structure HeapOf (key : α → κ) (cells : Cells α) (n : Nat) (us : List α) : Prop where
  bound : n ≤ cells.capacity
  length : us.length = n
  view : 0 < n → ∃ view, (∀ i, 1 ≤ i → i ≤ n → cells.slots i = some (view i)) ∧
    IsHeap key view n ∧ (contents view n).Perm us

section

variable {cells : Cells α} {key : α → κ} {n : Nat} {us : List α} {x : α}

theorem heapOf_nil : HeapOf key cells 0 [] :=
  ⟨Nat.zero_le _, rfl, fun h => absurd h (lt_irrefl 0)⟩

theorem HeapOf.exists_view [Nonempty α] (h : HeapOf key cells n us) :
    ∃ view, (∀ i, 1 ≤ i → i ≤ n → cells.slots i = some (view i)) ∧ IsHeap key view n ∧
      (contents view n).Perm us := by
  cases n with
  | zero =>
      refine ⟨fun _ => Classical.arbitrary α, ?_, ?_, ?_⟩
      · intro i hpos hle
        omega
      · intro i hi hle
        omega
      · rw [List.length_eq_zero_iff.mp h.length]
        exact .refl _
  | succ n => exact h.view n.succ_pos

theorem HeapOf.perm {vs : List α} (h : HeapOf key cells n us) (hperm : us.Perm vs) :
    HeapOf key cells n vs where
  bound := h.bound
  length := hperm.length_eq ▸ h.length
  view hpos := by
    obtain ⟨view, hshows, hheap, hsame⟩ := h.view hpos
    exact ⟨view, hshows, hheap, hsame.trans hperm⟩

/-- What the heap holds at a position is one of its entries. -/
theorem HeapOf.mem_of_read {i : Nat} (h : HeapOf key cells n us) (hpos : 1 ≤ i) (hle : i ≤ n)
    (hread : cells.read i = some x) : x ∈ us := by
  obtain ⟨view, hshows, -, hsame⟩ := h.view (Nat.lt_of_lt_of_le hpos hle)
  rw [Cells.read, if_pos ⟨hpos, hle.trans h.bound⟩, hshows i hpos hle] at hread
  exact hsame.subset (mem_contents.mpr ⟨i, hpos, hle, Option.some.inj hread⟩)

/-- Only the keys of the entries matter. -/
theorem HeapOf.congr_key {key' : α → κ} (h : HeapOf key cells n us)
    (hkey : ∀ u ∈ us, key' u = key u) : HeapOf key' cells n us where
  bound := h.bound
  length := h.length
  view hpos := by
    obtain ⟨view, hshows, hheap, hsame⟩ := h.view hpos
    have hview {i : Nat} (hpos : 1 ≤ i) (hin : i ≤ n) : key' (view i) = key (view i) :=
      hkey _ (hsame.subset (mem_contents.mpr ⟨i, hpos, hin, rfl⟩))
    refine ⟨view, hshows, ?_, hsame⟩
    intro i hi hin
    rw [hview (by omega) (by omega), hview (by omega) hin]
    exact hheap i hi hin

/-- A larger array with the same cells. -/
theorem HeapOf.grow {capacity : Nat} (h : HeapOf key cells n us) (hle : cells.capacity ≤ capacity) :
    HeapOf key { cells with capacity } n us :=
  ⟨h.bound.trans hle, h.length, h.view⟩

/-- The entry in hand comes in at the end and moves up. -/
theorem HeapOf.insert (h : HeapOf key cells n us) (x : α) (hn : n < cells.capacity) :
    ∃ cells', siftUp key x cells (n + 1) = some cells' ∧ cells'.capacity = cells.capacity ∧
      HeapOf key cells' (n + 1) (x :: us) := by
  have : Nonempty α := ⟨x⟩
  obtain ⟨view, hshows, hheap, hsame⟩ := h.exists_view
  have hother {i : Nat} (hi : i ≤ n) : update view (n + 1) x i = view i :=
    update_of_ne (by omega) ..
  have hshows' : Shows cells (n + 1) (n + 1) (update view (n + 1) x) := by
    intro i hpos hle hne
    rw [hother (by omega)]
    exact hshows i hpos (by omega)
  have horder : UpOrder key (update view (n + 1) x) (n + 1) (n + 1) := by
    constructor
    · intro i hi hle hne
      rw [hother (by omega), hother (by omega)]
      exact hheap i hi (by omega)
    · intro i hle hdown _
      omega
  have hentries : contents (update view (n + 1) x) (n + 1) = contents view n ++ [x] := by
    rw [contents_succ, update_self, contents_congr fun i _ hi => hother hi]
  obtain ⟨cells', view', hsift, hcapacity, hshows', hheap', hsame'⟩ :=
    siftUp_spec hshows' (update_self ..) hn (by omega) le_rfl horder
  refine ⟨cells', hsift, hcapacity, hcapacity ▸ hn, congrArg (· + 1) h.length, fun _ => ?_⟩
  refine ⟨view', hshows', hheap', ?_⟩
  calc
    (contents view' (n + 1)).Perm (contents view n ++ [x]) := hentries ▸ hsame'
    List.Perm _ (x :: contents view n) := List.perm_append_singleton x _
    List.Perm _ (x :: us) := hsame.cons x

/-- The last entry takes the place of the first one. -/
theorem contents_replace_first {view : Nat → α} (hn : 1 ≤ n) :
    (contents view (n + 1)).Perm
      (view 1 :: contents (update view 1 (view (n + 1))) n) := by
  obtain ⟨n, rfl⟩ : ∃ m, n = m + 1 := ⟨n - 1, by omega⟩
  have hrest : (List.range' 2 n).map (update view 1 (view (n + 1 + 1))) =
      (List.range' 2 n).map view := by
    apply List.map_congr_left
    intro i hi
    have := (List.mem_range'_1.mp hi).1
    exact update_of_ne (by omega) ..
  rw [contents_succ, contents, contents, List.range'_succ, List.map_cons, List.map_cons, hrest,
    update_self, List.cons_append]
  exact (List.perm_append_singleton _ _).cons _

/-- The loop that puts the last entry back in. -/
theorem siftDown_last {view : Nat → α} (hn : n + 1 ≤ cells.capacity)
    (hshows : ∀ i, 1 ≤ i → i ≤ n + 1 → cells.slots i = some (view i))
    (hheap : IsHeap key view (n + 1)) :
    ∃ cells', siftDown key (view (n + 1)) n cells 1 = some cells' ∧
      cells'.capacity = cells.capacity ∧
      ∀ vs, (contents view (n + 1)).Perm (view 1 :: vs) → HeapOf key cells' n vs := by
  by_cases hone : n = 0
  · subst hone
    refine ⟨{ cells with slots := update cells.slots 1 (some (view 1)) }, ?_, rfl, ?_⟩
    · rw [siftDown, if_neg (by omega)]
      exact Cells.write_of_le hn le_rfl le_rfl
    · intro vs hvs
      have hlen := hvs.length_eq
      rw [length_contents, List.length_cons] at hlen
      rw [List.length_eq_zero_iff.mp (show vs.length = 0 by omega)]
      exact heapOf_nil
  · have hother {i : Nat} (hi : i ≠ 1) : update view 1 (view (n + 1)) i = view i :=
      update_of_ne hi ..
    have hshows' : Shows cells n 1 (update view 1 (view (n + 1))) := by
      intro i hpos hle hne
      rw [hother hne]
      exact hshows i hpos (by omega)
    have horder : DownOrder key (update view 1 (view (n + 1))) n 1 := by
      constructor
      · intro i hi hle hne
        rw [hother hne, hother (by omega)]
        exact hheap i hi (by omega)
      · intro i _ _ hroot
        omega
    obtain ⟨cells', view', hsift, hcapacity, hshows'', hheap', hsame⟩ :=
      siftDown_spec hshows' (update_self ..) (by omega) le_rfl (by omega) horder
    refine ⟨cells', hsift, hcapacity, ?_⟩
    intro vs hvs
    have hlen := hvs.length_eq
    rw [length_contents, List.length_cons] at hlen
    refine ⟨hcapacity ▸ (Nat.le_succ n).trans hn, (Nat.succ.inj hlen).symm, fun _ => ?_⟩
    refine ⟨view', hshows'', hheap', hsame.trans ?_⟩
    exact ((contents_replace_first (by omega)).symm.trans hvs).cons_inv

/-- The first entry comes out, and the last one moves down in its place. -/
theorem HeapOf.extract (h : HeapOf key cells (n + 1) us) :
    ∃ least last cells', cells.read 1 = some least ∧ cells.read (n + 1) = some last ∧
      siftDown key last n cells 1 = some cells' ∧ cells'.capacity = cells.capacity ∧
      least ∈ us ∧ (∀ u ∈ us, key least ≤ key u) ∧
      ∀ vs, us.Perm (least :: vs) → HeapOf key cells' n vs := by
  obtain ⟨view, hshows, hheap, hsame⟩ := h.view n.succ_pos
  have hread {i : Nat} (hpos : 1 ≤ i) (hle : i ≤ n + 1) : cells.read i = some (view i) := by
    rw [Cells.read, if_pos ⟨hpos, hle.trans h.bound⟩]
    exact hshows i hpos hle
  have hmem {u : α} : u ∈ us ↔ ∃ i, 1 ≤ i ∧ i ≤ n + 1 ∧ view i = u :=
    hsame.mem_iff.symm.trans mem_contents
  have hleast : ∀ u ∈ us, key (view 1) ≤ key u := by
    intro u hu
    obtain ⟨i, hpos, hle, rfl⟩ := hmem.mp hu
    exact hheap.le hpos hle
  obtain ⟨cells', hsift, hcapacity, hrest⟩ := siftDown_last h.bound hshows hheap
  exact ⟨view 1, view (n + 1), cells', hread le_rfl (by omega), hread (by omega) le_rfl, hsift,
    hcapacity, hmem.mpr ⟨1, le_rfl, by omega, rfl⟩, hleast,
    fun vs hvs => hrest vs (hsame.trans hvs)⟩

end

end Margo.Lib.BinaryHeap
