import Mathlib.Data.List.Perm.Basic
import Mathlib.Data.List.Range

/-!
# A pool of slots, each free or held

The slots `0, …, n - 1` of a pool are partitioned into a list of free ones and
a list of held ones. Taking a free slot, giving a held one back and growing
the pool keep the partition, so a slot is never free and held, nor held twice,
and is free again once nothing holds it.
-/

namespace Margo.Lib.Slots

/-- Every slot below `n` occurs exactly once in the two lists. -/
def Partition (free held : List Nat) (n : Nat) : Prop :=
  (free ++ held).Perm (List.range n)

variable {free held : List Nat} {n o : Nat}

theorem partition_empty : Partition [] [] 0 := List.Perm.refl _

theorem Partition.perm {held' : List Nat} (h : Partition free held n)
    (hperm : held.Perm held') : Partition free held' n :=
  (hperm.symm.append_left free).trans h

theorem Partition.take (h : Partition (o :: free) held n) :
    Partition free (o :: held) n :=
  List.perm_middle.trans h

theorem Partition.give (h : Partition free (o :: held) n) :
    Partition (o :: free) held n :=
  List.perm_middle.symm.trans h

/-- The new slots are pushed one by one, so the last one comes first. -/
theorem Partition.grow (h : Partition free held n) (k : Nat) :
    Partition ((List.range' n k).reverse ++ free) held (n + k) := by
  have hrange : List.range (n + k) = List.range n ++ List.range' n k := by
    rw [List.range_eq_range', List.range_eq_range', ← List.range'_append_1, Nat.zero_add]
  rw [Partition, hrange, List.append_assoc]
  calc
    ((List.range' n k).reverse ++ (free ++ held)).Perm (List.range' n k ++ List.range n) :=
      (List.reverse_perm _).append h
    _ |>.Perm (List.range n ++ List.range' n k) := List.perm_append_comm

theorem Partition.nodup (h : Partition free held n) : (free ++ held).Nodup :=
  h.nodup_iff.mpr List.nodup_range

theorem Partition.nodup_held (h : Partition free held n) : held.Nodup :=
  (List.nodup_append.mp h.nodup).2.1

theorem Partition.not_mem_free (h : Partition free held n) (ho : o ∈ held) : o ∉ free := by
  intro hfree
  exact (List.nodup_append.mp h.nodup).2.2 o hfree o ho rfl

theorem Partition.lt (h : Partition free held n) (ho : o ∈ free ++ held) : o < n :=
  List.mem_range.mp (h.mem_iff.mp ho)

/-- Once nothing is held, every slot is free. -/
theorem Partition.all_free (h : Partition free [] n) : free.Perm (List.range n) := by
  simpa [Partition] using h

/-- Two holders of one slot are the same. -/
theorem eq_of_holds {α : Type*} {f : α → Option Nat} {l : List α}
    (h : (l.filterMap f).Nodup) {x y : α} (hx : x ∈ l) (hy : y ∈ l) (hfx : f x = some o)
    (hfy : f y = some o) : x = y := by
  induction l with
  | nil => exact absurd hx List.not_mem_nil
  | cons z l ih =>
      have hmem : ∀ u ∈ l, f u = some o → o ∈ l.filterMap f := fun u hu hfu =>
        List.mem_filterMap.mpr ⟨u, hu, hfu⟩
      rw [List.filterMap_cons] at h
      obtain rfl | hx' := List.mem_cons.mp hx
      · obtain rfl | hy' := List.mem_cons.mp hy
        · rfl
        · rw [hfx] at h
          exact absurd (hmem y hy' hfy) (List.nodup_cons.mp h).1
      · obtain rfl | hy' := List.mem_cons.mp hy
        · rw [hfy] at h
          exact absurd (hmem x hx' hfx) (List.nodup_cons.mp h).1
        · cases hz : f z with
          | none => exact ih (by simpa [hz] using h) hx' hy'
          | some o' =>
              rw [hz] at h
              exact ih (List.nodup_cons.mp h).2 hx' hy'

/-! ## A growing pool -/

/-- The free slots of a pool, and how many slots it has. -/
structure Pool where
  free : List Nat
  size : Nat
  deriving DecidableEq, Repr

/-- A pool without slots. -/
def Pool.empty : Pool := ⟨[], 0⟩

/-- A block of new slots. -/
def Pool.grow (p : Pool) (block : Nat) : Pool :=
  ⟨(List.range' p.size block).reverse ++ p.free, p.size + block⟩

/-- The first free slot, after a new block if there is none. -/
def Pool.take (p : Pool) (block : Nat) : Option (Nat × Pool) :=
  let p := if p.free = [] then p.grow block else p
  match p.free with
  | [] => none
  | o :: free => some (o, { p with free := free })

/-- A slot is free again. -/
def Pool.give (p : Pool) (o : Nat) : Pool := { p with free := o :: p.free }

/-- What is not free is held, once. -/
def Pool.Holds (p : Pool) (held : List Nat) : Prop := Partition p.free held p.size

namespace Pool

variable {p p' : Pool} {held' : List Nat} {block : Nat}

theorem holds_empty : Pool.empty.Holds [] := partition_empty

theorem Holds.perm (h : p.Holds held) (hperm : held.Perm held') : p.Holds held' :=
  Partition.perm h hperm

theorem Holds.grow (h : p.Holds held) (block : Nat) : (p.grow block).Holds held :=
  Partition.grow h block

theorem Holds.take (h : p.Holds held) (htake : p.take block = some (o, p')) :
    p'.Holds (o :: held) := by
  have hgrown : (if p.free = [] then p.grow block else p).Holds held := by
    split
    · exact h.grow block
    · exact h
  rw [Pool.take] at htake
  generalize (if p.free = [] then p.grow block else p) = q at hgrown htake
  split at htake
  · cases htake
  · next o' free hfree =>
      cases htake
      rw [Holds, hfree] at hgrown
      exact Partition.take hgrown

theorem Holds.give (h : p.Holds (o :: held)) : (p.give o).Holds held := Partition.give h

theorem Holds.length (h : p.Holds held) : p.free.length + held.length = p.size := by
  have hlength := List.Perm.length_eq h
  rwa [List.length_append, List.length_range] at hlength

/-- A pool has one number of holders. -/
theorem Holds.length_eq (h : p.Holds held) (h' : p.Holds held') : held.length = held'.length := by
  have hlength := h.length
  have hlength' := h'.length
  omega

/-- A slot that is taken has a holder more. -/
theorem Holds.not_take (h : p.Holds held) (htake : p.take block = some (o, p'))
    (hsame : held'.length = held.length) : ¬p'.Holds held' := by
  intro hheld
  have hlength := (h.take htake).length_eq hheld
  rw [List.length_cons, hsame] at hlength
  omega

/-- A pool without holders is free. -/
theorem Holds.all_free (h : p.Holds []) : p.free.Perm (List.range p.size) := Partition.all_free h

end Pool

end Margo.Lib.Slots
