import Margo.Pool.EfirstQueues
import Mathlib.Algebra.Group.Nat.Defs
import Mathlib.Data.Fintype.Card
import Mathlib.Logic.Embedding.Basic

/-!
# The order of first pushes of an `earliest_first` pool

The priority of a unit is its place in the order in which the units were pushed
for the first time, and the number of its pushes to the heap is bounded.

## Implementation notes

The counter behind the priorities has 64 bits. It does not wrap around because
the units lie at different addresses other than the null pointer, so that there
are fewer than two to the 64 of them.
-/

namespace Margo.Pool.Efirst

open Function Lib.BinaryHeap Lib.Links Lib.Runs

variable {α : Type*} [DecidableEq α]

/-! ## First pushes -/

/-- The order of first pushes with one more step. -/
def firstPush (order : List α) (l : Label α) : List α :=
  match pushed l with
  | some unit => if unit ∈ order then order else order ++ [unit]
  | none => order

/-- The units in the order of their first pushes. -/
def firstPushes (labels : List (Label α)) : List α := labels.foldl firstPush []

theorem firstPush_grows (order : List α) (l : Label α) : order <+: firstPush order l := by
  unfold firstPush
  cases pushed l with
  | none => exact List.prefix_refl _
  | some unit =>
      dsimp only
      split
      · exact List.prefix_refl _
      · exact List.prefix_append _ _

theorem firstPush_other {order : List α} {l : Label α} (h : pushed l = none) :
    firstPush order l = order := by
  rw [firstPush, h]

/-- The priorities follow the order of first pushes, and no unit was pushed to the
heap more than 32 times. -/
structure Contents.Ordered (order : List α) (c : Contents α) : Prop where
  nodup : order.Nodup
  num : c.num = BitVec.ofNat 64 order.length
  priority : ∀ i u, order[i]? = some u → c.priority u = BitVec.ofNat 64 (i + 1)
  csCount : ∀ u ∈ order, 1 ≤ c.csCount u ∧ c.csCount u ≤ 32
  unpushed : ∀ u ∉ order, c.priority u = 0 ∧ c.csCount u = 0
  pushed : ∀ u ∈ c.units, u ∈ order
  units : c.units.Nodup

section

variable {order : List α} {l : Label α} {c c' : Contents α} {unit : α}

/-! ## What a step does -/

/-- A unit with a priority keeps it. -/
theorem Contents.push_old (h : c.priority unit ≠ 0) :
    c.push unit = if c.csCount unit < 32 then { c with
      prio := unit :: c.prio
      csCount := update c.csCount unit (c.csCount unit + 1) }
    else { c with fifo := c.fifo ++ [unit] } := by
  rw [push, prioritize, if_neg h]

/-- A new unit gets a priority and goes to the heap. -/
theorem Contents.push_new (h : c.priority unit = 0) (hcount : c.csCount unit = 0) :
    c.push unit = { c with
      priority := update c.priority unit (c.num + 1)
      num := c.num + 1
      prio := unit :: c.prio
      csCount := update c.csCount unit 1 } := by
  rw [push, prioritize, if_pos h]
  simp only [hcount]
  rfl

/-- A step pushes, or moves a call on, or ends the fast path of a call, or pops. -/
theorem Contents.Step.outcome (h : c.Step l c') :
    (∃ unit, l = .push unit ∧ unit ∉ c.units ∧ c' = c.push unit) ∨
    (∃ testing tested waiting, pushed l = none ∧ c' = { c with testing, tested, waiting } ∧
      (c.prio ≠ [] → testing ≤ c.testing)) ∨
    (pushed l = none ∧ 0 < c.testing ∧ c.fifo = [] ∧
      c' = { c with testing := c.testing - 1, returned := c.returned ++ [none] }) ∨
    ∃ tested waiting, pushed l = none ∧ Pop { c with tested, waiting } c' := by
  cases h with
  | push hnew => exact .inl ⟨_, rfl, hnew, rfl⟩
  | testPrioEmpty hprio =>
      exact .inr (.inl ⟨c.testing + 1, c.tested, c.waiting, rfl, rfl, fun h => absurd hprio h⟩)
  | testPrio _ =>
      exact .inr (.inl ⟨c.testing, c.tested + 1, c.waiting, rfl, rfl, fun _ => Nat.le_refl _⟩)
  | testFifoEmpty htesting hfifo => exact .inr (.inr (.inl ⟨rfl, htesting, hfifo, rfl⟩))
  | testFifo _ _ =>
      exact .inr (.inl
        ⟨c.testing - 1, c.tested + 1, c.waiting, rfl, rfl, fun _ => Nat.sub_le _ _⟩)
  | popLocked _ hpop => exact .inr (.inr (.inr ⟨c.tested - 1, c.waiting, rfl, hpop⟩))
  | timedwaitEmpty _ =>
      exact .inr (.inl ⟨c.testing, c.tested, c.waiting + 1, rfl, rfl, fun _ => Nat.le_refl _⟩)
  | timedwait _ hpop => exact .inr (.inr (.inr ⟨c.tested, c.waiting, rfl, hpop⟩))
  | wake _ hpop => exact .inr (.inr (.inr ⟨c.tested, c.waiting - 1, rfl, hpop⟩))

omit [DecidableEq α] in
/-- A pop takes at most one unit out, and leaves all else about the units as it
is. -/
theorem Contents.Pop.units (h : c.Pop c') :
    c'.units.Sublist c.units ∨ ∃ unit, c.units.Perm (unit :: c'.units) := by
  cases h with
  | prio hunit _ _ => exact .inr ⟨_, hunit.append_right c.fifo⟩
  | @fifo unit _ hunit _ =>
      refine .inr ⟨unit, ?_⟩
      rw [Contents.units, hunit]
      exact List.perm_middle
  | empty _ => exact .inl (List.Sublist.refl _)

omit [DecidableEq α] in
theorem Contents.Pop.kept (h : c.Pop c') :
    c'.priority = c.priority ∧ c'.csCount = c.csCount ∧ c'.num = c.num ∧ c'.pops = c.pops + 1 := by
  cases h <;> exact ⟨rfl, rfl, rfl, rfl⟩

/-! ## The order is kept -/

omit [DecidableEq α] in
/-- Fewer units than there are addresses. -/
theorem length_lt_of_nodup (address : α ↪ {a : BitVec 64 // a ≠ 0}) (h : order.Nodup) :
    order.length < 2 ^ 64 := by
  have hinj : Injective fun u => (address u).val.toFin := by
    intro u v huv
    exact address.injective (Subtype.ext (BitVec.eq_of_toFin_eq huv))
  have hzero : (0 : Fin (2 ^ 64)) ∉ order.map fun u => (address u).val.toFin := by
    intro hmem
    obtain ⟨u, -, hu⟩ := List.mem_map.mp hmem
    exact (address u).property (BitVec.eq_of_toFin_eq hu)
  have hlength := (List.nodup_cons.mpr ⟨hzero, h.map hinj⟩).length_le_card
  rw [List.length_cons, List.length_map, Fintype.card_fin] at hlength
  exact hlength

omit [DecidableEq α] in
/-- The priority of the unit at a place of the order, as a number. -/
theorem Contents.Ordered.toNat_priority (h : Ordered order c)
    (address : α ↪ {a : BitVec 64 // a ≠ 0}) {i : Nat} (hi : order[i]? = some unit) :
    (c.priority unit).toNat = i + 1 := by
  have hbound := length_lt_of_nodup address h.nodup
  have hlt := (List.getElem?_eq_some_iff.mp hi).1
  rw [h.priority i unit hi, BitVec.toNat_ofNat]
  exact Nat.mod_eq_of_lt (by omega)

omit [DecidableEq α] in
/-- Units may leave the pool. -/
theorem Contents.Ordered.shrink (h : Ordered order c) (hpriority : c'.priority = c.priority)
    (hcsCount : c'.csCount = c.csCount) (hnum : c'.num = c.num)
    (hunits : c'.units.Sublist c.units ∨ ∃ unit, c.units.Perm (unit :: c'.units)) :
    Ordered order c' where
  nodup := h.nodup
  num := hnum.trans h.num
  priority := hpriority ▸ h.priority
  csCount := hcsCount ▸ h.csCount
  unpushed := by
    rw [hpriority, hcsCount]
    exact h.unpushed
  pushed u hu := by
    obtain hsub | ⟨unit, hperm⟩ := hunits
    · exact h.pushed u (hsub.subset hu)
    · exact h.pushed u (hperm.mem_iff.mpr (List.mem_cons_of_mem _ hu))
  units := by
    obtain hsub | ⟨unit, hperm⟩ := hunits
    · exact h.units.sublist hsub
    · exact (List.nodup_cons.mp (hperm.nodup_iff.mp h.units)).2

/-- One more unit in the pool. -/
theorem Contents.Ordered.pushed_push (h : Ordered order c) (hnew : unit ∉ c.units) :
    (∀ u ∈ (c.push unit).units, u = unit ∨ u ∈ order) ∧ (c.push unit).units.Nodup := by
  have hperm := (c.units_push unit).1
  refine ⟨fun u hu => ?_, hperm.nodup_iff.mpr (List.nodup_cons.mpr ⟨hnew, h.units⟩)⟩
  exact (List.mem_cons.mp (hperm.subset hu)).imp_right (h.pushed u)

/-- A unit that was pushed before changes its place only. -/
theorem Contents.Ordered.push_old (h : Ordered order c) (address : α ↪ {a : BitVec 64 // a ≠ 0})
    (hnew : unit ∉ c.units) (hold : unit ∈ order) : Ordered order (c.push unit) := by
  obtain ⟨i, hi⟩ := List.mem_iff_getElem?.mp hold
  have hpriority : c.priority unit ≠ 0 := by
    intro hzero
    have htoNat := h.toNat_priority address hi
    rw [hzero] at htoNat
    cases htoNat
  obtain ⟨hpushed, hunits⟩ := h.pushed_push hnew
  replace hpushed : ∀ u ∈ (c.push unit).units, u ∈ order :=
    fun u hu => (hpushed u hu).elim (fun heq => heq ▸ hold) id
  rw [Contents.push_old hpriority] at hunits hpushed ⊢
  by_cases hheap : c.csCount unit < 32
  · rw [if_pos hheap] at hunits hpushed ⊢
    refine ⟨h.nodup, h.num, h.priority, ?_, ?_, hpushed, hunits⟩
    · intro u hu
      by_cases heq : u = unit
      · rw [heq]
        simp only [update_self]
        omega
      · simp only [update_of_ne heq]
        exact h.csCount u hu
    · intro u hu
      have heq : u ≠ unit := fun heq => hu (heq ▸ hold)
      simp only [update_of_ne heq]
      exact h.unpushed u hu
  · rw [if_neg hheap] at hunits hpushed ⊢
    exact ⟨h.nodup, h.num, h.priority, h.csCount, h.unpushed, hpushed, hunits⟩

/-- A new unit is the last one of the order. -/
theorem Contents.Ordered.push_new (h : Ordered order c) (hnew : unit ∉ c.units)
    (hnot : unit ∉ order) : Ordered (order ++ [unit]) (c.push unit) := by
  obtain ⟨hpriority, hcount⟩ := h.unpushed unit hnot
  have hnum : c.num + 1 = BitVec.ofNat 64 (order.length + 1) := by
    rw [h.num, BitVec.ofNat_add]
    rfl
  obtain ⟨hpushed, hunits⟩ := h.pushed_push hnew
  replace hpushed : ∀ u ∈ (c.push unit).units, u ∈ order ++ [unit] := by
    intro u hu
    rw [List.mem_append, List.mem_singleton]
    exact (hpushed u hu).symm
  rw [Contents.push_new hpriority hcount] at hunits hpushed ⊢
  refine ⟨?_, ?_, ?_, ?_, ?_, hpushed, hunits⟩
  · exact h.nodup.append (List.nodup_singleton unit) (by simpa using hnot)
  · rw [List.length_append, List.length_singleton]
    exact hnum
  · intro i u hi
    rcases Nat.lt_or_ge i order.length with hlt | hge
    · rw [List.getElem?_append_left hlt] at hi
      have heq : u ≠ unit := ne_of_mem_of_not_mem (List.mem_of_getElem? hi) hnot
      simp only [update_of_ne heq]
      exact h.priority i u hi
    · rw [List.getElem?_append_right hge, List.getElem?_singleton] at hi
      obtain ⟨hzero, rfl⟩ : i - order.length = 0 ∧ unit = u := by simpa using hi
      simp only [update_self]
      rw [hnum, show i = order.length by omega]
  · intro u hu
    by_cases heq : u = unit
    · rw [heq]
      simp only [update_self]
      decide
    · simp only [update_of_ne heq]
      exact h.csCount u (by simpa [heq] using hu)
  · intro u hu
    obtain ⟨hu, heq⟩ : u ∉ order ∧ u ≠ unit := by simpa using hu
    simp only [update_of_ne heq]
    exact h.unpushed u hu

/-- Every step keeps the order, or appends to it. -/
theorem Contents.Ordered.step (h : Ordered order c) (address : α ↪ {a : BitVec 64 // a ≠ 0})
    (hstep : c.Step l c') : Ordered (firstPush order l) c' := by
  have hsame : c.units.Sublist c.units := List.Sublist.refl _
  obtain ⟨unit, rfl, hnew, rfl⟩ | ⟨testing, tested, waiting, hl, rfl, -⟩ | ⟨hl, -, -, rfl⟩ |
    ⟨tested, waiting, hl, hpop⟩ := hstep.outcome
  · by_cases hold : unit ∈ order
    · rw [show firstPush order (.push unit) = order from if_pos hold]
      exact h.push_old address hnew hold
    · rw [show firstPush order (.push unit) = order ++ [unit] from if_neg hold]
      exact h.push_new hnew hold
  · rw [firstPush_other hl]
    exact h.shrink rfl rfl rfl (.inl hsame)
  · rw [firstPush_other hl]
    exact h.shrink rfl rfl rfl (.inl hsame)
  · rw [firstPush_other hl]
    obtain ⟨hpriority, hcsCount, hnum, -⟩ := hpop.kept
    exact h.shrink hpriority hcsCount hnum hpop.units

omit [DecidableEq α] in
theorem Contents.ordered_empty : Ordered [] (Contents.empty : Contents α) where
  nodup := List.nodup_nil
  num := rfl
  priority := by
    intro i u hi
    cases hi
  csCount := by
    intro u hu
    cases hu
  unpushed := fun _ _ => ⟨rfl, rfl⟩
  pushed := fun _ hu => hu
  units := List.nodup_nil

/-- The order of first pushes decides the priorities in every run. -/
theorem Contents.ordered_run {labels : List (Label α)} (address : α ↪ {a : BitVec 64 // a ≠ 0})
    (hsteps : Steps Contents.Step Contents.empty labels c) : Ordered (firstPushes labels) c := by
  have hstep {as : List (Label α)} {c : Contents α} {l : Label α} {c' : Contents α}
      (h : Ordered (firstPushes as) c) (hR : c.Step l c') :
      Ordered (firstPushes (as ++ [l])) c' := by
    rw [firstPushes, List.foldl_append]
    exact h.step address hR
  have hempty : Ordered (firstPushes ([] : List (Label α))) (Contents.empty : Contents α) :=
    ordered_empty
  exact hsteps.invariant (P := fun as c => Ordered (firstPushes as) c) hstep hempty

end

end Margo.Pool.Efirst
