import Margo.Lib.Deadline
import Margo.Pool.EfirstOrder
import Mathlib.Algebra.Group.Action.Defs
import Mathlib.Algebra.Order.BigOperators.Group.List
import Mathlib.Algebra.Order.Ring.Nat

/-!
# No unit of an `earliest_first` pool waits for ever

A unit in the heap is passed over by units with smaller priorities only. There
are as many of them as units that were pushed before it for the first time, and
each of them goes through the heap 32 times at most. Every second pop takes
from the heap, and every second one from the list.

## Implementation notes

The pops are counted by what they return. A call of `pool_pop` that has seen the
heap empty before the unit came can still return nothing, so the bound for the
heap is given once for the units returned, and once for all results, where such
a call counts in addition.
-/

namespace Margo.Pool.Efirst

open Function Lib.BinaryHeap Lib.Deadline Lib.Links Lib.Runs

variable {α : Type*} [DecidableEq α]

section

variable {order early : List α} {l : Label α} {c c' : Contents α} {unit : α}

/-! ## Turns -/

/-- The turns alternate, also where the counter of pops wraps around. -/
theorem turn_succ (pops : BitVec 64) : (pops + 1 + 1) % 2 = 0 ↔ ¬ (pops + 1) % 2 = 0 := by
  rw [← BitVec.toNat_inj, ← BitVec.toNat_inj]
  simp only [BitVec.toNat_umod, BitVec.toNat_add]
  change (((pops.toNat + 1) % 2 ^ 64 + 1) % 2 ^ 64) % 2 = 0 ↔ ¬ ((pops.toNat + 1) % 2 ^ 64) % 2 = 0
  omega

/-- Whether the next pop takes from the list if it can. -/
def Contents.fifoTurn (c : Contents α) : Nat := if (c.pops + 1) % 2 = 0 then 1 else 0

omit [DecidableEq α] in
theorem Contents.fifoTurn_le (c : Contents α) : c.fifoTurn ≤ 1 := by
  unfold fifoTurn
  split <;> decide

/-- How often a unit can still come out of the heap. -/
def Contents.passes (c : Contents α) (unit : α) : Nat :=
  32 - c.csCount unit + if unit ∈ c.prio then 1 else 0

/-- How often one of these units can still come out of the heap. -/
def Contents.bypasses (early : List α) (c : Contents α) : Nat := (early.map c.passes).sum

/-- A push uses up one of the 32 times. -/
theorem Contents.passes_push (hnew : unit ∉ c.units) (u : α) :
    (c.push unit).passes u = c.passes u := by
  obtain ⟨priority, num, heq⟩ := c.prioritize_eq unit
  have hprio : unit ∉ c.prio := fun hmem => hnew (List.mem_append_left _ hmem)
  simp only [push, heq]
  by_cases hheap : c.csCount unit < 32
  · rw [if_pos hheap]
    by_cases hu : u = unit
    · subst hu
      simp only [passes, update_self, List.mem_cons_self, if_true, if_neg hprio]
      omega
    · simp only [passes, update_of_ne hu, List.mem_cons, hu, false_or]
  · rw [if_neg hheap]
    rfl

theorem Contents.bypasses_push (hnew : unit ∉ c.units) :
    (c.push unit).bypasses early = c.bypasses early := by
  rw [bypasses, bypasses, List.map_congr_left fun u _ => passes_push hnew u]

/-- A pop from the heap uses up one of the times. -/
theorem Contents.bypasses_pop {rest : List α} (hunit : c.prio.Perm (unit :: rest))
    (hnodup : c.prio.Nodup) (hmem : unit ∈ early) (hprio : c'.prio = rest)
    (hcsCount : c'.csCount = c.csCount) : c'.bypasses early + 1 ≤ c.bypasses early := by
  have hnot : unit ∉ rest := (List.nodup_cons.mp (hunit.nodup_iff.mp hnodup)).1
  refine Nat.succ_le_of_lt (List.sum_lt_sum _ _ ?_ ?_)
  · intro u _
    rw [passes, passes, hprio, hcsCount]
    by_cases hu : u ∈ rest
    · rw [if_pos hu, if_pos (hunit.mem_iff.mpr (List.mem_cons_of_mem _ hu))]
    · rw [if_neg hu]
      omega
  · refine ⟨unit, hmem, ?_⟩
    rw [passes, passes, hprio, hcsCount, if_neg hnot,
      if_pos (hunit.mem_iff.mpr List.mem_cons_self)]
    omega

/-- Each of the units was pushed once before, so 32 times are left at most. -/
theorem Contents.Ordered.bypasses_le (h : Ordered order c) (hearly : early ⊆ order) :
    c.bypasses early ≤ 32 * early.length := by
  have hle : ∀ n ∈ early.map c.passes, n ≤ 32 := by
    intro n hn
    obtain ⟨u, hu, rfl⟩ := List.mem_map.mp hn
    have hcount := (h.csCount u (hearly hu)).1
    unfold passes
    split <;> omega
  have hsum := List.sum_le_card_nsmul _ 32 hle
  rw [List.length_map, smul_eq_mul, Nat.mul_comm] at hsum
  exact hsum

/-! ## Units before the unit -/

/-- The unit is in the heap, and these are the units that were pushed before it. -/
structure Contents.InHeap (early : List α) (unit : α) (order : List α) (c : Contents α) :
    Prop where
  ordered : Ordered order c
  early : early ++ [unit] <+: order
  mem : unit ∈ c.prio

omit [DecidableEq α] in
/-- What comes out of the heap is the unit, or one of those before it. -/
theorem Contents.InHeap.least (h : InHeap early unit order c)
    (address : α ↪ {a : BitVec 64 // a ≠ 0}) {least : α} (hleast : least ∈ c.prio)
    (hmin : ∀ u ∈ c.prio, (c.priority least).toNat ≤ (c.priority u).toNat) :
    least = unit ∨ least ∈ early := by
  obtain ⟨later, rfl⟩ := h.early
  have hunit : (early ++ [unit] ++ later)[early.length]? = some unit := by simp
  obtain ⟨i, hi⟩ := List.mem_iff_getElem?.mp
    (h.ordered.pushed least (List.mem_append_left _ hleast))
  have hle := hmin unit h.mem
  rw [h.ordered.toNat_priority address hi, h.ordered.toNat_priority address hunit] at hle
  obtain rfl | hlt := Nat.eq_or_lt_of_le (Nat.le_of_succ_le_succ hle)
  · exact .inl (Option.some.inj (hi.symm.trans hunit))
  · rw [List.append_assoc, List.getElem?_append_left hlt] at hi
    exact .inr (List.mem_of_getElem? hi)

/-- The number of pops that are enough for the unit to come out: two for each time that
it can be passed over, and one for the turn of the list. -/
def Contents.rank (early : List α) (c : Contents α) : Nat :=
  2 * c.bypasses early + c.fifoTurn + 1

/-- What a step can do while the unit is in the heap: nothing that matters, or a call
returns from its fast path, or another unit is returned, or the unit is. -/
inductive Contents.Outcome (early : List α) (unit : α) (c c' : Contents α) : Prop
  | kept (hreturned : c'.returned = c.returned) (hmem : unit ∈ c'.prio)
      (hrank : c'.rank early = c.rank early) (htesting : c'.testing ≤ c.testing)
  | failed (hreturned : c'.returned = c.returned ++ [none]) (hmem : unit ∈ c'.prio)
      (hrank : c'.rank early = c.rank early) (htesting : c'.testing + 1 = c.testing)
  | passed (u : α) (hreturned : c'.returned = c.returned ++ [some u]) (hmem : unit ∈ c'.prio)
      (hrank : c'.rank early + 1 ≤ c.rank early) (htesting : c'.testing = c.testing)
      (hu : c'.prio = c.prio ∨ u ∈ early)
  | least (hreturned : c'.returned = c.returned ++ [some unit])
      (hless : c'.prio.length < c.prio.length)

theorem Contents.InHeap.outcome (h : InHeap early unit order c)
    (address : α ↪ {a : BitVec 64 // a ≠ 0}) (hstep : c.Step l c') :
    Outcome early unit c c' := by
  obtain ⟨u, rfl, hnew, rfl⟩ | ⟨testing, tested, waiting, -, rfl, htesting⟩ |
    ⟨-, htesting, -, rfl⟩ | ⟨tested, waiting, -, hpop⟩ := hstep.outcome
  · obtain ⟨priority, num, heq⟩ := c.prioritize_eq u
    have hkept : (c.push u).pops = c.pops ∧ (c.push u).testing = c.testing ∧
        unit ∈ (c.push u).prio := by
      simp only [push, heq]
      split
      · exact ⟨rfl, rfl, List.mem_cons_of_mem _ h.mem⟩
      · exact ⟨rfl, rfl, h.mem⟩
    refine .kept (c.units_push u).2 hkept.2.2 ?_ hkept.2.1.le
    rw [rank, bypasses_push hnew, fifoTurn, hkept.1, rank, fifoTurn]
  · exact .kept rfl h.mem rfl (htesting (List.ne_nil_of_mem h.mem))
  · exact .failed rfl h.mem rfl (Nat.sub_add_cancel htesting)
  · have hnodup : c.prio.Nodup := h.ordered.units.sublist (List.sublist_append_left _ _)
    have hnonempty : c.prio ≠ [] := List.ne_nil_of_mem h.mem
    cases hpop with
    | @prio least rest hunit hmin _ =>
        have hleast : least ∈ c.prio := hunit.mem_iff.mpr List.mem_cons_self
        by_cases heq : least = unit
        · subst heq
          exact .least rfl (Nat.lt_of_lt_of_eq (Nat.lt_succ_self _) hunit.length_eq.symm)
        · have hearly := (h.least address hleast hmin).resolve_left heq
          have hmem : unit ∈ rest :=
            (List.mem_cons.mp (hunit.mem_iff.mp h.mem)).resolve_left (Ne.symm heq)
          refine .passed least rfl hmem ?_ rfl (.inr hearly)
          have hless : bypasses early { c with prio := rest } + 1 ≤ c.bypasses early :=
            bypasses_pop hunit hnodup hearly rfl rfl
          have hturn := fifoTurn_le { c with pops := c.pops + 1 }
          change 2 * bypasses early { c with prio := rest } +
            fifoTurn { c with pops := c.pops + 1 } + 1 + 1 ≤ 2 * c.bypasses early + c.fifoTurn + 1
          omega
    | @fifo u rest hunit hturn =>
        -- the turn of the list is over with this pop
        have hturn : (c.pops + 1) % 2 = 0 := hturn.resolve_right hnonempty
        have hnext : ¬ (c.pops + 1 + 1) % 2 = 0 := fun hnext => (turn_succ c.pops).mp hnext hturn
        refine .passed u rfl h.mem ?_ rfl (.inl rfl)
        change 2 * c.bypasses early + fifoTurn { c with pops := c.pops + 1 } + 1 + 1 ≤
          2 * c.bypasses early + c.fifoTurn + 1
        rw [fifoTurn, if_neg hnext, fifoTurn, if_pos hturn]
    | empty hunits => exact absurd (List.append_eq_nil_iff.mp hunits).1 hnonempty

/-- The unit stays in the heap until it is returned. -/
theorem Contents.InHeap.step (h : InHeap early unit order c)
    (address : α ↪ {a : BitVec 64 // a ≠ 0}) (hstep : c.Step l c') (hmem : unit ∈ c'.prio) :
    InHeap early unit (firstPush order l) c' :=
  ⟨h.ordered.step address hstep, h.early.trans (firstPush_grows order l), hmem⟩

/-! ## The deadlines -/

/-- Results are only appended. -/
theorem Contents.step_grows (hstep : c.Step l c') : c.returned <+: c'.returned := by
  obtain ⟨u, rfl, -, rfl⟩ | ⟨_, _, _, -, rfl, -⟩ | ⟨-, -, -, rfl⟩ | ⟨_, _, -, hpop⟩ :=
    hstep.outcome
  · rw [(c.units_push u).2]
  · exact List.prefix_refl _
  · exact List.prefix_append _ _
  · cases hpop <;> exact List.prefix_append _ _

/-- The unit is returned with one of the next `n` units. -/
def Contents.HeapWaits (early : List α) (unit : α) (n : Nat) (c : Contents α) : Prop :=
  ∃ order, InHeap early unit order c ∧ c.rank early ≤ n

/-- The unit is returned with one of the next `n` results of calls. -/
def Contents.HeapWaitsTested (early : List α) (unit : α) (n : Nat) (c : Contents α) : Prop :=
  ∃ order, InHeap early unit order c ∧ c.rank early + c.testing ≤ n

theorem Contents.heapWaiting (address : α ↪ {a : BitVec 64 // a ≠ 0}) (early : List α)
    (unit : α) :
    Waiting Contents.Step (fun c => c.returned.filterMap id) unit (HeapWaits early unit) where
  pos := by
    rintro n c ⟨order, -, hn⟩
    exact Nat.lt_of_lt_of_le (Nat.succ_pos _) hn
  grows hstep := (step_grows hstep).filterMap id
  step := by
    rintro n c l c' ⟨order, h, hn⟩ hstep
    cases h.outcome address hstep with
    | kept hreturned hmem hrank _ =>
        exact .inl ⟨by rw [hreturned], _, h.step address hstep hmem, hrank ▸ hn⟩
    | failed hreturned hmem hrank _ =>
        exact .inl ⟨by simp [hreturned], _, h.step address hstep hmem, hrank ▸ hn⟩
    | passed u hreturned hmem hrank _ _ =>
        refine .inr ⟨u, by simp [hreturned], .inr ⟨_, h.step address hstep hmem, ?_⟩⟩
        omega
    | least hreturned _ => exact .inr ⟨unit, by simp [hreturned], .inl rfl⟩

theorem Contents.heapWaitingTested (address : α ↪ {a : BitVec 64 // a ≠ 0}) (early : List α)
    (unit : α) :
    Waiting Contents.Step returned (some unit) (HeapWaitsTested early unit) where
  pos := by
    rintro n c ⟨order, -, hn⟩
    exact Nat.lt_of_lt_of_le (Nat.succ_pos _) ((Nat.le_add_right _ _).trans hn)
  grows := step_grows
  step := by
    rintro n c l c' ⟨order, h, hn⟩ hstep
    cases h.outcome address hstep with
    | kept hreturned hmem hrank htesting =>
        refine .inl ⟨hreturned, _, h.step address hstep hmem, ?_⟩
        omega
    | failed hreturned hmem hrank htesting =>
        refine .inr ⟨none, hreturned, .inr ⟨_, h.step address hstep hmem, ?_⟩⟩
        omega
    | passed u hreturned hmem hrank htesting _ =>
        refine .inr ⟨some u, hreturned, .inr ⟨_, h.step address hstep hmem, ?_⟩⟩
        omega
    | least hreturned _ => exact .inr ⟨some unit, hreturned, .inl rfl⟩

/-- The unit at this place of the list comes out with one of the next `n` pops. -/
def Contents.FifoWaits (unit : α) (n : Nat) (c : Contents α) : Prop :=
  ∃ k, c.fifo[k]? = some unit ∧ 2 * k + (1 - c.fifoTurn) + 1 ≤ n

theorem Contents.fifoWaiting (unit : α) :
    Waiting (Contents.Step (α := α)) returned (some unit) (FifoWaits unit) where
  pos := by
    rintro n c ⟨k, -, hn⟩
    omega
  grows := step_grows
  step := by
    rintro n c l c' ⟨k, hunit, hn⟩ hstep
    have hne : c.fifo ≠ [] := List.ne_nil_of_mem (List.mem_of_getElem? hunit)
    obtain ⟨u, -, -, rfl⟩ | ⟨_, _, _, -, rfl, -⟩ | ⟨-, -, hfifo, -⟩ | ⟨_, _, -, hpop⟩ :=
      hstep.outcome
    · refine .inl ⟨(c.units_push u).2, k, ?_⟩
      obtain ⟨priority, num, heq⟩ := c.prioritize_eq u
      simp only [push, heq]
      split
      · exact ⟨hunit, hn⟩
      · refine ⟨?_, hn⟩
        exact (List.getElem?_append_left (List.getElem?_eq_some_iff.mp hunit).1).trans hunit
    · exact .inl ⟨rfl, k, hunit, hn⟩
    · exact absurd hfifo hne
    · have hsucc := turn_succ c.pops
      cases hpop with
      | @prio least rest _ _ hturn =>
          -- the turn of the heap is over with one pop
          refine .inr ⟨some least, rfl, .inr ⟨k, hunit, ?_⟩⟩
          have hturn : ¬ (c.pops + 1) % 2 = 0 := hturn.resolve_right fun hnil => hne hnil
          simp only [fifoTurn, if_neg hturn, if_pos (hsucc.mpr hturn)] at hn ⊢
          omega
      | @fifo u rest hfifo _ =>
          refine .inr ⟨some u, rfl, ?_⟩
          have hfifo : c.fifo = u :: rest := hfifo
          rw [hfifo] at hunit
          cases k with
          | zero => exact .inl hunit
          | succ k =>
              refine .inr ⟨k, by simpa using hunit, ?_⟩
              omega
      | empty hunits => exact absurd (List.append_eq_nil_iff.mp hunits).2 hne

end

/-! ## Pops from the heap -/

/-- The unit that a step takes from the heap: what is returned by a step that makes
the heap smaller. -/
def heapPop (s t : State α) : List α :=
  if t.pool.queue.prioSize < s.pool.queue.prioSize then
    (t.returned.drop s.returned.length).filterMap id
  else []

/-- The units that the steps take from the heap, in order. -/
def heapPops (s : State α) : List (Label α) → List α
  | [] => []
  | l :: labels =>
      match step s l with
      | none => []
      | some t => heapPop s t ++ heapPops t labels

section

variable {order early : List α} {l : Label α} {labels : List (Label α)} {s s' t : State α}
  {c c' : Contents α} {unit : α}

theorem heapPops_cons (hstep : step s l = some t) :
    heapPops s (l :: labels) = heapPop s t ++ heapPops t labels := by
  rw [heapPops, hstep]

omit [DecidableEq α] in
theorem heapPop_eq_nil (h : Refines s c) (h' : Refines t c')
    (hle : c.prio.length ≤ c'.prio.length) : heapPop s t = [] := by
  refine if_neg (Nat.not_lt.mpr ?_)
  rwa [← h.queue.heap.length, ← h'.queue.heap.length]

omit [DecidableEq α] in
theorem heapPop_eq_singleton (h : Refines s c) (h' : Refines t c')
    (hlt : c'.prio.length < c.prio.length) (hreturned : c'.returned = c.returned ++ [some unit]) :
    heapPop s t = [unit] := by
  unfold heapPop
  rw [← h.queue.heap.length, ← h'.queue.heap.length, if_pos hlt, h.returned, h'.returned,
    hreturned, List.drop_left]
  rfl

/-- A unit came out of the heap as often as it was pushed there, and once less while
it is in it. -/
def Contents.Tally (pops : List α) (c : Contents α) : Prop :=
  ∀ u, pops.count u + (if u ∈ c.prio then 1 else 0) = c.csCount u

theorem Contents.Tally.step {pops : List α} (h : Tally pops c) (hnodup : c.prio.Nodup)
    (hs : Refines s c) (ht : Refines t c') (hstep : c.Step l c') :
    Tally (pops ++ heapPop s t) c' := by
  have hkept (hprio : c'.prio = c.prio) (hcsCount : c'.csCount = c.csCount) :
      Tally (pops ++ heapPop s t) c' := by
    rw [heapPop_eq_nil hs ht (Nat.le_of_eq (by rw [hprio])), List.append_nil]
    unfold Tally
    rw [hprio, hcsCount]
    exact h
  obtain ⟨u, rfl, hnew, rfl⟩ | ⟨_, _, _, -, rfl, -⟩ | ⟨-, -, -, rfl⟩ | ⟨_, _, -, hpop⟩ :=
    hstep.outcome
  · have hnot : u ∉ c.prio := fun hmem => hnew (List.mem_append_left _ hmem)
    obtain ⟨priority, num, heq⟩ := c.prioritize_eq u
    by_cases hheap : c.csCount u < 32
    · have hpush : c.push u = { c with
          priority
          num
          prio := u :: c.prio
          csCount := update c.csCount u (c.csCount u + 1) } := by
        simp only [push, heq, if_pos hheap]
      rw [heapPop_eq_nil hs ht (by rw [hpush]; exact Nat.le_succ _), List.append_nil, hpush]
      intro v
      have hv := h v
      by_cases hvu : v = u
      · subst hvu
        rw [if_neg hnot] at hv
        simp only [List.mem_cons_self, if_true, update_self]
        omega
      · simp only [List.mem_cons, hvu, false_or, update_of_ne hvu]
        exact hv
    · apply hkept
      · simp only [push, heq, if_neg hheap]
      · simp only [push, heq, if_neg hheap]
  · exact hkept rfl rfl
  · exact hkept rfl rfl
  · cases hpop with
    | @prio least rest hunit _ _ =>
        have hperm : c.prio.Perm (least :: rest) := hunit
        have hnot : least ∉ rest := (List.nodup_cons.mp (hperm.nodup_iff.mp hnodup)).1
        have hlt : rest.length < c.prio.length := by
          rw [hperm.length_eq]
          exact Nat.lt_succ_self _
        rw [heapPop_eq_singleton hs ht hlt rfl]
        intro v
        have hv := h v
        have hmem := hperm.mem_iff (a := v)
        rw [List.mem_cons] at hmem
        rw [List.count_append, List.count_singleton]
        by_cases hvl : v = least
        · subst hvl
          rw [if_pos (hmem.mpr (.inl rfl))] at hv
          simp only [beq_self_eq_true, if_true, if_neg hnot]
          exact hv
        · have hbeq : (least == v) = false := beq_false_of_ne (Ne.symm hvl)
          simp only [hvl, false_or] at hmem
          simp only [hbeq, hmem] at hv ⊢
          exact hv
    | fifo _ _ => exact hkept rfl rfl
    | empty _ => exact hkept rfl rfl

theorem tally_run {pops : List α} (address : α ↪ {a : BitVec 64 // a ≠ 0})
    (hrun : Run step Any s labels s') (hs : Refines s c) (ho : c.Ordered order)
    (h : c.Tally pops) : ∀ u, (pops ++ heapPops s labels).count u ≤ 32 := by
  induction hrun generalizing c order pops with
  | nil s =>
      intro u
      have hu := h u
      rw [heapPops, List.append_nil]
      by_cases hmem : u ∈ order
      · have := (ho.csCount u hmem).2
        omega
      · have := (ho.unpushed u hmem).2
        omega
  | cons hstep _ _ ih =>
      obtain ⟨c', hR, ht⟩ := hs.step_spec hstep
      have hnodup : c.prio.Nodup := ho.units.sublist (List.sublist_append_left _ _)
      rw [heapPops_cons hstep, ← List.append_assoc]
      exact ih ht (ho.step address hR) (h.step hnodup hs ht hR)

/-- Until the unit comes out of the heap, only units before it do. -/
theorem early_run (address : α ↪ {a : BitVec 64 // a ≠ 0}) (hrun : Run step Any s labels s')
    (hs : Refines s c) (h : c.InHeap early unit order) :
    unit ∈ heapPops s labels ∨ ∀ u ∈ heapPops s labels, u ∈ early := by
  induction hrun generalizing c order with
  | nil s => exact .inr fun u hu => absurd hu List.not_mem_nil
  | @cons s l t labels s' hstep _ _ ih =>
      obtain ⟨c', hR, ht⟩ := hs.step_spec hstep
      rw [heapPops_cons hstep]
      have hrest (hmem : unit ∈ c'.prio) (hpop : ∀ u ∈ heapPop s t, u ∈ early) :
          unit ∈ heapPop s t ++ heapPops t labels ∨
            ∀ u ∈ heapPop s t ++ heapPops t labels, u ∈ early := by
        refine (ih ht (h.step address hR hmem)).imp (List.mem_append_right _) fun hall u hu => ?_
        exact (List.mem_append.mp hu).elim (hpop u) (hall u)
      have hreturned (u : α) (hu : u ∈ heapPop s t) :
          u ∈ (c'.returned.drop c.returned.length).filterMap id := by
        rw [← hs.returned, ← ht.returned]
        unfold heapPop at hu
        split at hu
        · exact hu
        · cases hu
      cases h.outcome address hR with
      | kept hkept hmem _ _ =>
          refine hrest hmem fun u hu => ?_
          have := hreturned u hu
          simp [hkept] at this
      | failed hfailed hmem _ _ =>
          refine hrest hmem fun u hu => ?_
          have := hreturned u hu
          simp [hfailed] at this
      | passed v hpassed hmem _ _ hv =>
          refine hrest hmem fun u hu => ?_
          obtain hsame | hearly := hv
          · rw [heapPop_eq_nil hs ht (Nat.le_of_eq (by rw [hsame]))] at hu
            cases hu
          · have := hreturned u hu
            simp only [hpassed, List.drop_left] at this
            obtain rfl : u = v := by simpa using this
            exact hearly
      | least hleast hless =>
          rw [heapPop_eq_singleton hs ht hless hleast]
          exact .inl List.mem_cons_self

/-! ## No starvation -/

/-- The unit is in the array of the heap. -/
def State.InHeap (s : State α) (unit : α) : Prop :=
  ∃ i, 1 ≤ i ∧ i ≤ s.pool.queue.prioSize ∧ s.pool.queue.entries.read i = some unit

/-- The list of units from `first` to `last`. -/
structure State.IsFifo (s : State α) (fifo : List α) : Prop where
  chain : Chain s.mem.next fifo
  first : s.pool.queue.first = fifo.head?
  last : s.pool.queue.last = fifo.getLast?

omit [DecidableEq α] in
theorem State.IsFifo.unique {fifo fifo' : List α} (h : s.IsFifo fifo) (h' : s.IsFifo fifo') :
    fifo = fifo' := by
  obtain ⟨hnodup, _, hseg⟩ := h.chain
  obtain ⟨hnodup', _, hseg'⟩ := h'.chain
  exact hseg.eq_of_ends hseg' hnodup hnodup' (h.first.symm.trans h'.first)
    (h.last.symm.trans h'.last)

/-- What a unit of the heap can rely on: its priority `p` says that it was the `p`-th unit
pushed for the first time, only units of smaller priority come out of the heap
before it, no unit comes out of the heap more than 32 times, and it is among the next
`2 * (32 * (p - 1) + 1)` units returned; of all results those of calls that were
between their two tests count in addition. -/
structure HeapPromise (thread : α → Bool) (before after : List (Label α)) (s s' : State α)
    (unit : α) (p : Nat) : Prop where
  pos : 0 < p
  first : (firstPushes before)[p - 1]? = some unit
  smaller : unit ∉ heapPops s after → ∀ u ∈ heapPops s after, (s'.mem.priority u).toNat < p
  often : ∀ u, (heapPops (initial thread) (before ++ after)).count u ≤ 32
  units : Within (fun s => s.returned.filterMap id) unit (2 * (32 * (p - 1) + 1)) s s'
  results : Within State.returned (some unit) (2 * (32 * (p - 1) + 1) + s.testing) s s'

/-- In a longer run the order of first pushes is a longer one. -/
theorem Contents.Ordered.run (h : Ordered order c) (address : α ↪ {a : BitVec 64 // a ≠ 0})
    (hsteps : Steps Contents.Step c labels c') :
    ∃ order', Ordered order' c' ∧ order <+: order' := by
  induction hsteps generalizing order with
  | nil => exact ⟨order, h, List.prefix_refl _⟩
  | @cons c l c₁ labels c' hR _ ih =>
      obtain ⟨order', h', hprefix⟩ := ih (h.step address hR)
      exact ⟨order', h', (firstPush_grows order l).trans hprefix⟩

omit [DecidableEq α] in
/-- The place of a unit in the order of first pushes, with those before it. -/
theorem Contents.Ordered.inHeap (h : Ordered order c) (hmem : unit ∈ c.prio) :
    ∃ i, order[i]? = some unit ∧ (order.take i).length = i ∧
      InHeap (order.take i) unit order c := by
  obtain ⟨i, hi⟩ := List.mem_iff_getElem?.mp (h.pushed unit (List.mem_append_left _ hmem))
  have hlt := (List.getElem?_eq_some_iff.mp hi).1
  refine ⟨i, hi, List.length_take_of_le hlt.le, h, ?_, hmem⟩
  have htake : order.take (i + 1) = order.take i ++ [unit] := by
    rw [List.take_add_one, hi]
    rfl
  exact htake ▸ List.take_prefix (i + 1) order

omit [DecidableEq α] in
theorem Contents.tally_empty [DecidableEq α] : Tally [] (Contents.empty : Contents α) :=
  fun _ => rfl

/-- A unit of the heap with priority `p` is returned by one of the next
`2 * (32 * (p - 1) + 1)` pops, and the unit at place `k` of the list by one of the next
`2 * (k + 1)`. -/
theorem efirst_pool_never_starves {thread : α → Bool} {before after : List (Label α)}
    (address : α ↪ {a : BitVec 64 // a ≠ 0}) (hbefore : Run step Any (initial thread) before s)
    (hafter : Run step Any s after s') :
    (∀ unit, s.InHeap unit →
      HeapPromise thread before after s s' unit (s.mem.priority unit).toNat) ∧
    (∀ fifo k unit, s.IsFifo fifo → fifo[k]? = some unit →
      Within State.returned (some unit) (2 * (k + 1)) s s') := by
  obtain ⟨c, hsteps, h, -⟩ := efirst_pool_refines hbefore
  have ho := Contents.ordered_run address hsteps
  obtain ⟨c', hsteps', h'⟩ := hafter.simulation Refines.step_spec h
  constructor
  · rintro unit ⟨j, hpos, hle, hread⟩
    have hmem : unit ∈ c.prio := h.queue.heap.mem_of_read hpos hle hread
    obtain ⟨i, hi, hlength, hin⟩ := ho.inHeap hmem
    have hp : (s.mem.priority unit).toNat = i + 1 := by
      rw [h.queue.priority, ho.toNat_priority address hi]
    have hbypasses := ho.bypasses_le (List.take_subset i (firstPushes before))
    rw [hlength] at hbypasses
    have hturn := c.fifoTurn_le
    have hrank : c.rank ((firstPushes before).take i) ≤ 2 * (32 * i + 1) := by
      unfold Contents.rank
      omega
    rw [hp]
    refine ⟨Nat.succ_pos i, hi, ?_, ?_, ?_, ?_⟩
    · intro hnot u hu
      have hearly := (early_run address hafter h hin).resolve_left hnot u hu
      obtain ⟨order', ho', hprefix⟩ := ho.run address hsteps'
      obtain ⟨k, hk⟩ := List.mem_iff_getElem?.mp hearly
      have hki : k < i := hlength ▸ (List.getElem?_eq_some_iff.mp hk).1
      obtain ⟨hklt, heq⟩ := List.getElem?_eq_some_iff.mp
        (List.getElem?_take_of_lt hki ▸ hk : (firstPushes before)[k]? = some u)
      have hk' : order'[k]? = some u := heq ▸ List.prefix_iff_getElem?.mp hprefix k hklt
      rw [h'.queue.priority, ho'.toNat_priority address hk']
      omega
    · intro u
      exact tally_run address (hbefore.append hafter) (refines_initial thread)
        Contents.ordered_empty Contents.tally_empty u
    · exact ((Contents.heapWaiting address _ unit).within hsteps' ⟨_, hin, Nat.le_refl _⟩
        hrank).transfer (congrArg (List.filterMap id) h.returned)
          (congrArg (List.filterMap id) h'.returned)
    · rw [h.testing]
      exact ((Contents.heapWaitingTested address _ unit).within hsteps' ⟨_, hin, Nat.le_refl _⟩
        (Nat.add_le_add_right hrank c.testing)).transfer h.returned h'.returned
  · intro fifo k unit hfifo hunit
    have hfifo' : s.IsFifo c.fifo := ⟨h.queue.chain, h.queue.first, h.queue.last⟩
    obtain rfl := hfifo.unique hfifo'
    have hturn : 2 * k + (1 - c.fifoTurn) + 1 ≤ 2 * (k + 1) := by omega
    exact ((Contents.fifoWaiting unit).within hsteps' ⟨k, hunit, Nat.le_refl _⟩
      hturn).transfer h.returned h'.returned

end

/-- The first of two units has the priority 1, so it comes out with the next two pops. -/
theorem efirst_pool_never_starves_two :
    ∃ s s' : State Bool, s.returned = [] ∧ s'.returned = [some true, some false] ∧
      Within State.returned (some true) 2 s s' := by
  let before : List (Label Bool) := [.push true, .push false]
  let after : List (Label Bool) := [.testPrio, .popLocked, .timedwait]
  let address : Bool ↪ {a : BitVec 64 // a ≠ 0} :=
    ⟨fun unit => if unit then ⟨1, by decide⟩ else ⟨2, by decide⟩, by decide⟩
  have hcalls : (exec step Any (initial fun _ => true) before).map (fun s =>
      (s.returned, s.testing, (exec step Any s after).map State.returned)) =
      some ([], 0, some [some true, some false]) := by decide +kernel
  have hheap : (exec step Any (initial fun _ => true) before).map (fun s =>
      (s.mem.priority true, s.pool.queue.prioSize, s.pool.queue.entries.read 1)) =
      some (1, 2, some true) := by decide +kernel
  obtain ⟨s, hexec, hs⟩ := Option.map_eq_some_iff.mp hcalls
  rw [hexec, Option.map_some] at hheap
  simp only [Prod.mk.injEq, Option.some.injEq] at hs hheap
  obtain ⟨hreturned, htesting, hmap⟩ := hs
  obtain ⟨hpriority, hsize, hread⟩ := hheap
  obtain ⟨s', hafter, hs'⟩ := run_of_exec_map hmap
  have hin : s.InHeap true := ⟨1, Nat.le_refl 1, by rw [hsize]; decide, hread⟩
  have h := (efirst_pool_never_starves address (run_of_exec hexec) hafter).1 true hin
  rw [hpriority] at h
  have hresults := h.results
  rw [htesting] at hresults
  exact ⟨s, s', hreturned, hs', hresults⟩

end Margo.Pool.Efirst
