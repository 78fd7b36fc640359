import Margo.Lib.Deadline
import Margo.Pool.PrioQueues

/-!
# No unit of a `prio_wait` pool waits for ever

How many pops can be made before a unit comes out, in terms of its place in its
queue and of the number of pops so far. Pushes do not matter: they only append.

## Implementation notes

The results of the pops are counted in the order of their mutex sections. A
pop that finds nothing also counts, but cannot be made while a unit waits.
-/

namespace Margo.Pool.Prio

open Lib.Deadline Lib.Links Lib.Runs

variable {α : Type*} [DecidableEq α]

section

variable {a a' : Queues α} {l : Label α}

/-! ## Steps of the queues -/

omit [DecidableEq α] in
/-- A pop takes from the queue whose turn it is, or from the other one if that one
is empty. -/
theorem Queues.pop_cases (a : Queues α) :
    (∃ unit high, a.high = unit :: high ∧ (a.pops % 256 ≠ 0 ∨ a.low = []) ∧
      a.pop = { a.counted with
        high
        highOut := a.highOut ++ [unit]
        returned := a.returned ++ [some unit] }) ∨
    (∃ unit low, a.low = unit :: low ∧ (a.pops % 256 = 0 ∨ a.high = []) ∧
      a.pop = { a.counted with
        low
        lowOut := a.lowOut ++ [unit]
        returned := a.returned ++ [some unit] }) ∨
    (a.units = [] ∧ a.pop = a.counted.takeNone) := by
  simp only [pop, units]
  cases hhigh : a.high with
  | nil =>
      rw [takeHigh_nil (a := a.counted) hhigh, Option.none_or, Option.or_none, ite_self]
      cases hlow : a.low with
      | nil =>
          rw [takeLow_nil (a := a.counted) hlow]
          exact .inr (.inr ⟨rfl, rfl⟩)
      | cons unit low =>
          rw [takeLow_cons (a := a.counted) hlow]
          exact .inr (.inl ⟨unit, low, rfl, .inr rfl, rfl⟩)
  | cons unit high =>
      rw [takeHigh_cons (a := a.counted) hhigh, Option.some_or]
      by_cases hturn : a.pops % 256 ≠ 0
      · rw [if_pos hturn]
        exact .inl ⟨unit, high, rfl, .inl hturn, rfl⟩
      · rw [if_neg hturn]
        cases hlow : a.low with
        | nil =>
            rw [takeLow_nil (a := a.counted) hlow, Option.none_or]
            exact .inl ⟨unit, high, rfl, .inr rfl, rfl⟩
        | cons unit' low =>
            rw [takeLow_cons (a := a.counted) hlow, Option.some_or]
            exact .inr (.inl ⟨unit', low, rfl, .inl (not_not.mp hturn), rfl⟩)

/-- A step appends to the queues, or returns that they are empty, or pops. -/
theorem Queues.step_cases (hstep : a.step l = some a') :
    (a'.returned = a.returned ∧ a'.pops = a.pops ∧ a.high <+: a'.high ∧ a.low <+: a'.low) ∨
    (a.units = [] ∧ a'.returned = a.returned ++ [none]) ∨
    ∃ tested waiting, a' = pop { a with tested, waiting } := by
  cases l with
  | push unit =>
      obtain ⟨-, rfl⟩ : unit ∉ a.units ∧ a.push unit = a' := by simpa [Queues.step] using hstep
      refine .inl ?_
      unfold push
      by_cases hsel : a.pushes unit = 0 ∨ 25 ≤ a.pushes unit
      · rw [if_pos hsel]
        exact ⟨rfl, rfl, List.prefix_refl _, List.prefix_append _ _⟩
      · rw [if_neg hsel]
        exact ⟨rfl, rfl, List.prefix_append _ _, List.prefix_refl _⟩
  | popTest =>
      simp only [Queues.step] at hstep
      split at hstep
      · next hunits => exact .inr (.inl ⟨hunits, Option.some.inj hstep ▸ rfl⟩)
      · obtain rfl := Option.some.inj hstep
        exact .inl ⟨rfl, rfl, List.prefix_refl _, List.prefix_refl _⟩
  | popLocked =>
      obtain ⟨-, rfl⟩ : a.tested ≠ 0 ∧ Queues.pop { a with tested := a.tested - 1 } = a' := by
        simpa [Queues.step] using hstep
      exact .inr (.inr ⟨a.tested - 1, a.waiting, rfl⟩)
  | timedwait =>
      simp only [Queues.step] at hstep
      split at hstep
      · obtain rfl := Option.some.inj hstep
        exact .inl ⟨rfl, rfl, List.prefix_refl _, List.prefix_refl _⟩
      · exact .inr (.inr ⟨a.tested, a.waiting, (Option.some.inj hstep).symm⟩)
  | wake =>
      obtain ⟨-, rfl⟩ : a.waiting ≠ 0 ∧ Queues.pop { a with waiting := a.waiting - 1 } = a' := by
        simpa [Queues.step] using hstep
      exact .inr (.inr ⟨a.tested, a.waiting - 1, rfl⟩)

/-- Results are only appended. -/
theorem Queues.step_grows (hstep : a.step l = some a') : a.returned <+: a'.returned := by
  obtain ⟨hkept, -⟩ | ⟨-, hnone⟩ | ⟨tested, waiting, rfl⟩ := step_cases hstep
  · exact hkept ▸ List.prefix_refl _
  · rw [hnone]
    exact List.prefix_append _ _
  · obtain ⟨result, hpop, -⟩ := pop_returned (a := { a with tested, waiting })
    rw [hpop]
    exact List.prefix_append _ _

/-! ## The two deadlines -/

/-- The unit is at a place of the low queue that comes out with one of the next `n`
pops: until the next turn of this queue, and 256 for each unit before it. -/
def Queues.LowWaits (unit : α) (n : Nat) (a : Queues α) : Prop :=
  ∃ k, a.low[k]? = some unit ∧ 256 * k + (256 - a.pops % 256) % 256 + 1 ≤ n

/-- The same for the high queue, which has to let one pop pass in each of its
turns at most. -/
def Queues.HighWaits (unit : α) (n : Nat) (a : Queues α) : Prop :=
  ∃ k, a.high[k]? = some unit ∧ 2 * k + (if a.pops % 256 = 0 then 1 else 0) + 1 ≤ n

omit [DecidableEq α] in
theorem getElem?_of_prefix {xs ys : List α} {k : Nat} {x : α} (h : xs <+: ys)
    (hx : xs[k]? = some x) : ys[k]? = some x := by
  obtain ⟨hk, rfl⟩ := List.getElem?_eq_some_iff.mp hx
  exact List.prefix_iff_getElem?.mp h k hk

omit [DecidableEq α] in
/-- One pop brings the unit one pop nearer. -/
theorem Queues.LowWaits.pop {unit : α} {n : Nat} (h : a.LowWaits unit (n + 1)) :
    ∃ result, a.pop.returned = a.returned ++ [result] ∧
      (result = some unit ∨ a.pop.LowWaits unit n) := by
  obtain ⟨k, hunit, hn⟩ := h
  obtain ⟨u, high, -, hturn, hpop⟩ | ⟨u, low, hlow, hturn, hpop⟩ | ⟨hunits, -⟩ := a.pop_cases
  · -- another 255 pops at most before the next turn of the low queue
    rw [hpop]
    refine ⟨some u, rfl, .inr ⟨k, hunit, ?_⟩⟩
    have hturn : a.pops % 256 ≠ 0 := by
      refine hturn.resolve_right fun hnil => ?_
      rw [hnil] at hunit
      cases hunit
    change 256 * k + (256 - (a.pops + 1) % 256) % 256 + 1 ≤ n
    omega
  · rw [hpop]
    refine ⟨some u, rfl, ?_⟩
    rw [hlow] at hunit
    cases k with
    | zero => exact .inl hunit
    | succ k =>
        refine .inr ⟨k, by simpa using hunit, ?_⟩
        change 256 * k + (256 - (a.pops + 1) % 256) % 256 + 1 ≤ n
        omega
  · rw [(List.append_eq_nil_iff.mp hunits).2] at hunit
    cases hunit

omit [DecidableEq α] in
theorem Queues.HighWaits.pop {unit : α} {n : Nat} (h : a.HighWaits unit (n + 1)) :
    ∃ result, a.pop.returned = a.returned ++ [result] ∧
      (result = some unit ∨ a.pop.HighWaits unit n) := by
  obtain ⟨k, hunit, hn⟩ := h
  obtain ⟨u, high, hhigh, hturn, hpop⟩ | ⟨u, low, -, hturn, hpop⟩ | ⟨hunits, -⟩ := a.pop_cases
  · rw [hpop]
    refine ⟨some u, rfl, ?_⟩
    rw [hhigh] at hunit
    cases k with
    | zero => exact .inl hunit
    | succ k =>
        refine .inr ⟨k, by simpa using hunit, ?_⟩
        change 2 * k + (if (a.pops + 1) % 256 = 0 then 1 else 0) + 1 ≤ n
        split at hn <;> split <;> omega
  · -- the turn of the low queue is over with one pop
    rw [hpop]
    refine ⟨some u, rfl, .inr ⟨k, hunit, ?_⟩⟩
    have hturn : a.pops % 256 = 0 := by
      refine hturn.resolve_right fun hnil => ?_
      rw [hnil] at hunit
      cases hunit
    change 2 * k + (if (a.pops + 1) % 256 = 0 then 1 else 0) + 1 ≤ n
    rw [if_pos hturn] at hn
    rw [if_neg (by omega)]
    omega
  · rw [(List.append_eq_nil_iff.mp hunits).1] at hunit
    cases hunit

/-- Appending to the queues does not matter to a unit that waits, so only the pops count. -/
theorem Queues.waiting_of {unit : α} {Waits : Nat → Queues α → Prop}
    (hpos : ∀ {n a}, Waits n a → 0 < n) (hunits : ∀ {n a}, Waits n a → a.units ≠ [])
    (hkept : ∀ {n a a'}, Waits n a → a'.pops = a.pops → a.high <+: a'.high → a.low <+: a'.low →
      Waits n a')
    (hpop : ∀ {n a}, Waits (n + 1) a → ∃ result, a.pop.returned = a.returned ++ [result] ∧
      (result = some unit ∨ Waits n a.pop)) :
    Waiting (fun (a : Queues α) l a' => a.step l = some a') Queues.returned (some unit) Waits where
  pos := hpos
  grows := step_grows
  step := by
    intro n a l a' h hstep
    obtain ⟨hreturned, hpops, hhigh, hlow⟩ | ⟨hempty, -⟩ | ⟨tested, waiting, rfl⟩ :=
      step_cases hstep
    · exact .inl ⟨hreturned, hkept h hpops hhigh hlow⟩
    · exact absurd hempty (hunits h)
    · exact .inr (hpop (hkept h rfl (List.prefix_refl _) (List.prefix_refl _)))

theorem Queues.lowWaiting (unit : α) :
    Waiting (fun (a : Queues α) l a' => a.step l = some a') Queues.returned (some unit)
      (LowWaits unit) := by
  apply waiting_of
  · rintro n a ⟨k, -, hn⟩
    omega
  · rintro n a ⟨k, hunit, -⟩
    exact List.ne_nil_of_mem (List.mem_append_right _ (List.mem_of_getElem? hunit))
  · rintro n a a' ⟨k, hunit, hn⟩ hpops - hlow
    exact ⟨k, getElem?_of_prefix hlow hunit, hpops ▸ hn⟩
  · exact LowWaits.pop

theorem Queues.highWaiting (unit : α) :
    Waiting (fun (a : Queues α) l a' => a.step l = some a') Queues.returned (some unit)
      (HighWaits unit) := by
  apply waiting_of
  · rintro n a ⟨k, -, hn⟩
    omega
  · rintro n a ⟨k, hunit, -⟩
    exact List.ne_nil_of_mem (List.mem_append_left _ (List.mem_of_getElem? hunit))
  · rintro n a a' ⟨k, hunit, hn⟩ hpops hhigh -
    exact ⟨k, getElem?_of_prefix hhigh hunit, hpops ▸ hn⟩
  · exact HighWaits.pop

end

/-! ## Bounded bypass -/

omit [DecidableEq α] in
/-- The memory says which units are in a queue, and in which order. -/
theorem IsQueue.unique {m : Mem α} {q : Queue α} {us vs : List α} (h : IsQueue m q us)
    (h' : IsQueue m q vs) : us = vs := by
  have hhead : us.head? = vs.head? := h.head.symm.trans h'.head
  have hlast : us.getLast? = vs.getLast? := h.tail.symm.trans h'.tail
  exact h.ring.2.eq_of_ends h'.ring.2 h.ring.1 h'.ring.1 hhead hlast

/-- A unit of the queues that waits is returned in time by the pool. -/
theorem Refines.within {s s' : State α} {a : Queues α} {labels : List (Label α)} {unit : α}
    {Waits : Nat → Queues α → Prop} {m n : Nat} (h : Refines s a)
    (hwaiting : Waiting (fun (a : Queues α) l a' => a.step l = some a') Queues.returned
      (some unit) Waits) (hrun : Run step Any s labels s') (hwaits : Waits m a) (hm : m ≤ n) :
    Within State.returned (some unit) n s s' := by
  obtain ⟨a', hsteps, h'⟩ := hrun.simulation Refines.step_spec h
  exact (hwaiting.within hsteps hwaits hm).transfer h.returned h'.returned

/-- The unit at place `k` of the low queue is returned by one of the next `256 * (k + 1)`
pops, the one at place `k` of the high queue by one of the next `2 * (k + 1)`. -/
theorem prio_pool_bounded_bypass {before after : List (Label α)} {s s' : State α}
    (hbefore : Run step Any initial before s) (hafter : Run step Any s after s') :
    (∀ (low : List α) (k : Nat) (unit : α), IsQueue s.mem s.pool.lowPrioQueue low →
      low[k]? = some unit → Within State.returned (some unit) (256 * (k + 1)) s s') ∧
    (∀ (high : List α) (k : Nat) (unit : α), IsQueue s.mem s.pool.highPrioQueue high →
      high[k]? = some unit → Within State.returned (some unit) (2 * (k + 1)) s s') := by
  obtain ⟨a, -, h, -⟩ := prio_pool_refines hbefore
  constructor
  · intro low k unit hlow hunit
    obtain rfl := hlow.unique h.pool.low
    exact h.within (Queues.lowWaiting unit) hafter ⟨k, hunit, Nat.le_refl _⟩ (by omega)
  · intro high k unit hhigh hunit
    obtain rfl := hhigh.unique h.pool.high
    refine h.within (Queues.highWaiting unit) hafter ⟨k, hunit, Nat.le_refl _⟩ ?_
    split <;> omega

/-- Unit 1 was pushed a second time, so two pops return it although unit 2 waited
before it. -/
theorem prio_pool_bounded_bypass_two :
    ∃ s s' : State Nat, s.returned = [some 1] ∧ s'.returned = [some 1, some 1, some 2] ∧
      Within State.returned (some 1) 2 s s' := by
  let before : List (Label Nat) := [.push 1, .timedwait, .push 2, .push 1]
  let after : List (Label Nat) := [.popTest, .push 3, .popLocked, .timedwait]
  have hboth : (exec step Any (initial : State Nat) before).map (fun s =>
      (s.returned, (exec step Any s after).map State.returned)) =
      some ([some 1], some [some 1, some 1, some 2]) := by decide
  obtain ⟨s, hbefore, hs⟩ := run_of_exec_map hboth
  obtain ⟨hreturned, hmap⟩ := Prod.mk.inj hs
  obtain ⟨s', hafter, hs'⟩ := run_of_exec_map hmap
  obtain ⟨a, hexec, h, -⟩ := prio_pool_refines hbefore
  have hhigh : (exec Queues.step Any (Queues.empty : Queues Nat) before).map Queues.high =
      some [1] := by decide
  rw [hexec] at hhigh
  have hunit : a.high[0]? = some 1 := by rw [Option.some.inj hhigh]; rfl
  exact ⟨s, s', hreturned, hs',
    (prio_pool_bounded_bypass hbefore hafter).2 a.high 0 1 h.pool.high hunit⟩

end Margo.Pool.Prio
