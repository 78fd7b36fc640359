import Margo.Pool.PrioQueues

/-!
# Removing a unit from a `prio_wait` pool

`pool_remove` was written for lists that end in null pointers, and the lists of
this pool are circular: the unit before and the unit after the removed one are
always there, so neither head nor tail is ever moved, and the flag of the unit
is not touched at all.

## Implementation notes

What is in the pool is what was pushed and neither returned nor removed since;
it is kept beside the state, because a removal can leave lists that stand for no
queues.
-/

namespace Margo.Pool.Prio

open Function Lib.Links Lib.Runs

variable {α : Type*} [DecidableEq α]

/-! ## The system with removals -/

/-- A state of the pool and the units in it. -/
structure Pooled (α : Type*) where
  state : State α
  units : List α

inductive RemovalLabel (α : Type*)
  | call (l : Label α)
  | remove (unit : α)
  deriving DecidableEq, Repr

/-- The result of `pool_remove`. -/
def State.remove (s : State α) (unit : α) : State α :=
  { s with
    mem := (poolRemove s.mem s.pool unit).2.1
    pool := (poolRemove s.mem s.pool unit).2.2 }

/-- A unit is only pushed if it is not in the pool, and only removed if it is. -/
def Pooled.Allowed (s : Pooled α) : RemovalLabel α → Prop
  | .call (.push unit) => unit ∉ s.units
  | .call l => Prio.Allowed s.state l
  | .remove unit => unit ∈ s.units

instance (s : Pooled α) (l : RemovalLabel α) : Decidable (s.Allowed l) :=
  match l with
  | .call (.push unit) => inferInstanceAs (Decidable (unit ∉ s.units))
  | .call .popTest => inferInstanceAs (Decidable (Prio.Allowed s.state .popTest))
  | .call .popLocked => inferInstanceAs (Decidable (Prio.Allowed s.state .popLocked))
  | .call .timedwait => inferInstanceAs (Decidable (Prio.Allowed s.state .timedwait))
  | .call .wake => inferInstanceAs (Decidable (Prio.Allowed s.state .wake))
  | .remove unit => inferInstanceAs (Decidable (unit ∈ s.units))

/-- The units that were pushed or returned by a step. -/
def Pooled.after (s : Pooled α) (l : Label α) (t : State α) : Pooled α :=
  let units := match l with
    | .push unit => s.units ++ [unit]
    | _ => s.units
  ⟨t, units.filter fun unit => some unit ∉ t.returned.drop s.state.returned.length⟩

def Pooled.step (s : Pooled α) (l : RemovalLabel α) : Option (Pooled α) :=
  if s.Allowed l then
    match l with
    | .call l => (act s.state l).map (s.after l)
    | .remove unit => some ⟨s.state.remove unit, s.units.erase unit⟩
  else none

def Pooled.initial : Pooled α := ⟨Prio.initial, []⟩

/-- `pool_remove` takes one unit out of the pool, and only that: it succeeds, the
lists stand for the queues without the unit, the unit is not marked any more
and the others are counted. -/
structure TakesOut (s : Pooled α) (unit : α) : Prop where
  success : (poolRemove s.state.mem s.state.pool unit).1 = abtSuccess
  queues : ∀ high low, IsQueue s.state.mem s.state.pool.highPrioQueue high →
    IsQueue s.state.mem s.state.pool.lowPrioQueue low →
    IsQueue (s.state.remove unit).mem (s.state.remove unit).pool.highPrioQueue
        (high.erase unit) ∧
      IsQueue (s.state.remove unit).mem (s.state.remove unit).pool.lowPrioQueue (low.erase unit)
  flag : (s.state.remove unit).mem.isInPool unit = false
  num : (s.state.remove unit).pool.num = (s.units.erase unit).length

/-! ## The flags -/

section

variable {m : Mem α} {pool : PoolT α} {unit : α}

theorem removeBefore_isInPool : (removeBefore m pool unit).1.isInPool = m.isInPool := by
  unfold removeBefore
  cases m.prev unit with
  | some before => rfl
  | none =>
      dsimp only
      split
      · rfl
      · split <;> rfl

theorem removeAfter_isInPool : (removeAfter m pool unit).1.isInPool = m.isInPool := by
  unfold removeAfter
  cases m.next unit with
  | some after => rfl
  | none =>
      dsimp only
      split
      · rfl
      · split <;> rfl

/-- No flag is touched by a removal. -/
theorem poolRemove_isInPool : (poolRemove m pool unit).2.1.isInPool = m.isInPool :=
  removeAfter_isInPool.trans removeBefore_isInPool

/-- What a push does to the flags. -/
theorem queuePush_isInPool {q : Queue α} {m' : Mem α} {q' : Queue α}
    (h : queuePush m q unit = some (m', q')) : m'.isInPool = update m.isInPool unit true := by
  unfold queuePush at h
  cases hhead : q.head with
  | none =>
      rw [hhead] at h
      obtain ⟨rfl, -⟩ := Prod.mk.inj (Option.some.inj h)
      rfl
  | some head =>
      rw [hhead] at h
      obtain ⟨tail, -, heq⟩ := Option.map_eq_some_iff.mp h
      obtain ⟨rfl, -⟩ := Prod.mk.inj heq
      rfl

theorem poolPush_isInPool {m' : Mem α} {pool' : PoolT α}
    (h : poolPush m pool unit = some (m', pool')) :
    m'.isInPool = update m.isInPool unit true := by
  unfold poolPush at h
  dsimp only at h
  split at h
  all_goals
    obtain ⟨⟨m₁, q⟩, hpush, heq⟩ := Option.map_eq_some_iff.mp h
    obtain ⟨rfl, -⟩ := Prod.mk.inj heq
    rw [queuePush_isInPool hpush, isInPool_countPush]

/-- A pop clears the flag of the unit that it returns and no other one. -/
def ClearsReturned (m m' : Mem α) (result : Option α) : Prop :=
  ∀ u, some u ≠ result → m'.isInPool u = m.isInPool u

theorem queuePop_clears {q : Queue α} {m' : Mem α} {q' : Queue α} {result : Option α}
    (h : queuePop m q = some (m', q', result)) : ClearsReturned m m' result := by
  unfold queuePop at h
  cases hhead : q.head with
  | none =>
      rw [hhead] at h
      obtain ⟨rfl, -⟩ := Prod.mk.inj (Option.some.inj h)
      exact fun _ _ => rfl
  | some unit =>
      rw [hhead] at h
      dsimp only at h
      split at h
      · obtain ⟨rfl, -, rfl⟩ : _ ∧ _ ∧ _ := by simpa using h
        exact fun u hu => update_of_ne (fun heq => hu (congrArg some heq)) ..
      · simp only [Option.bind_eq_bind, Option.bind_eq_some_iff] at h
        obtain ⟨before, -, after, -, heq⟩ := h
        obtain ⟨rfl, -, rfl⟩ : _ ∧ _ ∧ _ := by simpa using heq
        exact fun u hu => update_of_ne (fun heq => hu (congrArg some heq)) ..

/-- What pops from a queue of the pool clears the flag of what it returns. -/
def Clears (f : Mem α → PoolT α → Option (Mem α × PoolT α × Option α)) : Prop :=
  ∀ {m pool m' pool' result}, f m pool = some (m', pool', result) → ClearsReturned m m' result

theorem clears_popHigh : Clears (popHigh (α := α)) := by
  intro m pool m' pool' result h
  obtain ⟨⟨m₁, q, unit⟩, hpop, heq⟩ := Option.map_eq_some_iff.mp h
  obtain ⟨rfl, -, rfl⟩ : m₁ = m' ∧ _ ∧ unit = result := by simpa using heq
  exact queuePop_clears hpop

theorem clears_popLow : Clears (popLow (α := α)) := by
  intro m pool m' pool' result h
  obtain ⟨⟨m₁, q, unit⟩, hpop, heq⟩ := Option.map_eq_some_iff.mp h
  obtain ⟨rfl, -, rfl⟩ : m₁ = m' ∧ _ ∧ unit = result := by simpa using heq
  exact queuePop_clears hpop

omit [DecidableEq α] in
theorem Clears.popEither {f g : Mem α → PoolT α → Option (Mem α × PoolT α × Option α)}
    (hf : Clears f) (hg : Clears g) : Clears (popEither f g) := by
  intro m pool m' pool' result h
  unfold Prio.popEither at h
  split at h
  · next m₁ pool₁ hfirst =>
      -- the first queue was empty, so no flag was touched before the second pop
      intro u hu
      rw [hg h u hu, hf hfirst u (Option.some_ne_none u)]
  · exact hf h

theorem clears_popUnit : Clears (popUnit (α := α)) := by
  intro m pool m' pool' result h
  unfold popUnit at h
  dsimp only at h
  obtain ⟨⟨m₁, pool₁, unit⟩, hpop, heq⟩ := Option.map_eq_some_iff.mp h
  obtain ⟨rfl, -, rfl⟩ : m₁ = m' ∧ _ ∧ unit = result := by simpa using heq
  split at hpop
  · exact clears_popHigh.popEither clears_popLow hpop
  · exact clears_popLow.popEither clears_popHigh hpop

end

/-- The flags of the units that a step neither pushes nor returns are kept. -/
theorem act_isInPool {s t : State α} {l : Label α} {u : α} (hact : act s l = some t)
    (hu : some u ∉ t.returned.drop s.returned.length) :
    t.mem.isInPool u = (match l with
      | .push unit => update s.mem.isInPool unit true
      | _ => s.mem.isInPool) u := by
  have hpop {b : State α} (hmem : b.mem = s.mem) (hreturned : b.returned = s.returned)
      (h : b.pop = some t) : t.mem.isInPool u = s.mem.isInPool u := by
    obtain ⟨⟨m', pool', result⟩, hunit, rfl⟩ := Option.map_eq_some_iff.mp h
    simp only [hreturned, List.drop_left, List.mem_singleton] at hu
    rw [clears_popUnit hunit u hu, hmem]
  cases l with
  | push unit =>
      obtain ⟨⟨m', pool'⟩, hpush, rfl⟩ := Option.map_eq_some_iff.mp hact
      exact congrFun (poolPush_isInPool hpush) u
  | popTest =>
      simp only [act] at hact
      split at hact <;> exact Option.some.inj hact ▸ rfl
  | popLocked => exact hpop (b := { s with tested := s.tested - 1 }) rfl rfl hact
  | timedwait =>
      simp only [act] at hact
      split at hact
      · exact Option.some.inj hact ▸ rfl
      · exact hpop rfl rfl hact
  | wake => exact hpop (b := { s with waiting := s.waiting - 1 }) rfl rfl hact

/-- The units in the pool are marked. -/
def Pooled.Marked (s : Pooled α) : Prop := ∀ u ∈ s.units, s.state.mem.isInPool u = true

/-- Every step keeps the marks of the units in the pool. -/
theorem Pooled.Marked.step {s s' : Pooled α} {l : RemovalLabel α} (h : s.Marked)
    (hstep : s.step l = some s') : s'.Marked := by
  obtain ⟨-, hdone⟩ := Option.ite_none_right_eq_some.mp hstep
  cases l with
  | remove unit =>
      obtain rfl := Option.some.inj hdone
      intro u hu
      change (poolRemove s.state.mem s.state.pool unit).2.1.isInPool u = true
      rw [poolRemove_isInPool]
      exact h u (List.mem_of_mem_erase hu)
  | call l =>
      obtain ⟨t, hact, rfl⟩ := Option.map_eq_some_iff.mp hdone
      intro u hu
      obtain ⟨hmem, hu⟩ := List.mem_filter.mp hu
      rw [decide_eq_true_eq] at hu
      change t.mem.isInPool u = true
      rw [act_isInPool hact hu]
      cases l with
      | push unit =>
          by_cases heq : u = unit
          · rw [heq]
            exact update_self ..
          · have hold : u ∈ s.units := by simpa [heq] using hmem
            exact (update_of_ne heq ..).trans (h u hold)
      | popTest => exact h u hmem
      | popLocked => exact h u hmem
      | timedwait => exact h u hmem
      | wake => exact h u hmem

/-! ## The lists -/

section

variable {m : Mem α} {pool : PoolT α} {a : Queues α} {unit : α}

/-- With a unit before and a unit after, both halves of `pool_remove` only store
links. -/
theorem poolRemove_eq {before after : α} (hprev : m.prev unit = some before)
    (hnext : m.next unit = some after) :
    (poolRemove m pool unit).2 = ({ m with
      next := update m.next before (some after)
      prev := update m.prev after (some before) }, { pool with num := pool.num - 1 }) := by
  have hkept : update m.next before (some after) unit = some after := by
    by_cases heq : unit = before
    · rw [heq, update_self]
    · rw [update_of_ne heq, hnext]
  simp only [poolRemove, removeBefore, removeAfter, hprev, hnext, hkept]

/-- Neither the first nor the last unit of a queue. -/
def Inside (unit : α) (us : List α) : Prop :=
  ∃ xs ys, us = xs ++ unit :: ys ∧ xs ≠ [] ∧ ys ≠ []

/-- In its own queue the removal is right exactly if the head and the tail can
stay. -/
theorem isQueue_remove_iff {q : Queue α} {us : List α} {before after : α} (h : IsQueue m q us)
    (hunit : unit ∈ us) (hprev : m.prev unit = some before) (hnext : m.next unit = some after) :
    IsQueue { m with
      next := update m.next before (some after)
      prev := update m.prev after (some before) } q (us.erase unit) ↔ Inside unit us := by
  have hnodup := h.ring.1
  have hnot : unit ∉ us.erase unit := hnodup.not_mem_erase
  constructor
  · intro h'
    obtain ⟨xs, ys, rfl⟩ := List.append_of_mem hunit
    refine ⟨xs, ys, rfl, ?_, ?_⟩
    · rintro rfl
      have hhead := h'.head
      rw [h.head] at hhead
      exact hnot (List.mem_of_head? hhead.symm)
    · rintro rfl
      have htail := h'.tail
      rw [h.tail, List.getLast?_concat] at htail
      exact hnot (List.mem_of_getLast? htail.symm)
  · rintro ⟨xs, ys, rfl, hxs, hys⟩
    obtain ⟨-, hp, hn, -⟩ := seg_append.mp h.ring.2
    have ht : xs.getLast? = some (xs.getLast hxs) := List.getLast?_eq_some_getLast hxs
    have hv : ys.head? = some (ys.head hys) := List.head?_eq_some_head hys
    rw [ht, hprev] at hp
    rw [hv, hnext] at hn
    obtain rfl := Option.some.inj hp
    obtain rfl := Option.some.inj hn
    have hnotX : unit ∉ xs := fun hmem =>
      (List.nodup_append.mp hnodup).2.2 unit hmem unit List.mem_cons_self rfl
    rw [List.erase_append_right _ hnotX, List.erase_cons_head]
    refine ⟨h.ring.delete_middle ht hv, ?_, ?_⟩
    · rw [h.head, List.head?_append_of_ne_nil _ hxs, List.head?_append_of_ne_nil _ hxs]
    · rw [h.tail, List.getLast?_append_of_ne_nil _ (List.cons_ne_nil unit ys),
        List.getLast?_cons_of_ne_nil hys, List.getLast?_append_of_ne_nil _ hys]

/-- The other queue is not touched. -/
theorem isQueue_remove_other {q q' : Queue α} {us vs : List α} {before after : α}
    (h : IsQueue m q us) (h' : IsQueue m q' vs) (hdisj : ∀ b ∈ us, b ∉ vs) (hunit : unit ∈ vs)
    (hprev : m.prev unit = some before) (hnext : m.next unit = some after) :
    IsQueue { m with
      next := update m.next before (some after)
      prev := update m.prev after (some before) } q us := by
  obtain ⟨hbefore, hafter⟩ := h'.ring.links_mem hunit hprev hnext
  refine h.frame ?_ hdisj
  intro b hb
  exact ⟨update_of_ne (ne_of_mem_of_not_mem hbefore hb).symm ..,
    update_of_ne (ne_of_mem_of_not_mem hafter hb).symm ..⟩

/-- Of a pool that stands for two queues, the lists are right after a removal
exactly if the unit was strictly inside its queue. -/
theorem poolRemove_queues_iff (h : PoolIs m pool a) (hunit : unit ∈ a.units) :
    (IsQueue (poolRemove m pool unit).2.1 (poolRemove m pool unit).2.2.highPrioQueue
        (a.high.erase unit) ∧
      IsQueue (poolRemove m pool unit).2.1 (poolRemove m pool unit).2.2.lowPrioQueue
        (a.low.erase unit)) ↔ Inside unit a.high ∨ Inside unit a.low := by
  have hinside {us : List α} (hnot : unit ∉ us) : ¬ Inside unit us := by
    rintro ⟨xs, ys, rfl, -, -⟩
    exact hnot (List.mem_append_right xs List.mem_cons_self)
  have hring {q : Queue α} {us : List α} (hq : IsQueue m q us) (hmem : unit ∈ us) :
      ∃ before after, m.prev unit = some before ∧ m.next unit = some after := by
    obtain ⟨hprev, hnext⟩ := hq.ring.links_ne_none hmem
    obtain ⟨before, hbefore⟩ := Option.ne_none_iff_exists'.mp hprev
    obtain ⟨after, hafter⟩ := Option.ne_none_iff_exists'.mp hnext
    exact ⟨before, after, hbefore, hafter⟩
  obtain hhigh | hlow := List.mem_append.mp hunit
  · have hnot : unit ∉ a.low := h.disjoint unit hhigh
    obtain ⟨before, after, hprev, hnext⟩ := hring h.high hhigh
    have hdisj : ∀ b ∈ a.low, b ∉ a.high := fun b hb hb' => h.disjoint b hb' hb
    rw [poolRemove_eq hprev hnext, List.erase_of_not_mem hnot,
      isQueue_remove_iff h.high hhigh hprev hnext, or_iff_left (hinside hnot)]
    exact and_iff_left (isQueue_remove_other h.low h.high hdisj hhigh hprev hnext)
  · have hnot : unit ∉ a.high := fun hmem => h.disjoint unit hmem hlow
    obtain ⟨before, after, hprev, hnext⟩ := hring h.low hlow
    rw [poolRemove_eq hprev hnext, List.erase_of_not_mem hnot,
      isQueue_remove_iff h.low hlow hprev hnext, or_iff_right (hinside hnot)]
    exact and_iff_right (isQueue_remove_other h.high h.low h.disjoint hlow hprev hnext)

end

/-! ## Removals -/

/-- Whatever unit is removed from whatever state, it stays marked as one of the
pool. -/
theorem remove_never_takes_out {labels : List (RemovalLabel α)} {s : Pooled α} {unit : α}
    (hrun : Run Pooled.step Any Pooled.initial labels s) (hunit : unit ∈ s.units) :
    ¬ TakesOut s unit := by
  have hmarked : s.Marked :=
    hrun.invariant (fun h _ hstep => h.step hstep) fun _ hu => absurd hu List.not_mem_nil
  intro h
  have hflag := h.flag
  change (poolRemove s.state.mem s.state.pool unit).2.1.isInPool unit = false at hflag
  rw [poolRemove_isInPool, hmarked unit hunit] at hflag
  cases hflag

/-- The only unit of a fresh pool cannot be removed. -/
theorem remove_never_takes_out_one :
    ∃ s : Pooled Nat, s.units = [1] ∧ ¬ TakesOut s 1 := by
  have hunits : (exec Pooled.step Any (Pooled.initial : Pooled Nat) [.call (.push 1)]).map
      Pooled.units = some [1] := by decide
  obtain ⟨s, hrun, hs⟩ := run_of_exec_map hunits
  exact ⟨s, hs, remove_never_takes_out hrun (by rw [hs]; decide)⟩

/-- Of two units the first is removed, and the next pop returns it. -/
theorem removed_unit_is_popped :
    ∃ s t : Pooled Nat, Run Pooled.step Any Pooled.initial
        [.call (.push 1), .call (.push 2)] s ∧ 1 ∈ s.units ∧ ¬ TakesOut s 1 ∧
      Run Pooled.step Any s [.remove 1, .call .popTest, .call .popLocked] t ∧
      t.state.returned = [some 1] := by
  let after (s : Pooled Nat) := exec Pooled.step Any s
    [.remove 1, .call .popTest, .call .popLocked]
  have hboth : (exec Pooled.step Any (Pooled.initial : Pooled Nat)
        [.call (.push 1), .call (.push 2)]).map (fun s =>
      (s.units, (s.state.remove 1).mem.isInPool 1, (after s).map fun t => t.state.returned)) =
      some ([1, 2], true, some [some 1]) := by decide
  obtain ⟨s, hrun, hs⟩ := run_of_exec_map hboth
  simp only [Prod.mk.injEq] at hs
  obtain ⟨hunits, hflag, hreturned⟩ := hs
  obtain ⟨t, hafter, ht⟩ := run_of_exec_map hreturned
  refine ⟨s, t, hrun, by rw [hunits]; decide, ?_, hafter, ht⟩
  intro h
  rw [h.flag] at hflag
  cases hflag

end Margo.Pool.Prio
