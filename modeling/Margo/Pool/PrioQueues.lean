import Margo.Pool.PrioWait

/-!
# The `prio_wait` pool is two queues

What the pool is for: two FIFO queues of units, the numbers of times that each
unit was pushed, and the number of pops so far, which says from which queue to
take first. Every run of the pool is a run of these queues.

## Implementation notes

The circular lists stand for the queues through `Ring`; what `queue_push` and
`queue_pop` do to one list is stated with what they leave alone, so that the
other list is kept by the frame.
-/

namespace Margo.Pool.Prio

open Function Lib.Links Lib.Runs

variable {α : Type*} [DecidableEq α]

/-! ## The queues -/

/-- Two queues of units, and the calls in progress. -/
structure Queues (α : Type*) where
  high : List α
  low : List α
  /-- How often each unit was pushed. -/
  pushes : α → Nat
  /-- How often a pop was made. -/
  pops : Nat
  tested : Nat
  waiting : Nat
  returned : List (Option α)
  /-- All that went into the queues, and all that came out of them. -/
  highIn : List α
  lowIn : List α
  highOut : List α
  lowOut : List α

def Queues.empty : Queues α := ⟨[], [], fun _ => 0, 0, 0, 0, [], [], [], [], []⟩

/-- The units of the pool. -/
def Queues.units (a : Queues α) : List α := a.high ++ a.low

/-- The first push of a unit and every one after the 25th go to the low queue. -/
def Queues.push (a : Queues α) (unit : α) : Queues α :=
  let a' := { a with pushes := update a.pushes unit (a.pushes unit + 1) }
  if a.pushes unit = 0 ∨ 25 ≤ a.pushes unit then
    { a' with low := a.low ++ [unit], lowIn := a.lowIn ++ [unit] }
  else { a' with high := a.high ++ [unit], highIn := a.highIn ++ [unit] }

/-- Return the head of the high queue. -/
def Queues.takeHigh (a : Queues α) : Option (Queues α) :=
  match a.high with
  | [] => none
  | unit :: high =>
      some { a with
        high
        highOut := a.highOut ++ [unit]
        returned := a.returned ++ [some unit] }

/-- Return the head of the low queue. -/
def Queues.takeLow (a : Queues α) : Option (Queues α) :=
  match a.low with
  | [] => none
  | unit :: low =>
      some { a with
        low
        lowOut := a.lowOut ++ [unit]
        returned := a.returned ++ [some unit] }

/-- Return no unit. -/
def Queues.takeNone (a : Queues α) : Queues α := { a with returned := a.returned ++ [none] }

/-- Count a pop. -/
def Queues.counted (a : Queues α) : Queues α := { a with pops := a.pops + 1 }

/-- Take the head of the queue whose turn it is, or of the other one if that one
is empty: one pop out of 256 takes from the low queue first. -/
def Queues.pop (a : Queues α) : Queues α :=
  let a' := a.counted
  if a.pops % 256 ≠ 0 then (a'.takeHigh.or a'.takeLow).getD a'.takeNone
  else (a'.takeLow.or a'.takeHigh).getD a'.takeNone

def Queues.step (a : Queues α) : Label α → Option (Queues α)
  | .push unit => if unit ∈ a.units then none else some (a.push unit)
  | .popTest => if a.units = [] then some a.takeNone else some { a with tested := a.tested + 1 }
  | .popLocked => if a.tested = 0 then none else some (pop { a with tested := a.tested - 1 })
  | .timedwait =>
      if a.units = [] then some { a with waiting := a.waiting + 1 } else some a.pop
  | .wake => if a.waiting = 0 then none else some (pop { a with waiting := a.waiting - 1 })

/-- No unit is lost, duplicated or reordered: what went into a queue is what came
out of it, and then what is still in it. -/
structure Queues.Conserved (a : Queues α) : Prop where
  high : a.highIn = a.highOut ++ a.high
  low : a.lowIn = a.lowOut ++ a.low
  pushes : ∀ unit, a.pushes unit = (a.highIn ++ a.lowIn).count unit
  returned : (a.returned.filterMap id).Perm (a.highOut ++ a.lowOut)

section

variable {a a' : Queues α}

omit [DecidableEq α] in
theorem Queues.takeHigh_nil (h : a.high = []) : a.takeHigh = none := by
  rw [takeHigh, h]

omit [DecidableEq α] in
theorem Queues.takeLow_nil (h : a.low = []) : a.takeLow = none := by
  rw [takeLow, h]

omit [DecidableEq α] in
theorem Queues.takeHigh_cons {unit : α} {high : List α} (h : a.high = unit :: high) :
    a.takeHigh = some { a with
      high
      highOut := a.highOut ++ [unit]
      returned := a.returned ++ [some unit] } := by
  rw [takeHigh, h]

omit [DecidableEq α] in
theorem Queues.takeLow_cons {unit : α} {low : List α} (h : a.low = unit :: low) :
    a.takeLow = some { a with
      low
      lowOut := a.lowOut ++ [unit]
      returned := a.returned ++ [some unit] } := by
  rw [takeLow, h]

omit [DecidableEq α] in
/-- Whose turn it is does not matter for a property that all ways to take keep. -/
theorem Queues.pop_induction {P : Queues α → Prop} (hhigh : ∀ {b}, P b → ∀ b' ∈ b.takeHigh, P b')
    (hlow : ∀ {b}, P b → ∀ b' ∈ b.takeLow, P b') (hnone : ∀ {b}, P b → P b.takeNone)
    (h : P a.counted) : P a.pop := by
  have hor {x y : Option (Queues α)} (hx : ∀ b ∈ x, P b) (hy : ∀ b ∈ y, P b) :
      P ((x.or y).getD a.counted.takeNone) := by
    cases x with
    | some b => exact hx b rfl
    | none =>
        cases y with
        | some b => exact hy b rfl
        | none => exact hnone h
  unfold pop
  by_cases hturn : a.pops % 256 ≠ 0
  · rw [if_pos hturn]
    exact hor (hhigh h) (hlow h)
  · rw [if_neg hturn]
    exact hor (hlow h) (hhigh h)

/-- One unit more into the low queue. -/
theorem Queues.Conserved.push (h : a.Conserved) (unit : α) : (a.push unit).Conserved := by
  have hcount {xs : List α} (hxs : xs.Perm (unit :: (a.highIn ++ a.lowIn))) (u : α) :
      update a.pushes unit (a.pushes unit + 1) u = xs.count u := by
    rw [hxs.count_eq, List.count_cons]
    by_cases heq : u = unit
    · subst heq
      simp [h.pushes]
    · rw [update_of_ne heq, h.pushes]
      simp [Ne.symm heq]
  unfold Queues.push
  by_cases hsel : a.pushes unit = 0 ∨ 25 ≤ a.pushes unit
  · rw [if_pos hsel]
    refine ⟨h.high, ?_, hcount ?_, h.returned⟩
    · rw [h.low, List.append_assoc]
    · rw [← List.append_assoc]
      exact List.perm_append_singleton unit _
  · rw [if_neg hsel]
    refine ⟨?_, h.low, hcount ?_, h.returned⟩
    · rw [h.high, List.append_assoc]
    · exact (List.perm_append_singleton unit a.highIn).append_right a.lowIn

theorem Queues.Conserved.takeHigh (h : a.Conserved) : ∀ b ∈ a.takeHigh, b.Conserved := by
  intro b hb
  cases hhigh : a.high with
  | nil =>
      rw [takeHigh_nil hhigh] at hb
      cases hb
  | cons unit high =>
      rw [takeHigh_cons hhigh] at hb
      obtain rfl := Option.some.inj hb
      refine ⟨?_, h.low, h.pushes, ?_⟩
      · rw [h.high, hhigh, List.append_assoc]
        rfl
      · rw [List.filterMap_append]
        refine (h.returned.append_right [unit]).trans ?_
        rw [List.append_assoc, List.append_assoc]
        exact List.perm_append_comm.append_left a.highOut

theorem Queues.Conserved.takeLow (h : a.Conserved) : ∀ b ∈ a.takeLow, b.Conserved := by
  intro b hb
  cases hlow : a.low with
  | nil =>
      rw [takeLow_nil hlow] at hb
      cases hb
  | cons unit low =>
      rw [takeLow_cons hlow] at hb
      obtain rfl := Option.some.inj hb
      refine ⟨h.high, ?_, h.pushes, ?_⟩
      · rw [h.low, hlow, List.append_assoc]
        rfl
      · rw [List.filterMap_append]
        refine (h.returned.append_right [unit]).trans ?_
        rw [List.append_assoc]

theorem Queues.Conserved.takeNone (h : a.Conserved) : a.takeNone.Conserved := by
  refine ⟨h.high, h.low, h.pushes, ?_⟩
  rw [Queues.takeNone, List.filterMap_append]
  simpa using h.returned

theorem Queues.Conserved.pop (h : a.Conserved) : a.pop.Conserved :=
  pop_induction Conserved.takeHigh Conserved.takeLow Conserved.takeNone
    ⟨h.high, h.low, h.pushes, h.returned⟩

theorem Queues.Conserved.step {l : Label α} (h : a.Conserved) (hstep : a.step l = some a') :
    a'.Conserved := by
  have hcalls (tested waiting : Nat) : { a with tested, waiting }.Conserved :=
    ⟨h.high, h.low, h.pushes, h.returned⟩
  cases l with
  | push unit =>
      obtain ⟨-, rfl⟩ : unit ∉ a.units ∧ a.push unit = a' := by simpa [Queues.step] using hstep
      exact h.push unit
  | popTest =>
      simp only [Queues.step] at hstep
      split at hstep
      · exact Option.some.inj hstep ▸ h.takeNone
      · exact Option.some.inj hstep ▸ hcalls _ _
  | popLocked =>
      obtain ⟨-, rfl⟩ : a.tested ≠ 0 ∧ Queues.pop { a with tested := a.tested - 1 } = a' := by
        simpa [Queues.step] using hstep
      exact (hcalls _ _).pop
  | timedwait =>
      simp only [Queues.step] at hstep
      split at hstep
      · exact Option.some.inj hstep ▸ hcalls _ _
      · exact Option.some.inj hstep ▸ h.pop
  | wake =>
      obtain ⟨-, rfl⟩ : a.waiting ≠ 0 ∧ Queues.pop { a with waiting := a.waiting - 1 } = a' := by
        simpa [Queues.step] using hstep
      exact (hcalls _ _).pop

theorem Queues.conserved_empty : (Queues.empty : Queues α).Conserved :=
  ⟨rfl, rfl, fun _ => rfl, .refl _⟩

omit [DecidableEq α] in
/-- A pop returns one more result, and no unit only if there is none. -/
theorem Queues.pop_returned :
    ∃ result, a.pop.returned = a.returned ++ [result] ∧ (result = none ↔ a.units = []) := by
  simp only [pop, units]
  cases hhigh : a.high with
  | nil =>
      rw [takeHigh_nil (a := a.counted) hhigh, Option.none_or, Option.or_none, ite_self]
      cases hlow : a.low with
      | nil =>
          rw [takeLow_nil (a := a.counted) hlow]
          exact ⟨none, rfl, by simp⟩
      | cons unit low =>
          rw [takeLow_cons (a := a.counted) hlow]
          exact ⟨some unit, rfl, by simp⟩
  | cons unit high =>
      rw [takeHigh_cons (a := a.counted) hhigh, Option.some_or]
      cases hlow : a.low with
      | nil =>
          rw [takeLow_nil (a := a.counted) hlow, Option.none_or, ite_self]
          exact ⟨some unit, rfl, by simp⟩
      | cons unit' low =>
          rw [takeLow_cons (a := a.counted) hlow, Option.some_or]
          by_cases hturn : a.pops % 256 ≠ 0
          · rw [if_pos hturn]
            exact ⟨some unit, rfl, by simp⟩
          · rw [if_neg hturn]
            exact ⟨some unit', rfl, by simp⟩

omit [DecidableEq α] in
/-- A pop does not change which calls are in progress. -/
theorem Queues.pop_calls : a.pop.tested = a.tested ∧ a.pop.waiting = a.waiting := by
  apply pop_induction (P := fun b => b.tested = a.tested ∧ b.waiting = a.waiting)
  · intro b hb b' hb'
    cases hhigh : b.high with
    | nil => rw [takeHigh_nil hhigh] at hb'; cases hb'
    | cons => rw [takeHigh_cons hhigh] at hb'; exact Option.some.inj hb' ▸ hb
  · intro b hb b' hb'
    cases hlow : b.low with
    | nil => rw [takeLow_nil hlow] at hb'; cases hb'
    | cons => rw [takeLow_cons hlow] at hb'; exact Option.some.inj hb' ▸ hb
  · exact fun hb => hb
  · exact ⟨rfl, rfl⟩

end

/-! ## One list -/

/-- The circular list behind a queue. -/
structure IsQueue (m : Mem α) (q : Queue α) (us : List α) : Prop where
  ring : Ring m.next m.prev us
  head : q.head = us.head?
  tail : q.tail = us.getLast?

/-- Nodes that are not among these keep their links. -/
def LinksKept (us : List α) (m m' : Mem α) : Prop :=
  ∀ a ∉ us, m'.next a = m.next a ∧ m'.prev a = m.prev a

omit [DecidableEq α] in
theorem IsQueue.frame {m m' : Mem α} {q : Queue α} {us vs : List α} (h : IsQueue m q us)
    (hkept : LinksKept vs m m') (hdisj : ∀ a ∈ us, a ∉ vs) : IsQueue m' q us where
  ring := h.ring.congr (fun a ha => (hkept a (hdisj a ha)).1) fun a ha => (hkept a (hdisj a ha)).2
  head := h.head
  tail := h.tail

/-- `queue_push` appends the unit. -/
theorem queuePush_spec {m : Mem α} {q : Queue α} {us : List α} {unit : α} (h : IsQueue m q us)
    (hnew : unit ∉ us) :
    ∃ m' q', queuePush m q unit = some (m', q') ∧ IsQueue m' q' (us ++ [unit]) ∧
      LinksKept (us ++ [unit]) m m' ∧ m'.schedCounter = m.schedCounter ∧
      m'.isInPool = update m.isInPool unit true := by
  obtain ⟨hring, hhead, htail⟩ := h
  cases us with
  | nil =>
      simp only [queuePush, hhead, List.head?_nil]
      refine ⟨_, _, rfl, ⟨ring_singleton unit, rfl, rfl⟩, ?_, rfl, rfl⟩
      intro a ha
      have hne : a ≠ unit := by simpa using ha
      exact ⟨update_of_ne hne .., update_of_ne hne ..⟩
  | cons u us =>
      obtain ⟨t, ht⟩ : ∃ t, (u :: us).getLast? = some t := ⟨_, List.getLast?_cons⟩
      simp only [queuePush, hhead, htail, ht, List.head?_cons, Option.map_some]
      refine ⟨_, _, rfl, ⟨hring.push rfl ht hnew, ?_, ?_⟩, ?_, rfl, rfl⟩
      · simp
      · exact List.getLast?_concat.symm
      · intro a ha
        have hu : a ≠ u := fun heq => ha (by simp [heq])
        have hunit : a ≠ unit := fun heq => ha (by simp [heq])
        have hlast : a ≠ t := fun heq =>
          ha (List.mem_append_left _ (heq ▸ List.mem_of_getLast? ht))
        exact ⟨by simp [hunit, hlast], by simp [hunit, hu]⟩

theorem queuePop_nil {m : Mem α} {q : Queue α} (h : IsQueue m q []) :
    queuePop m q = some (m, q, none) := by
  simp [queuePop, h.head]

/-- `queue_pop` takes the first unit. -/
theorem queuePop_cons {m : Mem α} {q : Queue α} {unit : α} {us : List α}
    (h : IsQueue m q (unit :: us)) :
    ∃ m' q', queuePop m q = some (m', q', some unit) ∧ IsQueue m' q' us ∧
      LinksKept (unit :: us) m m' ∧ m'.schedCounter = m.schedCounter ∧
      m'.isInPool = update m.isInPool unit false := by
  obtain ⟨hring, hhead, htail⟩ := h
  have hnot : unit ∉ us := (List.nodup_cons.mp hring.1).1
  cases us with
  | nil =>
      have hone : q.head = q.tail := by rw [hhead, htail]; rfl
      simp only [queuePop, hone, htail, List.getLast?_singleton, if_true]
      refine ⟨_, _, rfl, ⟨ring_nil, rfl, rfl⟩, ?_, rfl, rfl⟩
      intro a ha
      have hne : a ≠ unit := by simpa using ha
      exact ⟨update_of_ne hne .., update_of_ne hne ..⟩
  | cons v us =>
      obtain ⟨t, ht⟩ : ∃ t, (v :: us).getLast? = some t := ⟨_, List.getLast?_cons⟩
      have hlast : (unit :: v :: us).getLast? = some t := by
        rw [List.getLast?_cons_cons, ht]
      have hne : unit ≠ t := fun heq => hnot (heq ▸ List.mem_of_getLast? ht)
      have hseveral : q.head ≠ q.tail := by
        rw [hhead, htail, hlast, List.head?_cons, ne_eq, Option.some.injEq]
        exact hne
      have hprev : m.prev unit = some t := (hring.2.first rfl).trans hlast
      have hnext : m.next unit = some v := by
        have := (seg_cons.mp hring.2).2.1
        simpa using this
      have hpop := (hring.pop (u := unit) rfl ht).update_next hnot none
      simp only [queuePop, hhead, List.head?_cons] at hseveral ⊢
      rw [if_neg hseveral]
      simp only [hprev, Option.bind_eq_bind, Option.bind_some, update_of_ne hne, hnext]
      refine ⟨_, _, rfl, ⟨hpop.update_prev hnot none, ?_, ?_⟩, ?_, rfl, rfl⟩
      · simp
      · rw [htail, hlast, ht]
      · intro a ha
        have hunit : a ≠ unit := fun heq => ha (by simp [heq])
        have hv : a ≠ v := fun heq => ha (by simp [heq])
        have ht' : a ≠ t := fun heq =>
          ha (List.mem_cons_of_mem _ (heq ▸ List.mem_of_getLast? ht))
        exact ⟨by simp [unlinked, hunit, ht'], by simp [unlinked, hunit, hv]⟩

/-! ## The pool -/

/-- The pool and its units stand for the queues. -/
structure PoolIs (m : Mem α) (pool : PoolT α) (a : Queues α) : Prop where
  high : IsQueue m pool.highPrioQueue a.high
  low : IsQueue m pool.lowPrioQueue a.low
  nodup : a.units.Nodup
  num : pool.num = a.units.length
  flag : ∀ unit, m.isInPool unit = true ↔ unit ∈ a.units
  counter : ∀ unit, m.schedCounter unit = min (a.pushes unit) 25
  cnt : pool.cnt = BitVec.ofNat 32 a.pops

section

variable {m : Mem α} {pool : PoolT α} {a : Queues α} {unit : α}

omit [DecidableEq α] in
theorem PoolIs.disjoint (h : PoolIs m pool a) : ∀ b ∈ a.high, b ∉ a.low :=
  fun b hb hb' => (List.nodup_append.mp h.nodup).2.2 b hb b hb' rfl

omit [DecidableEq α] in
theorem PoolIs.num_eq_zero (h : PoolIs m pool a) : pool.num = 0 ↔ a.units = [] := by
  rw [h.num, Int.natCast_eq_zero, List.length_eq_zero_iff]

/-- A unit more, wherever it is in its queue. -/
theorem PoolIs.added {m' : Mem α} {pool' : PoolT α} {a' : Queues α} (h : PoolIs m pool a)
    (hnew : unit ∉ a.units) (hunits : a'.units.Perm (unit :: a.units))
    (hhigh : IsQueue m' pool'.highPrioQueue a'.high) (hlow : IsQueue m' pool'.lowPrioQueue a'.low)
    (hnum : pool'.num = pool.num + 1) (hflag : m'.isInPool = update m.isInPool unit true)
    (hcounter : ∀ u, m'.schedCounter u = min (a'.pushes u) 25)
    (hcnt : pool'.cnt = BitVec.ofNat 32 a'.pops) : PoolIs m' pool' a' where
  high := hhigh
  low := hlow
  nodup := hunits.nodup_iff.mpr (List.nodup_cons.mpr ⟨hnew, h.nodup⟩)
  num := by
    rw [hnum, h.num, hunits.length_eq, List.length_cons, Int.natCast_add_one]
  flag u := by
    rw [hflag, hunits.mem_iff, List.mem_cons, ← h.flag u]
    by_cases heq : u = unit
    · simp [heq]
    · simp [heq]
  counter := hcounter
  cnt := hcnt

/-- A unit less. -/
theorem PoolIs.removed {m' : Mem α} {pool' : PoolT α} {a' : Queues α} (h : PoolIs m pool a)
    (hunits : a.units.Perm (unit :: a'.units)) (hhigh : IsQueue m' pool'.highPrioQueue a'.high)
    (hlow : IsQueue m' pool'.lowPrioQueue a'.low) (hnum : pool'.num = pool.num - 1)
    (hflag : m'.isInPool = update m.isInPool unit false)
    (hcounter : m'.schedCounter = m.schedCounter) (hpushes : a'.pushes = a.pushes)
    (hcnt : pool'.cnt = BitVec.ofNat 32 a'.pops) : PoolIs m' pool' a' where
  high := hhigh
  low := hlow
  nodup := (List.nodup_cons.mp (hunits.nodup_iff.mp h.nodup)).2
  num := by
    rw [hnum, h.num, hunits.length_eq, List.length_cons, Int.natCast_add_one, Int.add_sub_cancel]
  flag u := by
    have hnot := (List.nodup_cons.mp (hunits.nodup_iff.mp h.nodup)).1
    have hmem := hunits.mem_iff (a := u)
    rw [List.mem_cons] at hmem
    by_cases heq : u = unit
    · simp [hflag, heq, hnot]
    · rw [hflag, update_of_ne heq, h.flag u, hmem]
      simp [heq]
  counter u := by rw [hcounter, hpushes, h.counter u]
  cnt := hcnt

theorem linksKept_countPush : LinksKept [] m (countPush m unit) := by
  intro b _
  unfold countPush
  split <;> exact ⟨rfl, rfl⟩

theorem isInPool_countPush : (countPush m unit).isInPool = m.isInPool := by
  unfold countPush
  split <;> rfl

/-- The counter stops at the limit. -/
theorem schedCounter_countPush (h : PoolIs m pool a) (u : α) :
    (countPush m unit).schedCounter u =
      min (update a.pushes unit (a.pushes unit + 1) u) 25 := by
  have hunit := h.counter unit
  unfold countPush schedCounterPriorityLimit
  by_cases heq : u = unit
  · subst heq
    split
    · simp only [update_self]
      omega
    · simp only [update_self]
      omega
  · rw [update_of_ne heq, ← h.counter u]
    split
    · exact update_of_ne heq ..
    · rfl

/-- `pool_push` appends the unit to the queue that its pushes so far select. -/
theorem poolPush_spec (h : PoolIs m pool a) (hnew : unit ∉ a.units) :
    ∃ m' pool', poolPush m pool unit = some (m', pool') ∧ PoolIs m' pool' (a.push unit) := by
  have hhigh : unit ∉ a.high := fun hmem => hnew (List.mem_append_left _ hmem)
  have hlow : unit ∉ a.low := fun hmem => hnew (List.mem_append_right _ hmem)
  have hhigh₁ : IsQueue (countPush m unit) pool.highPrioQueue a.high :=
    h.high.frame linksKept_countPush fun _ _ => List.not_mem_nil
  have hlow₁ : IsQueue (countPush m unit) pool.lowPrioQueue a.low :=
    h.low.frame linksKept_countPush fun _ _ => List.not_mem_nil
  have hfirst : (m.schedCounter unit = 0 ∨ schedCounterPriorityLimit ≤ m.schedCounter unit) ↔
      (a.pushes unit = 0 ∨ 25 ≤ a.pushes unit) := by
    rw [h.counter, schedCounterPriorityLimit]
    omega
  unfold poolPush Queues.push
  simp only [hfirst]
  by_cases hsel : a.pushes unit = 0 ∨ 25 ≤ a.pushes unit
  · obtain ⟨m', q', hpush, hq, hkept, hcount, hflag⟩ := queuePush_spec hlow₁ hlow
    rw [if_pos hsel, if_pos hsel, hpush]
    refine ⟨_, _, rfl, h.added hnew ?_ ?_ hq rfl (by rw [hflag, isInPool_countPush]) ?_ h.cnt⟩
    · rw [Queues.units, ← List.append_assoc]
      exact List.perm_append_singleton unit _
    · apply hhigh₁.frame hkept
      intro b hb hmem
      obtain hmem | hmem := List.mem_append.mp hmem
      · exact h.disjoint b hb hmem
      · exact hhigh (List.mem_singleton.mp hmem ▸ hb)
    · intro u
      rw [hcount, schedCounter_countPush h]
  · obtain ⟨m', q', hpush, hq, hkept, hcount, hflag⟩ := queuePush_spec hhigh₁ hhigh
    rw [if_neg hsel, if_neg hsel, hpush]
    refine ⟨_, _, rfl, h.added hnew ?_ hq ?_ rfl (by rw [hflag, isInPool_countPush]) ?_ h.cnt⟩
    · exact (List.perm_append_singleton unit a.high).append_right a.low
    · apply hlow₁.frame hkept
      intro b hb hmem
      obtain hmem | hmem := List.mem_append.mp hmem
      · exact h.disjoint b hmem hb
      · exact hlow (List.mem_singleton.mp hmem ▸ hb)
    · intro u
      rw [hcount, schedCounter_countPush h]

/-! ## Pops -/

omit [DecidableEq α] in
/-- The pool depends on the queues and the counters only. -/
theorem PoolIs.congr {b : Queues α} (h : PoolIs m pool a) (hhigh : b.high = a.high)
    (hlow : b.low = a.low) (hpushes : b.pushes = a.pushes) (hpops : b.pops = a.pops) :
    PoolIs m pool b := by
  have hunits : b.units = a.units := by rw [Queues.units, hhigh, hlow, Queues.units]
  constructor
  · exact hhigh ▸ h.high
  · exact hlow ▸ h.low
  · exact hunits ▸ h.nodup
  · exact hunits ▸ h.num
  · exact hunits ▸ h.flag
  · exact hpushes ▸ h.counter
  · exact hpops ▸ h.cnt

/-- Popping from one queue of the pool takes from one of the queues. -/
def Takes (f : Mem α → PoolT α → Option (Mem α × PoolT α × Option α))
    (take : Queues α → Option (Queues α)) (m : Mem α) (pool : PoolT α) (a : Queues α) : Prop :=
  match take a with
  | none => f m pool = some (m, pool, none)
  | some a' =>
      ∃ m' pool' unit, f m pool = some (m', pool', some unit) ∧
        PoolIs m' { pool' with num := pool'.num - 1 } a' ∧
        a'.returned = a.returned ++ [some unit]

theorem takes_high (h : PoolIs m pool a) : Takes popHigh Queues.takeHigh m pool a := by
  have hq := h.high
  unfold Takes
  cases hhigh : a.high with
  | nil =>
      rw [hhigh] at hq
      rw [Queues.takeHigh_nil hhigh]
      simp [popHigh, queuePop_nil hq]
  | cons unit high =>
      rw [hhigh] at hq
      rw [Queues.takeHigh_cons hhigh]
      obtain ⟨m', q', hpop, hq', hkept, hcount, hflag⟩ := queuePop_cons hq
      refine ⟨m', { pool with highPrioQueue := q' }, unit, by simp [popHigh, hpop], ?_, rfl⟩
      refine h.removed ?_ hq' (h.low.frame hkept ?_) rfl hflag hcount rfl h.cnt
      · rw [Queues.units, hhigh]
        rfl
      · intro b hb hmem
        exact h.disjoint b (hhigh ▸ hmem) hb

theorem takes_low (h : PoolIs m pool a) : Takes popLow Queues.takeLow m pool a := by
  have hq := h.low
  unfold Takes
  cases hlow : a.low with
  | nil =>
      rw [hlow] at hq
      rw [Queues.takeLow_nil hlow]
      simp [popLow, queuePop_nil hq]
  | cons unit low =>
      rw [hlow] at hq
      rw [Queues.takeLow_cons hlow]
      obtain ⟨m', q', hpop, hq', hkept, hcount, hflag⟩ := queuePop_cons hq
      refine ⟨m', { pool with lowPrioQueue := q' }, unit, by simp [popLow, hpop], ?_, rfl⟩
      refine h.removed ?_ (h.high.frame hkept ?_) hq' rfl hflag hcount rfl h.cnt
      · rw [Queues.units, hlow]
        exact List.perm_middle
      · intro b hb hmem
        exact h.disjoint b hb (hlow ▸ hmem)

omit [DecidableEq α] in
/-- The queue whose turn it is, then the other one. -/
theorem popEither_spec {f g : Mem α → PoolT α → Option (Mem α × PoolT α × Option α)}
    {takeF takeG : Queues α → Option (Queues α)} (h : PoolIs m pool a)
    (hf : Takes f takeF m pool a) (hg : Takes g takeG m pool a) :
    ∃ m' pool' result, popEither f g m pool = some (m', pool', result) ∧
      PoolIs m' (if result.isSome then { pool' with num := pool'.num - 1 } else pool')
        (((takeF a).or (takeG a)).getD a.takeNone) ∧
      (((takeF a).or (takeG a)).getD a.takeNone).returned = a.returned ++ [result] := by
  unfold Takes at hf hg
  unfold popEither
  cases htakeF : takeF a with
  | some a' =>
      rw [htakeF] at hf
      obtain ⟨m', pool', unit, hpop, hpool, hreturned⟩ := hf
      rw [hpop]
      exact ⟨m', pool', some unit, rfl, hpool, hreturned⟩
  | none =>
      rw [htakeF] at hf
      rw [hf]
      cases htakeG : takeG a with
      | some a' =>
          rw [htakeG] at hg
          obtain ⟨m', pool', unit, hpop, hpool, hreturned⟩ := hg
          exact ⟨m', pool', some unit, hpop, hpool, hreturned⟩
      | none =>
          rw [htakeG] at hg
          exact ⟨m, pool, none, hg, h.congr rfl rfl rfl rfl, rfl⟩

omit [DecidableEq α] in
/-- One pop more. -/
theorem PoolIs.counted (h : PoolIs m pool a) :
    PoolIs m { pool with cnt := pool.cnt + 1 } a.counted where
  high := h.high
  low := h.low
  nodup := h.nodup
  num := h.num
  flag := h.flag
  counter := h.counter
  cnt := by
    rw [h.cnt, Queues.counted, BitVec.ofNat_add]
    rfl

/-- The lowest byte of the counter is that of the number of pops. -/
theorem and_ff_eq_zero_iff (n : Nat) : BitVec.ofNat 32 n &&& 0xFF = 0 ↔ n % 256 = 0 := by
  have hmask : n % 2 ^ 32 &&& 255 = n % 2 ^ 32 % 256 := Nat.and_two_pow_sub_one_eq_mod _ 8
  rw [← BitVec.toNat_inj, BitVec.toNat_and, BitVec.toNat_ofNat]
  change n % 2 ^ 32 &&& 255 = 0 ↔ n % 256 = 0
  rw [hmask, Nat.mod_mod_of_dvd n (by decide)]

/-- `pool_pop` and `pool_pop_timedwait` take the unit that the queues say. -/
theorem popUnit_spec (h : PoolIs m pool a) :
    ∃ m' pool' result, popUnit m pool = some (m', pool', result) ∧ PoolIs m' pool' a.pop ∧
      a.pop.returned = a.returned ++ [result] := by
  have h' := h.counted
  have hturn : (pool.cnt &&& 0xFF ≠ 0) ↔ a.pops % 256 ≠ 0 := by
    rw [h.cnt, ne_eq, and_ff_eq_zero_iff]
  unfold popUnit Queues.pop
  simp only [hturn]
  by_cases hsel : a.pops % 256 ≠ 0
  · rw [if_pos hsel, if_pos hsel]
    obtain ⟨m', pool', result, hpop, hpool⟩ := popEither_spec h' (takes_high h') (takes_low h')
    rw [hpop]
    exact ⟨_, _, result, rfl, hpool⟩
  · rw [if_neg hsel, if_neg hsel]
    obtain ⟨m', pool', result, hpop, hpool⟩ := popEither_spec h' (takes_low h') (takes_high h')
    rw [hpop]
    exact ⟨_, _, result, rfl, hpool⟩

/-- From every non-empty state both ways to pop are the same. -/
theorem poolPop_eq_poolPopTimedwait (wait : Mem α × PoolT α → Mem α × PoolT α)
    (hnum : pool.num ≠ 0) : poolPop m pool = poolPopTimedwait wait m pool := by
  rw [poolPop, poolPopTimedwait, if_neg hnum, if_neg hnum]

end

/-! ## Refinement -/

/-- The pool stands for the queues, and the same calls are in progress and have
returned the same. -/
structure Refines (s : State α) (a : Queues α) : Prop where
  pool : PoolIs s.mem s.pool a
  tested : s.tested = a.tested
  waiting : s.waiting = a.waiting
  returned : s.returned = a.returned

section

variable {s : State α} {a : Queues α} {l : Label α}

/-- A mutex section that pops. -/
theorem Refines.pop (h : Refines s a) : ∃ s', s.pop = some s' ∧ Refines s' a.pop := by
  obtain ⟨m', pool', result, hpop, hpool, hreturned⟩ := popUnit_spec h.pool
  obtain ⟨htested, hwaiting⟩ := Queues.pop_calls (a := a)
  refine ⟨{ s with mem := m', pool := pool', returned := s.returned ++ [result] }, ?_, hpool, ?_,
    ?_, ?_⟩
  · rw [State.pop, hpop]
    rfl
  · exact h.tested.trans htested.symm
  · exact h.waiting.trans hwaiting.symm
  · rw [hreturned, ← h.returned]

omit [DecidableEq α] in
/-- A call begins or goes on. -/
theorem Refines.calls {tested tested' waiting waiting' : Nat} (h : Refines s a)
    (htested : tested = tested') (hwaiting : waiting = waiting') :
    Refines { s with tested, waiting }
      { a with tested := tested', waiting := waiting' } :=
  ⟨h.pool.congr rfl rfl rfl rfl, htested, hwaiting, h.returned⟩

omit [DecidableEq α] in
theorem Refines.takeNone (h : Refines s a) :
    Refines { s with returned := s.returned ++ [none] } a.takeNone :=
  ⟨h.pool.congr rfl rfl rfl rfl, h.tested, h.waiting, by rw [h.returned]; rfl⟩

theorem Refines.push {unit : α} (h : Refines s a) (hnew : unit ∉ a.units) :
    ∃ s', act s (.push unit) = some s' ∧ Refines s' (a.push unit) := by
  obtain ⟨m', pool', hpush, hpool⟩ := poolPush_spec h.pool hnew
  have hcalls : (a.push unit).tested = a.tested ∧ (a.push unit).waiting = a.waiting ∧
      (a.push unit).returned = a.returned := by
    unfold Queues.push
    split <;> exact ⟨rfl, rfl, rfl⟩
  refine ⟨{ s with mem := m', pool := pool' }, ?_, hpool, ?_, ?_, ?_⟩
  · rw [act, hpush]
    rfl
  · exact h.tested.trans hcalls.1.symm
  · exact h.waiting.trans hcalls.2.1.symm
  · exact h.returned.trans hcalls.2.2.symm

/-- The pool can do every allowed step, and the queues do the same. -/
theorem Refines.act_spec (h : Refines s a) (hallowed : Allowed s l) :
    ∃ s' a', act s l = some s' ∧ a.step l = some a' ∧ Refines s' a' := by
  have hempty := h.pool.num_eq_zero
  cases l with
  | push unit =>
      have hnew : unit ∉ a.units := by
        rw [← h.pool.flag unit, show s.mem.isInPool unit = false from hallowed]
        exact Bool.false_ne_true
      obtain ⟨s', hact, h'⟩ := h.push hnew
      exact ⟨s', a.push unit, hact, if_neg hnew, h'⟩
  | popTest =>
      by_cases hnum : s.pool.num = 0
      · exact ⟨_, _, if_pos hnum, if_pos (hempty.mp hnum), h.takeNone⟩
      · refine ⟨_, _, if_neg hnum, if_neg (mt hempty.mpr hnum), h.calls ?_ h.waiting⟩
        rw [h.tested]
  | popLocked =>
      have htested : a.tested ≠ 0 := Nat.ne_of_gt (h.tested ▸ hallowed)
      obtain ⟨s', hpop, h'⟩ := (h.calls (congrArg (· - 1) h.tested) h.waiting).pop
      exact ⟨s', _, hpop, if_neg htested, h'⟩
  | timedwait =>
      by_cases hnum : s.pool.num = 0
      · refine ⟨_, _, if_pos hnum, if_pos (hempty.mp hnum), h.calls h.tested ?_⟩
        rw [h.waiting]
      · obtain ⟨s', hpop, h'⟩ := h.pop
        exact ⟨s', a.pop, (if_neg hnum).trans hpop, if_neg (mt hempty.mpr hnum), h'⟩
  | wake =>
      have hwaiting : a.waiting ≠ 0 := Nat.ne_of_gt (h.waiting ▸ hallowed)
      obtain ⟨s', hpop, h'⟩ := (h.calls h.tested (congrArg (· - 1) h.waiting)).pop
      exact ⟨s', _, hpop, if_neg hwaiting, h'⟩

omit [DecidableEq α] in
theorem refines_initial : Refines (initial : State α) Queues.empty where
  pool :=
    { high := ⟨ring_nil, rfl, rfl⟩
      low := ⟨ring_nil, rfl, rfl⟩
      nodup := List.nodup_nil
      num := rfl
      flag := fun _ => by simp [initial, createdUnits, Queues.units, Queues.empty]
      counter := fun _ => rfl
      cnt := rfl }
  tested := rfl
  waiting := rfl
  returned := rfl

/-- A step of the pool is one of the queues. -/
theorem Refines.step_spec {s' : State α} (h : Refines s a) (hstep : step s l = some s') :
    ∃ a', a.step l = some a' ∧ Refines s' a' := by
  obtain ⟨hallowed, hdone⟩ := Option.ite_none_right_eq_some.mp hstep
  obtain ⟨t, a', hact, hstep', h'⟩ := h.act_spec hallowed
  rw [hact] at hdone
  exact ⟨a', hstep', Option.some.inj hdone ▸ h'⟩

/-- A run of the pool is a run of the queues. -/
theorem Refines.run {labels : List (Label α)} {s' : State α} (h : Refines s a)
    (hconserved : a.Conserved) (hrun : Run step Any s labels s') :
    ∃ a', exec Queues.step Any a labels = some a' ∧ Refines s' a' ∧ a'.Conserved := by
  induction hrun generalizing a with
  | nil => exact ⟨a, rfl, h, hconserved⟩
  | @cons s l t labels s' hstep _ _ ih =>
      obtain ⟨b, hstep', h'⟩ := h.step_spec hstep
      obtain ⟨a', hexec, hresult⟩ := ih h' (hconserved.step hstep')
      refine ⟨a', ?_, hresult⟩
      rw [exec, hstep']
      exact (if_pos trivial).trans hexec

/-- The `prio_wait` pool refines two FIFO queues. -/
theorem prio_pool_refines {labels : List (Label α)} (hrun : Run step Any initial labels s) :
    ∃ a, exec Queues.step Any Queues.empty labels = some a ∧ Refines s a ∧ a.Conserved ∧
      (∃ result, a.pop.returned = a.returned ++ [result] ∧ (result = none ↔ a.units = [])) ∧
      (∀ l, Allowed s l → ∃ s', step s l = some s') ∧
      ∀ wait, a.units ≠ [] →
        poolPop s.mem s.pool = poolPopTimedwait wait s.mem s.pool := by
  obtain ⟨a, hexec, h, hconserved⟩ := refines_initial.run Queues.conserved_empty hrun
  refine ⟨a, hexec, h, hconserved, Queues.pop_returned, ?_, ?_⟩
  · intro l hallowed
    obtain ⟨s', -, hact, -, -⟩ := h.act_spec hallowed
    exact ⟨s', (if_pos hallowed).trans hact⟩
  · intro wait hunits
    exact poolPop_eq_poolPopTimedwait wait (mt h.pool.num_eq_zero.mp hunits)

end

/-- Unit 1 is pushed twice and unit 2 once: the second push of unit 1 overtakes
unit 2, and a pop that was woken up for nothing returns no unit. -/
theorem prio_pool_refines_two :
    ∃ (s : State Nat) (a : Queues Nat), Refines s a ∧
      s.returned = [some 1, some 1, some 2, none] := by
  let labels : List (Label Nat) := [.push 1, .push 2, .popTest, .popLocked, .push 1, .timedwait,
    .timedwait, .timedwait, .wake]
  have hsome : (exec step Any (initial : State Nat) labels).isSome := by decide
  obtain ⟨s, hs⟩ := Option.isSome_iff_exists.mp hsome
  obtain ⟨a, hexec, h, -⟩ := prio_pool_refines (run_of_exec hs)
  have hreturned : (exec Queues.step Any (Queues.empty : Queues Nat) labels).map Queues.returned =
      some [some 1, some 1, some 2, none] := by decide
  rw [hexec] at hreturned
  exact ⟨s, a, h, h.returned.trans (Option.some.inj hreturned)⟩

end Margo.Pool.Prio
