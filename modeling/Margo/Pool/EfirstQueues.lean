import Margo.Lib.Links
import Margo.Pool.Efirst

/-!
# The `earliest_first` pool is a priority queue and a FIFO queue

What the pool is for: the units that were pushed at most 32 times come out by
priority, the others in the order in which they were pushed, and pops alternate
between the two as long as both have units. Every run of the pool is a run of
these queues; which of several units of the same priority comes out first is
left open.
-/

namespace Margo.Pool.Efirst

open Function Lib.BinaryHeap Lib.Links Lib.Runs

variable {α : Type*} [DecidableEq α]

/-! ## The queues -/

/-- The units by priority, the units in order of their pushes, what decides
where a unit goes, and the calls in progress. -/
structure Contents (α : Type*) where
  prio : List α
  fifo : List α
  priority : α → BitVec 64
  csCount : α → Nat
  num : BitVec 64
  pops : BitVec 64
  testing : Nat
  tested : Nat
  waiting : Nat
  returned : List (Option α)

def Contents.empty : Contents α := ⟨[], [], fun _ => 0, fun _ => 0, 0, 0, 0, 0, 0, []⟩

/-- The units of the pool. -/
def Contents.units (c : Contents α) : List α := c.prio ++ c.fifo

/-- A unit gets a priority with its first push. -/
def Contents.prioritize (c : Contents α) (unit : α) : Contents α :=
  if c.priority unit = 0 then
    { c with priority := update c.priority unit (c.num + 1), num := c.num + 1 }
  else c

/-- The first 32 pushes of a unit put it among the units by priority. -/
def Contents.push (c : Contents α) (unit : α) : Contents α :=
  let c := c.prioritize unit
  if c.csCount unit < 32 then
    { c with prio := unit :: c.prio, csCount := update c.csCount unit (c.csCount unit + 1) }
  else { c with fifo := c.fifo ++ [unit] }

/-- A unit of smallest priority, the unit that was pushed first, or no unit. -/
inductive Contents.Pop (c : Contents α) : Contents α → Prop
  | prio {unit : α} {rest : List α} (hunit : c.prio.Perm (unit :: rest))
      (hmin : ∀ u ∈ c.prio, (c.priority unit).toNat ≤ (c.priority u).toNat)
      (hturn : (c.pops + 1) % 2 ≠ 0 ∨ c.fifo = []) :
      Pop c { c with prio := rest, pops := c.pops + 1, returned := c.returned ++ [some unit] }
  | fifo {unit : α} {rest : List α} (hunit : c.fifo = unit :: rest)
      (hturn : (c.pops + 1) % 2 = 0 ∨ c.prio = []) :
      Pop c { c with fifo := rest, pops := c.pops + 1, returned := c.returned ++ [some unit] }
  | empty (hunits : c.units = []) :
      Pop c { c with pops := c.pops + 1, returned := c.returned ++ [none] }

inductive Contents.Step (c : Contents α) : Label α → Contents α → Prop
  | push {unit : α} (hnew : unit ∉ c.units) : Step c (.push unit) (c.push unit)
  | testPrioEmpty (hprio : c.prio = []) : Step c .testPrio { c with testing := c.testing + 1 }
  | testPrio (hprio : c.prio ≠ []) : Step c .testPrio { c with tested := c.tested + 1 }
  | testFifoEmpty (htesting : 0 < c.testing) (hfifo : c.fifo = []) :
      Step c .testFifo { c with testing := c.testing - 1, returned := c.returned ++ [none] }
  | testFifo (htesting : 0 < c.testing) (hfifo : c.fifo ≠ []) :
      Step c .testFifo { c with testing := c.testing - 1, tested := c.tested + 1 }
  | popLocked {c' : Contents α} (htested : 0 < c.tested)
      (hpop : Pop { c with tested := c.tested - 1 } c') : Step c .popLocked c'
  | timedwaitEmpty (hunits : c.units = []) :
      Step c .timedwait { c with waiting := c.waiting + 1 }
  | timedwait {c' : Contents α} (hunits : c.units ≠ []) (hpop : Pop c c') : Step c .timedwait c'
  | wake {c' : Contents α} (hwaiting : 0 < c.waiting)
      (hpop : Pop { c with waiting := c.waiting - 1 } c') : Step c .wake c'

/-- A priority touches nothing else. -/
theorem Contents.prioritize_eq (c : Contents α) (unit : α) :
    ∃ priority num, c.prioritize unit = { c with priority, num } := by
  unfold prioritize
  split
  · exact ⟨_, _, rfl⟩
  · exact ⟨_, _, rfl⟩

/-- The unit that a step pushes. -/
def pushed : Label α → Option α
  | .push unit => some unit
  | _ => none

/-- Of the pushed units, what was not returned is in the pool. -/
def Contents.Conserved (labels : List (Label α)) (c : Contents α) : Prop :=
  (labels.filterMap pushed).Perm (c.returned.filterMap id ++ c.units)

section

variable {labels : List (Label α)} {l : Label α} {c c' : Contents α}

theorem Contents.units_push (c : Contents α) (unit : α) :
    (c.push unit).units.Perm (unit :: c.units) ∧ (c.push unit).returned = c.returned := by
  obtain ⟨priority, num, heq⟩ := c.prioritize_eq unit
  simp only [push, heq, units]
  by_cases hcount : c.csCount unit < 32
  · rw [if_pos hcount]
    exact ⟨.refl _, rfl⟩
  · rw [if_neg hcount]
    refine ⟨?_, rfl⟩
    rw [← List.append_assoc]
    exact List.perm_append_singleton unit _

omit [DecidableEq α] in
/-- A unit comes out of the pool when it is returned. -/
theorem Contents.Pop.conserved (h : c.Pop c') :
    (c'.returned.filterMap id ++ c'.units).Perm (c.returned.filterMap id ++ c.units) := by
  have hout {unit : α} {rest : List α} (hperm : c.units.Perm (unit :: rest)) :
      ((c.returned ++ [some unit]).filterMap id ++ rest).Perm
        (c.returned.filterMap id ++ c.units) := by
    rw [List.filterMap_append, List.append_assoc]
    exact (hperm.append_left _).symm
  cases h with
  | prio hunit _ _ => exact hout (hunit.append_right c.fifo)
  | @fifo unit rest hunit _ =>
      apply hout
      rw [units, hunit]
      exact List.perm_middle
  | empty hunits =>
      rw [List.filterMap_append]
      simp only [units, List.filterMap_cons_none, id, List.filterMap_nil, List.append_nil]
      exact .refl _

/-- Every step keeps the account of the units. -/
theorem Contents.Conserved.step (h : Conserved labels c) (hstep : c.Step l c') :
    Conserved (labels ++ [l]) c' := by
  have hother (hl : pushed l = none)
      (hperm : (c'.returned.filterMap id ++ c'.units).Perm
        (c.returned.filterMap id ++ c.units)) : Conserved (labels ++ [l]) c' := by
    rw [Conserved, List.filterMap_append, List.filterMap_cons_none hl, List.filterMap_nil,
      List.append_nil]
    exact h.trans hperm.symm
  cases hstep with
  | @push unit _ =>
      obtain ⟨hunits, hreturned⟩ := c.units_push unit
      rw [Conserved, List.filterMap_append, hreturned]
      calc
        (labels.filterMap pushed ++ [unit]).Perm (unit :: labels.filterMap pushed) :=
          List.perm_append_singleton unit _
        List.Perm _ (unit :: (c.returned.filterMap id ++ c.units)) := h.cons unit
        List.Perm _ (c.returned.filterMap id ++ unit :: c.units) := List.perm_middle.symm
        List.Perm _ (c.returned.filterMap id ++ (c.push unit).units) := hunits.symm.append_left _
  | testPrioEmpty _ => exact hother rfl (.refl _)
  | testPrio _ => exact hother rfl (.refl _)
  | testFifoEmpty _ _ =>
      apply hother rfl
      rw [List.filterMap_append]
      simp only [List.filterMap_cons_none, id, List.filterMap_nil, List.append_nil]
      exact .refl _
  | testFifo _ _ => exact hother rfl (.refl _)
  | popLocked _ hpop => exact hother rfl hpop.conserved
  | timedwaitEmpty _ => exact hother rfl (.refl _)
  | timedwait _ hpop => exact hother rfl hpop.conserved
  | wake _ hpop => exact hother rfl hpop.conserved

end

/-! ## The representation -/

/-- The heap and the linked list stand for the two queues. -/
structure QueueIs (m : Mem α) (queue : Queue α) (c : Contents α) : Prop where
  capacity : 0 < queue.entries.capacity
  heap : HeapOf m.key queue.entries queue.prioSize c.prio
  chain : Chain m.next c.fifo
  first : queue.first = c.fifo.head?
  last : queue.last = c.fifo.getLast?
  fifoSize : queue.fifoSize = c.fifo.length
  nodup : c.units.Nodup
  flag : ∀ unit, m.flag unit &&& isInPool ≠ 0 ↔ unit ∈ c.units
  priority : m.priority = c.priority
  csCount : m.csCount = c.csCount
  pops : queue.pops = c.pops

section

variable {m : Mem α} {queue : Queue α} {c : Contents α} {unit : α}

theorem or_isInPool (flag : BitVec 8) : (flag ||| isInPool) &&& isInPool ≠ 0 := by
  decide +revert

theorem xor_isInPool (flag : BitVec 8) :
    (flag ^^^ isInPool) &&& isInPool ≠ 0 ↔ flag &&& isInPool = 0 := by
  decide +revert

/-- The flags of the pool with one unit more. -/
theorem setInPool_iff {us : List α} (h : ∀ u, m.flag u &&& isInPool ≠ 0 ↔ u ∈ us) (u : α) :
    (m.setInPool unit).flag u &&& isInPool ≠ 0 ↔ u ∈ unit :: us := by
  rw [List.mem_cons, ← h u]
  simp only [Mem.setInPool]
  by_cases heq : u = unit
  · subst heq
    rw [update_self]
    exact iff_of_true (or_isInPool _) (.inl rfl)
  · simp [heq]

/-- The flags of the pool with one unit less. -/
theorem flipInPool_iff {us : List α} (h : ∀ u, m.flag u &&& isInPool ≠ 0 ↔ u ∈ unit :: us)
    (hnodup : (unit :: us).Nodup) (u : α) :
    (m.flipInPool unit).flag u &&& isInPool ≠ 0 ↔ u ∈ us := by
  have hu := h u
  rw [List.mem_cons] at hu
  simp only [Mem.flipInPool]
  by_cases heq : u = unit
  · subst heq
    rw [update_self, xor_isInPool]
    have hnot : u ∉ us := (List.nodup_cons.mp hnodup).1
    tauto
  · rw [update_of_ne heq]
    tauto

omit [DecidableEq α] in
/-- Only the queues and the fields of the units matter. -/
theorem QueueIs.congr {c' : Contents α} (h : QueueIs m queue c) (hprio : c'.prio = c.prio)
    (hfifo : c'.fifo = c.fifo) (hpriority : c'.priority = c.priority)
    (hcsCount : c'.csCount = c.csCount) (hpops : c'.pops = c.pops) : QueueIs m queue c' := by
  have hunits : c'.units = c.units := by rw [Contents.units, hprio, hfifo, Contents.units]
  constructor
  · exact h.capacity
  · exact hprio ▸ h.heap
  · exact hfifo ▸ h.chain
  · exact hfifo ▸ h.first
  · exact hfifo ▸ h.last
  · exact hfifo ▸ h.fifoSize
  · exact hunits ▸ h.nodup
  · exact hunits ▸ h.flag
  · exact hpriority ▸ h.priority
  · exact hcsCount ▸ h.csCount
  · exact hpops ▸ h.pops

omit [DecidableEq α] in
theorem QueueIs.prioSize (h : QueueIs m queue c) : queue.prioSize = 0 ↔ c.prio = [] := by
  rw [← h.heap.length, List.length_eq_zero_iff]

omit [DecidableEq α] in
theorem QueueIs.fifoSize_eq_zero (h : QueueIs m queue c) : queue.fifoSize = 0 ↔ c.fifo = [] := by
  rw [h.fifoSize, List.length_eq_zero_iff]

/-! ## Pushes -/

/-- The priority of a unit is not changed while the unit is in the heap. -/
theorem QueueIs.assignPriority (h : QueueIs m queue c) (hnew : unit ∉ c.units)
    (num : BitVec 64) (hnum : num = c.num) :
    QueueIs (assignPriority m num unit).1 queue (c.prioritize unit) ∧
      (Efirst.assignPriority m num unit).2 = (c.prioritize unit).num := by
  unfold Efirst.assignPriority Contents.prioritize
  rw [h.priority]
  by_cases hfirst : c.priority unit = 0
  · rw [if_pos hfirst, if_pos hfirst, ← hnum]
    refine ⟨?_, rfl⟩
    refine { h with priority := rfl, heap := h.heap.congr_key ?_ }
    intro u hu
    have hne : u ≠ unit := ne_of_mem_of_not_mem (List.mem_append_left _ hu) hnew
    simp only [Mem.key, update_of_ne hne, h.priority]
  · rw [if_neg hfirst, if_neg hfirst]
    exact ⟨h, hnum⟩

omit [DecidableEq α] in
/-- There is room for one more unit after the array was doubled. -/
theorem QueueIs.grown (h : QueueIs m queue c) :
    QueueIs m queue.grown c ∧ queue.grown.prioSize = queue.prioSize ∧
      queue.prioSize < queue.grown.entries.capacity := by
  have hbound := h.heap.bound
  have hcapacity := h.capacity
  unfold Queue.grown
  by_cases hfull : queue.entries.capacity ≤ queue.prioSize
  · rw [if_pos hfull]
    have hheap : HeapOf m.key { queue.entries with capacity := queue.entries.capacity * 2 }
        queue.prioSize c.prio := h.heap.grow (by omega)
    refine ⟨{ h with capacity := ?_, heap := hheap }, rfl, ?_⟩
    · exact Nat.mul_pos hcapacity Nat.two_pos
    · change queue.prioSize < queue.entries.capacity * 2
      omega
  · rw [if_neg hfull]
    exact ⟨h, rfl, by omega⟩

/-- `queue_push_prio`. -/
theorem queuePushPrio_spec (h : QueueIs m queue c) (hnew : unit ∉ c.units) :
    ∃ m' queue', queuePushPrio m queue unit = some (m', queue') ∧
      QueueIs m' queue' { c with prio := unit :: c.prio } ∧ m'.csCount = m.csCount := by
  obtain ⟨hgrown, hsize, hroom⟩ := h.grown
  have hheap := hgrown.heap
  rw [hsize] at hheap
  obtain ⟨entries, hsift, hcapacity, hheap'⟩ := hheap.insert unit hroom
  refine ⟨m.setInPool unit, { queue.grown with entries, prioSize := queue.prioSize + 1 }, ?_, ?_,
    rfl⟩
  · rw [queuePushPrio, hsift]
    rfl
  · constructor
    · exact hcapacity ▸ hgrown.capacity
    · exact hheap'
    · exact hgrown.chain
    · exact hgrown.first
    · exact hgrown.last
    · exact hgrown.fifoSize
    · exact List.nodup_cons.mpr ⟨hnew, h.nodup⟩
    · exact setInPool_iff h.flag
    · exact h.priority
    · exact h.csCount
    · exact hgrown.pops

/-- `queue_push_fifo`. -/
theorem queuePushFifo_spec (h : QueueIs m queue c) (hnew : unit ∉ c.units) :
    ∃ m' queue', queuePushFifo m queue unit = some (m', queue') ∧
      QueueIs m' queue' { c with fifo := c.fifo ++ [unit] } := by
  have hnot : unit ∉ c.fifo := fun hmem => hnew (List.mem_append_right _ hmem)
  have hperm : (c.prio ++ (c.fifo ++ [unit])).Perm (unit :: c.units) := by
    rw [← List.append_assoc]
    exact List.perm_append_singleton unit _
  have hnodup : (c.prio ++ (c.fifo ++ [unit])).Nodup :=
    hperm.nodup_iff.mpr (List.nodup_cons.mpr ⟨hnew, h.nodup⟩)
  have hflag (next : α → Option α) (u : α) :
      (({ m with next } : Mem α).setInPool unit).flag u &&& isInPool ≠ 0 ↔
        u ∈ c.prio ++ (c.fifo ++ [unit]) :=
    (setInPool_iff h.flag u).trans hperm.mem_iff.symm
  have hsize : queue.fifoSize + 1 = (c.fifo ++ [unit]).length := by
    rw [h.fifoSize, List.length_append, List.length_singleton]
  unfold queuePushFifo
  by_cases hempty : queue.fifoSize = 0
  · have hnil := h.fifoSize_eq_zero.mp hempty
    rw [if_pos hempty]
    refine ⟨_, _, rfl, ?_⟩
    have hchain : Chain (update m.next unit none) (c.fifo ++ [unit]) := by
      rw [hnil]
      exact chain_singleton unit
    exact { h with
      chain := hchain
      first := by rw [hnil]; rfl
      last := List.getLast?_concat.symm
      fifoSize := hsize
      nodup := hnodup
      flag := hflag _ }
  · have hne : c.fifo ≠ [] := mt h.fifoSize_eq_zero.mpr hempty
    have ht : c.fifo.getLast? = some (c.fifo.getLast hne) := List.getLast?_eq_some_getLast hne
    rw [if_neg hempty, h.last, ht]
    refine ⟨_, _, rfl, ?_⟩
    exact { h with
      chain := h.chain.push ht hnot
      first := by rw [h.first, List.head?_append_of_ne_nil _ hne]
      last := List.getLast?_concat.symm
      fifoSize := hsize
      nodup := hnodup
      flag := hflag _ }

/-- `queue_push`. -/
theorem queuePush_spec (h : QueueIs m queue c) (hnew : unit ∉ c.units) :
    ∃ m' queue', queuePush m queue unit = some (m', queue') ∧
      QueueIs m' queue' (if c.csCount unit < 32 then
        { c with prio := unit :: c.prio, csCount := update c.csCount unit (c.csCount unit + 1) }
      else { c with fifo := c.fifo ++ [unit] }) := by
  unfold queuePush
  rw [h.csCount]
  by_cases hcount : c.csCount unit < 32
  · obtain ⟨m', queue', hpush, hqueue, hcs⟩ := queuePushPrio_spec h hnew
    rw [if_pos hcount, if_pos hcount, hpush]
    refine ⟨_, _, rfl, { hqueue with csCount := ?_ }⟩
    rw [hcs, h.csCount]
  · rw [if_neg hcount, if_neg hcount]
    exact queuePushFifo_spec h hnew

/-- `pool_push`. -/
theorem poolPush_spec {pool : PoolT α} (h : QueueIs m pool.queue c) (hnum : pool.num = c.num)
    (hnew : unit ∉ c.units) :
    ∃ m' pool', poolPush m pool unit = some (m', pool') ∧
      QueueIs m' pool'.queue (c.push unit) ∧ pool'.num = (c.push unit).num := by
  obtain ⟨hqueue, hnum'⟩ := h.assignPriority hnew pool.num hnum
  have hnew' : unit ∉ (c.prioritize unit).units := by
    obtain ⟨priority, num, heq⟩ := c.prioritize_eq unit
    rw [heq]
    exact hnew
  obtain ⟨m', queue', hpush, hqueue'⟩ := queuePush_spec hqueue hnew'
  refine ⟨m', ⟨queue', (assignPriority m pool.num unit).2⟩, ?_, hqueue', ?_⟩
  · simp only [poolPush, hpush, Option.map_some]
  · simp only [Contents.push, hnum']
    split <;> rfl

/-! ## Pops -/

theorem queuePopPrio_nil (h : QueueIs m queue c) (hnil : c.prio = []) :
    queuePopPrio m queue = some (m, queue, none) := by
  rw [queuePopPrio, h.prioSize.mpr hnil]

/-- `queue_pop_prio` takes a unit of smallest priority. -/
theorem queuePopPrio_spec (h : QueueIs m queue c) (hne : c.prio ≠ []) :
    ∃ m' queue' unit rest, queuePopPrio m queue = some (m', queue', some unit) ∧
      c.prio.Perm (unit :: rest) ∧
      (∀ u ∈ c.prio, (c.priority unit).toNat ≤ (c.priority u).toNat) ∧
      QueueIs m' queue' { c with prio := rest } := by
  obtain ⟨size, hsize⟩ : ∃ size, queue.prioSize = size + 1 :=
    Nat.exists_eq_succ_of_ne_zero (mt h.prioSize.mp hne)
  have hheap := h.heap
  rw [hsize] at hheap
  obtain ⟨least, last, entries, hleast, hlast, hsift, hcapacity, hmem, hmin, hrest⟩ :=
    hheap.extract
  have hperm : c.prio.Perm (least :: c.prio.erase least) := List.perm_cons_erase hmem
  have hunits : c.units.Perm (least :: (c.prio.erase least ++ c.fifo)) := hperm.append_right c.fifo
  have hnodup := hunits.nodup_iff.mp h.nodup
  refine ⟨m.flipInPool least, { queue with entries, prioSize := size }, least,
    c.prio.erase least, ?_, hperm, ?_, ?_⟩
  · simp only [queuePopPrio, hsize, hleast, hlast, hsift, Option.bind_eq_bind, Option.bind_some]
    rfl
  · intro u hu
    rw [← h.priority]
    exact hmin u hu
  · exact { h with
      capacity := hcapacity ▸ h.capacity
      heap := hrest _ hperm
      nodup := (List.nodup_cons.mp hnodup).2
      flag := flipInPool_iff (fun u => (h.flag u).trans hunits.mem_iff) hnodup }

theorem queuePopFifo_nil (h : QueueIs m queue c) (hnil : c.fifo = []) :
    queuePopFifo m queue = some (m, queue, none) :=
  if_pos (h.fifoSize_eq_zero.mpr hnil)

/-- `queue_pop_fifo` takes the unit that was pushed first. -/
theorem queuePopFifo_spec {rest : List α} (h : QueueIs m queue c) (hcons : c.fifo = unit :: rest) :
    ∃ m' queue', queuePopFifo m queue = some (m', queue', some unit) ∧
      QueueIs m' queue' { c with fifo := rest } := by
  have hchain := h.chain
  rw [hcons] at hchain
  obtain ⟨hnext, hrest⟩ := hchain.pop
  have hsize : queue.fifoSize = rest.length + 1 := by rw [h.fifoSize, hcons]; rfl
  have hunits : c.units.Perm (unit :: (c.prio ++ rest)) := by
    rw [Contents.units, hcons]
    exact List.perm_middle
  have hnodup := hunits.nodup_iff.mp h.nodup
  have hfirst : queue.first = some unit := by rw [h.first, hcons]; rfl
  unfold queuePopFifo
  rw [if_neg (by omega), hfirst]
  refine ⟨_, _, rfl, ?_⟩
  exact { h with
    chain := hrest
    first := hnext
    last := by
      simp only [hsize, Nat.add_sub_cancel, List.length_eq_zero_iff]
      by_cases hnil : rest = []
      · rw [if_pos hnil, hnil]
        rfl
      · rw [if_neg hnil, h.last, hcons, List.getLast?_cons_of_ne_nil hnil]
    fifoSize := by rw [hsize, Nat.add_sub_cancel]
    nodup := (List.nodup_cons.mp hnodup).2
    flag := flipInPool_iff (fun u => (h.flag u).trans hunits.mem_iff) hnodup }

/-- `queue_pop` takes from the queue whose turn it is, and from the other one if
that one is empty. -/
theorem queuePop_spec (h : QueueIs m queue c) :
    ∃ m' queue' result c', queuePop m queue = some (m', queue', result) ∧
      QueueIs m' queue' c' ∧ c.Pop c' ∧ c'.returned = c.returned ++ [result] := by
  have h' : QueueIs m { queue with pops := queue.pops + 1 } { c with pops := c.pops + 1 } :=
    { h with pops := by rw [h.pops] }
  have hfromPrio (hne : c.prio ≠ []) (hturn : (c.pops + 1) % 2 ≠ 0 ∨ c.fifo = []) :
      ∃ m' queue' result c',
        queuePopPrio m { queue with pops := queue.pops + 1 } = some (m', queue', result) ∧
          QueueIs m' queue' c' ∧ c.Pop c' ∧ c'.returned = c.returned ++ [result] := by
    obtain ⟨m', queue', unit, rest, hpop, hperm, hmin, hqueue⟩ := queuePopPrio_spec h' hne
    have hstep : c.Pop { c with
        prio := rest, pops := c.pops + 1, returned := c.returned ++ [some unit] } :=
      .prio hperm hmin hturn
    refine ⟨m', queue', some unit, _, hpop, ?_, hstep, rfl⟩
    exact hqueue.congr rfl rfl rfl rfl rfl
  have hfromFifo (hne : c.fifo ≠ []) (hturn : (c.pops + 1) % 2 = 0 ∨ c.prio = []) :
      ∃ m' queue' result c',
        queuePopFifo m { queue with pops := queue.pops + 1 } = some (m', queue', result) ∧
          QueueIs m' queue' c' ∧ c.Pop c' ∧ c'.returned = c.returned ++ [result] := by
    obtain ⟨unit, rest, hcons⟩ := List.exists_cons_of_ne_nil hne
    have hcons' : { c with pops := c.pops + 1 }.fifo = unit :: rest := hcons
    obtain ⟨m', queue', hpop, hqueue⟩ := queuePopFifo_spec h' hcons'
    have hstep : c.Pop { c with
        fifo := rest, pops := c.pops + 1, returned := c.returned ++ [some unit] } :=
      .fifo hcons hturn
    refine ⟨m', queue', some unit, _, hpop, ?_, hstep, rfl⟩
    exact hqueue.congr rfl rfl rfl rfl rfl
  have hnothing (hprio : c.prio = []) (hfifo : c.fifo = []) :
      ∃ m' queue' result c',
        some (m, { queue with pops := queue.pops + 1 }, none) = some (m', queue', result) ∧
          QueueIs m' queue' c' ∧ c.Pop c' ∧ c'.returned = c.returned ++ [result] := by
    have hstep : c.Pop { c with pops := c.pops + 1, returned := c.returned ++ [none] } :=
      .empty (by rw [Contents.units, hprio, hfifo]; rfl)
    refine ⟨_, _, none, _, rfl, ?_, hstep, rfl⟩
    exact h'.congr rfl rfl rfl rfl rfl
  have hprioPos : 0 < queue.prioSize ↔ c.prio ≠ [] := by
    rw [Nat.pos_iff_ne_zero, ne_eq, h.prioSize]
  have hfifoPos : 0 < queue.fifoSize ↔ c.fifo ≠ [] := by
    rw [Nat.pos_iff_ne_zero, ne_eq, h.fifoSize_eq_zero]
  simp only [queuePop, hprioPos, hfifoPos]
  have hparity : (queue.pops + 1) % 2 = 0 ↔ (c.pops + 1) % 2 = 0 := by rw [h.pops]
  by_cases hturn : (c.pops + 1) % 2 = 0
  · rw [if_pos (hparity.mpr hturn)]
    by_cases hfifo : c.fifo = []
    · rw [if_neg (not_not.mpr hfifo)]
      by_cases hprio : c.prio = []
      · rw [queuePopPrio_nil h' hprio]
        exact hnothing hprio hfifo
      · exact hfromPrio hprio (.inr hfifo)
    · rw [if_pos hfifo]
      exact hfromFifo hfifo (.inl hturn)
  · rw [if_neg (mt hparity.mp hturn)]
    by_cases hprio : c.prio = []
    · rw [if_neg (not_not.mpr hprio)]
      by_cases hfifo : c.fifo = []
      · rw [queuePopFifo_nil h' hfifo]
        exact hnothing hprio hfifo
      · exact hfromFifo hfifo (.inr hprio)
    · rw [if_pos hprio]
      exact hfromPrio hprio (.inl hturn)

end

/-! ## Refinement -/

/-- The pool stands for the queues, and the same calls are in progress and have
returned the same. -/
structure Refines (s : State α) (c : Contents α) : Prop where
  queue : QueueIs s.mem s.pool.queue c
  num : s.pool.num = c.num
  testing : s.testing = c.testing
  tested : s.tested = c.tested
  waiting : s.waiting = c.waiting
  returned : s.returned = c.returned

section

variable {s : State α} {c c' : Contents α} {l : Label α}

omit [DecidableEq α] in
/-- Calls begin, go on or return. -/
theorem Refines.calls {testing testing' tested tested' waiting waiting' : Nat}
    {returned returned' : List (Option α)} (h : Refines s c) (htesting : testing = testing')
    (htested : tested = tested') (hwaiting : waiting = waiting')
    (hreturned : returned = returned') :
    Refines { s with testing, tested, waiting, returned }
      { c with
        testing := testing'
        tested := tested'
        waiting := waiting'
        returned := returned' } :=
  ⟨h.queue.congr rfl rfl rfl rfl rfl, h.num, htesting, htested, hwaiting, hreturned⟩

omit [DecidableEq α] in
/-- A pop changes none of the numbers of calls, nor what decides about pushes. -/
theorem Contents.Pop.frame (h : c.Pop c') :
    c'.num = c.num ∧ c'.testing = c.testing ∧ c'.tested = c.tested ∧ c'.waiting = c.waiting := by
  cases h <;> exact ⟨rfl, rfl, rfl, rfl⟩

/-- A mutex section that pops. -/
theorem Refines.pop (h : Refines s c) : ∃ s' c', s.pop = some s' ∧ c.Pop c' ∧ Refines s' c' := by
  obtain ⟨m', queue', result, c', hpop, hqueue, hstep, hreturned⟩ := queuePop_spec h.queue
  obtain ⟨hnum, htesting, htested, hwaiting⟩ := hstep.frame
  refine ⟨{ s with
    mem := m'
    pool := { s.pool with queue := queue' }
    returned := s.returned ++ [result] }, c', ?_, hstep, hqueue, ?_, ?_, ?_, ?_, ?_⟩
  · rw [State.pop, hpop]
    rfl
  · exact h.num.trans hnum.symm
  · exact h.testing.trans htesting.symm
  · exact h.tested.trans htested.symm
  · exact h.waiting.trans hwaiting.symm
  · rw [hreturned, ← h.returned]

theorem Refines.push {unit : α} (h : Refines s c) (hnew : unit ∉ c.units) :
    ∃ s', act s (.push unit) = some s' ∧ Refines s' (c.push unit) := by
  obtain ⟨m', pool', hpush, hqueue, hnum⟩ := poolPush_spec h.queue h.num hnew
  have hcalls : (c.push unit).testing = c.testing ∧ (c.push unit).tested = c.tested ∧
      (c.push unit).waiting = c.waiting ∧ (c.push unit).returned = c.returned := by
    obtain ⟨priority, num, heq⟩ := c.prioritize_eq unit
    simp only [Contents.push, heq]
    split <;> exact ⟨rfl, rfl, rfl, rfl⟩
  refine ⟨{ s with mem := m', pool := pool' }, ?_, hqueue, hnum, ?_, ?_, ?_, ?_⟩
  · rw [act, hpush]
    rfl
  · exact h.testing.trans hcalls.1.symm
  · exact h.tested.trans hcalls.2.1.symm
  · exact h.waiting.trans hcalls.2.2.1.symm
  · exact h.returned.trans hcalls.2.2.2.symm

/-- The pool can do every allowed step, and it is a step of the queues. -/
theorem Refines.act_spec (h : Refines s c) (hallowed : Allowed s l) :
    ∃ s' c', act s l = some s' ∧ c.Step l c' ∧ Refines s' c' := by
  have hprioSize := h.queue.prioSize
  have hfifoSize := h.queue.fifoSize_eq_zero
  cases l with
  | push unit =>
      have hnew : unit ∉ c.units := by
        rw [← h.queue.flag unit, not_not]
        exact hallowed
      obtain ⟨s', hact, h'⟩ := h.push hnew
      exact ⟨s', c.push unit, hact, .push hnew, h'⟩
  | testPrio =>
      by_cases hprio : c.prio = []
      · refine ⟨_, _, if_pos (hprioSize.mpr hprio), .testPrioEmpty hprio, ?_⟩
        exact h.calls (by rw [h.testing]) h.tested h.waiting h.returned
      · refine ⟨_, _, if_neg (mt hprioSize.mp hprio), .testPrio hprio, ?_⟩
        exact h.calls h.testing (by rw [h.tested]) h.waiting h.returned
  | testFifo =>
      have htesting : 0 < c.testing := h.testing ▸ hallowed
      by_cases hfifo : c.fifo = []
      · refine ⟨_, _, if_pos (hfifoSize.mpr hfifo), .testFifoEmpty htesting hfifo, ?_⟩
        exact h.calls (by rw [h.testing]) h.tested h.waiting (by rw [h.returned])
      · refine ⟨_, _, if_neg (mt hfifoSize.mp hfifo), .testFifo htesting hfifo, ?_⟩
        exact h.calls (by rw [h.testing]) (by rw [h.tested]) h.waiting h.returned
  | popLocked =>
      have hcalls := h.calls h.testing (congrArg (· - 1) h.tested) h.waiting h.returned
      obtain ⟨s', c', hpop, hstep, h'⟩ := hcalls.pop
      exact ⟨s', c', hpop, .popLocked (h.tested ▸ hallowed) hstep, h'⟩
  | timedwait =>
      have hunits : s.pool.queue.prioSize = 0 ∧ s.pool.queue.fifoSize = 0 ↔ c.units = [] := by
        rw [hprioSize, hfifoSize, Contents.units, List.append_eq_nil_iff]
      by_cases hempty : c.units = []
      · refine ⟨_, _, if_pos (hunits.mpr hempty), .timedwaitEmpty hempty, ?_⟩
        exact h.calls h.testing h.tested (by rw [h.waiting]) h.returned
      · obtain ⟨s', c', hpop, hstep, h'⟩ := h.pop
        exact ⟨s', c', (if_neg (mt hunits.mp hempty)).trans hpop, .timedwait hempty hstep, h'⟩
  | wake =>
      have hcalls := h.calls h.testing h.tested (congrArg (· - 1) h.waiting) h.returned
      obtain ⟨s', c', hpop, hstep, h'⟩ := hcalls.pop
      exact ⟨s', c', hpop, .wake (h.waiting ▸ hallowed) hstep, h'⟩

theorem Refines.step_spec {s' : State α} (h : Refines s c) (hstep : step s l = some s') :
    ∃ c', c.Step l c' ∧ Refines s' c' := by
  obtain ⟨hallowed, hdone⟩ := Option.ite_none_right_eq_some.mp hstep
  obtain ⟨t, c', hact, hstep', h'⟩ := h.act_spec hallowed
  rw [hact] at hdone
  exact ⟨c', hstep', Option.some.inj hdone ▸ h'⟩

omit [DecidableEq α] in
theorem refines_initial (thread : α → Bool) : Refines (initial thread) Contents.empty where
  queue :=
    { capacity := Nat.succ_pos 31
      heap := heapOf_nil
      chain := chain_nil
      first := rfl
      last := rfl
      fifoSize := rfl
      nodup := List.nodup_nil
      flag := fun unit => by
        have hcases : (createdUnits thread).flag unit &&& isInPool = 0 := by
          change (if thread unit then isThread else 0) &&& isInPool = 0
          split <;> decide
        exact iff_of_false (not_not.mpr hcases) List.not_mem_nil
      priority := rfl
      csCount := rfl
      pops := rfl }
  num := rfl
  testing := rfl
  tested := rfl
  waiting := rfl
  returned := rfl

/-- What the three functions that pop return in a state of the pool. -/
structure PopsRight (s : State α) (c : Contents α) : Prop where
  prio : ∃ m queue result, queuePopPrio s.mem s.pool.queue = some (m, queue, result) ∧
    (c.prio = [] → result = none) ∧
    (c.prio ≠ [] → ∃ unit ∈ c.prio, result = some unit ∧
      ∀ u ∈ c.prio, (s.mem.priority unit).toNat ≤ (s.mem.priority u).toNat)
  fifo : ∃ m queue, queuePopFifo s.mem s.pool.queue = some (m, queue, c.fifo.head?)
  both : ∃ m queue result, queuePop s.mem s.pool.queue = some (m, queue, result) ∧
    (result = none → c.prio = [] ∧ c.fifo = [])

theorem Refines.popsRight (h : Refines s c) : PopsRight s c where
  prio := by
    by_cases hprio : c.prio = []
    · exact ⟨_, _, none, queuePopPrio_nil h.queue hprio, fun _ => rfl, fun hne => absurd hprio hne⟩
    · obtain ⟨m', queue', unit, rest, hpop, hperm, hmin, -⟩ := queuePopPrio_spec h.queue hprio
      refine ⟨m', queue', some unit, hpop, fun hnil => absurd hnil hprio, fun _ => ?_⟩
      exact ⟨unit, hperm.mem_iff.mpr List.mem_cons_self, rfl, h.queue.priority ▸ hmin⟩
  fifo := by
    cases hfifo : c.fifo with
    | nil => exact ⟨_, _, queuePopFifo_nil h.queue hfifo⟩
    | cons unit rest =>
        obtain ⟨m', queue', hpop, -⟩ := queuePopFifo_spec h.queue hfifo
        exact ⟨m', queue', hpop⟩
  both := by
    obtain ⟨m', queue', result, c', hpop, -, hstep, hreturned⟩ := queuePop_spec h.queue
    refine ⟨m', queue', result, hpop, ?_⟩
    rintro rfl
    cases hstep with
    | prio => simp at hreturned
    | fifo => simp at hreturned
    | empty hunits => exact List.append_eq_nil_iff.mp hunits

/-- The `earliest_first` pool refines a priority queue and a FIFO queue. -/
theorem efirst_pool_refines {thread : α → Bool} {labels : List (Label α)}
    (hrun : Run step Any (initial thread) labels s) :
    ∃ c, Steps Contents.Step Contents.empty labels c ∧ Refines s c ∧
      c.Conserved labels ∧ PopsRight s c ∧ ∀ l, Allowed s l → ∃ s', step s l = some s' := by
  obtain ⟨c, hsteps, h⟩ := hrun.simulation Refines.step_spec (refines_initial thread)
  have hempty : Contents.Conserved [] (Contents.empty : Contents α) := .refl _
  have hconserved : c.Conserved labels := hsteps.invariant Contents.Conserved.step hempty
  refine ⟨c, hsteps, h, hconserved, h.popsRight, ?_⟩
  intro l hallowed
  obtain ⟨s', -, hact, -⟩ := h.act_spec hallowed
  exact ⟨s', (if_pos hallowed).trans hact⟩

end

/-- Units come out in the order of their first pushes, and a call that waits
takes the unit that is pushed meanwhile. -/
theorem efirst_pool_refines_three :
    ∃ (s : State Nat) (c : Contents Nat), Refines s c ∧ c.units = [] ∧
      s.returned = [some 2, some 1, some 3] := by
  let labels : List (Label Nat) :=
    [.push 2, .push 1, .testPrio, .popLocked, .timedwait, .timedwait, .push 3, .wake]
  have hreturned : (exec step Any (initial fun _ => true) labels).map State.returned =
      some [some 2, some 1, some 3] := by decide +kernel
  obtain ⟨s, hs, hlist⟩ := Option.map_eq_some_iff.mp hreturned
  obtain ⟨c, -, h, hconserved, -, -⟩ := efirst_pool_refines (run_of_exec hs)
  refine ⟨s, c, h, ?_, hlist⟩
  have hlength := hconserved.length_eq
  rw [← h.returned, hlist, List.length_append] at hlength
  exact List.length_eq_zero_iff.mp (Nat.add_left_cancel hlength.symm)

end Margo.Pool.Efirst
