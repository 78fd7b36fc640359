import Margo.Timer.Steps

/-!
# What the counters of the timers count

The threads at each group of program points. `num_pending` of a timer and of the
list count threads, and at most one thread holds the mutex of the list.
-/

namespace Margo.Timer

open Function Lib.ThreadPool

universe u

variable {τ κ : Type u} [DecidableEq τ]

/-- Counted by `num_pending` of the timer. -/
def Thread.pending (timer : τ) : Thread τ κ → Bool
  | .submit _ t | .ult t | .callback t | .running t | .decrement t => timer = t
  | _ => false

/-- A timer was taken out of the queue, and its timer action is not over. -/
def Thread.taken (timer : τ) : Thread τ κ → Bool
  | .count _ t | .submit _ t | .call _ t | .called _ t => timer = t
  | _ => false

omit [DecidableEq τ] in
/-- Counted by `num_pending` of the list. -/
def Thread.counted : Thread τ κ → Bool
  | .ult _ | .callback _ | .running _ | .decrement _ | .signal _ _ | .cleanup _
  | .listDecrement => true
  | _ => false

omit [DecidableEq τ] in
/-- Holds the mutex of the list between two steps. -/
def Thread.holds : Thread τ κ → Bool
  | .loop _ | .count _ _ | .submit _ _ | .call _ _ | .called _ _ | .listCleanup => true
  | _ => false

/-- At the execution of a timer, from its removal from the queue on. -/
def Thread.fires (timer : τ) (thread : Thread τ κ) : Bool :=
  thread.taken timer || thread.pending timer

omit [DecidableEq τ] in
/-- What is left for `margo_timer_cancel_many` is a part of its argument. -/
def Thread.Remaining : Thread τ κ → Prop
  | .manyWait ts rest => rest ⊆ ts
  | .manyReset ts t rest => t :: rest ⊆ ts
  | _ => True

/-- The counters of these threads. -/
structure Counted (m : Shared τ κ) (threads : List (Thread τ κ)) : Prop where
  pending : ∀ t, m.timers.numPending t = threads.countP (Thread.pending t)
  listPending : m.timers.listPending = threads.countP Thread.counted
  locked : threads.countP Thread.holds + m.listFreed.toNat = m.listLocked.toNat

section

variable {us us' : List τ} {m m' : Shared τ κ} {threads ts others : List (Thread τ κ)} {t : τ}
  {thread : Thread τ κ} {choice : Choice τ κ}

theorem Counted.perm {threads' : List (Thread τ κ)} (h : Counted m threads)
    (hperm : threads.Perm threads') : Counted m threads' :=
  ⟨fun t => hperm.countP_eq (Thread.pending t) ▸ h.pending t,
    hperm.countP_eq Thread.counted ▸ h.listPending, hperm.countP_eq Thread.holds ▸ h.locked⟩

/-- `num_pending` of a timer counts its submitted ULTs. -/
theorem Does.pending (h : Does us m thread choice us' m' ts)
    (hbefore : m.timers.numPending t = (thread :: others).countP (Thread.pending t)) :
    m'.timers.numPending t = (ts ++ others).countP (Thread.pending t) := by
  rw [List.countP_append]
  rw [List.countP_cons] at hbefore
  cases h with
  | count f timer | decrementLast timer | decrement timer =>
      by_cases heq : t = timer
      · subst heq
        simp [Thread.pending] at hbefore ⊢
        omega
      · simpa [Thread.pending, heq] using hbefore
  | submit | ultCanceled | ult | callback | running =>
      simpa [Thread.pending, Shared.use, Shared.invoke, Nat.add_comm] using hbefore
  | _ =>
      simpa [Thread.pending, Shared.use, Shared.invoke, Timers.setCanceled, Timers.setExpiration]
        using hbefore

omit [DecidableEq τ] in
/-- `num_pending` of the list counts the ULTs that are not over. -/
theorem Does.listPending [DecidableEq τ] (h : Does us m thread choice us' m' ts)
    (hbefore : m.timers.listPending = (thread :: others).countP Thread.counted) :
    m'.timers.listPending = (ts ++ others).countP Thread.counted := by
  rw [List.countP_append]
  rw [List.countP_cons] at hbefore
  cases h with
  | submit | listDecrementLast | listDecrement =>
      simp [Thread.counted] at hbefore ⊢
      omega
  | ultCanceled | ult | callback | running | decrementLast | decrement | signalDestroy | signal
  | cleanup =>
      simpa [Thread.counted, Shared.use, Shared.invoke, Nat.add_comm] using hbefore
  | _ =>
      simpa [Thread.counted, Shared.use, Shared.invoke, Timers.setCanceled, Timers.setExpiration]
        using hbefore

/-- Who holds the mutex of the list. -/
theorem Does.locked (h : Does us m thread choice us' m' ts)
    (hbefore : (thread :: others).countP Thread.holds + m.listFreed.toNat = m.listLocked.toNat) :
    (ts ++ others).countP Thread.holds + m'.listFreed.toNat = m'.listLocked.toNat := by
  rw [List.countP_append]
  rw [List.countP_cons] at hbefore
  have hle := Bool.toNat_le m.listLocked
  cases h with
  | check _ hunlocked | listFree hunlocked | freeWait hunlocked =>
      rw [hunlocked] at hbefore
      simp only [Thread.holds, List.countP_cons, List.countP_nil, Bool.toNat_false, Bool.toNat_true,
        Bool.false_eq_true, if_true, if_false] at hbefore ⊢
      omega
  | leaveCheck | leaveWait | listCleanup =>
      simp only [Thread.holds, List.countP_cons, List.countP_nil, Bool.toNat_false, Bool.toNat_true,
        Bool.false_eq_true, if_true, if_false, Shared.use] at hbefore ⊢
      omega
  | leaveFree | takeCount | takeCall | count | submit | call | called =>
      simpa [Thread.holds, List.countP_cons, Shared.use, Shared.invoke, Nat.add_comm] using hbefore
  | _ => simpa [Thread.holds, Shared.use, Shared.invoke, Timers.setCanceled] using hbefore

/-- The counters are right after every step. -/
theorem Does.census (h : Does us m thread choice us' m' ts)
    (hbefore : Counted m (thread :: others)) : Counted m' (ts ++ others) :=
  ⟨fun t => h.pending (hbefore.pending t), h.listPending hbefore.listPending,
    h.locked hbefore.locked⟩

/-! ## Where threads come from -/

/-- A thread takes a timer only out of the queue. -/
theorem Does.taken (h : Does us m thread choice us' m' ts) :
    ∀ x ∈ ts, x.taken t → thread.taken t ∨ t ∈ us := by
  cases h with
  | takeCount _ _ _ _ _ _ hus | takeCall _ _ _ _ _ _ hus => simp +contextual [Thread.taken, hus]
  | _ => simp +contextual [Thread.taken]

/-- A step makes no other timers busy than those it takes out of the queue. -/
theorem Does.fires (h : Does us m thread choice us' m' ts) :
    ∀ x ∈ ts, x.fires t → thread.fires t ∨ t ∈ us := by
  cases h with
  | takeCount _ _ _ _ _ _ hus | takeCall _ _ _ _ _ _ hus =>
      simp +contextual [Thread.fires, Thread.taken, Thread.pending, hus]
  | _ => simp +contextual [Thread.fires, Thread.taken, Thread.pending]

theorem Does.remaining (h : Does us m thread choice us' m' ts) (hthread : thread.Remaining) :
    ∀ x ∈ ts, x.Remaining := by
  cases h with
  | manyNext => simpa [Thread.Remaining] using (List.cons_subset.mp hthread).2
  | manyWait => simpa [Thread.Remaining] using hthread
  | _ => simp [Thread.Remaining]

theorem counted_startup (created : List τ) (expiration : τ → κ) (hasPool : τ → Bool)
    (callers : Nat) :
    Counted (startup created expiration hasPool callers).shared
      (startup created expiration hasPool callers).threads := by
  have hnone : ∀ p : Thread τ κ → Bool, p .progress = false → p .caller = false →
      (startup created expiration hasPool callers).threads.countP p = 0 := by
    intro p hprogress hcaller
    apply List.countP_eq_zero.mpr
    intro x hx
    simp [startup_none p hprogress hcaller x hx]
  refine ⟨fun t => ?_, ?_, ?_⟩
  · exact (hnone (Thread.pending t) rfl rfl).symm
  · exact (hnone Thread.counted rfl rfl).symm
  · exact hnone Thread.holds rfl rfl

end

end Margo.Timer
