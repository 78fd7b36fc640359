import Margo.Timer.Census
import Mathlib.Data.Nat.Basic

/-!
# The lifetime of a timer

A destroyed timer is freed exactly once, and nobody reads or writes it, or the
list of the instance, afterwards.

## Implementation notes

The one who frees a destroyed timer is `margo_timer_destroy`, or the ULT that
finds no other pending ULT of the timer; both decide it before they free the
timer. From the decision on, no thread executes the timer.
-/

namespace Margo.Timer

open Function Lib.ThreadPool Lib.Runs

universe u

variable {τ κ : Type u} [DecidableEq τ]

/-- Executes the timer, and will read or write it. -/
def Thread.works (timer : τ) : Thread τ κ → Bool
  | .count _ t | .submit _ t | .call _ t | .ult t | .callback t | .running t
  | .decrement t => timer = t
  | _ => false

/-- Has decided to free the timer. -/
def Thread.frees (timer : τ) : Thread τ κ → Bool
  | .signal t true | .cleanup t | .destroyFree t => timer = t
  | _ => false

/-- At the signal of the condition variable of the timer. -/
def Thread.signals (timer : τ) : Thread τ κ → Bool
  | .signal t _ => timer = t
  | _ => false

/-- Executes the timer as one with a pool. -/
def Thread.pooled (timer : τ) : Thread τ κ → Bool
  | .count _ t | .submit _ t | .ult t | .callback t | .running t | .decrement t => timer = t
  | _ => false

/-- Executes the timer as one without a pool. -/
def Thread.poolless (timer : τ) : Thread τ κ → Bool
  | .call _ t | .called _ t => timer = t
  | _ => false

/-- Has taken the timer out of the queue and has not yet counted a ULT for it or called
its callback. -/
def Thread.undecided (timer : τ) : Thread τ κ → Bool
  | .count _ t | .call _ t => timer = t
  | _ => false

omit [DecidableEq τ] in
/-- A ULT that is not yet done with the list. -/
def Thread.attached : Thread τ κ → Bool
  | .listSignal => true
  | x => x.counted

/-- A call about the timer that it must outlive. -/
def Choice.names (timer : τ) : Choice τ κ → Bool
  | .start t _ _ | .cancel t | .destroy t => timer = t
  | .cancelMany ts => timer ∈ ts
  | _ => false

/-- Which thread owns which timer, and who frees it. -/
structure Owned (us : List τ) (m : Shared τ κ) (threads : List (Thread τ κ)) : Prop where
  remaining : ∀ x ∈ threads, x.Remaining
  pooled : ∀ t, ∀ x ∈ threads, x.pooled t → m.timers.hasPool t = true
  poolless : ∀ t, ∀ x ∈ threads, x.poolless t → m.timers.hasPool t = false
  requested : ∀ t, m.requested t = true → m.destroyed t = true ∧ m.timers.hasPool t = true
  canceled : ∀ t, m.destroyed t = true → ∀ x ∈ threads, x.cancels t = false
  started : ∀ t, m.destroyed t = true → ∀ x ∈ threads, x.starts t = false
  freeing : ∀ t, 0 < m.freed t + threads.countP (Thread.frees t) →
    m.freed t + threads.countP (Thread.frees t) = 1 ∧ m.destroyed t = true ∧ t ∉ us ∧
      ∀ x ∈ threads, x.works t = false
  signaled : ∀ t, 0 < m.freed t → ∀ x ∈ threads, x.signals t = false
  owed : ∀ t, m.destroyed t = true → 0 < m.freed t + threads.countP (Thread.frees t) ∨
    m.requested t = true ∧ (t ∈ us ∨ 0 < m.timers.numPending t ∨ ∃ x ∈ threads, x.undecided t)
  used : m.used = []
  cleanup : .listCleanup ∈ threads → m.timers.listPending = 0
  listFreed : m.listFreed = true → ∀ x ∈ threads, x.attached = false
  listUsed : m.listUsed = false

section

variable {us us' : List τ} {m m' : Shared τ κ} {threads ts others : List (Thread τ κ)} {t : τ}
  {thread x : Thread τ κ} {choice : Choice τ κ}

/-! ## What a step does to the owners of a timer -/

theorem Does.works (h : Does us m thread choice us' m' ts) :
    ∀ x ∈ ts, x.works t → thread.works t ∨ t ∈ us := by
  cases h with
  | takeCount _ _ _ _ _ _ hus | takeCall _ _ _ _ _ _ hus => simp +contextual [Thread.works, hus]
  | _ => simp +contextual [Thread.works]

/-- The pool of a timer never changes. -/
theorem Does.hasPool (h : Does us m thread choice us' m' ts) :
    m'.timers.hasPool = m.timers.hasPool := by
  cases h <;> rfl

theorem Does.pooled (h : Does us m thread choice us' m' ts) :
    ∀ x ∈ ts, x.pooled t → thread.pooled t ∨ m.timers.hasPool t = true := by
  cases h with
  | takeCount _ _ _ _ _ _ _ _ hpool => simp +contextual [Thread.pooled, hpool]
  | _ => simp +contextual [Thread.pooled]

theorem Does.poolless (h : Does us m thread choice us' m' ts) :
    ∀ x ∈ ts, x.poolless t → thread.poolless t ∨ m.timers.hasPool t = false := by
  cases h with
  | takeCall _ _ _ _ _ _ _ _ hpool => simp +contextual [Thread.poolless, hpool]
  | _ => simp +contextual [Thread.poolless]

/-- A start or a cancel goes on, or it begins with a call about the timer. -/
theorem Does.calls (h : Does us m thread choice us' m' ts) :
    ∀ x ∈ ts, x.starts t ∨ x.cancels t → (thread.starts t ∨ thread.cancels t) ∨
      choice.names t ∧ choice ≠ .destroy t := by
  intro x hx hcalls
  obtain hstarts | hcancels := hcalls
  · obtain hstarts | ⟨now, timeout, rfl⟩ := h.starts x hx hstarts
    · exact .inl (.inl hstarts)
    · exact .inr ⟨decide_eq_true rfl, nofun⟩
  · obtain hcancels | rfl | ⟨timers, rfl, ht⟩ := h.canceling x hx hcancels
    · exact .inl (.inr hcancels)
    · exact .inr ⟨decide_eq_true rfl, nofun⟩
    · exact .inr ⟨decide_eq_true ht, nofun⟩

/-- `margo_timer_destroy` is called once and marks the timer. -/
theorem Does.destroyed (h : Does us m thread choice us' m' ts) :
    m'.destroyed t = true ↔ m.destroyed t = true ∨ choice = .destroy t := by
  cases h with
  | destroyNow timer | destroyLater timer =>
      by_cases heq : t = timer
      · simp [heq]
      · simp [heq, Ne.symm heq]
  | _ => simp [Shared.use, Shared.invoke]

theorem Does.requested (h : Does us m thread choice us' m' ts) (hchoice : choice ≠ .destroy t) :
    m'.requested t = m.requested t := by
  cases h with
  | destroyNow timer | destroyLater timer =>
      have hne : t ≠ timer := by rintro rfl; exact hchoice rfl
      simp [hne]
  | _ => rfl

omit [DecidableEq τ] in
theorem mem_use {us : List τ} : t ∈ (m.use us).used ↔ t ∈ m.used ∨ t ∈ us ∧ 0 < m.freed t := by
  simp [Shared.use]

/-- The timers that a step reads or writes. -/
theorem Does.used (h : Does us m thread choice us' m' ts) (hremaining : thread.Remaining)
    (ht : t ∈ m'.used) :
    t ∈ m.used ∨ 0 < m.freed t ∧
      (t ∈ us ∨ thread.works t ∨ thread.signals t ∨ (thread.starts t ∨ thread.cancels t) ∨
        choice.names t) := by
  cases h with
  | leaveCheck _ _ hused | takeCount _ _ _ _ _ _ _ hused | takeCall _ _ _ _ _ _ _ hused =>
      exact (mem_use.mp ht).imp_right fun hand => ⟨hand.2, .inl (hused t hand.1)⟩
  | cancelSection _ _ _ _ _ hused =>
      refine (mem_use.mp ht).imp_right fun hand => ⟨hand.2, ?_⟩
      obtain rfl | hus := hused t hand.1
      · simp [Thread.cancels]
      · exact .inl hus
  | startQueue _ _ _ _ _ _ hused =>
      refine (mem_use.mp ht).imp_right fun hand => ⟨hand.2, ?_⟩
      obtain rfl | hus := hused t hand.1
      · simp [Thread.starts]
      · exact .inl hus
  | manyWait | manyLast | manyNext =>
      refine (mem_use.mp ht).imp_right fun hand => ⟨hand.2, ?_⟩
      obtain rfl := List.mem_singleton.mp hand.1
      have hin := hremaining List.mem_cons_self
      simp [Thread.cancels, hin]
  | startRefused | start | startStore | cancel | cancelMany | destroyNow | destroyLater | count
  | submit | call | ultCanceled | ult | callback | decrementLast | decrement | signalDestroy
  | signal | cancelClear | cancelWait | cancelReset =>
      refine (mem_use.mp ht).imp_right fun hand => ⟨hand.2, ?_⟩
      simp_all [Thread.works, Thread.signals, Thread.starts, Thread.cancels, Choice.names]
  | _ => exact .inl ht

/-- A thread decides to free a timer, or frees it. -/
theorem Does.frees (h : Does us m thread choice us' m' ts) (t : τ)
    (others : List (Thread τ κ)) :
    m'.freed t + (ts ++ others).countP (Thread.frees t) =
        m.freed t + (thread :: others).countP (Thread.frees t) ∨
      m'.freed t + (ts ++ others).countP (Thread.frees t) =
        m.freed t + (thread :: others).countP (Thread.frees t) + 1 ∧
      (thread = .caller ∧ choice = .destroy t ∧ t ∉ us ∧ m.timers.numPending t = 0 ∨
        thread = .decrement t ∧ m.requested t = true ∧ m.timers.numPending t - 1 = 0) := by
  rw [List.countP_append, List.countP_cons]
  cases h with
  | destroyNow timer hqueued hpending =>
      by_cases heq : t = timer
      · subst heq
        exact .inr ⟨by simp [Thread.frees, Shared.use]; omega, .inl ⟨rfl, rfl, hqueued, hpending⟩⟩
      · exact .inl (by simp [Thread.frees, Shared.use, heq])
  | decrementLast timer hlast =>
      by_cases heq : t = timer ∧ m.requested timer = true
      · obtain ⟨rfl, hrequested⟩ := heq
        refine .inr ⟨?_, .inr ⟨rfl, hrequested, hlast⟩⟩
        simp [Thread.frees, Shared.use, hrequested]
        omega
      · refine .inl ?_
        cases hrequested : m.requested timer with
        | true =>
            have hne : t ≠ timer := fun hcontra => heq ⟨hcontra, hrequested⟩
            simp [Thread.frees, Shared.use, hne]
        | false => simp [Thread.frees, Shared.use]
  | cleanup timer | destroyFree timer =>
      refine .inl ?_
      by_cases heq : t = timer
      · subst heq
        simp [Thread.frees]
        omega
      · simp [Thread.frees, heq]
  | signalDestroy timer => exact .inl (by simp [Thread.frees, Shared.use, Nat.add_comm])
  | _ => exact .inl (by simp [Thread.frees, Shared.use, Shared.invoke])

theorem Does.signals (h : Does us m thread choice us' m' ts) :
    ∀ x ∈ ts, x.signals t → thread.works t := by
  cases h with
  | _ => simp +contextual [Thread.signals, Thread.works]

theorem Does.freed (h : Does us m thread choice us' m' ts) (ht : 0 < m'.freed t) :
    0 < m.freed t ∨ thread = .cleanup t ∨ thread = .destroyFree t := by
  cases h with
  | cleanup timer | destroyFree timer =>
      by_cases heq : t = timer
      · simp [heq]
      · exact .inl (by simpa [heq] using ht)
  | _ => exact .inl ht

/-- A timer leaves the queue for its execution, or because of a cancel. -/
theorem Does.dequeued (h : Does us m thread choice us' m' ts) (ht : t ∈ us) :
    t ∈ us' ∨ (∃ x ∈ ts, x.undecided t) ∨ thread.cancels t ∨ choice.names t := by
  cases h with
  | startQueue _ _ _ _ _ _ _ _ hkept => exact .inl (hkept t ht)
  | takeCount _ timer us' _ _ _ hus | takeCall _ timer us' _ _ _ hus =>
      obtain heq | hmem := List.mem_cons.mp (hus ▸ ht)
      · exact .inr (.inl ⟨_, List.mem_singleton_self _, decide_eq_true heq⟩)
      · exact .inl hmem
  | cancelMany timers =>
      by_cases hmem : t ∈ timers
      · exact .inr (.inr (.inr (decide_eq_true hmem)))
      · exact .inl (by simp [ht, hmem])
  | cancelSection timer =>
      by_cases heq : t = timer
      · exact .inr (.inr (.inl (decide_eq_true heq)))
      · exact .inl (by simp [ht, heq])
  | _ => exact .inl ht

/-- A ULT is counted for a timer with a pool. -/
theorem Does.undecided (h : Does us m thread choice us' m' ts) (ht : thread.undecided t) :
    0 < m'.timers.numPending t ∨ thread.poolless t := by
  cases h with
  | count f timer =>
      obtain rfl := of_decide_eq_true ht
      exact .inl (by simp)
  | call => exact .inr ht
  | _ => cases ht

/-- The last pending ULT ends. -/
theorem Does.numPending (h : Does us m thread choice us' m' ts) (ht : 0 < m.timers.numPending t) :
    0 < m'.timers.numPending t ∨ thread = .decrement t ∧ m.timers.numPending t = 1 ∧
      ts = [.signal t (m.requested t)] := by
  cases h with
  | count f timer =>
      by_cases heq : t = timer
      · simp [heq]
      · exact .inl (by simpa [heq] using ht)
  | decrementLast timer hlast =>
      by_cases heq : t = timer
      · subst heq
        exact .inr ⟨rfl, by omega, rfl⟩
      · exact .inl (by simpa [heq] using ht)
  | decrement timer hmore =>
      by_cases heq : t = timer
      · subst heq
        simp
        omega
      · exact .inl (by simpa [heq] using ht)
  | _ => exact .inl ht

/-! ## What a step does to the list -/

theorem Does.attached (h : Does us m thread choice us' m' ts) :
    ∀ x ∈ ts, x.attached → thread.attached ∨ thread.holds := by
  cases h with
  | _ => simp [Thread.attached, Thread.counted, Thread.holds]

theorem Does.cleaned (h : Does us m thread choice us' m' ts) (ht : .listCleanup ∈ ts) :
    m'.timers.listPending = 0 := by
  cases h with
  | leaveFree _ hnone | freeWait _ hnone => exact hnone
  | _ => simp at ht

theorem Does.listPending_zero (h : Does us m thread choice us' m' ts)
    (hnone : m.timers.listPending = 0) : m'.timers.listPending = 0 ∨ thread.holds := by
  cases h with
  | submit => exact .inr rfl
  | listDecrementLast | listDecrement => simp [hnone]
  | _ => exact .inl hnone

theorem Does.listFreed (h : Does us m thread choice us' m' ts) (ht : m'.listFreed = true) :
    m.listFreed = true ∨ thread = .listCleanup ∧ ts = [] := by
  cases h with
  | listCleanup => exact .inr ⟨rfl, rfl⟩
  | _ => exact .inl ht

theorem Does.listUsed (h : Does us m thread choice us' m' ts) (ht : m'.listUsed = true) :
    m.listUsed = true ∨ m.listFreed = true ∧ thread.attached = true := by
  cases h with
  | listDecrementLast | listDecrement | listSignal =>
      exact (Bool.or_eq_true_iff.mp ht).imp_right fun hfreed => ⟨hfreed, rfl⟩
  | _ => exact .inl ht

/-! ## What the owners keep -/

/-- What the promises of the callers and the care of the others say about one step. -/
structure Permitted (us : List τ) (m : Shared τ κ) (threads : List (Thread τ κ))
    (thread : Thread τ κ) (choice : Choice τ κ) : Prop where
  named : ∀ t, choice.names t → m.destroyed t = false
  destroyed : ∀ t, choice = .destroy t →
    ∀ x ∈ threads, x.cancels t = false ∧ x.starts t = false
  queued : ∀ t, choice = .destroy t → t ∈ us → m.timers.hasPool t = true
  taken : ∀ t, choice = .destroy t → t ∉ us → m.timers.numPending t = 0 →
    ∀ x ∈ threads, x.undecided t = false
  last : ∀ t, thread = .decrement t → m.requested t = true → m.timers.numPending t = 1 →
    t ∉ us ∧ ∀ x ∈ threads, x.undecided t = false
  freed : ∀ t, thread = .cleanup t ∨ thread = .destroyFree t → ∀ x ∈ threads, x.signals t = false
  listFreed : thread = .listCleanup → .listSignal ∉ threads

theorem Permitted.perm {threads' : List (Thread τ κ)} (h : Permitted us m threads thread choice)
    (hperm : threads.Perm threads') : Permitted us m threads' thread choice := by
  have hmem : ∀ {x}, x ∈ threads' → x ∈ threads := fun hx => hperm.mem_iff.mpr hx
  constructor
  case named => exact h.named
  case destroyed => exact fun t ht x hx => h.destroyed t ht x (hmem hx)
  case queued => exact h.queued
  case taken => exact fun t ht hus hnone x hx => h.taken t ht hus hnone x (hmem hx)
  case last =>
    intro t ht hrequested hone
    obtain ⟨hus, hundecided⟩ := h.last t ht hrequested hone
    exact ⟨hus, fun x hx => hundecided x (hmem hx)⟩
  case freed => exact fun t ht x hx => h.freed t ht x (hmem hx)
  case listFreed => exact fun ht hx => h.listFreed ht (hmem hx)

theorem Thread.pooled_of_pending (h : x.pending t) : x.pooled t := by
  cases x with
  | submit | ult | callback | running | decrement => exact h
  | _ => cases h

theorem Thread.works_of_pending (h : x.pending t) : x.works t := by
  cases x with
  | submit | ult | callback | running | decrement => exact h
  | _ => cases h

theorem Thread.works_of_undecided (h : x.undecided t) : x.works t := by
  cases x with
  | count | call => exact h
  | _ => cases h

/-- A timer that is neither counted nor about to be counted or called. -/
theorem not_works (hcounted : m.timers.numPending t = threads.countP (Thread.pending t))
    (hnone : m.timers.numPending t = 0) (hundecided : ∀ x ∈ threads, x.undecided t = false) :
    ∀ x ∈ threads, x.works t = false := by
  intro x hx
  have hpending := List.countP_eq_zero.mp (hcounted ▸ hnone) x hx
  have hnot := hundecided x hx
  cases x with
  | count | call => exact hnot
  | submit | ult | callback | running | decrement => exact Bool.eq_false_iff.mpr hpending
  | _ => rfl

/-- A destroyed timer stays out of the queue. -/
theorem Does.not_mem_queue (h : Does us m thread choice us' m' ts)
    (hbefore : Owned us m (thread :: others)) (hdestroyed : m.destroyed t = true)
    (ht : t ∉ us) : t ∉ us' := by
  intro hmem
  obtain hus | rfl := h.queued hmem
  · exact ht hus
  · have hstarts := hbefore.started t hdestroyed _ List.mem_cons_self
    simp [Thread.starts] at hstarts

/-- The decision to free a timer is taken once, and nobody executes it from then on. -/
theorem Does.freeing (h : Does us m thread choice us' m' ts)
    (hcounted : Counted m (thread :: others)) (hbefore : Owned us m (thread :: others))
    (hpermitted : Permitted us m (thread :: others) thread choice)
    (hafter : 0 < m'.freed t + (ts ++ others).countP (Thread.frees t)) :
    m'.freed t + (ts ++ others).countP (Thread.frees t) = 1 ∧ m'.destroyed t = true ∧ t ∉ us' ∧
      ∀ x ∈ ts ++ others, x.works t = false := by
  obtain hsame | ⟨hmore, hdecision⟩ := h.frees t others
  · -- The decision was taken before.
    rw [hsame] at hafter ⊢
    obtain ⟨hone, hdestroyed, hus, hworks⟩ := hbefore.freeing t hafter
    refine ⟨hone, h.destroyed.mpr (.inl hdestroyed),
      h.not_mem_queue hbefore hdestroyed hus, fun x hx => ?_⟩
    obtain hts | hothers := List.mem_append.mp hx
    · by_contra hnot
      obtain hthread | hmem := h.works x hts (Bool.not_eq_false _ ▸ hnot)
      · rw [hworks thread List.mem_cons_self] at hthread
        cases hthread
      · exact hus hmem
    · exact hworks x (List.mem_cons_of_mem thread hothers)
  · have hcensus := (h.census hcounted).pending t
    have hfirst : m.freed t + (thread :: others).countP (Thread.frees t) = 0 →
        m'.freed t + (ts ++ others).countP (Thread.frees t) = 1 := fun hnone => by
      rw [hmore, hnone]
    obtain ⟨rfl, rfl, hus, hnone⟩ | ⟨rfl, hrequested, hnone⟩ := hdecision
    · have hnew : m.destroyed t = false := hpermitted.named t (decide_eq_true rfl)
      have hundecided := hpermitted.taken t rfl hus hnone
      refine ⟨hfirst ?_, h.destroyed.mpr (.inr rfl), ?_⟩
      · by_contra hpos
        rw [(hbefore.freeing t (Nat.pos_of_ne_zero hpos)).2.1] at hnew
        cases hnew
      · cases h with
        | destroyNow =>
            refine ⟨hus, not_works hcensus hnone fun x hx => ?_⟩
            obtain rfl | hothers := List.mem_cons.mp hx
            · rfl
            · exact hundecided x (List.mem_cons_of_mem _ hothers)
        | destroyLater _ howed => exact absurd (howed.resolve_left hus) (not_not.mpr hnone)
    · have hone : m.timers.numPending t = 1 := by
        have hpos : 0 < m.timers.numPending t := by
          rw [hcounted.pending t, List.countP_pos_iff]
          exact ⟨_, List.mem_cons_self, decide_eq_true rfl⟩
        omega
      obtain ⟨hus, hundecided⟩ := hpermitted.last t rfl hrequested hone
      refine ⟨hfirst ?_, h.destroyed.mpr (.inl (hbefore.requested t hrequested).1), ?_⟩
      · by_contra hpos
        have hworks := (hbefore.freeing t (Nat.pos_of_ne_zero hpos)).2.2.2 _ List.mem_cons_self
        exact absurd hworks (by simp [Thread.works])
      · cases h with
        | decrementLast =>
            refine ⟨hus, not_works hcensus (by simpa using hnone) fun x hx => ?_⟩
            obtain rfl | hothers := List.mem_cons.mp hx
            · rfl
            · exact hundecided x (List.mem_cons_of_mem _ hothers)
        | decrement _ hpending => exact absurd hnone hpending

/-- A destroyed timer is going to be freed. -/
theorem Does.owed (h : Does us m thread choice us' m' ts) (hbefore : Owned us m (thread :: others))
    (hpermitted : Permitted us m (thread :: others) thread choice)
    (hafter : m'.destroyed t = true) :
    0 < m'.freed t + (ts ++ others).countP (Thread.frees t) ∨
      m'.requested t = true ∧
        (t ∈ us' ∨ 0 < m'.timers.numPending t ∨ ∃ x ∈ ts ++ others, x.undecided t) := by
  by_cases hdestroy : choice = .destroy t
  · subst hdestroy
    cases h with
    | destroyNow =>
        refine .inl (Nat.add_pos_right _ (List.countP_pos_iff.mpr ?_))
        exact ⟨_, List.mem_cons_self, decide_eq_true rfl⟩
    | destroyLater _ howed =>
        refine .inr ⟨update_self .., ?_⟩
        exact howed.imp_right fun hpending => .inl (Nat.pos_of_ne_zero hpending)
  have hdestroyed := (h.destroyed.mp hafter).resolve_right hdestroy
  have hnames : choice.names t = false := by
    by_contra hnot
    rw [hpermitted.named t (Bool.not_eq_false _ ▸ hnot)] at hdestroyed
    cases hdestroyed
  obtain hfreeing | ⟨hrequested, howed⟩ := hbefore.owed t hdestroyed
  · refine .inl (lt_of_lt_of_le hfreeing ?_)
    obtain hsame | ⟨hmore, -⟩ := h.frees t others
    · exact Nat.le_of_eq hsame.symm
    · omega
  · have hpool := (hbefore.requested t hrequested).2
    have hrequested' : m'.requested t = true := h.requested hdestroy ▸ hrequested
    obtain hus | hpending | ⟨x, hx, hundecided⟩ := howed
    · refine .inr ⟨hrequested', ?_⟩
      obtain hus' | ⟨x, hx, hundecided⟩ | hcancels | hnamed := h.dequeued hus
      · exact .inl hus'
      · exact .inr (.inr ⟨x, List.mem_append_left _ hx, hundecided⟩)
      · rw [hbefore.canceled t hdestroyed thread List.mem_cons_self] at hcancels
        cases hcancels
      · rw [hnames] at hnamed
        cases hnamed
    · obtain hpending' | ⟨rfl, -, rfl⟩ := h.numPending hpending
      · exact .inr ⟨hrequested', .inr (.inl hpending')⟩
      · refine .inl (Nat.add_pos_right _ (List.countP_pos_iff.mpr ?_))
        rw [hrequested]
        exact ⟨_, List.mem_cons_self, decide_eq_true rfl⟩
    · refine .inr ⟨hrequested', .inr ?_⟩
      obtain rfl | hothers := List.mem_cons.mp hx
      · refine .inl ((h.undecided hundecided).resolve_right fun hpoolless => ?_)
        rw [hbefore.poolless t x List.mem_cons_self hpoolless] at hpool
        cases hpool
      · exact .inr ⟨x, List.mem_append_right _ hothers, hundecided⟩

/-- No ULT is left when the list is freed. -/
theorem Does.detached (h : Does us m thread choice us' m' ts)
    (hcounted : Counted m (thread :: others)) (hbefore : Owned us m (thread :: others))
    (hpermitted : Permitted us m (thread :: others) thread choice)
    (hafter : m'.listFreed = true) : ∀ x ∈ ts ++ others, x.attached = false := by
  intro x hx
  obtain hfreed | ⟨rfl, rfl⟩ := h.listFreed hafter
  · have hattached := hbefore.listFreed hfreed
    obtain hts | hothers := List.mem_append.mp hx
    · by_contra hnot
      obtain hthread | hholds := h.attached x hts (Bool.not_eq_false _ ▸ hnot)
      · rw [hattached thread List.mem_cons_self] at hthread
        cases hthread
      · have hlocked := hcounted.locked
        have hle := Bool.toNat_le m.listLocked
        rw [hfreed, List.countP_cons, if_pos hholds, Bool.toNat_true] at hlocked
        omega
    · exact hattached x (List.mem_cons_of_mem thread hothers)
  · have hx' := List.mem_cons_of_mem Thread.listCleanup hx
    have hnone := hbefore.cleanup List.mem_cons_self
    rw [hcounted.listPending] at hnone
    have hcounted' := List.countP_eq_zero.mp hnone x hx'
    cases x with
    | listSignal => exact absurd hx' (hpermitted.listFreed rfl)
    | _ => exact Bool.eq_false_iff.mpr hcounted'

/-- A step keeps the owners of the timers. -/
theorem Does.owned (h : Does us m thread choice us' m' ts)
    (hcounted : Counted m (thread :: others)) (hbefore : Owned us m (thread :: others))
    (hpermitted : Permitted us m (thread :: others) thread choice) :
    Owned us' m' (ts ++ others) := by
  have hothers : ∀ {x}, x ∈ others → x ∈ thread :: others := fun hx =>
    List.mem_cons_of_mem thread hx
  have hthread : thread ∈ thread :: others := List.mem_cons_self
  have hcalls : ∀ t, m'.destroyed t = true → ∀ x ∈ ts ++ others,
      x.cancels t = false ∧ x.starts t = false := by
    intro t ht x hx
    have hbefore' : ∀ x ∈ thread :: others, x.cancels t = false ∧ x.starts t = false := by
      obtain hdestroyed | hdestroy := h.destroyed.mp ht
      · exact fun x hx => ⟨hbefore.canceled t hdestroyed x hx, hbefore.started t hdestroyed x hx⟩
      · exact hpermitted.destroyed t hdestroy
    obtain hx | hx := List.mem_append.mp hx
    · by_contra hnot
      have hcall : x.starts t ∨ x.cancels t := by simpa [or_iff_not_imp_right] using hnot
      obtain hthread' | ⟨hnames, hdestroy⟩ := h.calls x hx hcall
      · obtain ⟨hcancels, hstarts⟩ := hbefore' thread hthread
        simp [hcancels, hstarts] at hthread'
      · have hdestroyed := (h.destroyed.mp ht).resolve_right hdestroy
        rw [hpermitted.named t hnames] at hdestroyed
        cases hdestroyed
    · exact hbefore' x (hothers hx)
  constructor
  case remaining =>
    intro x hx
    obtain hx | hx := List.mem_append.mp hx
    · exact h.remaining (hbefore.remaining thread hthread) x hx
    · exact hbefore.remaining x (hothers hx)
  case pooled =>
    intro t x hx hpooled
    rw [h.hasPool]
    obtain hx | hx := List.mem_append.mp hx
    · exact (h.pooled x hx hpooled).elim (hbefore.pooled t thread hthread) id
    · exact hbefore.pooled t x (hothers hx) hpooled
  case poolless =>
    intro t x hx hpoolless
    rw [h.hasPool]
    obtain hx | hx := List.mem_append.mp hx
    · exact (h.poolless x hx hpoolless).elim (hbefore.poolless t thread hthread) id
    · exact hbefore.poolless t x (hothers hx) hpoolless
  case requested =>
    intro t ht
    rw [h.hasPool, h.destroyed]
    by_cases hdestroy : choice = .destroy t
    · refine ⟨.inr hdestroy, ?_⟩
      subst hdestroy
      cases h with
      | destroyNow => simp at ht
      | destroyLater _ howed =>
          obtain hus | hpending := howed
          · exact hpermitted.queued t rfl hus
          · rw [hcounted.pending t, ← Nat.pos_iff_ne_zero, List.countP_pos_iff] at hpending
            obtain ⟨x, hx, hpending⟩ := hpending
            exact hbefore.pooled t x hx (Thread.pooled_of_pending hpending)
    · rw [h.requested hdestroy] at ht
      exact (hbefore.requested t ht).imp_left .inl
  case canceled => exact fun t ht x hx => (hcalls t ht x hx).1
  case started => exact fun t ht x hx => (hcalls t ht x hx).2
  case freeing => exact fun t => h.freeing hcounted hbefore hpermitted
  case signaled =>
    intro t ht
    have hbefore' : (∀ x ∈ thread :: others, x.signals t = false) ∧ thread.works t = false := by
      obtain hfreed | hfreer := h.freed ht
      · have hfreeing := hbefore.freeing t (Nat.add_pos_left hfreed _)
        exact ⟨hbefore.signaled t hfreed, hfreeing.2.2.2 thread hthread⟩
      · refine ⟨hpermitted.freed t hfreer, ?_⟩
        obtain rfl | rfl := hfreer
        all_goals rfl
    intro x hx
    obtain hx | hx := List.mem_append.mp hx
    · by_contra hnot
      have hworks := h.signals x hx (Bool.not_eq_false _ ▸ hnot)
      rw [hbefore'.2] at hworks
      cases hworks
    · exact hbefore'.1 x (hothers hx)
  case owed => exact fun t => h.owed hbefore hpermitted
  case used =>
    refine List.eq_nil_iff_forall_not_mem.mpr fun t ht => ?_
    obtain hused | ⟨hfreed, haccess⟩ := h.used (hbefore.remaining thread hthread) ht
    · rw [hbefore.used] at hused
      cases hused
    · obtain ⟨-, hdestroyed, hus, hworks⟩ := hbefore.freeing t (Nat.add_pos_left hfreed _)
      obtain hmem | hwork | hsignal | (hstart | hcancel) | hname := haccess
      · exact hus hmem
      · rw [hworks thread hthread] at hwork
        cases hwork
      · rw [hbefore.signaled t hfreed thread hthread] at hsignal
        cases hsignal
      · rw [hbefore.started t hdestroyed thread hthread] at hstart
        cases hstart
      · rw [hbefore.canceled t hdestroyed thread hthread] at hcancel
        cases hcancel
      · rw [hpermitted.named t hname] at hdestroyed
        cases hdestroyed
  case cleanup =>
    intro hx
    obtain hx | hx := List.mem_append.mp hx
    · exact h.cleaned hx
    · refine (h.listPending_zero (hbefore.cleanup (hothers hx))).resolve_right fun hholds => ?_
      have hpos : 0 < others.countP Thread.holds := List.countP_pos_iff.mpr ⟨_, hx, rfl⟩
      have hlocked := hcounted.locked
      have hle := Bool.toNat_le m.listLocked
      rw [List.countP_cons, if_pos hholds] at hlocked
      omega
  case listFreed => exact h.detached hcounted hbefore hpermitted
  case listUsed =>
    by_contra hnot
    obtain hused | ⟨hfreed, hattached⟩ := h.listUsed (Bool.not_eq_false _ ▸ hnot)
    · rw [hbefore.listUsed] at hused
      cases hused
    · rw [hbefore.listFreed hfreed thread hthread] at hattached
      cases hattached

theorem Owned.perm {threads' : List (Thread τ κ)} (h : Owned us m threads)
    (hperm : threads.Perm threads') : Owned us m threads' := by
  have hmem : ∀ {x}, x ∈ threads' → x ∈ threads := fun hx => hperm.mem_iff.mpr hx
  have hcount : ∀ t, threads'.countP (Thread.frees t) = threads.countP (Thread.frees t) :=
    fun t => (hperm.countP_eq (Thread.frees t)).symm
  constructor
  case remaining => exact fun x hx => h.remaining x (hmem hx)
  case pooled => exact fun t x hx => h.pooled t x (hmem hx)
  case poolless => exact fun t x hx => h.poolless t x (hmem hx)
  case requested => exact h.requested
  case canceled => exact fun t ht x hx => h.canceled t ht x (hmem hx)
  case started => exact fun t ht x hx => h.started t ht x (hmem hx)
  case freeing =>
    intro t ht
    rw [hcount] at ht ⊢
    obtain ⟨hone, hdestroyed, hus, hworks⟩ := h.freeing t ht
    exact ⟨hone, hdestroyed, hus, fun x hx => hworks x (hmem hx)⟩
  case signaled => exact fun t ht x hx => h.signaled t ht x (hmem hx)
  case owed =>
    intro t ht
    rw [hcount]
    obtain hfreeing | ⟨hrequested, hus | hpending | ⟨x, hx, hundecided⟩⟩ := h.owed t ht
    · exact .inl hfreeing
    · exact .inr ⟨hrequested, .inl hus⟩
    · exact .inr ⟨hrequested, .inr (.inl hpending)⟩
    · exact .inr ⟨hrequested, .inr (.inr ⟨x, hperm.mem_iff.mp hx, hundecided⟩)⟩
  case used => exact h.used
  case cleanup => exact fun hx => h.cleanup (hmem hx)
  case listFreed => exact fun ht x hx => h.listFreed ht x (hmem hx)
  case listUsed => exact h.listUsed

end

/-! ## Every run -/

/-- A timer without a pool is not destroyed while it is queued, and none is while
it was taken out of the queue and its ULT is not counted or its callback not called.
A ULT does not find that it is the last one of a destroyed timer that is queued again
or about to be counted again. Nothing is freed that is about to be signaled. -/
def Careful (s : Threads τ κ) (a : Move τ κ) : Prop :=
  match s.threads[a.1]?, a.2 with
  | some .caller, .destroy t =>
      (s.shared.timers.links.Linked t → s.shared.timers.hasPool t = true) ∧
        (¬s.shared.timers.links.Linked t → s.shared.timers.numPending t = 0 →
          ∀ x ∈ s.threads, x.undecided t = false)
  | some (.decrement t), .go =>
      s.shared.requested t = true → s.shared.timers.numPending t = 1 →
        ¬s.shared.timers.links.Linked t ∧ ∀ x ∈ s.threads, x.undecided t = false
  | some (.cleanup t), .go | some (.destroyFree t), .go => ∀ x ∈ s.threads, x.signals t = false
  | some .listCleanup, .go => .listSignal ∉ s.threads
  | _, _ => True

instance [DecidableEq κ] (s : Threads τ κ) (a : Move τ κ) : Decidable (Careful s a) := by
  obtain ⟨i, choice⟩ := a
  unfold Careful
  split <;> infer_instance

section

variable [LinearOrder κ] [Add κ] {s s' : Threads τ κ} {us : List τ}

/-- How destroyed timers end. -/
structure Lifetime (s : Threads τ κ) : Prop where
  once : ∀ t, s.shared.freed t ≤ 1
  /-- No thread will read or write a freed timer, -/
  last : ∀ t, 0 < s.shared.freed t → s.shared.destroyed t = true ∧
    ¬s.shared.timers.links.Linked t ∧ ∀ x ∈ s.threads, x.works t = false
  /-- and one that was queued or had pending ULTs when it was destroyed does not run. -/
  finished : ∀ t, 0 < s.shared.freed t → s.shared.requested t = true →
    ∀ x ∈ s.threads, x.fires t = false
  /-- No freed timer was read or written. -/
  used : s.shared.used = []
  /-- No timer ULT has read or written the freed list. -/
  listUsed : s.shared.listUsed = false
  /-- A destroyed timer that is not freed is queued and has a pool, or some thread at
  it can go on. -/
  owed : ∀ t, s.shared.destroyed t = true → s.shared.freed t = 0 →
    s.shared.timers.links.Linked t ∧ s.shared.timers.hasPool t = true ∨
      ∃ x ∈ s.threads, (x.works t ∨ x.frees t) ∧ (program s.shared x .go).isSome
  /-- When nothing is queued and nothing goes on, the destroyed timers are freed. -/
  ended : s.shared.timers.queueHead = none → (∀ x ∈ s.threads, x = .progress ∨ x = .caller) →
    ∀ t, s.shared.destroyed t = true → s.shared.freed t = 1

theorem Thread.proceeds {m : Shared τ κ} {x : Thread τ κ} {t : τ} (h : x.works t ∨ x.frees t) :
    (program m x .go).isSome := by
  cases x with
  | count | submit | call | ult | callback | running | decrement | signal | cleanup
  | destroyFree => rfl
  | _ => simp [Thread.works, Thread.frees] at h

omit [LinearOrder κ] [Add κ] in
theorem Queued.linked (h : Queued s us) {t : τ} (ht : t ∈ us) :
    s.shared.timers.links.Linked t :=
  .inl (Lib.Links.DList.prev_ne_none h.queue.queue.hold ht)

omit [LinearOrder κ] [Add κ] in
/-- A timer has links left over only during a cancel of it. -/
theorem Queued.not_linked (h : Queued s us) {t : τ} (ht : t ∉ us)
    (hcancels : ∀ x ∈ s.threads, x.cancels t = false) : ¬s.shared.timers.links.Linked t := by
  refine mt (h.queue.queue.linked_iff fun hmem => ?_).mp ht
  simpa [Thread.cancels] using hcancels _ hmem

theorem Owned.lifetime (h : Owned us s.shared s.threads) (hqueued : Queued s us)
    (hcounted : Counted s.shared s.threads) : Lifetime s := by
  have hfreed : ∀ t, 0 < s.shared.freed t → _ := fun t ht => h.freeing t (Nat.add_pos_left ht _)
  have howed : ∀ t, s.shared.destroyed t = true → s.shared.freed t = 0 →
      t ∈ us ∧ s.shared.timers.hasPool t = true ∨ ∃ x ∈ s.threads, x.works t ∨ x.frees t := by
    intro t ht hnone
    obtain hfreeing | ⟨hrequested, hus | hpending | ⟨x, hx, hundecided⟩⟩ := h.owed t ht
    · rw [hnone, Nat.zero_add, List.countP_pos_iff] at hfreeing
      obtain ⟨x, hx, hfrees⟩ := hfreeing
      exact .inr ⟨x, hx, .inr hfrees⟩
    · exact .inl ⟨hus, (h.requested t hrequested).2⟩
    · rw [hcounted.pending t, List.countP_pos_iff] at hpending
      obtain ⟨x, hx, hpending⟩ := hpending
      exact .inr ⟨x, hx, .inl (Thread.works_of_pending hpending)⟩
    · exact .inr ⟨x, hx, .inl (Thread.works_of_undecided hundecided)⟩
  have honce : ∀ t, s.shared.freed t ≤ 1 := by
    intro t
    obtain hnone | hpos := Nat.eq_zero_or_pos (s.shared.freed t)
    · omega
    · have hone := (hfreed t hpos).1
      omega
  constructor
  case once => exact honce
  case last =>
    intro t ht
    obtain ⟨-, hdestroyed, hus, hworks⟩ := hfreed t ht
    exact ⟨hdestroyed, hqueued.not_linked hus (h.canceled t hdestroyed), hworks⟩
  case finished =>
    intro t ht hrequested x hx
    have hpool := (h.requested t hrequested).2
    have hworks := (hfreed t ht).2.2.2 x hx
    cases x with
    | called f u =>
        refine Bool.eq_false_iff.mpr fun hfires => ?_
        have hcalled : (Thread.called f u).poolless t := by
          simpa [Thread.fires, Thread.taken, Thread.pending, Thread.poolless] using hfires
        rw [h.poolless t _ hx hcalled] at hpool
        cases hpool
    | count | submit | call | ult | callback | running | decrement =>
        simpa [Thread.fires, Thread.taken, Thread.pending, Thread.works] using hworks
    | _ => rfl
  case used => exact h.used
  case listUsed => exact h.listUsed
  case owed =>
    intro t ht hnone
    obtain ⟨hus, hpool⟩ | ⟨x, hx, hgoes⟩ := howed t ht hnone
    · exact .inl ⟨hqueued.linked hus, hpool⟩
    · exact .inr ⟨x, hx, hgoes, Thread.proceeds hgoes⟩
  case ended =>
    intro hempty hidle t ht
    by_contra hnot
    have hnone : s.shared.freed t = 0 := by
      have hle := honce t
      omega
    obtain ⟨hus, -⟩ | ⟨x, hx, hgoes⟩ := howed t ht hnone
    · rw [hqueued.queue.queue.head, List.head?_eq_none_iff] at hempty
      rw [hempty] at hus
      cases hus
    · obtain rfl | rfl := hidle x hx
      all_goals simp [Thread.works, Thread.frees] at hgoes

/-- The queue, the counters and the owners are as they are supposed to be. -/
def Held (s : Threads τ κ) : Prop :=
  ∃ us, Queued s us ∧ Counted s.shared s.threads ∧ Owned us s.shared s.threads

omit [LinearOrder κ] [Add κ] in
theorem Does.permitted {a : Move τ κ} {us' : List τ} {thread : Thread τ κ}
    {ts : List (Thread τ κ)} {m' : Shared τ κ} (h : Does us s.shared thread a.2 us' m' ts)
    (hthread : s.threads[a.1]? = some thread) (hqueued : Queued s us) (hpromised : Promised s a)
    (hcareful : Careful s a) : Permitted us s.shared s.threads thread a.2 := by
  obtain ⟨i, choice⟩ := a
  have hcaller : ∀ t, choice = .destroy t → thread = .caller := by
    rintro t rfl
    cases h <;> rfl
  have hgo : thread ≠ .caller → thread ≠ .progress → choice = .go := fun hne hne' =>
    h.chooses.resolve_right (not_or.mpr ⟨hne, hne'⟩)
  constructor
  case named =>
    intro t hnames
    cases choice with
    | start u now timeout =>
        obtain rfl := of_decide_eq_true hnames
        exact hpromised.2.1
    | cancel u =>
        obtain rfl := of_decide_eq_true hnames
        exact hpromised.1
    | cancelMany ts => exact (hpromised t (of_decide_eq_true hnames)).1
    | destroy u =>
        obtain rfl := of_decide_eq_true hnames
        exact hpromised.1
    | _ => cases hnames
  case destroyed =>
    rintro t rfl
    exact hpromised.2
  case queued =>
    rintro t rfl hus
    simp only [Careful, hthread, hcaller t rfl] at hcareful
    exact hcareful.1 (hqueued.linked hus)
  case taken =>
    rintro t rfl hus hnone
    simp only [Careful, hthread, hcaller t rfl] at hcareful
    exact hcareful.2 (hqueued.not_linked hus fun x hx => (hpromised.2 x hx).1) hnone
  case last =>
    rintro t rfl hrequested hone
    cases hgo (by simp) (by simp)
    simp only [Careful, hthread] at hcareful
    obtain ⟨hlinked, hundecided⟩ := hcareful hrequested hone
    exact ⟨mt hqueued.linked hlinked, hundecided⟩
  case freed =>
    rintro t hfreer
    obtain rfl | rfl := hfreer
    all_goals
      cases hgo (by simp) (by simp)
      simpa only [Careful, hthread] using hcareful
  case listFreed =>
    rintro rfl
    cases hgo (by simp) (by simp)
    simpa only [Careful, hthread] using hcareful

theorem held_step {a : Move τ κ} (h : Held s) (hpromised : Promised s a) (horderly : Orderly s a)
    (hcareful : Careful s a) (hstep : threadStep s a = some s') : Held s' := by
  obtain ⟨us, hqueued, hcounted, howned⟩ := h
  obtain ⟨us', thread, ts, others, hthread, hqueued', hdoes, hperm, hperm'⟩ :=
    does_of_step hqueued hpromised horderly hstep
  have hcounted' := hcounted.perm hperm
  have hpermitted := (hdoes.permitted hthread hqueued hpromised hcareful).perm hperm
  refine ⟨us', hqueued', (hdoes.census hcounted').perm hperm'.symm, ?_⟩
  exact (hdoes.owned hcounted' (howned.perm hperm) hpermitted).perm hperm'.symm

omit [LinearOrder κ] [Add κ] in
theorem held_startup (created : List τ) (expiration : τ → κ) (hasPool : τ → Bool)
    (callers : Nat) : Held (startup created expiration hasPool callers) := by
  have hfrees : ∀ t, (startup created expiration hasPool callers).threads.countP
      (Thread.frees t) = 0 := fun t =>
    List.countP_eq_zero.mpr fun x hx => by simp [startup_none (Thread.frees t) rfl rfl x hx]
  refine ⟨[], queued_startup created expiration hasPool callers,
    counted_startup created expiration hasPool callers, ?_⟩
  constructor
  case remaining =>
    intro x hx
    obtain rfl | rfl := mem_startup hx
    all_goals trivial
  case pooled =>
    intro t x hx hpooled
    rw [startup_none (Thread.pooled t) rfl rfl x hx] at hpooled
    cases hpooled
  case poolless =>
    intro t x hx hpoolless
    rw [startup_none (Thread.poolless t) rfl rfl x hx] at hpoolless
    cases hpoolless
  case requested => exact fun t ht => absurd ht Bool.false_ne_true
  case canceled => exact fun t ht => absurd ht Bool.false_ne_true
  case started => exact fun t ht => absurd ht Bool.false_ne_true
  case freeing =>
    intro t ht
    rw [hfrees t] at ht
    cases ht
  case signaled => exact fun t ht => absurd ht (Nat.lt_irrefl 0)
  case owed => exact fun t ht => absurd ht Bool.false_ne_true
  case used => rfl
  case cleanup =>
    intro hx
    obtain h | h := mem_startup hx
    all_goals cases h
  case listFreed => exact fun ht => absurd ht Bool.false_ne_true
  case listUsed => rfl

/-- In every run in which the callers keep their promises and every step is orderly
and careful, every destroyed timer is freed exactly once and nothing is used after it
was freed. -/
theorem timer_lifetime {created : List τ} {expiration : τ → κ} {hasPool : τ → Bool}
    {callers : Nat} {moves : List (Move τ κ)}
    (hrun : Run threadStep (fun s a _ => Promised s a ∧ Orderly s a ∧ Careful s a)
      (startup created expiration hasPool callers) moves s) : Lifetime s := by
  have hheld : Held s :=
    hrun.invariant (fun hs hguard hstep => held_step hs hguard.1 hguard.2.1 hguard.2.2 hstep)
      (held_startup created expiration hasPool callers)
  obtain ⟨us, hqueued, hcounted, howned⟩ := hheld
  exact howned.lifetime hqueued hcounted

/-- A timer is destroyed while its ULT is pending, the ULT frees it, and then the list
is freed. -/
theorem timer_lifetime_one :
    ∃ s, Run threadStep (fun s a _ => Promised s a ∧ Orderly s a ∧ Careful s a)
        (startup [0] (fun _ => 0) (fun _ => true) 2)
        [(1, .start 0 0 1), (1, .go), (1, .go), (0, .check 2), (0, .go), (0, .go), (0, .go),
          (0, .go), (2, .destroy 0), (1, .go), (1, .go), (1, .go), (1, .go), (1, .go), (1, .go),
          (1, .go), (1, .go), (1, .listFree), (1, .go), (1, .go)] s ∧
      s.threads = [Thread.progress, .caller] ∧ Lifetime s := by
  refine (run_of_exec_map (f := Config.threads) ?_).imp fun s hrun =>
    ⟨hrun.1, hrun.2, timer_lifetime hrun.1⟩
  decide +kernel

/-- A queued timer without a pool is destroyed: it fires and is never freed. -/
theorem destroyed_leaks :
    ¬∀ (created : List Nat) (expiration : Nat → Nat) (hasPool : Nat → Bool) (callers : Nat)
      (moves : List (Move Nat Nat)) (s : Threads Nat Nat),
      Run threadStep (fun s a _ => Promised s a)
        (startup created expiration hasPool callers) moves s → Lifetime s := by
  intro hall
  let moves : List (Move Nat Nat) :=
    [(1, .start 0 0 1), (1, .go), (1, .go), (1, .destroy 0), (0, .check 2), (0, .go), (0, .go),
      (0, .go), (0, .go)]
  have hexec : (exec threadStep (fun s a _ => Promised s a)
      (startup [0] (fun _ => 0) (fun _ => false) 1) moves).map
        (fun s => (s.threads, s.shared.timers.queueHead, s.shared.destroyed 0, s.shared.freed 0)) =
      some ([.progress, .caller], none, true, 0) := by decide +kernel
  obtain ⟨s, hrun, hend⟩ := run_of_exec_map hexec
  simp only [Prod.mk.injEq] at hend
  obtain ⟨hthreads, hempty, hdestroyed, hnone⟩ := hend
  have hfreed := (hall _ _ _ _ _ _ hrun).ended hempty (by simp [hthreads]) 0 hdestroyed
  rw [hnone] at hfreed
  cases hfreed

/-- The other careless steps. A ULT signals a timer that `margo_timer_destroy` freed;
a timer is freed before its ULT is counted; a ULT frees a timer that was started
again; a ULT signals the list that `__margo_timer_list_free` freed. -/
theorem careless :
    (∃ s, Run threadStep (fun s a _ => Promised s a ∧ Orderly s a)
      (startup [0] (fun _ => 0) (fun _ => true) 2)
      [(1, .start 0 0 1), (1, .go), (1, .go), (0, .check 2), (0, .go), (0, .go), (0, .go), (1, .go),
        (1, .go), (1, .go), (1, .go), (2, .destroy 0), (2, .go), (1, .go)]
      s ∧ s.shared.used = [(0 : Nat)]) ∧
    (∃ s, Run threadStep (fun s a _ => Promised s a ∧ Orderly s a)
      (startup [0] (fun _ => 0) (fun _ => true) 2)
      [(1, .start 0 0 1), (1, .go), (1, .go), (0, .check 2), (0, .go), (1, .destroy 0), (1, .go),
        (0, .go)] s ∧
      s.shared.used = [(0 : Nat)]) ∧
    (∃ s, Run threadStep (fun s a _ => Promised s a ∧ Orderly s a)
      (startup [0] (fun _ => 0) (fun _ => true) 2)
      [(1, .start 0 0 1), (1, .go), (1, .go), (0, .check 2), (0, .go), (0, .go), (0, .go), (0, .go),
        (2, .start 0 0 1), (2, .go), (2, .go), (2, .destroy 0), (1, .go), (1, .go), (1, .go),
        (1, .go), (1, .go), (1, .go), (0, .check 2), (0, .go)]
      s ∧ s.shared.used = [(0 : Nat), 0, 0]) ∧
    ∃ s, Run threadStep (fun s a _ => Promised s a ∧ Orderly s a)
      (startup [(0 : Nat)] (fun _ => (0 : Nat)) (fun _ => true) 2)
      [(1, .start 0 0 1), (1, .go), (1, .go), (2, .listFree), (2, .go), (2, .go), (2, .go),
        (2, .go), (3, .go), (3, .go), (3, .go), (3, .go), (3, .go), (3, .go), (2, .go), (2, .go),
        (2, .go)] s ∧
      s.shared.listUsed = true := by
  refine ⟨?_, ?_, ?_, ?_⟩
  · exact run_of_exec_map (by decide +kernel)
  · exact run_of_exec_map (by decide +kernel)
  · exact run_of_exec_map (by decide +kernel)
  · exact run_of_exec_map (by decide +kernel)

end

end Margo.Timer
