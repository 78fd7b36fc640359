import Margo.Timer.Calls
import Mathlib.Data.Nat.Basic

/-!
# The timers of an instance are alarms

What the timers are for: an alarm is set for a point in time, is cleared or goes
off when that point has passed, and the time until the next one can be asked
for. Alarms that go off together do so in the order of their times. Every run of
the timer functions is a run of the alarms.
-/

namespace Margo.Timer

open Function Lib.Runs

universe u

variable {τ κ : Type u} [DecidableEq τ] [LinearOrder κ]

/-- The alarms, with the times of those that are set, and the calls in progress. -/
structure Alarms (τ κ : Type u) where
  created : List τ
  hasPool : τ → Bool
  /-- When the alarm goes off that was set, and not cleared since. -/
  armed : τ → Option κ
  canceled : τ → Bool
  ults : List τ
  waiting : List τ
  calls : List τ
  replies : List (Reply κ)

def Alarms.none : Alarms τ κ :=
  ⟨[], fun _ => false, fun _ => .none, fun _ => false, [], [], [], []⟩

def Alarms.reply (a : Alarms τ κ) (reply : Reply κ) : Alarms τ κ :=
  { a with replies := a.replies ++ [reply] }

/-- Clear some alarms. -/
def Alarms.clear (a : Alarms τ κ) (timers : List τ) : Alarms τ κ :=
  { a with armed := fun t => if t ∈ timers then .none else a.armed t }

/-- The alarms that have passed go off. -/
structure Alarms.Due (a : Alarms τ κ) (now : κ) (fired : List τ) : Prop where
  nodup : fired.Nodup
  due : ∀ t, t ∈ fired ↔ ∃ e ∈ a.armed t, e < now
  sorted : fired.Pairwise fun t u => ∀ e ∈ a.armed t, ∀ e' ∈ a.armed u, e ≤ e'

inductive Alarms.Step [Zero κ] [Add κ] [Sub κ] (a : Alarms τ κ) : Label τ κ → Alarms τ κ → Prop
  | create {t : τ} {pool : Bool} (hidle : a.waiting = []) (hnew : t ∉ a.created) :
      Step a (.create t pool) (reply { a with
        created := t :: a.created
        hasPool := update a.hasPool t pool
        canceled := update a.canceled t false } (.code 0))
  | refuse {t : τ} {now timeout : κ} (hidle : a.waiting = []) (ht : t ∈ a.created)
      (hbusy : a.armed t ≠ .none ∨ a.canceled t = true) :
      Step a (.start t now timeout) (a.reply (.code (-1)))
  | start {t : τ} {now timeout : κ} (hidle : a.waiting = []) (ht : t ∈ a.created)
      (harmed : a.armed t = .none) (hcanceled : a.canceled t = false) :
      Step a (.start t now timeout)
        (reply { a with armed := update a.armed t (some (now + timeout)) } (.code 0))
  | cancel {t : τ} (hidle : a.waiting = []) (ht : t ∈ a.created) :
      Step a (.cancel t)
        { a.clear [t] with canceled := update a.canceled t true, waiting := [t] }
  | cancelNone (hidle : a.waiting = []) : Step a (.cancelMany []) (a.reply (.code 0))
  | cancelMany {t : τ} {ts : List τ} (hidle : a.waiting = [])
      (hts : ∀ u ∈ t :: ts, u ∈ a.created) :
      Step a (.cancelMany (t :: ts)) { a.clear (t :: ts) with
        canceled := fun u => if u ∈ t :: ts then true else a.canceled u
        waiting := t :: ts }
  | check {now : κ} {fired : List τ} (hidle : a.waiting = []) (hdue : a.Due now fired) :
      Step a (.check now) { a.clear fired with
        ults := a.ults ++ fired.filter a.hasPool
        calls := a.calls ++ fired.filter (!a.hasPool ·) }
  | nextNone {now : κ} (hidle : a.waiting = []) (hnone : ∀ t, a.armed t = .none) :
      Step a (.next now) (a.reply (.next (-1) .none))
  | next {now e : κ} {t : τ} (hidle : a.waiting = []) (hfirst : a.armed t = some e)
      (hmin : ∀ u, ∀ e' ∈ a.armed u, e ≤ e') :
      Step a (.next now) (a.reply (.next 0 (some (e - now))))
  | ult {t : τ} (ht : t ∈ a.ults) :
      Step a (.ult t) { a with
        ults := a.ults.erase t
        calls := a.calls ++ if a.canceled t then [] else [t] }
  | awake {t : τ} {rest : List τ} (hwaiting : a.waiting = t :: rest) (hults : t ∉ a.ults) :
      Step a .awake { a with
        canceled := update a.canceled t false
        waiting := rest
        replies := a.replies ++ if rest = [] then [.code 0] else [] }

/-! ## Refinement -/

/-- The list of the instance holds the alarms that are set. -/
structure Refines (s : State τ κ) (us : List τ) (a : Alarms τ κ) : Prop where
  queue : QueueOf s.timers us fun _ => False
  armed : ∀ t, a.armed t = if t ∈ us then some (s.timers.expiration t) else none
  created : s.timers.created = a.created
  hasPool : s.timers.hasPool = a.hasPool
  canceled : s.timers.canceled = a.canceled
  ults : s.ults = a.ults
  waiting : s.waiting = a.waiting
  calls : s.calls = a.calls
  replies : s.replies = a.replies
  numPending : ∀ t, s.timers.numPending t = s.ults.count t
  listPending : s.timers.listPending = s.ults.length
  destroyRequested : s.timers.destroyRequested = false
  ultsCreated : ∀ t ∈ s.ults, t ∈ s.timers.created

section

variable {s : State τ κ} {us : List τ} {a : Alarms τ κ} {t : τ}

theorem Refines.armed_iff (h : Refines s us a) : a.armed t = none ↔ t ∉ us := by
  rw [h.armed]
  split
  · next hmem => simpa using hmem
  · next hmem => simpa using hmem

theorem Refines.mem_armed (h : Refines s us a) {e : κ} :
    e ∈ a.armed t ↔ t ∈ us ∧ s.timers.expiration t = e := by
  rw [h.armed]
  split
  · next hmem => simp [hmem]
  · next hmem => simp [hmem]

omit [DecidableEq τ] in
/-- In a sorted list, those that expire before `now` come first. -/
theorem takeWhile_sorted {expiration : τ → κ} {us : List τ} (h : SortedBy expiration us) (now : κ) :
    us.takeWhile (expiration · < now) = us.filter (expiration · < now) ∧
      us.dropWhile (expiration · < now) = us.filter (¬expiration · < now) := by
  induction us with
  | nil => exact ⟨rfl, rfl⟩
  | cons t us ih =>
      obtain ⟨hfirst, hrest⟩ := List.pairwise_cons.mp h
      by_cases hexpired : expiration t < now
      · obtain ⟨htake, hdrop⟩ := ih hrest
        constructor
        · rw [List.takeWhile_cons_of_pos (by simpa using hexpired), htake,
            List.filter_cons_of_pos (by simpa using hexpired)]
        · rw [List.dropWhile_cons_of_pos (by simpa using hexpired), hdrop,
            List.filter_cons_of_neg (by simpa using hexpired)]
      · have hlater : ∀ u ∈ us, ¬expiration u < now := by
          intro u hu hlt
          exact hexpired (lt_of_le_of_lt (hfirst u hu) hlt)
        constructor
        · rw [List.takeWhile_cons_of_neg (by simpa using hexpired),
            List.filter_cons_of_neg (by simpa using hexpired), eq_comm]
          exact List.filter_eq_nil_iff.mpr fun u hu => by simpa using hlater u hu
        · rw [List.dropWhile_cons_of_neg (by simpa using hexpired),
            List.filter_cons_of_pos (by simpa using hexpired), eq_comm, List.cons.injEq]
          exact ⟨rfl, List.filter_eq_self.mpr fun u hu => by simpa using hlater u hu⟩

/-! ## Single calls -/

/-- A new timer is in no list. -/
theorem Refines.create [Zero κ] (h : Refines s us a) (hnew : t ∉ s.timers.created) (pool : Bool) :
    ∃ timers, margoTimerCreateWithPool s.timers t pool = (timers, 0) ∧
      Refines (State.reply { s with timers } (.code 0)) us (Alarms.reply { a with
        created := t :: a.created
        hasPool := update a.hasPool t pool
        canceled := update a.canceled t false } (.code 0)) := by
  have ht : t ∉ us := fun hmem => hnew (h.queue.created t hmem)
  have hults : t ∉ s.ults := fun hmem => hnew (h.ultsCreated t hmem)
  have hother {u : τ} (hu : u ∈ us) : u ≠ t := ne_of_mem_of_not_mem hu ht
  refine ⟨_, if_neg (by rw [h.destroyRequested]; exact Bool.false_ne_true), ?_⟩
  constructor
  · refine ⟨⟨(h.queue.queue.clear ht).mono fun _ _ hstale => hstale.2, ?_⟩, ?_⟩
    · exact fun u hu => List.mem_cons_of_mem t (h.queue.created u hu)
    · exact h.queue.sorted.congr fun u hu => update_of_ne (hother hu) ..
  · intro u
    refine (h.armed u).trans ?_
    by_cases hu : u ∈ us
    · rw [if_pos hu, if_pos hu]
      exact congrArg some (update_of_ne (hother hu) ..).symm
    · rw [if_neg hu, if_neg hu]
  · exact congrArg _ h.created
  · exact congrArg (update · t pool) h.hasPool
  · exact congrArg (update · t false) h.canceled
  · exact h.ults
  · exact h.waiting
  · exact h.calls
  · exact congrArg (· ++ _) h.replies
  · intro u
    by_cases hu : u = t
    · rw [hu]
      exact (update_self ..).trans (List.count_eq_zero.mpr hults).symm
    · exact (update_of_ne hu ..).trans (h.numPending u)
  · exact h.listPending
  · exact h.destroyRequested
  · exact fun u hu => List.mem_cons_of_mem t (h.ultsCreated u hu)

/-- `margo_timer_start` of a timer that is in the queue or canceled. -/
theorem Refines.refuse [Add κ] (h : Refines s us a)
    (hbusy : a.armed t ≠ none ∨ a.canceled t = true) (now timeout : κ) :
    margoTimerStart s.timers t now timeout = some (s.timers, -1) := by
  have hlinked := h.queue.queue.linked_iff (t := t) not_false
  apply if_pos
  obtain harmed | hcanceled := hbusy
  · exact .inl (hlinked.mpr (not_not.mp (mt h.armed_iff.mpr harmed)))
  · exact .inr (.inl (h.canceled ▸ hcanceled))

/-- Any other call of `margo_timer_start` sets the alarm. -/
theorem Refines.start [Add κ] (h : Refines s us a) (ht : t ∈ s.timers.created)
    (harmed : a.armed t = none) (hcanceled : a.canceled t = false) (now timeout : κ) :
    ∃ timers us', margoTimerStart s.timers t now timeout = some (timers, 0) ∧
      Refines (State.reply { s with timers } (.code 0)) us'
        (Alarms.reply { a with armed := update a.armed t (some (now + timeout)) } (.code 0)) := by
  have hnot : t ∉ us := h.armed_iff.mp harmed
  obtain ⟨links, us', hstart, hqueue, hperm⟩ := margoTimerStart_spec h.queue hnot not_false ht
    (h.canceled ▸ hcanceled) h.destroyRequested now timeout
  refine ⟨_, us', hstart, hqueue, ?_, h.created, h.hasPool, h.canceled, h.ults, h.waiting, h.calls,
    congrArg (· ++ _) h.replies, h.numPending, h.listPending, h.destroyRequested, h.ultsCreated⟩
  intro u
  change update a.armed t (some (now + timeout)) u =
    if u ∈ us' then some (update s.timers.expiration t (now + timeout) u) else none
  simp only [hperm.mem_iff, List.mem_cons]
  by_cases hu : u = t
  · rw [hu, update_self, update_self, if_pos (.inl rfl)]
  · rw [update_of_ne hu, update_of_ne hu, h.armed]
    simp [hu]

/-- Timers are canceled: their alarms are cleared. -/
theorem Refines.cleared (h : Refines s us a) {ts : List τ} {links : Links τ} {queueHead : Option τ}
    {canceled canceled' : τ → Bool}
    (hqueue : Listed { s.timers with links, queueHead, canceled } (us.filter (· ∉ ts))
      fun _ => False) (hcanceled : canceled = canceled') :
    Refines { s with timers := { s.timers with links, queueHead, canceled }, waiting := ts }
      (us.filter (· ∉ ts)) { a.clear ts with canceled := canceled', waiting := ts } := by
  refine ⟨⟨hqueue, h.queue.sorted.filter _⟩, ?_, h.created, h.hasPool, hcanceled, h.ults, rfl,
    h.calls, h.replies, h.numPending, h.listPending, h.destroyRequested, h.ultsCreated⟩
  intro u
  change (if u ∈ ts then none else a.armed u) = _
  rw [h.armed]
  by_cases hu : u ∈ ts
  · simp [hu]
  · simp [hu]

/-- `__margo_check_timers`: the alarms that have passed go off. -/
theorem Refines.check (h : Refines s us a) (now : κ) :
    ∃ timers, checkTimers s.timers now = some (timers, us.filter (s.timers.expiration · < now)) ∧
      a.Due now (us.filter (s.timers.expiration · < now)) ∧
      Refines { s with
          timers
          ults := s.ults ++ (us.filter (s.timers.expiration · < now)).filter s.timers.hasPool
          calls := s.calls ++ (us.filter (s.timers.expiration · < now)).filter
            (!s.timers.hasPool ·) }
        (us.filter (¬s.timers.expiration · < now))
        { a.clear (us.filter (s.timers.expiration · < now)) with
          ults := a.ults ++ (us.filter (s.timers.expiration · < now)).filter a.hasPool
          calls := a.calls ++
            (us.filter (s.timers.expiration · < now)).filter (!a.hasPool ·) } := by
  obtain ⟨timers, hcheck, hqueue, hfired⟩ := checkLoop_spec now h.queue h.queue.length_le
  obtain ⟨htake, hdrop⟩ := takeWhile_sorted h.queue.sorted now
  rw [htake] at hcheck hfired
  rw [hdrop] at hqueue
  refine ⟨timers, hcheck, ?_, ?_⟩
  · constructor
    · exact h.queue.queue.hold.1.filter _
    · intro t
      simp only [h.mem_armed, List.mem_filter, decide_eq_true_eq]
      constructor
      · exact fun ⟨hmem, hlt⟩ => ⟨_, ⟨hmem, rfl⟩, hlt⟩
      · rintro ⟨e, ⟨hmem, rfl⟩, hlt⟩
        exact ⟨hmem, hlt⟩
    · apply (h.queue.sorted.filter _).imp
      intro t u htu e he e' he'
      obtain ⟨-, rfl⟩ := h.mem_armed.mp he
      obtain ⟨-, rfl⟩ := h.mem_armed.mp he'
      exact htu
  · refine ⟨hqueue, ?_, hfired.created.trans h.created, hfired.hasPool.trans h.hasPool,
      hfired.canceled.trans h.canceled, ?_, h.waiting, ?_, h.replies, ?_, ?_,
      hfired.destroyRequested.trans h.destroyRequested, ?_⟩
    · intro u
      change (if u ∈ _ then none else a.armed u) = _
      rw [h.armed, hfired.expiration]
      by_cases hu : u ∈ us
      · by_cases hlt : s.timers.expiration u < now
        · simp [hu, hlt]
        · simp [hu, hlt]
      · simp [hu]
    · rw [h.ults, h.hasPool]
    · rw [h.calls, h.hasPool]
    · intro u
      rw [hfired.numPending, h.numPending, List.count_append]
    · rw [hfired.listPending, h.listPending, List.length_append]
    · intro u hu
      rw [hfired.created]
      obtain hu | hu := List.mem_append.mp hu
      · exact h.ultsCreated u hu
      · exact h.queue.created u (List.mem_filter.mp (List.mem_filter.mp hu).1).1

/-- `__margo_timer_get_next_expiration`: the head of the queue is the next alarm. -/
theorem Refines.next [Sub κ] (h : Refines s us a) (now : κ) :
    us = [] ∧ getNextExpiration s.timers now = (-1, none) ∨
      ∃ t ∈ us, getNextExpiration s.timers now = (0, some (s.timers.expiration t - now)) ∧
        ∀ u ∈ us, s.timers.expiration t ≤ s.timers.expiration u := by
  have hhead := h.queue.queue.head
  cases us with
  | nil =>
      refine .inl ⟨rfl, ?_⟩
      rw [getNextExpiration, hhead]
      rfl
  | cons t us =>
      refine .inr ⟨t, List.mem_cons_self, ?_, ?_⟩
      · rw [getNextExpiration, hhead]
        rfl
      · intro u hu
        obtain rfl | hu := List.mem_cons.mp hu
        · exact le_rfl
        · exact (List.pairwise_cons.mp h.queue.sorted).1 u hu

/-- `timer_ult`. -/
theorem Refines.ult (h : Refines s us a) (ht : t ∈ s.ults) :
    Refines { s with
        timers := (timerUlt s.timers t).1
        ults := s.ults.erase t
        calls := s.calls ++ (timerUlt s.timers t).2 } us
      { a with
        ults := a.ults.erase t
        calls := a.calls ++ if a.canceled t then [] else [t] } := by
  refine ⟨⟨⟨h.queue.queue, h.queue.created⟩, h.queue.sorted⟩, h.armed, h.created, h.hasPool,
    h.canceled, ?_, h.waiting, ?_, h.replies, ?_, ?_, h.destroyRequested, ?_⟩
  · exact congrArg (·.erase t) h.ults
  · change s.calls ++ (if s.timers.canceled t then [] else [t]) = _
    rw [h.calls, h.canceled]
  · intro u
    change update s.timers.numPending t (s.timers.numPending t - 1) u = (s.ults.erase t).count u
    rw [List.count_erase]
    by_cases hu : u = t
    · rw [hu, update_self, h.numPending]
      simp
    · rw [update_of_ne hu, h.numPending]
      simp [Ne.symm hu]
  · change s.timers.listPending - 1 = (s.ults.erase t).length
    rw [h.listPending, List.length_erase_of_mem ht]
  · exact fun u hu => h.ultsCreated u (List.mem_of_mem_erase hu)

/-- The wait for a canceled timer is over. -/
theorem Refines.awake [Zero κ] [Add κ] [Sub κ] (h : Refines s us a) {rest : List τ}
    (hwaiting : s.waiting = t :: rest) :
    ∃ s', act s .awake = some s' ∧ Refines s' us { a with
      canceled := update a.canceled t false
      waiting := rest
      replies := a.replies ++ if rest = [] then [.code 0] else [] } := by
  simp only [act, hwaiting]
  have hcanceled : update s.timers.canceled t false = update a.canceled t false :=
    congrArg (update · t false) h.canceled
  have h' (replies : List (Reply κ)) : Refines { s with
        timers := s.timers.setCanceled t false
        waiting := rest
        replies := s.replies ++ replies } us { a with
      canceled := update a.canceled t false
      waiting := rest
      replies := a.replies ++ replies } :=
    ⟨⟨⟨h.queue.queue, h.queue.created⟩, h.queue.sorted⟩, h.armed, h.created, h.hasPool, hcanceled,
      h.ults, rfl, h.calls, congrArg (· ++ replies) h.replies, h.numPending, h.listPending,
      h.destroyRequested, h.ultsCreated⟩
  by_cases hlast : rest = []
  · refine ⟨_, rfl, ?_⟩
    rw [if_pos hlast, if_pos hlast]
    exact h' _
  · refine ⟨_, rfl, ?_⟩
    rw [if_neg hlast, if_neg hlast]
    have hplain := h' []
    rw [List.append_nil] at hplain
    exact hplain

/-! ## Runs -/

variable [Zero κ] [Add κ] [Sub κ] {l : Label τ κ}

/-- The timers can do every allowed step, and it is a step of the alarms. -/
theorem Refines.act_spec (h : Refines s us a) (hallowed : Allowed s l) :
    ∃ s' us' a', act s l = some s' ∧ a.Step l a' ∧ Refines s' us' a' := by
  cases l with
  | create t pool =>
      obtain ⟨hidle, hnew⟩ := hallowed
      obtain ⟨timers, hcreate, h'⟩ := h.create hnew pool
      refine ⟨_, us, _, ?_, .create (h.waiting ▸ hidle) (h.created ▸ hnew), h'⟩
      rw [act, hcreate]
  | start t now timeout =>
      obtain ⟨hidle, ht⟩ := hallowed
      have hidle' : a.waiting = [] := h.waiting ▸ hidle
      have ht' : t ∈ a.created := h.created ▸ ht
      by_cases hbusy : a.armed t ≠ none ∨ a.canceled t = true
      · refine ⟨s.reply (.code (-1)), us, _, ?_, .refuse hidle' ht' hbusy, ?_⟩
        · rw [act, h.refuse hbusy]
          rfl
        · exact { h with replies := congrArg (· ++ _) h.replies }
      · obtain ⟨harmed, hcanceled⟩ := not_or.mp hbusy
        have harmed' : a.armed t = none := not_not.mp harmed
        have hcanceled' : a.canceled t = false := Bool.eq_false_iff.mpr hcanceled
        obtain ⟨timers, us', hstart, h'⟩ := h.start ht harmed' hcanceled' now timeout
        refine ⟨_, us', _, ?_, .start hidle' ht' harmed' hcanceled', h'⟩
        rw [act, hstart]
        rfl
  | cancel t =>
      obtain ⟨hidle, ht⟩ := hallowed
      obtain ⟨timers, links, queueHead, hunlink, hclear, hqueue⟩ :=
        cancel_one h.queue.toListed (t := t) not_false
      have hfilter : us.filter (· != t) = us.filter (· ∉ [t]) := by
        apply List.filter_congr
        intro u _
        by_cases hu : u = t
        · simp [hu]
        · simp [hu]
      rw [hclear, hfilter] at hqueue
      have h' := h.cleared hqueue (congrArg (update · t true) h.canceled)
      refine ⟨_, _, _, ?_, .cancel (h.waiting ▸ hidle) (h.created ▸ ht), h'⟩
      rw [act, hunlink, Option.map_some, hclear]
  | cancelMany ts =>
      obtain ⟨hidle, hts⟩ := hallowed
      have hidle' : a.waiting = [] := h.waiting ▸ hidle
      cases ts with
      | nil =>
          refine ⟨s.reply (.code 0), us, _, rfl, .cancelNone hidle', ?_⟩
          exact { h with replies := congrArg (· ++ _) h.replies }
      | cons t ts =>
          obtain ⟨links, queueHead, hcancel, hqueue⟩ :=
            cancelEach_spec (t :: ts) h.queue.toListed fun _ _ => not_false
          have h' := h.cleared hqueue (by rw [h.canceled])
          refine ⟨_, _, _, ?_, .cancelMany hidle' (h.created ▸ hts), h'⟩
          rw [act, hcancel]
          · rfl
          · exact List.cons_ne_nil t ts
  | check now =>
      obtain ⟨timers, hcheck, hdue, h'⟩ := h.check now
      refine ⟨_, _, _, ?_, .check (h.waiting ▸ hallowed) hdue, h'⟩
      rw [act, hcheck]
      rfl
  | next now =>
      have hidle' : a.waiting = [] := h.waiting ▸ hallowed
      obtain ⟨hnil, hnext⟩ | ⟨t, ht, hnext, hmin⟩ := h.next now
      · have hnone : ∀ t, a.armed t = none := by
          intro t
          rw [h.armed_iff, hnil]
          exact List.not_mem_nil
        refine ⟨s.reply (.next (-1) none), us, _, ?_, .nextNone hidle' hnone, ?_⟩
        · rw [act, hnext]
        · exact { h with replies := congrArg (· ++ _) h.replies }
      · have hfirst : a.armed t = some (s.timers.expiration t) := h.mem_armed.mpr ⟨ht, rfl⟩
        have hmin' : ∀ u, ∀ e ∈ a.armed u, s.timers.expiration t ≤ e := by
          intro u e he
          obtain ⟨hu, rfl⟩ := h.mem_armed.mp he
          exact hmin u hu
        refine ⟨s.reply (.next 0 (some (s.timers.expiration t - now))), us, _, ?_,
          .next hidle' hfirst hmin', ?_⟩
        · rw [act, hnext]
        · exact { h with replies := congrArg (· ++ _) h.replies }
  | ult t =>
      exact ⟨_, us, _, rfl, .ult (h.ults ▸ hallowed), h.ult hallowed⟩
  | awake =>
      obtain ⟨t, ht, hpending⟩ := hallowed
      cases hwaiting : s.waiting with
      | nil =>
          rw [hwaiting] at ht
          cases ht
      | cons u rest =>
          rw [hwaiting] at ht
          obtain rfl : u = t := Option.some.inj ht
          have hults : u ∉ a.ults := by
            rw [← h.ults, ← List.count_eq_zero, ← h.numPending]
            exact hpending
          obtain ⟨s', hact, h'⟩ := h.awake hwaiting
          exact ⟨s', us, _, hact, .awake (h.waiting ▸ hwaiting) hults, h'⟩

theorem Refines.step_spec {s' : State τ κ} (h : Refines s us a) (hstep : step s l = some s') :
    ∃ us' a', a.Step l a' ∧ Refines s' us' a' := by
  obtain ⟨hallowed, hdone⟩ := Option.ite_none_right_eq_some.mp hstep
  obtain ⟨t, us', a', hact, hstep', h'⟩ := h.act_spec hallowed
  rw [hact] at hdone
  exact ⟨us', a', hstep', Option.some.inj hdone ▸ h'⟩

omit [Add κ] [Sub κ] in
theorem refines_initial : Refines (initial : State τ κ) [] Alarms.none where
  queue :=
    { queue := isQueue_nil fun _ => ⟨rfl, rfl⟩
      sorted := List.Pairwise.nil
      created := fun _ ht => absurd ht List.not_mem_nil }
  armed _ := rfl
  created := rfl
  hasPool := rfl
  canceled := rfl
  ults := rfl
  waiting := rfl
  calls := rfl
  replies := rfl
  numPending _ := rfl
  listPending := rfl
  destroyRequested := rfl
  ultsCreated _ ht := absurd ht List.not_mem_nil

/-- What the calls do in a state whose queue holds these timers. -/
structure CallsRight (s : State τ κ) (us : List τ) : Prop where
  /-- A queued timer is not started again. -/
  start : ∀ t ∈ us, ∀ now timeout, margoTimerStart s.timers t now timeout = some (s.timers, -1)
  /-- The timers that have expired are removed and fired in order, no others. -/
  check : ∀ now, ∃ timers,
    checkTimers s.timers now = some (timers, us.filter (s.timers.expiration · < now)) ∧
      QueueOf timers (us.filter (¬s.timers.expiration · < now)) fun _ => False
  /-- The next expiration is the smallest one. -/
  next : ∀ now, us = [] ∧ getNextExpiration s.timers now = (-1, none) ∨
    ∃ t ∈ us, getNextExpiration s.timers now = (0, some (s.timers.expiration t - now)) ∧
      ∀ u ∈ us, s.timers.expiration t ≤ s.timers.expiration u

omit [Zero κ] in
theorem Refines.callsRight (h : Refines s us a) : CallsRight s us where
  start t ht now timeout := margoTimerStart_queued h.queue ht now timeout
  check now := by
    obtain ⟨timers, hcheck, -, h'⟩ := h.check now
    exact ⟨timers, hcheck, h'.queue⟩
  next now := h.next now

/-- The timer functions refine alarms. -/
theorem timers_refine_alarms {labels : List (Label τ κ)} (hrun : Run step Any initial labels s) :
    ∃ us a, Steps Alarms.Step Alarms.none labels a ∧ Refines s us a ∧ CallsRight s us ∧
      ∀ l, Allowed s l → ∃ s', step s l = some s' := by
  have hinitial : ∃ us, Refines (initial : State τ κ) us Alarms.none := ⟨[], refines_initial⟩
  obtain ⟨a, hsteps, us, h⟩ := hrun.simulation
    (S := fun s a => ∃ us, Refines s us a) (fun ⟨us, h⟩ hstep => by
      obtain ⟨us', a', hstep', h'⟩ := h.step_spec hstep
      exact ⟨a', hstep', us', h'⟩) hinitial
  refine ⟨us, a, hsteps, h, h.callsRight, ?_⟩
  intro l hallowed
  obtain ⟨s', -, -, hact, -⟩ := h.act_spec hallowed
  exact ⟨s', (if_pos hallowed).trans hact⟩

end

/-- Two timers are started in the other order of their expirations, one of them
is canceled after it was submitted, and the other one is fired. -/
theorem timers_refine_alarms_two :
    ∃ (s : State Nat Nat) (us : List Nat) (a : Alarms Nat Nat), Refines s us a ∧ us = [] ∧
      s.calls = [2] := by
  let labels : List (Label Nat Nat) := [.create 1 true, .create 2 false, .start 1 0 5,
    .start 2 0 3, .start 2 0 4, .check 4, .check 6, .cancel 1, .ult 1, .awake]
  have hcalls : (exec step Any initial labels).map (fun s => (s.calls, s.timers.queueHead)) =
      some ([2], none) := by decide +kernel
  obtain ⟨s, hs, hlast⟩ := Option.map_eq_some_iff.mp hcalls
  obtain ⟨us, a, -, h, -, -⟩ := timers_refine_alarms (run_of_exec hs)
  obtain ⟨hcalls, hhead⟩ := Prod.mk.inj hlast
  refine ⟨s, us, a, h, ?_, hcalls⟩
  exact List.head?_eq_none_iff.mp (h.queue.queue.head.symm.trans hhead)

end Margo.Timer
