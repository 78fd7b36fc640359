import Margo.Timer.Census
import Mathlib.Data.Nat.Basic

/-!
# The guarantee of a cancel

Once a cancel of a timer has returned, no callback of the timer is running and
none is called before the next start.

## Implementation notes

A cancel that has taken a timer out of the queue keeps it out, since no call is
starting it meanwhile, and no ULT can be counted for it anymore. When the cancel
finds no pending ULT, the timer is therefore idle, and only a start ends that.
-/

namespace Margo.Timer

open Function Lib.ThreadPool Lib.Runs

universe u

variable {τ κ : Type u} [DecidableEq τ]

/-- A cancel of the timer that is past its section of the mutex of the list. -/
def Thread.removed (timer : τ) : Thread τ κ → Bool
  | .cancelClear t | .cancelWait t | .cancelReset t => timer = t
  | .manyWait ts _ | .manyReset ts _ _ => timer ∈ ts
  | _ => false

/-- A cancel of the timer that is past its wait for the timer. -/
def Thread.passed (timer : τ) : Thread τ κ → Bool
  | .cancelReset t => timer = t
  | .manyWait ts rest => timer ∈ ts ∧ timer ∉ rest
  | .manyReset ts t rest => timer = t ∨ timer ∈ ts ∧ timer ∉ rest
  | _ => false

/-- The timer is not queued, and no thread executes or starts it. -/
structure Idle (us : List τ) (threads : List (Thread τ κ)) (t : τ) : Prop where
  queue : t ∉ us
  starts : ∀ x ∈ threads, x.starts t = false
  threads : ∀ x ∈ threads, x.fires t = false

/-- Where the cancels are, and which timers are idle because of it. -/
structure Guarded (us : List τ) (m : Shared τ κ) (threads : List (Thread τ κ)) : Prop where
  removed : ∀ t, ∀ x ∈ threads, x.removed t → t ∉ us ∧ ∀ y ∈ threads, y.taken t = false
  remaining : ∀ x ∈ threads, x.Remaining
  canceling : ∀ t, ∀ x ∈ threads, x.cancels t → m.timers.canceled t = true ∨ Idle us threads t
  passed : ∀ t, ∀ x ∈ threads, x.passed t → Idle us threads t
  quiet : ∀ t, m.quiet t = true → Idle us threads t
  late : m.late = []

section

variable {us us' : List τ} {m m' : Shared τ κ} {threads ts others : List (Thread τ κ)} {t : τ}
  {thread x : Thread τ κ} {choice : Choice τ κ}

theorem Thread.cancels_of_removed (h : x.removed t) : x.cancels t := by
  cases x <;> simp_all [Thread.removed, Thread.cancels]

theorem Thread.cancels_of_passed (hremaining : x.Remaining) (h : x.passed t) : x.cancels t := by
  cases x with
  | manyReset ts u rest =>
      obtain rfl | hmem := of_decide_eq_true h
      · exact decide_eq_true (hremaining List.mem_cons_self)
      · exact decide_eq_true hmem.1
  | _ => simp_all [Thread.passed, Thread.cancels]

/-! ## What a step does to a timer -/

/-- A cancel passes its section of the mutex of the list while no thread holds it. -/
theorem Does.removed (h : Does us m thread choice us' m' ts) :
    ∀ x ∈ ts, x.removed t → thread.removed t ∨
      t ∉ us' ∧ m.listLocked = false ∧ ∀ y ∈ ts, y.taken t = false := by
  cases h with
  | cancelSection _ _ _ _ hunlocked | cancelMany _ _ _ _ hunlocked =>
      simp +contextual [Thread.removed, Thread.taken, hunlocked]
  | _ => simp +contextual [Thread.removed]

/-- A cancel begins with the store into `canceled`. -/
theorem Does.cancels (h : Does us m thread choice us' m' ts) :
    ∀ x ∈ ts, x.cancels t → thread.cancels t ∨ m'.timers.canceled t = true := by
  cases h with
  | cancel | cancelMany => simp +contextual [Thread.cancels, Timers.setCanceled]
  | _ => simp +contextual [Thread.cancels]

/-- `canceled` is reset at the end of a cancel. -/
theorem Does.canceled (h : Does us m thread choice us' m' ts) (ht : m.timers.canceled t = true) :
    m'.timers.canceled t = true ∨ thread.passed t := by
  cases h with
  | cancel timer | cancelReset timer | manyLast _ timer | manyNext _ timer =>
      by_cases heq : t = timer
      · simp [heq, Timers.setCanceled, Thread.passed]
      · simp [heq, Timers.setCanceled, ht]
  | cancelMany => simp [ht]
  | _ => exact .inl ht

/-- A cancel passes its wait for a timer when no ULT of the timer is pending. -/
theorem Does.passed (h : Does us m thread choice us' m' ts) (hthread : thread.Remaining) :
    ∀ x ∈ ts, x.passed t → thread.passed t ∨
      thread.removed t ∧ m.timers.numPending t = 0 := by
  cases h with
  | cancelWait timer hnone => simp +contextual [Thread.passed, Thread.removed, hnone]
  | manyWait timers timer rest hnone =>
      by_cases heq : t = timer
      · subst heq
        have hmem : t ∈ timers := hthread List.mem_cons_self
        simp [Thread.removed, hmem, hnone]
      · simp +contextual [Thread.passed, heq]
  | _ => simp +contextual [Thread.passed]

/-- A timer becomes quiet at the end of a cancel. -/
theorem Does.quiet (h : Does us m thread choice us' m' ts) (ht : m'.quiet t = true) :
    thread.passed t ∨ m.quiet t = true ∧ ∀ now timeout, choice ≠ .start t now timeout := by
  cases h with
  | startRefused timer | start timer =>
      by_cases heq : t = timer
      · simp [heq] at ht
      · exact .inr ⟨by simpa [heq] using ht, by simpa using fun h => absurd h.symm heq⟩
  | cancelReset timer =>
      by_cases heq : t = timer
      · simp [heq, Thread.passed]
      · simpa [heq, Thread.passed, Shared.use] using ht
  | manyLast timers timer =>
      by_cases hmem : t ∈ timers
      · simp [hmem, Thread.passed]
      · exact .inr ⟨by simpa [hmem] using ht, by simp⟩
  | _ => exact .inr ⟨ht, by simp⟩

/-- A callback that is called is called late only if its timer is quiet. -/
theorem Does.late (h : Does us m thread choice us' m' ts)
    (hquiet : ∀ t, thread.fires t → m.quiet t = false) : m'.late = m.late := by
  cases h with
  | call _ timer | callback timer =>
      have hnot : m.quiet timer = false :=
        hquiet timer (by simp [Thread.fires, Thread.taken, Thread.pending])
      simp [Shared.invoke, Shared.use, hnot]
  | _ => rfl

/-! ## Idle timers stay idle -/

/-- A step of a thread that does not start the timer. -/
theorem Does.idle (h : Does us m thread choice us' m' ts)
    (hstart : ∀ now timeout, choice ≠ .start t now timeout)
    (hidle : Idle us (thread :: others) t) : Idle us' (ts ++ others) t := by
  constructor
  · intro hmem
    obtain hus | rfl := h.queued hmem
    · exact hidle.queue hus
    · have hstarts := hidle.starts _ List.mem_cons_self
      simp [Thread.starts] at hstarts
  · intro x hx
    by_contra hstarts
    obtain hts | hothers := List.mem_append.mp hx
    · obtain hthread | ⟨now, timeout, heq⟩ := h.starts x hts (Bool.not_eq_false _ ▸ hstarts)
      · rw [hidle.starts thread List.mem_cons_self] at hthread
        cases hthread
      · exact hstart now timeout heq
    · exact hstarts (hidle.starts x (List.mem_cons_of_mem thread hothers))
  · intro x hx
    by_contra hfires
    obtain hts | hothers := List.mem_append.mp hx
    · obtain hthread | hus := h.fires x hts (Bool.not_eq_false _ ▸ hfires)
      · rw [hidle.threads thread List.mem_cons_self] at hthread
        cases hthread
      · exact hidle.queue hus
    · exact hfires (hidle.threads x (List.mem_cons_of_mem thread hothers))

/-- No timer is being executed by the holder of a free mutex. -/
theorem Counted.not_taken (h : Counted m threads) (hunlocked : m.listLocked = false)
    (hx : x ∈ threads) : x.taken t = false := by
  have hlocked := h.locked
  rw [hunlocked, Bool.toNat_false, Nat.add_eq_zero_iff] at hlocked
  have hholds := List.countP_eq_zero.mp hlocked.1 x hx
  cases x <;> first | rfl | exact absurd rfl hholds

/-- A timer that was taken out of the queue and has no pending ULT. -/
theorem Guarded.idle (h : Guarded us m threads) (hcounted : Counted m threads) (hx : x ∈ threads)
    (hremoved : x.removed t) (hnone : m.timers.numPending t = 0)
    (hapart : ∀ y ∈ threads, y.starts t = false) : Idle us threads t := by
  obtain ⟨hus, htaken⟩ := h.removed t x hx hremoved
  rw [hcounted.pending t] at hnone
  refine ⟨hus, hapart, fun y hy => ?_⟩
  rw [Thread.fires, htaken y hy, Bool.false_or]
  exact Bool.eq_false_iff.mpr (List.countP_eq_zero.mp hnone y hy)

/-- A step keeps the cancels where they are supposed to be. -/
theorem Does.guarded (h : Does us m thread choice us' m' ts)
    (hcounted : Counted m (thread :: others)) (hbefore : Guarded us m (thread :: others))
    (hstart : ∀ t now timeout, choice = .start t now timeout →
      ∀ x ∈ thread :: others, x.cancels t = false)
    (hapart : ∀ t, ∀ x ∈ thread :: others, x.cancels t →
      ∀ y ∈ thread :: others, y.starts t = false) :
    Guarded us' m' (ts ++ others) := by
  have hremaining := hbefore.remaining thread List.mem_cons_self
  -- During a cancel of a timer no start ends its idleness.
  have hidle : ∀ t, ∀ x ∈ thread :: others, x.cancels t → Idle us (thread :: others) t →
      Idle us' (ts ++ others) t := by
    intro t x hx hcancels
    apply h.idle
    rintro now timeout rfl
    rw [hstart t now timeout rfl x hx] at hcancels
    cases hcancels
  have hpassed : ∀ t, thread.passed t → Idle us' (ts ++ others) t := fun t ht =>
    hidle t thread List.mem_cons_self (Thread.cancels_of_passed hremaining ht)
      (hbefore.passed t thread List.mem_cons_self ht)
  constructor
  case removed =>
    intro t
    have hkept : ∀ x ∈ thread :: others, x.removed t →
        t ∉ us' ∧ ∀ y ∈ ts ++ others, y.taken t = false := by
      intro x hx hremoved
      obtain ⟨hus, htaken⟩ := hbefore.removed t x hx hremoved
      constructor
      · intro hmem
        obtain hus' | rfl := h.queued hmem
        · exact hus hus'
        · have hstarts := hapart t x hx (Thread.cancels_of_removed hremoved) _ List.mem_cons_self
          simp [Thread.starts] at hstarts
      · intro y hy
        obtain hts | hothers := List.mem_append.mp hy
        · by_contra hnot
          obtain hthread | hus' := h.taken y hts (Bool.not_eq_false _ ▸ hnot)
          · rw [htaken thread List.mem_cons_self] at hthread
            cases hthread
          · exact hus hus'
        · exact htaken y (List.mem_cons_of_mem thread hothers)
    intro x hx hremoved
    obtain hts | hothers := List.mem_append.mp hx
    · obtain hthread | ⟨hus', hunlocked, htaken⟩ := h.removed x hts hremoved
      · exact hkept thread List.mem_cons_self hthread
      · refine ⟨hus', fun y hy => ?_⟩
        obtain hts | hothers := List.mem_append.mp hy
        · exact htaken y hts
        · exact hcounted.not_taken hunlocked (List.mem_cons_of_mem thread hothers)
    · exact hkept x (List.mem_cons_of_mem thread hothers) hremoved
  case remaining =>
    intro x hx
    obtain hts | hothers := List.mem_append.mp hx
    · exact h.remaining hremaining x hts
    · exact hbefore.remaining x (List.mem_cons_of_mem thread hothers)
  case canceling =>
    intro t
    have hkept : ∀ x ∈ thread :: others, x.cancels t →
        m'.timers.canceled t = true ∨ Idle us' (ts ++ others) t := by
      intro x hx hcancels
      obtain hcanceled | hbusy := hbefore.canceling t x hx hcancels
      · exact (h.canceled hcanceled).imp_right (hpassed t)
      · exact .inr (hidle t x hx hcancels hbusy)
    intro x hx hcancels
    obtain hts | hothers := List.mem_append.mp hx
    · obtain hthread | hcanceled := h.cancels x hts hcancels
      · exact hkept thread List.mem_cons_self hthread
      · exact .inl hcanceled
    · exact hkept x (List.mem_cons_of_mem thread hothers) hcancels
  case passed =>
    intro t x hx ht
    obtain hts | hothers := List.mem_append.mp hx
    · obtain hthread | ⟨hremoved, hnone⟩ := h.passed hremaining x hts ht
      · exact hpassed t hthread
      · have hcancels := Thread.cancels_of_removed hremoved
        exact hidle t thread List.mem_cons_self hcancels (hbefore.idle hcounted List.mem_cons_self
          hremoved hnone (hapart t thread List.mem_cons_self hcancels))
    · have hmem := List.mem_cons_of_mem thread hothers
      exact hidle t x hmem (Thread.cancels_of_passed (hbefore.remaining x hmem) ht)
        (hbefore.passed t x hmem ht)
  case quiet =>
    intro t ht
    obtain hthread | ⟨hquiet, hnot⟩ := h.quiet ht
    · exact hpassed t hthread
    · exact h.idle hnot (hbefore.quiet t hquiet)
  case late =>
    rw [← hbefore.late]
    apply h.late
    intro t hfires
    by_contra hquiet
    have hidle := (hbefore.quiet t (Bool.not_eq_false _ ▸ hquiet)).threads thread List.mem_cons_self
    rw [hfires] at hidle
    cases hidle

theorem Idle.perm {threads' : List (Thread τ κ)} (h : Idle us threads t)
    (hperm : threads.Perm threads') : Idle us threads' t :=
  ⟨h.queue, fun x hx => h.starts x (hperm.mem_iff.mpr hx),
    fun x hx => h.threads x (hperm.mem_iff.mpr hx)⟩

theorem Guarded.perm {threads' : List (Thread τ κ)} (h : Guarded us m threads)
    (hperm : threads.Perm threads') : Guarded us m threads' where
  removed t x hx hremoved := by
    obtain ⟨hus, htaken⟩ := h.removed t x (hperm.mem_iff.mpr hx) hremoved
    exact ⟨hus, fun y hy => htaken y (hperm.mem_iff.mpr hy)⟩
  remaining x hx := h.remaining x (hperm.mem_iff.mpr hx)
  canceling t x hx hcancels :=
    (h.canceling t x (hperm.mem_iff.mpr hx) hcancels).imp_right fun hidle => hidle.perm hperm
  passed t x hx hpassed := (h.passed t x (hperm.mem_iff.mpr hx) hpassed).perm hperm
  quiet t ht := (h.quiet t ht).perm hperm
  late := h.late

end

/-! ## Every run -/

/-- The callback of the timer is running. -/
def Thread.runs (timer : τ) : Thread τ κ → Bool
  | .called _ t | .running t => timer = t
  | _ => false

/-- What a caller of a cancel may rely on. -/
structure Guaranteed (s : Threads τ κ) : Prop where
  /-- After the return of a cancel of a timer and before its next start, its callback
  has not been called, -/
  late : s.shared.late = []
  /-- and is not running. -/
  runs : ∀ t, s.shared.quiet t = true → ∀ thread ∈ s.threads, thread.runs t = false
  /-- A ULT at its test of `canceled` during a cancel of its timer skips the callback. -/
  skips : ∀ t, .ult t ∈ s.threads → (∃ thread ∈ s.threads, thread.cancels t) →
    s.shared.timers.canceled t = true

section

variable [LinearOrder κ] {s s' : Threads τ κ} {us : List τ}

omit [LinearOrder κ] in
theorem Guarded.guaranteed (h : Guarded us s.shared s.threads) : Guaranteed s where
  late := h.late
  runs t ht thread hthread := by
    have hfires := (h.quiet t ht).threads thread hthread
    cases thread with
    | called | running =>
        simpa [Thread.fires, Thread.taken, Thread.pending, Thread.runs] using hfires
    | _ => rfl
  skips t ht hcancel := by
    obtain ⟨thread, hthread, hcancels⟩ := hcancel
    refine (h.canceling t thread hthread hcancels).resolve_right fun hidle => ?_
    simpa [Thread.fires, Thread.pending] using hidle.threads _ ht

/-- The queue, the counters and the cancels are as they are supposed to be. -/
def Kept (s : Threads τ κ) : Prop :=
  ∃ us, Queued s us ∧ Counted s.shared s.threads ∧ Guarded us s.shared s.threads

omit [LinearOrder κ] in
/-- Starts and cancels of one timer do not overlap. -/
theorem Queued.apart (h : Queued s us) (t : τ) {x y : Thread τ κ} (hx : x ∈ s.threads)
    (hcancels : x.cancels t) (hy : y ∈ s.threads) : y.starts t = false := by
  by_contra hstarts
  rw [(h.started t y hy (Bool.not_eq_false _ ▸ hstarts)).2 x hx] at hcancels
  cases hcancels

theorem kept_step [Add κ] {a : Move τ κ} (h : Kept s) (hpromised : Promised s a)
    (horderly : Orderly s a) (hstep : threadStep s a = some s') : Kept s' := by
  obtain ⟨us, hqueued, hcounted, hguarded⟩ := h
  obtain ⟨us', thread, ts, others, -, hqueued', hdoes, hperm, hperm'⟩ :=
    does_of_step hqueued hpromised horderly hstep
  have hcounted' := hcounted.perm hperm
  refine ⟨us', hqueued', (hdoes.census hcounted').perm hperm'.symm, ?_⟩
  refine (hdoes.guarded hcounted' (hguarded.perm hperm) ?_ ?_).perm hperm'.symm
  · intro t now timeout ha x hx
    exact (hpromised.start ha).2.2 x (hperm.mem_iff.mpr hx)
  · intro t x hx hcancels y hy
    exact hqueued.apart t (hperm.mem_iff.mpr hx) hcancels (hperm.mem_iff.mpr hy)

omit [LinearOrder κ] in
theorem kept_startup (created : List τ) (expiration : τ → κ) (hasPool : τ → Bool)
    (callers : Nat) : Kept (startup created expiration hasPool callers) := by
  have hidle : ∀ t, Idle [] (startup created expiration hasPool callers).threads t := by
    exact fun t => ⟨List.not_mem_nil, startup_none (Thread.starts t) rfl rfl,
      startup_none (Thread.fires t) rfl rfl⟩
  refine ⟨[], queued_startup created expiration hasPool callers,
    counted_startup created expiration hasPool callers, ?_, ?_, ?_, ?_, ?_, rfl⟩
  · intro t x hx hremoved
    rw [startup_none (Thread.removed t) rfl rfl x hx] at hremoved
    cases hremoved
  · intro x hx
    obtain rfl | rfl := mem_startup hx
    all_goals trivial
  · exact fun t _ _ _ => .inr (hidle t)
  · exact fun t _ _ _ => hidle t
  · exact fun t _ => hidle t

/-- In every run in which the callers keep their promises, no section of a cancel
finds a half canceled timer and no section of a start finds its timer in the queue,
the guarantee of the cancels holds. -/
theorem cancel_guarantee [Add κ] {created : List τ} {expiration : τ → κ} {hasPool : τ → Bool}
    {callers : Nat} {moves : List (Move τ κ)}
    (hrun : Run threadStep (fun s a _ => Promised s a ∧ Orderly s a)
      (startup created expiration hasPool callers) moves s) : Guaranteed s := by
  have hkept : Kept s :=
    hrun.invariant (fun hs hguard hstep => kept_step hs hguard.1 hguard.2 hstep)
      (kept_startup created expiration hasPool callers)
  obtain ⟨us, -, -, hguarded⟩ := hkept
  exact hguarded.guaranteed

/-- Two overlapping cancels of a timer with a ULT that is not called; the first one
returns. -/
theorem cancel_guarantee_two :
    ∃ s, Run threadStep (fun s a _ => Promised s a ∧ Orderly s a)
        (startup [0] (fun _ => 0) (fun _ => true) 2)
        [(1, .start 0 0 1), (1, .go), (1, .go), (0, .check 2), (0, .go), (0, .go), (0, .go),
          (2, .cancel 0), (0, .go), (3, .cancel 0), (2, .go), (2, .go), (3, .go), (1, .go),
          (1, .go), (2, .go), (2, .go)] s ∧
      s.threads = [Thread.progress, .signal 0 false, .caller, .cancelClear 0] ∧ Guaranteed s := by
  refine (run_of_exec_map (f := Config.threads) ?_).imp fun s hrun =>
    ⟨hrun.1, hrun.2, cancel_guarantee hrun.1⟩
  decide +kernel

/-- Two cancels are stopped before they set the links of their timers to null, and
a cancel of both timers deletes the two again. The timer between them, which was
canceled meanwhile, is back in the queue, and its callback is called. -/
theorem canceled_twice :
    ¬∀ (created : List Nat) (expiration : Nat → Nat) (hasPool : Nat → Bool) (callers : Nat)
      (moves : List (Move Nat Nat)) (s : Threads Nat Nat),
      Run threadStep (fun s a _ => Promised s a)
        (startup created expiration hasPool callers) moves s → Guaranteed s := by
  intro hall
  let moves : List (Move Nat Nat) :=
    [(1, .start 0 0 1), (1, .go), (1, .go), (1, .start 1 0 2), (1, .go), (1, .go),
      (1, .start 2 0 3), (1, .go), (1, .go), (1, .start 3 0 4), (1, .go), (1, .go), (1, .cancel 1),
      (1, .go), (2, .cancel 3), (2, .go), (3, .cancel 2), (3, .go), (3, .go), (3, .go), (3, .go),
      (4, .cancelMany [1, 3]), (0, .check 5), (0, .go), (0, .go), (0, .go), (0, .go), (0, .go)]
  have hexec : (exec threadStep (fun s a _ => Promised s a)
      (startup [0, 1, 2, 3] (fun _ => 0) (fun _ => false) 4) moves).map (·.shared.late) =
      some [2] := by decide +kernel
  obtain ⟨s, hrun, hlate⟩ := run_of_exec_map hexec
  have hnone := (hall _ _ _ _ _ _ hrun).late
  rw [hlate] at hnone
  cases hnone

/-- The other part of the condition. Two overlapping starts of timer 0 pass their
tests, and the second section finds the timer in the queue. It stays there after
its cancel, and its callback is called. -/
theorem started_twice :
    ∃ s, Run threadStep (fun s a _ => Promised s a ∧ CancelsApart s a)
        (startup [0, 1, 2] (fun _ => 0) (fun _ => false) 2)
        [(1, .start 0 0 1), (2, .start 0 0 2), (1, .go), (1, .go), (1, .start 1 0 1), (1, .go),
          (1, .go), (2, .go), (2, .go), (1, .start 2 0 3), (1, .go), (1, .go), (1, .cancel 0),
          (1, .go), (1, .go), (1, .go), (1, .go), (0, .check 4), (0, .go), (0, .go), (0, .go),
          (0, .go), (0, .go)] s ∧
      s.shared.late = [(0 : Nat)] :=
  run_of_exec_map (by decide +kernel)

end

end Margo.Timer
