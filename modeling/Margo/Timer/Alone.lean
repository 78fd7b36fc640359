import Margo.Timer.Calls
import Margo.Timer.Threads

/-!
# A caller that is alone

Where one caller makes one call after the other and the progress thread checks the
timers only in between, the threads do what the timer functions do as single steps:
every run of calls that do not overlap is a run of the threads, with the same timers,
the same submitted ULTs and the same callbacks in the same order. The caller keeps its
promises in it, and the sections keep apart.

## Implementation notes

The threads of a moment are a list up to the order. The timers exist from the start, as
they do for the threads.
-/

namespace Margo.Timer

open Function Lib.ThreadPool Lib.Runs

universe u

variable {τ κ : Type u} [DecidableEq τ] [LinearOrder κ]

/-- The callback that a thread calls next. -/
def Thread.invokes : Thread τ κ → List τ
  | .call _ t | .callback t => [t]
  | _ => []

/-- The threads, and the callbacks that were called. -/
abbrev Observed (τ κ : Type u) := Threads τ κ × List τ

/-- One of the threads goes on, and the callback that it calls is noted down. -/
def observedStep [Add κ] (o : Observed τ κ) (a : Move τ κ) : Option (Observed τ κ) :=
  (threadStep o.1 a).map (·, o.2 ++ (o.1.threads[a.1]?).elim [] Thread.invokes)

/-- The callers keep their promises, and the sections keep apart. -/
def Proper (o : Observed τ κ) (a : Move τ κ) (_ : Observed τ κ) : Prop :=
  Promised o.1 a ∧ Orderly o.1 a

/-- What there is to see of the threads at a moment before any destruction. -/
structure Moment (τ κ : Type u) where
  timers : Timers τ κ
  listLocked : Bool
  threads : List (Thread τ κ)
  calls : List τ

/-- The threads are at this moment. -/
structure Moment.Shows (x : Moment τ κ) (o : Observed τ κ) : Prop where
  timers : o.1.shared.timers = x.timers
  listLocked : o.1.shared.listLocked = x.listLocked
  requested : ∀ t, o.1.shared.requested t = false
  destroyed : ∀ t, o.1.shared.destroyed t = false
  threads : o.1.threads.Perm x.threads
  calls : o.2 = x.calls

/-- From the one moment the threads can get to the other one. -/
def Moment.To [Add κ] (x y : Moment τ κ) : Prop :=
  ∀ o, x.Shows o → ∃ as o', Run observedStep Proper o as o' ∧ y.Shows o'

section

variable [Add κ] {x y z : Moment τ κ} {timers timers' : Timers τ κ} {locked locked' : Bool}
  {thread : Thread τ κ} {choice : Choice τ κ} {ts rest : List (Thread τ κ)} {calls : List τ}

theorem Moment.To.refl (x : Moment τ κ) : x.To x := fun o h => ⟨[], o, .nil o, h⟩

theorem Moment.To.trans (h : x.To y) (h' : y.To z) : x.To z := by
  intro o ho
  obtain ⟨as, o₁, hrun, ho₁⟩ := h o ho
  obtain ⟨bs, o₂, hrun', ho₂⟩ := h' o₁ ho₁
  exact ⟨as ++ bs, o₂, hrun.append hrun', ho₂⟩

/-- The order of the threads does not matter. -/
theorem Moment.To.perm (h : ts.Perm rest) :
    Moment.To ⟨timers, locked, ts, calls⟩ ⟨timers, locked, rest, calls⟩ := fun o ho =>
  ⟨[], o, .nil o, ho.timers, ho.listLocked, ho.requested, ho.destroyed, ho.threads.trans h,
    ho.calls⟩

/-- What a thread does that finds these timers. -/
def Takes (timers : Timers τ κ) (locked : Bool) (thread : Thread τ κ) (choice : Choice τ κ)
    (timers' : Timers τ κ) (locked' : Bool) (ts : List (Thread τ κ)) : Prop :=
  ∀ m : Shared τ κ, m.timers = timers → m.listLocked = locked → (∀ t, m.requested t = false) →
    ∃ m', program m thread choice = some (m', ts) ∧ m'.timers = timers' ∧
      m'.listLocked = locked' ∧ m'.requested = m.requested ∧ m'.destroyed = m.destroyed

/-- One thread takes one step. -/
theorem Takes.to {calls' : List τ} (h : Takes timers locked thread choice timers' locked' ts)
    (hcalls : calls' = calls ++ thread.invokes)
    (hproper : ∀ (s : Threads τ κ) i, s.threads[i]? = some thread →
      s.threads.Perm (thread :: rest) → s.shared.timers = timers →
      (∀ t, s.shared.destroyed t = false) → Promised s (i, choice) ∧ Orderly s (i, choice)) :
    Moment.To ⟨timers, locked, thread :: rest, calls⟩ ⟨timers', locked', ts ++ rest, calls'⟩ := by
  intro o ho
  obtain ⟨m', hprogram, htimers, hlocked, hrequested, hdestroyed⟩ :=
    h o.1.shared ho.timers ho.listLocked ho.requested
  obtain ⟨i, s', hi, hstep, hshared, hthreads⟩ := step_of_perm ho.threads hprogram
  have hobserved : observedStep o (i, choice) = some (s', calls') := by
    rw [observedStep, threadStep, hstep, hi, ho.calls, hcalls]
    rfl
  refine ⟨[(i, choice)], _, .cons hobserved (hproper o.1 i hi ho.threads ho.timers ho.destroyed)
    (.nil _), ?_, ?_, ?_, ?_, hthreads, rfl⟩
  · rw [hshared, htimers]
  · rw [hshared, hlocked]
  · rw [hshared, hrequested]
    exact ho.requested
  · rw [hshared, hdestroyed]
    exact ho.destroyed

/-- The next step of the thread is a section that has to keep apart. -/
def Thread.keepsApart : Thread τ κ → Bool
  | .cancelSection _ | .startQueue _ => true
  | _ => false

/-- Any other thread goes on. -/
theorem Takes.go {calls' : List τ} (h : Takes timers locked thread .go timers' locked' ts)
    (hapart : thread.keepsApart = false) (hcalls : calls' = calls ++ thread.invokes) :
    Moment.To ⟨timers, locked, thread :: rest, calls⟩ ⟨timers', locked', ts ++ rest, calls'⟩ := by
  refine h.to hcalls fun s i hi _ _ _ => ⟨trivial, ?_, ?_⟩
  · unfold CancelsApart
    split
    · next t hthread _ =>
        obtain rfl := Option.some.inj (hi.symm.trans hthread)
        cases hapart
    · next hchoice => cases hchoice
    · trivial
  · unfold StartsApart
    split
    · next t hthread _ =>
        obtain rfl := Option.some.inj (hi.symm.trans hthread)
        cases hapart
    · trivial

/-- It calls no callback. -/
theorem Takes.quiet (h : Takes timers locked thread .go timers' locked' ts)
    (hapart : thread.keepsApart = false) (hquiet : thread.invokes = []) :
    Moment.To ⟨timers, locked, thread :: rest, calls⟩ ⟨timers', locked', ts ++ rest, calls⟩ :=
  h.go hapart (by rw [hquiet, List.append_nil])

/-! ## The progress thread -/

theorem linked_of_delete {links links' : Links τ} {head head' : Option τ} {t : τ}
    (h : dlDelete links head t = some (links', head')) : links.Linked t := by
  refine .inl fun hnone => ?_
  rw [dlDelete, hnone] at h
  cases h

theorem takes_loop {now : κ} {cur : τ} {links : Links τ} {queueHead : Option τ}
    (hhead : timers.queueHead = some cur) (hexpired : timers.expiration cur < now)
    (hdelete : dlDelete timers.links timers.queueHead cur = some (links, queueHead)) :
    Takes timers true (.loop (.check now)) .go
      (({ timers with links, queueHead } : Timers τ κ).clear cur) true
      [if timers.hasPool cur then .count (.check now) cur else .call (.check now) cur] := by
  rintro m rfl hlocked -
  have hunlink : m.timers.unlink cur = some { m.timers with links, queueHead } := by
    rw [Timers.unlink, if_pos (linked_of_delete hdelete), hdelete]
    rfl
  have hloop : loopStep m (.check now) = some ({ m.use (m.timers.around cur) with
      timers := ({ m.timers with links, queueHead } : Timers τ κ).clear cur },
      [if m.timers.hasPool cur then .count (.check now) cur else .call (.check now) cur]) := by
    have hfires : (Firing.check now).fires m.timers cur = true := decide_eq_true hexpired
    simp only [loopStep, hhead, hfires, hunlink, if_true, Option.map_some]
  exact ⟨_, hloop, rfl, hlocked, rfl, rfl⟩

theorem takes_count (timers : Timers τ κ) (locked : Bool) (f : Firing κ) (t : τ) :
    Takes timers locked (.count f t) .go
      { timers with numPending := update timers.numPending t (timers.numPending t + 1) } locked
      [.submit f t] := by
  rintro m rfl rfl -
  exact ⟨_, rfl, rfl, rfl, rfl, rfl⟩

theorem takes_submit (timers : Timers τ κ) (locked : Bool) (f : Firing κ) (t : τ) :
    Takes timers locked (.submit f t) .go
      { timers with listPending := timers.listPending + 1 } locked [.loop f, .ult t] := by
  rintro m rfl rfl -
  exact ⟨_, rfl, rfl, rfl, rfl, rfl⟩

theorem takes_call (timers : Timers τ κ) (locked : Bool) (f : Firing κ) (t : τ) :
    Takes timers locked (.call f t) .go timers locked [.called f t] := by
  rintro m rfl rfl -
  exact ⟨_, rfl, rfl, rfl, rfl, rfl⟩

theorem takes_called (timers : Timers τ κ) (locked : Bool) (f : Firing κ) (t : τ) :
    Takes timers locked (.called f t) .go timers locked [.loop f] := by
  rintro m rfl rfl -
  exact ⟨_, rfl, rfl, rfl, rfl, rfl⟩

/-- One timer is fired. -/
theorem to_fire {now : κ} {cur : τ} {links : Links τ} {queueHead : Option τ}
    (hhead : timers.queueHead = some cur) (hexpired : timers.expiration cur < now)
    (hdelete : dlDelete timers.links timers.queueHead cur = some (links, queueHead)) :
    Moment.To ⟨timers, true, .loop (.check now) :: rest, calls⟩
      ⟨(({ timers with links, queueHead } : Timers τ κ).clear cur).fire cur, true,
        .loop (.check now) :: ([cur].filter timers.hasPool).map .ult ++ rest,
        calls ++ [cur].filter (!timers.hasPool ·)⟩ := by
  have htaken : Moment.To ⟨timers, true, .loop (.check now) :: rest, calls⟩ _ :=
    (takes_loop hhead hexpired hdelete).quiet rfl rfl
  cases hpool : timers.hasPool cur with
  | true =>
      rw [if_pos hpool] at htaken
      have hfire : (({ timers with links, queueHead } : Timers τ κ).clear cur).fire cur =
          { ({ timers with links, queueHead } : Timers τ κ).clear cur with
            numPending := update timers.numPending cur (timers.numPending cur + 1)
            listPending := timers.listPending + 1 } := if_pos hpool
      rw [hfire, List.filter_cons_of_pos hpool, List.filter_cons_of_neg (by simp [hpool]),
        List.filter_nil, List.filter_nil, List.append_nil]
      exact htaken.trans (((takes_count _ _ _ _).quiet rfl rfl).trans
        ((takes_submit _ _ _ _).quiet rfl rfl))
  | false =>
      have hnot : ¬timers.hasPool cur = true := by simp [hpool]
      have hfire : (({ timers with links, queueHead } : Timers τ κ).clear cur).fire cur =
          ({ timers with links, queueHead } : Timers τ κ).clear cur := if_neg hnot
      rw [if_neg hnot] at htaken
      rw [hfire, List.filter_cons_of_neg hnot, List.filter_cons_of_pos (by simp [hpool]),
        List.filter_nil, List.filter_nil]
      exact htaken.trans (((takes_call _ _ _ _).go rfl rfl).trans
        ((takes_called _ _ _ _).quiet rfl rfl))

/-- The loop is left. -/
theorem takes_leave {now : κ}
    (hleave : ∀ cur ∈ timers.queueHead, ¬timers.expiration cur < now) :
    Takes timers true (.loop (.check now)) .go timers false [.progress] := by
  rintro m rfl - -
  cases hhead : m.timers.queueHead with
  | none =>
      have hloop : loopStep m (.check now) =
          some ({ m with listLocked := false }, [.progress]) := by
        simp only [loopStep, hhead, leaveLoop]
      exact ⟨_, hloop, rfl, rfl, rfl, rfl⟩
  | some cur =>
      have hfires : (Firing.check now).fires m.timers cur = false :=
        decide_eq_false (hleave cur hhead)
      have hloop : loopStep m (.check now) =
          some ({ m.use [cur] with listLocked := false }, [.progress]) := by
        simp only [loopStep, hhead, hfires, leaveLoop, Bool.false_eq_true, if_false]
      exact ⟨_, hloop, rfl, rfl, rfl, rfl⟩

/-- No timer is fired. -/
theorem to_leave {now : κ} {fired : List τ}
    (hleave : ∀ cur ∈ timers.queueHead, ¬timers.expiration cur < now)
    (h : some (timers, []) = some (timers', fired)) :
    Moment.To ⟨timers, true, .loop (.check now) :: rest, calls⟩
      ⟨timers', false, .progress :: (fired.filter timers.hasPool).map .ult ++ rest,
        calls ++ fired.filter (!timers.hasPool ·)⟩ := by
  obtain ⟨rfl, rfl⟩ := Prod.mk.inj (Option.some.inj h)
  rw [List.filter_nil, List.filter_nil, List.append_nil]
  exact (takes_leave hleave).quiet rfl rfl

/-- The loop of `__margo_check_timers`: the ULTs are submitted, the other callbacks are
called. -/
theorem to_checkLoop {now : κ} {bound : Nat} {fired : List τ}
    (h : checkLoop now bound timers = some (timers', fired)) :
    Moment.To ⟨timers, true, .loop (.check now) :: rest, calls⟩
      ⟨timers', false, .progress :: (fired.filter timers.hasPool).map .ult ++ rest,
        calls ++ fired.filter (!timers.hasPool ·)⟩ := by
  induction bound generalizing timers fired rest calls with
  | zero =>
      obtain ⟨hnone, hr⟩ := Option.ite_none_right_eq_some.mp h
      exact to_leave (by simp [hnone]) hr
  | succ bound ih =>
      rw [checkLoop] at h
      split at h
      · next hnone => exact to_leave (by simp [hnone]) h
      next cur hhead =>
      split at h
      swap
      · next hexpired => exact to_leave (by simpa [hhead] using hexpired) h
      next hexpired =>
      simp only [Option.bind_eq_bind, Option.bind_eq_some_iff] at h
      obtain ⟨⟨links, queueHead⟩, hdelete, ⟨timers'', fired'⟩, hrest, hr⟩ := h
      obtain ⟨rfl, rfl⟩ := Prod.mk.inj (Option.some.inj hr)
      obtain ⟨numPending, listPending, hfire⟩ :=
        fire_eq (({ timers with links, queueHead } : Timers τ κ).clear cur) cur
      have hpool : ((({ timers with links, queueHead } : Timers τ κ).clear cur).fire cur).hasPool =
          timers.hasPool := by
        rw [hfire]
        rfl
      have hfired : Moment.To ⟨timers, true, .loop (.check now) :: rest, calls⟩ _ :=
        to_fire hhead hexpired hdelete
      have hagain := hfired.trans (ih hrest)
      rw [hpool, List.append_assoc, ← List.filter_append, List.singleton_append] at hagain
      refine hagain.trans (Moment.To.perm ?_)
      have hsplit : (cur :: fired').filter timers.hasPool =
          [cur].filter timers.hasPool ++ fired'.filter timers.hasPool :=
        List.filter_append [cur] fired'
      rw [hsplit, List.map_append, List.cons_append, List.cons_append, List.append_assoc]
      exact (List.perm_append_comm_assoc _ _ _).cons _

/-- `__margo_check_timers`. -/
theorem to_check {now : κ} {fired : List τ} (h : checkTimers timers now = some (timers', fired)) :
    Moment.To ⟨timers, false, .progress :: rest, calls⟩
      ⟨timers', false, .progress :: (fired.filter timers.hasPool).map .ult ++ rest,
        calls ++ fired.filter (!timers.hasPool ·)⟩ := by
  have hlock : Takes timers false (.progress : Thread τ κ) (.check now) timers true
      [.loop (.check now)] := by
    rintro m rfl hlocked -
    exact ⟨_, if_neg (by simp [hlocked]), rfl, rfl, rfl, rfl⟩
  refine Moment.To.trans (hlock.to (List.append_nil calls).symm fun s i hi _ _ _ => ?_)
    (to_checkLoop h)
  refine ⟨trivial, ?_, ?_⟩
  · simp only [CancelsApart, hi]
  · simp only [StartsApart, hi]

/-! ## The timer ULTs -/

theorem takes_ult (timers : Timers τ κ) (locked : Bool) (t : τ) :
    Takes timers locked (.ult t) .go timers locked
      [if timers.canceled t then .decrement t else .callback t] := by
  rintro m rfl rfl -
  exact ⟨_, rfl, rfl, rfl, rfl, rfl⟩

theorem takes_callback (timers : Timers τ κ) (locked : Bool) (t : τ) :
    Takes timers locked (.callback t) .go timers locked [.running t] := by
  rintro m rfl rfl -
  exact ⟨_, rfl, rfl, rfl, rfl, rfl⟩

theorem takes_running (timers : Timers τ κ) (locked : Bool) (t : τ) :
    Takes timers locked (.running t) .go timers locked [.decrement t] := by
  rintro m rfl rfl -
  exact ⟨_, rfl, rfl, rfl, rfl, rfl⟩

theorem takes_decrement (timers : Timers τ κ) (locked : Bool) (t : τ) :
    Takes timers locked (.decrement t) .go
      { timers with numPending := update timers.numPending t (timers.numPending t - 1) } locked
      [if timers.numPending t - 1 = 0 then .signal t false else .listDecrement] := by
  rintro m rfl rfl hrequested
  have hprogram : program m (.decrement t) .go = some ({ m.use [t] with
      timers := { m.timers with
        numPending := update m.timers.numPending t (m.timers.numPending t - 1) } },
      [if m.timers.numPending t - 1 = 0 then .signal t false else .listDecrement]) := by
    simp only [program, update_self, hrequested]
  exact ⟨_, hprogram, rfl, rfl, rfl, rfl⟩

theorem takes_signal (timers : Timers τ κ) (locked : Bool) (t : τ) :
    Takes timers locked (.signal t false) .go timers locked [.listDecrement] := by
  rintro m rfl rfl -
  exact ⟨_, rfl, rfl, rfl, rfl, rfl⟩

theorem takes_listDecrement (timers : Timers τ κ) :
    Takes timers false .listDecrement .go
      { timers with listPending := timers.listPending - 1 } false
      (if timers.listPending - 1 = 0 then [.listSignal] else []) := by
  rintro m rfl hlocked -
  exact ⟨_, if_neg (by simp [hlocked]), rfl, hlocked, rfl, rfl⟩

theorem takes_listSignal (timers : Timers τ κ) (locked : Bool) :
    Takes timers locked .listSignal .go timers locked [] := by
  rintro m rfl rfl -
  exact ⟨_, rfl, rfl, rfl, rfl, rfl⟩

/-- The section of the mutex of the list at the end of a ULT. -/
theorem to_listDecrement :
    Moment.To ⟨timers, false, .listDecrement :: rest, calls⟩
      ⟨{ timers with listPending := timers.listPending - 1 }, false, rest, calls⟩ := by
  have hdecrement : Moment.To ⟨timers, false, .listDecrement :: rest, calls⟩ _ :=
    (takes_listDecrement timers).quiet rfl rfl
  by_cases hlast : timers.listPending - 1 = 0
  · rw [if_pos hlast] at hdecrement
    exact hdecrement.trans ((takes_listSignal _ _).quiet rfl rfl)
  · rw [if_neg hlast] at hdecrement
    exact hdecrement

/-- A ULT that has called its callback, or has not to. -/
theorem to_decrement {t : τ} :
    Moment.To ⟨timers, false, .decrement t :: rest, calls⟩
      ⟨(timerUlt timers t).1, false, rest, calls⟩ := by
  refine Moment.To.trans ((takes_decrement timers false t).quiet rfl rfl) ?_
  split
  · exact ((takes_signal _ _ t).quiet rfl rfl).trans to_listDecrement
  · exact to_listDecrement

/-- `timer_ult`. -/
theorem to_ult {t : τ} :
    Moment.To ⟨timers, false, .ult t :: rest, calls⟩
      ⟨(timerUlt timers t).1, false, rest, calls ++ (timerUlt timers t).2⟩ := by
  refine Moment.To.trans ((takes_ult timers false t).quiet rfl rfl) ?_
  cases hcanceled : timers.canceled t with
  | true =>
      have hnone : (timerUlt timers t).2 = [] := if_pos hcanceled
      rw [hnone, List.append_nil]
      exact to_decrement
  | false =>
      have hone : (timerUlt timers t).2 = [t] := if_neg (by simp [hcanceled])
      rw [hone]
      exact ((takes_callback _ _ t).go rfl rfl).trans
        (((takes_running _ _ t).quiet rfl rfl).trans to_decrement)

/-! ## The caller -/

/-- The other threads neither cancel nor start timers. -/
def Background (rest : List (Thread τ κ)) : Prop :=
  ∀ x ∈ rest, ∀ t, x.cancels t = false ∧ x.starts t = false

omit [LinearOrder κ] [Add κ] in
theorem Background.idle (h : Background rest) {threads : List (Thread τ κ)}
    (hperm : threads.Perm (.caller :: rest)) : Background threads := by
  intro x hx t
  obtain rfl | hx := List.mem_cons.mp (hperm.subset hx)
  · exact ⟨rfl, rfl⟩
  · exact h x hx t

/-- A call begins. -/
theorem Takes.call (h : Takes timers locked .caller choice timers' locked' ts)
    (hrest : Background rest)
    (hpromised : ∀ (s : Threads τ κ) i, s.shared.timers = timers → Background s.threads →
      (∀ t, s.shared.destroyed t = false) → Promised s (i, choice)) :
    Moment.To ⟨timers, locked, .caller :: rest, calls⟩ ⟨timers', locked', ts ++ rest, calls⟩ := by
  refine h.to (List.append_nil calls).symm fun s i hi hperm htimers hdestroyed => ?_
  have hidle := hrest.idle hperm
  refine ⟨hpromised s i htimers hidle hdestroyed, ?_, ?_⟩
  · simp only [CancelsApart, hi]
    split
    · next hcaller => cases hcaller
    · next us _ =>
        rintro t - ⟨-, hclear⟩
        have hcancels := (hidle _ hclear t).1
        simp [Thread.cancels] at hcancels
    · trivial
  · simp only [StartsApart, hi]

/-- `margo_timer_start`. -/
theorem to_start {t : τ} {now timeout : κ} {ret : Int} (hrest : Background rest)
    (ht : t ∈ timers.created) (h : margoTimerStart timers t now timeout = some (timers', ret)) :
    Moment.To ⟨timers, false, .caller :: rest, calls⟩ ⟨timers', false, .caller :: rest, calls⟩ := by
  have htest : Takes timers false (.caller : Thread τ κ) (.start t now timeout) timers false
      [if timers.links.Linked t ∨ timers.canceled t ∨ timers.destroyRequested then .caller
        else .startStore t (now + timeout)] := by
    rintro m rfl hlocked -
    exact ⟨_, rfl, rfl, hlocked, rfl, rfl⟩
  have hbegins : Moment.To ⟨timers, false, .caller :: rest, calls⟩ _ :=
    htest.call hrest fun s i htimers hidle hdestroyed =>
      ⟨htimers ▸ ht, hdestroyed t, fun x hx => (hidle x hx t).1⟩
  rw [margoTimerStart_eq] at h
  refine hbegins.trans ?_
  split at h
  · next hrefused =>
      obtain ⟨rfl, -⟩ := Prod.mk.inj (Option.some.inj h)
      rw [if_pos hrefused]
      exact .refl _
  · next hgoes =>
      obtain ⟨timers'', henqueue, hr⟩ := Option.map_eq_some_iff.mp h
      obtain ⟨rfl, -⟩ := Prod.mk.inj hr
      rw [if_neg hgoes]
      have hstore : Takes timers false (.startStore t (now + timeout) : Thread τ κ) .go
          (timers.setExpiration t (now + timeout)) false [.startQueue t] := by
        rintro m rfl hlocked -
        exact ⟨_, rfl, rfl, hlocked, rfl, rfl⟩
      have hqueue : Takes (timers.setExpiration t (now + timeout)) false
          (.startQueue t : Thread τ κ) .go timers'' false [.caller] := by
        intro m htimers hlocked _
        have hprogram : program m (.startQueue t) .go =
            some ({ m.use (m.timers.walked t) with timers := timers'' }, [.caller]) := by
          simp only [program, hlocked, Bool.false_eq_true, if_false, htimers, henqueue,
            Option.map_some]
        exact ⟨_, hprogram, rfl, hlocked, rfl, rfl⟩
      refine (hstore.quiet rfl rfl).trans (hqueue.to (List.append_nil calls).symm ?_)
      intro s i hi _ htimers _
      refine ⟨trivial, ?_, ?_⟩
      · simp only [CancelsApart, hi]
      · simp only [StartsApart, hi, htimers]
        exact fun hlinked => hgoes (.inl hlinked)

/-- The sections of `margo_timer_cancel`. -/
theorem to_cancel {t : τ} (hrest : Background rest)
    (h : (timers.setCanceled t true).unlink t = some timers') :
    Moment.To ⟨timers, false, .caller :: rest, calls⟩
      ⟨timers'.clear t, false, .cancelWait t :: rest, calls⟩ := by
  have hcanceled : Takes timers false (.caller : Thread τ κ) (.cancel t)
      (timers.setCanceled t true) false [.cancelSection t] := by
    rintro m rfl hlocked -
    exact ⟨_, rfl, rfl, hlocked, rfl, rfl⟩
  have hsection : Takes (timers.setCanceled t true) false (.cancelSection t : Thread τ κ) .go
      timers' false [.cancelClear t] := by
    intro m htimers hlocked _
    have hprogram : program m (.cancelSection t) .go =
        some ({ m.use (m.timers.around t) with timers := timers' }, [.cancelClear t]) := by
      simp only [program, hlocked, Bool.false_eq_true, if_false, htimers, h, Option.map_some]
    exact ⟨_, hprogram, rfl, hlocked, rfl, rfl⟩
  have hclear : Takes timers' false (.cancelClear t : Thread τ κ) .go (timers'.clear t) false
      [.cancelWait t] := by
    rintro m rfl hlocked -
    exact ⟨_, rfl, rfl, hlocked, rfl, rfl⟩
  have hbegins : Moment.To ⟨timers, false, .caller :: rest, calls⟩ _ :=
    hcanceled.call hrest fun s i _ hidle hdestroyed =>
      ⟨hdestroyed t, fun x hx => (hidle x hx t).2⟩
  refine hbegins.trans (Moment.To.trans (hsection.to (List.append_nil calls).symm ?_)
    (hclear.quiet rfl rfl))
  intro s i hi hperm _ _
  refine ⟨trivial, ?_, ?_⟩
  · simp only [CancelsApart, hi]
    rintro ⟨-, hmem⟩
    obtain heq | hmem := List.mem_cons.mp (hperm.subset hmem)
    · cases heq
    · have hcancels := (hrest _ hmem t).1
      simp [Thread.cancels] at hcancels
  · simp only [StartsApart, hi]

/-- The section of `margo_timer_cancel_many`. -/
theorem to_cancelMany {us : List τ} (hrest : Background rest) (hne : us ≠ [])
    (h : cancelEach us timers = some timers') :
    Moment.To ⟨timers, false, .caller :: rest, calls⟩
      ⟨timers', false, .manyWait us us :: rest, calls⟩ := by
  have hsection : Takes timers false (.caller : Thread τ κ) (.cancelMany us) timers' false
      [.manyWait us us] := by
    rintro m rfl hlocked -
    have hprogram : program m .caller (.cancelMany us) =
        some ({ m.use us with timers := timers' }, [.manyWait us us]) := by
      simp only [program, hne, hlocked, Bool.false_eq_true, if_false, h, Option.map_some]
    exact ⟨_, hprogram, rfl, hlocked, rfl, rfl⟩
  exact hsection.call hrest fun s i _ hidle hdestroyed =>
    fun t _ => ⟨hdestroyed t, fun x hx => (hidle x hx t).2⟩

/-- `margo_timer_cancel_many` of no timers. -/
theorem to_cancelNone (hrest : Background rest) :
    Moment.To ⟨timers, false, .caller :: rest, calls⟩ ⟨timers, false, .caller :: rest, calls⟩ := by
  have hnone : Takes timers false (.caller : Thread τ κ) (.cancelMany []) timers false
      [.caller] := by
    rintro m rfl hlocked -
    exact ⟨_, rfl, rfl, hlocked, rfl, rfl⟩
  exact hnone.call hrest fun s i _ _ _ t ht => absurd ht List.not_mem_nil

/-- The wait of `margo_timer_cancel` ends. -/
theorem to_cancelReset {t : τ} (h : timers.numPending t = 0) :
    Moment.To ⟨timers, locked, .cancelWait t :: rest, calls⟩
      ⟨timers.setCanceled t false, locked, .caller :: rest, calls⟩ := by
  have hwait : Takes timers locked (.cancelWait t : Thread τ κ) .go timers locked
      [.cancelReset t] := by
    rintro m rfl rfl -
    exact ⟨_, if_pos h, rfl, rfl, rfl, rfl⟩
  have hreset : Takes timers locked (.cancelReset t : Thread τ κ) .go
      (timers.setCanceled t false) locked [.caller] := by
    rintro m rfl rfl -
    exact ⟨_, rfl, rfl, rfl, rfl, rfl⟩
  exact (hwait.quiet rfl rfl).trans (hreset.quiet rfl rfl)

/-- One wait of `margo_timer_cancel_many` ends. -/
theorem to_manyReset {us us' : List τ} {t : τ} (h : timers.numPending t = 0) :
    Moment.To ⟨timers, locked, .manyWait us (t :: us') :: rest, calls⟩
      ⟨timers.setCanceled t false, locked,
        (if us' = [] then .caller else .manyWait us us') :: rest, calls⟩ := by
  have hwait : Takes timers locked (.manyWait us (t :: us') : Thread τ κ) .go timers locked
      [.manyReset us t us'] := by
    rintro m rfl rfl -
    exact ⟨_, if_pos h, rfl, rfl, rfl, rfl⟩
  have hreset : Takes timers locked (.manyReset us t us' : Thread τ κ) .go
      (timers.setCanceled t false) locked [if us' = [] then .caller else .manyWait us us'] := by
    rintro m rfl rfl -
    by_cases hnil : us' = []
    · rw [if_pos hnil]
      exact ⟨_, congrArg some (if_pos hnil), rfl, rfl, rfl, rfl⟩
    · rw [if_neg hnil]
      exact ⟨_, congrArg some (if_neg hnil), rfl, rfl, rfl, rfl⟩
  exact (hwait.quiet rfl rfl).trans (hreset.quiet rfl rfl)

end

/-! ## Whole calls -/

/-- Where the caller is while the call in progress has these timers to wait for. -/
inductive Calling : List τ → Thread τ κ → Prop
  | idle : Calling [] .caller
  | cancel {t : τ} : Calling [t] (.cancelWait t)
  | many {us rest : List τ} {t : τ} : Calling (t :: rest) (.manyWait us (t :: rest))

/-- The threads between two steps of the calls. -/
def State.moment (s : State τ κ) (thread : Thread τ κ) : Moment τ κ :=
  ⟨s.timers, false, thread :: .progress :: s.ults.map .ult, s.calls⟩

section

variable {s s' : State τ κ} {l : Label τ κ} {ls : List (Label τ κ)} {thread : Thread τ κ}

omit [DecidableEq τ] [LinearOrder κ] in
theorem Calling.eq_caller {us : List τ} (h : Calling us thread) (hidle : us = []) :
    thread = .caller := by
  subst hidle
  cases h
  rfl

omit [LinearOrder κ] in
theorem background (ults : List τ) :
    Background (.progress :: ults.map Thread.ult : List (Thread τ κ)) := by
  intro x hx t
  obtain rfl | hx := List.mem_cons.mp hx
  · exact ⟨rfl, rfl⟩
  · obtain ⟨u, -, rfl⟩ := List.mem_map.mp hx
    exact ⟨rfl, rfl⟩

variable [Zero κ] [Add κ] [Sub κ]

/-- Every step of the calls but a creation is a run of the threads. -/
theorem to_step (hl : ∀ t pool, l ≠ .create t pool) (hcalling : Calling s.waiting thread)
    (hstep : Timer.step s l = some s') :
    ∃ thread', Calling s'.waiting thread' ∧ (s.moment thread).To (s'.moment thread') := by
  obtain ⟨hallowed, hact⟩ := Option.ite_none_right_eq_some.mp hstep
  cases l with
  | create t pool => exact absurd rfl (hl t pool)
  | start t now timeout =>
      obtain ⟨hidle, ht⟩ := hallowed
      obtain rfl := hcalling.eq_caller hidle
      obtain ⟨⟨timers, ret⟩, hstart, rfl⟩ := Option.map_eq_some_iff.mp hact
      exact ⟨.caller, hcalling, to_start (background s.ults) ht hstart⟩
  | cancel t =>
      obtain rfl := hcalling.eq_caller hallowed.1
      obtain ⟨timers, hunlink, rfl⟩ := Option.map_eq_some_iff.mp hact
      exact ⟨.cancelWait t, .cancel, to_cancel (background s.ults) hunlink⟩
  | cancelMany us =>
      obtain rfl := hcalling.eq_caller hallowed.1
      cases us with
      | nil =>
          obtain rfl := Option.some.inj hact
          exact ⟨.caller, hcalling, to_cancelNone (background s.ults)⟩
      | cons t us =>
          obtain ⟨timers, hcancel, rfl⟩ := Option.map_eq_some_iff.mp hact
          exact ⟨.manyWait (t :: us) (t :: us), .many,
            to_cancelMany (background s.ults) (List.cons_ne_nil t us) hcancel⟩
  | check now =>
      obtain ⟨⟨timers, fired⟩, hcheck, rfl⟩ := Option.map_eq_some_iff.mp hact
      refine ⟨thread, hcalling, ?_⟩
      refine (Moment.To.perm (List.Perm.swap ..)).trans ((to_check hcheck).trans
        (Moment.To.perm ?_))
      rw [List.map_append, List.cons_append]
      calc
        (.progress :: ((fired.filter s.timers.hasPool).map .ult ++ thread :: s.ults.map .ult)).Perm
            (.progress :: thread :: ((fired.filter s.timers.hasPool).map .ult ++
              s.ults.map .ult)) := List.perm_middle.cons _
        List.Perm _ (thread :: .progress :: (s.ults.map .ult ++
            (fired.filter s.timers.hasPool).map .ult)) :=
          (List.Perm.swap ..).trans ((List.perm_append_comm.cons _).cons _)
  | next now =>
      obtain rfl := Option.some.inj hact
      exact ⟨thread, hcalling, .refl _⟩
  | ult t =>
      obtain rfl := Option.some.inj hact
      refine ⟨thread, hcalling, ?_⟩
      let others : List (Thread τ κ) := (s.ults.erase t).map .ult
      have herase : (s.ults.map Thread.ult).Perm (.ult t :: others) :=
        (List.perm_cons_erase hallowed).map Thread.ult
      have hfirst : ([thread, .progress] ++ .ult t :: others).Perm
          (.ult t :: ([thread, .progress] ++ others)) := List.perm_middle
      exact (Moment.To.perm (((herase.cons _).cons _).trans hfirst)).trans to_ult
  | awake =>
      obtain ⟨timers, ults, waiting, calls, replies⟩ := s
      obtain ⟨t, hhead, hzero⟩ := hallowed
      cases hcalling with
      | idle => cases hhead
      | @cancel u =>
          obtain rfl := Option.some.inj hhead
          obtain rfl := Option.some.inj hact
          exact ⟨.caller, .idle, to_cancelReset hzero⟩
      | @many us rest u =>
          obtain rfl := Option.some.inj hhead
          obtain rfl := Option.some.inj hact
          cases rest with
          | nil => exact ⟨.caller, .idle, to_manyReset hzero⟩
          | cons v rest => exact ⟨.manyWait us (v :: rest), .many, to_manyReset hzero⟩

/-- Every run of calls without a creation is a run of the threads. -/
theorem to_run (hls : ∀ t pool, .create t pool ∉ ls) (hcalling : Calling s.waiting thread)
    (hrun : Run Timer.step Any s ls s') :
    ∃ thread', Calling s'.waiting thread' ∧ (s.moment thread).To (s'.moment thread') := by
  induction hrun generalizing thread with
  | nil s => exact ⟨thread, hcalling, .refl _⟩
  | cons hstep _ _ ih =>
      obtain ⟨thread', hcalling', hto⟩ := to_step
        (fun t pool heq => hls t pool (heq ▸ List.mem_cons_self)) hcalling hstep
      obtain ⟨thread'', hcalling'', hto'⟩ := ih
        (fun t pool hmem => hls t pool (List.mem_cons_of_mem _ hmem)) hcalling'
      exact ⟨thread'', hcalling'', hto.trans hto'⟩

end

/-- What is noted down of the threads is what they do. -/
theorem run_threads [Add κ] {o o' : Observed τ κ} {as : List (Move τ κ)}
    (hrun : Run observedStep Proper o as o') :
    Run threadStep (fun s a _ => Promised s a ∧ Orderly s a) o.1 as o'.1 := by
  induction hrun with
  | nil o => exact .nil o.1
  | cons hstep hproper _ ih =>
      obtain ⟨s, hs, rfl⟩ := Option.map_eq_some_iff.mp hstep
      exact .cons hs hproper ih

omit [DecidableEq τ] [LinearOrder κ] in
/-- The threads before the first call. -/
theorem shows_startup (created : List τ) (expiration : τ → κ) (hasPool : τ → Bool) :
    (State.moment ⟨(startup created expiration hasPool 1).shared.timers, [], [], [], []⟩
      .caller).Shows (startup created expiration hasPool 1, []) where
  timers := rfl
  listLocked := rfl
  requested _ := rfl
  destroyed _ := rfl
  threads := List.Perm.swap ..
  calls := rfl

/-- Calls that do not overlap, from timers that were never started on: one caller makes
them, keeping its promises, and the threads end with the same timers, the same ULTs and
the same callbacks. -/
theorem calls_are_threads [Zero κ] [Add κ] [Sub κ] {created : List τ} {expiration : τ → κ}
    {hasPool : τ → Bool} {ls : List (Label τ κ)} {s : State τ κ}
    (hls : ∀ t pool, .create t pool ∉ ls)
    (hrun : Run Timer.step Any
      ⟨(startup created expiration hasPool 1).shared.timers, [], [], [], []⟩ ls s) :
    ∃ moves o thread,
      Run observedStep Proper (startup created expiration hasPool 1, []) moves o ∧
      Run threadStep (fun s a _ => Promised s a ∧ Orderly s a)
        (startup created expiration hasPool 1) moves o.1 ∧
      Calling s.waiting thread ∧ (s.moment thread).Shows o := by
  obtain ⟨thread, hcalling, hto⟩ := to_run hls .idle hrun
  obtain ⟨moves, o, hmoves, hshows⟩ := hto _ (shows_startup created expiration hasPool)
  exact ⟨moves, o, thread, hmoves, run_threads hmoves, hcalling, hshows⟩

end Margo.Timer
