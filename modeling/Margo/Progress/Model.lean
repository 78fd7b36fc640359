import Margo.Lib.ThreadPool

/-!
# Progress when needed

The progress ULT of an instance sleeps while `progress_when_needed.flag` is
set and `progress_when_needed.pending` is zero. Forwards, responses, bulk
transfers, sleeps and `margo_finalize` bracket the time during which they need
the ULT between `PROGRESS_NEEDED_INCR` and `PROGRESS_NEEDED_DECR`. This module
has one program point for every access to the flag, every critical section of
the mutex and every use of the condition variable.

## Implementation notes

The counter is only accessed under the mutex, so the critical sections of the
two macros are single steps, enabled while the progress ULT does not hold the
mutex. The ULT has its own program counter in the shared state, because a
signal moves it: one sent while the ULT is not blocked is lost.

The macros of one operation run on two threads, the issuer and the thread that
triggers `margo_cb`, in either order. Both halves are kept in one point. An
`HG_Addr_lookup` of Mercury 1 has the shape of a sleep and is not repeated.
-/

namespace Margo.Progress

open Lib Lib.ThreadPool

/-- What `__margo_hg_progress_fn` does next. -/
inductive Ult
  /-- `while (!mid->hg_progress_shutdown_flag)`. -/
  | shutdownTest
  /-- `WAIT_FOR_PROGRESS_TO_BE_NEEDED` at its flag test. -/
  | flagTest
  /-- At `ABT_mutex_lock`, the flag found set. -/
  | lock
  /-- With the mutex, at `while (!pending)`. -/
  | pendingTest
  /-- With the mutex, about to call `ABT_cond_wait`. -/
  | condWait
  /-- In `ABT_cond_wait`, the mutex released. -/
  | blocked
  /-- In `ABT_cond_wait`, signalled, to take the mutex back. -/
  | woken
  /-- With the mutex, at the flag test after `ABT_cond_wait`. -/
  | flagRetest
  /-- With the mutex, at `ABT_mutex_unlock`. -/
  | unlock
  /-- Past the macro: trigger, yield and progress. -/
  | progress
  | exited
  deriving DecidableEq, Repr

/-- `progress_when_needed` and the state of the progress ULT. -/
structure Shared where
  flag : Bool
  pending : BitVec 64
  shutdownFlag : Bool
  ult : Ult
  deriving DecidableEq, Repr

/-- The progress ULT holds `progress_when_needed.mutex`. -/
def Shared.held (m : Shared) : Bool :=
  match m.ult with
  | .pendingTest | .condWait | .flagRetest | .unlock => true
  | _ => false

/-- `ABT_cond_signal`: without a waiter it does nothing. -/
def Shared.signal (m : Shared) : Shared :=
  if m.ult = .blocked then { m with ult := .woken } else m

/-- The next program point of the progress ULT. -/
def ultStep (m : Shared) : Option Ult :=
  match m.ult with
  | .shutdownTest => some (if m.shutdownFlag then .exited else .flagTest)
  | .flagTest => some (if m.flag then .lock else .progress)
  | .lock => some .pendingTest
  | .pendingTest => some (if m.pending = 0 then .condWait else .unlock)
  | .condWait => some .blocked
  | .blocked => none
  | .woken => some .flagRetest
  | .flagRetest => some (if m.flag then .pendingTest else .unlock)
  | .unlock => some .progress
  | .progress => some .shutdownTest
  | .exited => none

/-- The program points of `PROGRESS_NEEDED_INCR`. -/
inductive Incr
  | test
  | lock
  | signal
  | ended (counted : Bool)
  deriving DecidableEq, Repr

/-- One step of `PROGRESS_NEEDED_INCR`. -/
def Incr.step (m : Shared) : Incr → Option (Shared × Incr)
  | .test => some (m, if m.flag then .lock else .ended false)
  | .lock =>
      if m.held then none
      else
        some ({ m with pending := m.pending + 1 },
          if m.pending + 1 = 1 then .signal else .ended true)
  | .signal => some (m.signal, .ended true)
  | .ended _ => none

/-- Whether the macro incremented the counter, once that is settled. -/
def Incr.outcome : Incr → Option Bool
  | .test | .lock => none
  | .signal => some true
  | .ended counted => some counted

@[simp] theorem outcome_test : Incr.outcome .test = none := rfl

@[simp] theorem outcome_lock : Incr.outcome .lock = none := rfl

@[simp] theorem outcome_signal : Incr.outcome .signal = some true := rfl

@[simp] theorem outcome_ended (c : Bool) : Incr.outcome (.ended c) = some c := rfl

@[simp] theorem outcome_afterTest (b : Bool) :
    Incr.outcome (if b then .lock else .ended false) = if b then none else some false := by
  cases b <;> rfl

@[simp] theorem outcome_afterLock (p : Prop) [Decidable p] :
    Incr.outcome (if p then .signal else .ended true) = some true := by
  split <;> rfl

/-- The program points of `PROGRESS_NEEDED_DECR`. -/
inductive Decr
  | test
  | lock
  | ended
  deriving DecidableEq, Repr

/-- One step of `PROGRESS_NEEDED_DECR`. -/
def Decr.step (m : Shared) : Decr → Option (Shared × Decr)
  | .test => some (m, if m.flag then .lock else .ended)
  | .lock => if m.held then none else some ({ m with pending := m.pending - 1 }, .ended)
  | .ended => none

/-- The calls a thread can make. -/
inductive Call
  | forward
  | respond
  | bulkTransfer
  | sleep
  | setProgressWhenNeeded (whenNeeded : Bool)
  | finalize
  deriving DecidableEq, Repr

/-- What a pair of macros brackets. -/
inductive Span
  /-- An operation Mercury accepted: its callback decrements. -/
  | operation
  /-- A forward that `HG_Forward` refused: no callback will run. -/
  | refused
  | sleep
  /-- `margo_finalize`, which joins the progress ULT in between. -/
  | finalize
  deriving DecidableEq, Repr

/-- The `PROGRESS_NEEDED_DECR` of the span can be executed. -/
def Span.mayDecr (m : Shared) : Span → Incr → Bool
  | .operation, _ => true
  | .refused, _ => false
  | .sleep, .ended _ => true
  | .finalize, .ended _ => m.ult = .exited
  | _, _ => false

/-- A thread, or the two threads that share an operation. -/
inductive Point
  /-- The progress ULT. -/
  | loop
  | call (c : Call)
  | span (w : Span) (i : Incr) (d : Decr)
  /-- `margo_set_progress_when_needed(false)` at its `ABT_cond_signal`. -/
  | setSignal
  deriving DecidableEq, Repr

/-- What the environment resolves: the result of the Mercury call, and which of
the two macros of a span goes on. -/
inductive Choice
  | ok
  | fail
  | decr
  deriving DecidableEq, Repr

/-- What a call does before its first macro. -/
def callStep (m : Shared) (ok : Bool) : Call → Shared × List Point
  -- `PROGRESS_NEEDED_INCR` follows `HG_Forward` whatever it returned
  | .forward => (m, [.span (if ok then .operation else .refused) .test .test])
  | .respond => (m, if ok then [.span .operation .test .test] else [])
  | .bulkTransfer => (m, if ok then [.span .operation .test .test] else [])
  | .sleep => (m, [.span .sleep .test .test])
  | .setProgressWhenNeeded b => ({ m with flag := b }, if b then [] else [.setSignal])
  | .finalize => ({ m with shutdownFlag := true }, [.span .finalize .test .test])

/-- One step of one thread. -/
def pointStep (m : Shared) : Point → Choice → Option (Shared × List Point)
  | .loop, .ok => (ultStep m).map fun u => ({ m with ult := u }, [.loop])
  | .call c, .ok => some (callStep m true c)
  | .call c, .fail => some (callStep m false c)
  | .span w i d, .ok => (i.step m).map fun r => (r.1, [.span w r.2 d])
  | .span w i d, .decr =>
      if w.mayDecr m i then (d.step m).map fun r => (r.1, [.span w i r.2]) else none
  | .setSignal, .ok => some (m.signal, [])
  | _, _ => none

abbrev Process := Config Shared Point

/-- One step of the process: any thread moves. -/
def step (s : Process) (a : Nat × Choice) : Option Process :=
  ThreadPool.step pointStep s a

/-- An instance with its progress ULT started and the threads that will call. -/
def start (flag : Bool) (calls : List Call) : Process :=
  ⟨⟨flag, 0, false, .shutdownTest⟩, .loop :: calls.map .call⟩

/-- Everything one step of one thread can do, by the macro it executes. -/
inductive Moved (m : Shared) : Point → Choice → Shared → List Point → Prop
  | loop {u} (h : ultStep m = some u) : Moved m .loop .ok { m with ult := u } [.loop]
  | call (c) (ok) :
      Moved m (.call c) (if ok then .ok else .fail) (callStep m ok c).1 (callStep m ok c).2
  | incrTest (w d) :
      Moved m (.span w .test d) .ok m [.span w (if m.flag then .lock else .ended false) d]
  | incrLock (w d) (free : m.held = false) :
      Moved m (.span w .lock d) .ok { m with pending := m.pending + 1 }
        [.span w (if m.pending + 1 = 1 then .signal else .ended true) d]
  | incrSignal (w d) : Moved m (.span w .signal d) .ok m.signal [.span w (.ended true) d]
  | decrTest (w i) (may : w.mayDecr m i = true) :
      Moved m (.span w i .test) .decr m [.span w i (if m.flag then .lock else .ended)]
  | decrLock (w i) (may : w.mayDecr m i = true) (free : m.held = false) :
      Moved m (.span w i .lock) .decr { m with pending := m.pending - 1 } [.span w i .ended]
  | setSignal : Moved m .setSignal .ok m.signal []

theorem incr_moved {m m' : Shared} {w : Span} {i i' : Incr} {d : Decr}
    (h : i.step m = some (m', i')) :
    Moved m (.span w i d) .ok m' [.span w i' d] := by
  cases i with
  | test =>
      simp only [Incr.step, Option.some.injEq, Prod.mk.injEq] at h
      obtain ⟨rfl, rfl⟩ := h
      exact Moved.incrTest w d
  | lock =>
      cases hheld : m.held with
      | true => simp [Incr.step, hheld] at h
      | false =>
          simp only [Incr.step, hheld, Bool.false_eq_true, if_false, Option.some.injEq,
            Prod.mk.injEq] at h
          obtain ⟨rfl, rfl⟩ := h
          exact Moved.incrLock w d hheld
  | signal =>
      simp only [Incr.step, Option.some.injEq, Prod.mk.injEq] at h
      obtain ⟨rfl, rfl⟩ := h
      exact Moved.incrSignal w d
  | ended c => simp [Incr.step] at h

theorem decr_moved {m m' : Shared} {w : Span} {i : Incr} {d d' : Decr}
    (may : w.mayDecr m i = true) (h : d.step m = some (m', d')) :
    Moved m (.span w i d) .decr m' [.span w i d'] := by
  cases d with
  | test =>
      simp only [Decr.step, Option.some.injEq, Prod.mk.injEq] at h
      obtain ⟨rfl, rfl⟩ := h
      exact Moved.decrTest w i may
  | lock =>
      cases hheld : m.held with
      | true => simp [Decr.step, hheld] at h
      | false =>
          simp only [Decr.step, hheld, Bool.false_eq_true, if_false, Option.some.injEq,
            Prod.mk.injEq] at h
          obtain ⟨rfl, rfl⟩ := h
          exact Moved.decrLock w i may hheld
  | ended => simp [Decr.step] at h

theorem pointStep_moved {m m' : Shared} {t : Point} {c : Choice} {ts : List Point}
    (h : pointStep m t c = some (m', ts)) : Moved m t c m' ts := by
  cases t with
  | loop =>
      cases c <;> simp only [pointStep, Option.map_eq_some_iff, reduceCtorEq] at h
      obtain ⟨u, hu, hm⟩ := h
      cases hm
      exact Moved.loop hu
  | call x =>
      cases c <;> simp only [pointStep, Option.some.injEq, reduceCtorEq] at h
      · simpa [h] using Moved.call (m := m) x true
      · simpa [h] using Moved.call (m := m) x false
  | span w i d =>
      cases c <;> simp only [pointStep, Option.map_eq_some_iff, reduceCtorEq] at h
      · obtain ⟨r, hr, hm⟩ := h
        cases hm
        exact incr_moved hr
      · cases hmay : w.mayDecr m i with
        | false => simp [hmay] at h
        | true =>
            simp only [hmay, if_true, Option.map_eq_some_iff] at h
            obtain ⟨r, hr, hm⟩ := h
            cases hm
            exact decr_moved hmay hr
  | setSignal =>
      cases c <;> simp only [pointStep, Option.some.injEq, reduceCtorEq] at h
      cases h
      exact Moved.setSignal

/-- How one step of the process changes every count of threads. -/
theorem step_moved {s s' : Process} {a : Nat × Choice} (h : step s a = some s') :
    ∃ t ts, s.threads[a.1]? = some t ∧ Moved s.shared t a.2 s'.shared ts ∧
      (∀ p, tally p s = (others s a.1).countP p + if p t then 1 else 0) ∧
      ∀ p, tally p s' = (others s a.1).countP p + ts.countP p := by
  obtain ⟨t, ts, ht, hprog, hbefore, hafter⟩ := step_tally h
  exact ⟨t, ts, ht, pointStep_moved hprog, hbefore, hafter⟩

@[simp] theorem signal_flag (m : Shared) : m.signal.flag = m.flag := by
  unfold Shared.signal
  split <;> rfl

@[simp] theorem signal_pending (m : Shared) : m.signal.pending = m.pending := by
  unfold Shared.signal
  split <;> rfl

end Margo.Progress
