import Margo.Progress.Model

/-!
# Wake-ups of the progress ULT

The counter changes only under the mutex, and the increment from zero signals
afterwards: the progress ULT cannot miss it. The flag is written, and the
condition signalled, without the mutex: a signal of
`margo_set_progress_when_needed` that falls between the flag test of
`WAIT_FOR_PROGRESS_TO_BE_NEEDED` and its `ABT_cond_wait` is lost.
-/

namespace Margo.Progress

open Lib Lib.Runs Lib.ThreadPool

/-- `margo_set_progress_when_needed` has its signal left to send. -/
def setSignals (t : Point) : Bool := t = .setSignal

/-- `PROGRESS_NEEDED_INCR` has its signal left to send. -/
def incrSignals : Point → Bool
  | .span _ i _ => i = .signal
  | _ => false

/-- The thread has a signal left to send. -/
def signals (t : Point) : Bool := setSignals t || incrSignals t

/-- With the flag off, the progress ULT is past the flag test that found it on
and on its way to `ABT_cond_wait`. -/
def Shared.mayBlock (m : Shared) : Bool :=
  m.flag = false ∧
    (m.ult = .lock ∨ (m.ult = .pendingTest ∧ m.pending = 0) ∨ m.ult = .condWait)

/-- A `margo_set_progress_when_needed(false)` does not signal while the progress
ULT, with the flag off, is on its way to `ABT_cond_wait`, and nothing is
decremented from zero while the ULT is blocked. -/
def signalAt (m : Shared) : Point → Choice → Bool
  | .setSignal, _ => !m.mayBlock
  | .span _ _ .lock, .decr => ¬ (m.ult = .blocked ∧ m.pending = 0)
  | _, _ => true

/-- The thread that moves does not lose a signal. -/
def Delivered (s : Process) (a : Nat × Choice) (_ : Process) : Prop :=
  (s.threads[a.1]?).all (signalAt s.shared · a.2) = true

instance (s : Process) (a : Nat × Choice) (s' : Process) : Decidable (Delivered s a s') :=
  inferInstanceAs (Decidable (_ = true))

theorem Delivered.at {s s' : Process} {a : Nat × Choice} {t : Point} (h : Delivered s a s')
    (ht : s.threads[a.1]? = some t) : signalAt s.shared t a.2 = true := by
  simpa [Delivered, ht] using h

/-- The progress ULT is blocked, or may become so, with the flag off. -/
def Shared.unneeded (m : Shared) : Prop :=
  m.mayBlock = true ∨ (m.flag = false ∧ m.ult = .blocked)

/-- A blocked progress ULT has a signal coming as soon as it is needed. -/
structure Awaited (s : Process) : Prop where
  empty : s.shared.ult = .condWait → s.shared.pending = 0
  off : s.shared.unneeded → 0 < tally setSignals s
  needed : s.shared.ult = .blocked → s.shared.pending ≠ 0 → 0 < tally incrSignals s

theorem awaited_start (flag : Bool) (calls : List Call) : Awaited (start flag calls) where
  empty h := by simp [start] at h
  off h := by simp [start, Shared.unneeded, Shared.mayBlock] at h
  needed h := by simp [start] at h

/-- From where the ULT comes to the points between its flag test and its wait. -/
theorem ultStep_blocking {m : Shared} {u : Ult} (h : ultStep m = some u) :
    (u = .lock → m.flag = true) ∧
    (u = .pendingTest → m.ult = .lock ∨ m.flag = true) ∧
    (u = .condWait → m.ult = .pendingTest ∧ m.pending = 0) ∧
    (u = .blocked → m.ult = .condWait) := by
  cases hat : m.ult <;> simp only [ultStep, hat, Option.some.injEq, reduceCtorEq] at h <;>
    subst h <;> grind

/-- A signal leaves the ULT where it is or wakes it. -/
theorem signal_ult (m : Shared) :
    (m.ult = .blocked ∧ m.signal.ult = .woken) ∨ (m.ult ≠ .blocked ∧ m.signal = m) := by
  unfold Shared.signal
  split
  · exact Or.inl ⟨‹_›, rfl⟩
  · exact Or.inr ⟨‹_›, rfl⟩

theorem signal_ne_blocked (m : Shared) : m.signal.ult ≠ .blocked := by
  obtain ⟨-, hwoken⟩ | ⟨hne, hsame⟩ := signal_ult m
  · simp [hwoken]
  · rwa [hsame]

/-- A signal that leaves the ULT at another point than the one it wakes up at has
found nobody waiting. -/
theorem signal_eq_self {m : Shared} (h : m.signal.ult ≠ .woken) : m.signal = m := by
  obtain ⟨-, hwoken⟩ | ⟨-, hsame⟩ := signal_ult m
  · exact absurd hwoken h
  · exact hsame

theorem Shared.unneeded.ne_woken {m : Shared} (h : m.unneeded) : m.ult ≠ .woken := by
  intro hwoken
  simp [Shared.unneeded, Shared.mayBlock, hwoken] at h

theorem Moved.empty {m m' : Shared} {t : Point} {c : Choice} {ts : List Point}
    (h : Moved m t c m' ts) (hm : m.ult = .condWait → m.pending = 0)
    (hult : m'.ult = .condWait) : m'.pending = 0 := by
  cases h with
  | loop hu => exact ((ultStep_blocking hu).2.2.1 hult).2
  | call x ok => cases x <;> exact hm hult
  | incrLock w d free => simp_all [Shared.held]
  | incrSignal | setSignal =>
      have hsame : m.signal = m := signal_eq_self (by simp [hult])
      rw [hsame] at hult ⊢
      exact hm hult
  | decrLock w i may free => simp_all [Shared.held]
  | _ => exact hm hult

/-- A step that leaves the ULT blocked, or about to block, with the flag off was
taken in such a state by a thread other than the signaller, or is itself to be
followed by a signal. -/
theorem Moved.off {m m' : Shared} {t : Point} {c : Choice} {ts : List Point}
    (h : Moved m t c m' ts) (hg : signalAt m t c = true) (hm : m'.unneeded) :
    (m.unneeded ∧ (if setSignals t then 1 else 0) ≤ ts.countP setSignals) ∨
      0 < ts.countP setSignals := by
  cases h with
  | loop hu =>
      left
      have hfrom := ultStep_blocking hu
      refine ⟨?_, by simp [setSignals]⟩
      simp only [Shared.unneeded, Shared.mayBlock, decide_eq_true_eq] at hm ⊢
      grind
  | call x ok =>
      cases x with
      | setProgressWhenNeeded b =>
          cases b with
          | false => exact Or.inr (by simp [callStep, setSignals])
          | true => simp [callStep, Shared.unneeded, Shared.mayBlock] at hm
      | _ => exact Or.inl ⟨hm, by simp [setSignals]⟩
  | incrLock w d free =>
      left
      refine ⟨?_, by simp [setSignals]⟩
      simp only [Shared.unneeded, Shared.mayBlock, Shared.held, decide_eq_true_eq] at hm free ⊢
      grind
  | incrSignal w d =>
      left
      refine ⟨?_, by simp [setSignals]⟩
      rwa [signal_eq_self hm.ne_woken] at hm
  | decrLock w i may free =>
      left
      refine ⟨?_, by simp [setSignals]⟩
      simp only [Shared.unneeded, Shared.mayBlock, Shared.held, decide_eq_true_eq] at hm free ⊢
      grind
  | setSignal =>
      have hne := signal_ne_blocked m
      have hsame : m.signal = m := signal_eq_self hm.ne_woken
      rw [hsame] at hm hne
      simp_all [Shared.unneeded, signalAt]
  | _ => exact Or.inl ⟨hm, by simp [setSignals]⟩

/-- A step that leaves the ULT blocked with something pending was taken in such
a state, or is the increment from zero. -/
theorem Moved.needed {m m' : Shared} {t : Point} {c : Choice} {ts : List Point}
    (h : Moved m t c m' ts) (hg : signalAt m t c = true)
    (hempty : m.ult = .condWait → m.pending = 0)
    (hult : m'.ult = .blocked) (hpending : m'.pending ≠ 0) :
    (m.ult = .blocked ∧ m.pending ≠ 0 ∧
        (if incrSignals t then 1 else 0) ≤ ts.countP incrSignals) ∨
      0 < ts.countP incrSignals := by
  cases h with
  | loop hu => exact absurd (hempty ((ultStep_blocking hu).2.2.2 hult)) hpending
  | call x ok =>
      left
      cases x <;> exact ⟨hult, hpending, by simp [incrSignals]⟩
  | incrLock w d free =>
      by_cases hzero : m.pending = 0
      · right
        simp [incrSignals, hzero]
      · exact Or.inl ⟨hult, hzero, by simp [incrSignals]⟩
  | incrSignal | setSignal => exact absurd hult (signal_ne_blocked m)
  | decrLock w i may free =>
      left
      have hnz : m.pending ≠ 0 := by
        intro hzero
        have hblocked : m.ult = .blocked := hult
        simp [signalAt, hblocked, hzero] at hg
      exact ⟨hult, hnz, by simp [incrSignals]⟩
  | incrTest w d => exact Or.inl ⟨hult, hpending, by simp [incrSignals]⟩
  | decrTest w i may => exact Or.inl ⟨hult, hpending, by simp [incrSignals]⟩

theorem Awaited.step {s s' : Process} {a : Nat × Choice} (hs : Awaited s)
    (hg : Delivered s a s') (h : step s a = some s') : Awaited s' := by
  obtain ⟨t, ts, ht, hmoved, hbefore, hafter⟩ := step_moved h
  refine ⟨hmoved.empty hs.empty, ?_, ?_⟩
  · intro hoff
    rw [hafter setSignals]
    obtain ⟨hwas, hle⟩ | hnew := hmoved.off (hg.at ht) hoff
    · have hpos := hs.off hwas
      rw [hbefore setSignals] at hpos
      omega
    · omega
  · intro hult hpending
    rw [hafter incrSignals]
    obtain ⟨hwas, hnz, hle⟩ | hnew := hmoved.needed (hg.at ht) hs.empty hult hpending
    · have hpos := hs.needed hwas hnz
      rw [hbefore incrSignals] at hpos
      omega
    · omega

/-- No wake-up is lost: in no state of any interleaving is the progress ULT
blocked with no signal left to send and either something pending or the flag
off. -/
theorem no_lost_wakeup {flag : Bool} {calls : List Call} {as : List (Nat × Choice)}
    {s : Process} (hrun : Run step Delivered (start flag calls) as s) :
    ¬ (s.shared.ult = .blocked ∧ tally signals s = 0 ∧
      (s.shared.pending ≠ 0 ∨ s.shared.flag = false)) := by
  have hs : Awaited s :=
    hrun.invariant (fun hs hg h => hs.step hg h) (awaited_start flag calls)
  rintro ⟨hblocked, hnone, hneeded⟩
  have hquiet := forall_of_tally_zero hnone
  obtain hpending | hflag := hneeded
  · obtain ⟨t, ht, hsig⟩ := exists_of_tally_pos (hs.needed hblocked hpending)
    have := hquiet t ht
    simp [signals, hsig] at this
  · obtain ⟨t, ht, hsig⟩ := exists_of_tally_pos (hs.off (Or.inr ⟨hflag, hblocked⟩))
    have := hquiet t ht
    simp [signals, hsig] at this

/-- The ULT goes to sleep and a forward increments from zero: its signal is
still to come. -/
theorem no_lost_wakeup_forward :
    ∃ s, Run step Delivered (start true [.forward])
        [(0, .ok), (0, .ok), (0, .ok), (0, .ok), (0, .ok), (1, .ok), (1, .ok), (1, .ok)] s ∧
      s.shared.ult = .blocked ∧ s.shared.pending = 1 ∧
      ¬ (s.shared.ult = .blocked ∧ tally signals s = 0 ∧
        (s.shared.pending ≠ 0 ∨ s.shared.flag = false)) := by
  have hrun : Run step Delivered (start true [.forward])
      [(0, .ok), (0, .ok), (0, .ok), (0, .ok), (0, .ok), (1, .ok), (1, .ok), (1, .ok)]
      ⟨⟨true, 1, false, .blocked⟩, [.loop, .span .operation .signal .test]⟩ :=
    run_of_exec (by decide)
  exact ⟨_, hrun, rfl, rfl, no_lost_wakeup hrun⟩

/-- The flag is turned off and the condition signalled after the flag test of
the ULT and before its wait: the ULT stays blocked with the flag off. -/
theorem set_wakeup_lost :
    ¬ ∀ (flag : Bool) (calls : List Call) (as : List (Nat × Choice)) (s : Process),
      Run step Any (start flag calls) as s →
      ¬ (s.shared.ult = .blocked ∧ tally signals s = 0 ∧
        (s.shared.pending ≠ 0 ∨ s.shared.flag = false)) := by
  intro hall
  have hrun : Run step Any (start true [.setProgressWhenNeeded false])
      [(0, .ok), (0, .ok), (1, .ok), (1, .ok), (0, .ok), (0, .ok), (0, .ok)]
      ⟨⟨false, 0, false, .blocked⟩, [.loop]⟩ := run_of_exec (by decide)
  exact hall _ _ _ _ hrun (by decide)

end Margo.Progress
