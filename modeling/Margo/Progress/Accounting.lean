import Margo.Progress.Model

/-!
# What the pending counter counts

With the flag set throughout, the counter is the number of increments made
less the number of decrements made, modulo `2 ^ 64`, whatever the order in
which an issuer and its callback get to their macros. An operation contributes
one increment and one decrement. A forward that `HG_Forward` refuses
contributes an increment only, and every later value of the counter is one too
high.
-/

namespace Margo.Progress

open Lib Lib.Runs Lib.ThreadPool

/-- The span's `PROGRESS_NEEDED_INCR` incremented the counter. -/
def counted : Point → Bool
  | .span _ i _ => i.outcome = some true
  | _ => false

/-- The span's `PROGRESS_NEEDED_DECR` is over. -/
def decremented : Point → Bool
  | .span _ _ d => d = .ended
  | _ => false

/-- The thread is between issuing its operation and its increment. -/
def entering : Point → Bool
  | .span _ i _ => i.outcome = none
  | _ => false

/-- A successfully issued operation whose callback has not finished, or a thread
inside `margo_thread_sleep`. -/
def inFlight : Point → Bool
  | .span w _ d => w ≠ .refused ∧ d ≠ .ended
  | _ => false

/-- The calls whose operations the counter accounts for. -/
def Call.operates : Call → Bool
  | .forward | .respond | .bulkTransfer | .sleep => true
  | .setProgressWhenNeeded _ | .finalize => false

/-- A call other than an operation or a sleep, or what is left of it, or a
refused forward, or an increment skipped because the flag was off. -/
def astray : Point → Bool
  | .loop => false
  | .call c => !c.operates
  | .span w i _ => w = .refused ∨ i = .ended false
  | .setSignal => true

/-- The step is not one in which `HG_Forward` fails. -/
def ForwardAccepted (s : Process) (a : Nat × Choice) (_ : Process) : Prop :=
  ¬ (s.threads[a.1]? = some (.call .forward) ∧ a.2 = .fail)

instance (s : Process) (a : Nat × Choice) (s' : Process) :
    Decidable (ForwardAccepted s a s') :=
  inferInstanceAs (Decidable (¬ (_ ∧ _)))

/-- The counter is the increments less the decrements. -/
structure Balanced (s : Process) : Prop where
  flag : s.shared.flag = true
  pending : s.shared.pending + BitVec.ofNat 64 (tally decremented s) =
    BitVec.ofNat 64 (tally counted s)
  straight : tally astray s = 0

theorem balanced_start {calls : List Call} (hcalls : ∀ c ∈ calls, c.operates = true) :
    Balanced (start true calls) where
  flag := rfl
  pending := by
    have h : ∀ p : Point → Bool, (∀ c, p (.call c) = false) → p .loop = false →
        tally p (start true calls) = 0 := by
      intro p hp hl
      simp [tally, start, hl, hp, Function.comp_def]
    rw [h decremented (fun _ => rfl) rfl, h counted (fun _ => rfl) rfl]
    rfl
  straight := by
    apply List.countP_eq_zero.mpr
    intro t ht
    simp only [start, List.mem_cons, List.mem_map] at ht
    obtain rfl | ⟨c, hc, rfl⟩ := ht
    · simp [astray]
    · have := hcalls c hc
      simp [astray, this]

/-- What one step of one thread does to the three terms of the balance. -/
theorem Moved.balance {m m' : Shared} {t : Point} {c : Choice} {ts : List Point}
    (h : Moved m t c m' ts) (hg : ¬ (t = .call .forward ∧ c = .fail))
    (ht : astray t = false) (hflag : m.flag = true) :
    m'.flag = true ∧ ts.countP astray = 0 ∧
      m'.pending + BitVec.ofNat 64 (ts.countP decremented) +
          BitVec.ofNat 64 (if counted t then 1 else 0) =
        m.pending + BitVec.ofNat 64 (if decremented t then 1 else 0) +
          BitVec.ofNat 64 (ts.countP counted) := by
  cases h with
  | loop hu => simp [hflag, counted, decremented, astray]
  | call x ok =>
      cases x <;> cases ok <;>
        simp_all [callStep, counted, decremented, astray, Call.operates]
  | incrTest w d => simp_all [counted, decremented, astray]
  | incrLock w d free =>
      simp_all [counted, decremented, astray]
      grind
  | incrSignal w d => simp_all [counted, decremented, astray]
  | decrTest w i may => simp_all [counted, decremented, astray]
  | decrLock w i may free =>
      have hcancel : m.pending - 1 + 1 = m.pending := BitVec.sub_add_cancel _ _
      simp_all [counted, decremented, astray]
  | setSignal => simp [astray] at ht

/-- One step keeps the balance unless it is a refused forward. -/
theorem Balanced.step {s s' : Process} {a : Nat × Choice} (hs : Balanced s)
    (hg : ForwardAccepted s a s') (h : step s a = some s') : Balanced s' := by
  obtain ⟨t, ts, ht, hmoved, hbefore, hafter⟩ := step_moved h
  have hstraight := hs.straight
  rw [hbefore astray] at hstraight
  have hpending := hs.pending
  rw [hbefore counted, hbefore decremented, BitVec.ofNat_add, BitVec.ofNat_add] at hpending
  have hat : astray t = false := by
    by_contra hne
    simp [hne] at hstraight
  obtain ⟨hflag, hnew, hdelta⟩ :=
    hmoved.balance (fun hf => hg ⟨hf.1 ▸ ht, hf.2⟩) hat hs.flag
  refine ⟨hflag, ?_, ?_⟩
  · rw [hafter counted, hafter decremented, BitVec.ofNat_add, BitVec.ofNat_add]
    grind
  · rw [hafter astray, hnew]
    omega

/-- A thread past its increment has been decremented or is in flight. -/
theorem counted_split {t : Point} (hastray : astray t = false)
    (hentering : entering t = false) :
    (if counted t then 1 else 0) =
      (if inFlight t then 1 else 0) + (if decremented t then 1 else 0) := by
  cases t with
  | span w i d =>
      cases i <;> cases d <;>
        simp_all [astray, entering, counted, inFlight, decremented]
  | _ => simp [counted, inFlight, decremented]

theorem Balanced.pending_eq {s : Process} (hs : Balanced s) (hquiet : tally entering s = 0) :
    s.shared.pending = BitVec.ofNat 64 (tally inFlight s) := by
  have hsplit : tally counted s = tally inFlight s + tally decremented s := by
    apply tally_eq_add
    intro t ht
    exact counted_split (forall_of_tally_zero hs.straight t ht)
      (forall_of_tally_zero hquiet t ht)
  have h := hs.pending
  rw [hsplit, BitVec.ofNat_add] at h
  exact (BitVec.add_left_inj _).mp h

/-- With the flag set throughout and no `HG_Forward` failing, the counter is,
modulo `2 ^ 64`, the number of operations in flight and of sleeping threads
whenever no thread is between issuing an operation and its increment. -/
theorem pending_eq_inFlight {calls : List Call} {as : List (Nat × Choice)} {s : Process}
    (hcalls : ∀ c ∈ calls, c.operates = true)
    (hrun : Run step ForwardAccepted (start true calls) as s)
    (hquiet : tally entering s = 0) :
    s.shared.pending = BitVec.ofNat 64 (tally inFlight s) := by
  have hbalanced : Balanced s :=
    hrun.invariant (fun hs hg h => hs.step hg h) (balanced_start hcalls)
  exact hbalanced.pending_eq hquiet

/-- A callback decrements before the issuer of its forward increments, then a
thread goes to sleep: the counter wraps around and comes back. -/
theorem pending_eq_inFlight_callback_first :
    ∃ s, Run step ForwardAccepted (start true [.forward, .sleep])
        [(1, .ok), (1, .decr), (1, .decr), (1, .ok), (1, .ok), (2, .ok), (2, .ok), (2, .ok)] s ∧
      s.shared.pending = BitVec.ofNat 64 (tally inFlight s) ∧ tally inFlight s = 1 := by
  have hrun : Run step ForwardAccepted (start true [.forward, .sleep])
      [(1, .ok), (1, .decr), (1, .decr), (1, .ok), (1, .ok), (2, .ok), (2, .ok), (2, .ok)]
      ⟨⟨true, 1, false, .shutdownTest⟩,
        [.loop, .span .operation (.ended true) .ended, .span .sleep .signal .test]⟩ :=
    run_of_exec (by decide)
  exact ⟨_, hrun, pending_eq_inFlight (by decide) hrun (by decide), by decide⟩

/-- `HG_Forward` fails and the forward increments the counter all the same: the
counter stays at 1 with nothing in flight. -/
theorem refused_forward_counted :
    ¬ ∀ (calls : List Call) (as : List (Nat × Choice)) (s : Process),
      (∀ c ∈ calls, c.operates = true) → Run step Any (start true calls) as s →
      tally entering s = 0 → s.shared.pending = BitVec.ofNat 64 (tally inFlight s) := by
  intro hall
  have hrun : Run step Any (start true [.forward])
      [(1, .fail), (1, .ok), (1, .ok), (1, .ok)]
      ⟨⟨true, 1, false, .shutdownTest⟩,
        [.loop, .span .refused (.ended true) .test]⟩ := run_of_exec (by decide)
  have hpending := hall _ _ _ (by decide) hrun (by decide)
  exact absurd hpending (by decide)

end Margo.Progress
