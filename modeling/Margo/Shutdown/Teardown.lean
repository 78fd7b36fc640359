import Margo.Shutdown.Admission

/-!
# Entering the teardown of an instance

A `margo_finalize` call that finds operations pending returns and relies on
the last of them to call it again. Whether that happens exactly once depends
on the threads that are armed when the gate closes: those that have
decremented but not yet tested the finalize bit, and those on their way to
the fetch-or of `margo_finalize`. On a closed gate every armed thread goes on
to enter the teardown, and no thread becomes armed.

## Implementation notes

The sum of the teardowns entered and of the armed threads does not change on
a closed gate. Both results compare it with 1: it is at most 1 when whoever
closes the gate finds no other armed thread, and at least 1 when a handler
whose `ABT_thread_create` failed does not close the gate alone. The failure
branch of the handler decrements without testing the finalize bit.
-/

namespace Margo.Shutdown

open Lib Lib.Runs Lib.ThreadPool Lib.FlagCounter

/-- The thread enters the teardown if the gate is closed. -/
def armed : Thread → Bool
  | .ultCheck | .finalize _ | .andWait => true
  | _ => false

/-- A call of `margo_finalize` or `margo_finalize_and_wait` by the program,
not yet started. -/
def userCall : Thread → Bool
  | .finalize .user | .andWait => true
  | _ => false

/-- A `margo_finalize` call that follows a set finalize bit. -/
def lateCall : Thread → Bool
  | .finalize .rpc | .finalize .andWait => true
  | _ => false

/-- The owner of a reference or a `margo_instance_release` call. -/
def isRef : Thread → Bool
  | .holder | .relDecr | .relFlag | .relIncr => true
  | _ => false

/-- A `margo_instance_release` call that is about to call `margo_finalize`. -/
def returning : Thread → Bool
  | .relIncr => true
  | _ => false

theorem isRef_of_returning {t : Thread} (h : returning t = true) : isRef t = true := by
  cases t <;> simp_all [returning, isRef]

/-- The teardowns and armed threads that a step of one thread leaves behind. -/
def yield (mid : Instance) : Thread → Nat
  | .finalize _ => if pending mid = 0 then 1 else 0
  | .ultCheck => if requested mid then 1 else 0
  | .andWait | .ult | .relIncr => 1
  | _ => 0

theorem countP_incrTest_zero {p : Thread → Bool} (hp : ∀ cur, p (.incrCas cur) = false)
    (w : BitVec 32) : (incrTest w).countP p = 0 := by
  unfold incrTest
  split <;> simp [hp]

theorem waitSection_arms (mid : Instance) {mid' : Instance} {ts : List Thread}
    (h : waitSection mid = (mid', ts)) :
    mid'.teardowns + ts.countP armed = mid.teardowns + 0 ∧
      ts.countP userCall = 0 ∧ (false = false → ts.countP isRef = 0) := by
  have hw := (waitSection_word mid).2.2
  have harmed := countP_waitSection (p := armed) rfl (fun _ => rfl) mid
  have huser := countP_waitSection (p := userCall) rfl (fun _ => rfl) mid
  have href := countP_waitSection (p := isRef) rfl (fun _ => rfl) mid
  rw [h] at hw harmed huser href
  exact ⟨by rw [hw, harmed], huser, fun _ => href⟩

/-- What one step does to the teardowns, the armed threads, the calls not yet
started and the owners of references. -/
theorem threadStep_arms {mid mid' : Instance} {t : Thread} {ok : Bool} {ts : List Thread}
    (h : threadStep mid t ok = some (mid', ts)) :
    mid'.teardowns + ts.countP armed = mid.teardowns + yield mid t ∧
      ts.countP userCall = (if returning t then 1 else 0) ∧
      (isRef t = false → ts.countP isRef = 0) := by
  cases t with
  | handler =>
      simp only [threadStep, Option.some.injEq, Prod.mk.injEq] at h
      obtain ⟨rfl, rfl⟩ := h
      exact ⟨congrArg _ (countP_incrTest_zero (fun _ => rfl) _),
        countP_incrTest_zero (fun _ => rfl) _, fun _ => countP_incrTest_zero (fun _ => rfl) _⟩
  | incrCas cur =>
      simp only [threadStep] at h
      split at h <;> simp only [Option.some.injEq, Prod.mk.injEq] at h <;>
        obtain ⟨rfl, rfl⟩ := h
      · exact ⟨rfl, rfl, fun _ => rfl⟩
      · exact ⟨congrArg _ (countP_incrTest_zero (fun _ => rfl) _),
          countP_incrTest_zero (fun _ => rfl) _, fun _ => countP_incrTest_zero (fun _ => rfl) _⟩
  | create =>
      simp only [threadStep, Option.some.injEq, Prod.mk.injEq] at h
      obtain ⟨rfl, rfl⟩ := h
      cases ok <;> exact ⟨rfl, rfl, fun _ => rfl⟩
  | ultCheck =>
      simp only [threadStep, finalizeRequested_eq, Option.some.injEq, Prod.mk.injEq] at h
      obtain ⟨rfl, rfl⟩ := h
      cases hreq : requested mid <;> simp [yield, hreq, armed, userCall, isRef, returning]
  | finalize k =>
      have hmask := test_pendingMask mid.shutdownState
      simp only [threadStep] at h
      split at h
      · next hne =>
          simp only [Option.some.injEq, Prod.mk.injEq] at h
          obtain ⟨rfl, rfl⟩ := h
          have hp : pending mid ≠ 0 := fun hz => hne (hmask.mpr hz)
          simp [yield, hp, requestFinalize, armed, userCall, isRef, returning]
      · next heq =>
          simp only [Option.some.injEq, Prod.mk.injEq] at h
          obtain ⟨rfl, rfl⟩ := h
          have hp : pending mid = 0 := hmask.mp (by simpa using heq)
          simp [yield, hp, armed, userCall, isRef, returning]
  | broadcast k doCleanup =>
      simp only [threadStep, Option.some.injEq, Prod.mk.injEq] at h
      obtain ⟨rfl, rfl⟩ := h
      cases doCleanup <;> simp [yield, armed, userCall, isRef, returning]
  | cleanup k =>
      simp only [threadStep, Option.some.injEq, Prod.mk.injEq] at h
      obtain ⟨rfl, rfl⟩ := h
      simp [yield, armed, userCall, isRef, returning]
  | waitForFinalize =>
      simp only [threadStep, Option.some.injEq] at h
      exact waitSection_arms { mid with finalizeRefcount := mid.finalizeRefcount + 1 } h
  | waitLoop =>
      simp only [threadStep, Option.some.injEq] at h
      exact waitSection_arms _ h
  | condWait generation =>
      simp only [threadStep] at h
      split at h
      · simp only [Option.some.injEq, Prod.mk.injEq] at h
        obtain ⟨rfl, rfl⟩ := h
        exact ⟨rfl, rfl, fun _ => rfl⟩
      · cases h
  | holder =>
      cases ok <;> simp only [threadStep, Option.some.injEq, Prod.mk.injEq] at h <;>
        obtain ⟨rfl, rfl⟩ := h
      · split <;> exact ⟨rfl, rfl, fun hr => by cases hr⟩
      · exact ⟨rfl, rfl, fun hr => by cases hr⟩
  | relDecr | relFlag =>
      simp only [threadStep, Option.some.injEq, Prod.mk.injEq] at h
      obtain ⟨rfl, rfl⟩ := h
      split <;> exact ⟨rfl, rfl, fun hr => by cases hr⟩
  | createFailed | ult | andWait | prefinalize | join | refDecr | critical | relIncr =>
      simp only [threadStep, Option.some.injEq, Prod.mk.injEq] at h
      obtain ⟨rfl, rfl⟩ := h
      exact ⟨rfl, rfl, fun _ => rfl⟩

/-- A late call is only made after the finalize bit was seen or set. -/
theorem threadStep_late {mid mid' : Instance} {t : Thread} {ok : Bool} {ts : List Thread}
    (h : threadStep mid t ok = some (mid', ts)) (hlate : 0 < ts.countP lateCall) :
    requested mid' = true := by
  have hincr : ∀ w, (incrTest w).countP lateCall = 0 := countP_incrTest_zero (fun _ => rfl)
  have hwait : ∀ {m m' us}, waitSection m = (m', us) → us.countP lateCall = 0 := by
    intro m m' us hm
    have hzero := countP_waitSection (p := lateCall) rfl (fun _ => rfl) m
    rwa [hm] at hzero
  cases t with
  | andWait =>
      simp only [threadStep, Option.some.injEq, Prod.mk.injEq] at h
      obtain ⟨rfl, rfl⟩ := h
      exact requested_requestFinalize mid
  | ultCheck =>
      simp only [threadStep, finalizeRequested_eq, Option.some.injEq, Prod.mk.injEq] at h
      obtain ⟨rfl, rfl⟩ := h
      cases hreq : requested mid with
      | true => rfl
      | false => simp [hreq] at hlate
  | handler =>
      simp only [threadStep, Option.some.injEq, Prod.mk.injEq] at h
      obtain ⟨rfl, rfl⟩ := h
      simp [hincr] at hlate
  | waitForFinalize | waitLoop =>
      simp only [threadStep, Option.some.injEq] at h
      simp [hwait h] at hlate
  | incrCas cur =>
      simp only [threadStep] at h
      split at h <;> simp only [Option.some.injEq, Prod.mk.injEq] at h <;>
        obtain ⟨rfl, rfl⟩ := h
      · simp [lateCall] at hlate
      · simp [hincr] at hlate
  | finalize k =>
      simp only [threadStep] at h
      split at h <;> simp only [Option.some.injEq, Prod.mk.injEq] at h <;>
        obtain ⟨rfl, rfl⟩ := h
      · exact requested_requestFinalize mid
      · exact requested_requestFinalize mid
  | condWait generation =>
      simp only [threadStep] at h
      split at h
      · simp only [Option.some.injEq, Prod.mk.injEq] at h
        obtain ⟨rfl, rfl⟩ := h
        simp [lateCall] at hlate
      · cases h
  | holder =>
      cases ok <;> simp only [threadStep, Option.some.injEq, Prod.mk.injEq] at h <;>
        obtain ⟨rfl, rfl⟩ := h
      · split at hlate <;> simp [lateCall] at hlate
      · simp [lateCall] at hlate
  | create | broadcast | relDecr | relFlag =>
      simp only [threadStep, Option.some.injEq, Prod.mk.injEq] at h
      obtain ⟨rfl, rfl⟩ := h
      split at hlate <;> simp [lateCall] at hlate
  | createFailed | ult | prefinalize | join | refDecr | critical | cleanup | relIncr =>
      simp only [threadStep, Option.some.injEq, Prod.mk.injEq] at h
      obtain ⟨rfl, rfl⟩ := h
      simp [lateCall] at hlate

/-- The step of this thread closes the gate. -/
def closes (mid : Instance) : Thread → Bool
  | .createFailed | .ult => requested mid && pending mid == 1
  | .finalize _ | .andWait => !requested mid && pending mid == 0
  | _ => false

theorem closes_of_decrements {mid : Instance} {t : Thread} (ht : decrements t = true)
    (hr : requested mid = true) (hp : pending mid = 1) : closes mid t = true := by
  cases t <;> simp_all [decrements, closes]

theorem closes_of_fetchOr {mid : Instance} {t : Thread} (ht : fetchOr t = true)
    (hr : requested mid = false) (hp : pending mid = 0) : closes mid t = true := by
  cases t <;> simp_all [fetchOr, closes]

/-- Only a closing step closes the gate. -/
theorem WordInv.closes {s s' : State} {a : Label} (hs : WordInv s)
    (hb : InFlightBound s a s') (h : Shutdown.step s a = some s')
    (hopen : ¬(gate s).Closed) (hclosed : (gate s').Closed) :
    ∀ t ∈ s.threads[a.1]?, Shutdown.closes s.shared t = true := by
  obtain ⟨t, ts, ht, hprog, hin, hin'⟩ := step_tally h
  obtain ⟨-, hmove, -, hflag⟩ := hs.step hb h
  have hpend := hs.pending_eq
  intro u hu
  obtain rfl : t = u := Option.some.inj (ht.symm.trans hu)
  obtain ⟨hreq', hzero'⟩ := hclosed
  simp only [gate] at hreq' hzero'
  rw [hin'] at hzero'
  cases threadStep_word hprog with
  | keep word _ _ inflight _ =>
      refine absurd ⟨?_, ?_⟩ hopen
      · simpa only [gate, requested, word] using hreq'
      · simp only [gate, hin, ← inflight]
        exact hzero'
  | enter => simp [inFlight] at hzero'
  | leave _ _ _ op left _ =>
      have hreq : requested s.shared = true := by
        rw [← hflag t ht (by cases t <;> simp_all [decrements, fetchOr])]
        exact hreq'
      refine closes_of_decrements op hreq ?_
      rw [hpend, hin, inFlight_of_decrements op]
      simp only [if_true]
      omega
  | request _ _ _ _ caller left _ =>
      have hzero : tally inFlight s = 0 := by
        rw [hin, inFlight_of_fetchOr caller]
        simp only [Bool.false_eq_true, if_false]
        omega
      refine closes_of_fetchOr caller ?_ (hpend.trans hzero)
      cases hreq : requested s.shared with
      | false => rfl
      | true => exact absurd ⟨hreq, hzero⟩ hopen

/-- Entered teardowns and armed threads together. -/
def arming (s : State) : Nat := s.shared.teardowns + tally armed s

/-- What a step that closes the gate leaves armed besides the other threads. -/
theorem yield_of_closes {mid : Instance} {t : Thread} (h : closes mid t = true) :
    yield mid t = if t = .createFailed then 0 else 1 := by
  cases t <;> simp_all [closes, yield]

/-- On a closed gate a thread yields what it was. -/
theorem yield_of_closed {mid : Instance} {t : Thread} (hr : requested mid = true)
    (hp : pending mid = 0) (ht : inFlight t = false) (hret : returning t = false) :
    yield mid t = if armed t then 1 else 0 := by
  cases t <;> simp_all [yield, armed, inFlight, returning]

/-- How a step changes what is armed: it is kept on a closed gate, and it is
made of the other armed threads and of the yield of the step when the gate
closes. -/
theorem WordInv.arming_step {s s' : State} {a : Label} (hs : WordInv s)
    (hret : (gate s).Closed → tally returning s = 0) (hb : InFlightBound s a s')
    (h : Shutdown.step s a = some s') :
    ((gate s).Closed → arming s' = arming s) ∧
    (¬(gate s).Closed → (gate s').Closed → ∃ t ∈ s.threads[a.1]?,
      Shutdown.closes s.shared t = true ∧
      arming s' = (others s a.1).countP armed + if t = .createFailed then 0 else 1) := by
  have hcloses := hs.closes hb h
  obtain ⟨t, ts, ht, hprog, hin, hin'⟩ := step_tally h
  have hmem : t ∈ s.threads := List.mem_of_getElem? ht
  have hsum := (threadStep_arms hprog).1
  constructor
  · intro hclosed
    have hreq := hclosed.1
    have hzero := hclosed.2
    have hnot : inFlight t = false := forall_of_tally_zero hzero t hmem
    have hstay : returning t = false := forall_of_tally_zero (hret hclosed) t hmem
    rw [yield_of_closed hreq (hs.pending_eq.trans hzero) hnot hstay] at hsum
    simp only [arming, hin, hin']
    omega
  · intro hopen hclosed
    have hcl := hcloses hopen hclosed t ht
    have hnone : s.shared.teardowns = 0 :=
      Nat.eq_zero_of_not_pos fun hpos => hopen (hs.closed hpos)
    rw [yield_of_closes hcl, hnone] at hsum
    refine ⟨t, ht, hcl, ?_⟩
    simp only [arming, hin']
    omega

/-- No owner of a reference appears. -/
theorem isRef_step {s s' : State} {a : Label} (hrefs : tally isRef s = 0)
    (h : step s a = some s') : tally isRef s' = 0 := by
  obtain ⟨t, ts, ht, hprog, hin, hin'⟩ := step_tally h
  have href := forall_of_tally_zero hrefs t (List.mem_of_getElem? ht)
  rw [hin] at hrefs
  rw [hin', (threadStep_arms hprog).2.2 href]
  omega

theorem returning_of_isRef {s : State} (hrefs : tally isRef s = 0) :
    tally returning s = 0 :=
  Nat.le_zero.mp (hrefs ▸ List.countP_mono_left fun _ _ => isRef_of_returning)

/-- Whoever closes the gate finds no other armed thread, or at most one when
it is a handler that creates no ULT. -/
def LoneCloser (s : State) (a : Label) (s' : State) : Prop :=
  InFlightBound s a s' ∧ ∀ t ∈ s.threads[a.1]?, closes s.shared t = true →
    (others s a.1).countP armed ≤ if t = .createFailed then 1 else 0

instance : ∀ s a s', Decidable (LoneCloser s a s') :=
  fun _ _ _ => inferInstanceAs (Decidable (_ ∧ _))

/-- Closing steps that meet the guard leave at most one teardown to come. -/
theorem WordInv.once_step {s s' : State} {a : Label} (hs : WordInv s)
    (hret : (gate s).Closed → tally returning s = 0) (honce : (gate s).Closed → arming s ≤ 1)
    (hg : LoneCloser s a s') (h : Shutdown.step s a = some s') :
    (gate s').Closed → arming s' ≤ 1 := by
  obtain ⟨hkeep, hclose⟩ := hs.arming_step hret hg.1 h
  intro hclosed
  by_cases hc : (gate s).Closed
  · rw [hkeep hc]
    exact honce hc
  · obtain ⟨t, ht, hcl, heq⟩ := hclose hc hclosed
    have hle := hg.2 t ht hcl
    rw [heq]
    split at hle <;> simp_all

/-- Late calls only follow a request. -/
theorem WordInv.late_step {s s' : State} {a : Label} (hs : WordInv s)
    (hlate : 0 < tally lateCall s → requested s.shared = true) (hb : InFlightBound s a s')
    (h : Shutdown.step s a = some s') :
    0 < tally lateCall s' → requested s'.shared = true := by
  obtain ⟨-, hmove, -⟩ := hs.step hb h
  obtain ⟨t, ts, -, hprog, hin, hin'⟩ := step_tally h
  rw [hin] at hlate
  rw [hin']
  intro hpos
  by_cases hts : 0 < ts.countP lateCall
  · exact threadStep_late hprog hts
  · exact hmove.requested (hlate (by omega))

/-- What a run with at most one finalize call by the program keeps. -/
structure SoleInv (s : State) : Prop extends WordInv s where
  norefs : tally isRef s = 0
  late : 0 < tally lateCall s → requested s.shared = true
  calls : tally userCall s + (if requested s.shared then 1 else 0) ≤ 1
  once : (gate s).Closed → arming s ≤ 1

theorem requested_start (calls : List Thread) : requested (start calls).shared = false :=
  show requested (freshInstance 0 1) = false by decide

theorem SoleInv.start {calls : List Thread} (hcalls : ∀ t ∈ calls, isCall t = true)
    (hrefs : ∀ t ∈ calls, isRef t = false) (huser : calls.countP userCall ≤ 1) :
    SoleInv (start calls) where
  toWordInv := WordInv.start hcalls
  norefs := tally_start hrefs
  late := by
    have hzero : tally lateCall (Shutdown.start calls) = 0 := by
      apply tally_start
      intro t ht
      have hcall := hcalls t ht
      cases t with
      | finalize k => cases k <;> simp_all [isCall, lateCall]
      | _ => rfl
    simp [hzero]
  calls := by
    rw [requested_start]
    exact huser
  once := fun hclosed => absurd hclosed.1 (by simp [gate, requested_start])

theorem late_or_user {t : Thread} (h : fetchOr t = true) :
    lateCall t = true ∨ userCall t = true := by
  cases t with
  | finalize k => cases k <;> simp [lateCall, userCall]
  | andWait => exact .inr rfl
  | _ => cases h

theorem SoleInv.step {s s' : State} {a : Label} (hs : SoleInv s)
    (hg : LoneCloser s a s') (h : Shutdown.step s a = some s') : SoleInv s' := by
  obtain ⟨hword, hmove, -, hflag⟩ := hs.toWordInv.step hg.1 h
  have hret : tally returning s = 0 := returning_of_isRef hs.norefs
  refine ⟨hword, isRef_step hs.norefs h, hs.toWordInv.late_step hs.late hg.1 h, ?_,
    hs.toWordInv.once_step (fun _ => hret) hs.once hg h⟩
  obtain ⟨t, ts, ht, hprog, hin, hin'⟩ := step_tally h
  have hlate := hs.late
  have hcalls := hs.calls
  have hmono : requested s.shared = true → requested s'.shared = true := hmove.requested
  have huser : ts.countP userCall = 0 := by
    have hstay := forall_of_tally_zero hret t (List.mem_of_getElem? ht)
    simpa [hstay] using (threadStep_arms hprog).2.1
  rw [hin] at hlate hcalls
  rw [hin', huser]
  cases hf : fetchOr t with
  | false =>
      rw [hflag t ht hf]
      omega
  | true =>
      rcases late_or_user hf with hl | hu
      · have hreq := hlate (by simp [hl])
        rw [hmono hreq]
        simp only [hreq, if_true] at hcalls ⊢
        omega
      · simp only [hu, if_true] at hcalls
        split <;> omega

/-- Single teardown: in every interleaving of any number of RPCs with at most
one finalize call by the program, in which whoever closes the gate finds no
other armed thread, the teardown is entered at most once. -/
theorem single_teardown {calls : List Thread} (hcalls : ∀ t ∈ calls, isCall t = true)
    (hrefs : ∀ t ∈ calls, isRef t = false) (huser : calls.countP userCall ≤ 1)
    {as : List Label} {s : State} (hrun : Run step LoneCloser (start calls) as s) :
    s.shared.teardowns ≤ 1 := by
  have hs : SoleInv s := hrun.invariant (fun hs hg h => hs.step hg h)
    (SoleInv.start hcalls hrefs huser)
  rcases Nat.eq_zero_or_pos s.shared.teardowns with hzero | hpos
  · omega
  · have honce := hs.once (hs.closed hpos)
    unfold arming at honce
    omega

/-- An RPC is admitted, `margo_finalize` defers to it, and the ULT enters the
teardown. -/
theorem single_teardown_deferred :
    ∃ s, Run step LoneCloser (start [.handler, .finalize .user])
        [(0, true), (0, true), (0, true), (1, true), (0, true), (0, true), (0, true)] s ∧
      s.shared.teardowns = 1 ∧ s.shared.teardowns ≤ 1 := by
  have hrun : Run step LoneCloser (start [.handler, .finalize .user])
      [(0, true), (0, true), (0, true), (1, true), (0, true), (0, true), (0, true)]
      ⟨{ freshInstance 0 1 with
          shutdownState := 0x80000000#32, admissions := 1, teardowns := 1 },
        [.prefinalize .rpc]⟩ := run_of_exec (by decide)
  exact ⟨_, hrun, rfl, single_teardown (by decide) (by decide) (by decide) hrun⟩

/-- A ULT decrements, the program's only `margo_finalize` call finds nothing
pending and enters the teardown, and the ULT then sees the finalize bit and
enters it again. -/
theorem teardown_entered_twice :
    ¬∀ (calls : List Thread) (as : List Label) (s : State),
      (∀ t ∈ calls, isCall t = true) → (∀ t ∈ calls, isRef t = false) →
      calls.countP userCall ≤ 1 → Run step InFlightBound (start calls) as s →
      s.shared.teardowns ≤ 1 := by
  intro hall
  have hrun : Run step InFlightBound (start [.handler, .finalize .user])
      [(0, true), (0, true), (0, true), (0, true), (1, true), (0, true), (0, true)]
      ⟨{ freshInstance 0 1 with
          shutdownState := 0x80000000#32, admissions := 1, teardowns := 2 },
        [.prefinalize .rpc, .prefinalize .user]⟩ := run_of_exec (by decide)
  exact absurd (hall _ _ _ (by decide) (by decide) (by decide) hrun) (by decide)

/-- A handler whose `ABT_thread_create` failed does not bring the pending count
to 0 after a finalize request, unless another thread is armed. -/
def FailedCreateCovered (s : State) (a : Label) (s' : State) : Prop :=
  InFlightBound s a s' ∧ ∀ t ∈ s.threads[a.1]?, t = .createFailed →
    closes s.shared t = true → 0 < (others s a.1).countP armed

instance : ∀ s a s', Decidable (FailedCreateCovered s a s') :=
  fun _ _ _ => inferInstanceAs (Decidable (_ ∧ _))

/-- What keeps a requested finalization from being lost. -/
structure CoveredInv (s : State) : Prop extends WordInv s where
  norefs : tally isRef s = 0
  covered : (gate s).Closed → 1 ≤ arming s

theorem CoveredInv.start {calls : List Thread} (hcalls : ∀ t ∈ calls, isCall t = true)
    (hrefs : ∀ t ∈ calls, isRef t = false) : CoveredInv (start calls) where
  toWordInv := WordInv.start hcalls
  norefs := tally_start hrefs
  covered := fun hclosed => absurd hclosed.1 (by simp [gate, requested_start])

theorem CoveredInv.step {s s' : State} {a : Label} (hs : CoveredInv s)
    (hg : FailedCreateCovered s a s') (h : Shutdown.step s a = some s') :
    CoveredInv s' := by
  obtain ⟨hb, hfailed⟩ := hg
  obtain ⟨hkeep, hclose⟩ := hs.toWordInv.arming_step (fun _ => returning_of_isRef hs.norefs) hb h
  refine ⟨(hs.toWordInv.step hb h).1, isRef_step hs.norefs h, fun hclosed => ?_⟩
  by_cases hc : (gate s).Closed
  · rw [hkeep hc]
    exact hs.covered hc
  · obtain ⟨t, ht, hcl, heq⟩ := hclose hc hclosed
    rw [heq]
    split
    · next hcf => exact hfailed t ht hcf hcl
    · omega

/-- An armed thread is never blocked. -/
theorem exists_step_of_armed {s : State} (h : 0 < tally armed s) :
    ∃ a s', step s a = some s' := by
  obtain ⟨t, hmem, ht⟩ := exists_of_tally_pos h
  have hprog : ∃ r, threadStep s.shared t true = some r := by
    cases t with
    | finalize k =>
        simp only [threadStep]
        split <;> exact ⟨_, rfl⟩
    | ultCheck | andWait => exact ⟨_, rfl⟩
    | _ => cases ht
  obtain ⟨⟨mid, ts⟩, hprog⟩ := hprog
  exact step_of_mem hmem hprog

/-- No lost finalization: in every interleaving of any number of RPC handlers
and finalize calls in which a handler whose `ABT_thread_create` failed never
closes the gate with no thread armed, when no thread has a step left, the
finalize bit is set and nothing is pending, the teardown has been entered. -/
theorem no_lost_finalization {calls : List Thread} (hcalls : ∀ t ∈ calls, isCall t = true)
    (hrefs : ∀ t ∈ calls, isRef t = false) {as : List Label} {s : State}
    (hrun : Run step FailedCreateCovered (start calls) as s)
    (hdone : ∀ a, step s a = none) (hreq : requested s.shared = true)
    (hpend : pending s.shared = 0) : 1 ≤ s.shared.teardowns := by
  have hs : CoveredInv s := hrun.invariant (fun hs hg h => hs.step hg h)
    (CoveredInv.start hcalls hrefs)
  have hcov := hs.covered ⟨hreq, hs.pending_eq.symm.trans hpend⟩
  have hnone : tally armed s = 0 := by
    apply Nat.eq_zero_of_not_pos
    intro hpos
    obtain ⟨a, s', h⟩ := exists_step_of_armed hpos
    simp [hdone a] at h
  unfold arming at hcov
  omega

theorem step_nil (mid : Instance) (a : Label) : step ⟨mid, []⟩ a = none := by
  simp [step, Lib.ThreadPool.step]

/-- The deferred `margo_finalize` is made good by the ULT, which runs to the
end of the teardown and cleans up. -/
theorem no_lost_finalization_deferred :
    ∃ s, Run step FailedCreateCovered (start [.handler, .finalize .user])
        ([(0, true), (0, true), (0, true), (1, true)] ++ List.replicate 9 (0, true)) s ∧
      (∀ a, step s a = none) ∧ requested s.shared = true ∧ pending s.shared = 0 ∧
      1 ≤ s.shared.teardowns := by
  have hrun : Run step FailedCreateCovered (start [.handler, .finalize .user])
      ([(0, true), (0, true), (0, true), (1, true)] ++ List.replicate 9 (0, true))
      ⟨{ freshInstance 0 0 with
          shutdownState := 0x80000000#32, finalizeFlag := true, broadcasts := 1,
          admissions := 1, teardowns := 1, cleanups := 1 }, []⟩ := run_of_exec (by decide)
  exact ⟨_, hrun, step_nil _, by decide, by decide,
    no_lost_finalization (by decide) (by decide) hrun (step_nil _) (by decide) (by decide)⟩

/-- A handler is admitted, `margo_finalize` defers to it, `ABT_thread_create`
fails, and the handler decrements and returns without testing the bit. -/
theorem finalization_lost :
    ¬∀ (calls : List Thread) (as : List Label) (s : State),
      (∀ t ∈ calls, isCall t = true) → (∀ t ∈ calls, isRef t = false) →
      Run step InFlightBound (start calls) as s → (∀ a, step s a = none) →
      requested s.shared = true → pending s.shared = 0 → 1 ≤ s.shared.teardowns := by
  intro hall
  have hrun : Run step InFlightBound (start [.handler, .finalize .user])
      [(0, true), (0, true), (0, false), (1, true), (0, true)]
      ⟨{ freshInstance 0 1 with shutdownState := 0x80000000#32, admissions := 1 }, []⟩ :=
    run_of_exec (by decide)
  exact absurd (hall _ _ _ (by decide) (by decide) hrun (step_nil _) (by decide)
    (by decide)) (by decide)

end Margo.Shutdown
