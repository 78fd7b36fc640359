import Margo.Lib.FlagCounter
import Margo.Lib.Gate
import Margo.Shutdown.Model

/-!
# Admission of operations while an instance shuts down

The packed `shutdown_state` word implements an admission gate: bit 31 is the
request to close and the low bits count the operations in flight. Every step
of the process is a move of the gate, whatever stale copies of the word the
compare-exchange loops hold.

## Implementation notes

The only assumption is the one the layout of the word makes: fewer than
`2 ^ 31` operations are in flight at once.
-/

namespace Margo.Shutdown

open Lib Lib.Runs Lib.ThreadPool Lib.FlagCounter

/-- Finalization was requested on the instance. -/
def requested (mid : Instance) : Bool := flag mid.shutdownState

/-- The pending-operation count of the instance. -/
def pending (mid : Instance) : Nat := count mid.shutdownState

theorem test_finalizeBit (w : BitVec 32) :
    w &&& MARGO_FINALIZE_BIT = 0#32 ↔ flag w = false := and_topBit_eq_zero_iff w

theorem test_pendingMask (w : BitVec 32) :
    w &&& MARGO_PENDING_MASK = 0#32 ↔ count w = 0 := and_lowBits_eq_zero_iff w

@[simp] theorem finalizeRequested_eq (mid : Instance) :
    finalizeRequested mid = requested mid := by
  have h := test_finalizeBit mid.shutdownState
  simp only [finalizeRequested, requested, ne_eq]
  cases hf : flag mid.shutdownState <;> simp_all

@[simp] theorem requested_requestFinalize (mid : Instance) :
    requested (requestFinalize mid) = true := flag_or_topBit _

@[simp] theorem pending_requestFinalize (mid : Instance) :
    pending (requestFinalize mid) = pending mid := count_or_topBit _

/-- The handler or ULT belongs to an operation that was admitted and has not
decremented the pending count yet. -/
def inFlight : Thread → Bool
  | .create | .createFailed | .ult => true
  | _ => false

/-- The thread is at a `decr_pending`. -/
def decrements : Thread → Bool
  | .createFailed | .ult => true
  | _ => false

/-- The thread is at a fetch-or of the finalize bit. -/
def fetchOr : Thread → Bool
  | .finalize _ | .andWait => true
  | _ => false

/-- The thread holds a copy of the word whose finalize bit is set. -/
def staleCas : Thread → Bool
  | .incrCas cur => flag cur
  | _ => false

theorem countP_incrTest (w : BitVec 32) :
    (incrTest w).countP inFlight = 0 ∧ (incrTest w).countP staleCas = 0 := by
  by_cases h : w &&& MARGO_FINALIZE_BIT = 0#32
  · have hf := (test_finalizeBit w).mp h
    simp [incrTest, h, inFlight, staleCas, hf]
  · simp [incrTest, h]

@[simp] theorem countP_afterFinalize (p : Thread → Bool) (k : Caller) :
    (afterFinalize k).countP p = if k = .andWait ∧ p .waitLoop then 1 else 0 := by
  cases k <;> simp [afterFinalize, List.countP_cons]

/-- The four ways a step of one thread treats the packed word. -/
inductive WordStep (mid : Instance) : Thread → Instance → List Thread → Prop
  | keep {t mid' ts} (word : mid'.shutdownState = mid.shutdownState)
      (admissions : mid'.admissions = mid.admissions)
      (teardowns : mid'.teardowns = mid.teardowns)
      (inflight : ts.countP inFlight = if inFlight t then 1 else 0)
      (stale : ts.countP staleCas = 0) : WordStep mid t mid' ts
  | enter {mid'} (word : mid'.shutdownState = mid.shutdownState + 1)
      (teardowns : mid'.teardowns = mid.teardowns) :
      WordStep mid (.incrCas mid.shutdownState) mid' [.create]
  | leave {t mid' ts} (word : mid'.shutdownState = mid.shutdownState - 1)
      (admissions : mid'.admissions = mid.admissions)
      (teardowns : mid'.teardowns = mid.teardowns)
      (op : decrements t = true) (left : ts.countP inFlight = 0)
      (stale : ts.countP staleCas = 0) : WordStep mid t mid' ts
  | request {t mid' ts} (word : mid'.shutdownState = (requestFinalize mid).shutdownState)
      (admissions : mid'.admissions = mid.admissions)
      (teardowns : mid.teardowns ≤ mid'.teardowns)
      (entered : mid.teardowns < mid'.teardowns → pending mid = 0)
      (caller : fetchOr t = true) (left : ts.countP inFlight = 0)
      (stale : ts.countP staleCas = 0) : WordStep mid t mid' ts

theorem inFlight_of_decrements {t : Thread} (h : decrements t = true) :
    inFlight t = true := by
  cases t <;> simp_all [decrements, inFlight]

theorem inFlight_of_fetchOr {t : Thread} (h : fetchOr t = true) : inFlight t = false := by
  cases t <;> simp_all [fetchOr, inFlight]

theorem waitSection_word (mid : Instance) :
    (waitSection mid).1.shutdownState = mid.shutdownState ∧
      (waitSection mid).1.admissions = mid.admissions ∧
      (waitSection mid).1.teardowns = mid.teardowns := by
  unfold waitSection
  split <;> exact ⟨rfl, rfl, rfl⟩

theorem countP_waitSection {p : Thread → Bool} (hc : p (.cleanup .user) = false)
    (hw : ∀ g, p (.condWait g) = false) (mid : Instance) :
    (waitSection mid).2.countP p = 0 := by
  unfold waitSection
  split
  · dsimp only
    split <;> simp [hc]
  · simp [hw]

theorem threadStep_word {mid mid' : Instance} {t : Thread} {ok : Bool} {ts : List Thread}
    (h : threadStep mid t ok = some (mid', ts)) : WordStep mid t mid' ts := by
  cases t with
  | handler =>
      simp only [threadStep, Option.some.injEq, Prod.mk.injEq] at h
      obtain ⟨rfl, rfl⟩ := h
      obtain ⟨hin, hst⟩ := countP_incrTest mid.shutdownState
      exact .keep rfl rfl rfl hin hst
  | incrCas cur =>
      simp only [threadStep] at h
      split at h
      · next hcas =>
          simp only [Option.some.injEq, Prod.mk.injEq] at h
          obtain ⟨rfl, rfl⟩ := h
          obtain ⟨-, rfl⟩ := hcas
          exact .enter rfl rfl
      · simp only [Option.some.injEq, Prod.mk.injEq] at h
        obtain ⟨rfl, rfl⟩ := h
        obtain ⟨hin, hst⟩ := countP_incrTest mid.shutdownState
        exact .keep rfl rfl rfl hin hst
  | createFailed =>
      simp only [threadStep, Option.some.injEq, Prod.mk.injEq] at h
      obtain ⟨rfl, rfl⟩ := h
      exact .leave rfl rfl rfl rfl rfl rfl
  | ult =>
      simp only [threadStep, Option.some.injEq, Prod.mk.injEq] at h
      obtain ⟨rfl, rfl⟩ := h
      exact .leave rfl rfl rfl rfl rfl rfl
  | finalize k =>
      simp only [threadStep] at h
      split at h
      · simp only [Option.some.injEq, Prod.mk.injEq] at h
        obtain ⟨rfl, rfl⟩ := h
        exact .request rfl rfl (Nat.le_refl _) (fun hlt => absurd hlt (Nat.lt_irrefl _)) rfl
          (by simp [inFlight]) (by simp [staleCas])
      · next hmask =>
          simp only [Option.some.injEq, Prod.mk.injEq] at h
          obtain ⟨rfl, rfl⟩ := h
          have hp : pending mid = 0 := (test_pendingMask _).mp (by simpa using hmask)
          exact .request rfl rfl (Nat.le_succ _) (fun _ => hp) rfl rfl rfl
  | andWait =>
      simp only [threadStep, Option.some.injEq, Prod.mk.injEq] at h
      obtain ⟨rfl, rfl⟩ := h
      exact .request rfl rfl (Nat.le_refl _) (fun hlt => absurd hlt (Nat.lt_irrefl _)) rfl
        rfl rfl
  | waitForFinalize =>
      simp only [threadStep, Option.some.injEq] at h
      obtain ⟨hw, ha, ht⟩ := waitSection_word
        { mid with finalizeRefcount := mid.finalizeRefcount + 1 }
      have hin := countP_waitSection (p := inFlight) rfl (fun _ => rfl)
        { mid with finalizeRefcount := mid.finalizeRefcount + 1 }
      have hst := countP_waitSection (p := staleCas) rfl (fun _ => rfl)
        { mid with finalizeRefcount := mid.finalizeRefcount + 1 }
      rw [h] at hw ha ht hin hst
      exact .keep hw ha ht hin hst
  | waitLoop =>
      simp only [threadStep, Option.some.injEq] at h
      obtain ⟨hw, ha, ht⟩ := waitSection_word mid
      have hin := countP_waitSection (p := inFlight) rfl (fun _ => rfl) mid
      have hst := countP_waitSection (p := staleCas) rfl (fun _ => rfl) mid
      rw [h] at hw ha ht hin hst
      exact .keep hw ha ht hin hst
  | condWait generation =>
      simp only [threadStep] at h
      split at h
      · simp only [Option.some.injEq, Prod.mk.injEq] at h
        obtain ⟨rfl, rfl⟩ := h
        exact .keep rfl rfl rfl rfl rfl
      · cases h
  | holder =>
      cases ok with
      | true =>
          simp only [threadStep, Option.some.injEq, Prod.mk.injEq] at h
          obtain ⟨rfl, rfl⟩ := h
          exact .keep rfl rfl rfl rfl rfl
      | false =>
          simp only [threadStep, Option.some.injEq, Prod.mk.injEq] at h
          obtain ⟨rfl, rfl⟩ := h
          refine .keep rfl rfl rfl ?_ ?_ <;> split <;> rfl
  | create =>
      simp only [threadStep, Option.some.injEq, Prod.mk.injEq] at h
      obtain ⟨rfl, rfl⟩ := h
      cases ok <;> exact .keep rfl rfl rfl rfl rfl
  | ultCheck | relDecr | relFlag =>
      simp only [threadStep, Option.some.injEq, Prod.mk.injEq] at h
      obtain ⟨rfl, rfl⟩ := h
      refine .keep rfl rfl rfl ?_ ?_ <;> split <;> rfl
  | broadcast k doCleanup =>
      simp only [threadStep, Option.some.injEq, Prod.mk.injEq] at h
      obtain ⟨rfl, rfl⟩ := h
      cases doCleanup <;> refine .keep rfl rfl rfl ?_ ?_ <;> simp [inFlight, staleCas]
  | cleanup k =>
      simp only [threadStep, Option.some.injEq, Prod.mk.injEq] at h
      obtain ⟨rfl, rfl⟩ := h
      refine .keep rfl rfl rfl ?_ ?_ <;> simp [inFlight, staleCas]
  | prefinalize | join | refDecr | critical | relIncr =>
      simp only [threadStep, Option.some.injEq, Prod.mk.injEq] at h
      obtain ⟨rfl, rfl⟩ := h
      exact .keep rfl rfl rfl rfl rfl

/-- The gate the process implements. -/
def gate (s : State) : Gate := ⟨requested s.shared, tally inFlight s⟩

/-- Fewer than `2 ^ 31` operations are in flight after the step. -/
def InFlightBound (_ : State) (_ : Label) (s' : State) : Prop := tally inFlight s' < 2 ^ 31

/-- The word agrees with the operations in flight, no compare-exchange is
attempted with a copy that has the finalize bit, and nobody is past the
pending check unless the gate is closed. -/
structure WordInv (s : State) : Prop where
  pending_eq : pending s.shared = tally inFlight s
  cas_clear : tally staleCas s = 0
  closed : 0 < s.shared.teardowns → (gate s).Closed

/-- One step keeps the word invariant and is a move of the gate; it admits an
operation only while closing is not requested. -/
theorem WordInv.step {s s' : State} {a : Label} (hs : WordInv s)
    (hb : InFlightBound s a s') (h : step s a = some s') :
    WordInv s' ∧ (gate s).Move (gate s') ∧
      (requested s.shared = true → s'.shared.admissions = s.shared.admissions) ∧
      ∀ t, s.threads[a.1]? = some t → fetchOr t = false →
        requested s'.shared = requested s.shared := by
  obtain ⟨t, ts, ht, hprog, hin, hin'⟩ := step_tally h
  have hpend := hs.pending_eq
  have hclear := hs.cas_clear
  have hothers : ts.countP staleCas = 0 → tally staleCas s' = 0 := by
    intro hnew
    rw [hin] at hclear
    rw [hin', hnew]
    exact Nat.eq_zero_of_add_eq_zero_right hclear
  unfold InFlightBound at hb
  cases threadStep_word hprog with
  | keep word adm tear inflight stale =>
      have hfl : requested s'.shared = requested s.shared := by simp [requested, word]
      have htl : tally inFlight s' = tally inFlight s := by
        rw [hin, hin', inflight]
      have hgate : gate s' = gate s := by simp [gate, hfl, htl]
      refine ⟨⟨?_, ?_, ?_⟩, hgate ▸ .stay _, fun _ => adm,
        fun _ _ _ => hfl⟩
      · rw [htl, ← hpend]
        simp [pending, word]
      · exact hothers stale
      · rw [tear, hgate]
        exact hs.closed
  | enter word tear =>
      have hfl : requested s.shared = false := by
        cases hr : requested s.shared with
        | false => rfl
        | true =>
            rw [hin] at hclear
            simp [staleCas, show flag s.shared.shutdownState = true from hr] at hclear
      have hcount : tally inFlight s' = tally inFlight s + 1 := by
        rw [hin, hin']
        rfl
      obtain ⟨hflag, hcnt⟩ := FlagCounter.add_one s.shared.shutdownState
        (show pending s.shared + 1 < 2 ^ 31 by omega)
      have hfl' : requested s'.shared = false := by
        rw [requested, word, hflag]
        exact hfl
      refine ⟨⟨?_, ?_, ?_⟩, ?_, ?_, fun _ _ _ => hfl'.trans hfl.symm⟩
      · rw [pending, word, hcnt, hcount, ← hpend, pending]
      · exact hothers rfl
      · intro hpos
        rw [tear] at hpos
        have hreq := (hs.closed hpos).1
        simp [gate, hfl] at hreq
      · simp only [gate, hfl, hfl', hcount]
        exact .enter
      · intro hreq
        simp [hfl] at hreq
  | leave word adm tear op left stale =>
      have hcount : tally inFlight s = tally inFlight s' + 1 := by
        rw [hin, hin', inFlight_of_decrements op, left]
        rfl
      obtain ⟨hflag, hcnt⟩ := FlagCounter.sub_one s.shared.shutdownState
        (show 0 < pending s.shared by omega)
      have hfl : requested s'.shared = requested s.shared := by
        rw [requested, word, hflag, requested]
      refine ⟨⟨?_, ?_, ?_⟩, ?_, fun _ => adm, fun _ _ _ => hfl⟩
      · rw [pending, word, hcnt, show count s.shared.shutdownState = _ from hpend, hcount]
        rfl
      · exact hothers stale
      · intro hpos
        rw [tear] at hpos
        have hzero := (hs.closed hpos).2
        simp [gate, hcount] at hzero
      · simp only [gate, hfl, hcount]
        exact .leave
  | request word adm tear entered caller left stale =>
      have hcount : tally inFlight s' = tally inFlight s := by
        rw [hin, hin', inFlight_of_fetchOr caller, left]
        rfl
      have hfl : requested s'.shared = true := by
        rw [requested, word]
        exact requested_requestFinalize s.shared
      have hcnt : pending s'.shared = pending s.shared := by
        rw [pending, word]
        exact pending_requestFinalize s.shared
      refine ⟨⟨?_, ?_, ?_⟩, ?_, fun _ => adm, ?_⟩
      · rw [hcnt, hcount, hpend]
      · exact hothers stale
      · intro hpos
        refine ⟨hfl, ?_⟩
        simp only [gate, hcount, ← hpend]
        rcases Nat.eq_or_lt_of_le tear with heq | hlt
        · rw [← heq] at hpos
          rw [hpend]
          exact (hs.closed hpos).2
        · exact entered hlt
      · simp only [gate, hfl, hcount]
        exact .request
      · intro u hu hnot
        obtain rfl : t = u := Option.some.inj (ht.symm.trans hu)
        simp [hnot] at caller

instance : ∀ s a s', Decidable (InFlightBound s a s') :=
  fun _ _ s' => inferInstanceAs (Decidable (tally inFlight s' < 2 ^ 31))

/-- A call that has not taken its first step. -/
def isCall : Thread → Bool
  | .handler | .finalize .user | .andWait | .waitForFinalize | .holder => true
  | _ => false

theorem tally_start {p : Thread → Bool} {calls : List Thread}
    (hp : ∀ t ∈ calls, p t = false) : tally p (start calls) = 0 := by
  apply List.countP_eq_zero.mpr
  intro t ht
  simp [hp t ht]

theorem WordInv.start {calls : List Thread} (hcalls : ∀ t ∈ calls, isCall t = true) :
    WordInv (start calls) where
  pending_eq := by
    rw [tally_start]
    · rfl
    · intro t ht
      have := hcalls t ht
      cases t <;> simp_all [isCall, inFlight]
  cas_clear := by
    apply tally_start
    intro t ht
    have := hcalls t ht
    cases t <;> simp_all [isCall, staleCas]
  closed := fun h => absurd h (Nat.lt_irrefl 0)

theorem WordInv.run {s s' : State} {as : List Label} (hs : WordInv s)
    (hrun : Run Shutdown.step InFlightBound s as s') : WordInv s' :=
  hrun.invariant (fun hs hb h => (hs.step hb h).1) hs

/-- Nothing is admitted once finalization was requested. -/
theorem WordInv.run_requested {s s' : State} {as : List Label} (hs : WordInv s)
    (hrun : Run Shutdown.step InFlightBound s as s') (hr : requested s.shared = true) :
    s'.shared.admissions = s.shared.admissions := by
  let Inv := fun u : State => WordInv u ∧ requested u.shared = true ∧
    u.shared.admissions = s.shared.admissions
  have hinv : Inv s' := by
    refine hrun.invariant (P := Inv) ?_ ⟨hs, hr, rfl⟩
    rintro u a u' ⟨hu, hur, hua⟩ hb h
    obtain ⟨hu', hmove, hadm, -⟩ := hu.step hb h
    exact ⟨hu', hmove.requested hur, (hadm hur).trans hua⟩
  exact hinv.2.2

/-- A closed gate stays closed. -/
theorem WordInv.run_closed {s s' : State} {as : List Label} (hs : WordInv s)
    (hrun : Run Shutdown.step InFlightBound s as s') (hc : (gate s).Closed) :
    (gate s').Closed := by
  have hinv : WordInv s' ∧ (gate s').Closed := by
    refine hrun.invariant (P := fun u => WordInv u ∧ (gate u).Closed) ?_ ⟨hs, hc⟩
    rintro u a u' ⟨hu, huc⟩ hb h
    obtain ⟨hu', hmove, -⟩ := hu.step hb h
    exact ⟨hu', hmove.closed huc⟩
  exact hinv.2

/-- Admission safety of the packed word, in every state of every interleaving
of any number of calls: the low 31 bits count the operations in flight; only
a fetch-or changes bit 31; once that bit is set nothing is admitted any more;
and once a `margo_finalize` call is past its pending check, nothing is in
flight and nothing is ever admitted. -/
theorem admission_safety {calls : List Thread} (hcalls : ∀ t ∈ calls, isCall t = true)
    {as : List Label} {s : State}
    (hrun : Run step InFlightBound (start calls) as s) :
    (requested s.shared = true → ∀ bs s', Run step InFlightBound s bs s' →
      s'.shared.admissions = s.shared.admissions) ∧
    pending s.shared = tally inFlight s ∧
    (∀ a s' t, step s a = some s' → InFlightBound s a s' → s.threads[a.1]? = some t →
      fetchOr t = false → requested s'.shared = requested s.shared) ∧
    (0 < s.shared.teardowns → ∀ bs s', Run step InFlightBound s bs s' →
      tally inFlight s' = 0 ∧ s'.shared.admissions = s.shared.admissions) := by
  have hs : WordInv s := (WordInv.start hcalls).run hrun
  refine ⟨fun hr bs s' hrun' => hs.run_requested hrun' hr, hs.pending_eq, ?_, ?_⟩
  · intro a s' t h hb ht hnot
    exact (hs.step hb h).2.2.2 t ht hnot
  · intro hpos bs s' hrun'
    have hc := hs.closed hpos
    exact ⟨(hs.run_closed hrun' hc).2, hs.run_requested hrun' hc.1⟩

/-- A handler is admitted, a finalizer requests shutdown and defers, and a
second handler is refused. -/
theorem admission_safety_deferred :
    ∃ s, Run step InFlightBound (start [.handler, .handler, .finalize .user])
        [(0, true), (0, true), (2, true), (1, true)] s ∧
      requested s.shared = true ∧ pending s.shared = tally inFlight s ∧
      ∀ bs s', Run step InFlightBound s bs s' →
        s'.shared.admissions = s.shared.admissions := by
  have hrun : Run step InFlightBound (start [.handler, .handler, .finalize .user])
      [(0, true), (0, true), (2, true), (1, true)]
      ⟨{ freshInstance 0 1 with shutdownState := 0x80000001#32, admissions := 1 },
        [.create]⟩ := run_of_exec (by decide)
  have hsafe := admission_safety (by decide) hrun
  exact ⟨_, hrun, by decide, hsafe.2.1, hsafe.1 (by decide)⟩

end Margo.Shutdown
