import Margo.Progress.Accounting

/-!
# Toggling progress when needed

`PROGRESS_NEEDED_INCR` and `PROGRESS_NEEDED_DECR` each test the flag on their
own. The counter counts what is outstanding as long as the two macros of every
span are paired: the second tests the flag after the first has settled whether
it incremented, and finds the flag as the first one found it.

## Implementation notes

The increment that would wrap the counter from `2 ^ 64 - 1` to zero is left
out of the runs considered, as is an `HG_Forward` that fails.
-/

namespace Margo.Progress

open Lib Lib.Runs Lib.ThreadPool

/-- The span is counted and not yet decremented. -/
def holding : Point → Bool
  | .span _ i d => i.outcome = some true ∧ d ≠ .ended
  | _ => false

/-- An operation, a sleep or a `margo_finalize` between its first and its last
macro step. -/
def outstanding : Point → Bool
  | .span _ i d => i.outcome = none ∨ d ≠ .ended
  | _ => false

/-- `margo_finalize` is past its `PROGRESS_NEEDED_INCR`. -/
def finalizing : Point → Bool
  | .span w i _ => w = .finalize ∧ i.outcome ≠ none
  | _ => false

/-- `margo_finalize` found the flag off and did not increment. -/
def skipped : Point → Bool
  | .span w i _ => w = .finalize ∧ i.outcome = some false
  | _ => false

/-- `margo_finalize` is past its join, in its `PROGRESS_NEEDED_DECR`. -/
def joined : Point → Bool
  | .span w _ d => w = .finalize ∧ d ≠ .test
  | _ => false

/-- The two macros of the span are out of step: a decrement that does not
answer an increment, or a refused forward. -/
def mispaired : Point → Bool
  | .span w i d =>
      w = .refused ∨ (d = .lock ∧ i.outcome ≠ some true) ∨ (d = .ended ∧ i.outcome = none)
  | _ => false

/-- What a thread must find when it moves: a `PROGRESS_NEEDED_DECR` tests the
flag once its `PROGRESS_NEEDED_INCR` is settled and with the same result; an
increment does not wrap the counter around; `HG_Forward` does not fail; and the
flag is not turned on while the progress ULT still has to exit for a
`margo_finalize` that skipped its increment. -/
def pairedAt (s : Process) : Point → Choice → Bool
  | .span _ i .test, .decr => i.outcome = some s.shared.flag
  | .span _ .lock _, .ok => s.shared.pending ≠ BitVec.allOnes 64
  | .call .forward, .fail => false
  | .call (.setProgressWhenNeeded true), _ => tally skipped s = 0 ∨ s.shared.ult = .exited
  | _, _ => true

/-- The thread that moves finds what it must. -/
def Paired (s : Process) (a : Nat × Choice) (_ : Process) : Prop :=
  (s.threads[a.1]?).all (pairedAt s · a.2) = true

instance (s : Process) (a : Nat × Choice) (s' : Process) : Decidable (Paired s a s') :=
  inferInstanceAs (Decidable (_ = true))

theorem Paired.at {s s' : Process} {a : Nat × Choice} {t : Point} (h : Paired s a s')
    (ht : s.threads[a.1]? = some t) : pairedAt s t a.2 = true := by
  simpa [Paired, ht] using h

/-- The counter is the number of spans that hold it, and a `margo_finalize` that
skipped its increment finds the flag off until the progress ULT has exited. -/
structure PairedInv (s : Process) : Prop where
  pending : s.shared.pending.toNat = tally holding s
  straight : tally mispaired s = 0
  off : tally skipped s = 0 ∨ s.shared.ult = .exited ∨ s.shared.flag = false
  join : tally joined s = 0 ∨ s.shared.ult = .exited

theorem tally_start {p : Point → Bool} {flag : Bool} {calls : List Call}
    (hcall : ∀ c, p (.call c) = false) (hloop : p .loop = false) :
    tally p (start flag calls) = 0 := by
  simp [tally, start, hcall, hloop, Function.comp_def]

theorem pairedInv_start (flag : Bool) (calls : List Call) : PairedInv (start flag calls) where
  pending := by
    rw [tally_start (fun _ => rfl) rfl]
    rfl
  straight := tally_start (fun _ => rfl) rfl
  off := Or.inl (tally_start (fun _ => rfl) rfl)
  join := Or.inl (tally_start (fun _ => rfl) rfl)

theorem toNat_add_one {x : BitVec 64} (h : x ≠ BitVec.allOnes 64) :
    (x + 1).toNat = x.toNat + 1 := by
  have hx : x.toNat ≠ 2 ^ 64 - 1 := by
    intro heq
    exact h (BitVec.eq_of_toNat_eq (by simpa using heq))
  apply BitVec.toNat_add_of_lt
  have := x.isLt
  simp only [BitVec.ofNat_eq_ofNat, BitVec.toNat_ofNat]
  omega

theorem toNat_sub_one {x : BitVec 64} (h : 0 < x.toNat) : (x - 1).toNat + 1 = x.toNat := by
  have hle : 1#64 ≤ x := BitVec.le_def.mpr h
  have hsub : (x - 1).toNat = x.toNat - 1 := BitVec.toNat_sub_of_le hle
  omega

/-- What one step of one thread does to the counter and to the pairing. -/
theorem Moved.paired {s : Process} {m' : Shared} {t : Point} {c : Choice} {ts : List Point}
    (h : Moved s.shared t c m' ts) (hg : pairedAt s t c = true) (ht : mispaired t = false)
    (hle : holding t = true → 0 < s.shared.pending.toNat) :
    m'.pending.toNat + (if holding t then 1 else 0) =
        s.shared.pending.toNat + ts.countP holding ∧
      ts.countP mispaired = 0 := by
  cases h with
  | loop hu => simp [holding, mispaired]
  | call x ok =>
      cases x <;> cases ok <;> simp_all [callStep, holding, mispaired, pairedAt]
  | incrTest w d => simp_all [holding, mispaired]
  | incrLock w d free =>
      have hfit : s.shared.pending ≠ BitVec.allOnes 64 := by simpa [pairedAt] using hg
      have hadd := toNat_add_one hfit
      refine ⟨?_, by simp_all [mispaired]⟩
      change (s.shared.pending + 1).toNat + _ = _
      rw [hadd]
      simp_all [holding, mispaired]
  | incrSignal w d => simp_all [holding, mispaired]
  | decrTest w i may => simp_all [holding, mispaired, pairedAt]
  | decrLock w i may free =>
      have hcounted : i.outcome = some true := by simp_all [mispaired]
      have hpos : 0 < s.shared.pending.toNat := hle (by simp [holding, hcounted])
      refine ⟨?_, by simp_all [mispaired]⟩
      change (s.shared.pending - 1).toNat + _ = _
      simp only [holding, hcounted, ne_eq, reduceCtorEq, not_false_eq_true, and_self,
        decide_true, if_true, toNat_sub_one hpos]
      simp [holding]
  | setSignal => simp [holding]

/-- Only `margo_set_progress_when_needed` writes the flag. -/
theorem Moved.flag {m m' : Shared} {t : Point} {c : Choice} {ts : List Point}
    (h : Moved m t c m' ts) :
    m'.flag = m.flag ∨ t = .call (.setProgressWhenNeeded m'.flag) := by
  cases h with
  | call x ok => cases x <;> simp [callStep]
  | incrSignal w d => simp
  | setSignal => simp
  | _ => exact Or.inl rfl

/-- The progress ULT exits for good. -/
theorem Moved.exited {m m' : Shared} {t : Point} {c : Choice} {ts : List Point}
    (h : Moved m t c m' ts) (hexit : m.ult = .exited) : m'.ult = .exited := by
  cases h with
  | loop hu => simp [ultStep, hexit] at hu
  | call x ok => cases x <;> simpa [callStep] using hexit
  | incrSignal w d => simp [Shared.signal, hexit]
  | setSignal => simp [Shared.signal, hexit]
  | _ => exact hexit

/-- A `margo_finalize` skips its increment only with the flag off. -/
theorem Moved.skipped {m m' : Shared} {t : Point} {c : Choice} {ts : List Point}
    (h : Moved m t c m' ts) :
    ts.countP skipped ≤ (if skipped t then 1 else 0) ∨ m'.flag = false := by
  cases h with
  | call x ok => cases x <;> cases ok <;> simp [callStep, Progress.skipped]
  | incrTest w d => cases hf : m.flag <;> simp [Progress.skipped]
  | _ => simp [Progress.skipped]

/-- A `margo_finalize` gets to its decrement only by joining the progress ULT. -/
theorem Moved.joined {m m' : Shared} {t : Point} {c : Choice} {ts : List Point}
    (h : Moved m t c m' ts) :
    ts.countP joined ≤ (if joined t then 1 else 0) ∨ m.ult = .exited := by
  cases h with
  | call x ok => cases x <;> cases ok <;> simp [callStep, Progress.joined]
  | decrTest w i may =>
      cases w with
      | finalize => cases i <;> simp_all [Span.mayDecr]
      | _ => simp [Progress.joined]
  | _ => simp [Progress.joined]

theorem PairedInv.off_step {s s' : Process} {a : Nat × Choice} (hs : PairedInv s)
    (hg : Paired s a s') (h : Progress.step s a = some s') :
    tally skipped s' = 0 ∨ s'.shared.ult = .exited ∨ s'.shared.flag = false := by
  obtain ⟨t, ts, ht, hmoved, hbefore, hafter⟩ := step_moved h
  have hzero : tally skipped s = 0 → tally skipped s' = 0 ∨ s'.shared.flag = false := by
    intro hnone
    rw [hbefore skipped] at hnone
    rw [hafter skipped]
    obtain hle | hoff := hmoved.skipped
    · left
      omega
    · exact Or.inr hoff
  obtain hnone | hexit | hoff := hs.off
  · exact (hzero hnone).imp_right Or.inr
  · exact Or.inr (Or.inl (hmoved.exited hexit))
  · obtain hkept | hset := hmoved.flag
    · exact Or.inr (Or.inr (hkept.trans hoff))
    · cases hflag : s'.shared.flag with
      | false => exact Or.inr (Or.inr rfl)
      | true =>
          have hat := hg.at ht
          rw [hset, hflag] at hat
          simp only [pairedAt, Bool.decide_or, Bool.or_eq_true, decide_eq_true_eq] at hat
          obtain hnone | hexit := hat
          · exact (hzero hnone).imp_right fun hf => Or.inr (hflag ▸ hf)
          · exact Or.inr (Or.inl (hmoved.exited hexit))

theorem PairedInv.join_step {s s' : Process} {a : Nat × Choice} (hs : PairedInv s)
    (h : Progress.step s a = some s') : tally joined s' = 0 ∨ s'.shared.ult = .exited := by
  obtain ⟨t, ts, ht, hmoved, hbefore, hafter⟩ := step_moved h
  obtain hnone | hexit := hs.join
  · rw [hbefore joined] at hnone
    obtain hle | hexit := hmoved.joined
    · left
      rw [hafter joined]
      omega
    · exact Or.inr (hmoved.exited hexit)
  · exact Or.inr (hmoved.exited hexit)

theorem PairedInv.step {s s' : Process} {a : Nat × Choice} (hs : PairedInv s)
    (hg : Paired s a s') (h : step s a = some s') : PairedInv s' := by
  obtain ⟨t, ts, ht, hmoved, hbefore, hafter⟩ := step_moved h
  have hpending := hs.pending
  have hstraight := hs.straight
  rw [hbefore holding] at hpending
  rw [hbefore mispaired] at hstraight
  have hmis : mispaired t = false := by
    by_contra hne
    simp [hne] at hstraight
  have hpos : holding t = true → 0 < s.shared.pending.toNat := by
    intro hhold
    rw [hpending, hhold]
    simp
  obtain ⟨hcount, hnew⟩ := hmoved.paired (hg.at ht) hmis hpos
  refine ⟨?_, ?_, hs.off_step hg h, hs.join_step h⟩
  · rw [hafter holding]
    omega
  · rw [hafter mispaired, hnew]
    omega

theorem pairedInv_run {flag : Bool} {calls : List Call} {as : List (Nat × Choice)}
    {s : Process} (hrun : Run step Paired (start flag calls) as s) : PairedInv s :=
  hrun.invariant (fun hs hg h => hs.step hg h) (pairedInv_start flag calls)

/-- Only a thread in the critical section of its `PROGRESS_NEEDED_DECR` lowers
the counter. -/
theorem Moved.pending {m m' : Shared} {t : Point} {c : Choice} {ts : List Point}
    (h : Moved m t c m' ts) :
    m'.pending = m.pending ∨ m'.pending = m.pending + 1 ∨ ∃ w i, t = .span w i .lock := by
  cases h with
  | call x ok => cases x <;> simp [callStep]
  | incrLock w d free => simp
  | incrSignal w d => simp
  | decrLock w i may free => simp
  | setSignal => simp
  | _ => exact Or.inl rfl

/-- No step takes the counter below zero. -/
theorem PairedInv.no_underflow {s s' : Process} {a : Nat × Choice} (hs : PairedInv s)
    (h : Progress.step s a = some s') (hzero : s.shared.pending = 0) :
    s'.shared.pending ≠ BitVec.allOnes 64 := by
  obtain ⟨t, ts, ht, hmoved, hbefore, -⟩ := step_moved h
  obtain hkept | hadd | ⟨w, i, rfl⟩ := hmoved.pending
  · rw [hkept, hzero]
    decide
  · rw [hadd, hzero]
    decide
  · have hmem := List.mem_of_getElem? ht
    have hmis := forall_of_tally_zero hs.straight _ hmem
    have hhold : tally holding s = 0 := by
      rw [← hs.pending, hzero]
      rfl
    have hfree := forall_of_tally_zero hhold _ hmem
    simp_all [mispaired, holding]

theorem PairedInv.pending_zero {s : Process} (hs : PairedInv s)
    (hdone : tally outstanding s = 0) : s.shared.pending = 0 := by
  have hhold : tally holding s = 0 := by
    apply List.countP_eq_zero.mpr
    intro t ht
    have hover := forall_of_tally_zero hdone t ht
    cases t <;> simp_all [outstanding, holding]
  have hpending := hs.pending
  rw [hhold] at hpending
  exact BitVec.eq_of_toNat_eq hpending

theorem PairedInv.pending_ne_zero {s : Process} (hs : PairedInv s)
    (hfin : 0 < tally finalizing s) (hrunning : s.shared.ult ≠ .exited)
    (hflag : s.shared.flag = true) : s.shared.pending ≠ 0 := by
  obtain ⟨t, ht, hft⟩ := exists_of_tally_pos hfin
  have hskip : tally skipped s = 0 := by simpa [hrunning, hflag] using hs.off
  have hjoin : tally joined s = 0 := by simpa [hrunning] using hs.join
  have hst := forall_of_tally_zero hskip t ht
  have hjt := forall_of_tally_zero hjoin t ht
  have hhold : holding t = true := by
    cases t with
    | span w i d =>
        cases ho : i.outcome with
        | none => simp_all [finalizing]
        | some b => cases b <;> simp_all [finalizing, skipped, joined, holding]
    | _ => simp [finalizing] at hft
  have hpos : 0 < tally holding s := List.countP_pos_iff.mpr ⟨t, ht, hhold⟩
  intro hzero
  rw [← hs.pending, hzero] at hpos
  exact absurd hpos (by decide)

/-- As long as the macros of every span are paired, in every state of every
interleaving the counter cannot underflow, is zero when nothing is
outstanding, and is nonzero from the increment of `margo_finalize` until the
progress ULT has exited if the flag is on. -/
theorem toggling_safe {flag : Bool} {calls : List Call} {as : List (Nat × Choice)}
    {s : Process} (hrun : Run step Paired (start flag calls) as s) :
    (∀ a s', step s a = some s' → s.shared.pending = 0 →
      s'.shared.pending ≠ BitVec.allOnes 64) ∧
    (tally outstanding s = 0 → s.shared.pending = 0) ∧
    (0 < tally finalizing s → s.shared.ult ≠ .exited → s.shared.flag = true →
      s.shared.pending ≠ 0) := by
  have hs := pairedInv_run hrun
  refine ⟨?_, hs.pending_zero, hs.pending_ne_zero⟩
  intro a s' h hzero
  exact hs.no_underflow h hzero

/-- A forward completes with the flag on, then `margo_finalize` increments: the
counter is nonzero while the progress ULT runs. -/
theorem toggling_safe_finalizing :
    ∃ s, Run step Paired (start true [.forward, .finalize])
        [(1, .ok), (1, .ok), (1, .ok), (1, .ok), (1, .decr), (1, .decr),
          (2, .ok), (2, .ok), (2, .ok)] s ∧
      0 < tally finalizing s ∧ s.shared.ult ≠ .exited ∧ s.shared.pending ≠ 0 := by
  have hrun : Run step Paired (start true [.forward, .finalize])
      [(1, .ok), (1, .ok), (1, .ok), (1, .ok), (1, .decr), (1, .decr),
        (2, .ok), (2, .ok), (2, .ok)]
      ⟨⟨true, 1, true, .shutdownTest⟩,
        [.loop, .span .operation (.ended true) .ended, .span .finalize .signal .test]⟩ :=
    run_of_exec (by decide)
  have hsafe := toggling_safe hrun
  exact ⟨_, hrun, by decide, by decide, hsafe.2.2 (by decide) (by decide) rfl⟩

/-- A forward is issued with the flag off and completes with the flag on: its
decrement takes the counter from zero to `2 ^ 64 - 1`. -/
theorem toggle_underflows :
    ¬ ∀ (flag : Bool) (calls : List Call) (as : List (Nat × Choice)) (s : Process),
      calls.count .finalize = 1 → Run step ForwardAccepted (start flag calls) as s →
      (∀ a s', step s a = some s' → s.shared.pending = 0 →
        s'.shared.pending ≠ BitVec.allOnes 64) ∧
      (tally outstanding s = 0 → s.shared.pending = 0) ∧
      (0 < tally finalizing s → s.shared.ult ≠ .exited → s.shared.flag = true →
        s.shared.pending ≠ 0) := by
  intro hall
  have hrun : Run step ForwardAccepted
      (start false [.forward, .setProgressWhenNeeded true, .finalize])
      [(1, .ok), (1, .ok), (2, .ok), (1, .decr)]
      ⟨⟨true, 0, false, .shutdownTest⟩,
        [.loop, .span .operation (.ended false) .lock, .call .finalize]⟩ :=
    run_of_exec (by decide)
  obtain ⟨hunder, -⟩ := hall _ _ _ _ (by decide) hrun
  have hstep : step
      ⟨⟨true, 0, false, .shutdownTest⟩,
        [.loop, .span .operation (.ended false) .lock, .call .finalize]⟩ (1, .decr) =
      some ⟨⟨true, BitVec.allOnes 64, false, .shutdownTest⟩,
        [.loop, .span .operation (.ended false) .ended, .call .finalize]⟩ := by decide
  exact hunder _ _ hstep rfl rfl

end Margo.Progress
