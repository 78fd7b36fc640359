import Margo.Shutdown.Teardown

/-!
# Freeing an instance

Four places decide on their own to call `margo_cleanup`: the end of
`margo_finalize`, the two wait functions and `margo_instance_release`. Each
reads `refcount`, `finalize_refcount` or `finalize_flag` under a protection of
its own. The ledger of an instance keeps the books of who owns a reference,
who is counted as a waiter, how far the teardown has got and who has decided
to clean up; in a run that avoids four situations it always balances, and at
most one decision is ever made.

## Implementation notes

The situations are conditions on the state before a step: a release drops the
last reference while the teardown has not set `finalize_flag`, still has its
broadcast to do, or waiters are counted; the last waiter leaves while the
broadcast is still to be done; a waiter enters an instance that nobody holds
or waits for; a thread closes the gate while another one is armed.
-/

namespace Margo.Shutdown

open Lib Lib.Runs Lib.ThreadPool Lib.FlagCounter

/-- The books of an instance that is being shut down. -/
structure Ledger where
  /-- `refcount`. -/
  refcount : Nat
  /-- Threads that own a reference and have not dropped it. -/
  owners : Nat
  /-- Finalize calls of the program that have not started. -/
  calls : Nat
  /-- 1 once finalization was requested. -/
  requested : Nat
  teardowns : Nat
  /-- Teardowns that have not dropped the reference they own. -/
  early : Nat
  /-- Teardowns at the critical section of `margo_finalize`. -/
  critical : Nat
  /-- 1 once `finalize_flag` is set. -/
  flag : Nat
  /-- `finalize_refcount`. -/
  waiters : Int
  /-- Threads that have entered a wait function and not left it. -/
  counted : Nat
  /-- Releases that dropped the last reference. -/
  dropped : Nat
  /-- Releases about to take it back and call `margo_finalize`. -/
  returning : Nat
  /-- Broadcasts to be done before a cleanup. -/
  announcingLast : Nat
  /-- Broadcasts to be done with no cleanup after them. -/
  announcing : Nat
  cleaning : Nat
  cleaned : Nat

/-- 1 if nobody waits for the instance and nobody owns a reference to it: the
test that every decision but that of a release makes. -/
def idle (waiters : Int) (refcount : Nat) : Nat :=
  if waiters = 0 ∧ refcount = 0 then 1 else 0

theorem idle_spec (w : Int) (rc : Nat) :
    (w = 0 ∧ rc = 0) ∧ idle w rc = 1 ∨ ¬(w = 0 ∧ rc = 0) ∧ idle w rc = 0 := by
  by_cases h : w = 0 ∧ rc = 0
  · exact .inl ⟨h, if_pos h⟩
  · exact .inr ⟨h, if_neg h⟩

/-- Decisions to call `margo_cleanup`, carried out or not. -/
def Ledger.decisions (l : Ledger) : Nat :=
  l.announcingLast + l.dropped + l.cleaning + l.cleaned

/-- When the books balance. -/
structure Ledger.Balanced (l : Ledger) : Prop where
  calls : l.calls + l.requested + l.returning ≤ 1
  entered : l.teardowns ≤ l.requested
  progress : l.early + l.critical + l.flag = l.teardowns
  refs : l.refcount + l.teardowns = l.owners + l.calls + l.requested + l.early
  bound : l.refcount < 2 ^ 32
  waiters : l.waiters = l.counted
  /-- Before the teardown a dropped reference is taken back, and nobody else
  has one. -/
  open_dropped : l.teardowns = 0 → l.calls + l.requested + l.returning + l.dropped ≤ 1 ∧
    (0 < l.dropped + l.returning → l.owners = 0)
  running_dropped : l.teardowns = 1 → l.flag = 0 → l.dropped = 0
  undecided : l.flag = 0 → l.announcingLast + l.announcing + l.cleaning + l.cleaned = 0
  decided : l.flag = 1 → l.decisions = idle l.waiters l.refcount
  announcing : 0 < l.announcing → idle l.waiters l.refcount = 0

/-- What a step of one thread does to the books. -/
inductive Ledger.Move : Ledger → Ledger → Prop
  | keep (l) : Move l l
  | request (l : Ledger) {c r c'} (h : c' + 1 = c + r) :
      Move { l with calls := c, requested := r } { l with calls := c', requested := 1 }
  | enter (l : Ledger) {c r c'} (h : c' + 1 = c + r) (first : l.teardowns = 0) :
      Move { l with calls := c, requested := r }
        { l with calls := c', requested := 1, teardowns := 1, early := l.early + 1 }
  | andWait (l : Ledger) {r} :
      Move { l with calls := l.calls + 1, requested := r }
        { l with requested := 1, waiters := l.waiters + 1, counted := l.counted + 1 }
  | refDecr (l : Ledger) :
      Move { l with early := l.early + 1 }
        { l with critical := l.critical + 1, refcount := decr32 l.refcount }
  | critical (l : Ledger) {f} :
      Move { l with critical := l.critical + 1, flag := f }
        { l with
          flag := 1
          announcingLast := l.announcingLast + idle l.waiters l.refcount
          announcing := l.announcing + (1 - idle l.waiters l.refcount) }
  | announceLast (l : Ledger) :
      Move { l with announcingLast := l.announcingLast + 1 }
        { l with cleaning := l.cleaning + 1 }
  | announce (l : Ledger) : Move { l with announcing := l.announcing + 1 } l
  | cleanup (l : Ledger) :
      Move { l with cleaning := l.cleaning + 1 } { l with cleaned := l.cleaned + 1 }
  | wait (l : Ledger) (h : l.flag = 0) :
      Move l { l with waiters := l.waiters + 1, counted := l.counted + 1 }
  | leave (l : Ledger) (h : l.flag = 1)
      (last : l.waiters = 1 → l.refcount = 0 → l.announcing = 0) :
      Move { l with counted := l.counted + 1 }
        { l with
          waiters := l.waiters - 1
          cleaning := l.cleaning + idle (l.waiters - 1) l.refcount }
  | refIncr (l : Ledger) (h : l.refcount + 1 < 2 ^ 32) :
      Move { l with owners := l.owners + 1 }
        { l with owners := l.owners + 1 + 1, refcount := incr32 l.refcount }
  | release (l : Ledger)
      (last : l.refcount = 1 →
        l.teardowns = 0 ∨ l.flag = 1 ∧ l.waiters = 0 ∧ l.announcing = 0) :
      Move { l with owners := l.owners + 1 }
        { l with
          refcount := decr32 l.refcount
          dropped := l.dropped + if decr32 l.refcount = 0 then 1 else 0 }
  | releaseLast (l : Ledger) (h : l.flag = 1) :
      Move { l with dropped := l.dropped + 1 } { l with cleaning := l.cleaning + 1 }
  | releaseEarly (l : Ledger) (h : l.flag = 0) :
      Move { l with dropped := l.dropped + 1 } { l with returning := l.returning + 1 }
  | takeBack (l : Ledger) :
      Move { l with returning := l.returning + 1 }
        { l with refcount := incr32 l.refcount, calls := l.calls + 1 }

/-- Every move keeps the books balanced. -/
theorem Ledger.Balanced.move {l l' : Ledger} (h : l.Balanced) (hm : l.Move l') :
    l'.Balanced := by
  obtain ⟨hcalls, hent, hprog, hrefs, hbound, hwait, hopen, hrun, hund, hdec, hann⟩ := h
  cases hm with
  | keep => exact ⟨hcalls, hent, hprog, hrefs, hbound, hwait, hopen, hrun, hund, hdec, hann⟩
  | request l h | enter l h first | announceLast | cleanup | releaseLast | releaseEarly =>
      dsimp only [Ledger.decisions] at *
      constructor <;> dsimp only [Ledger.decisions] <;> omega
  | announce =>
      dsimp only [Ledger.decisions] at *
      constructor <;> first | assumption | omega
  | andWait l | wait l =>
      dsimp only [Ledger.decisions] at *
      have hidle := idle_spec l.waiters l.refcount
      have hidle' : idle (l.waiters + 1) l.refcount = 0 := if_neg fun h => by omega
      constructor <;> dsimp only [Ledger.decisions] <;> omega
  | leave l =>
      dsimp only [Ledger.decisions] at *
      have hidle : idle l.waiters l.refcount = 0 := if_neg fun h => by omega
      have hidle' := idle_spec (l.waiters - 1) l.refcount
      rw [hidle] at hdec hann
      constructor <;> dsimp only [Ledger.decisions] <;> omega
  | critical l =>
      have hidle := idle_spec l.waiters l.refcount
      dsimp only [Ledger.decisions] at *
      constructor <;> dsimp only [Ledger.decisions] <;> omega
  | refDecr l =>
      dsimp only [Ledger.decisions] at *
      rw [decr32_of_pos (x := l.refcount) (by omega)]
      constructor <;> dsimp only [Ledger.decisions] <;> omega
  | refIncr l h =>
      dsimp only [Ledger.decisions] at *
      have hidle := idle_spec l.waiters l.refcount
      have hidle' := idle_spec l.waiters (l.refcount + 1)
      rw [incr32_of_lt h]
      constructor <;> dsimp only [Ledger.decisions] <;> omega
  | release l last =>
      dsimp only [Ledger.decisions] at *
      have hpos : 0 < l.refcount := by omega
      have hidle : idle l.waiters l.refcount = 0 := if_neg fun h => by omega
      rw [decr32_of_pos hpos]
      rw [hidle] at hdec hann
      by_cases hone : l.refcount = 1
      · -- The last reference: nobody is left who could decide after this release.
        have hlast := last hone
        have hidle' := idle_spec l.waiters 0
        rw [hone] at hrefs hbound
        simp only [hone, Nat.sub_self, if_true]
        constructor <;> dsimp only [Ledger.decisions] <;> omega
      · have hmore : l.refcount - 1 ≠ 0 := by omega
        have hidle' : idle l.waiters (l.refcount - 1) = 0 := if_neg fun h => hmore h.2
        simp only [hmore, if_false]
        constructor <;> dsimp only [Ledger.decisions] <;> omega
  | takeBack l =>
      dsimp only [Ledger.decisions] at *
      rw [incr32_of_lt (x := l.refcount) (by omega)]
      constructor <;> dsimp only [Ledger.decisions] <;> omega

/-- A reference owner that has not dropped its reference. -/
def owns : Thread → Bool
  | .holder | .relDecr => true
  | _ => false

/-- A teardown before its `refcount--`. -/
def early : Thread → Bool
  | .prefinalize _ | .join _ | .refDecr _ => true
  | _ => false

def atCritical : Thread → Bool
  | .critical _ => true
  | _ => false

/-- A thread counted in `finalize_refcount`: a waiter, or any point of
`margo_finalize` inside `margo_finalize_and_wait`. -/
def counted : Thread → Bool
  | .waitLoop | .condWait _ => true
  | .finalize k | .prefinalize k | .join k | .refDecr k | .critical k | .broadcast k _
  | .cleanup k => k = .andWait
  | _ => false

/-- A release that dropped the last reference. -/
def dropped : Thread → Bool
  | .relFlag => true
  | _ => false

/-- A `margo_finalize` call with its broadcast still to do. -/
def announces (doCleanup : Bool) : Thread → Bool
  | .broadcast _ b => b = doCleanup
  | _ => false

def cleans : Thread → Bool
  | .cleanup _ => true
  | _ => false

/-- The books of an instance and a list of threads. -/
def ledger (mid : Instance) (ts : List Thread) : Ledger where
  refcount := mid.refcount
  owners := ts.countP owns
  calls := ts.countP userCall
  requested := (requested mid).toNat
  teardowns := mid.teardowns
  early := ts.countP early
  critical := ts.countP atCritical
  flag := mid.finalizeFlag.toNat
  waiters := mid.finalizeRefcount
  counted := ts.countP counted
  dropped := ts.countP dropped
  returning := ts.countP returning
  announcingLast := ts.countP (announces true)
  announcing := ts.countP (announces false)
  cleaning := ts.countP cleans
  cleaned := mid.cleanups

theorem ledger_perm {mid : Instance} {ts us : List Thread} (h : ts.Perm us) :
    ledger mid ts = ledger mid us := by
  simp only [ledger, h.countP_eq]

/-- 1 if the call returns into `margo_finalize_and_wait`. -/
def inWait (k : Caller) : Nat := (decide (k = .andWait)).toNat

theorem ledger_cons (mid : Instance) (t : Thread) (us : List Thread) :
    ledger mid (t :: us) =
      { ledger mid us with
        owners := us.countP owns + (owns t).toNat
        calls := us.countP userCall + (userCall t).toNat
        early := us.countP early + (early t).toNat
        critical := us.countP atCritical + (atCritical t).toNat
        counted := us.countP counted + (counted t).toNat
        dropped := us.countP dropped + (dropped t).toNat
        returning := us.countP returning + (returning t).toNat
        announcingLast := us.countP (announces true) + (announces true t).toNat
        announcing := us.countP (announces false) + (announces false t).toNat
        cleaning := us.countP cleans + (cleans t).toNat } := by
  have hcount : ∀ p : Thread → Bool, (t :: us).countP p = us.countP p + (p t).toNat := by
    intro p
    cases hp : p t <;> simp [hp]
  simp only [ledger, hcount]

theorem ledger_holder (mid : Instance) (us : List Thread) :
    ledger mid (.holder :: us) = { ledger mid us with owners := us.countP owns + 1 } := by
  rw [ledger_cons]
  rfl

theorem ledger_relDecr (mid : Instance) (us : List Thread) :
    ledger mid (.relDecr :: us) = { ledger mid us with owners := us.countP owns + 1 } := by
  rw [ledger_cons]
  rfl

theorem ledger_relFlag (mid : Instance) (us : List Thread) :
    ledger mid (.relFlag :: us) = { ledger mid us with dropped := us.countP dropped + 1 } := by
  rw [ledger_cons]
  rfl

theorem ledger_relIncr (mid : Instance) (us : List Thread) :
    ledger mid (.relIncr :: us) =
      { ledger mid us with returning := us.countP returning + 1 } := by
  rw [ledger_cons]
  rfl

theorem ledger_finalize (mid : Instance) (k : Caller) (us : List Thread) :
    ledger mid (.finalize k :: us) =
      { ledger mid us with
        calls := us.countP userCall + (decide (k = .user)).toNat
        counted := us.countP counted + inWait k } := by
  rw [ledger_cons]
  cases k <;> rfl

theorem ledger_andWait (mid : Instance) (us : List Thread) :
    ledger mid (.andWait :: us) =
      { ledger mid us with calls := us.countP userCall + 1 } := by
  rw [ledger_cons]
  rfl

theorem ledger_early {t : Thread} {k : Caller} (ht : t = .prefinalize k ∨ t = .join k ∨
    t = .refDecr k) (mid : Instance) (us : List Thread) :
    ledger mid (t :: us) =
      { ledger mid us with
        early := us.countP early + 1
        counted := us.countP counted + inWait k } := by
  rw [ledger_cons]
  rcases ht with rfl | rfl | rfl <;> rfl

theorem ledger_critical (mid : Instance) (k : Caller) (us : List Thread) :
    ledger mid (.critical k :: us) =
      { ledger mid us with
        critical := us.countP atCritical + 1
        counted := us.countP counted + inWait k } := by
  rw [ledger_cons]
  rfl

theorem ledger_broadcast (mid : Instance) (k : Caller) (b : Bool) (us : List Thread) :
    ledger mid (.broadcast k b :: us) =
      { ledger mid us with
        announcingLast := us.countP (announces true) + b.toNat
        announcing := us.countP (announces false) + (!b).toNat
        counted := us.countP counted + inWait k } := by
  rw [ledger_cons]
  cases b <;> rfl

theorem ledger_cleanup (mid : Instance) (k : Caller) (us : List Thread) :
    ledger mid (.cleanup k :: us) =
      { ledger mid us with
        cleaning := us.countP cleans + 1
        counted := us.countP counted + inWait k } := by
  rw [ledger_cons]
  rfl

theorem ledger_waiter {t : Thread} (ht : t = .waitLoop ∨ ∃ g, t = .condWait g)
    (mid : Instance) (us : List Thread) :
    ledger mid (t :: us) = { ledger mid us with counted := us.countP counted + 1 } := by
  rw [ledger_cons]
  rcases ht with rfl | ⟨g, rfl⟩ <;> rfl

theorem ledger_afterFinalize (mid : Instance) (k : Caller) (us : List Thread) :
    ledger mid (afterFinalize k ++ us) =
      { ledger mid us with counted := us.countP counted + inWait k } := by
  cases k with
  | user | rpc => rfl
  | andWait => exact ledger_waiter (.inl rfl) mid us

/-- The thread appears nowhere in the books. -/
def bystander : Thread → Bool
  | .handler | .incrCas _ | .create | .createFailed | .ult | .ultCheck
  | .waitForFinalize => true
  | _ => false

theorem ledger_bystander {t : Thread} (ht : bystander t = true) (mid : Instance)
    (us : List Thread) : ledger mid (t :: us) = ledger mid us := by
  rw [ledger_cons]
  cases t <;> first | rfl | cases ht

theorem ledger_incrTest (mid : Instance) (w : BitVec 32) (us : List Thread) :
    ledger mid (incrTest w ++ us) = ledger mid us := by
  unfold incrTest
  split
  · rfl
  · exact ledger_bystander rfl mid us

/-- A step after which cleaning up can still be done once and last. -/
def Orderly (s : State) (a : Label) (s' : State) : Prop :=
  LoneCloser s a s' ∧ ∀ t ∈ s.threads[a.1]?,
    (t = .relDecr → s.shared.refcount = 1 → s.shared.teardowns = 0 ∨
      s.shared.finalizeFlag = true ∧ s.shared.finalizeRefcount = 0 ∧
        tally (announces false) s = 0) ∧
    (t = .waitLoop → s.shared.finalizeFlag = true → s.shared.finalizeRefcount = 1 →
      s.shared.refcount = 0 → tally (announces false) s = 0) ∧
    (t = .waitForFinalize → s.shared.finalizeFlag = true →
      s.shared.finalizeRefcount = 0 → s.shared.refcount ≠ 0) ∧
    (t = .holder → a.2 = true → s.shared.refcount + 1 < 2 ^ 32)

instance : ∀ s a s', Decidable (Orderly s a s') :=
  fun _ _ _ => inferInstanceAs (Decidable (_ ∧ _))

theorem ledger_requestFinalize (mid : Instance) (us : List Thread) :
    ledger (requestFinalize mid) us = { ledger mid us with requested := 1 } := by
  simp only [ledger, requested_requestFinalize]
  rfl

/-- `margo_finalize` requests finalization and returns or enters the teardown. -/
theorem finalize_move {mid mid' : Instance} {k : Caller} {ok : Bool} {ts : List Thread}
    (h : threadStep mid (.finalize k) ok = some (mid', ts))
    (hreq : requested mid = decide (k ≠ .user))
    (hfirst : mid.teardowns < mid'.teardowns → mid.teardowns = 0) (us : List Thread) :
    (ledger mid (.finalize k :: us)).Move (ledger mid' (ts ++ us)) := by
  have hcalls : us.countP userCall + 1 =
      us.countP userCall + (decide (k = .user)).toNat + (requested mid).toNat := by
    rw [hreq]
    cases k <;> rfl
  simp only [threadStep] at h
  split at h <;> simp only [Option.some.injEq, Prod.mk.injEq] at h <;> obtain ⟨rfl, rfl⟩ := h
  · rw [ledger_finalize, ledger_afterFinalize, ledger_requestFinalize]
    exact Ledger.Move.request
      { ledger mid us with counted := us.countP counted + inWait k } hcalls
  · have hzero := hfirst (Nat.lt_succ_self _)
    have hm := Ledger.Move.enter
      { ledger mid us with counted := us.countP counted + inWait k } hcalls hzero
    rw [List.cons_append, List.nil_append, ledger_finalize, ledger_early (.inl rfl)]
    change Ledger.Move _ { ledger (requestFinalize mid) us with
      teardowns := mid.teardowns + 1, early := _, counted := _ }
    rw [ledger_requestFinalize, hzero]
    exact hm

theorem doCleanup_toNat (mid : Instance) :
    (doCleanup mid).toNat = idle mid.finalizeRefcount mid.refcount := by
  unfold doCleanup idle
  by_cases h : mid.finalizeRefcount = 0 ∧ mid.refcount = 0 <;> simp [h]

theorem ledger_decision (mid : Instance) (b : Bool) (us : List Thread) :
    ledger mid ((if b then [.cleanup .user] else []) ++ us) =
      { ledger mid us with cleaning := us.countP cleans + b.toNat } := by
  cases b with
  | false => rfl
  | true => exact ledger_cleanup mid .user us

/-- A waiter at its loop test stays, or leaves and cleans up if it was the last. -/
theorem waitLoop_move {mid : Instance} (us : List Thread)
    (hlast : mid.finalizeFlag = true → mid.finalizeRefcount = 1 → mid.refcount = 0 →
      us.countP (announces false) = 0) :
    (ledger mid (.waitLoop :: us)).Move
      (ledger (waitSection mid).1 ((waitSection mid).2 ++ us)) := by
  unfold waitSection
  rw [ledger_waiter (.inl rfl)]
  split
  · next hf =>
      have hm := Ledger.Move.leave (ledger mid us) (by simp [ledger, hf]) (hlast hf)
      rw [ledger_decision, doCleanup_toNat]
      exact hm
  · rw [List.cons_append, List.nil_append, ledger_waiter (.inr ⟨_, rfl⟩)]
    exact Ledger.Move.keep _

/-- A waiter that arrives is counted, or passes through. -/
theorem waitForFinalize_move {mid : Instance} (us : List Thread)
    (hin : mid.finalizeFlag = true → mid.finalizeRefcount = 0 → mid.refcount ≠ 0) :
    (ledger mid (.waitForFinalize :: us)).Move
      (ledger (waitSection { mid with finalizeRefcount := mid.finalizeRefcount + 1 }).1
        ((waitSection { mid with finalizeRefcount := mid.finalizeRefcount + 1 }).2 ++ us)) := by
  unfold waitSection
  rw [ledger_bystander rfl]
  split
  · next hf =>
      have hstay : ¬(mid.finalizeRefcount = 0 ∧ mid.refcount = 0) := fun h => hin hf h.1 h.2
      rw [ledger_decision, doCleanup_toNat]
      simp only [Int.add_sub_cancel, idle, if_neg hstay, Nat.add_zero]
      exact Ledger.Move.keep _
  · next hf =>
      have hm := Ledger.Move.wait (ledger mid us) (by simpa [ledger] using hf)
      rw [List.cons_append, List.nil_append, ledger_waiter (.inr ⟨_, rfl⟩)]
      exact hm

/-- The owner of a reference takes another one or starts to release its own. -/
theorem holder_move {mid mid' : Instance} {ok : Bool} {ts : List Thread}
    (h : threadStep mid .holder ok = some (mid', ts))
    (hincr : ok = true → mid.refcount + 1 < 2 ^ 32) (hrefs : mid.refcount ≠ 0)
    (us : List Thread) : (ledger mid (.holder :: us)).Move (ledger mid' (ts ++ us)) := by
  cases ok with
  | true =>
      simp only [threadStep, Option.some.injEq, Prod.mk.injEq] at h
      obtain ⟨rfl, rfl⟩ := h
      have hm := Ledger.Move.refIncr (ledger mid us) (hincr rfl)
      have hown : (Thread.holder :: us).countP owns = us.countP owns + 1 :=
        List.countP_cons_of_pos rfl
      rw [List.cons_append, List.cons_append, List.nil_append, ledger_holder, ledger_holder,
        ledger_holder, hown]
      exact hm
  | false =>
      simp only [threadStep, Option.some.injEq, Prod.mk.injEq] at h
      obtain ⟨rfl, rfl⟩ := h
      rw [if_neg hrefs, List.cons_append, List.nil_append, ledger_holder, ledger_relDecr]
      exact Ledger.Move.keep _

/-- A release drops its reference, and goes on if it was the last one. -/
theorem relDecr_move {mid mid' : Instance} {ok : Bool} {ts us : List Thread}
    (h : threadStep mid .relDecr ok = some (mid', ts))
    (hlast : mid.refcount = 1 → mid.teardowns = 0 ∨
      mid.finalizeFlag = true ∧ mid.finalizeRefcount = 0 ∧ us.countP (announces false) = 0) :
    (ledger mid (.relDecr :: us)).Move (ledger mid' (ts ++ us)) := by
  simp only [threadStep, Option.some.injEq, Prod.mk.injEq] at h
  obtain ⟨rfl, rfl⟩ := h
  have hm := Ledger.Move.release (ledger mid us) (fun hone => by
    rcases hlast hone with hzero | ⟨hf, hw, hb⟩
    · exact .inl hzero
    · exact .inr ⟨by simp [ledger, hf], hw, hb⟩)
  rw [ledger_relDecr]
  split
  · next hz =>
      rw [List.cons_append, List.nil_append, ledger_relFlag]
      simpa only [ledger, requested, hz, if_true] using hm
  · next hz =>
      rw [List.nil_append]
      simpa only [ledger, requested, hz, if_false, Nat.add_zero] using hm

/-- The release of the last reference cleans up, or takes the reference back. -/
theorem relFlag_move {mid mid' : Instance} {ok : Bool} {ts : List Thread}
    (h : threadStep mid .relFlag ok = some (mid', ts)) (us : List Thread) :
    (ledger mid (.relFlag :: us)).Move (ledger mid' (ts ++ us)) := by
  simp only [threadStep, Option.some.injEq, Prod.mk.injEq] at h
  obtain ⟨rfl, rfl⟩ := h
  rw [ledger_relFlag]
  cases hf : mid.finalizeFlag with
  | true =>
      rw [if_pos rfl, List.cons_append, List.nil_append, ledger_cleanup]
      exact Ledger.Move.releaseLast (ledger mid us) (by simp [ledger, hf])
  | false =>
      rw [if_neg (by simp), List.cons_append, List.nil_append, ledger_relIncr]
      exact Ledger.Move.releaseEarly (ledger mid us) (by simp [ledger, hf])

/-- The critical section of `margo_finalize` decides whether to clean up. -/
theorem critical_move {mid mid' : Instance} {k : Caller} {ok : Bool} {ts : List Thread}
    (h : threadStep mid (.critical k) ok = some (mid', ts)) (us : List Thread) :
    (ledger mid (.critical k :: us)).Move (ledger mid' (ts ++ us)) := by
  simp only [threadStep, Option.some.injEq, Prod.mk.injEq] at h
  obtain ⟨rfl, rfl⟩ := h
  have hm := Ledger.Move.critical (f := mid.finalizeFlag.toNat)
    { ledger mid us with counted := us.countP counted + inWait k }
  have hnot : (!doCleanup mid).toNat = 1 - idle mid.finalizeRefcount mid.refcount := by
    rw [← doCleanup_toNat]
    cases doCleanup mid <;> rfl
  rw [List.cons_append, List.nil_append, ledger_critical, ledger_broadcast, doCleanup_toNat, hnot]
  exact hm

/-- `margo_finalize` announces the end and cleans up if it has decided so. -/
theorem broadcast_move {mid mid' : Instance} {k : Caller} {doCleanup ok : Bool}
    {ts : List Thread} (h : threadStep mid (.broadcast k doCleanup) ok = some (mid', ts))
    (us : List Thread) :
    (ledger mid (.broadcast k doCleanup :: us)).Move (ledger mid' (ts ++ us)) := by
  simp only [threadStep, Option.some.injEq, Prod.mk.injEq] at h
  obtain ⟨rfl, rfl⟩ := h
  rw [ledger_broadcast]
  cases doCleanup with
  | true =>
      rw [if_pos rfl, List.cons_append, List.nil_append, ledger_cleanup]
      exact Ledger.Move.announceLast { ledger mid us with
        counted := us.countP counted + inWait k }
  | false =>
      rw [if_neg (by simp), ledger_afterFinalize]
      exact Ledger.Move.announce { ledger mid us with counted := us.countP counted + inWait k }

/-- `margo_finalize_and_wait` requests finalization and is counted. -/
theorem andWait_move {mid mid' : Instance} {ok : Bool} {ts : List Thread}
    (h : threadStep mid .andWait ok = some (mid', ts)) (us : List Thread) :
    (ledger mid (.andWait :: us)).Move (ledger mid' (ts ++ us)) := by
  simp only [threadStep, Option.some.injEq, Prod.mk.injEq] at h
  obtain ⟨rfl, rfl⟩ := h
  have hm := Ledger.Move.andWait (r := (requested mid).toNat) (ledger mid us)
  rw [ledger_andWait, List.cons_append, List.nil_append, ledger_finalize]
  change Ledger.Move _ { ledger (requestFinalize mid) us with
    calls := _, waiters := _, counted := _ }
  rw [ledger_requestFinalize]
  exact hm

/-- Every orderly step of a thread is a move of the ledger. -/
theorem ledger_move {s s' : State} {a : Label} {t : Thread} {ts us : List Thread}
    (ht : s.threads[a.1]? = some t) (hperm : s.threads.Perm (t :: us))
    (h : threadStep s.shared t a.2 = some (s'.shared, ts)) (hg : Orderly s a s')
    (hflag : fetchOr t = false → requested s'.shared = requested s.shared)
    (hreq : ∀ k, t = .finalize k → requested s.shared = decide (k ≠ .user))
    (hrefs : owns t = true → s.shared.refcount ≠ 0)
    (hfirst : s.shared.teardowns < s'.shared.teardowns → s.shared.teardowns = 0) :
    (ledger s.shared (t :: us)).Move (ledger s'.shared (ts ++ us)) := by
  obtain ⟨-, hord⟩ := hg
  obtain ⟨hrel, hloop, hwait, hincr⟩ := hord t ht
  have hann : announces false t = false → tally (announces false) s = 0 →
      us.countP (announces false) = 0 := by
    intro hnot hzero
    rw [tally, hperm.countP_eq, List.countP_cons, hnot] at hzero
    simpa using hzero
  have hkeep : ∀ {mid : Instance} {v : BitVec 32} {n : Nat},
      requested { mid with shutdownState := v, admissions := n } = requested mid →
      ledger { mid with shutdownState := v, admissions := n } us = ledger mid us := by
    intro mid v n hr
    simp only [ledger, hr]
  cases t with
  | holder => exact holder_move h (hincr rfl) (hrefs rfl) us
  | relDecr =>
      apply relDecr_move h
      intro hone
      rcases hrel rfl hone with hzero | ⟨hf, hw, hb⟩
      · exact .inl hzero
      · exact .inr ⟨hf, hw, hann rfl hb⟩
  | relFlag => exact relFlag_move h us
  | relIncr =>
      simp only [threadStep, Option.some.injEq, Prod.mk.injEq] at h
      obtain ⟨hmid, rfl⟩ := h
      rw [← hmid, ledger_relIncr, List.cons_append, List.nil_append, ledger_finalize]
      exact Ledger.Move.takeBack (ledger s.shared us)
  | finalize k => exact finalize_move h (hreq k rfl) hfirst us
  | prefinalize k =>
      simp only [threadStep, Option.some.injEq, Prod.mk.injEq] at h
      obtain ⟨hmid, rfl⟩ := h
      rw [← hmid, List.cons_append, List.nil_append, ledger_early (.inl rfl),
        ledger_early (.inr (.inl rfl))]
      exact Ledger.Move.keep _
  | join k =>
      simp only [threadStep, Option.some.injEq, Prod.mk.injEq] at h
      obtain ⟨hmid, rfl⟩ := h
      rw [← hmid, List.cons_append, List.nil_append, ledger_early (.inr (.inl rfl)),
        ledger_early (.inr (.inr rfl))]
      exact Ledger.Move.keep _
  | refDecr k =>
      simp only [threadStep, Option.some.injEq, Prod.mk.injEq] at h
      obtain ⟨hmid, rfl⟩ := h
      rw [← hmid, List.cons_append, List.nil_append, ledger_early (.inr (.inr rfl)),
        ledger_critical]
      simpa only [ledger, requested] using Ledger.Move.refDecr
        { ledger s.shared us with counted := us.countP counted + inWait k }
  | critical k => exact critical_move h us
  | broadcast k doCleanup => exact broadcast_move h us
  | cleanup k =>
      simp only [threadStep, Option.some.injEq, Prod.mk.injEq] at h
      obtain ⟨hmid, rfl⟩ := h
      rw [← hmid, ledger_cleanup, ledger_afterFinalize]
      exact Ledger.Move.cleanup { ledger s.shared us with
        counted := us.countP counted + inWait k }
  | andWait => exact andWait_move h us
  | waitForFinalize =>
      simp only [threadStep, Option.some.injEq] at h
      have hm := waitForFinalize_move us (hwait rfl)
      rwa [h] at hm
  | waitLoop =>
      simp only [threadStep, Option.some.injEq] at h
      have hm := waitLoop_move us (fun hf hw hr => hann rfl (hloop rfl hf hw hr))
      rwa [h] at hm
  | condWait generation =>
      simp only [threadStep] at h
      split at h
      · simp only [Option.some.injEq, Prod.mk.injEq] at h
        obtain ⟨hmid, rfl⟩ := h
        rw [← hmid, List.cons_append, List.nil_append, ledger_waiter (.inl rfl),
          ledger_waiter (.inr ⟨_, rfl⟩)]
        exact Ledger.Move.keep _
      · cases h
  | handler =>
      simp only [threadStep, Option.some.injEq, Prod.mk.injEq] at h
      obtain ⟨hmid, rfl⟩ := h
      rw [← hmid, ledger_bystander rfl, ledger_incrTest]
      exact Ledger.Move.keep _
  | incrCas cur =>
      simp only [threadStep] at h
      split at h <;> simp only [Option.some.injEq, Prod.mk.injEq] at h <;>
        obtain ⟨hmid, rfl⟩ := h <;> rw [← hmid] at hflag ⊢ <;> rw [ledger_bystander rfl]
      · rw [List.cons_append, List.nil_append, ledger_bystander rfl, hkeep (hflag rfl)]
        exact Ledger.Move.keep _
      · rw [ledger_incrTest]
        exact Ledger.Move.keep _
  | create =>
      simp only [threadStep, Option.some.injEq, Prod.mk.injEq] at h
      obtain ⟨hmid, rfl⟩ := h
      rw [← hmid, ledger_bystander rfl]
      split <;> rw [List.cons_append, List.nil_append, ledger_bystander rfl] <;>
        exact Ledger.Move.keep _
  | createFailed =>
      simp only [threadStep, Option.some.injEq, Prod.mk.injEq] at h
      obtain ⟨hmid, rfl⟩ := h
      rw [← hmid] at hflag ⊢
      rw [ledger_bystander rfl, List.nil_append, decrPending, hkeep (hflag rfl)]
      exact Ledger.Move.keep _
  | ult =>
      simp only [threadStep, Option.some.injEq, Prod.mk.injEq] at h
      obtain ⟨hmid, rfl⟩ := h
      rw [← hmid] at hflag ⊢
      rw [ledger_bystander rfl, List.cons_append, List.nil_append, ledger_bystander rfl,
        decrPending, hkeep (hflag rfl)]
      exact Ledger.Move.keep _
  | ultCheck =>
      simp only [threadStep, Option.some.injEq, Prod.mk.injEq] at h
      obtain ⟨hmid, rfl⟩ := h
      rw [← hmid, ledger_bystander rfl]
      split
      · rw [List.cons_append, List.nil_append, ledger_finalize]
        exact Ledger.Move.keep _
      · exact Ledger.Move.keep _

/-- An RPC handler, which takes no part in a shutdown that is under way. -/
def admits : Thread → Bool
  | .handler | .incrCas _ | .create | .createFailed => true
  | _ => false

/-- Only a handler is followed by a handler. -/
theorem threadStep_admits {mid mid' : Instance} {t : Thread} {ok : Bool} {ts : List Thread}
    (h : threadStep mid t ok = some (mid', ts)) (ht : admits t = false) :
    ts.countP admits = 0 := by
  have hwait : ∀ {m m' us}, waitSection m = (m', us) → us.countP admits = 0 := by
    intro m m' us hm
    have hzero := countP_waitSection (p := admits) rfl (fun _ => rfl) m
    rwa [hm] at hzero
  have hafter : ∀ k, (afterFinalize k).countP admits = 0 := by
    rintro (_ | _ | _) <;> rfl
  cases t with
  | handler | incrCas | create | createFailed => cases ht
  | waitForFinalize | waitLoop =>
      simp only [threadStep, Option.some.injEq] at h
      exact hwait h
  | finalize k =>
      simp only [threadStep] at h
      split at h <;> simp only [Option.some.injEq, Prod.mk.injEq] at h <;>
        obtain ⟨-, rfl⟩ := h
      · exact hafter k
      · rfl
  | condWait generation =>
      simp only [threadStep] at h
      split at h
      · simp only [Option.some.injEq, Prod.mk.injEq] at h
        obtain ⟨-, rfl⟩ := h
        rfl
      · cases h
  | holder =>
      cases ok <;> simp only [threadStep, Option.some.injEq, Prod.mk.injEq] at h <;>
        obtain ⟨-, rfl⟩ := h
      · split <;> rfl
      · rfl
  | ultCheck | relDecr | relFlag =>
      simp only [threadStep, Option.some.injEq, Prod.mk.injEq] at h
      obtain ⟨-, rfl⟩ := h
      split <;> rfl
  | broadcast k doCleanup =>
      simp only [threadStep, Option.some.injEq, Prod.mk.injEq] at h
      obtain ⟨-, rfl⟩ := h
      split
      · rfl
      · exact hafter k
  | cleanup k =>
      simp only [threadStep, Option.some.injEq, Prod.mk.injEq] at h
      obtain ⟨-, rfl⟩ := h
      exact hafter k
  | ult | prefinalize | join | refDecr | critical | andWait | relIncr =>
      simp only [threadStep, Option.some.injEq, Prod.mk.injEq] at h
      obtain ⟨-, rfl⟩ := h
      rfl

/-- What every orderly run keeps. -/
structure CleanupInv (s : State) : Prop extends WordInv s where
  handlers : tally admits s = 0
  late : 0 < tally lateCall s → requested s.shared = true
  once : (gate s).Closed → arming s ≤ 1
  balanced : (ledger s.shared s.threads).Balanced

theorem CleanupInv.step {s s' : State} {a : Label} (hs : CleanupInv s)
    (hg : Orderly s a s') (h : Shutdown.step s a = some s') : CleanupInv s' := by
  obtain ⟨hword, hmove, -, hflag⟩ := hs.toWordInv.step hg.1.1 h
  have hbal := hs.balanced
  have hret : (gate s).Closed → tally returning s = 0 := by
    intro hclosed
    have hcalls := hbal.calls
    have hreq : requested s.shared = true := hclosed.1
    simp only [ledger, hreq, Bool.toNat_true] at hcalls
    unfold tally
    omega
  have honce := hs.toWordInv.once_step hret hs.once hg.1 h
  obtain ⟨t, ts, ht, hprog, hperm, hperm'⟩ := step_cases h
  have hmem : t ∈ s.threads := List.mem_of_getElem? ht
  refine ⟨hword, ?_, hs.toWordInv.late_step hs.late hg.1.1 h, honce, ?_⟩
  · have hnone := hs.handlers
    have hkind := threadStep_admits hprog (forall_of_tally_zero hnone t hmem)
    rw [tally, hperm.countP_eq, List.countP_cons] at hnone
    rw [tally, hperm'.countP_eq, List.countP_append, hkind]
    omega
  rw [ledger_perm hperm']
  rw [ledger_perm hperm] at hbal
  refine hbal.move (ledger_move ht hperm hprog hg (hflag t ht) ?_ ?_ ?_)
  · rintro k rfl
    cases k with
    | user =>
        have hcalls := hbal.calls
        rw [ledger_finalize] at hcalls
        cases hr : requested s.shared with
        | false => rfl
        | true =>
            simp only [ledger, hr, decide_true, Bool.toNat_true] at hcalls
            omega
    | rpc | andWait =>
        exact hs.late (List.countP_pos_iff.mpr ⟨_, hmem, rfl⟩)
  · intro hown hzero
    have hrefs := hbal.refs
    have hent := hbal.entered
    rw [ledger_cons] at hrefs hent
    simp only [ledger, hown, hzero, Bool.toNat_true] at hrefs hent
    omega
  · intro hlt
    have hle := honce (hword.closed (by omega))
    unfold arming at hle
    omega

/-- A thread that can take part in the shutdown, at its first step: an RPC ULT
about to finish, a finalize call of the program, a waiter or an owner of a
reference. -/
def takesPart : Thread → Bool
  | .ult | .finalize .user | .andWait | .waitForFinalize | .holder => true
  | _ => false

/-- An instance with the given threads: one pending operation for each ULT, one
reference for each owner and one for the program's finalize call. -/
def running (threads : List Thread) : State where
  shared := freshInstance (threads.countP inFlight)
    (threads.countP owns + threads.countP userCall)
  threads := threads

theorem freshInstance_word {n : Nat} (hn : n < 2 ^ 31) (refs : Nat) :
    requested (freshInstance n refs) = false ∧ pending (freshInstance n refs) = n := by
  apply flag_count_of_toNat hn
  simp only [freshInstance, BitVec.toNat_ofNat, Bool.false_eq_true, if_false]
  omega

theorem countP_of_takesPart {threads : List Thread} {p : Thread → Bool}
    (hthreads : ∀ t ∈ threads, takesPart t = true)
    (hp : ∀ t, takesPart t = true → p t = false) : threads.countP p = 0 := by
  apply List.countP_eq_zero.mpr
  intro t ht
  simp [hp t (hthreads t ht)]

theorem CleanupInv.running {threads : List Thread}
    (hthreads : ∀ t ∈ threads, takesPart t = true) (hcalls : threads.countP userCall ≤ 1)
    (hops : threads.countP inFlight < 2 ^ 31)
    (hrefs : threads.countP owns + threads.countP userCall < 2 ^ 32) :
    CleanupInv (running threads) := by
  obtain ⟨hreq, hpend⟩ := freshInstance_word hops
    (threads.countP owns + threads.countP userCall)
  have hzero : ∀ {p : Thread → Bool}, (∀ t, takesPart t = true → p t = false) →
      threads.countP p = 0 := fun hp => countP_of_takesPart hthreads hp
  refine ⟨⟨hpend, ?_, ?_⟩, ?_, ?_, ?_, ?_⟩
  · apply hzero
    intro t ht
    cases t <;> first | rfl | cases ht
  · exact fun hpos => absurd hpos (Nat.lt_irrefl 0)
  · apply hzero
    intro t ht
    cases t <;> first | rfl | cases ht
  · have hlate : threads.countP lateCall = 0 := by
      apply hzero
      intro t ht
      cases t with
      | finalize k => cases k <;> first | rfl | cases ht
      | _ => rfl
    simp [tally, Shutdown.running, hlate]
  · exact fun hclosed => absurd (hreq.symm.trans hclosed.1) (by simp)
  · have hbooks : ledger (Shutdown.running threads).shared threads =
        ⟨threads.countP owns + threads.countP userCall, threads.countP owns,
          threads.countP userCall, 0, 0, 0, 0, 0, 0, 0, 0, 0, 0, 0, 0, 0⟩ := by
      rw [ledger, show requested (Shutdown.running threads).shared = false from hreq]
      congr 1
      all_goals
        apply hzero
        intro t ht
        cases t with
        | finalize k => cases k <;> first | rfl | cases ht
        | _ => first | rfl | cases ht
    rw [show (Shutdown.running threads).threads = threads from rfl, hbooks]
    constructor <;> dsimp only [Ledger.decisions] <;> omega

/-- The books once `margo_cleanup` has run. -/
theorem Ledger.Balanced.cleaned {l : Ledger} (h : l.Balanced) (hpos : 0 < l.cleaned) :
    l.cleaned = 1 ∧ l.teardowns = 1 ∧ l.waiters = 0 ∧ l.owners = 0 ∧ l.early = 0 ∧
      l.critical = 0 ∧ l.counted = 0 ∧ l.dropped = 0 ∧ l.returning = 0 ∧
      l.announcingLast = 0 ∧ l.announcing = 0 ∧ l.cleaning = 0 := by
  obtain ⟨hcalls, hent, hprog, hrefs, hbound, hwait, hopen, hrun, hund, hdec, hann⟩ := h
  have hflag : l.flag = 1 := by
    by_contra hne
    have hzero := hund (by omega)
    omega
  have hdecided := hdec hflag
  unfold Ledger.decisions at hdecided
  obtain ⟨⟨hwaiters, hcount⟩, hidle⟩ | ⟨-, hidle⟩ := idle_spec l.waiters l.refcount
  · have hquiet : l.announcing = 0 := by
      by_contra hne
      have hnot := hann (Nat.pos_of_ne_zero hne)
      omega
    clear hopen hrun hund hdec hann
    omega
  · omega

/-- Cleanup at most once and last: in every orderly interleaving of a teardown,
waiters, finishing RPC ULTs and owners of references, `margo_cleanup` runs at
most once, and once it has run nobody is counted as a waiter and no thread is
left but waiters that had not started. -/
theorem cleanup_once_and_last {threads : List Thread}
    (hthreads : ∀ t ∈ threads, takesPart t = true) (hcalls : threads.countP userCall ≤ 1)
    (hops : threads.countP inFlight < 2 ^ 31)
    (hrefs : threads.countP owns + threads.countP userCall < 2 ^ 32)
    {as : List Label} {s : State} (hrun : Run step Orderly (running threads) as s) :
    s.shared.cleanups ≤ 1 ∧ (0 < s.shared.cleanups →
      s.shared.finalizeRefcount = 0 ∧ ∀ t ∈ s.threads, t = .waitForFinalize) := by
  have hs : CleanupInv s := hrun.invariant (fun hs hg h => hs.step hg h)
    (CleanupInv.running hthreads hcalls hops hrefs)
  rcases Nat.eq_zero_or_pos s.shared.cleanups with hzero | hpos
  · exact ⟨by omega, fun hpos => absurd hpos (by omega)⟩
  obtain ⟨hone, htear, hwait, hown, hearly, hcrit, hcount, hdrop, hret, hlast, hann, hclean⟩ :=
    hs.balanced.cleaned hpos
  have hclosed := hs.closed (Nat.lt_of_lt_of_eq Nat.one_pos htear.symm)
  have harmed : tally armed s = 0 := by
    have honce := hs.once hclosed
    rw [arming, show s.shared.teardowns = 1 from htear] at honce
    omega
  refine ⟨Nat.le_of_eq hone, fun _ => ⟨hwait, fun t ht => ?_⟩⟩
  have hnot : ∀ {p : Thread → Bool}, s.threads.countP p = 0 → p t = true →
      t = .waitForFinalize := by
    intro p hzero hp
    rw [forall_of_tally_zero hzero t ht] at hp
    cases hp
  cases t with
  | waitForFinalize => rfl
  | handler | incrCas | create | createFailed => exact hnot hs.handlers rfl
  | ult => exact hnot hclosed.2 rfl
  | ultCheck | finalize | andWait => exact hnot harmed rfl
  | prefinalize | join | refDecr => exact hnot hearly rfl
  | critical => exact hnot hcrit rfl
  | broadcast k doCleanup =>
      cases doCleanup with
      | true => exact hnot hlast rfl
      | false => exact hnot hann rfl
  | cleanup => exact hnot hclean rfl
  | waitLoop | condWait => exact hnot hcount rfl
  | holder | relDecr => exact hnot hown rfl
  | relFlag => exact hnot hdrop rfl
  | relIncr => exact hnot hret rfl

/-- A teardown with one waiter: the waiter is counted before the teardown, woken
by its broadcast, and cleans up. -/
theorem cleanup_once_and_last_waiter :
    ∃ s, Run step Orderly (running [.finalize .user, .waitForFinalize])
        ([(1, true)] ++ List.replicate 6 (0, true) ++ List.replicate 3 (0, true)) s ∧
      s.shared.cleanups = 1 ∧ s.shared.finalizeRefcount = 0 ∧
      ∀ t ∈ s.threads, t = .waitForFinalize := by
  have hrun : Run step Orderly (running [.finalize .user, .waitForFinalize])
      ([(1, true)] ++ List.replicate 6 (0, true) ++ List.replicate 3 (0, true))
      ⟨{ freshInstance 0 0 with
          shutdownState := 0x80000000#32, finalizeFlag := true, broadcasts := 1,
          teardowns := 1, cleanups := 1 }, []⟩ := run_of_exec (by decide)
  obtain ⟨hwait, hthreads⟩ := (cleanup_once_and_last (by decide) (by decide) (by decide)
    (by decide) hrun).2 (by decide)
  exact ⟨_, hrun, rfl, hwait, hthreads⟩

/-- An owner releases the last reference between the `refcount--` of the
teardown and its critical section, and looks at `finalize_flag` after it: both
clean up. -/
theorem cleanup_run_twice :
    ¬∀ (threads : List Thread) (as : List Label) (s : State),
      (∀ t ∈ threads, takesPart t = true) → threads.countP userCall ≤ 1 →
      threads.countP inFlight < 2 ^ 31 →
      threads.countP owns + threads.countP userCall < 2 ^ 32 →
      Run step InFlightBound (running threads) as s →
      s.shared.cleanups ≤ 1 ∧ (0 < s.shared.cleanups →
        s.shared.finalizeRefcount = 0 ∧ ∀ t ∈ s.threads, t = .waitForFinalize) := by
  intro hall
  have hrun : Run step InFlightBound (running [.finalize .user, .holder])
      (List.replicate 4 (0, true) ++ [(1, false), (1, false)] ++
        List.replicate 3 (0, true) ++ [(0, true), (0, true)])
      ⟨{ freshInstance 0 0 with
          shutdownState := 0x80000000#32, finalizeFlag := true, broadcasts := 1,
          teardowns := 1, cleanups := 2 }, []⟩ := run_of_exec (by decide)
  exact absurd (hall _ _ _ (by decide) (by decide) (by decide) (by decide) hrun).1
    (by decide)

end Margo.Shutdown
