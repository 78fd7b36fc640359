import Margo.Abt.Calls
import Margo.Lib.ThreadPool

/-!
# Mutual exclusion on the Argobots environment

Any number of threads call the public functions on pools and xstreams of one
environment. Taking `abt->mtx`, the section under it and every unlock are
steps of their own. A thread that has unlocked the mutex and unlocks it once
more releases it under whoever holds it by then.

## Implementation notes

A path of a call is described by how often it unlocks. All paths unlock once
but one: a release by handle or by name that finds a reference count of 0
unlocks in its loop and again after it.
-/

namespace Margo.Abt.Locking

open Lib Lib.Runs Lib.ThreadPool

/-- The environment and the state of its mutex. -/
structure Shared where
  abt : MargoAbt
  locked : Bool
  deriving DecidableEq, Repr

/-- The program points of a call. -/
inductive Thread
  /-- At the checks and the lock. -/
  | call (c : Call)
  /-- Holding the lock, at the section. -/
  | inside (c : Call)
  /-- Holding the lock, at an unlock, with more of them to come. -/
  | unlock (more : Nat)
  /-- At an unlock after it has unlocked already. -/
  | unlockAgain (more : Nat)

/-- What is left of a thread that has unlocked. -/
def afterUnlock : Nat → List Thread
  | 0 => []
  | more + 1 => [.unlockAgain more]

/-- One step of one call. -/
def threadStep (s : Shared) : Thread → Replies → Option (Shared × List Thread)
  | .call c, _ =>
      match c.api.enter with
      | .returns _ => some (s, [])
      | .crashes => none
      | .locks => if s.locked then none else some ({ s with locked := true }, [.inside c])
  | .inside c, r =>
      match c.api.body r s.abt with
      | none => none
      | some e =>
          some ({ s with abt := e.abt },
            match e.unlocks with
            | 0 => []
            | more + 1 => [.unlock more])
  | .unlock more, _ => some ({ s with locked := false }, afterUnlock more)
  | .unlockAgain more, _ => some ({ s with locked := false }, afterUnlock more)

abbrev State := Config Shared Thread

abbrev Label := Nat × Replies

/-- One step of the process. -/
def step (s : State) (a : Label) : Option State := Lib.ThreadPool.step threadStep s a

/-- Any calls about to be made on an environment. -/
def startCalls (abt : MargoAbt) (calls : List Call) : State :=
  ⟨⟨abt, false⟩, calls.map .call⟩

/-- The entry is found and has no reference to release. -/
def emptyRelease (table : Table) (finder : Finder) (abt : MargoAbt) : Bool :=
  (finder.find abt).any fun i => table.refcount abt i == 0

/-- A release by handle or by name that finds a reference count of 0. -/
def unlocksTwice (abt : MargoAbt) : Call → Bool
  | .poolReleaseByHandle _ handle => emptyRelease poolTable (poolByHandle handle) abt
  | .poolReleaseByName _ name => emptyRelease poolTable (poolByName name) abt
  | .xstreamReleaseByHandle _ handle => emptyRelease xstreamTable (xstreamByHandle handle) abt
  | .xstreamReleaseByName _ name => emptyRelease xstreamTable (xstreamByName name) abt
  | _ => false

/-- Any release that finds a reference count of 0. -/
def refused (abt : MargoAbt) : Call → Bool
  | .poolReleaseByIndex _ index => emptyRelease poolTable (poolByIndex index) abt
  | .xstreamReleaseByIndex _ index => emptyRelease xstreamTable (xstreamByIndex index) abt
  | c => unlocksTwice abt c

theorem onEntry_unlocks {mid : Option Instance} {finder : Finder} {act : Nat → MargoAbt → Exit}
    {r : Replies} {abt : MargoAbt} {e : Exit} (hact : ∀ i, (act i abt).unlocks = 1)
    (h : (onEntry mid finder act).body r abt = some e) : e.unlocks = 1 := by
  simp only [onEntry] at h
  split at h <;> obtain rfl := Option.some.inj h
  · rfl
  · exact hact _

/-- How a release ends. -/
theorem release_body (n : Nat) (table : Table) (mid : Option Instance) (finder : Finder)
    (r : Replies) (abt : MargoAbt) :
    ∃ e, (release n table mid finder).body r abt = some e ∧
      e.unlocks = (if emptyRelease table finder abt then n else 1) ∧
      (emptyRelease table finder abt = true → e.ret = .permission ∧ e.abt = abt) := by
  simp only [release, onEntry]
  cases hf : finder.find abt with
  | none =>
      have he : emptyRelease table finder abt = false := by simp [emptyRelease, hf]
      exact ⟨_, rfl, by simp [he, Exit.plain], fun h => by simp [he] at h⟩
  | some i =>
      have he : emptyRelease table finder abt = (table.refcount abt i == 0) := by
        simp [emptyRelease, hf]
      by_cases hz : table.refcount abt i = 0
      · exact ⟨_, rfl, by simp [he, hz], fun _ => by simp [hz]⟩
      · exact ⟨_, rfl, by simp [he, hz, Exit.plain], fun h => by simp [he, hz] at h⟩

theorem release_unlocks {n : Nat} {table : Table} {mid : Option Instance} {finder : Finder}
    {r : Replies} {abt : MargoAbt} {e : Exit}
    (h : (release n table mid finder).body r abt = some e) :
    e.unlocks = if emptyRelease table finder abt then n else 1 := by
  obtain ⟨e', he', hu, -⟩ := release_body n table mid finder r abt
  obtain rfl := Option.some.inj (h.symm.trans he')
  exact hu

theorem added_unlocks (table : Table) (last : MargoAbt → Nat) (res : MargoAbt × Bool) :
    (added table last res).unlocks = 1 := by
  rcases res with ⟨abt, _ | _⟩ <;> rfl

theorem removePoolAt_unlocks (r : Replies) (mid : Instance) (index : Nat) (abt : MargoAbt) :
    (removePoolAt r mid index abt).unlocks = 1 := by
  unfold removePoolAt
  split_ifs <;> rfl

theorem removePoolFound_unlocks {mid : Option Instance} {find : MargoAbt → Option Nat}
    {r : Replies} {abt : MargoAbt} {e : Exit}
    (h : (removePoolFound mid find).body r abt = some e) : e.unlocks = 1 := by
  simp only [removePoolFound, Option.map_eq_some_iff] at h
  obtain ⟨m, -, rfl⟩ := h
  split
  · rfl
  · exact removePoolAt_unlocks r m _ abt

theorem removeXstreamFound_unlocks {mid : Option Instance} {find : MargoAbt → Option Nat}
    {missing : HgReturn} {r : Replies} {abt : MargoAbt} {e : Exit}
    (h : (removeXstreamFound mid find missing).body r abt = some e) : e.unlocks = 1 := by
  simp only [removeXstreamFound] at h
  split at h <;> obtain rfl := Option.some.inj h <;> rfl

/-- Every path of every call unlocks once, but for the four releases on an entry
without references. -/
theorem body_unlocks {c : Call} {r : Replies} {abt : MargoAbt} {e : Exit}
    (h : c.api.body r abt = some e) :
    e.unlocks = if unlocksTwice abt c then 2 else 1 := by
  cases c with
  | findPoolByHandle | findPoolByName | findPoolByIndex | findXstreamByHandle
  | findXstreamByName | findXstreamByIndex | poolRefIncrByHandle | poolRefIncrByName
  | poolRefIncrByIndex | xstreamRefIncrByHandle | xstreamRefIncrByName
  | xstreamRefIncrByIndex | poolRefCountByHandle | poolRefCountByName | poolRefCountByIndex
  | xstreamRefCountByHandle | xstreamRefCountByName | xstreamRefCountByIndex =>
      exact onEntry_unlocks (fun _ => rfl) h
  | poolReleaseByHandle | poolReleaseByName | xstreamReleaseByHandle | xstreamReleaseByName =>
      exact release_unlocks h
  | poolReleaseByIndex | xstreamReleaseByIndex =>
      exact (release_unlocks h).trans (ite_self 1)
  | getNumPools | getNumXstreams =>
      obtain rfl := Option.some.inj h
      rfl
  | addPoolFromJson | addPoolExternal | addXstreamFromJson =>
      obtain rfl := Option.some.inj h
      exact added_unlocks _ _ _
  | addXstreamExternal =>
      simp only [Call.api, margoAddXstreamExternal, Option.map_eq_some_iff] at h
      obtain ⟨res, -, rfl⟩ := h
      exact added_unlocks _ _ _
  | removePoolByIndex =>
      simp only [Call.api, margoRemovePoolByIndex, Option.map_eq_some_iff] at h
      obtain ⟨m, -, rfl⟩ := h
      exact removePoolAt_unlocks r m _ abt
  | removePoolByName | removePoolByHandle => exact removePoolFound_unlocks h
  | removeXstreamByIndex | removeXstreamByName | removeXstreamByHandle =>
      exact removeXstreamFound_unlocks h

/-- A refused release returns `HG_PERMISSION` and changes nothing. -/
theorem refused_body {c : Call} {abt : MargoAbt} (h : refused abt c = true) (r : Replies) :
    ∃ e, c.api.body r abt = some e ∧ e.ret = .permission ∧ e.abt = abt := by
  cases c with
  | poolReleaseByHandle | poolReleaseByName | xstreamReleaseByHandle | xstreamReleaseByName
  | poolReleaseByIndex | xstreamReleaseByIndex =>
      obtain ⟨e, he, -, hret⟩ := release_body _ _ _ _ r abt
      exact ⟨e, he, hret h⟩
  | _ => cases h

/-- The thread holds the lock. -/
def holds : Thread → Bool
  | .inside _ | .unlock _ => true
  | _ => false

/-- The thread is about to unlock without holding the lock, or will be. -/
def unlocksUnheld : Thread → Bool
  | .unlock more => more ≠ 0
  | .unlockAgain _ => true
  | _ => false

/-- The thread is at a section that unlocks twice. -/
def atDoubleUnlock (abt : MargoAbt) : Thread → Bool
  | .inside c => unlocksTwice abt c
  | _ => false

/-- The section is not one that unlocks twice. -/
def UnlocksOnce (s : State) (a : Label) (_ : State) : Prop :=
  ∀ t ∈ s.threads[a.1]?, atDoubleUnlock s.shared.abt t = false

instance : ∀ s a s', Decidable (UnlocksOnce s a s') :=
  fun s a _ => inferInstanceAs
    (Decidable (∀ t ∈ s.threads[a.1]?, atDoubleUnlock s.shared.abt t = false))

/-- The mutex is locked by exactly one thread or by none, and nobody unlocks it
without holding it. -/
structure LockInv (s : State) : Prop where
  locked : tally holds s = s.shared.locked.toNat
  unheld : tally unlocksUnheld s = 0

theorem LockInv.step {s s' : State} {a : Label} (hs : LockInv s)
    (hg : UnlocksOnce s a s') (h : Locking.step s a = some s') : LockInv s' := by
  obtain ⟨t, ts, ht, hprog, hin, hin'⟩ := step_tally h
  obtain ⟨hlocked, hunheld⟩ := hs
  rw [hin] at hlocked hunheld
  cases t with
  | call c =>
      simp only [threadStep] at hprog
      split at hprog
      · simp only [Option.some.injEq, Prod.mk.injEq] at hprog
        obtain ⟨hsh, rfl⟩ := hprog
        constructor
        · rw [hin', ← hsh]
          exact hlocked
        · rw [hin']
          exact hunheld
      · cases hprog
      · split at hprog
        · cases hprog
        · next hfree =>
            simp only [Option.some.injEq, Prod.mk.injEq] at hprog
            obtain ⟨hsh, rfl⟩ := hprog
            constructor
            · rw [hin', ← hsh]
              simp only [Bool.not_eq_true] at hfree
              simp only [hfree] at hlocked
              exact congrArg (· + 1) hlocked
            · rw [hin']
              exact hunheld
  | inside c =>
      have honce : unlocksTwice s.shared.abt c = false := hg _ ht
      simp only [threadStep] at hprog
      split at hprog
      · cases hprog
      · next e he =>
          have hu := body_unlocks he
          rw [honce] at hu
          simp only [Bool.false_eq_true, if_false] at hu
          simp only [hu, Option.some.injEq, Prod.mk.injEq] at hprog
          obtain ⟨hsh, rfl⟩ := hprog
          constructor
          · rw [hin', ← hsh]
            exact hlocked
          · rw [hin']
            exact hunheld
  | unlock more =>
      simp only [threadStep, Option.some.injEq, Prod.mk.injEq] at hprog
      obtain ⟨hsh, rfl⟩ := hprog
      cases more with
      | zero =>
          constructor
          · rw [hin', ← hsh]
            have hle := s.shared.locked.toNat_le
            simp only [holds, if_true] at hlocked
            simp only [afterUnlock, List.countP_nil, Bool.toNat_false]
            omega
          · rw [hin']
            exact hunheld
      | succ more => simp [unlocksUnheld] at hunheld
  | unlockAgain more => simp [unlocksUnheld] at hunheld

theorem LockInv.startCalls (abt : MargoAbt) (calls : List Call) :
    LockInv (startCalls abt calls) := by
  constructor <;>
  · simp only [tally, Locking.startCalls, List.countP_map]
    exact List.countP_eq_zero.mpr fun c _ => by simp [holds, unlocksUnheld]

/-- Mutual exclusion: in every interleaving of any number of calls in which no
release by handle or by name finds a reference count of 0, at most one thread
is inside a section, the mutex is locked exactly then, and nobody unlocks it
without holding it. A path unlocks once exactly when it is not one of these
releases, and a refused release returns `HG_PERMISSION` and changes nothing. -/
theorem mutual_exclusion (abt : MargoAbt) (calls : List Call) {as : List Label} {s : State}
    (hrun : Run step UnlocksOnce (startCalls abt calls) as s) :
    (tally holds s ≤ 1 ∧ (s.shared.locked = true ↔ tally holds s = 1) ∧
      tally unlocksUnheld s = 0) ∧
    (∀ (c : Call) (r : Replies) (abt' : MargoAbt) (e : Exit), c.api.body r abt' = some e →
      (e.unlocks = 1 ↔ unlocksTwice abt' c = false)) ∧
    ∀ (c : Call) (r : Replies) (abt' : MargoAbt), refused abt' c = true →
      ∃ e, c.api.body r abt' = some e ∧ e.ret = .permission ∧ e.abt = abt' := by
  have hs : LockInv s := hrun.invariant (fun hs hg h => hs.step hg h)
    (LockInv.startCalls abt calls)
  refine ⟨⟨?_, ?_, hs.unheld⟩, ?_, fun c r abt' h => refused_body h r⟩
  · rw [hs.locked]
    exact s.shared.locked.toNat_le
  · rw [hs.locked]
    cases s.shared.locked <;> simp
  · intro c r abt' e he
    rw [body_unlocks he]
    cases unlocksTwice abt' c <;> simp

/-- Replies that no call of the runs below looks at. -/
def noReplies : Replies := ⟨true, true, true, none, true, none, none, [], true, none⟩

/-- An environment with one pool that nobody references. -/
def onePool : MargoAbt :=
  ⟨[⟨"__primary__", .obj 0, "fifo_wait", some "mpmc", 0, 0, true, false⟩], 3, [], 1⟩

/-- One thread takes a reference, and another one releases it after it. -/
theorem mutual_exclusion_two_calls :
    ∃ s, Run step UnlocksOnce
        (startCalls onePool
          [.poolRefIncrByIndex (some ⟨0, 0⟩) 0, .poolReleaseByHandle (some ⟨0, 0⟩) (.obj 0)])
        (List.replicate 5 (0, noReplies)) s ∧
      s.shared.locked = true ∧ tally holds s = 1 := by
  have hrun : Run step UnlocksOnce
      (startCalls onePool
        [.poolRefIncrByIndex (some ⟨0, 0⟩) 0, .poolReleaseByHandle (some ⟨0, 0⟩) (.obj 0)])
      (List.replicate 5 (0, noReplies))
      ⟨⟨onePool, true⟩, [.unlock 0]⟩ := run_of_exec rfl
  exact ⟨_, hrun, rfl, (mutual_exclusion onePool _ hrun).1.2.1.mp rfl⟩

/-- A release finds no reference and unlocks; a second thread takes the lock; the
first one unlocks again, and a third one takes the lock too. -/
theorem two_threads_inside :
    ¬∀ (abt : MargoAbt) (calls : List Call) (as : List Label) (s : State),
      Run step Any (startCalls abt calls) as s → tally holds s ≤ 1 := by
  intro hall
  have hrun : Run step Any
      (startCalls onePool
        [.poolReleaseByHandle (some ⟨0, 0⟩) (.obj 0), .getNumPools (some ⟨0, 0⟩),
          .getNumPools (some ⟨0, 0⟩)])
      [(0, noReplies), (0, noReplies), (0, noReplies), (1, noReplies), (0, noReplies),
        (1, noReplies)]
      ⟨⟨onePool, true⟩, [.inside (.getNumPools (some ⟨0, 0⟩)),
        .inside (.getNumPools (some ⟨0, 0⟩))]⟩ := run_of_exec rfl
  exact absurd (hall _ _ _ _ hrun) (by decide)

end Margo.Abt.Locking
