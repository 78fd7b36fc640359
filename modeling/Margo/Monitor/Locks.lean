import Margo.Lib.ThreadPool

/-!
# The locks of the pool registry and of the default monitor

Adding and removing a pool happens under `abt->mtx` and notifies the default
monitor, which takes `pool_time_series_mtx`. Sampling and dumping the time
series happens under `pool_time_series_mtx` and asks the registry for its
pools, which takes `abt->mtx`. The two orders are opposite.

## Implementation notes

A thread is at a lock it has to take or between a lock and an unlock; the
points say which locks it holds. `update_pool_time_series` and
`pool_time_series_to_json` take the locks in the same way, as do the two ways
of adding a pool and the three ways of removing one.
-/

namespace Margo.Monitor.Locks

open Lib Lib.Runs Lib.ThreadPool

inductive Lock
  /-- `abt->mtx`. -/
  | abt
  /-- `monitor->pool_time_series_mtx`. -/
  | series
  deriving DecidableEq, Repr

/-- The locks and the length of `abt->pools`. -/
structure Shared where
  abtLocked : Bool
  seriesLocked : Bool
  poolsLen : Nat
  deriving DecidableEq, Repr

inductive Point
  /-- `update_pool_time_series` or `pool_time_series_to_json`, at its lock. -/
  | sample
  /-- At the lock of `margo_get_num_pools`. -/
  | count
  | counting
  /-- With `left` pools to look up, at the lock of `margo_find_pool_by_index`, or
  at the final unlock. -/
  | find (left : Nat)
  | finding (left : Nat)
  /-- `margo_add_pool_from_json` or `margo_add_pool_external`, at its lock. -/
  | add
  /-- At the lock of `__margo_default_monitor_on_add_pool`. -/
  | adding
  | addNotified
  | added
  /-- `margo_remove_pool_by_index`, `_by_name` or `_by_handle`, at its lock. -/
  | remove
  | removing
  /-- The pool removed, at the lock of `__margo_default_monitor_on_remove_pool`. -/
  | removed
  | removeNotified
  /-- At the final unlock of an addition or removal. -/
  | leaving
  deriving DecidableEq, Repr

def lockAbt (m : Shared) (t : Point) : Option (Shared × List Point) :=
  if m.abtLocked then none else some ({ m with abtLocked := true }, [t])

def lockSeries (m : Shared) (t : Point) : Option (Shared × List Point) :=
  if m.seriesLocked then none else some ({ m with seriesLocked := true }, [t])

/-- One step of one thread. The choice is whether the registry accepts the
addition or the removal. -/
def pointStep (m : Shared) : Point → Bool → Option (Shared × List Point)
  | .sample, _ => lockSeries m .count
  | .count, _ => lockAbt m .counting
  | .counting, _ => some ({ m with abtLocked := false }, [.find m.poolsLen])
  | .find 0, _ => some ({ m with seriesLocked := false }, [])
  | .find (n + 1), _ => lockAbt m (.finding n)
  | .finding n, _ => some ({ m with abtLocked := false }, [.find n])
  | .add, _ => lockAbt m .adding
  | .adding, _ => lockSeries m .addNotified
  | .addNotified, _ => some ({ m with seriesLocked := false }, [.added])
  | .added, ok => some (if ok then { m with poolsLen := m.poolsLen + 1 } else m, [.leaving])
  | .remove, _ => lockAbt m .removing
  | .removing, ok =>
      if ok then some ({ m with poolsLen := m.poolsLen - 1 }, [.removed])
      else some (m, [.leaving])
  | .removed, _ => lockSeries m .removeNotified
  | .removeNotified, _ => some ({ m with seriesLocked := false }, [.leaving])
  | .leaving, _ => some ({ m with abtLocked := false }, [])

abbrev Process := Config Shared Point

/-- One step of the process: any thread moves. -/
def step (s : Process) (a : Nat × Bool) : Option Process := ThreadPool.step pointStep s a

/-- The threads of an instance with `n` pools, none in a call. -/
def start (n : Nat) (calls : List Point) : Process := ⟨⟨false, false, n⟩, calls⟩

/-- The points at which a call starts. -/
def isCall : Point → Bool
  | .sample | .add | .remove => true
  | _ => false

/-- The thread holds the lock. -/
def holds : Lock → Point → Bool
  | .abt, t =>
      match t with
      | .counting | .finding _ | .adding | .addNotified | .added | .removing | .removed
      | .removeNotified | .leaving => true
      | _ => false
  | .series, t =>
      match t with
      | .count | .counting | .find _ | .finding _ | .addNotified | .removeNotified => true
      | _ => false

/-- The lock the thread takes next. -/
def awaits : Point → Option Lock
  | .count | .add | .remove => some .abt
  | .find left => if left = 0 then none else some .abt
  | .sample | .adding | .removed => some .series
  | _ => none

/-- Two threads are each blocked on a lock the other holds. -/
def Deadlocked (s : Process) : Prop :=
  ∃ t ∈ s.threads, ∃ u ∈ s.threads, ∃ l k,
    awaits t = some l ∧ holds l u = true ∧ awaits u = some k ∧ holds k t = true

/-- A sampler or dumper that still needs the registry. -/
def reading (t : Point) : Bool := awaits t = some .abt ∧ holds .series t = true

/-- An addition or removal that still has to notify the monitor. -/
def changing (t : Point) : Bool := awaits t = some .series ∧ holds .abt t = true

theorem not_holds_of_awaits {t : Point} {l : Lock} (h : awaits t = some l) :
    holds l t = false := by
  cases t <;> cases l <;> simp_all [awaits, holds]

/-- The only cycle the points allow is between a reader and a change. -/
theorem deadlocked_iff (s : Process) :
    Deadlocked s ↔ 0 < tally reading s ∧ 0 < tally changing s := by
  simp only [tally, List.countP_pos_iff, reading, changing, decide_eq_true_eq]
  constructor
  · rintro ⟨t, ht, u, hu, l, k, hat, hlu, hau, hkt⟩
    cases l <;> cases k
    · simp [not_holds_of_awaits hat] at hkt
    · exact ⟨⟨t, ht, hat, hkt⟩, ⟨u, hu, hau, hlu⟩⟩
    · exact ⟨⟨u, hu, hau, hlu⟩, ⟨t, ht, hat, hkt⟩⟩
    · simp [not_holds_of_awaits hat] at hkt
  · rintro ⟨⟨t, ht, hat, hst⟩, ⟨u, hu, hau, hbu⟩⟩
    exact ⟨t, ht, u, hu, .abt, .series, hat, hbu, hau, hst⟩

/-- The state of a lock. -/
def Shared.locked (m : Shared) : Lock → Bool
  | .abt => m.abtLocked
  | .series => m.seriesLocked

/-- A lock is held by one thread exactly if it is locked. -/
def Exclusive (s : Process) : Prop :=
  ∀ l, tally (holds l) s = (s.shared.locked l).toNat

theorem exclusive_start {n : Nat} {calls : List Point}
    (hcalls : ∀ t ∈ calls, isCall t = true) : Exclusive (start n calls) := by
  intro l
  have hzero : tally (holds l) (start n calls) = 0 := by
    apply List.countP_eq_zero.mpr
    intro t ht
    have hcall := hcalls t ht
    cases t <;> cases l <;> simp_all [isCall, holds]
  rw [hzero]
  cases l <;> rfl

theorem lockAbt_some {m m' : Shared} {t : Point} {ts : List Point}
    (h : lockAbt m t = some (m', ts)) :
    m.abtLocked = false ∧ m' = { m with abtLocked := true } ∧ ts = [t] := by
  cases hm : m.abtLocked <;> simp_all [lockAbt]

theorem lockSeries_some {m m' : Shared} {t : Point} {ts : List Point}
    (h : lockSeries m t = some (m', ts)) :
    m.seriesLocked = false ∧ m' = { m with seriesLocked := true } ∧ ts = [t] := by
  cases hm : m.seriesLocked <;> simp_all [lockSeries]

/-- What one step does to a lock and to its holders. -/
theorem pointStep_holds {m m' : Shared} {t : Point} {c : Bool} {ts : List Point}
    (h : pointStep m t c = some (m', ts)) (l : Lock)
    (hheld : holds l t = true → m.locked l = true) :
    ts.countP (holds l) + (m.locked l).toNat =
      (holds l t).toNat + (m'.locked l).toNat := by
  cases t with
  | sample | adding | removed =>
      obtain ⟨hfree, rfl, rfl⟩ := lockSeries_some h
      cases l <;> simp [holds, Shared.locked, hfree, Nat.add_comm]
  | count | add | remove =>
      obtain ⟨hfree, rfl, rfl⟩ := lockAbt_some h
      cases l <;> simp [holds, Shared.locked, hfree]
  | find left =>
      cases left with
      | zero =>
          cases h
          cases l <;> simp_all [holds, Shared.locked]
      | succ n =>
          obtain ⟨hfree, rfl, rfl⟩ := lockAbt_some h
          cases l <;> simp [holds, Shared.locked, hfree]
  | added =>
      cases h
      cases c <;> cases l <;> simp [holds, Shared.locked]
  | removing =>
      cases c <;> cases h <;> cases l <;> simp [holds, Shared.locked]
  | counting | finding | addNotified | removeNotified | leaving =>
      cases h
      cases l <;> simp_all [holds, Shared.locked]

theorem toNat_eq_ite (b : Bool) : (if b then 1 else 0) = b.toNat := by
  cases b <;> rfl

theorem Exclusive.step {s s' : Process} {a : Nat × Bool} (hs : Exclusive s)
    (h : Locks.step s a = some s') : Exclusive s' := by
  obtain ⟨t, ts, ht, hprog, hbefore, hafter⟩ := step_tally h
  intro l
  have hl := hs l
  rw [hbefore, toNat_eq_ite] at hl
  have hheld : holds l t = true → s.shared.locked l = true := by
    intro hh
    cases hlock : s.shared.locked l with
    | true => rfl
    | false => simp [hh, hlock] at hl
  have hdelta := pointStep_holds hprog l hheld
  rw [hafter]
  omega

/-- What must hold when a thread moves: no addition or removal starts to wait for
the monitor's lock while a reader has that lock and still needs the registry,
and no reader takes the monitor's lock while an addition or removal waits for
it. -/
def orderedAt (s : Process) : Point → Bool → Bool
  | .sample, _ => tally changing s = 0
  | .add, _ => tally reading s = 0
  | .removing, true => tally reading s = 0
  | _, _ => true

/-- The step does not close a cycle. -/
def Ordered (s : Process) (a : Nat × Bool) : Prop :=
  (s.threads[a.1]?).all (orderedAt s · a.2) = true

instance (s : Process) (a : Nat × Bool) : Decidable (Ordered s a) :=
  inferInstanceAs (Decidable (_ = true))

/-- A thread that holds the registry excludes the other changes. -/
theorem others_changing {s : Process} {i : Nat} {t : Point} (hs : Exclusive s)
    (hbefore : ∀ p, tally p s = (others s i).countP p + if p t then 1 else 0)
    (ht : holds .abt t = true) : (others s i).countP changing = 0 := by
  have hone := hs .abt
  have hle := Bool.toNat_le (s.shared.locked .abt)
  rw [hbefore, ht, if_pos rfl] at hone
  have hnone : (others s i).countP (holds .abt) = 0 := by omega
  apply List.countP_eq_zero.mpr
  intro u hu
  have := List.countP_eq_zero.mp hnone u hu
  simp_all [changing]

/-- A thread starts to read, or starts to change, or has the registry, or does
not add to those who wait. -/
theorem pointStep_waits {m m' : Shared} {t : Point} {c : Bool} {ts : List Point}
    (h : pointStep m t c = some (m', ts)) :
    (t = .sample ∧ ts.countP reading = 1 ∧ ts.countP changing = 0) ∨
    ((t = .add ∨ t = .removing ∧ c = true) ∧
      ts.countP reading = 0 ∧ ts.countP changing = 1) ∨
    ((∀ s, orderedAt s t c = true) ∧
      (holds .abt t = true ∧ ts.countP changing = 0 ∨
        ts.countP reading ≤ (reading t).toNat ∧ ts.countP changing ≤ (changing t).toNat)) := by
  cases t with
  | sample =>
      obtain ⟨-, -, rfl⟩ := lockSeries_some h
      exact Or.inl ⟨rfl, by decide, by decide⟩
  | add =>
      obtain ⟨-, -, rfl⟩ := lockAbt_some h
      exact Or.inr (Or.inl ⟨Or.inl rfl, by decide, by decide⟩)
  | removing =>
      cases c <;> cases h
      · exact Or.inr (Or.inr ⟨fun _ => rfl, Or.inl ⟨rfl, by decide⟩⟩)
      · exact Or.inr (Or.inl ⟨Or.inr ⟨rfl, rfl⟩, by decide, by decide⟩)
  | counting | finding =>
      cases h
      exact Or.inr (Or.inr ⟨fun _ => rfl, Or.inl ⟨rfl, by simp [changing, holds]⟩⟩)
  | adding | removed =>
      obtain ⟨-, -, rfl⟩ := lockSeries_some h
      exact Or.inr (Or.inr ⟨fun _ => rfl, Or.inr ⟨by decide, by decide⟩⟩)
  | count | remove =>
      obtain ⟨-, -, rfl⟩ := lockAbt_some h
      exact Or.inr (Or.inr ⟨fun _ => rfl, Or.inr ⟨by decide, by decide⟩⟩)
  | find left =>
      cases left with
      | zero =>
          cases h
          exact Or.inr (Or.inr ⟨fun _ => rfl, Or.inr ⟨by decide, by decide⟩⟩)
      | succ n =>
          obtain ⟨-, -, rfl⟩ := lockAbt_some h
          exact Or.inr (Or.inr ⟨fun _ => rfl, Or.inr ⟨Nat.zero_le _, Nat.zero_le _⟩⟩)
  | addNotified | added | removeNotified | leaving =>
      cases h
      exact Or.inr (Or.inr ⟨fun _ => rfl, Or.inr ⟨by decide, by decide⟩⟩)

/-- From a state without deadlock, a step leads to a deadlock exactly if it is
out of order. -/
theorem step_iff {s s' : Process} {a : Nat × Bool} (hs : Exclusive s) (hfree : ¬ Deadlocked s)
    (h : Locks.step s a = some s') : ¬ Deadlocked s' ↔ Ordered s a := by
  obtain ⟨t, ts, ht, hprog, hbefore, hafter⟩ := step_tally h
  have hordered : Ordered s a ↔ orderedAt s t a.2 = true := by simp [Ordered, ht]
  rw [deadlocked_iff, hbefore, hbefore, toNat_eq_ite, toNat_eq_ite] at hfree
  rw [deadlocked_iff, hafter, hafter, hordered]
  obtain ⟨rfl, hr, hc⟩ | ⟨hstarts, hr, hc⟩ | ⟨htrue, hcase⟩ := pointStep_waits hprog
  · have hcount : tally changing s = (others s a.1).countP changing := hbefore changing
    simp only [orderedAt, hcount, hr, hc, decide_eq_true_eq]
    omega
  · have hcount : tally reading s = (others s a.1).countP reading := by
      obtain rfl | ⟨rfl, -⟩ := hstarts <;> exact hbefore reading
    have hat : orderedAt s t a.2 = decide (tally reading s = 0) := by
      obtain rfl | ⟨rfl, htrue⟩ := hstarts
      · rfl
      · rw [htrue]
        rfl
    simp only [hat, hcount, hr, hc, decide_eq_true_eq]
    omega
  · simp only [htrue s, iff_true]
    obtain ⟨hheld, hc⟩ | ⟨hr, hc⟩ := hcase
    · have := others_changing hs hbefore hheld
      omega
    · omega

theorem not_deadlocked_start {n : Nat} {calls : List Point}
    (hcalls : ∀ t ∈ calls, isCall t = true) : ¬ Deadlocked (start n calls) := by
  rintro ⟨t, ht, u, hu, l, k, -, hheld, -⟩
  have hcall := hcalls u hu
  cases u <;> cases l <;> simp_all [isCall, holds]

/-- Samplers, dumpers, additions and removals never block each other exactly in
the runs in which no addition or removal starts to wait for the monitor while a
reader still needs the registry, and no reader starts while one waits. -/
theorem deadlock_free_iff {n : Nat} {calls : List Point}
    (hcalls : ∀ t ∈ calls, isCall t = true) (as : List (Nat × Bool)) (s : Process) :
    Run step (fun _ _ t => ¬ Deadlocked t) (start n calls) as s ↔
      Run step (fun t a _ => Ordered t a) (start n calls) as s := by
  apply Run.invariant_iff_of_invariant (I := Exclusive) (P := fun t => ¬ Deadlocked t)
  · intro u a u' hu _ _ h
    exact hu.step h
  · intro u a u' hu hfree h
    exact step_iff hu hfree h
  · exact exclusive_start hcalls
  · exact not_deadlocked_start hcalls

/-- A sampler looks up the only pool and leaves before an addition starts. -/
theorem deadlock_free_sequential :
    ∃ s, Run step (fun _ _ t => ¬ Deadlocked t) (start 1 [.sample, .add])
      [(0, true), (0, true), (0, true), (0, true), (0, true), (0, true), (0, true),
        (0, true), (0, true)] s := by
  have hrun : Run step (fun t a _ => Ordered t a) (start 1 [.sample, .add])
      [(0, true), (0, true), (0, true), (0, true), (0, true), (0, true), (0, true),
        (0, true), (0, true)] ⟨⟨true, false, 1⟩, [.added]⟩ :=
    run_of_exec (by decide)
  exact ⟨_, (deadlock_free_iff (by decide) _ _).mpr hrun⟩

/-- A sampler has the monitor's lock when an addition takes the registry's: each
waits for the other. -/
theorem sampler_blocks_addition :
    ¬ ∀ (n : Nat) (calls : List Point) (as : List (Nat × Bool)) (s : Process),
      (∀ t ∈ calls, isCall t = true) → Run step Any (start n calls) as s →
      ¬ Deadlocked s := by
  intro hall
  have hrun : Run step Any (start 1 [.sample, .add]) [(0, true), (1, true)]
      ⟨⟨true, true, 1⟩, [.count, .adding]⟩ := run_of_exec (by decide)
  apply hall _ _ _ _ (by decide) hrun
  exact ⟨.count, by simp, .adding, by simp, .abt, .series, rfl, rfl, rfl, rfl⟩

end Margo.Monitor.Locks
