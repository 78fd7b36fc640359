import Margo.Lib.Runs
import Mathlib.Data.List.Perm.Basic

/-!
# Interleavings of threads over a shared state

A program gives, for the shared state, one thread's program point and a
resolution of that thread's choice, the next shared state and the program
points that replace the thread: none when it returns, one when it goes on,
several when it creates threads. A step of the pool is a step of any one of
its threads, so the runs of the pool are all interleavings.

Threads are counted, never named. Both sides of a step are permutations of
lists that share the untouched threads, and every count follows from that.
-/

namespace Margo.Lib.ThreadPool

variable {σ τ ι : Type*}

/-- The shared state and the program points of all threads. -/
structure Config (σ τ : Type*) where
  shared : σ
  threads : List τ
  deriving DecidableEq, Repr

/-- What one thread does to the shared state and by what it is replaced. -/
abbrev Program (σ τ ι : Type*) := σ → τ → ι → Option (σ × List τ)

/-- Thread number `a.1` takes one step with its choice resolved to `a.2`. -/
def step (prog : Program σ τ ι) (s : Config σ τ) (a : Nat × ι) :
    Option (Config σ τ) :=
  match s.threads[a.1]? with
  | none => none
  | some t =>
      match prog s.shared t a.2 with
      | none => none
      | some (shared', ts) =>
          some ⟨shared', s.threads.take a.1 ++ ts ++ s.threads.drop (a.1 + 1)⟩

/-- The threads a step of thread number `i` leaves alone. -/
def others (s : Config σ τ) (i : Nat) : List τ :=
  s.threads.take i ++ s.threads.drop (i + 1)

theorem perm_others {s : Config σ τ} {i : Nat} {t : τ}
    (h : s.threads[i]? = some t) : s.threads.Perm (t :: others s i) := by
  obtain ⟨hi, rfl⟩ := List.getElem?_eq_some_iff.mp h
  have hsplit : s.threads = s.threads.take i ++ s.threads[i] :: s.threads.drop (i + 1) := by
    rw [List.getElem_cons_drop, List.take_append_drop]
  calc
    s.threads.Perm (s.threads.take i ++ s.threads[i] :: s.threads.drop (i + 1)) :=
      List.Perm.of_eq hsplit
    _ |>.Perm (s.threads[i] :: others s i) := List.perm_middle

/-- Everything one step of the pool can do. -/
theorem step_cases {prog : Program σ τ ι} {s s' : Config σ τ} {a : Nat × ι}
    (h : step prog s a = some s') :
    ∃ t ts, s.threads[a.1]? = some t ∧
      prog s.shared t a.2 = some (s'.shared, ts) ∧
      s.threads.Perm (t :: others s a.1) ∧
      s'.threads.Perm (ts ++ others s a.1) := by
  simp only [step] at h
  cases ht : s.threads[a.1]? with
  | none => simp [ht] at h
  | some t =>
      cases hp : prog s.shared t a.2 with
      | none => simp [ht, hp] at h
      | some r =>
          obtain ⟨m, ts⟩ := r
          simp only [ht, hp, Option.some.injEq] at h
          subst h
          refine ⟨t, ts, rfl, hp, perm_others ht, ?_⟩
          simp only [others, List.append_assoc]
          exact List.perm_append_comm_assoc _ _ _

/-- A thread whose program point has a successor can be scheduled. -/
theorem step_of_mem {prog : Program σ τ ι} {s : Config σ τ} {t : τ} {c : ι}
    {m : σ} {ts : List τ} (ht : t ∈ s.threads)
    (hp : prog s.shared t c = some (m, ts)) : ∃ a s', step prog s a = some s' := by
  obtain ⟨i, hi⟩ := List.mem_iff_getElem?.mp ht
  refine ⟨(i, c), ⟨m, s.threads.take i ++ ts ++ s.threads.drop (i + 1)⟩, ?_⟩
  simp only [step, hi, hp]

/-- A thread goes on, whatever number it has. -/
theorem step_of_perm {prog : Program σ τ ι} {s : Config σ τ} {t : τ} {c : ι} {m : σ}
    {ts rest : List τ} (hperm : s.threads.Perm (t :: rest))
    (hp : prog s.shared t c = some (m, ts)) :
    ∃ i s', s.threads[i]? = some t ∧ step prog s (i, c) = some s' ∧ s'.shared = m ∧
      s'.threads.Perm (ts ++ rest) := by
  obtain ⟨i, hi⟩ := List.mem_iff_getElem?.mp (hperm.mem_iff.mpr List.mem_cons_self)
  have hothers : (others s i).Perm rest := ((perm_others hi).symm.trans hperm).cons_inv
  refine ⟨i, ⟨m, s.threads.take i ++ ts ++ s.threads.drop (i + 1)⟩, hi, ?_, rfl, ?_⟩
  · simp only [step, hi, hp]
  · calc
      (s.threads.take i ++ ts ++ s.threads.drop (i + 1)).Perm (ts ++ others s i) := by
        rw [others, List.append_assoc]
        exact List.perm_append_comm_assoc _ _ _
      List.Perm _ (ts ++ rest) := hothers.append_left ts

/-- The number of threads at a program point of the class `p`. -/
def tally (p : τ → Bool) (s : Config σ τ) : Nat := s.threads.countP p

/-- How one step of the pool changes every count: the thread that moved is
replaced in it by its successors. -/
theorem step_tally {prog : Program σ τ ι} {s s' : Config σ τ} {a : Nat × ι}
    (h : step prog s a = some s') :
    ∃ t ts, s.threads[a.1]? = some t ∧
      prog s.shared t a.2 = some (s'.shared, ts) ∧
      (∀ p, tally p s = (others s a.1).countP p + if p t then 1 else 0) ∧
      ∀ p, tally p s' = (others s a.1).countP p + ts.countP p := by
  obtain ⟨t, ts, ht, hprog, hperm, hperm'⟩ := step_cases h
  refine ⟨t, ts, ht, hprog, fun p => ?_, fun p => ?_⟩
  · rw [tally, hperm.countP_eq, List.countP_cons]
  · rw [tally, hperm'.countP_eq, List.countP_append, Nat.add_comm]

theorem exists_of_tally_pos {p : τ → Bool} {s : Config σ τ} (h : 0 < tally p s) :
    ∃ t ∈ s.threads, p t = true := List.countP_pos_iff.mp h

theorem forall_of_tally_zero {p : τ → Bool} {s : Config σ τ} (h : tally p s = 0) :
    ∀ t ∈ s.threads, p t = false := by
  intro t ht
  simpa using List.countP_eq_zero.mp h t ht

/-- A class that every thread splits into two others counts as their sum. -/
theorem tally_eq_add {p q r : τ → Bool} {s : Config σ τ}
    (h : ∀ t ∈ s.threads, (if p t then 1 else 0) =
      (if q t then 1 else 0) + (if r t then 1 else 0)) :
    tally p s = tally q s + tally r s := by
  obtain ⟨m, ts⟩ := s
  induction ts with
  | nil => rfl
  | cons t ts ih =>
      have hhead := h t List.mem_cons_self
      have htail := ih fun u hu => h u (List.mem_cons_of_mem t hu)
      simp only [tally, List.countP_cons] at htail ⊢
      omega

end Margo.Lib.ThreadPool
