import Mathlib.Data.List.Basic

/-!
# Guarded runs of a partial step function

A system is a partial step function on labelled steps: `step s a` is the
state after label `a`, or `none` when `a` is not enabled in `s`. A run
records its labels and carries, for every step taken, a guard relating the
state before, the label and the state after. The trivial guard gives the
plain executions.
-/

namespace Margo.Lib.Runs

variable {σ α : Type*}

/-- A finite execution whose every step is enabled and meets the guard. -/
inductive Run (step : σ → α → Option σ) (G : σ → α → σ → Prop) :
    σ → List α → σ → Prop
  | nil (s) : Run step G s [] s
  | cons {s a s' as s''} (h : step s a = some s') (g : G s a s')
      (tail : Run step G s' as s'') : Run step G s (a :: as) s''

/-- The guard satisfied by every step. -/
def Any (_ : σ) (_ : α) (_ : σ) : Prop := True

instance : ∀ (s : σ) (a : α) (s' : σ), Decidable (Any s a s') :=
  fun _ _ _ => inferInstanceAs (Decidable True)

/-- Execute a list of labels, stopping at the first one that is not enabled or
does not meet the guard. -/
def exec (step : σ → α → Option σ) (G : σ → α → σ → Prop)
    [∀ s a s', Decidable (G s a s')] : σ → List α → Option σ
  | s, [] => some s
  | s, a :: as =>
      match step s a with
      | some s' => if G s a s' then exec step G s' as else none
      | none => none

/-- Executing the labels builds a guarded run. -/
theorem run_of_exec {step : σ → α → Option σ} {G : σ → α → σ → Prop}
    [∀ s a s', Decidable (G s a s')] {s s' : σ} {as : List α}
    (h : exec step G s as = some s') : Run step G s as s' := by
  induction as generalizing s with
  | nil =>
      obtain rfl : s = s' := by simpa [exec] using h
      exact Run.nil s
  | cons a as ih =>
      simp only [exec] at h
      cases hs : step s a with
      | none => simp [hs] at h
      | some t =>
          simp only [hs] at h
          split at h
          · next hg => exact Run.cons hs hg (ih h)
          · cases h

/-- Executing the labels builds a guarded run that ends as the execution does. -/
theorem run_of_exec_map {step : σ → α → Option σ} {G : σ → α → σ → Prop}
    [∀ s a s', Decidable (G s a s')] {β : Type*} {f : σ → β} {s : σ} {as : List α} {v : β}
    (h : (exec step G s as).map f = some v) : ∃ s', Run step G s as s' ∧ f s' = v := by
  obtain ⟨s', hs', hv⟩ := Option.map_eq_some_iff.mp h
  exact ⟨s', run_of_exec hs', hv⟩

variable {step : σ → α → Option σ} {G : σ → α → σ → Prop}

/-- A run that goes on where another one ends. -/
theorem Run.append {s s' s'' : σ} {as as' : List α} (hrun : Run step G s as s')
    (hrun' : Run step G s' as' s'') : Run step G s (as ++ as') s'' := by
  induction hrun with
  | nil => exact hrun'
  | cons h g _ ih => exact Run.cons h g (ih hrun')

/-- A property kept by every guarded step is kept by every guarded run. -/
theorem Run.invariant {P : σ → Prop}
    (hstep : ∀ {s a s'}, P s → G s a s' → step s a = some s' → P s')
    {s s' : σ} {as : List α} (hrun : Run step G s as s') (hs : P s) :
    P s' := by
  induction hrun with
  | nil => exact hs
  | cons h g _ ih => exact ih (hstep hs g h)

/-- If, under an invariant of the steps that keep a property, a step keeps it
exactly when it meets a guard, the runs that have the property in every state
are the runs that meet the guard in every step. -/
theorem Run.invariant_iff_of_invariant {I P : σ → Prop} {K : σ → α → Prop}
    (hinv : ∀ {s a s'}, I s → P s → P s' → step s a = some s' → I s')
    (hstep : ∀ {s a s'}, I s → P s → step s a = some s' → (P s' ↔ K s a))
    {s s' : σ} {as : List α} (hi : I s) (hs : P s) :
    Run step (fun _ _ t => P t) s as s' ↔ Run step (fun t a _ => K t a) s as s' := by
  constructor
  · intro hrun
    induction hrun with
    | nil => exact Run.nil _
    | cons h hp _ ih =>
        exact Run.cons h ((hstep hi hs h).mp hp) (ih (hinv hi hs hp h) hp)
  · intro hrun
    induction hrun with
    | nil => exact Run.nil _
    | cons h hk _ ih =>
        have hp := (hstep hi hs h).mpr hk
        exact Run.cons h hp (ih (hinv hi hs hp h) hp)

/-- If a step keeps a property exactly when it meets a guard, the runs that have
the property in every state are the runs that meet the guard in every step. -/
theorem Run.invariant_iff {P : σ → Prop} {K : σ → α → Prop}
    (hstep : ∀ {s a s'}, P s → step s a = some s' → (P s' ↔ K s a))
    {s s' : σ} {as : List α} (hs : P s) :
    Run step (fun _ _ t => P t) s as s' ↔ Run step (fun t a _ => K t a) s as s' := by
  apply Run.invariant_iff_of_invariant (I := fun _ => True)
  · intro _ _ _ _ _ _ _
    trivial
  · intro _ _ _ _
    exact hstep
  · trivial
  · exact hs

/-! ## Simulation -/

variable {τ : Type*} {R : τ → α → τ → Prop}

/-- A finite execution of a relation on labelled steps. -/
inductive Steps (R : τ → α → τ → Prop) : τ → List α → τ → Prop
  | nil (t) : Steps R t [] t
  | cons {t a t' as t''} (h : R t a t') (tail : Steps R t' as t'') : Steps R t (a :: as) t''

/-- A property of the labels so far and the state that every step keeps. -/
theorem Steps.invariant {P : List α → τ → Prop}
    (hstep : ∀ {as t a t'}, P as t → R t a t' → P (as ++ [a]) t')
    {before as : List α} {t t' : τ} (hsteps : Steps R t as t') (ht : P before t) :
    P (before ++ as) t' := by
  induction hsteps generalizing before with
  | nil => rwa [List.append_nil]
  | @cons t a t' as t'' h _ ih =>
      rw [List.append_cons]
      exact ih (hstep ht h)

/-- Where every step of a system is a step of another one, so are its runs. -/
theorem Run.simulation {S : σ → τ → Prop}
    (hstep : ∀ {s t a s'}, S s t → step s a = some s' → ∃ t', R t a t' ∧ S s' t')
    {s s' : σ} {as : List α} {t : τ} (hrun : Run step G s as s') (hs : S s t) :
    ∃ t', Steps R t as t' ∧ S s' t' := by
  induction hrun generalizing t with
  | nil => exact ⟨t, Steps.nil t, hs⟩
  | cons h _ _ ih =>
      obtain ⟨t', hR, hs'⟩ := hstep hs h
      obtain ⟨t'', hsteps, hs''⟩ := ih hs'
      exact ⟨t'', Steps.cons hR hsteps, hs''⟩

end Margo.Lib.Runs
