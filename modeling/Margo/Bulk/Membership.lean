import Margo.Bulk.Exclusivity

/-!
# Which releases a bulk pool rejects

`margo_bulk_pool_release` is documented to reject handles that do not belong to
the pool. It looks at the size, the permission and the memory of the handle, so
it tells apart the handles that differ from the pool's own in one of these, and
no others: a handle that is free already, or a handle of the user for memory
inside the pool's buffer, is accepted.

## Implementation notes

The runs considered here may contain releases by anyone, of anything, as long
as each one meets the condition. The first release that does not is answered
with success, or writes before the array.
-/

namespace Margo.Bulk

open Lib

variable {hg : Mercury} {buf size flag : Nat} {handles : List Handle} {s : State}

/-- What the size, the permission and the memory of a handle tell: it cannot be
one of `count` handles for the segments of a buffer. -/
def Discernible (hg : Mercury) (buf size flag count : Nat) (b : Handle) : Prop :=
  b = null ∨ hg.getSize b ≠ size ∨
    ∀ segment ∈ hg.access b 0 size flag,
      segment.1 < buf ∨ buf + size * count < segment.1 + segment.2

instance (hg : Mercury) (buf size flag count : Nat) (b : Handle) :
    Decidable (Discernible hg buf size flag count b) := by
  unfold Discernible
  infer_instance

theorem Pool.Sound.accepts_eq_false_iff {p : Pool} (hp : p.Sound buf size flag handles)
    (hfits : size * handles.length < 2 ^ 64) (b : Handle) :
    p.accepts hg b = false ↔ Discernible hg buf size flag handles.length b := by
  simp only [Pool.accepts, Discernible, hp.buf_eq, hp.size_eq, hp.flag_eq, hp.count_eq,
    SizeT.mul_of_lt hfits]
  by_cases hnull : b = null
  · simp [hnull]
  · by_cases hsize : hg.getSize b = size
    · cases hg.access b 0 size flag with
      | none => simp
      | some segment =>
          obtain ⟨bufPtr, bufSize⟩ := segment
          simp [hnull, hsize]
          omega
    · simp [hnull, hsize, Ne.symm hsize]

/-- A handle given back is held by someone, or is seen not to be the pool's. -/
def Tellable (hg : Mercury) (buf size flag count : Nat) (s : State) : Step → Prop
  | .release _ b => s.Held b ∨ Discernible hg buf size flag count b
  | .get _ | .wake _ | .tryget _ => True

theorem State.Shares.proper_iff (hreg : Registered hg buf size flag handles)
    (hs : s.Shares buf size flag handles) (a : Step) :
    Proper hg s a ↔ Tellable hg buf size flag handles.length s a := by
  cases a with
  | release t b => exact or_congr_right (hs.sound.accepts_eq_false_iff hreg.fits b)
  | get _ => exact Iff.rfl
  | wake _ => exact Iff.rfl
  | tryget _ => exact Iff.rfl

instance (hg : Mercury) (buf size flag count : Nat) :
    ∀ s a, Decidable (Tellable hg buf size flag count s a)
  | s, .release _ b =>
      inferInstanceAs (Decidable (b ∈ s.heldHandles ∨ Discernible hg buf size flag count b))
  | _, .get _ | _, .wake _ | _, .tryget _ => inferInstanceAs (Decidable True)

/-- The call stays inside the array; it succeeds only for a handle of the pool
that is held, and else fails and leaves the pool as it is. -/
def KeepsOut (hg : Mercury) (handles : List Handle) (s : State) (b : Handle) : Prop :=
  ∃ p c, s.pool.release hg b = some (p, c) ∧
    (c = 0 → b ∈ handles ∧ s.Held b) ∧ (¬(b ∈ handles ∧ s.Held b) → c = -1 ∧ p = s.pool)

theorem State.Shares.keepsOut_iff (hreg : Registered hg buf size flag handles)
    (hs : s.Shares buf size flag handles) (b : Handle) :
    KeepsOut hg handles s b ↔ s.Held b ∨ Discernible hg buf size flag handles.length b := by
  have hown : s.Held b → b ∈ handles := (hs.exclusive hreg).own_of_held b
  rw [← hs.sound.accepts_eq_false_iff hreg.fits]
  constructor
  · rintro ⟨p, c, hrelease, hzero, -⟩
    by_cases haccepts : s.pool.accepts hg b = true
    · rw [Pool.release, if_pos haccepts] at hrelease
      obtain ⟨p', _, hc⟩ := Option.map_eq_some_iff.mp hrelease
      exact .inl (hzero (Prod.ext_iff.mp hc).2.symm).2
    · exact .inr (Bool.eq_false_iff.mpr haccepts)
  · rintro (hheld | hrejected)
    · obtain ⟨p, hrelease, -, -⟩ := hs.release hreg hheld
      exact ⟨p, 0, hrelease, fun _ => ⟨hown hheld, hheld⟩, fun h => absurd ⟨hown hheld, hheld⟩ h⟩
    · have hrelease : s.pool.release hg b = some (s.pool, -1) := by
        rw [Pool.release, hrejected, if_neg Bool.false_ne_true]
      exact ⟨s.pool, -1, hrelease, fun h => absurd h (by decide), fun _ => ⟨rfl, rfl⟩⟩

/-- Along every run in which each handle given back is held or is seen not to be
the pool's, the number of free entries stays within the array and no call leaves
it; and a release is answered as it should be exactly if it is of this kind. -/
theorem release_keeps_out_iff (hreg : Registered hg buf size flag handles) {as : List Step}
    (hrun : Runs.Run (step hg) (fun s a _ => Tellable hg buf size flag handles.length s a)
      (State.initial (Pool.created buf size flag handles)) as s) :
    s.pool.numFree ≤ s.pool.count ∧
      (∀ a, Tellable hg buf size flag handles.length s a → (perform hg s a).isSome) ∧
      ∀ b, KeepsOut hg handles s b ↔
        s.Held b ∨ Discernible hg buf size flag handles.length b := by
  have hs : s.Shares buf size flag handles := by
    refine hrun.invariant (P := State.Shares buf size flag handles) ?_
      (shares_initial hreg.count_lt)
    intro s a s' hs htell hstep
    exact hs.step hreg ((hs.proper_iff hreg a).mpr htell) hstep
  refine ⟨(hs.exclusive hreg).numFree_le, fun a ha => ?_, fun b => hs.keepsOut_iff hreg b⟩
  obtain ⟨s', r, hperform, -⟩ := hs.perform hreg ((hs.proper_iff hreg a).mpr ha)
  rw [hperform]
  rfl

/-- A thread gets a handle, someone offers a handle for other memory, and
another thread gives the first one back. -/
def visitors : List Step := [.get 0, .release 1 5, .release 1 1]

theorem release_keeps_out_visitors :
    ∃ s, Runs.Run (step segments) (fun s a _ => Tellable segments 4096 8 0 2 s a)
        (State.initial (Pool.created 4096 8 0 [1, 2])) visitors s ∧
      s.pool.numFree = 2 ∧
      ∀ b, KeepsOut segments [1, 2] s b ↔ s.Held b ∨ Discernible segments 4096 8 0 2 b := by
  obtain ⟨s, hrun, hfree⟩ : ∃ s,
      Runs.Run (step segments) (fun s a _ => Tellable segments 4096 8 0 2 s a)
        (State.initial (Pool.created 4096 8 0 [1, 2])) visitors s ∧ s.pool.numFree = 2 :=
    Runs.run_of_exec_map (f := fun s : State => s.pool.numFree) (by decide)
  exact ⟨s, hrun, hfree, (release_keeps_out_iff registered_segments hrun).2.2⟩

/-- Two handles taken, and the first one given back. -/
def returned : List Step := [.tryget 0, .tryget 0, .release 0 1]

/-- The handle that was given back is accepted once more. -/
theorem not_release_keeps_out :
    ¬∀ (hg : Mercury) (buf size flag : Nat) (handles : List Handle),
      Registered hg buf size flag handles → ∀ (as : List Step) (s : State),
      Runs.Run (step hg) Runs.Any (State.initial (Pool.created buf size flag handles)) as s →
      ∀ b, KeepsOut hg handles s b := by
  intro h
  obtain ⟨s, hrun, hs⟩ : ∃ s, Runs.Run (step segments) Runs.Any
      (State.initial (Pool.created 4096 8 0 [1, 2])) returned s ∧
      s = ⟨⟨4096, [1, 1], 2, 8, 1, 0⟩, [(0, 2)], []⟩ :=
    Runs.run_of_exec_map (f := id) (by decide)
  obtain ⟨p, c, hrelease, hzero, -⟩ := h _ _ _ _ _ registered_segments _ _ hrun 1
  have haccepted : s.pool.release segments 1 = some (⟨4096, [1, 1], 2, 8, 2, 0⟩, 0) := by
    rw [hs]
    decide
  rw [haccepted, Option.some.injEq, Prod.mk.injEq] at hrelease
  have hheld : s.Held 1 := (hzero hrelease.2.symm).2
  rw [hs] at hheld
  exact absurd hheld (by unfold State.Held; decide)

end Margo.Bulk
