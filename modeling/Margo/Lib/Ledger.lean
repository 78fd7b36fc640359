import Mathlib.Data.List.Nodup
import Mathlib.Data.List.Perm.Basic

/-!
# Objects that are created and released

An object has a kind and an address, which no living object of its kind has when it is
created. Releasing an object that does not live is a fault. What someone owns is a list of
objects beside those that lived before; who gives back all that they own leaves nothing.
-/

namespace Margo.Lib

/-- The objects that live, and the releases that found none. -/
structure Ledger (κ : Type*) where
  next : Nat
  live : List (κ × Nat)
  faults : List (κ × Nat)

namespace Ledger

variable {κ : Type*} [DecidableEq κ]

/-- A new object and its address. -/
def create (w : Ledger κ) (kind : κ) : Nat × Ledger κ :=
  (w.next, { w with next := w.next + 1, live := (kind, w.next) :: w.live })

/-- The object goes. -/
def release (w : Ledger κ) (kind : κ) (address : Nat) : Ledger κ :=
  if (kind, address) ∈ w.live then { w with live := w.live.erase (kind, address) }
  else { w with faults := (kind, address) :: w.faults }

/-- Addresses are not given twice. -/
structure Sound (w : Ledger κ) : Prop where
  nodup : w.live.Nodup
  below : ∀ o ∈ w.live, o.2 < w.next

/-- Besides what lived in `base`, exactly the owned objects live, and there was no fault
since. -/
structure Owns (base w : Ledger κ) (owned : List (κ × Nat)) : Prop where
  live : w.live.Perm (owned ++ base.live)
  faults : w.faults = base.faults
  sound : w.Sound
  later : base.next ≤ w.next

variable {base w : Ledger κ} {owned owned' : List (κ × Nat)} {kind : κ} {address : Nat}

omit [DecidableEq κ] in
theorem Sound.owns (h : w.Sound) : w.Owns w [] := ⟨List.Perm.refl _, rfl, h, Nat.le_refl _⟩

omit [DecidableEq κ] in
theorem Owns.perm (h : base.Owns w owned) (hperm : owned.Perm owned') : base.Owns w owned' :=
  ⟨h.live.trans (hperm.append_right _), h.faults, h.sound, h.later⟩

omit [DecidableEq κ] in
/-- Who creates an object owns it. -/
theorem Owns.create (h : base.Owns w owned) (kind : κ) :
    base.Owns (w.create kind).2 ((kind, w.next) :: owned) where
  live := h.live.cons _
  faults := h.faults
  sound := by
    constructor
    · apply List.nodup_cons.mpr ⟨_, h.sound.nodup⟩
      intro hmem
      exact Nat.lt_irrefl _ (h.sound.below _ hmem)
    · intro o ho
      rcases List.mem_cons.mp ho with rfl | hold
      · exact Nat.lt_succ_self _
      · exact Nat.lt_succ_of_lt (h.sound.below o hold)
  later := Nat.le_succ_of_le h.later

/-- Who owns an object can release it. -/
theorem Owns.release (h : base.Owns w ((kind, address) :: owned)) :
    base.Owns (w.release kind address) owned := by
  have hmem : (kind, address) ∈ w.live := h.live.mem_iff.mpr List.mem_cons_self
  rw [Ledger.release, if_pos hmem]
  constructor
  · exact List.cons_perm_iff_perm_erase.mp h.live.symm |>.2.symm
  · exact h.faults
  · constructor
    · exact h.sound.nodup.erase _
    · exact fun o ho => h.sound.below o (List.mem_of_mem_erase ho)
  · exact h.later

/-- What lived before can be counted as owned. -/
theorem Owns.lend {o : κ × Nat} (h : base.Owns w owned) (ho : o ∈ base.live) :
    Owns { base with live := base.live.erase o } w (o :: owned) where
  live := by
    calc w.live
      _ |>.Perm (owned ++ base.live) := h.live
      _ |>.Perm (owned ++ o :: base.live.erase o) := (List.perm_cons_erase ho).append_left _
      _ |>.Perm (o :: owned ++ base.live.erase o) := List.perm_middle
  faults := h.faults
  sound := h.sound
  later := h.later

end Ledger

end Margo.Lib
