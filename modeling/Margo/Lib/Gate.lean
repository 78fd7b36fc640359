import Mathlib.Data.Nat.Notation

/-!
# An admission gate

A gate admits operations until closing is requested; every admitted operation
leaves once. The gate is closed when closing was requested and nothing is in
flight any more. A request is never withdrawn, a requested gate admits
nothing, and a closed gate stays closed.
-/

namespace Margo.Lib

/-- Whether closing was requested, and how many operations are in flight. -/
structure Gate where
  requested : Bool
  inFlight : Nat
  deriving DecidableEq, Repr

/-- The four things that can happen at a gate. -/
inductive Gate.Move : Gate → Gate → Prop
  | stay (g) : Gate.Move g g
  | enter {k} : Move ⟨false, k⟩ ⟨false, k + 1⟩
  | leave {b k} : Move ⟨b, k + 1⟩ ⟨b, k⟩
  | request {b k} : Move ⟨b, k⟩ ⟨true, k⟩

/-- Closing was requested and every admitted operation has left. -/
def Gate.Closed (g : Gate) : Prop := g.requested = true ∧ g.inFlight = 0

theorem Gate.Move.requested {g g' : Gate} (h : Gate.Move g g') (hr : g.requested = true) :
    g'.requested = true := by
  cases h with
  | stay => exact hr
  | enter => cases hr
  | leave => exact hr
  | request => rfl

theorem Gate.Move.inFlight_le {g g' : Gate} (h : Gate.Move g g') (hr : g.requested = true) :
    g'.inFlight ≤ g.inFlight := by
  cases h with
  | stay => exact Nat.le_refl _
  | enter => cases hr
  | leave => exact Nat.le_succ _
  | request => exact Nat.le_refl _

theorem Gate.Move.closed {g g' : Gate} (h : Gate.Move g g') (hc : Closed g) : Closed g' :=
  ⟨h.requested hc.1, Nat.le_zero.mp (hc.2 ▸ h.inFlight_le hc.1)⟩

end Margo.Lib
