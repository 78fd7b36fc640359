import Margo.Request.Model

/-!
# The result of a forward

A forward reports its result to a completion callback, to `margo_wait` or to
the blocking caller. The last two look at the header of the response once
Mercury reports success; the callback is given what Mercury reports.
-/

namespace Margo.Request

/-- What `margo_provider_cforward_timed` passes to `on_complete`. -/
def cforwardResult (ret : HgReturn) (timeoutMs : Rat) : HgReturn :=
  margoCb ret (0 < timeoutMs)

/-- What `margo_wait` returns after `margo_provider_iforward_timed`. -/
def iforwardResult (ret : HgReturn) (timeoutMs : Rat) (out : Output) : HgReturn :=
  waitInternal .forward (margoCb ret (0 < timeoutMs)) out

/-- What `margo_provider_forward_timed` returns. -/
def forwardResult (ret : HgReturn) (timeoutMs : Rat) (out : Output) : HgReturn :=
  waitInternal .forward (margoCb ret (0 < timeoutMs)) out

/-- The header of the response says success, or there is none to read. -/
def Output.agrees (out : Output) : Prop :=
  out.query = .success ∧
    (out.disabled = true ∨
      ((out.getOutput = .success ∨ out.getOutput = .checksumError) ∧ out.hgRet = .success))

/-- `margo_cb` turns no error into a success and no success into an error. -/
theorem margoCb_success_iff (ret : HgReturn) (timer : Bool) :
    margoCb ret timer = .success ↔ ret = .success := by
  by_cases h : ret = .canceled ∧ timer = true
  · simp [margoCb, h]
  · simp [margoCb, h]

theorem checkErrorInOutput_success_iff (out : Output) :
    checkErrorInOutput out = .success ↔ out.agrees := by
  by_cases hquery : out.query = .success
  · cases hdisabled : out.disabled with
    | true => simp [checkErrorInOutput, Output.agrees, hquery, hdisabled]
    | false =>
        by_cases hget : out.getOutput = .success
        · simp [checkErrorInOutput, Output.agrees, hquery, hdisabled, hget]
        · by_cases hsum : out.getOutput = .checksumError
          · simp [checkErrorInOutput, Output.agrees, hquery, hdisabled, hsum]
          · simp [checkErrorInOutput, Output.agrees, hquery, hdisabled, hget, hsum]
  · simp [checkErrorInOutput, Output.agrees, hquery]

/-- The callback is given what the two waiting calls return exactly when the
operation did not succeed in Mercury or the response carries no error. -/
theorem results_agree_iff (ret : HgReturn) (timeoutMs : Rat) (out : Output) :
    (cforwardResult ret timeoutMs = iforwardResult ret timeoutMs out ∧
        cforwardResult ret timeoutMs = forwardResult ret timeoutMs out) ↔
      ret ≠ .success ∨ out.agrees := by
  have hsame : forwardResult ret timeoutMs out = iforwardResult ret timeoutMs out := rfl
  rw [hsame, and_self, cforwardResult, iforwardResult, waitInternal,
    ← checkErrorInOutput_success_iff]
  by_cases hret : ret = .success
  · have hcb : margoCb ret (0 < timeoutMs) = .success := (margoCb_success_iff ret _).mpr hret
    rw [hcb, if_neg (fun h => h rfl), if_pos rfl]
    simp [hret, eq_comm]
  · have hcb : margoCb ret (0 < timeoutMs) ≠ .success := fun h =>
      hret ((margoCb_success_iff ret _).mp h)
    simp [hcb, hret]

/-- The target refuses the RPC in the header of its response: the callback is
told that the forward succeeded. -/
theorem refusal_hidden_from_callback :
    ¬ ∀ (ret : HgReturn) (timeoutMs : Rat) (out : Output),
      cforwardResult ret timeoutMs = iforwardResult ret timeoutMs out ∧
        cforwardResult ret timeoutMs = forwardResult ret timeoutMs out := by
  intro hall
  have hrefused := hall .success 0 ⟨.success, false, .success, .otherError⟩
  exact absurd hrefused.1 (by decide)

end Margo.Request
