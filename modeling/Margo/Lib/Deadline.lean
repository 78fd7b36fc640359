import Margo.Lib.Runs

/-!
# Deadlines counted in outputs

A system whose states carry the list of their outputs so far. An output is due
within `n` if it is one of the next `n` outputs, whatever steps are taken. To
show that it is, a state is said to wait with a number, every step keeps the
number and every output lowers it, and no state waits with the number zero.
-/

namespace Margo.Lib.Deadline

open Lib.Runs

variable {σ α β : Type*} {R : σ → α → σ → Prop} {out : σ → List β} {b : β}

/-- Once there are `n` more outputs, `b` is one of them. -/
def Within (out : σ → List β) (b : β) (n : Nat) (s s' : σ) : Prop :=
  (out s).length + n ≤ (out s').length → b ∈ ((out s').drop (out s).length).take n

/-- Only the outputs matter. -/
theorem Within.transfer {τ : Type*} {out' : τ → List β} {n : Nat} {s s' : σ} {t t' : τ}
    (h : Within out b n s s') (ht : out' t = out s) (ht' : out' t' = out s') :
    Within out' b n t t' := by
  unfold Within
  rw [ht, ht']
  exact h

/-- `b` is put out by the time that the number a state waits with is used up. -/
structure Waiting (R : σ → α → σ → Prop) (out : σ → List β) (b : β)
    (Waits : Nat → σ → Prop) : Prop where
  pos : ∀ {n s}, Waits n s → 0 < n
  grows : ∀ {s a s'}, R s a s' → out s <+: out s'
  step : ∀ {n s a s'}, Waits (n + 1) s → R s a s' →
    (out s' = out s ∧ Waits (n + 1) s') ∨ ∃ o, out s' = out s ++ [o] ∧ (o = b ∨ Waits n s')

variable {Waits : Nat → σ → Prop} {n : Nat} {s s' : σ} {as : List α}

theorem Waiting.grows_steps (h : Waiting R out b Waits) (hsteps : Steps R s as s') :
    out s <+: out s' := by
  induction hsteps with
  | nil => exact List.prefix_refl _
  | cons hR _ ih => exact (h.grows hR).trans ih

/-- A whole run puts `b` out in time, or is not that long. -/
theorem Waiting.run (h : Waiting R out b Waits) (hsteps : Steps R s as s') (hs : Waits n s) :
    ∃ news, out s' = out s ++ news ∧ (b ∈ news.take n ∨ news.length < n) := by
  induction hsteps generalizing n with
  | nil => exact ⟨[], (List.append_nil _).symm, .inr (h.pos hs)⟩
  | @cons s a t as s' hR htail ih =>
      obtain ⟨n, rfl⟩ := Nat.exists_eq_add_one.mpr (h.pos hs)
      obtain ⟨hkept, ht⟩ | ⟨o, hout, hdone | ht⟩ := h.step hs hR
      · obtain ⟨news, hnews, hb⟩ := ih ht
        exact ⟨news, by rw [hnews, hkept], hb⟩
      · obtain ⟨news, hnews⟩ := h.grows_steps htail
        refine ⟨o :: news, ?_, .inl ?_⟩
        · rw [← hnews, hout, List.append_assoc, List.singleton_append]
        · rw [List.take_succ_cons, hdone]
          exact List.mem_cons_self
      · obtain ⟨news, hnews, hb⟩ := ih ht
        refine ⟨o :: news, ?_, hb.imp (fun hb => ?_) (fun hb => ?_)⟩
        · rw [hnews, hout, List.append_assoc, List.singleton_append]
        · rw [List.take_succ_cons]
          exact List.mem_cons_of_mem o hb
        · exact Nat.succ_lt_succ hb

/-- What waits with at most `n` is due within `n`. -/
theorem Waiting.within {m : Nat} (h : Waiting R out b Waits) (hsteps : Steps R s as s')
    (hs : Waits m s) (hm : m ≤ n) : Within out b n s s' := by
  intro hlength
  obtain ⟨news, hnews, hb⟩ := h.run hsteps hs
  rw [hnews, List.drop_left]
  obtain hb | hshort := hb
  · exact (List.take_prefix_take_left hm).subset hb
  · rw [hnews, List.length_append] at hlength
    omega

end Margo.Lib.Deadline
