import Margo.Lib.Deviation
import Margo.Lib.MachineInt
import Mathlib.Algebra.Order.Ring.Rat
import Mathlib.Order.Bounds.Basic
import Mathlib.Tactic.NormNum

/-!
# The statistics of the default monitor

`UPDATE_STATISTICS_WITH` keeps the number, the least and the greatest, the sum, the mean
and the running variance of the samples of an operation; `statistics_to_json` reports them
and may start over.

## Implementation notes

A `double` is a rational number. The count of samples does not reach the `2 ^ 64` at which
it would wrap around; its report is an `int`. The lock of the statistics makes each
operation one step.
-/

namespace Margo.Monitor

open Lib Lib.Deviation

/-- `statistics_t`. -/
structure Statistics where
  num : Nat
  min : ℚ
  max : ℚ
  sum : ℚ
  avg : ℚ
  /-- The running variance. -/
  var : ℚ
  deriving DecidableEq, Repr

/-- The statistics in zeroed memory. -/
def Statistics.zero : Statistics := ⟨0, 0, 0, 0, 0, 0⟩

/-- `UPDATE_STATISTICS_WITH`. -/
def updateStatisticsWith (stats : Statistics) (value : ℚ) : Statistics :=
  let num := stats.num + 1
  let min := if stats.min > value ∨ num = 1 then value else stats.min
  let max := if stats.max < value then value else stats.max
  let sum := stats.sum + value
  let oldAvg := stats.avg
  let avg := sum / num
  let var := stats.var + (value - oldAvg) * (value - avg)
  ⟨num, min, max, sum, avg, var⟩

/-- The object that `statistics_to_json` returns. -/
structure StatisticsJson where
  num : Int
  min : ℚ
  max : ℚ
  avg : ℚ
  var : ℚ
  sum : ℚ
  deriving DecidableEq, Repr

/-- `statistics_to_json`: the report, and the statistics afterwards. -/
def statisticsToJson (stats : Statistics) (reset : Bool) : StatisticsJson × Statistics :=
  (⟨Int32.wrap stats.num, stats.min, stats.max, stats.avg, stats.var, stats.sum⟩,
    if reset then ⟨0, 0, 0, 0, 0, 0⟩ else stats)

/-- What is done with the statistics of an operation. -/
inductive StatisticsOp
  | update (value : ℚ)
  | toJson (reset : Bool)
  deriving DecidableEq, Repr

/-- The statistics after an operation. -/
def StatisticsOp.apply (stats : Statistics) : StatisticsOp → Statistics
  | .update value => updateStatisticsWith stats value
  | .toJson reset => (statisticsToJson stats reset).2

/-- The statistics after a sequence of operations. -/
def statisticsAfter (ops : List StatisticsOp) : Statistics :=
  ops.foldl StatisticsOp.apply .zero

/-- The samples since the last reset after one more operation. -/
def StatisticsOp.sample (samples : List ℚ) : StatisticsOp → List ℚ
  | .update value => samples ++ [value]
  | .toJson reset => if reset then [] else samples

/-- The samples since the last reset. -/
def samplesSince (ops : List StatisticsOp) : List ℚ := ops.foldl StatisticsOp.sample []

/-- The statistics say what they are documented to say of the samples. -/
structure Statistics.Exact (stats : Statistics) (samples : List ℚ) : Prop where
  num : stats.num = samples.length
  min : IsLeast {x | x ∈ samples} stats.min
  max : IsGreatest {x | x ∈ samples} stats.max
  sum : stats.sum = samples.sum
  avg : stats.avg = mean samples
  var : stats.var = variance samples

/-- What the statistics say of the samples. -/
structure Statistics.Tracks (stats : Statistics) (samples : List ℚ) : Prop where
  num : stats.num = samples.length
  min : samples ≠ [] → IsLeast {x | x ∈ samples} stats.min
  max : IsGreatest {x | x ∈ 0 :: samples} stats.max
  sum : stats.sum = samples.sum
  avg : stats.avg = mean samples
  var : stats.var = deviations samples

section

variable {stats : Statistics} {samples : List ℚ} {value : ℚ}

theorem tracks_zero : Statistics.zero.Tracks [] where
  num := rfl
  min h := absurd rfl h
  max := by simp [Statistics.zero]
  sum := rfl
  avg := by simp [Statistics.zero, mean]
  var := rfl

/-- The set of samples with one more. -/
theorem setOf_mem_concat (samples : List ℚ) (value : ℚ) :
    {x | x ∈ samples ++ [value]} = insert value {x | x ∈ samples} := by
  ext x
  simp [or_comm]

theorem Statistics.Tracks.update (htracks : stats.Tracks samples) (value : ℚ) :
    (updateStatisticsWith stats value).Tracks (samples ++ [value]) := by
  have hnum : ((stats.num + 1 : Nat) : ℚ) = (samples ++ [value]).length := by
    rw [htracks.num, List.length_append, List.length_singleton]
  have hsum : stats.sum + value = (samples ++ [value]).sum := by
    rw [htracks.sum, List.sum_append, List.sum_singleton]
  constructor
  case num => rw [List.length_append, ← htracks.num, List.length_singleton]; rfl
  case min =>
    intro _
    rw [setOf_mem_concat]
    by_cases hne : samples = []
    · have hone : stats.num + 1 = 1 := by rw [htracks.num, hne, List.length_nil]
      simp [updateStatisticsWith, hone, hne]
    · have hmany : stats.num + 1 ≠ 1 := by
        rw [htracks.num]
        exact fun h => hne (List.length_eq_zero_iff.mp (Nat.succ.inj h))
      have hleast := (htracks.min hne).insert value
      simp only [updateStatisticsWith, hmany, or_false]
      by_cases hlt : value < stats.min
      · rw [if_pos hlt]
        rwa [min_eq_left hlt.le] at hleast
      · rw [if_neg hlt]
        rwa [min_eq_right (not_lt.mp hlt)] at hleast
  case max =>
    rw [← List.cons_append, setOf_mem_concat]
    have hgreatest := htracks.max.insert value
    simp only [updateStatisticsWith]
    by_cases hlt : stats.max < value
    · rw [if_pos hlt]
      rwa [max_eq_left hlt.le] at hgreatest
    · rw [if_neg hlt]
      rwa [max_eq_right (not_lt.mp hlt)] at hgreatest
  case sum => exact hsum
  case avg => rw [mean, ← hnum, ← hsum]; rfl
  case var =>
    rw [deviations_concat, ← htracks.var, ← htracks.avg]
    rw [mean, ← hnum, ← hsum]
    rfl

/-- One operation. -/
theorem Statistics.Tracks.apply (htracks : stats.Tracks samples) (op : StatisticsOp) :
    (op.apply stats).Tracks (op.sample samples) := by
  cases op with
  | update value => exact htracks.update value
  | toJson reset =>
      cases reset with
      | false => exact htracks
      | true => exact tracks_zero

/-- Any sequence of operations. -/
theorem tracks_after (ops : List StatisticsOp) :
    (statisticsAfter ops).Tracks (samplesSince ops) := by
  induction ops using List.reverseRecOn with
  | nil => exact tracks_zero
  | append_singleton ops op ih =>
      rw [statisticsAfter, samplesSince, List.foldl_append, List.foldl_append]
      exact ih.apply op

/-- What a report says of the samples. -/
structure StatisticsJson.Tells (report : StatisticsJson) (samples : List ℚ) : Prop where
  num : report.num = Int32.wrap samples.length
  min : samples ≠ [] → IsLeast {x | x ∈ samples} report.min
  max : IsGreatest {x | x ∈ 0 :: samples} report.max
  sum : report.sum = samples.sum
  avg : report.avg = mean samples
  var : report.var = deviations samples

/-- Every report tells of the samples since the last reset. -/
theorem report_tells (ops : List StatisticsOp) (reset : Bool) :
    (statisticsToJson (statisticsAfter ops) reset).1.Tells (samplesSince ops) := by
  have htracks := tracks_after ops
  constructor
  case num => exact congrArg (fun n : Nat => Int32.wrap n) htracks.num
  case min => exact htracks.min
  case max => exact htracks.max
  case sum => exact htracks.sum
  case avg => exact htracks.avg
  case var => exact htracks.var

/-- What an operation adds to the sum of all samples. -/
def StatisticsOp.adds : StatisticsOp → ℚ
  | .update value => value
  | .toJson _ => 0

/-- The sum that an operation reports and forgets. -/
def StatisticsOp.forgets (stats : Statistics) : StatisticsOp → ℚ
  | .update _ => 0
  | .toJson reset => if reset then (statisticsToJson stats reset).1.sum else 0

/-- The sums that a sequence of operations reports and forgets. -/
def forgotten (stats : Statistics) : List StatisticsOp → ℚ
  | [] => 0
  | op :: ops => op.forgets stats + forgotten (op.apply stats) ops

/-- A reset reports what it forgets. -/
theorem StatisticsOp.forgets_add_sum (stats : Statistics) (op : StatisticsOp) :
    op.forgets stats + (op.apply stats).sum = stats.sum + op.adds := by
  cases op with
  | update value => exact zero_add _
  | toJson reset =>
      cases reset with
      | false => exact add_comm _ _
      | true => rfl

/-- The sums of the reports that start over and of what was added since are the sum of
all samples. -/
theorem resets_lose_nothing (stats : Statistics) (ops : List StatisticsOp) :
    forgotten stats ops + (ops.foldl StatisticsOp.apply stats).sum =
      stats.sum + (ops.map StatisticsOp.adds).sum := by
  induction ops generalizing stats with
  | nil => rw [forgotten, List.foldl_nil, List.map_nil, List.sum_nil, zero_add, add_zero]
  | cons op ops ih =>
      calc
        forgotten stats (op :: ops) + ((op :: ops).foldl StatisticsOp.apply stats).sum =
            op.forgets stats + (forgotten (op.apply stats) ops +
              (ops.foldl StatisticsOp.apply (op.apply stats)).sum) := add_assoc ..
        _ = op.forgets stats + (op.apply stats).sum + (ops.map StatisticsOp.adds).sum := by
          rw [ih, add_assoc]
        _ = stats.sum + ((op :: ops).map StatisticsOp.adds).sum := by
          rw [op.forgets_add_sum, List.map_cons, List.sum_cons, add_assoc]

theorem mem_samplesSince {ops : List StatisticsOp} (h : value ∈ samplesSince ops) :
    .update value ∈ ops := by
  induction ops using List.reverseRecOn with
  | nil => cases h
  | append_singleton ops op ih =>
      rw [samplesSince, List.foldl_append] at h
      rw [List.mem_append]
      cases op with
      | update x =>
          rcases List.mem_append.mp h with h | h
          · exact .inl (ih h)
          · rw [List.mem_singleton.mp h]
            exact .inr List.mem_cons_self
      | toJson reset =>
          cases reset with
          | false => exact .inl (ih h)
          | true => cases h

/-- Of samples that are not negative, everything but the variance is exact, and the
variance is exact if and only if the sum of the squared deviations is it. -/
theorem Statistics.Tracks.exact_iff (htracks : stats.Tracks samples) (hne : samples ≠ [])
    (hnonneg : ∀ x ∈ samples, 0 ≤ x) :
    stats.Exact samples ↔ deviations samples = variance samples := by
  constructor
  · intro hexact
    rw [← htracks.var, hexact.var]
  · intro hvar
    refine ⟨htracks.num, htracks.min hne, ?_, htracks.sum, htracks.avg, htracks.var.trans hvar⟩
    obtain ⟨hmem, hupper⟩ := htracks.max
    refine ⟨?_, fun x hx => hupper (List.mem_cons_of_mem 0 hx)⟩
    rcases List.mem_cons.mp hmem with hzero | hmem
    · obtain ⟨x, hx⟩ := List.exists_mem_of_ne_nil samples hne
      have hle : x ≤ stats.max := hupper (List.mem_cons_of_mem 0 hx)
      have heq : stats.max = x := by
        apply le_antisymm
        · exact hzero.le.trans (hnonneg x hx)
        · exact hle
      rw [heq]
      exact hx
    · exact hmem

/-- The statistics are exact if and only if all samples since the last reset are equal. -/
theorem statistics_exact_iff {ops : List StatisticsOp}
    (hnonneg : ∀ value, .update value ∈ ops → 0 ≤ value) (hne : samplesSince ops ≠ []) :
    (statisticsAfter ops).Exact (samplesSince ops) ↔
      ∀ x ∈ samplesSince ops, ∀ y ∈ samplesSince ops, x = y := by
  rw [← deviations_eq_variance_iff hne]
  exact (tracks_after ops).exact_iff hne fun x hx => hnonneg x (mem_samplesSince hx)

end

/-- Two equal samples after a reset. -/
theorem statistics_exact_twice :
    (statisticsAfter [.update 1, .toJson true, .update 3, .update 3]).Exact [3, 3] := by
  apply (@statistics_exact_iff [.update 1, .toJson true, .update 3, .update 3] ?_
    (by decide)).mpr
  · decide
  · intro value hmem
    simp only [List.mem_cons, StatisticsOp.update.injEq, List.not_mem_nil, reduceCtorEq, or_false,
      false_or] at hmem
    rcases hmem with rfl | rfl | rfl
    · exact zero_le_one
    · exact zero_le_three
    · exact zero_le_three

/-- The samples 0 and 2: their mean is 1 and their variance 1, but 2 is reported. -/
theorem not_statistics_exact :
    ¬∀ ops : List StatisticsOp, (∀ value, .update value ∈ ops → 0 ≤ value) →
      samplesSince ops ≠ [] → (statisticsAfter ops).Exact (samplesSince ops) := by
  intro hall
  have hexact := hall [.update 0, .update 2] ?_ (by decide)
  · have hvar := hexact.var
    norm_num [statisticsAfter, samplesSince, StatisticsOp.apply, StatisticsOp.sample,
      updateStatisticsWith, Statistics.zero, variance, deviations, mean] at hvar
  · intro value hmem
    simp only [List.mem_cons, StatisticsOp.update.injEq, List.not_mem_nil, or_false] at hmem
    rcases hmem with rfl | rfl
    · exact le_refl 0
    · exact zero_le_two

end Margo.Monitor
