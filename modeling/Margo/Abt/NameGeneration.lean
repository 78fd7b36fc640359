import Margo.Abt.Names

/-!
# The loop of a name generator

`generate_unused_pool_name` and `generate_unused_xstream_name` try one name after
another in a `while (true)` loop, without a bound on the number of attempts. Distinct
values of the counter are printed differently, so the loop meets a name that is not in
use before the counter comes around.

## Implementation notes

The attempts are the fuel of the loop, and a loop that runs out of it has no result.
The longest candidate has 23 characters, so the buffer of 128 holds each of them.
-/

namespace Margo.Abt.Names

open Lib

/-- The inner loop: the first position whose name is equal, or the number of names. -/
def firstEqual (name : String) (used : List String) : Nat := used.findIdx (· == name)

/-- The outer loop of a name generator, from the value `i` of its counter on. -/
def generateLoop (print : Nat → String) (used : List String) : Nat → Nat → Option String
  | 0, _ => none
  | attempts + 1, i =>
      let name := print i
      let j := firstEqual name used
      if j = used.length then some name
      else generateLoop print used attempts (incr32 i)

/-- `generate_unused_pool_name`, with at most so many attempts. -/
def generatePoolName (attempts : Nat) (abt : MargoAbt) : Option String :=
  generateLoop (fun i => "__pool_" ++ printInt i ++ "__") (abt.pools.map (·.name)) attempts
    (abt.pools.length % 2 ^ 32)

/-- `generate_unused_xstream_name`, with at most so many attempts. -/
def generateXstreamName (attempts : Nat) (abt : MargoAbt) : Option String :=
  generateLoop (fun i => "__xstream_" ++ printInt i ++ "__") (abt.xstreams.map (·.name))
    attempts (abt.xstreams.length % 2 ^ 32)

variable {print : Nat → String} {used : List String}

theorem firstEqual_eq_length_iff (name : String) (used : List String) :
    firstEqual name used = used.length ↔ name ∉ used := by
  rw [firstEqual, List.findIdx_eq_length]
  constructor
  · intro h hmem
    have hne := h name hmem
    rw [beq_self_eq_true] at hne
    cases hne
  · intro h other hother
    apply beq_eq_false_iff_ne.mpr
    rintro rfl
    exact h hother

/-- The loop is a search among the values that the counter runs through. -/
theorem generateLoop_eq (attempts n k : Nat) :
    generateLoop print used attempts ((n + k) % 2 ^ 32) =
      Fresh.firstUnused (fun j => print ((n + j) % 2 ^ 32)) used attempts k := by
  induction attempts generalizing k with
  | zero => rfl
  | succ attempts ih =>
      rw [generateLoop, Fresh.firstUnused, incr32_mod, Nat.add_assoc, ih]
      simp only [firstEqual_eq_length_iff]
      rw [ite_not]

/-- With distinct candidates and one more attempt than there are names, the loop ends,
with what `generateUnusedName` finds. -/
theorem generateLoop_terminates
    (hprint : ∀ a b, a < 2 ^ 32 → b < 2 ^ 32 → print a = print b → a = b)
    (hlen : used.length < 2 ^ 32) {attempts : Nat} (hattempts : used.length < attempts) :
    generateLoop print used attempts (used.length % 2 ^ 32) =
      some (generateUnusedName print used) := by
  obtain ⟨name, hname⟩ : ∃ name, Fresh.firstUnused
      (fun k => print ((used.length + k) % 2 ^ 32)) used (used.length + 1) 0 = some name := by
    apply Fresh.exists_firstUnused
    intro i j _ hi _ hj heq
    have hmod := hprint _ _ (Nat.mod_lt _ (by decide)) (Nat.mod_lt _ (by decide)) heq
    omega
  calc
    generateLoop print used attempts (used.length % 2 ^ 32) =
        Fresh.firstUnused (fun k => print ((used.length + k) % 2 ^ 32)) used attempts 0 :=
      generateLoop_eq attempts used.length 0
    _ = some name := Fresh.firstUnused_mono hname hattempts
    _ = some (generateUnusedName print used) := by
      rw [generateUnusedName, hname, Option.getD_some]

/-- Among fewer than `2 ^ 31` names, a generator returns after at most one more attempt
than there are names, and its name is not in use. -/
theorem generated_names_fresh (abt : MargoAbt) :
    (abt.pools.length < 2 ^ 31 → ∃ name,
      (∀ attempts, abt.pools.length < attempts → generatePoolName attempts abt = some name) ∧
        name ∉ abt.pools.map (·.name)) ∧
    (abt.xstreams.length < 2 ^ 31 → ∃ name,
      (∀ attempts, abt.xstreams.length < attempts →
          generateXstreamName attempts abt = some name) ∧
        name ∉ abt.xstreams.map (·.name)) := by
  constructor
  · intro hlen
    refine ⟨generateUnusedPoolName abt, ?_, (generateUnusedPoolName_spec (by omega)).1⟩
    intro attempts hattempts
    have hloop : generateLoop poolPrint (abt.pools.map (·.name)) attempts _ = _ :=
      generateLoop_terminates (fun _ _ ha hb => print_inj ha hb)
        (by rw [List.length_map]; omega) (by rwa [List.length_map])
    rwa [List.length_map] at hloop
  · intro hlen
    refine ⟨generateUnusedXstreamName abt, ?_, (generateUnusedXstreamName_spec (by omega)).1⟩
    intro attempts hattempts
    have hloop : generateLoop xstreamPrint (abt.xstreams.map (·.name)) attempts _ = _ :=
      generateLoop_terminates (fun _ _ ha hb => print_inj ha hb)
        (by rw [List.length_map]; omega) (by rwa [List.length_map])
    rwa [List.length_map] at hloop

/-- Two pools, of which the second has the first candidate for its name. -/
theorem generated_names_fresh_two :
    let abt : MargoAbt :=
      ⟨[⟨"__primary__", .obj 0, "fifo_wait", some "mpmc", 0, 0, true, true⟩,
        ⟨"__pool_2__", .obj 1, "fifo_wait", some "mpmc", 0, 0, true, false⟩], 2, [], 0⟩
    ∃ name, generatePoolName 3 abt = some name ∧ name ∉ ["__primary__", "__pool_2__"] := by
  intro abt
  obtain ⟨name, hloop, hnot⟩ := (generated_names_fresh abt).1 (by decide)
  exact ⟨name, hloop 3 (by decide), hnot⟩

end Margo.Abt.Names
