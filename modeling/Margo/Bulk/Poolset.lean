import Mathlib.Data.List.Nodup
import Mathlib.Data.Nat.Pairing
import Margo.Bulk.Creation
import Margo.Bulk.Exclusivity

/-!
# The size classes of a poolset

`margo_bulk_poolset_get`, `margo_bulk_poolset_tryget` and
`margo_bulk_poolset_release` look for a pool by going through the sizes that
the pools were created with, each computed again from the one before. They find
the right pool where these sizes increase, which the multiplication modulo
`2 ^ 64` does not ensure.

## Implementation notes

Each pool has its own mutex. A call visits every pool at most once, so the
state of a pool is the one in which the call finds it, and a run of the poolset
interleaves the critical sections of its pools in any order.
-/

namespace Margo.Bulk

open Lib

/-! ## The calls -/

/-- A poolset in use: its pools, each with who holds its handles. -/
structure SetState where
  pools : List State
  npools : Nat
  firstSize : Nat
  sizeMultiple : Nat
  deriving DecidableEq, Repr

/-- A poolset that nobody has called yet. -/
def Poolset.start (s : Poolset) : SetState :=
  ⟨s.pools.map State.initial, s.npools, s.firstSize, s.sizeMultiple⟩

/-- The pool with some index is in another state. -/
def SetState.put (x : SetState) (i : Nat) (y : State) : SetState :=
  { x with pools := x.pools.set i y }

/-- A critical section of the pool with some index. -/
def SetState.enter (x : SetState) (i : Nat) (f : State → Option (State × Reply)) :
    Option (SetState × Reply) :=
  match x.pools[i]? with
  | none => none
  | some y => (f y).map fun (y', r) => (x.put i y', r)

/-- `margo_bulk_poolset_get_max`. -/
def SetState.getMax (x : SetState) : Option Nat :=
  (x.pools[SizeT.sub x.npools 1]?).map (·.pool.size)

/-- The loop of `margo_bulk_poolset_get`, with the number of pools left, the
index and the size. -/
def SetState.getFrom (x : SetState) (t : Thread) (size : Nat) :
    Nat → Nat → Nat → Option (SetState × Reply)
  | 0, _, _ => some (x, .code (-1))
  | n + 1, i, thisSize =>
      if size ≤ thisSize then
        x.enter i (·.get t)
      else
        x.getFrom t size n (i + 1) (SizeT.mul thisSize x.sizeMultiple)

/-- `margo_bulk_poolset_get`. -/
def SetState.get (x : SetState) (t : Thread) (size : Nat) : Option (SetState × Reply) :=
  x.getFrom t size x.npools 0 x.firstSize

/-- The loop of `margo_bulk_poolset_tryget`. -/
def SetState.trygetFrom (hg : Mercury) (t : Thread) (size : Nat) (anyFlag : Bool) :
    Nat → Nat → Nat → SetState → Option (SetState × Reply)
  | 0, _, _, x => some (x, .bulk null)
  | n + 1, i, thisSize, x =>
      if size ≤ thisSize then
        match x.enter i (perform hg · (.tryget t)) with
        | some (x', .bulk b) =>
            if b ≠ null ∨ anyFlag = false then
              some (x', .bulk b)
            else
              trygetFrom hg t size anyFlag n (i + 1) (SizeT.mul thisSize x'.sizeMultiple) x'
        | result => result
      else
        trygetFrom hg t size anyFlag n (i + 1) (SizeT.mul thisSize x.sizeMultiple) x

/-- `margo_bulk_poolset_tryget`. -/
def SetState.tryget (hg : Mercury) (x : SetState) (t : Thread) (size : Nat) (anyFlag : Bool) :
    Option (SetState × Reply) :=
  trygetFrom hg t size anyFlag x.npools 0 x.firstSize x

/-- The loop of `margo_bulk_poolset_release`. -/
def SetState.releaseFrom (hg : Mercury) (x : SetState) (t : Thread) (bulk : Handle) :
    Nat → Nat → Nat → Option (SetState × Reply)
  | 0, _, _ => some (x, .code (-1))
  | n + 1, i, size =>
      if hg.getSize bulk = size then
        x.enter i (perform hg · (.release t bulk))
      else
        x.releaseFrom hg t bulk n (i + 1) (SizeT.mul size x.sizeMultiple)

/-- `margo_bulk_poolset_release`. -/
def SetState.release (hg : Mercury) (x : SetState) (t : Thread) (bulk : Handle) :
    Option (SetState × Reply) :=
  if bulk = null then some (x, .code (-1))
  else x.releaseFrom hg t bulk x.npools 0 x.firstSize

/-- A critical section of one of the pools. -/
def setStep (hg : Mercury) (x : SetState) (a : Nat × Step) : Option SetState :=
  match x.pools[a.1]? with
  | none => none
  | some y => (step hg y a.2).map (x.put a.1)

/-- A handle is given back to its pool, by the thread that holds it. -/
def ByHolderIn (x : SetState) (a : Nat × Step) : Prop :=
  ∀ y ∈ x.pools[a.1]?, ByHolder y a.2

instance (x : SetState) (a : Nat × Step) : Decidable (ByHolderIn x a) :=
  inferInstanceAs (Decidable (∀ y ∈ x.pools[a.1]?, ByHolder y a.2))

/-! ## The sizes -/

theorem sizeAt_eq {firstSize : Nat} (h : firstSize < 2 ^ 64) (sizeMultiple i : Nat) :
    sizeAt firstSize sizeMultiple i = firstSize * sizeMultiple ^ i % 2 ^ 64 := by
  induction i with
  | zero => rw [sizeAt, pow_zero, Nat.mul_one, Nat.mod_eq_of_lt h]
  | succ i ih => rw [sizeAt, ih, SizeT.mul, Nat.mod_mul_mod, Nat.mul_assoc, ← pow_succ]

/-- The products that the sizes are computed from increase modulo `2 ^ 64`. -/
def Growing (firstSize sizeMultiple npools : Nat) : Prop :=
  ∀ i, i + 1 < npools →
    firstSize * sizeMultiple ^ i % 2 ^ 64 < firstSize * sizeMultiple ^ (i + 1) % 2 ^ 64

/-- Where the largest product does not wrap, none does. -/
theorem growing_of_lt {firstSize sizeMultiple npools : Nat} (hfirst : 0 < firstSize)
    (hmultiple : 1 < sizeMultiple)
    (h : firstSize * sizeMultiple ^ (npools - 1) < 2 ^ 64) :
    Growing firstSize sizeMultiple npools := by
  intro i hi
  have hle : firstSize * sizeMultiple ^ (i + 1) ≤ firstSize * sizeMultiple ^ (npools - 1) :=
    Nat.mul_le_mul_left _ (Nat.pow_le_pow_right (by omega) (by omega))
  have hlt : firstSize * sizeMultiple ^ i < firstSize * sizeMultiple ^ (i + 1) :=
    Nat.mul_lt_mul_of_pos_left (Nat.pow_lt_pow_right hmultiple (Nat.lt_succ_self i)) hfirst
  rwa [Nat.mod_eq_of_lt (by omega), Nat.mod_eq_of_lt (by omega)]

theorem Growing.sizeAt_lt {firstSize sizeMultiple npools : Nat} (hfirst : firstSize < 2 ^ 64)
    (h : Growing firstSize sizeMultiple npools) {i j : Nat} (hij : i < j) (hj : j < npools) :
    sizeAt firstSize sizeMultiple i < sizeAt firstSize sizeMultiple j := by
  have hstep : ∀ k, k + 1 < npools →
      sizeAt firstSize sizeMultiple k < sizeAt firstSize sizeMultiple (k + 1) := by
    intro k hk
    rw [sizeAt_eq hfirst, sizeAt_eq hfirst]
    exact h k hk
  induction j with
  | zero => exact absurd hij (Nat.not_lt_zero i)
  | succ j ih =>
      obtain rfl | hlt := Nat.eq_or_lt_of_le (Nat.le_of_lt_succ hij)
      · exact hstep i hj
      · exact Nat.lt_trans (ih hlt (Nat.lt_of_succ_lt hj)) (hstep j hj)

/-! ## The loops -/

variable {hg : Mercury} {flag : Nat} {x : SetState} {t : Thread}

/-- The size of the pool with some index, as the calls compute it. -/
def SetState.sizeAt (x : SetState) (i : Nat) : Nat := Bulk.sizeAt x.firstSize x.sizeMultiple i

/-- `margo_bulk_poolset_get` enters the first pool whose size is sufficient. -/
theorem SetState.getFrom_eq (x : SetState) (t : Thread) (size n i : Nat) :
    x.getFrom t size n i (x.sizeAt i) =
      match (List.range' i n).find? (size ≤ x.sizeAt ·) with
      | none => some (x, .code (-1))
      | some k => x.enter k (·.get t) := by
  induction n generalizing i with
  | zero => rfl
  | succ n ih =>
      rw [getFrom, List.range'_succ, List.find?_cons]
      by_cases hsize : size ≤ x.sizeAt i
      · simp [hsize]
      · have hnext : SizeT.mul (x.sizeAt i) x.sizeMultiple = x.sizeAt (i + 1) := rfl
        simp only [hsize, ↓reduceIte, decide_false, hnext]
        exact ih (i + 1)

/-- `margo_bulk_poolset_release` enters the first pool of the handle's size. -/
theorem SetState.releaseFrom_eq (hg : Mercury) (x : SetState) (t : Thread) (bulk : Handle)
    (n i : Nat) :
    x.releaseFrom hg t bulk n i (x.sizeAt i) =
      match (List.range' i n).find? (hg.getSize bulk = x.sizeAt ·) with
      | none => some (x, .code (-1))
      | some k => x.enter k (perform hg · (.release t bulk)) := by
  induction n generalizing i with
  | zero => rfl
  | succ n ih =>
      rw [releaseFrom, List.range'_succ, List.find?_cons]
      by_cases hsize : hg.getSize bulk = x.sizeAt i
      · simp [hsize]
      · have hnext : SizeT.mul (x.sizeAt i) x.sizeMultiple = x.sizeAt (i + 1) := rfl
        simp only [hsize, ↓reduceIte, decide_false, hnext]
        exact ih (i + 1)

/-- A pool that was created with buffers of some size, and its handles shared out. -/
def Serves (hg : Mercury) (flag size : Nat) (y : State) : Prop :=
  ∃ buf handles, Registered hg buf size flag handles ∧ y.Shares buf size flag handles

theorem Serves.size_eq {size : Nat} {y : State} (h : Serves hg flag size y) :
    y.pool.size = size := by
  obtain ⟨_, _, _, hs⟩ := h
  exact hs.sound.size_eq

/-- Every pool serves its size. -/
structure SetState.Laid (hg : Mercury) (flag : Nat) (x : SetState) : Prop where
  length_eq : x.pools.length = x.npools
  serves : ∀ i y, x.pools[i]? = some y → Serves hg flag (x.sizeAt i) y

theorem SetState.Laid.size_eq (hx : x.Laid hg flag) {i : Nat} {y : State}
    (hy : x.pools[i]? = some y) : y.pool.size = x.sizeAt i := (hx.serves i y hy).size_eq

theorem SetState.Laid.exists_get (hx : x.Laid hg flag) {i : Nat} (hi : i < x.npools) :
    ∃ y, x.pools[i]? = some y :=
  ⟨_, List.getElem?_eq_getElem (hx.length_eq.symm ▸ hi)⟩

theorem SetState.put_self {i : Nat} {y : State} (hy : x.pools[i]? = some y) : x.put i y = x := by
  obtain ⟨hlt, rfl⟩ := List.getElem?_eq_some_iff.mp hy
  rw [put, List.set_getElem_self]

theorem SetState.enter_of {i : Nat} {y y' : State} {r : Reply}
    {f : State → Option (State × Reply)} (hy : x.pools[i]? = some y) (hf : f y = some (y', r)) :
    x.enter i f = some (x.put i y', r) := by
  rw [enter, hy]
  simp [hf]

/-- The pool with some index is one that `margo_bulk_poolset_tryget` stops at. -/
def SetState.Stops (x : SetState) (size : Nat) (anyFlag : Bool) (i : Nat) : Prop :=
  size ≤ x.sizeAt i ∧ (anyFlag = false ∨ ∃ y ∈ x.pools[i]?, y.pool.numFree ≠ 0)

instance (x : SetState) (size : Nat) (anyFlag : Bool) (i : Nat) :
    Decidable (x.Stops size anyFlag i) := by
  unfold SetState.Stops
  infer_instance

/-- `margo_bulk_poolset_tryget` enters the first pool whose size is sufficient
and, with the flag, that has a free handle. -/
theorem SetState.Laid.trygetFrom_eq (hx : x.Laid hg flag) (t : Thread) (size : Nat)
    (anyFlag : Bool) (n i : Nat) (hn : i + n ≤ x.npools) :
    trygetFrom hg t size anyFlag n i (x.sizeAt i) x =
      match (List.range' i n).find? (x.Stops size anyFlag ·) with
      | none => some (x, .bulk null)
      | some k => x.enter k (perform hg · (.tryget t)) := by
  induction n generalizing i with
  | zero => rfl
  | succ n ih =>
      have hnext : SizeT.mul (x.sizeAt i) x.sizeMultiple = x.sizeAt (i + 1) := rfl
      have hrec := ih (i + 1) (by omega)
      obtain ⟨y, hy⟩ := hx.exists_get (i := i) (by omega)
      obtain ⟨buf, handles, hreg, hs⟩ := hx.serves i y hy
      obtain ⟨y', b, htryget, -, hnull, hsame, -⟩ := hs.tryget hreg t
      have henter : x.enter i (perform hg · (.tryget t)) = some (x.put i y', .bulk b) :=
        enter_of hy htryget
      rw [trygetFrom, List.range'_succ, List.find?_cons, henter]
      by_cases hsize : size ≤ x.sizeAt i
      · by_cases hstop : b ≠ null ∨ anyFlag = false
        · have hstops : x.Stops size anyFlag i := by
            refine ⟨hsize, hstop.symm.imp_right fun hb => ⟨y, hy, ?_⟩⟩
            exact mt hnull.mpr hb
          simp only [hsize, ↓reduceIte, hstop, hstops, decide_true, henter]
        · have hb : b = null := by
            by_contra h
            exact hstop (.inl h)
          have hstops : ¬x.Stops size anyFlag i := by
            rintro ⟨-, hany | ⟨z, hz, hfree⟩⟩
            · exact hstop (.inr hany)
            · obtain rfl : y = z := Option.some.inj (hy.symm.trans hz)
              exact hfree (hnull.mp hb)
          simp only [hsize, ↓reduceIte, hstop, hstops, decide_false, hsame hb, put_self hy, hnext]
          exact hrec
      · have hstops : ¬x.Stops size anyFlag i := fun h => hsize h.1
        simp only [hsize, ↓reduceIte, hstops, decide_false, hnext]
        exact hrec

/-! ## The classes -/

/-- A pool with the smallest buffers among those with some property. -/
structure Smallest (x : SetState) (P : State → Prop) (i : Nat) (y : State) : Prop where
  get_eq : x.pools[i]? = some y
  holds : P y
  le : ∀ (j : Nat) (z : State), x.pools[j]? = some z → P z → y.pool.size ≤ z.pool.size

/-- What the calls on a poolset are to do. -/
structure SizeClasses (hg : Mercury) (x : SetState) : Prop where
  /-- The sizes of the buffers increase with the index of the pool. -/
  increasing : ∀ (i j : Nat) (y z : State), x.pools[i]? = some y → x.pools[j]? = some z →
    i < j → y.pool.size < z.pool.size
  /-- The largest size is that of a pool. -/
  getMax : ∃ m, x.getMax = some m ∧
    (∃ (i : Nat) (y : State), x.pools[i]? = some y ∧ y.pool.size = m) ∧
    ∀ (i : Nat) (y : State), x.pools[i]? = some y → y.pool.size ≤ m
  /-- `margo_bulk_poolset_get` gets from the smallest class. -/
  get : ∀ t size m, x.getMax = some m → size ≤ m → ∃ i y y' r,
    Smallest x (size ≤ ·.pool.size) i y ∧ y.get t = some (y', r) ∧
      x.get t size = some (x.put i y', r)
  get_fails : ∀ t size m, x.getMax = some m →
    (x.get t size = some (x, .code (-1)) ↔ m < size)
  /-- Without the flag, `margo_bulk_poolset_tryget` tries the smallest class. -/
  tryget : ∀ t size m, x.getMax = some m → size ≤ m → ∃ i y y' r,
    Smallest x (size ≤ ·.pool.size) i y ∧ perform hg y (.tryget t) = some (y', r) ∧
      x.tryget hg t size false = some (x.put i y', r)
  /-- With it, it takes from the smallest class that has a free handle. -/
  tryget_any : ∀ t size i y,
    Smallest x (fun y => size ≤ y.pool.size ∧ y.pool.numFree ≠ 0) i y →
      ∃ y' b, b ≠ null ∧ perform hg y (.tryget t) = some (y', .bulk b) ∧
        x.tryget hg t size true = some (x.put i y', .bulk b)
  tryget_none : ∀ t size, x.tryget hg t size true = some (x, .bulk null) ↔
    ∀ (i : Nat) (y : State), x.pools[i]? = some y → size ≤ y.pool.size → y.pool.numFree = 0
  /-- A handle goes back to the pool it was obtained from. -/
  release : ∀ (i : Nat) (y : State) t b, x.pools[i]? = some y → (t, b) ∈ y.held → ∃ y',
    perform hg y (.release t b) = some (y', .code 0) ∧ b ∈ y'.pool.free ∧ ¬y'.Held b ∧
      x.release hg t b = some (x.put i y', .code 0)

/-- The sizes, as the calls compute them, increase. -/
def SetState.Sorted (x : SetState) : Prop :=
  ∀ i j, i < j → j < x.npools → x.sizeAt i < x.sizeAt j

theorem SetState.Laid.lt_npools (hx : x.Laid hg flag) {i : Nat} {y : State}
    (hy : x.pools[i]? = some y) : i < x.npools :=
  hx.length_eq ▸ (List.getElem?_eq_some_iff.mp hy).1

/-- The first of the pools with a property is the smallest of them. -/
theorem SetState.Laid.smallest_of_first (hx : x.Laid hg flag) (hsorted : x.Sorted)
    {P : State → Prop} {i : Nat} {y : State} (hy : x.pools[i]? = some y) (hP : P y)
    (hfirst : ∀ (j : Nat) (z : State), x.pools[j]? = some z → j < i → ¬P z) :
    Smallest x P i y := by
  refine ⟨hy, hP, fun j z hz hPz => ?_⟩
  rw [hx.size_eq hy, hx.size_eq hz]
  obtain hlt | rfl | hgt := Nat.lt_trichotomy i j
  · exact Nat.le_of_lt (hsorted i j hlt (hx.lt_npools hz))
  · exact Nat.le_refl _
  · exact absurd hPz (hfirst j z hz hgt)

theorem SetState.Laid.getMax_eq (hx : x.Laid hg flag) (hpos : 0 < x.npools)
    (hlt : x.npools < 2 ^ 64) : x.getMax = some (x.sizeAt (x.npools - 1)) := by
  obtain ⟨y, hy⟩ := hx.exists_get (i := x.npools - 1) (by omega)
  rw [getMax, SizeT.sub_of_le hpos hlt, hy, Option.map_some, hx.size_eq hy]

theorem SetState.Sorted.le_last (hsorted : x.Sorted) {i : Nat} (hi : i < x.npools) :
    x.sizeAt i ≤ x.sizeAt (x.npools - 1) := by
  obtain rfl | hlt := Nat.eq_or_lt_of_le (Nat.le_sub_one_of_lt hi)
  · exact Nat.le_refl _
  · exact Nat.le_of_lt (hsorted i _ hlt (by omega))

/-- The search for a pool by its size ends at the first one, or the requested
size exceeds the last one. -/
theorem SetState.find_size (hpos : 0 < x.npools) (size : Nat) :
    (∃ k, (List.range' 0 x.npools).find? (size ≤ x.sizeAt ·) = some k ∧ k < x.npools ∧
      size ≤ x.sizeAt k ∧ ∀ j < k, ¬size ≤ x.sizeAt j) ∨
    ((List.range' 0 x.npools).find? (size ≤ x.sizeAt ·) = none ∧
      x.sizeAt (x.npools - 1) < size) := by
  cases hfind : (List.range' 0 x.npools).find? (size ≤ x.sizeAt ·) with
  | none =>
      refine .inr ⟨rfl, ?_⟩
      have := List.find?_range'_eq_none.mp hfind (x.npools - 1) (Nat.zero_le _) (by omega)
      simpa using this
  | some k =>
      obtain ⟨hk, hmem, hfirst⟩ := List.find?_range'_eq_some.mp hfind
      refine .inl ⟨k, rfl, ?_, by simpa using hk, fun j hj => ?_⟩
      · simpa using hmem
      · simpa using hfirst j (Nat.zero_le j) hj

theorem SetState.Laid.get_class (hx : x.Laid hg flag) (hsorted : x.Sorted) (hpos : 0 < x.npools)
    (t : Thread) {size : Nat} (hsize : size ≤ x.sizeAt (x.npools - 1)) :
    ∃ i y y' r, Smallest x (size ≤ ·.pool.size) i y ∧ y.get t = some (y', r) ∧
      r ≠ .code (-1) ∧ x.get t size = some (x.put i y', r) := by
  obtain ⟨k, hfind, hk, hle, hfirst⟩ | ⟨-, hgt⟩ := find_size hpos size
  · obtain ⟨y, hy⟩ := hx.exists_get hk
    obtain ⟨buf, handles, hreg, hs⟩ := hx.serves k y hy
    obtain ⟨y', r, hget, -, hr⟩ := hs.get hreg t
    have hcode : r ≠ .code (-1) := by
      obtain ⟨rfl, -⟩ | ⟨b, rfl, -⟩ := hr
      · nofun
      · nofun
    refine ⟨k, y, y', r, ?_, hget, hcode, ?_⟩
    · refine hx.smallest_of_first hsorted hy (hx.size_eq hy ▸ hle) fun j z hz hj => ?_
      rw [hx.size_eq hz]
      exact hfirst j hj
    · have hfrom := x.getFrom_eq t size x.npools 0
      rw [hfind] at hfrom
      exact hfrom.trans (enter_of hy hget)
  · exact absurd hsize (Nat.not_le_of_lt hgt)

theorem SetState.get_too_large (hpos : 0 < x.npools) (hsorted : x.Sorted) (t : Thread)
    {size : Nat} (hsize : x.sizeAt (x.npools - 1) < size) :
    x.get t size = some (x, .code (-1)) := by
  obtain ⟨k, -, hk, hle, -⟩ | ⟨hfind, -⟩ := find_size hpos size
  · exact absurd (Nat.le_trans hle (hsorted.le_last hk)) (Nat.not_le_of_lt hsize)
  · have hfrom := x.getFrom_eq t size x.npools 0
    rw [hfind] at hfrom
    exact hfrom

theorem SetState.Laid.tryget_eq (hx : x.Laid hg flag) (t : Thread) (size : Nat) (anyFlag : Bool) :
    x.tryget hg t size anyFlag =
      match (List.range' 0 x.npools).find? (x.Stops size anyFlag ·) with
      | none => some (x, .bulk null)
      | some k => x.enter k (perform hg · (.tryget t)) :=
  hx.trygetFrom_eq t size anyFlag x.npools 0 (by omega)

theorem SetState.Laid.tryget_class (hx : x.Laid hg flag) (hsorted : x.Sorted)
    (hpos : 0 < x.npools) (t : Thread) {size : Nat} (hsize : size ≤ x.sizeAt (x.npools - 1)) :
    ∃ i y y' r, Smallest x (size ≤ ·.pool.size) i y ∧ perform hg y (.tryget t) = some (y', r) ∧
      x.tryget hg t size false = some (x.put i y', r) := by
  have hstops : (fun i => decide (x.Stops size false i)) = fun i => decide (size ≤ x.sizeAt i) := by
    funext i
    simp [Stops]
  obtain ⟨k, hfind, hk, hle, hfirst⟩ | ⟨-, hgt⟩ := find_size hpos size
  · obtain ⟨y, hy⟩ := hx.exists_get hk
    obtain ⟨buf, handles, hreg, hs⟩ := hx.serves k y hy
    obtain ⟨y', b, htryget, -⟩ := hs.tryget hreg t
    refine ⟨k, y, y', .bulk b, ?_, htryget, ?_⟩
    · refine hx.smallest_of_first hsorted hy (hx.size_eq hy ▸ hle) fun j z hz hj => ?_
      rw [hx.size_eq hz]
      exact hfirst j hj
    · rw [hx.tryget_eq, hstops, hfind]
      exact enter_of hy htryget
  · exact absurd hsize (Nat.not_le_of_lt hgt)

/-- With the flag, a pool that is entered has a handle to give. -/
theorem SetState.Laid.enter_tryget (hx : x.Laid hg flag) {i : Nat} {y : State}
    (hy : x.pools[i]? = some y) (hfree : y.pool.numFree ≠ 0) (t : Thread) :
    ∃ y' b, b ≠ null ∧ perform hg y (.tryget t) = some (y', .bulk b) ∧
      x.enter i (perform hg · (.tryget t)) = some (x.put i y', .bulk b) := by
  obtain ⟨buf, handles, hreg, hs⟩ := hx.serves i y hy
  obtain ⟨y', b, htryget, -, hnull, -⟩ := hs.tryget hreg t
  exact ⟨y', b, mt hnull.mp hfree, htryget, enter_of hy htryget⟩

theorem SetState.Laid.tryget_any (hx : x.Laid hg flag) (hsorted : x.Sorted) (t : Thread)
    {size i : Nat} {y : State}
    (hi : Smallest x (fun y => size ≤ y.pool.size ∧ y.pool.numFree ≠ 0) i y) :
    ∃ y' b, b ≠ null ∧ perform hg y (.tryget t) = some (y', .bulk b) ∧
      x.tryget hg t size true = some (x.put i y', .bulk b) := by
  obtain ⟨y', b, hb, htryget, henter⟩ := hx.enter_tryget hi.get_eq hi.holds.2 t
  refine ⟨y', b, hb, htryget, ?_⟩
  have hfind : (List.range' 0 x.npools).find? (x.Stops size true ·) = some i := by
    refine List.find?_range'_eq_some.mpr ⟨?_, ?_, fun j _ hj => ?_⟩
    · have hstops : x.Stops size true i :=
        ⟨hx.size_eq hi.get_eq ▸ hi.holds.1, .inr ⟨y, hi.get_eq, hi.holds.2⟩⟩
      simpa using hstops
    · simpa using hx.lt_npools hi.get_eq
    · have hstops : ¬x.Stops size true j := by
        rintro ⟨hsize, hany | ⟨z, hz, hfree⟩⟩
        · cases hany
        · have hz : x.pools[j]? = some z := hz
          have hle := hi.le j z hz ⟨hx.size_eq hz ▸ hsize, hfree⟩
          rw [hx.size_eq hi.get_eq, hx.size_eq hz] at hle
          exact absurd (hsorted j i hj (hx.lt_npools hi.get_eq)) (Nat.not_lt_of_le hle)
      simpa using hstops
  rw [hx.tryget_eq, hfind]
  exact henter

theorem SetState.Laid.tryget_none (hx : x.Laid hg flag) (t : Thread) (size : Nat) :
    x.tryget hg t size true = some (x, .bulk null) ↔
      ∀ (i : Nat) (y : State), x.pools[i]? = some y → size ≤ y.pool.size →
        y.pool.numFree = 0 := by
  rw [hx.tryget_eq]
  cases hfind : (List.range' 0 x.npools).find? (x.Stops size true ·) with
  | none =>
      refine iff_of_true rfl fun i y hy hsize => ?_
      by_contra hfree
      have hstops : x.Stops size true i := ⟨hx.size_eq hy ▸ hsize, .inr ⟨y, hy, hfree⟩⟩
      have := List.find?_range'_eq_none.mp hfind i (Nat.zero_le i)
        (by simpa using hx.lt_npools hy)
      exact absurd hstops (by simpa using this)
  | some k =>
      have hstops : x.Stops size true k := by simpa using (List.find?_range'_eq_some.mp hfind).1
      obtain ⟨hsize, hany | ⟨y, hy, hfree⟩⟩ := hstops
      · cases hany
      · have hy : x.pools[k]? = some y := hy
        obtain ⟨y', b, hb, -, henter⟩ := hx.enter_tryget hy hfree t
        refine iff_of_false ?_ fun hall => hfree (hall k y hy (hx.size_eq hy ▸ hsize))
        dsimp only
        rw [henter]
        intro heq
        exact hb (Reply.bulk.inj (Prod.ext_iff.mp (Option.some.inj heq)).2)

theorem SetState.Laid.release_own (hx : x.Laid hg flag) (hsorted : x.Sorted) {i : Nat} {y : State}
    {b : Handle} (hy : x.pools[i]? = some y) (hb : (t, b) ∈ y.held) :
    ∃ y', perform hg y (.release t b) = some (y', .code 0) ∧ b ∈ y'.pool.free ∧ ¬y'.Held b ∧
      x.release hg t b = some (x.put i y', .code 0) := by
  obtain ⟨buf, handles, hreg, hs⟩ := hx.serves i y hy
  obtain ⟨y', hrelease, hfree, hheld⟩ := hs.answered hreg (a := .release t b) hb
  have hown : b ∈ handles :=
    (hs.exclusive hreg).own_of_held b (List.mem_map.mpr ⟨(t, b), hb, rfl⟩)
  have hnull : b ≠ null := fun h => hreg.ne_null (h ▸ hown)
  have hfind : (List.range' 0 x.npools).find? (hg.getSize b = x.sizeAt ·) = some i := by
    refine List.find?_range'_eq_some.mpr ⟨?_, ?_, fun j _ hj => ?_⟩
    · simpa using hreg.getSize b hown
    · simpa using hx.lt_npools hy
    · have hne := hsorted j i hj (hx.lt_npools hy)
      have hne : hg.getSize b ≠ x.sizeAt j := by
        rw [hreg.getSize b hown]
        exact Nat.ne_of_gt hne
      simpa using hne
  refine ⟨y', hrelease, hfree, hheld, ?_⟩
  have hfrom := x.releaseFrom_eq hg t b x.npools 0
  rw [hfind] at hfrom
  rw [SetState.release, if_neg hnull]
  exact hfrom.trans (enter_of hy hrelease)

/-- Where the sizes increase, the calls do what they are to do. -/
theorem SetState.Laid.sizeClasses (hx : x.Laid hg flag) (hsorted : x.Sorted)
    (hpos : 0 < x.npools) (hlt : x.npools < 2 ^ 64) : SizeClasses hg x := by
  have hmax := hx.getMax_eq hpos hlt
  have hlast : ∀ m, x.getMax = some m → m = x.sizeAt (x.npools - 1) := fun m hm =>
    Option.some.inj (hm.symm.trans hmax)
  constructor
  · intro i j y z hy hz hij
    rw [hx.size_eq hy, hx.size_eq hz]
    exact hsorted i j hij (hx.lt_npools hz)
  · obtain ⟨y, hy⟩ := hx.exists_get (i := x.npools - 1) (by omega)
    refine ⟨_, hmax, ⟨_, y, hy, hx.size_eq hy⟩, fun i z hz => ?_⟩
    rw [hx.size_eq hz]
    exact hsorted.le_last (hx.lt_npools hz)
  · intro t size m hm hsize
    obtain ⟨i, y, y', r, hsmall, hget, -, hset⟩ :=
      hx.get_class hsorted hpos t (hlast m hm ▸ hsize)
    exact ⟨i, y, y', r, hsmall, hget, hset⟩
  · intro t size m hm
    rw [hlast m hm]
    refine ⟨fun hfails => ?_, get_too_large hpos hsorted t⟩
    by_contra hsize
    obtain ⟨i, y, y', r, -, -, hcode, hset⟩ :=
      hx.get_class hsorted hpos t (Nat.le_of_not_lt hsize)
    rw [hset] at hfails
    exact hcode (Prod.ext_iff.mp (Option.some.inj hfails)).2
  · intro t size m hm hsize
    exact hx.tryget_class hsorted hpos t (hlast m hm ▸ hsize)
  · intro t size i y hi
    exact hx.tryget_any hsorted t hi
  · exact hx.tryget_none
  · intro i y t b hy hb
    exact hx.release_own hsorted hy hb

/-! ## Every run -/

variable {env : SetEnv} {mid npools nbufs firstSize sizeMultiple : Nat} {s : Poolset}

/-- A section of a pool leaves the pools of the set with their sizes. -/
theorem SetState.Laid.step (hx : x.Laid hg flag) {a : Nat × Step} (ha : ByHolderIn x a)
    {x' : SetState} (hstep : setStep hg x a = some x') :
    x'.Laid hg flag ∧ x'.npools = x.npools ∧ x'.firstSize = x.firstSize ∧
      x'.sizeMultiple = x.sizeMultiple := by
  unfold setStep at hstep
  cases hy : x.pools[a.1]? with
  | none =>
      rw [hy] at hstep
      cases hstep
  | some y =>
      rw [hy] at hstep
      obtain ⟨y', hy', rfl⟩ := Option.map_eq_some_iff.mp hstep
      refine ⟨⟨?_, fun i z hz => ?_⟩, rfl, rfl, rfl⟩
      · rw [put, List.length_set]
        exact hx.length_eq
      · rw [put, List.getElem?_set] at hz
        split at hz
        · next heq =>
            subst heq
            split at hz
            · obtain rfl := Option.some.inj hz
              obtain ⟨buf, handles, hreg, hs⟩ := hx.serves _ y hy
              exact ⟨buf, handles, hreg, hs.step hreg (ha y hy).proper hy'⟩
            · cases hz
        · exact hx.serves i z hz

/-- A poolset that was created has a pool for each size, and nobody holds a handle. -/
theorem laid_start (hdoc : ∀ i, Documented hg (env.create i)) (hnbufs : nbufs < 2 ^ 64)
    (hcreate : (margoBulkPoolsetCreate env mid npools nbufs firstSize sizeMultiple flag).poolset =
      some s) :
    s.start.Laid hg flag ∧ s.start.npools = npools ∧ s.start.firstSize = firstSize ∧
      s.start.sizeMultiple = sizeMultiple := by
  unfold margoBulkPoolsetCreate at hcreate
  by_cases hset : env.callocSet = 0
  · simp [hset] at hcreate
  by_cases hpools : env.callocPools = 0
  · simp [hset, hpools] at hcreate
  simp only [if_neg hset, if_neg hpools] at hcreate
  obtain ⟨hret, ps, hloop⟩ : ∃ hret ps, createPools env mid nbufs sizeMultiple flag npools 0
      (Bulk.sizeAt firstSize sizeMultiple 0) = (hret, ps) := ⟨_, _, rfl⟩
  have hsize : Bulk.sizeAt firstSize sizeMultiple 0 = firstSize := rfl
  obtain ⟨hcreated, hall, -⟩ := createPools_spec npools 0 hloop
  simp only [Nat.zero_add] at hcreated
  rw [hsize] at hloop
  simp only [hloop] at hcreate
  by_cases hcode : hret = .success
  · simp only [hcode, ne_eq, not_true_eq_false, ↓reduceIte] at hcreate
    obtain rfl := Option.some.inj hcreate
    refine ⟨⟨?_, fun i y hy => ?_⟩, rfl, rfl, rfl⟩
    · rw [Poolset.start, List.length_map]
      exact hall hcode
    · rw [Poolset.start, List.getElem?_map] at hy
      obtain ⟨p, hp, rfl⟩ := Option.map_eq_some_iff.mp hy
      obtain ⟨hsuccess, hpool⟩ := hcreated i (List.getElem?_eq_some_iff.mp hp).1
      obtain ⟨buf, bs, hmade, -, hreg⟩ := create_registered (hdoc i) hnbufs hsuccess
      have hmade : (env.result mid nbufs firstSize sizeMultiple flag i).pool =
          some (Pool.created buf (Bulk.sizeAt firstSize sizeMultiple i) flag bs) := hmade
      rw [hpool, hp] at hmade
      obtain rfl := Option.some.inj hmade
      exact ⟨buf, bs, hreg, shares_initial hreg.count_lt⟩
  · simp [hcode] at hcreate

/-- The calls on a poolset that was created do what they are to do, in every
run, exactly if the products that its sizes are computed from increase modulo
`2 ^ 64`. -/
theorem size_classes_iff (hdoc : ∀ i, Documented hg (env.create i)) (hpos : 0 < npools)
    (hnpools : npools < 2 ^ 64) (hnbufs : nbufs < 2 ^ 64) (hfirst : firstSize < 2 ^ 64)
    (hcreate : (margoBulkPoolsetCreate env mid npools nbufs firstSize sizeMultiple flag).poolset =
      some s) :
    (∀ as x, Runs.Run (setStep hg) (fun x a _ => ByHolderIn x a) s.start as x →
      SizeClasses hg x) ↔ Growing firstSize sizeMultiple npools := by
  obtain ⟨hstart, hn, hf, hm⟩ := laid_start hdoc hnbufs hcreate
  constructor
  · intro hall i hi
    have hclasses := hall [] _ (Runs.Run.nil _)
    obtain ⟨y, hy⟩ := hstart.exists_get (i := i) (by omega)
    obtain ⟨z, hz⟩ := hstart.exists_get (i := i + 1) (by omega)
    have hlt := hclasses.increasing i (i + 1) y z hy hz (Nat.lt_succ_self i)
    rwa [hstart.size_eq hy, hstart.size_eq hz, SetState.sizeAt, SetState.sizeAt, hf, hm,
      sizeAt_eq hfirst, sizeAt_eq hfirst] at hlt
  · intro hgrowing as x hrun
    obtain ⟨hx, hn', hf', hm'⟩ : x.Laid hg flag ∧ x.npools = npools ∧ x.firstSize = firstSize ∧
        x.sizeMultiple = sizeMultiple := by
      refine hrun.invariant (P := fun x : SetState => x.Laid hg flag ∧ x.npools = npools ∧
        x.firstSize = firstSize ∧ x.sizeMultiple = sizeMultiple) ?_ ⟨hstart, hn, hf, hm⟩
      rintro x a x' ⟨hx, hn, hf, hm⟩ ha hstep
      obtain ⟨hx', hn', hf', hm'⟩ := hx.step ha hstep
      exact ⟨hx', hn'.trans hn, hf'.trans hf, hm'.trans hm⟩
    have hsorted : x.Sorted := by
      intro i j hij hj
      rw [SetState.sizeAt, SetState.sizeAt, hf', hm']
      exact hgrowing.sizeAt_lt hfirst hij (hn' ▸ hj)
    exact hx.sizeClasses hsorted (hn' ▸ hpos) (hn' ▸ hnpools)

/-- Mercury with handles that tell their entry, their address and their size. -/
def telling : Mercury where
  getSize b := (b - 1).unpair.2.unpair.2
  access b offset _ _ := some ((b - 1).unpair.2.unpair.1 + offset, (b - 1).unpair.2.unpair.2)

/-- Everything succeeds. -/
def Env.telling : Env where
  malloc := 64
  stale _ := 0
  staleBulks _ := null
  memalign _ _ := some 4096
  calloc _ := 128
  bulkCreate i ptr size _ := (.success, Nat.pair i (Nat.pair ptr size) + 1)
  bulkCreate_ne_null _ _ _ _ _ := Nat.succ_ne_zero _
  mutexCreate := some 1
  condCreate := some 2

theorem documented_telling : Documented telling Env.telling where
  distinct i j ptr ptr' size flag b hi hj := by
    have heq : Nat.pair i (Nat.pair ptr size) = Nat.pair j (Nat.pair ptr' size) :=
      Nat.succ.inj ((Prod.ext_iff.mp hi).2.trans (Prod.ext_iff.mp hj).2.symm)
    exact (Nat.pair_eq_pair.mp heq).1
  getSize i ptr size flag b h := by
    obtain rfl := (Prod.ext_iff.mp h).2
    simp [telling, Env.telling]
  access i ptr size flag b h := by
    obtain rfl := (Prod.ext_iff.mp h).2
    simp [telling, Env.telling]

/-- Three pools with buffers of 8, 16 and 32 bytes. -/
theorem size_classes_three :
    ∃ s, (margoBulkPoolsetCreate ⟨32, 48, fun _ => .telling⟩ 0 3 2 8 2 0).poolset = some s ∧
      ∀ as x, Runs.Run (setStep telling) (fun x a _ => ByHolderIn x a) s.start as x →
        SizeClasses telling x := by
  obtain ⟨s, hs⟩ : ∃ s,
      (margoBulkPoolsetCreate ⟨32, 48, fun _ => .telling⟩ 0 3 2 8 2 0).poolset = some s :=
    Option.isSome_iff_exists.mp (by decide)
  refine ⟨s, hs, (size_classes_iff (fun _ => documented_telling) (by decide) (by decide)
    (by decide) (by decide) hs).mpr ?_⟩
  exact growing_of_lt (by decide) (by decide) (by decide)

/-- The second product wraps: the buffers of the second pool are smaller. -/
theorem not_size_classes :
    ¬∀ (hg : Mercury) (env : SetEnv) (mid npools nbufs firstSize sizeMultiple flag : Nat)
      (s : Poolset), (∀ i, Documented hg (env.create i)) → 0 < npools ∧ npools < 2 ^ 64 →
      0 < nbufs ∧ nbufs < 2 ^ 64 → 0 < firstSize ∧ firstSize < 2 ^ 64 →
      1 < sizeMultiple ∧ sizeMultiple < 2 ^ 64 →
      (margoBulkPoolsetCreate env mid npools nbufs firstSize sizeMultiple flag).poolset = some s →
      ∀ as x, Runs.Run (setStep hg) (fun x a _ => ByHolderIn x a) s.start as x →
        SizeClasses hg x := by
  intro h
  obtain ⟨s, hs⟩ : ∃ s, (margoBulkPoolsetCreate ⟨32, 48, fun _ => .telling⟩ 0 2 1 (2 ^ 32 + 1)
      (2 ^ 32) 0).poolset = some s := Option.isSome_iff_exists.mp (by decide)
  have hclasses := h telling _ _ _ _ _ _ _ s (fun _ => documented_telling) (by decide) (by decide)
    (by decide) (by decide) hs [] _ (Runs.Run.nil _)
  obtain ⟨hstart, hn, hf, hm⟩ := laid_start (fun _ => documented_telling) (by decide) hs
  obtain ⟨y, hy⟩ := hstart.exists_get (i := 0) (by rw [hn]; decide)
  obtain ⟨z, hz⟩ := hstart.exists_get (i := 1) (by rw [hn]; decide)
  have hlt := hclasses.increasing 0 1 y z hy hz Nat.zero_lt_one
  rw [hstart.size_eq hy, hstart.size_eq hz, SetState.sizeAt, SetState.sizeAt, hf, hm] at hlt
  exact absurd hlt (by decide)

end Margo.Bulk
