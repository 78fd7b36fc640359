import Margo.Lib.Cycle
import Margo.Lib.MachineInt
import Mathlib.Data.List.Forall2

/-!
# Round-robin selection of a network card

`select_nic_roundrobin` keeps the index of the card it selected last in a token file that
all processes of a user share, and selects the card after it. The file may hold anything:
the index is an `int` read from up to four bytes, and the value after the largest `int` is
negative.

## Implementation notes

The file lock makes a call one step on the file, so the calls of all processes are one
list of numbers of cards. A card is given by its index in the bucket. What the file
system answers is an argument; a call that reports an error selects nothing.
-/

namespace Margo.Plumber

open Lib Bytes Int32

/-- What the calls of the file system report. -/
structure FileReplies where
  /-- `mkdir` succeeds, or the directory exists. -/
  mkdir : Bool
  /-- `open` succeeds. -/
  opened : Bool
  /-- `pread` succeeds. -/
  pread : Bool
  /-- `pwrite` succeeds. -/
  pwrite : Bool
  deriving DecidableEq, Repr

/-- No call fails. -/
def FileReplies.succeed : FileReplies := ⟨true, true, true, true⟩

/-- `pread` into an `int` that holds -1: the bytes that are there replace its lowest ones. -/
def readIndex (content : List Byte) : Int :=
  let read := content.take 4
  ofBytes (read ++ (toBytes (-1)).drop read.length)

/-- `pwrite` of an `int` at the start of the file. -/
def writeIndex (nicIdx : Int) (content : List Byte) : List Byte :=
  toBytes nicIdx ++ content.drop 4

/-- The index after the one in the file. -/
def nextIndex (numNics nicIdx : Int) : Int :=
  let nicIdx := if nicIdx < 0 then -1 else nicIdx
  (wrap (nicIdx + 1)).tmod numNics

/-- `select_nic_roundrobin` on the token file, which may not exist: the file afterwards
and the index that is selected. -/
def selectNicRoundrobin (o : FileReplies) (numNics : Int) (file : Option (List Byte)) :
    Option (List Byte) × Option Int :=
  if numNics ≤ 0 then (file, none)
  else if !o.mkdir || !o.opened then (file, none)
  else
    let content := file.getD []
    if !o.pread then (some content, none)
    else
      let nicIdx := nextIndex numNics (readIndex content)
      if !o.pwrite then (some content, none)
      else (some (writeIndex nicIdx content), some nicIdx)

/-- The indices that are selected by calls with these numbers of cards. -/
def selections (file : Option (List Byte)) : List Int → List Int
  | [] => []
  | numNics :: rest =>
      let (file, nicIdx) := selectNicRoundrobin .succeed numNics file
      nicIdx.toList ++ selections file rest

/-- Every call selects a card, calls with the same number of cards go around them, and
any lap selects each card once. -/
structure GoesAround (numNics selected : List Int) : Prop where
  inRange : List.Forall₂ (fun n i => 0 ≤ i ∧ i < n) numNics selected
  cyclic : ∀ k n i, numNics[k]? = some n → numNics[k + 1]? = some n → selected[k]? = some i →
    selected[k + 1]? = some ((i + 1) % n)
  eachOnce : ∀ k (n : Nat), (∀ j < n, numNics[k + j]? = some (n : Int)) →
    ((selected.drop k).take n).Perm ((List.range n).map Int.ofNat)

/-! ## One call -/

/-- Only the bytes of the largest `int` are read as it. -/
theorem readIndex_eq_max_iff (content : List Byte) :
    readIndex content = 2 ^ 31 - 1 ↔ content.take 4 = [255, 255, 255, 127] := by
  have hminus : toBytes (-1) = [255, 255, 255, 255] := rfl
  rw [readIndex, ofBytes_eq_max_iff, hminus]
  · match content with
    | [] => simp
    | [a] => simp
    | [a, b] => simp
    | [a, b, c] => simp
    | a :: b :: c :: d :: rest => simp
  · rw [List.length_append, List.length_drop, length_toBytes, List.length_take]
    omega

theorem readIndex_mem (content : List Byte) :
    -2 ^ 31 ≤ readIndex content ∧ readIndex content < 2 ^ 31 := wrap_mem _

theorem readIndex_writeIndex {nicIdx : Int} (hlower : -2 ^ 31 ≤ nicIdx) (hupper : nicIdx < 2 ^ 31)
    (content : List Byte) : readIndex (writeIndex nicIdx content) = nicIdx := by
  have htake : (writeIndex nicIdx content).take 4 = toBytes nicIdx := by
    rw [writeIndex, ← length_toBytes nicIdx, List.take_left]
  rw [readIndex, htake, length_toBytes, ← length_toBytes (-1), List.drop_length,
    List.append_nil, ofBytes_toBytes hlower hupper]

section

variable {n i : Int}

theorem nextIndex_of_neg (hi : i < 0) : nextIndex n i = 0 := by
  have hzero : wrap (-1 + 1) = 0 := rfl
  rw [nextIndex, if_pos hi, hzero, Int.zero_tmod]

theorem nextIndex_of_lt (hi : 0 ≤ i) (hlt : i < 2 ^ 31 - 1) : nextIndex n i = (i + 1) % n := by
  rw [nextIndex, if_neg (Int.not_lt.mpr hi), wrap_of_mem (by omega) (by omega),
    Int.tmod_eq_emod_of_nonneg (by omega)]

theorem nextIndex_max : nextIndex n (2 ^ 31 - 1) = -(2 ^ 31 % n) := by
  have hwrap : wrap (2 ^ 31 - 1 + 1) = -2 ^ 31 := rfl
  rw [nextIndex, if_neg (by decide), hwrap, Int.neg_tmod,
    Int.tmod_eq_emod_of_nonneg (by decide)]

/-- An index is selected that the bucket has, unless the one in the file is the largest
`int` and the number of cards is no power of two. -/
theorem nextIndex_mem_iff (hn : 0 < n) (hlt : i < 2 ^ 31) :
    (0 ≤ nextIndex n i ∧ nextIndex n i < n) ↔ (i = 2 ^ 31 - 1 → n ∣ 2 ^ 31) := by
  by_cases hneg : i < 0
  · rw [nextIndex_of_neg hneg]
    constructor
    · intro _ hmax
      omega
    · exact fun _ => ⟨Int.le_refl 0, hn⟩
  · by_cases hmax : i = 2 ^ 31 - 1
    · have hlower := Int.emod_nonneg (2 ^ 31) (Int.ne_of_gt hn)
      rw [hmax, nextIndex_max]
      constructor
      · rintro ⟨hle, -⟩ _
        exact Int.dvd_of_emod_eq_zero (by omega)
      · intro hdvd
        have hzero : (2 : Int) ^ 31 % n = 0 := Int.emod_eq_zero_of_dvd (hdvd rfl)
        omega
    · rw [nextIndex_of_lt (by omega) (by omega)]
      constructor
      · exact fun _ h => absurd h hmax
      · exact fun _ => ⟨Int.emod_nonneg _ (Int.ne_of_gt hn), Int.emod_lt_of_pos _ hn⟩

theorem nextIndex_bounds (hn : 1 ≤ n) (hlt : n < 2 ^ 31) (hi : i < 2 ^ 31) :
    -2 ^ 31 ≤ nextIndex n i ∧ nextIndex n i < 2 ^ 31 := by
  by_cases hmax : i = 2 ^ 31 - 1
  · have hlower := Int.emod_nonneg (2 ^ 31) (b := n) (by omega)
    have hupper := Int.emod_lt_of_pos (2 ^ 31) (b := n) (by omega)
    rw [hmax, nextIndex_max]
    omega
  · have hmem := (nextIndex_mem_iff (n := n) (by omega) hi).mpr fun h => absurd h hmax
    omega

end

/-! ## Sequences of calls -/

/-- The indices that follow one in the file. -/
def follow (nicIdx : Int) : List Int → List Int
  | [] => []
  | n :: rest => nextIndex n nicIdx :: follow (nextIndex n nicIdx) rest

/-- `num_nics` of every call is an `int` and not less than 1. -/
def Counts (numNics : List Int) : Prop := ∀ n ∈ numNics, 1 ≤ n ∧ n < 2 ^ 31

section

variable {n i : Int} {ns numNics : List Int} {k : Nat}

theorem selectNicRoundrobin_eq (hn : 1 ≤ n) (file : Option (List Byte)) :
    selectNicRoundrobin .succeed n file =
      (some (writeIndex (nextIndex n (readIndex (file.getD []))) (file.getD [])),
        some (nextIndex n (readIndex (file.getD [])))) := by
  rw [selectNicRoundrobin, if_neg (by omega)]
  rfl

theorem selections_eq_follow (hcounts : Counts numNics) (file : Option (List Byte)) :
    selections file numNics = follow (readIndex (file.getD [])) numNics := by
  induction numNics generalizing file with
  | nil => rfl
  | cons n ns ih =>
      obtain ⟨hn, hlt⟩ := hcounts n List.mem_cons_self
      obtain ⟨hlower, hupper⟩ := nextIndex_bounds hn hlt (readIndex_mem (file.getD [])).2
      rw [selections, selectNicRoundrobin_eq hn, follow]
      dsimp only
      rw [ih (fun m hm => hcounts m (List.mem_cons_of_mem n hm)), Option.getD_some,
        readIndex_writeIndex hlower hupper, Option.toList_some, List.singleton_append]

theorem length_follow (i : Int) (ns : List Int) : (follow i ns).length = ns.length := by
  induction ns generalizing i with
  | nil => rfl
  | cons n ns ih => rw [follow, List.length_cons, List.length_cons, ih]

/-- After an index that the bucket has, every call selects one. -/
theorem follow_inRange (hcounts : Counts ns) (hi : i < 2 ^ 31 - 1) :
    List.Forall₂ (fun n j => 0 ≤ j ∧ j < n) ns (follow i ns) := by
  induction ns generalizing i with
  | nil => exact .nil
  | cons n ns ih =>
      obtain ⟨hn, hlt⟩ := hcounts n List.mem_cons_self
      have hmem := (nextIndex_mem_iff (n := n) (by omega) (by omega)).mpr fun h =>
        absurd h (Int.ne_of_lt hi)
      rw [follow, List.forall₂_cons]
      refine ⟨hmem, ih (fun m hm => hcounts m (List.mem_cons_of_mem n hm)) ?_⟩
      omega

/-- In range, an index is followed by the next one around the cards. -/
theorem follow_cyclic (hcounts : Counts ns)
    (hrange : List.Forall₂ (fun n j => 0 ≤ j ∧ j < n) ns (follow i ns)) (k : Nat) (j : Int)
    (hk : ns[k]? = some n) (hnext : ns[k + 1]? = some n) (hj : (follow i ns)[k]? = some j) :
    (follow i ns)[k + 1]? = some ((j + 1) % n) := by
  induction ns generalizing i k with
  | nil => cases hk
  | cons m ns ih =>
      rw [follow] at hrange hj ⊢
      obtain ⟨hm, htail⟩ := List.forall₂_cons.mp hrange
      cases k with
      | zero =>
          obtain rfl : m = n := Option.some.inj hk
          obtain rfl : nextIndex m i = j := Option.some.inj hj
          obtain ⟨-, hlt⟩ := hcounts m List.mem_cons_self
          match ns, hnext with
          | _ :: rest, hnext =>
              obtain rfl := Option.some.inj hnext
              rw [follow, List.getElem?_cons_succ, List.getElem?_cons_zero,
                nextIndex_of_lt hm.1 (by omega)]
      | succ k =>
          exact ih (fun m hm => hcounts m (List.mem_cons_of_mem _ hm)) htail k hk hnext hj

theorem goesAround_follow (hcounts : Counts ns)
    (hrange : List.Forall₂ (fun n j => 0 ≤ j ∧ j < n) ns (follow i ns)) :
    GoesAround ns (follow i ns) where
  inRange := hrange
  cyclic k n j hk hnext hj := follow_cyclic hcounts hrange k j hk hnext hj
  eachOnce k n hlap := by
    cases n with
    | zero => rw [List.take_zero, List.range_zero, List.map_nil]
    | succ n =>
        have hk : ns[k]? = some ((n + 1 : Nat) : Int) := hlap 0 (Nat.succ_pos n)
        have hlt : k < (follow i ns).length := by
          rw [length_follow]
          exact (List.getElem?_eq_some_iff.mp hk).1
        have hfirst := List.forall₂_iff_get.mp hrange
        obtain ⟨hlower, hupper⟩ : 0 ≤ (follow i ns)[k] ∧ (follow i ns)[k] < (n + 1 : Nat) := by
          have hmem := hfirst.2 k (List.getElem?_eq_some_iff.mp hk).1 hlt
          rw [List.get_eq_getElem, List.get_eq_getElem,
            (List.getElem?_eq_some_iff.mp hk).2] at hmem
          exact hmem
        apply Cycle.take_perm (s := (follow i ns)[k].toNat)
        · omega
        · rw [List.getElem?_drop, Nat.add_zero, List.getElem?_eq_getElem hlt,
            Int.toNat_of_nonneg hlower]
        · intro j x hj hx
          rw [List.getElem?_drop] at hx ⊢
          exact follow_cyclic hcounts hrange (k + j) x (hlap j (by omega)) (hlap (j + 1) hj) hx

/-- Every call selects a card, and the calls go around them, exactly if the token file
does not start with the bytes of the largest `int`, or the first call has a number of
cards that divides `2 ^ 31`. -/
theorem round_robin_iff (file : Option (List Byte)) (hcounts : Counts numNics) :
    GoesAround numNics (selections file numNics) ↔
      ((file.getD []).take 4 = [255, 255, 255, 127] → ∀ n ∈ numNics.head?, n ∣ 2 ^ 31) := by
  rw [selections_eq_follow hcounts, ← readIndex_eq_max_iff]
  have hindex := (readIndex_mem (file.getD [])).2
  constructor
  · intro haround hmax n hhead
    cases numNics with
    | nil => cases hhead
    | cons m ns =>
        obtain rfl : m = n := Option.some.inj hhead
        obtain ⟨hm, -⟩ := hcounts m List.mem_cons_self
        have hrange := haround.inRange
        rw [follow] at hrange
        exact (nextIndex_mem_iff (by omega) hindex).mp (List.forall₂_cons.mp hrange).1 hmax
  · intro hdvd
    apply goesAround_follow hcounts
    cases numNics with
    | nil => exact .nil
    | cons m ns =>
        obtain ⟨hm, hlt⟩ := hcounts m List.mem_cons_self
        have hmem := (nextIndex_mem_iff (n := m) (by omega) hindex).mpr fun h =>
          hdvd h m rfl
        rw [follow, List.forall₂_cons]
        refine ⟨hmem, follow_inRange (fun n hn => hcounts n (List.mem_cons_of_mem m hn)) ?_⟩
        omega

end

/-- Two processes share three cards and no file: every card is selected, then the first
one again. -/
theorem round_robin_three : GoesAround [3, 3, 3, 3] [0, 1, 2, 0] := by
  have hcounts : Counts [3, 3, 3, 3] := by
    intro n hn
    simp only [List.mem_cons, List.not_mem_nil, or_false, or_self] at hn
    omega
  have hselections : selections none [3, 3, 3, 3] = [0, 1, 2, 0] := by decide
  rw [← hselections]
  apply (round_robin_iff none hcounts).mpr
  intro hmax
  exact absurd hmax (by decide)

/-- A file with the bytes of the largest `int` and three cards: the index after it is
negative, and so is its remainder. -/
theorem not_round_robin :
    ¬∀ (file : Option (List Byte)) (numNics : List Int), Counts numNics →
      GoesAround numNics (selections file numNics) := by
  intro hall
  have hcounts : Counts [3] := by
    intro n hn
    rw [List.mem_singleton.mp hn]
    decide
  have hselections : selections (some [255, 255, 255, 127]) [3] = [-2] := by decide
  have hrange := (hall (some [255, 255, 255, 127]) [3] hcounts).inRange
  rw [hselections] at hrange
  exact absurd (List.forall₂_cons.mp hrange).1.1 (by decide)

end Margo.Plumber
