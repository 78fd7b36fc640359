import Margo.Lib.Tiling
import Margo.Transfer.Model

/-!
# The chunks of a parallel transfer

The first loop of `margo_bulk_parallel_transfer` issues chunks of one length:
the smaller of the chunk size and the size of the transfer, since the size that
remains is never reduced. So it moves what it should where this length divides
the size, and reaches past the end of both ranges where it does not.

## Implementation notes

The loop counter has 32 bits. From `2 ^ 32` chunks on it wraps before it
reaches their number, and the loop does not end.
-/

namespace Margo.Transfer

open Lib Request

variable {c : Call} {s s' : State}

/-! ## The first loop -/

/-- The length of every chunk that is issued. -/
def Call.length (c : Call) : Nat := if c.size < c.chunkSize then c.size else c.chunkSize

/-- The chunk with some number. -/
def Call.chunkAt (c : Call) (j : Nat) : Chunk where
  originOffset := (c.originOffset + j * c.length) % 2 ^ 64
  localOffset := (c.localOffset + j * c.length) % 2 ^ 64
  length := c.length
  request := j % 2 ^ 32

/-- The first loop stopped after some number of transfers: they are all the
chunks, or the next one could not be issued. -/
def Stopped (c : Call) (k : Nat) : Prop :=
  (k = c.count ∧ c.count < 2 ^ 32) ∨ (c.issue k ≠ .success ∧ (c.count < 2 ^ 32 → k < c.count))

/-- What the first loop has done, wherever the call is. -/
structure Looping (c : Call) (s : State) : Prop where
  success : ∀ j < s.issued.length, c.issue j = .success
  issued_eq : s.issued = (List.range s.issued.length).map c.chunkAt
  remaining_eq : s.remainingSize = c.size
  length_eq : (if c.size < s.chunkSize then c.size else s.chunkSize) = c.length
  origin_eq : s.originOffset = (c.originOffset + s.issued.length * c.length) % 2 ^ 64
  local_eq : s.localOffset = (c.localOffset + s.issued.length * c.length) % 2 ^ 64
  issuing : ∀ i, s.point = .issuing i →
    i = s.issued.length % 2 ^ 32 ∧ (c.count < 2 ^ 32 → s.issued.length ≤ c.count)
  waiting : ∀ i j hret, s.point = .waiting i j hret →
    i = s.issued.length % 2 ^ 32 ∧ Stopped c s.issued.length ∧
      ((hret = .success ∧ s.issued.length = c.count ∧ c.count < 2 ^ 32) ∨
        (hret ≠ .success ∧ hret = c.issue s.issued.length ∧
          s.issued.length % 2 ^ 32 < c.count))
  returned : ∀ hret, s.point = .returned hret → Stopped c s.issued.length

/-- The arguments are of type `size_t`, and the chunk size is not zero. -/
structure Call.Valid (c : Call) : Prop where
  chunkSize_pos : 0 < c.chunkSize
  size_lt : c.size < 2 ^ 64
  origin_lt : c.originOffset < 2 ^ 64
  local_lt : c.localOffset < 2 ^ 64

/-- The ranges do not overflow `size_t`. -/
structure Call.InRange (c : Call) : Prop extends c.Valid where
  origin_le : c.originOffset + c.size ≤ 2 ^ 64
  local_le : c.localOffset + c.size ≤ 2 ^ 64

theorem looping_start (hc : c.Valid) : Looping c (start c) where
  success := nofun
  issued_eq := rfl
  remaining_eq := rfl
  length_eq := rfl
  origin_eq := by
    have hlt := hc.origin_lt
    simp only [start, List.length_nil, Nat.zero_mul, Nat.add_zero]
    omega
  local_eq := by
    have hlt := hc.local_lt
    simp only [start, List.length_nil, Nat.zero_mul, Nat.add_zero]
    omega
  issuing i h := by
    simp [start, Nat.ne_of_gt hc.chunkSize_pos] at h
    simp [← h, start]
  waiting i j hret h := by simp [start, Nat.ne_of_gt hc.chunkSize_pos] at h
  returned hret h := by simp [start, Nat.ne_of_gt hc.chunkSize_pos] at h

theorem offset_succ (o k e : Nat) : SizeT.add ((o + k * e) % 2 ^ 64) e =
    (o + (k + 1) * e) % 2 ^ 64 := by
  rw [SizeT.add, Nat.mod_add_mod, Nat.succ_mul, Nat.add_assoc]

theorem Looping.step (h : Looping c s) {a : Label} (hstep : step c s a = some s') :
    Looping c s' := by
  have hnext : s.nextSize = c.length := by
    rw [State.nextSize, h.remaining_eq, h.length_eq]
  have hagain : (if c.size < c.length then c.size else c.length) = c.length := by
    unfold Call.length
    split <;> simp_all
  have hlt : ∀ {i}, s.point = .issuing i → i < c.count → c.count < 2 ^ 32 →
      s.issued.length < c.count := by
    intro i hpoint hi hcount
    obtain ⟨hcounter, hle⟩ := h.issuing i hpoint
    have := hle hcount
    omega
  cases step_cases hstep with
  | @issued i hpoint hi hissue =>
      have hcounter := (h.issuing i hpoint).1
      have hlength : (s.issued ++ [⟨s.originOffset, s.localOffset, c.length, i⟩] :
          List Chunk).length = s.issued.length + 1 := by simp
      rw [hnext]
      refine ⟨?_, ?_, h.remaining_eq, hagain, ?_, ?_, ?_, nofun, nofun⟩
      · intro j hj
        rw [hlength] at hj
        obtain rfl | hj := Nat.eq_or_lt_of_le (Nat.le_of_lt_succ hj)
        · exact hissue
        · exact h.success j hj
      · rw [hlength, List.range_succ, List.map_append, ← h.issued_eq, h.origin_eq, h.local_eq,
          hcounter]
        rfl
      · rw [hlength, ← offset_succ, ← h.origin_eq]
      · rw [hlength, ← offset_succ, ← h.local_eq]
      · intro i' hi'
        obtain rfl := Point.issuing.inj hi'
        rw [hlength, hcounter, incr32_mod]
        exact ⟨rfl, hlt hpoint hi⟩
  | @refused i hpoint hi hissue =>
      rw [hnext]
      refine { h with length_eq := hagain, issuing := nofun, waiting := ?_, returned := nofun }
      intro i' j hret hpoint'
      obtain ⟨rfl, -, rfl⟩ := Point.waiting.inj hpoint'
      have hcounter := (h.issuing i hpoint).1
      exact ⟨hcounter, .inr ⟨hissue, hlt hpoint hi⟩, .inr ⟨hissue, rfl, hcounter ▸ hi⟩⟩
  | @exit i hpoint hi =>
      obtain ⟨hcounter, hle⟩ := h.issuing i hpoint
      have hcount : c.count < 2 ^ 32 := by omega
      have hall : s.issued.length = c.count := by
        have := hle hcount
        omega
      refine { h with issuing := nofun, waiting := ?_, returned := nofun }
      intro i' j hret hpoint'
      obtain ⟨rfl, -, rfl⟩ := Point.waiting.inj hpoint'
      exact ⟨hcounter, .inl ⟨hall, hcount⟩, .inl ⟨rfl, hall, hcount⟩⟩
  | @waited i j hret hpoint _ _ _ =>
      refine { h with issuing := nofun, waiting := ?_, returned := nofun }
      intro i' j' hret' hpoint'
      obtain ⟨rfl, -, rfl⟩ := Point.waiting.inj hpoint'
      exact h.waiting i j hret hpoint
  | @failed i j hpoint _ _ _ =>
      have hstopped := (h.waiting i j .success hpoint).2.1
      exact { h with issuing := nofun, waiting := nofun, returned := fun _ _ => hstopped }
  | @ended i j hret hpoint _ =>
      have hstopped := (h.waiting i j hret hpoint).2.1
      exact { h with issuing := nofun, waiting := nofun, returned := fun _ _ => hstopped }
  | completed _ _ => exact { h with }

theorem Reaches.looping (hc : c.Valid) (hs : Reaches c s) : Looping c s := by
  obtain ⟨as, hrun⟩ := hs
  exact hrun.invariant (P := Looping c) (fun h _ hstep => h.step hstep) (looping_start hc)

/-! ## The number of chunks -/

theorem Call.count_eq (hc : c.Valid) : c.count =
    if c.size / c.chunkSize * c.chunkSize < c.size then c.size / c.chunkSize + 1
    else c.size / c.chunkSize := by
  have hsize := hc.size_lt
  have hle : c.size / c.chunkSize * c.chunkSize ≤ c.size := Nat.div_mul_le_self _ _
  unfold count
  dsimp only
  rw [SizeT.mul_of_lt (by omega)]
  split
  · next hlt =>
      have hdiv : c.size / c.chunkSize ≤ c.size / c.chunkSize * c.chunkSize :=
        Nat.le_mul_of_pos_right _ hc.chunkSize_pos
      exact SizeT.add_of_lt (by omega)
  · rfl

/-- The chunks are just as many as are needed. -/
theorem Call.size_le (hc : c.Valid) :
    c.size ≤ c.count * c.chunkSize ∧ c.count * c.chunkSize < c.size + c.chunkSize := by
  have hmod := Nat.div_add_mod' c.size c.chunkSize
  have hlt := Nat.mod_lt c.size hc.chunkSize_pos
  rw [Call.count_eq hc]
  split
  · rw [Nat.succ_mul]
    omega
  · have := hc.chunkSize_pos
    omega

/-- The chunks can be counted with 32 bits. -/
def Call.Countable (c : Call) : Prop := c.size ≤ (2 ^ 32 - 1) * c.chunkSize

theorem Call.count_lt_iff (hc : c.Valid) : c.count < 2 ^ 32 ↔ c.Countable := by
  obtain ⟨hle, hlt⟩ := Call.size_le hc
  unfold Countable
  constructor
  · intro hcount
    exact hle.trans (Nat.mul_le_mul_right _ (by omega))
  · intro hsize
    have hmul : c.count * c.chunkSize < 2 ^ 32 * c.chunkSize := by omega
    exact Nat.lt_of_mul_lt_mul_right hmul

/-- The chunks are of one length, or there is but one. -/
def Call.Even (c : Call) : Prop := c.chunkSize ∣ c.size ∨ c.size < c.chunkSize

theorem Call.count_mul_length (hc : c.Valid) : c.count * c.length = c.size ↔ c.Even := by
  obtain ⟨hle, hlt⟩ := Call.size_le hc
  unfold Even length
  split
  · next hsmall =>
      refine iff_of_true ?_ (.inr hsmall)
      have hdiv : c.size / c.chunkSize = 0 := Nat.div_eq_of_lt hsmall
      rw [Call.count_eq hc, hdiv]
      split
      · simp
      · omega
  · next hlarge =>
      constructor
      · intro heq
        exact .inl (heq ▸ Nat.dvd_mul_left _ _)
      · rintro (hdvd | hsmall)
        · rw [Call.count_eq hc, Nat.div_mul_cancel hdvd, if_neg (Nat.lt_irrefl _),
            Nat.div_mul_cancel hdvd]
        · exact absurd hsmall hlarge

/-! ## What is issued -/

/-- The call is past its first loop. -/
def State.Issued (s : State) : Prop := ∀ i, s.point ≠ .issuing i

/-- The chunks of a transfer on one side of it. -/
def onOrigin (ts : List Chunk) : List (Nat × Nat) := ts.map fun t => (t.originOffset, t.length)

def onLocal (ts : List Chunk) : List (Nat × Nat) := ts.map fun t => (t.localOffset, t.length)

/-- Pieces that follow each other from a start for some size: their lengths sum
to the size, no two overlap, and they cover the range and nothing else. -/
structure Covers (lo size : Nat) (ps : List (Nat × Nat)) : Prop where
  tiles : Tiling.Tiles lo ps (lo + size)
  sum : (ps.map Prod.snd).sum = size
  disjoint : ps.Pairwise fun p q => p.1 + p.2 ≤ q.1
  within : ∀ p ∈ ps, lo ≤ p.1 ∧ p.1 + p.2 ≤ lo + size
  cover : ∀ a, (∃ p ∈ ps, p.1 ≤ a ∧ a < p.1 + p.2) ↔ lo ≤ a ∧ a < lo + size

theorem covers_of_tiles {lo size : Nat} {ps : List (Nat × Nat)}
    (h : Tiling.Tiles lo ps (lo + size)) : Covers lo size ps where
  tiles := h
  sum := Nat.add_left_cancel h.sum
  disjoint := h.pairwise
  within _ hp := h.within hp
  cover := h.cover

/-- The transfers are consecutive chunks, not empty and not longer than the chunk
size, that cover the same ranges on both sides. -/
structure MovesExactly (c : Call) (ts : List Chunk) : Prop where
  origin : Covers c.originOffset c.size (onOrigin ts)
  local' : Covers c.localOffset c.size (onLocal ts)
  length_pos : ∀ t ∈ ts, 0 < t.length
  length_le : ∀ t ∈ ts, t.length ≤ c.chunkSize

theorem Call.length_le (c : Call) : c.length ≤ c.chunkSize ∧ c.length ≤ c.size := by
  unfold length
  split <;> omega

/-- Chunks that fit end within the ranges, so no offset wraps. -/
theorem Call.offset_eq (hc : c.InRange) (heven : c.Even) {o : Nat} (ho : o + c.size ≤ 2 ^ 64)
    {j : Nat} (hj : j < c.count) :
    0 < c.length ∧ (o + j * c.length) % 2 ^ 64 = o + j * c.length := by
  have hall : c.count * c.length = c.size := (Call.count_mul_length hc.toValid).mpr heven
  have hnext : (j + 1) * c.length ≤ c.count * c.length := Nat.mul_le_mul_right _ hj
  have hpos : 0 < c.length := by
    by_contra hzero
    have hlength : c.length = 0 := Nat.eq_zero_of_not_pos hzero
    have hbound := (Call.size_le hc.toValid).2
    rw [hlength, Nat.mul_zero] at hall
    have hcount : c.count * c.chunkSize < 1 * c.chunkSize := by omega
    have := Nat.lt_of_mul_lt_mul_right hcount
    omega
  rw [Nat.succ_mul] at hnext
  exact ⟨hpos, Nat.mod_eq_of_lt (by omega)⟩

/-- All the chunks together move what they should exactly if they are of one
length or there is but one. -/
theorem movesExactly_iff (hc : c.InRange) :
    MovesExactly c ((List.range c.count).map c.chunkAt) ↔ c.Even := by
  constructor
  · intro h
    have hsum := h.origin.sum
    have hlengths : ((onOrigin ((List.range c.count).map c.chunkAt)).map Prod.snd) =
        List.replicate c.count c.length := by
      rw [onOrigin, List.map_map, List.map_map, List.eq_replicate_iff]
      refine ⟨by simp, fun x hx => ?_⟩
      obtain ⟨_, _, rfl⟩ := List.mem_map.mp hx
      rfl
    rw [hlengths, List.sum_replicate_nat] at hsum
    exact (Call.count_mul_length hc.toValid).mp hsum
  · intro heven
    have hall : c.count * c.length = c.size := (Call.count_mul_length hc.toValid).mpr heven
    have horigin : onOrigin ((List.range c.count).map c.chunkAt) =
        (List.range c.count).map fun j => (c.originOffset + j * c.length, c.length) := by
      rw [onOrigin, List.map_map]
      refine List.map_congr_left fun j hj => ?_
      exact congrArg (·, c.length)
        (Call.offset_eq hc heven hc.origin_le (List.mem_range.mp hj)).2
    have hlocal : onLocal ((List.range c.count).map c.chunkAt) =
        (List.range c.count).map fun j => (c.localOffset + j * c.length, c.length) := by
      rw [onLocal, List.map_map]
      refine List.map_congr_left fun j hj => ?_
      exact congrArg (·, c.length)
        (Call.offset_eq hc heven hc.local_le (List.mem_range.mp hj)).2
    refine ⟨covers_of_tiles ?_, covers_of_tiles ?_, fun t ht => ?_, fun t ht => ?_⟩
    · rw [horigin, ← hall]
      exact Tiling.tiles_range _ _ _
    · rw [hlocal, ← hall]
      exact Tiling.tiles_range _ _ _
    · obtain ⟨j, hj, rfl⟩ := List.mem_map.mp ht
      exact (Call.offset_eq hc heven hc.origin_le (List.mem_range.mp hj)).1
    · obtain ⟨j, hj, rfl⟩ := List.mem_map.mp ht
      exact c.length_le.1

/-! ## The issued transfers -/

/-- Where every issue succeeds and the chunks can be counted, the first loop
comes to its end. -/
theorem reaches_issuing (hc : c.Valid) (hcount : c.count < 2 ^ 32)
    (hsuccess : ∀ k < c.count, c.issue k = .success) {k : Nat} (hk : k ≤ c.count) :
    ∃ s, Reaches c s ∧ s.point = .issuing k ∧ s.issued.length = k := by
  induction k with
  | zero =>
      refine ⟨start c, reaches_start c, ?_, rfl⟩
      simp [start, Nat.ne_of_gt hc.chunkSize_pos]
  | succ k ih =>
      obtain ⟨s, hs, hpoint, hlength⟩ := ih (by omega)
      have hissue : c.issue s.issued.length = .success := hsuccess _ (by omega)
      refine ⟨s.issue c k, hs.step (a := .call) ?_, ?_, ?_⟩
      · simp only [step, hpoint]
        rw [if_pos (by omega)]
      · simp only [State.issue, hissue, ne_eq, not_true_eq_false, ↓reduceIte]
        rw [incr32_of_lt (by omega)]
      · simp only [State.issue, hissue, ne_eq, not_true_eq_false, ↓reduceIte]
        simp [hlength]

/-- The chunks cannot be issued but as a whole. -/
theorem Reaches.issued_eq (hc : c.Valid) (hsuccess : ∀ k, c.issue k = .success)
    (hs : Reaches c s) (hissued : s.Issued) :
    s.issued = (List.range c.count).map c.chunkAt ∧ c.count < 2 ^ 32 := by
  have hloop := hs.looping hc
  have hstopped : Stopped c s.issued.length := by
    cases hpoint : s.point with
    | issuing i => exact absurd hpoint (hissued i)
    | waiting i j hret => exact (hloop.waiting i j hret hpoint).2.1
    | returned hret => exact hloop.returned hret hpoint
  obtain ⟨hall, hcount⟩ | ⟨hfail, -⟩ := hstopped
  · exact ⟨hall ▸ hloop.issued_eq, hcount⟩
  · exact absurd (hsuccess _) hfail

/-- If every issue succeeds, the call gets through its first loop, and has then
moved what it should, exactly if the chunk size divides the size or exceeds it
and the chunks can be counted with 32 bits. -/
theorem moves_exactly_iff (hc : c.InRange) (hsuccess : ∀ k, c.issue k = .success) :
    ((∃ s, Reaches c s ∧ s.Issued) ∧
      ∀ s, Reaches c s → s.Issued → MovesExactly c s.issued) ↔ c.Even ∧ c.Countable := by
  rw [← Call.count_lt_iff hc.toValid]
  constructor
  · rintro ⟨⟨s, hs, hissued⟩, hmoves⟩
    obtain ⟨heq, hcount⟩ := hs.issued_eq hc.toValid hsuccess hissued
    exact ⟨(movesExactly_iff hc).mp (heq ▸ hmoves s hs hissued), hcount⟩
  · rintro ⟨heven, hcount⟩
    refine ⟨?_, fun s hs hissued => ?_⟩
    · obtain ⟨s, hs, hpoint, -⟩ :=
        reaches_issuing hc.toValid hcount (fun k _ => hsuccess k) (Nat.le_refl c.count)
      refine ⟨{ s with point := .waiting c.count 0 .success }, hs.step (a := .call) ?_, nofun⟩
      simp only [step, hpoint]
      rw [if_neg (Nat.lt_irrefl _)]
    · rw [(hs.issued_eq hc.toValid hsuccess hissued).1]
      exact (movesExactly_iff hc).mpr heven

/-- Replies of calls that all succeed. -/
def allSucceed : Replies :=
  ⟨true, .success, true, .success, true, .success, .success, true, .success, .success, .success⟩

/-- A transfer between two offsets, every call of which succeeds. -/
def smooth (size chunkSize : Nat) : Call where
  originOffset := 100
  localOffset := 200
  size := size
  chunkSize := chunkSize
  replies _ := allSucceed
  outcome _ := .success
  invalidParam := .otherError

theorem issue_smooth (size chunkSize k : Nat) : (smooth size chunkSize).issue k = .success := by
  simp [Call.issue, smooth, bulkItransferInternal, Attempt.andThen, createEventual, armTimer,
    submit, allSucceed, call]

theorem moves_exactly_eight :
    (∃ s, Reaches (smooth 8 4) s ∧ s.Issued) ∧
      ∀ s, Reaches (smooth 8 4) s → s.Issued → MovesExactly (smooth 8 4) s.issued := by
  have hc : (smooth 8 4).InRange := ⟨by constructor <;> decide, by decide, by decide⟩
  refine (moves_exactly_iff hc (issue_smooth 8 4)).mpr ⟨.inl (by decide), ?_⟩
  unfold Call.Countable
  decide

/-- The second chunk of four bytes reaches past the fifth. -/
theorem not_moves_exactly :
    ¬∀ c : Call, c.InRange → (∀ k, c.issue k = .success) →
      (∃ s, Reaches c s ∧ s.Issued) ∧
        ∀ s, Reaches c s → s.Issued → MovesExactly c s.issued := by
  intro h
  have hc : (smooth 5 4).InRange := ⟨by constructor <;> decide, by decide, by decide⟩
  obtain ⟨⟨s, hs, hissued⟩, hmoves⟩ := h _ hc (issue_smooth 5 4)
  obtain ⟨heq, -⟩ := hs.issued_eq hc.toValid (issue_smooth 5 4) hissued
  have heven : (smooth 5 4).Even := (movesExactly_iff hc).mp (heq ▸ hmoves s hs hissued)
  obtain hdvd | hlt := heven
  · exact absurd hdvd (by decide)
  · exact absurd hlt (by decide)

end Margo.Transfer
