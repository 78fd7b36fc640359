import Mathlib.Data.List.Perm.Subperm
import Margo.Transfer.Chunks

/-!
# What a parallel transfer leaves in flight

The second loop of `margo_bulk_parallel_transfer` waits for the chunks in the
order in which they were issued. After an issue that failed it waits for all
of them. After a completion that failed it frees the requests at once, with
every later chunk still to be waited for.

## Implementation notes

Below `2 ^ 32` transfers the requests and the eventuals carry the number of
their transfer. The property asks the call to return: from every state it
reaches, some order of the completions leads to its end.
-/

namespace Margo.Transfer

open Lib Request

variable {c : Call} {s s' : State}

/-! ## How often the call waits -/

/-- The waits of the second loop are as many as the transfers that were issued,
modulo `2 ^ 32`, or fewer. -/
structure Waits (s : State) : Prop where
  issuing : ∀ i, s.point = .issuing i → s.freed = []
  waiting : ∀ i j hret, s.point = .waiting i j hret → s.freed.length = j ∧ j ≤ i ∧ i < 2 ^ 32
  returned : ∀ hret, s.point = .returned hret → s.freed.length < 2 ^ 32

theorem waits_start (hc : c.Valid) : Waits (start c) where
  issuing _ _ := rfl
  waiting i j hret h := by simp [start, Nat.ne_of_gt hc.chunkSize_pos] at h
  returned hret h := by simp [start, Nat.ne_of_gt hc.chunkSize_pos] at h

theorem Waits.step (h : Waits s) (hloop : Looping c s) {a : Label}
    (hstep : step c s a = some s') : Waits s' := by
  have hi : ∀ {i}, s.point = .issuing i → i < 2 ^ 32 := by
    intro i hpoint
    have := (hloop.issuing i hpoint).1
    omega
  cases step_cases hstep with
  | issued hpoint _ _ => exact ⟨fun _ _ => h.issuing _ hpoint, nofun, nofun⟩
  | refused hpoint _ _ =>
      refine ⟨nofun, fun i' j hret hpoint' => ?_, nofun⟩
      obtain ⟨rfl, rfl, -⟩ := Point.waiting.inj hpoint'
      exact ⟨congrArg List.length (h.issuing _ hpoint), Nat.zero_le _, hi hpoint⟩
  | exit hpoint _ =>
      refine ⟨nofun, fun i' j hret hpoint' => ?_, nofun⟩
      obtain ⟨rfl, rfl, -⟩ := Point.waiting.inj hpoint'
      exact ⟨congrArg List.length (h.issuing _ hpoint), Nat.zero_le _, hi hpoint⟩
  | waited hpoint hj _ _ =>
      obtain ⟨hlength, -, hlt⟩ := h.waiting _ _ _ hpoint
      refine ⟨nofun, fun i' j' hret' hpoint' => ?_, nofun⟩
      obtain ⟨rfl, rfl, -⟩ := Point.waiting.inj hpoint'
      rw [incr32_of_lt (by omega), List.length_cons, hlength]
      exact ⟨rfl, hj, hlt⟩
  | failed hpoint hj _ _ =>
      obtain ⟨hlength, -, hlt⟩ := h.waiting _ _ _ hpoint
      refine ⟨nofun, nofun, fun _ _ => ?_⟩
      rw [List.length_cons, hlength]
      omega
  | ended hpoint _ =>
      obtain ⟨hlength, hle, hlt⟩ := h.waiting _ _ _ hpoint
      refine ⟨nofun, nofun, fun _ _ => ?_⟩
      show s.freed.length < 2 ^ 32
      omega
  | completed _ _ => exact ⟨h.issuing, h.waiting, h.returned⟩

/-! ## Which transfers it waits for -/

/-- The first transfers have completed and been waited for. -/
def Waited (s : State) (j : Nat) : Prop :=
  s.freed = (List.range j).reverse ∧ ∀ m < j, m ∈ s.completed

/-- How the call returned: it has waited for every transfer, and none failed
unless the issue of the next one did; or it stopped at the first one that
failed. -/
def ReturnedWith (c : Call) (s : State) (hret : HgReturn) : Prop :=
  (Waited s s.issued.length ∧
    ((hret = .success ∧ s.issued.length = c.count ∧ ∀ m < s.issued.length, c.outcome m = .success) ∨
      (hret ≠ .success ∧ hret = c.issue s.issued.length ∧ s.issued.length < c.count))) ∨
  ∃ j < s.issued.length, Waited s (j + 1) ∧ s.issued.length = c.count ∧ hret = c.outcome j ∧
    hret ≠ .success ∧ ∀ m < j, c.outcome m = .success

/-- The requests, the eventuals and the waits, as long as no index has wrapped. -/
structure Draining (c : Call) (s : State) : Prop where
  ev_eq : ∀ m < s.issued.length, (s.request m).ev = m
  ready_eq : s.ready = s.completed
  completed_lt : ∀ m ∈ s.completed, m < s.issued.length
  hret_eq : ∀ m ∈ s.completed, (s.request m).hret = c.outcome m
  issuing : ∀ i, s.point = .issuing i → s.freed = []
  waiting : ∀ i j hret, s.point = .waiting i j hret → j ≤ i ∧ Waited s j ∧
    (hret = .success → ∀ m < j, c.outcome m = .success)
  returned : ∀ hret, s.point = .returned hret → ReturnedWith c s hret

theorem draining_start (hc : c.Valid) : Draining c (start c) where
  ev_eq := nofun
  ready_eq := rfl
  completed_lt := nofun
  hret_eq := nofun
  issuing _ _ := rfl
  waiting i j hret h := by simp [start, Nat.ne_of_gt hc.chunkSize_pos] at h
  returned hret h := by simp [start, Nat.ne_of_gt hc.chunkSize_pos] at h

/-- The request of a transfer has its number. -/
theorem Looping.request_eq (h : Looping c s) {k : Nat} {x : Chunk} (hx : s.issued[k]? = some x)
    (hlt : s.issued.length < 2 ^ 32) : x.request = k := by
  have hk : k < s.issued.length := (List.getElem?_eq_some_iff.mp hx).1
  rw [h.issued_eq, List.getElem?_map, List.getElem?_range hk] at hx
  rw [← Option.some.inj hx]
  exact Nat.mod_eq_of_lt (by omega)

/-- A wait that is over adds a transfer to those waited for. -/
theorem Draining.waited_succ (h : Draining c s) {i j : Nat} {hret : HgReturn}
    (hpoint : s.point = .waiting i j hret) (hj : j < s.issued.length)
    (hready : (s.request j).ev ∈ s.ready) :
    (s.request j).ev :: s.freed = (List.range (j + 1)).reverse ∧
      (∀ m < j + 1, m ∈ s.completed) ∧ (s.request j).hret = c.outcome j := by
  obtain ⟨-, ⟨hfreed, hcompleted⟩, -⟩ := h.waiting i j hret hpoint
  rw [h.ev_eq j hj, h.ready_eq] at hready
  refine ⟨?_, fun m hm => ?_, h.hret_eq j hready⟩
  · rw [h.ev_eq j hj, hfreed, List.range_succ, List.reverse_append]
    rfl
  · obtain rfl | hm := Nat.eq_or_lt_of_le (Nat.le_of_lt_succ hm)
    · exact hready
    · exact hcompleted m hm

/-- The number of a transfer is the index of its request, and the next transfer has the
index that the call is at. -/
theorem Looping.issuing_eq (h : Looping c s) {i : Nat} (hpoint : s.point = .issuing i)
    (hlt : s.issued.length < 2 ^ 32) : i = s.issued.length := by
  rw [(h.issuing i hpoint).1, Nat.mod_eq_of_lt hlt]

theorem Looping.waiting_eq (h : Looping c s) {i j : Nat} {hret : HgReturn}
    (hpoint : s.point = .waiting i j hret) (hlt : s.issued.length < 2 ^ 32) :
    i = s.issued.length := by
  rw [(h.waiting i j hret hpoint).1, Nat.mod_eq_of_lt hlt]

/-- The request of the next transfer is that of no transfer before. -/
theorem Draining.update_next (h : Draining c s) (r : Slot) :
    (∀ m < s.issued.length, (Function.update s.request s.issued.length r m).ev = m) ∧
      ∀ m ∈ s.completed,
        (Function.update s.request s.issued.length r m).hret = c.outcome m := by
  constructor
  · intro m hm
    rw [Function.update_of_ne (Nat.ne_of_lt hm)]
    exact h.ev_eq m hm
  · intro m hm
    rw [Function.update_of_ne (Nat.ne_of_lt (h.completed_lt m hm))]
    exact h.hret_eq m hm

/-- A transfer completes: its request gets its outcome, and its eventual is set. -/
theorem Draining.complete (h : Draining c s) {k : Nat} (hk : k < s.issued.length) :
    Draining c { s with
      request := Function.update s.request k { s.request k with hret := c.outcome k }
      completed := k :: s.completed
      ready := (s.request k).ev :: s.ready } := by
  have hwaited : ∀ j, Waited s j → s.freed = (List.range j).reverse ∧
      ∀ m < j, m ∈ k :: s.completed := fun j hj =>
    ⟨hj.1, fun m hm => List.mem_cons_of_mem k (hj.2 m hm)⟩
  refine ⟨fun m hm => ?_, ?_, fun m hm => ?_, fun m hm => ?_, h.issuing, ?_, ?_⟩
  · by_cases hmk : m = k
    · rw [hmk]
      dsimp only
      rw [Function.update_self]
      exact h.ev_eq k hk
    · dsimp only
      rw [Function.update_of_ne hmk]
      exact h.ev_eq m hm
  · dsimp only
    rw [h.ev_eq k hk, h.ready_eq]
  · obtain rfl | hm := List.mem_cons.mp hm
    · exact hk
    · exact h.completed_lt m hm
  · by_cases hmk : m = k
    · rw [hmk]
      dsimp only
      rw [Function.update_self]
    · dsimp only
      rw [Function.update_of_ne hmk]
      exact h.hret_eq m ((List.mem_cons.mp hm).resolve_left hmk)
  · intro i j hret hpoint
    obtain ⟨hle, hj, hsuccess⟩ := h.waiting i j hret hpoint
    exact ⟨hle, hwaited j hj, hsuccess⟩
  · intro hret hpoint
    obtain ⟨hall, hcode⟩ | ⟨j, hj, hpart, hrest⟩ := h.returned hret hpoint
    · exact .inl ⟨hwaited _ hall, hcode⟩
    · exact .inr ⟨j, hj, hwaited _ hpart, hrest⟩

theorem Draining.step (h : Draining c s) (hloop : Looping c s) (hlt : s.issued.length < 2 ^ 32)
    {a : Label} (hstep : step c s a = some s') : Draining c s' := by
  -- The second loop starts with no transfer waited for.
  have hnone : ∀ {i i' j : Nat} {hret hret' : HgReturn}, s.point = .issuing i →
      Point.waiting i 0 hret = .waiting i' j hret' → j ≤ i' ∧ Waited s j ∧
        (hret' = .success → ∀ m < j, c.outcome m = .success) := by
    intro i i' j hret hret' hpoint hpoint'
    obtain ⟨rfl, rfl, rfl⟩ := Point.waiting.inj hpoint'
    exact ⟨Nat.zero_le _, ⟨h.issuing i hpoint, nofun⟩, fun _ => nofun⟩
  cases step_cases hstep with
  | @issued i hpoint _ _ =>
      obtain rfl := hloop.issuing_eq hpoint hlt
      obtain ⟨hev, hhret⟩ := h.update_next
        { s.request s.issued.length with ev := s.issued.length }
      have hev' : ∀ m < s.issued.length + 1, (Function.update s.request s.issued.length
          { s.request s.issued.length with ev := s.issued.length } m).ev = m := by
        intro m hm
        obtain rfl | hm := Nat.eq_or_lt_of_le (Nat.le_of_lt_succ hm)
        · rw [Function.update_self]
        · exact hev m hm
      refine ⟨by simpa using hev', h.ready_eq, fun m hm => ?_, hhret,
        fun _ _ => h.issuing _ hpoint, nofun, nofun⟩
      rw [List.length_append]
      exact Nat.lt_add_right 1 (h.completed_lt m hm)
  | @refused i hpoint _ _ =>
      obtain rfl := hloop.issuing_eq hpoint hlt
      obtain ⟨hev, hhret⟩ := h.update_next
        { s.request s.issued.length with ev := s.issued.length }
      exact ⟨hev, h.ready_eq, h.completed_lt, hhret, nofun, fun _ _ _ => hnone hpoint, nofun⟩
  | @exit i hpoint _ =>
      exact { h with issuing := nofun, waiting := fun _ _ _ => hnone hpoint, returned := nofun }
  | @waited i j hret hpoint hj hready hgo =>
      have hi := hloop.waiting_eq hpoint hlt
      obtain ⟨hfreed, hcompleted, hhret⟩ := h.waited_succ hpoint (hi ▸ hj) hready
      refine { h with issuing := nofun, waiting := ?_, returned := nofun }
      intro i' j' hret' hpoint'
      obtain ⟨rfl, rfl, rfl⟩ := Point.waiting.inj hpoint'
      rw [incr32_of_lt (by omega)]
      refine ⟨hj, ⟨hfreed, hcompleted⟩, fun hsuccess m hm => ?_⟩
      obtain rfl | hm := Nat.eq_or_lt_of_le (Nat.le_of_lt_succ hm)
      · rw [← hhret]
        by_contra hfail
        exact hgo ⟨hsuccess, hfail⟩
      · exact (h.waiting i j hret hpoint).2.2 hsuccess m hm
  | @failed i j hpoint hj hready hfail =>
      have hi := hloop.waiting_eq hpoint hlt
      obtain ⟨hfreed, hcompleted, hhret⟩ := h.waited_succ hpoint (hi ▸ hj) hready
      refine { h with issuing := nofun, waiting := nofun, returned := ?_ }
      intro hret' hpoint'
      obtain rfl := Point.returned.inj hpoint'
      have hall : s.issued.length = c.count := by
        obtain ⟨-, hall, -⟩ | ⟨hne, -⟩ := (hloop.waiting i j .success hpoint).2.2
        · exact hall
        · exact absurd rfl hne
      exact .inr ⟨j, hi ▸ hj, ⟨hfreed, hcompleted⟩, hall, hhret, hfail,
        (h.waiting i j .success hpoint).2.2 rfl⟩
  | @ended i j hret hpoint hj =>
      have hi := hloop.waiting_eq hpoint hlt
      obtain ⟨hle, hwaited, hsuccess⟩ := h.waiting i j hret hpoint
      obtain rfl : j = s.issued.length := by omega
      refine { h with issuing := nofun, waiting := nofun, returned := ?_ }
      intro hret' hpoint'
      obtain rfl := Point.returned.inj hpoint'
      refine .inl ⟨hwaited, ?_⟩
      obtain ⟨rfl, hall, -⟩ | ⟨hfail, hissue, hcount⟩ := (hloop.waiting i _ hret hpoint).2.2
      · exact .inl ⟨rfl, hall, hsuccess rfl⟩
      · exact .inr ⟨hfail, hissue, Nat.mod_eq_of_lt hlt ▸ hcount⟩
  | @completed k x hx hk =>
      rw [hloop.request_eq hx hlt]
      exact h.complete (List.getElem?_eq_some_iff.mp hx).1

/-! ## Every run -/

theorem issued_length_le {a : Label} (hstep : step c s a = some s') :
    s.issued.length ≤ s'.issued.length := by
  cases step_cases hstep with
  | issued _ _ _ => simp
  | refused _ _ _ => exact Nat.le_refl _
  | exit _ _ => exact Nat.le_refl _
  | waited _ _ _ _ => exact Nat.le_refl _
  | failed _ _ _ _ => exact Nat.le_refl _
  | ended _ _ => exact Nat.le_refl _
  | completed _ _ => exact Nat.le_refl _

theorem Reaches.draining (hc : c.Valid) (hs : Reaches c s) :
    Waits s ∧ (s.issued.length < 2 ^ 32 → Draining c s) := by
  obtain ⟨as, hrun⟩ := hs
  have h : Looping c s ∧ Waits s ∧ (s.issued.length < 2 ^ 32 → Draining c s) := by
    refine hrun.invariant
      (P := fun s => Looping c s ∧ Waits s ∧ (s.issued.length < 2 ^ 32 → Draining c s)) ?_
      ⟨looping_start hc, waits_start hc, fun _ => draining_start hc⟩
    rintro s a s' ⟨hloop, hwaits, hdraining⟩ - hstep
    refine ⟨hloop.step hstep, hwaits.step hloop hstep, fun hlt => ?_⟩
    have hlt' := Nat.lt_of_le_of_lt (issued_length_le hstep) hlt
    exact (hdraining hlt').step hloop hlt' hstep
  exact h.2

/-- Some order of the completions leads to the end of the call. -/
def Ends (c : Call) (s : State) : Prop :=
  ∃ as s' hret, Runs.Run (step c) Runs.Any s as s' ∧ s'.point = .returned hret

theorem Ends.of_step {a : Label} (hstep : step c s a = some s') (h : Ends c s') : Ends c s := by
  obtain ⟨as, s'', hret, hrun, hpoint⟩ := h
  exact ⟨a :: as, s'', hret, .cons hstep trivial hrun, hpoint⟩

theorem wait_point (s : State) (i j : Nat) (hret : HgReturn) :
    (∃ code, (s.wait i j hret).point = .returned code) ∨
      (s.wait i j hret).point = .waiting i (incr32 j) hret := by
  unfold State.wait
  dsimp only
  split
  · exact .inl ⟨_, rfl⟩
  · exact .inr rfl

theorem issue_point (c : Call) (s : State) (i : Nat) :
    (∃ hret, (s.issue c i).point = .waiting i 0 hret) ∨
      ((s.issue c i).point = .issuing (incr32 i) ∧
        (s.issue c i).issued.length = s.issued.length + 1) := by
  unfold State.issue
  dsimp only
  split
  · exact .inl ⟨_, rfl⟩
  · exact .inr ⟨rfl, by simp⟩

/-- Every wait ends once its transfer has completed. -/
theorem ends_of_waiting (hc : c.Valid)
    (hbound : ∀ s, Reaches c s → s.issued.length < 2 ^ 32) {i j : Nat} {hret : HgReturn}
    (hs : Reaches c s) (hpoint : s.point = .waiting i j hret) : Ends c s := by
  induction hd : i - j generalizing s j hret with
  | zero =>
      have hstep : step c s .call = some { s with point := .returned hret } := by
        simp only [step, hpoint]
        rw [if_neg (by omega)]
      exact Ends.of_step hstep ⟨[], _, hret, .nil _, rfl⟩
  | succ d ih =>
      have hready : ∀ {s}, Reaches c s → s.point = .waiting i j hret →
          (s.request j).ev ∈ s.ready → Ends c s := by
        intro s hs hpoint hready
        have hstep : step c s .call = some (s.wait i j hret) := by
          simp only [step, hpoint]
          rw [if_pos (by omega), if_pos hready]
        have hi := ((hs.looping hc).waiting i j hret hpoint).1
        refine Ends.of_step hstep ?_
        obtain ⟨code, hpoint'⟩ | hpoint' := wait_point s i j hret
        · exact ⟨[], _, code, .nil _, hpoint'⟩
        · refine ih (hs.step hstep) hpoint' ?_
          rw [incr32_of_lt (by omega)]
          omega
      have hlt := hbound s hs
      have hdraining := (hs.draining hc).2 hlt
      have hj : j < s.issued.length := by
        have := ((hs.looping hc).waiting i j hret hpoint).1
        omega
      by_cases hin : (s.request j).ev ∈ s.ready
      · exact hready hs hpoint hin
      · have hx : s.issued[j]? = some s.issued[j] := List.getElem?_eq_getElem hj
        have hnot : j ∉ s.completed := by
          rwa [hdraining.ev_eq j hj, hdraining.ready_eq] at hin
        have hstep : step c s (.complete j) = some (s.complete c j s.issued[j]) := by
          simp only [step, hx]
          rw [if_neg hnot]
        have hrequest := (hs.looping hc).request_eq hx hlt
        refine Ends.of_step hstep (hready (hs.step hstep) hpoint ?_)
        rw [State.complete, hrequest]
        dsimp only
        rw [Function.update_self]
        exact List.mem_cons_self

/-- Where the transfers stay below `2 ^ 32`, the call ends. -/
theorem ends_of_reaches (hc : c.Valid) (hbound : ∀ s, Reaches c s → s.issued.length < 2 ^ 32)
    (hs : Reaches c s) : Ends c s := by
  cases hpoint : s.point with
  | issuing i =>
      induction hd : 2 ^ 32 - s.issued.length generalizing s i with
      | zero =>
          have := hbound s hs
          omega
      | succ d ih =>
          by_cases hi : i < c.count
          · have hstep : step c s .call = some (s.issue c i) := by
              simp only [step, hpoint]
              rw [if_pos hi]
            refine Ends.of_step hstep ?_
            obtain ⟨hret, hpoint'⟩ | ⟨hpoint', hlength⟩ := issue_point c s i
            · exact ends_of_waiting hc hbound (hs.step hstep) hpoint'
            · refine ih (hs.step hstep) _ hpoint' ?_
              omega
          · have hstep : step c s .call = some { s with point := .waiting i 0 .success } := by
              simp only [step, hpoint]
              rw [if_neg hi]
            exact Ends.of_step hstep (ends_of_waiting hc hbound (hs.step hstep) rfl)
  | waiting i j hret => exact ends_of_waiting hc hbound hs hpoint
  | returned hret => exact ⟨[], s, hret, .nil _, hpoint⟩

/-! ## Nothing is left in flight -/

/-- Every transfer that was issued has completed and been waited for. -/
def Drained (s : State) : Prop := ∀ m < s.issued.length, m ∈ s.completed ∧ m ∈ s.freed

/-- The first error met: an issue that failed after others that did not, or,
where all the chunks were issued, a completion that failed after others that did
not. -/
def FirstError (c : Call) (hret : HgReturn) : Prop :=
  (∃ k < c.count, c.issue k = hret ∧ ∀ j < k, c.issue j = .success) ∨
    ((∀ k < c.count, c.issue k = .success) ∧
      ∃ k < c.count, c.outcome k = hret ∧ ∀ j < k, c.outcome j = .success)

/-- The code is that of a success exactly if every issue and every completion
succeeded, and else the first error. -/
def CodeRight (c : Call) (hret : HgReturn) : Prop :=
  (hret = .success ↔
    (∀ k < c.count, c.issue k = .success) ∧ ∀ k < c.count, c.outcome k = .success) ∧
  (hret ≠ .success → FirstError c hret)

/-- The call returns, nothing is then in flight, and its code is right. -/
def LeavesNothing (c : Call) : Prop :=
  (∀ s, Reaches c s → Ends c s) ∧
    ∀ s hret, Reaches c s → s.point = .returned hret → Drained s ∧ CodeRight c hret

/-- Fewer than `2 ^ 32` transfers are issued, and then an issue fails, or no
completion fails but that of the last chunk. -/
def Call.Drains (c : Call) : Prop :=
  ∃ n < 2 ^ 32, n ≤ c.count ∧ (∀ k < n, c.issue k = .success) ∧
    ((n < c.count ∧ c.issue n ≠ .success) ∨
      (n = c.count ∧ ∀ k, k + 1 < n → c.outcome k = .success))

/-- What has been waited for bounds what was issued. -/
theorem Drained.length_le (h : Drained s) : s.issued.length ≤ s.freed.length := by
  have hsubset : List.range s.issued.length ⊆ s.freed := fun m hm =>
    (h m (List.mem_range.mp hm)).2
  simpa using (List.subperm_of_subset List.nodup_range hsubset).length_le

theorem LeavesNothing.drains (hc : c.Valid) (h : LeavesNothing c) : c.Drains := by
  obtain ⟨as, s, hret, hrun, hpoint⟩ := h.1 _ (reaches_start c)
  have hs : Reaches c s := ⟨as, hrun⟩
  obtain ⟨hdrained, -⟩ := h.2 s hret hs hpoint
  obtain ⟨hwaits, hdraining⟩ := hs.draining hc
  have hlt : s.issued.length < 2 ^ 32 :=
    Nat.lt_of_le_of_lt hdrained.length_le (hwaits.returned hret hpoint)
  have hsuccess := (hs.looping hc).success
  obtain ⟨-, ⟨-, hall, hok⟩ | ⟨hfail, rfl, hcount⟩⟩ | ⟨j, hj, hwaited, hall, -, -, hok⟩ :=
    (hdraining hlt).returned hret hpoint
  · exact ⟨_, hlt, hall.le, hsuccess, .inr ⟨hall, fun k hk => hok k (by omega)⟩⟩
  · exact ⟨_, hlt, hcount.le, hsuccess, .inl ⟨hcount, hfail⟩⟩
  · -- the last transfer has been waited for, so it is the one that failed
    have hlast := (hdrained (s.issued.length - 1) (by omega)).2
    rw [hwaited.1, List.mem_reverse, List.mem_range] at hlast
    exact ⟨_, hlt, hall.le, hsuccess, .inr ⟨hall, fun k hk => hok k (by omega)⟩⟩

/-- The number of transfers never exceeds the one at which an issue fails. -/
theorem Reaches.length_le (hc : c.Valid) {n : Nat} (hn : n < 2 ^ 32)
    (hstop : (n < c.count ∧ c.issue n ≠ .success) ∨ n = c.count) (hs : Reaches c s) :
    s.issued.length ≤ n := by
  have hloop := hs.looping hc
  obtain ⟨-, hfail⟩ | rfl := hstop
  · by_contra hlt
    exact hfail (hloop.success n (Nat.lt_of_not_le hlt))
  · cases hpoint : s.point with
    | issuing i => exact (hloop.issuing i hpoint).2 hn
    | waiting i j hret =>
        obtain ⟨hall, -⟩ | ⟨-, hlt⟩ := (hloop.waiting i j hret hpoint).2.1
        · exact hall.le
        · exact (hlt hn).le
    | returned hret =>
        obtain ⟨hall, -⟩ | ⟨-, hlt⟩ := hloop.returned hret hpoint
        · exact hall.le
        · exact (hlt hn).le

theorem Waited.drained {n : Nat} (h : Waited s n) (hn : s.issued.length ≤ n) : Drained s := by
  intro m hm
  refine ⟨h.2 m (Nat.lt_of_lt_of_le hm hn), ?_⟩
  rw [h.1, List.mem_reverse]
  exact List.mem_range.mpr (Nat.lt_of_lt_of_le hm hn)

theorem Call.Drains.leavesNothing (hc : c.Valid) (h : c.Drains) : LeavesNothing c := by
  obtain ⟨n, hn, hle, hissue, hstop⟩ := h
  have hstop' : (n < c.count ∧ c.issue n ≠ .success) ∨ n = c.count := hstop.imp_right And.left
  have hbound : ∀ s, Reaches c s → s.issued.length ≤ n := fun s hs => hs.length_le hc hn hstop'
  refine ⟨fun s hs => ends_of_reaches hc (fun s hs => Nat.lt_of_le_of_lt (hbound s hs) hn) hs,
    fun s hret hs hpoint => ?_⟩
  have hsuccess := (hs.looping hc).success
  have hdraining := (hs.draining hc).2 (Nat.lt_of_le_of_lt (hbound s hs) hn)
  obtain ⟨hwaited, ⟨rfl, hall, hok⟩ | ⟨hfail, rfl, hcount⟩⟩ |
    ⟨j, hj, hwaited, hall, rfl, hfail, hok⟩ := hdraining.returned hret hpoint
  · rw [hall] at hsuccess hok
    exact ⟨hwaited.drained (Nat.le_refl _), iff_of_true rfl ⟨hsuccess, hok⟩, absurd rfl⟩
  · refine ⟨hwaited.drained (Nat.le_refl _), iff_of_false hfail fun h => hfail (h.1 _ hcount),
      fun _ => .inl ⟨_, hcount, rfl, hsuccess⟩⟩
  · rw [hall] at hj hsuccess
    obtain rfl : n = c.count := Nat.le_antisymm hle (hall ▸ hbound s hs)
    have hlast : c.count ≤ j + 1 := by
      obtain ⟨hlt, -⟩ | ⟨-, hok'⟩ := hstop
      · exact absurd hlt (Nat.lt_irrefl _)
      · by_contra hlt
        exact hfail (hok' j (by omega))
    exact ⟨hwaited.drained (hall ▸ hlast), iff_of_false hfail fun h => hfail (h.2 j hj),
      fun _ => .inr ⟨hsuccess, j, hj, rfl, hok⟩⟩

/-- The call returns with nothing in flight and the right code exactly if it
issues fewer than `2 ^ 32` transfers, and an issue fails or no completion fails
but that of the last chunk. -/
theorem leaves_nothing_iff (hc : c.Valid) : LeavesNothing c ↔ c.Drains :=
  ⟨LeavesNothing.drains hc, Call.Drains.leavesNothing hc⟩

/-- Two chunks, with some outcomes. -/
def twoChunks (outcome : Nat → HgReturn) : Call := { smooth 8 4 with outcome := outcome }

/-- The second of two chunks fails. -/
theorem leaves_nothing_second :
    LeavesNothing (twoChunks fun k => if k = 1 then .canceled else .success) := by
  refine (leaves_nothing_iff (by constructor <;> decide)).mpr ⟨2, by decide, by decide,
    fun k _ => issue_smooth 8 4 k, .inr ⟨by decide, fun k hk => ?_⟩⟩
  exact if_neg (by omega)

/-- The first of two chunks fails: the second is never waited for. -/
theorem not_leaves_nothing : ¬∀ c : Call, c.Valid → LeavesNothing c := by
  intro h
  have hc : (twoChunks fun k => if k = 0 then .canceled else .success).Valid := by
    constructor <;> decide
  obtain ⟨n, -, hle, -, ⟨-, hfail⟩ | ⟨rfl, hok⟩⟩ := (h _ hc).drains hc
  · exact hfail (issue_smooth 8 4 n)
  · exact absurd (hok 0 (by decide)) (by decide)

end Margo.Transfer
