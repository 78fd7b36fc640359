import Mathlib.Data.List.Perm.Basic
import Margo.Bulk.Pool

/-!
# Who holds the handles of a bulk pool

The handles of a pool are shared out between the free end of its array and the
threads they were handed to. Every critical section keeps this, provided that
no handle is accepted back that nobody holds.

## Implementation notes

The invariant is a permutation: the entries of the free end followed by the
handles held are the pool's handles. The entries before the free end do not
occur in it.
-/

namespace Margo.Bulk

open Lib

/-- The entries of the array from `count - num_free` on. -/
def Pool.free (p : Pool) : List Handle := EndStack.region p.bulks p.numFree

/-- The handles that threads hold. -/
def State.heldHandles (s : State) : List Handle := s.held.map Prod.snd

/-- Some thread holds the handle. -/
def State.Held (s : State) (b : Handle) : Prop := b ∈ s.heldHandles

variable {hg : Mercury} {buf size flag : Nat} {handles : List Handle}

/-! ## The array -/

/-- A pool whose fields are those it was created with, but for its array and the
number of free entries. -/
structure Pool.Sound (buf size flag : Nat) (handles : List Handle) (p : Pool) : Prop where
  buf_eq : p.buf = buf
  size_eq : p.size = size
  flag_eq : p.flag = flag
  count_eq : p.count = handles.length
  length_bulks : p.bulks.length = handles.length
  count_lt : handles.length < 2 ^ 64
  numFree_le : p.numFree ≤ handles.length

/-- Taking a handle pops the free end. -/
theorem Pool.Sound.bpGet {p : Pool} (hp : p.Sound buf size flag handles) (hfree : p.numFree ≠ 0) :
    ∃ b p', p.bpGet = some (b, p') ∧ p.free = b :: p'.free ∧
      p'.Sound buf size flag handles := by
  have hle := hp.numFree_le
  have hlt := hp.count_lt
  have hbulks := hp.length_bulks
  obtain ⟨k, hk⟩ : ∃ k, p.numFree = k + 1 := Nat.exists_eq_succ_of_ne_zero hfree
  have hindex : SizeT.sub p.count p.numFree = p.bulks.length - (k + 1) := by
    rw [hp.count_eq, SizeT.sub_of_le hle hlt, hk, hbulks]
  have hnext : SizeT.sub p.numFree 1 = k := by
    rw [SizeT.sub_of_le (by omega) (by omega), hk, Nat.add_sub_cancel]
  have hin : p.bulks.length - (k + 1) < p.bulks.length := by omega
  refine ⟨p.bulks[p.bulks.length - (k + 1)], { p with numFree := k }, ?_, ?_, ?_⟩
  · rw [Pool.bpGet, hindex, List.getElem?_eq_getElem hin, hnext]
  · rw [Pool.free, hk, EndStack.region_succ (by omega), Pool.free]
  · exact { hp with numFree_le := by dsimp only; omega }

/-- Accepting a handle pushes it on the free end. -/
theorem Pool.Sound.bpRelease {p : Pool} (hp : p.Sound buf size flag handles)
    (hroom : p.numFree < handles.length) (b : Handle) :
    ∃ p', p.bpRelease b = some p' ∧ p'.free = b :: p.free ∧ p'.Sound buf size flag handles := by
  have hlt := hp.count_lt
  have hbulks := hp.length_bulks
  have hnext : SizeT.add p.numFree 1 = p.numFree + 1 := SizeT.add_of_lt (by omega)
  have hindex : SizeT.sub p.count (p.numFree + 1) = p.bulks.length - (p.numFree + 1) := by
    rw [hp.count_eq, SizeT.sub_of_le hroom hlt, hbulks]
  have hin : p.bulks.length - (p.numFree + 1) < p.bulks.length := by omega
  refine ⟨{ p with bulks := p.bulks.set (p.bulks.length - (p.numFree + 1)) b,
                   numFree := p.numFree + 1 }, ?_, ?_, ?_⟩
  · simp only [Pool.bpRelease, hnext, hindex, if_pos hin]
  · rw [Pool.free, EndStack.region_set (by omega), Pool.free]
  · exact { hp with
      length_bulks := by dsimp only; rw [List.length_set, hbulks]
      numFree_le := hroom }

theorem Pool.Sound.length_free {p : Pool} (hp : p.Sound buf size flag handles) :
    p.free.length = p.numFree :=
  EndStack.length_region (hp.length_bulks ▸ hp.numFree_le)

/-- The pool accepts its own handles: each stands for a segment of its buffer. -/
theorem Pool.Sound.accepts {p : Pool} (hp : p.Sound buf size flag handles)
    (hreg : Registered hg buf size flag handles) {b : Handle} (hb : b ∈ handles) :
    p.accepts hg b = true := by
  obtain ⟨i, hi⟩ := List.mem_iff_getElem?.mp hb
  have hlt : i < handles.length := (List.getElem?_eq_some_iff.mp hi).1
  have hend : (i + 1) * size ≤ size * handles.length := by
    rw [Nat.mul_comm size]
    exact Nat.mul_le_mul_right size hlt
  have hnull : b ≠ null := fun h => hreg.ne_null (h ▸ hb)
  rw [Nat.succ_mul] at hend
  simp only [Pool.accepts, hp.buf_eq, hp.size_eq, hp.flag_eq, hp.count_eq, hreg.getSize b hb,
    hreg.access i b hi, SizeT.mul_of_lt hreg.fits]
  simp [hnull]
  omega

/-! ## One critical section -/

/-- The handles of the pool are free or held, each once. -/
structure State.Shares (buf size flag : Nat) (handles : List Handle) (s : State) : Prop where
  sound : s.pool.Sound buf size flag handles
  perm : (s.pool.free ++ s.heldHandles).Perm handles

theorem shares_initial (hlt : handles.length < 2 ^ 64) :
    (State.initial (Pool.created buf size flag handles)).Shares buf size flag handles where
  sound := ⟨rfl, rfl, rfl, rfl, rfl, hlt, Nat.le_refl _⟩
  perm := by
    have hfree : (Pool.created buf size flag handles).free = handles :=
      EndStack.region_length_self handles
    rw [State.initial, hfree]
    exact List.Perm.of_eq (List.append_nil handles)

variable {s : State}

/-- The thread that is handed a handle is the only one to hold it. -/
structure HandsOut (handles : List Handle) (s : State) (t : Thread) (b : Handle) (s' : State) :
    Prop where
  own : b ∈ handles
  not_held : ¬s.Held b
  held_eq : s'.held = (t, b) :: s.held

/-- A pool with a free entry hands it out. -/
theorem State.Shares.handOut (hreg : Registered hg buf size flag handles)
    (hs : s.Shares buf size flag handles) (hfree : s.pool.numFree ≠ 0) (t : Thread) :
    ∃ b p', s.pool.bpGet = some (b, p') ∧ b ≠ null ∧ HandsOut handles s t b (s.handOut t b p') ∧
      (s.handOut t b p').Shares buf size flag handles := by
  obtain ⟨b, p', hget, hpop, hp'⟩ := hs.sound.bpGet hfree
  have hperm : (b :: (p'.free ++ s.heldHandles)).Perm handles := by
    have h := hs.perm
    rwa [hpop, List.cons_append] at h
  have hnodup : (b :: (p'.free ++ s.heldHandles)).Nodup := hperm.nodup_iff.mpr hreg.nodup
  have hown : b ∈ handles := hperm.mem_iff.mp List.mem_cons_self
  have hnull : b ≠ null := fun h => hreg.ne_null (h ▸ hown)
  have hheld : (s.handOut t b p').held = (t, b) :: s.held := if_neg hnull
  refine ⟨b, p', hget, hnull, ⟨hown, ?_, hheld⟩, hp', ?_⟩
  · intro hb
    exact (List.nodup_cons.mp hnodup).1 (List.mem_append_right _ hb)
  · rw [State.heldHandles, hheld]
    exact List.perm_middle.trans hperm

/-- Nothing is free exactly when every handle is held. -/
theorem State.Shares.numFree_eq_zero_iff (hreg : Registered hg buf size flag handles)
    (hs : s.Shares buf size flag handles) :
    s.pool.numFree = 0 ↔ ∀ b ∈ handles, s.Held b := by
  rw [← hs.sound.length_free, List.length_eq_zero_iff]
  constructor
  · intro hnil b hb
    have hperm := hs.perm
    rw [hnil, List.nil_append] at hperm
    exact hperm.mem_iff.mpr hb
  · intro hall
    have hnodup : (s.pool.free ++ s.heldHandles).Nodup := hs.perm.nodup_iff.mpr hreg.nodup
    refine List.eq_nil_iff_forall_not_mem.mpr fun b hb => ?_
    have hown : b ∈ handles := hs.perm.mem_iff.mp (List.mem_append_left _ hb)
    exact (List.nodup_append.mp hnodup).2.2 b hb b (hall b hown) rfl

theorem heldHandles_giveBack (s : State) (b : Handle) :
    (s.giveBack b).heldHandles = s.heldHandles.erase b := by
  rw [State.heldHandles, State.giveBack, State.heldHandles, List.erase_eq_eraseP',
    List.eraseP_map]
  rfl

/-- A handle that is held is accepted, and is free again. -/
theorem State.Shares.release (hreg : Registered hg buf size flag handles)
    (hs : s.Shares buf size flag handles) {b : Handle} (hb : s.Held b) :
    ∃ p', s.pool.release hg b = some (p', 0) ∧ p'.free = b :: s.pool.free ∧
      ({ s.giveBack b with pool := p' } : State).Shares buf size flag handles := by
  have hown : b ∈ handles := hs.perm.mem_iff.mp (List.mem_append_right _ hb)
  have hroom : s.pool.numFree < handles.length := by
    have hlength := hs.perm.length_eq
    rw [List.length_append, hs.sound.length_free] at hlength
    have hpos : 0 < s.heldHandles.length := List.length_pos_of_mem hb
    omega
  obtain ⟨p', hrelease, hpush, hp'⟩ := hs.sound.bpRelease hroom b
  refine ⟨p', ?_, hpush, hp', ?_⟩
  · rw [Pool.release, if_pos (hs.sound.accepts hreg hown), hrelease]
    rfl
  · have hheld : ({ s.giveBack b with pool := p' } : State).heldHandles = s.heldHandles.erase b :=
      heldHandles_giveBack s b
    rw [hpush, hheld]
    calc
      (b :: s.pool.free ++ s.heldHandles.erase b).Perm
          (s.pool.free ++ b :: s.heldHandles.erase b) := List.perm_middle.symm
      _ |>.Perm (s.pool.free ++ s.heldHandles) := (List.perm_cons_erase hb).symm.append_left _
      _ |>.Perm handles := hs.perm

/-- A handle given back is held, or does not pass the checks. -/
def Proper (hg : Mercury) (s : State) : Step → Prop
  | .release _ b => s.Held b ∨ s.pool.accepts hg b = false
  | .get _ | .wake _ | .tryget _ => True

theorem State.Shares.get (hreg : Registered hg buf size flag handles)
    (hs : s.Shares buf size flag handles) (t : Thread) :
    ∃ s' r, s.get t = some (s', r) ∧ s'.Shares buf size flag handles ∧
      ((r = .waits ∧ s.pool.numFree = 0) ∨ ∃ b, r = .bulk b ∧ HandsOut handles s t b s') := by
  by_cases hfree : s.pool.numFree = 0
  · refine ⟨_, _, if_pos hfree, ?_, .inl ⟨rfl, hfree⟩⟩
    exact ⟨hs.sound, hs.perm⟩
  · obtain ⟨b, p', hget, _, hhands, hshares⟩ := hs.handOut hreg hfree t
    refine ⟨_, _, ?_, hshares, .inr ⟨b, rfl, hhands⟩⟩
    rw [State.get, if_neg hfree, hget]
    rfl

theorem State.Shares.tryget (hreg : Registered hg buf size flag handles)
    (hs : s.Shares buf size flag handles) (t : Thread) :
    ∃ s' b, perform hg s (.tryget t) = some (s', .bulk b) ∧ s'.Shares buf size flag handles ∧
      (b = null ↔ s.pool.numFree = 0) ∧ (b = null → s' = s) ∧
      (b ≠ null → HandsOut handles s t b s') := by
  by_cases hfree : s.pool.numFree = 0
  · have hsame : s.handOut t null s.pool = s := by simp [State.handOut]
    refine ⟨s, null, ?_, hs, by simp [hfree], fun _ => rfl, fun h => absurd rfl h⟩
    rw [perform, Pool.bpTryget, if_pos hfree, Option.map_some]
    exact congrArg (fun s => some (s, Reply.bulk null)) hsame
  · obtain ⟨b, p', hget, hnull, hhands, hshares⟩ := hs.handOut hreg hfree t
    refine ⟨_, b, ?_, hshares, by simp [hnull, hfree], fun h => absurd h hnull, fun _ => hhands⟩
    rw [perform, Pool.bpTryget, if_neg hfree, hget]
    rfl

/-- A proper step stays inside the array and keeps the handles shared out. -/
theorem State.Shares.perform (hreg : Registered hg buf size flag handles)
    (hs : s.Shares buf size flag handles) {a : Step} (ha : Proper hg s a) :
    ∃ s' r, perform hg s a = some (s', r) ∧ s'.Shares buf size flag handles := by
  cases a with
  | get t =>
      obtain ⟨s', r, hget, hs', _⟩ := hs.get hreg t
      exact ⟨s', r, hget, hs'⟩
  | wake t =>
      have hs : ({ s with waiting := s.waiting.erase t } : State).Shares buf size flag handles :=
        ⟨hs.sound, hs.perm⟩
      obtain ⟨s', r, hget, hs', _⟩ := hs.get hreg t
      exact ⟨s', r, hget, hs'⟩
  | tryget t =>
      obtain ⟨s', b, htryget, hs', _⟩ := hs.tryget hreg t
      exact ⟨s', _, htryget, hs'⟩
  | release t b =>
      obtain hheld | hrejected := ha
      · obtain ⟨p', hrelease, _, hs'⟩ := hs.release hreg hheld
        refine ⟨_, .code 0, ?_, hs'⟩
        rw [Bulk.perform, hrelease]
        rfl
      · refine ⟨s, .code (-1), ?_, hs⟩
        rw [Bulk.perform, Pool.release, hrejected]
        rfl

theorem State.Shares.step (hreg : Registered hg buf size flag handles)
    (hs : s.Shares buf size flag handles) {a : Step} (ha : Proper hg s a) {s' : State}
    (hstep : step hg s a = some s') : s'.Shares buf size flag handles := by
  obtain ⟨s'', r, hperform, hs''⟩ := hs.perform hreg ha
  rw [Bulk.step] at hstep
  split at hstep
  · rw [hperform] at hstep
    exact Option.some.inj hstep ▸ hs''
  · cases hstep

/-! ## Every interleaving -/

/-- A handle is given back by the thread that holds it. -/
def ByHolder (s : State) : Step → Prop
  | .release t b => (t, b) ∈ s.held
  | .get _ | .wake _ | .tryget _ => True

instance : ∀ s a, Decidable (ByHolder s a)
  | s, .release t b => inferInstanceAs (Decidable ((t, b) ∈ s.held))
  | _, .get _ | _, .wake _ | _, .tryget _ => inferInstanceAs (Decidable True)

theorem ByHolder.proper {a : Step} (h : ByHolder s a) : Proper hg s a := by
  cases a with
  | release t b => exact .inl (List.mem_map.mpr ⟨(t, b), h, rfl⟩)
  | get _ => trivial
  | wake _ => trivial
  | tryget _ => trivial

/-- The free end holds what nobody holds, and nothing is held twice. -/
structure Exclusive (handles : List Handle) (s : State) : Prop where
  numFree_le : s.pool.numFree ≤ s.pool.count
  nodup_free : s.pool.free.Nodup
  mem_free : ∀ b, b ∈ s.pool.free ↔ b ∈ handles ∧ ¬s.Held b
  own_of_held : ∀ b, s.Held b → b ∈ handles
  nodup_held : s.heldHandles.Nodup

theorem State.Shares.exclusive (hreg : Registered hg buf size flag handles)
    (hs : s.Shares buf size flag handles) : Exclusive handles s := by
  have hnodup := List.nodup_append.mp (hs.perm.nodup_iff.mpr hreg.nodup)
  have hmem : ∀ b, b ∈ handles ↔ b ∈ s.pool.free ∨ s.Held b := fun b =>
    hs.perm.mem_iff.symm.trans List.mem_append
  refine ⟨hs.sound.count_eq ▸ hs.sound.numFree_le, hnodup.1, fun b => ?_, fun b hb => ?_,
    hnodup.2.1⟩
  · constructor
    · intro hb
      exact ⟨(hmem b).mpr (.inl hb), fun hheld => hnodup.2.2 b hb b hheld rfl⟩
    · rintro ⟨hown, hheld⟩
      exact ((hmem b).mp hown).resolve_right hheld
  · exact (hmem b).mpr (.inr hb)

/-- A blocking call waits while nothing is free, and else is handed a handle. -/
def WaitsOrHandsOut (handles : List Handle) (s : State) (t : Thread)
    (result : Option (State × Reply)) : Prop :=
  ∃ s' r, result = some (s', r) ∧
    ((r = .waits ∧ s.pool.numFree = 0) ∨ ∃ b, r = .bulk b ∧ HandsOut handles s t b s')

/-- How the calls are to be answered. -/
def Answered (hg : Mercury) (handles : List Handle) (s : State) : Step → Prop
  | .get t => WaitsOrHandsOut handles s t (perform hg s (.get t))
  | .wake t => WaitsOrHandsOut handles s t (perform hg s (.wake t))
  | .tryget t =>
      ∃ s' b, perform hg s (.tryget t) = some (s', .bulk b) ∧
        (b = null ↔ ∀ h ∈ handles, s.Held h) ∧ (b ≠ null → HandsOut handles s t b s')
  | .release t b =>
      ∃ s', perform hg s (.release t b) = some (s', .code 0) ∧ b ∈ s'.pool.free ∧ ¬s'.Held b

theorem State.Shares.answered (hreg : Registered hg buf size flag handles)
    (hs : s.Shares buf size flag handles) {a : Step} (ha : ByHolder s a) :
    Answered hg handles s a := by
  cases a with
  | get t =>
      obtain ⟨s', r, hget, _, hanswer⟩ := hs.get hreg t
      exact ⟨s', r, hget, hanswer⟩
  | wake t =>
      have hs : ({ s with waiting := s.waiting.erase t } : State).Shares buf size flag handles :=
        ⟨hs.sound, hs.perm⟩
      obtain ⟨s', r, hget, _, hwaits | ⟨b, hr, hhands⟩⟩ := hs.get hreg t
      · exact ⟨s', r, hget, .inl hwaits⟩
      · exact ⟨s', r, hget, .inr ⟨b, hr, hhands.own, hhands.not_held, hhands.held_eq⟩⟩
  | tryget t =>
      obtain ⟨s', b, htryget, _, hnull, _, hhands⟩ := hs.tryget hreg t
      exact ⟨s', b, htryget, hnull.trans (hs.numFree_eq_zero_iff hreg), hhands⟩
  | release t b =>
      have hheld : s.Held b := List.mem_map.mpr ⟨(t, b), ha, rfl⟩
      obtain ⟨p', hrelease, hpush, hs'⟩ := hs.release hreg hheld
      have hfree : b ∈ p'.free := hpush ▸ List.mem_cons_self
      refine ⟨{ s.giveBack b with pool := p' }, ?_, hfree, ?_⟩
      · rw [Bulk.perform, hrelease]
        rfl
      · exact ((hs'.exclusive hreg).mem_free b |>.mp hfree).2

/-- In every interleaving of the calls, where handles are given back by the
threads that hold them, the free end of the array holds the handles that nobody
holds, and every call is answered as it should be. -/
theorem held_by_one_thread (hreg : Registered hg buf size flag handles) {as : List Step}
    (hrun : Runs.Run (step hg) (fun s a _ => ByHolder s a)
      (State.initial (Pool.created buf size flag handles)) as s) :
    Exclusive handles s ∧ ∀ a, ByHolder s a → Answered hg handles s a := by
  have hs : s.Shares buf size flag handles := by
    refine hrun.invariant (P := State.Shares buf size flag handles) ?_
      (shares_initial hreg.count_lt)
    intro s a s' hs hby hstep
    exact hs.step hreg hby.proper hstep
  exact ⟨hs.exclusive hreg, fun a ha => hs.answered hreg ha⟩

/-- Mercury with handles for the consecutive segments of 8 bytes from 4096 on. -/
def segments : Mercury where
  getSize _ := 8
  access b offset _ _ := some (4096 + (b - 1) * 8 + offset, 8)

theorem registered_segments : Registered segments 4096 8 0 [1, 2] where
  nodup := by decide
  ne_null := by decide
  fits := by decide
  count_lt := by decide
  getSize _ _ := rfl
  access i b hi := by
    match i, hi with
    | 0, hi => rw [← Option.some.inj hi]; rfl
    | 1, hi => rw [← Option.some.inj hi]; rfl
    | i + 2, hi => cases hi

/-- The third thread waits, and is handed what the first one gives back. -/
def exchange : List Step := [.get 0, .tryget 1, .get 2, .release 0 1, .wake 2]

theorem held_by_one_thread_exchange :
    ∃ s, Runs.Run (step segments) (fun s a _ => ByHolder s a)
        (State.initial (Pool.created 4096 8 0 [1, 2])) exchange s ∧
      s.held = [(2, 1), (1, 2)] ∧ Exclusive [1, 2] s ∧
      ∀ a, ByHolder s a → Answered segments [1, 2] s a := by
  obtain ⟨s, hrun, hheld⟩ : ∃ s, Runs.Run (step segments) (fun s a _ => ByHolder s a)
      (State.initial (Pool.created 4096 8 0 [1, 2])) exchange s ∧ s.held = [(2, 1), (1, 2)] :=
    Runs.run_of_exec_map (f := State.held) (by decide)
  exact ⟨s, hrun, hheld, held_by_one_thread registered_segments hrun⟩

end Margo.Bulk
