import Margo.Lib.SwapRemove
import Mathlib.Data.Nat.Init

/-!
# Time series of the default monitor

A time series of `margo-default-monitoring.c`, the arrays of series that the
monitor keeps for the pools, and what its callbacks and its sampler do to one
such array.

## Implementation notes

A new frame becomes the last one of its series, but the frame before never
gets a `next`: besides no frame, one frame and two frames that do not know of
each other there is nothing a series can point to. An entry of an array is
`none` if it is outside of the allocated memory or was never given a capacity.
The entry behind those that `memmove` moved keeps its frames, which it then
shares with the entry before; it is read as it was. Next to every array stand
the samples it should hold; no function reads them.
-/

namespace Margo.Monitor

open Lib

/-- `timedval_t`. Timestamps are only stored. -/
structure Timedval where
  timestamp : Nat
  value : Nat
  deriving DecidableEq, Repr

/-- `timedval_frame_t`. A frame is allocated for a value. -/
structure Frame where
  data : List Timedval
  nonempty : data ≠ []
  deriving DecidableEq, Repr

/-- A new frame with its first value. -/
def Frame.new (v : Timedval) : Frame := ⟨[v], List.cons_ne_nil v []⟩

/-- `frame->data[frame->size++] = v`. -/
def Frame.push (f : Frame) (v : Timedval) : Frame := ⟨f.data ++ [v], by simp⟩

/-- What `first_frame` and `last_frame` point to. -/
inductive Frames
  | empty
  | one (frame : Frame)
  | detached (first last : Frame)
  deriving DecidableEq, Repr

/-- `time_series_t`. -/
structure TimeSeries where
  frameCapacity : Nat
  frames : Frames
  deriving DecidableEq, Repr

/-- `time_series_append`. -/
def timeSeriesAppend (s : TimeSeries) (v : Timedval) : TimeSeries where
  frameCapacity := s.frameCapacity
  frames :=
    match s.frames with
    | .empty => .one (.new v)
    | .one f =>
        if f.data.length = s.frameCapacity then .detached f (.new v) else .one (f.push v)
    | .detached f l =>
        if l.data.length = s.frameCapacity then .detached f (.new v) else .detached f (l.push v)

/-- `time_series_clear`. -/
def timeSeriesClear (s : TimeSeries) : TimeSeries := ⟨s.frameCapacity, .empty⟩

/-- The values found from the first frame on. -/
def TimeSeries.values (s : TimeSeries) : List Timedval :=
  match s.frames with
  | .empty => []
  | .one f | .detached f _ => f.data

/-- The next value needs a second frame. -/
def TimeSeries.full (s : TimeSeries) : Bool :=
  match s.frames with
  | .one f => f.data.length == s.frameCapacity
  | _ => false

/-- The series has lost a frame. -/
def TimeSeries.broken (s : TimeSeries) : Bool :=
  match s.frames with
  | .detached _ _ => true
  | _ => false

theorem values_eq_nil {s : TimeSeries} : s.values = [] ↔ s.frames = .empty := by
  cases hs : s.frames with
  | empty => simp [TimeSeries.values, hs]
  | one f => simp [TimeSeries.values, hs, f.nonempty]
  | detached f l => simp [TimeSeries.values, hs, f.nonempty]

/-- A value appended to a series can be read exactly if it needs no second
frame. -/
theorem values_append {s : TimeSeries} (h : s.broken = false) (v : Timedval) :
    (timeSeriesAppend s v).values = s.values ++ [v] ↔ s.full = false := by
  cases hs : s.frames with
  | empty => simp [TimeSeries.values, TimeSeries.full, timeSeriesAppend, hs, Frame.new]
  | one f =>
      by_cases hfull : f.data.length = s.frameCapacity
      · simp [TimeSeries.values, TimeSeries.full, timeSeriesAppend, hs, hfull]
      · simp [TimeSeries.values, TimeSeries.full, timeSeriesAppend, hs, hfull, Frame.push]
  | detached f l => simp [TimeSeries.broken, hs] at h

theorem broken_append {s : TimeSeries} (h : s.broken = false) (v : Timedval) :
    (timeSeriesAppend s v).broken = s.full := by
  cases hs : s.frames with
  | empty => simp [TimeSeries.broken, TimeSeries.full, timeSeriesAppend, hs]
  | one f =>
      by_cases hfull : f.data.length = s.frameCapacity
      · simp [TimeSeries.broken, TimeSeries.full, timeSeriesAppend, hs, hfull]
      · simp [TimeSeries.broken, TimeSeries.full, timeSeriesAppend, hs, hfull]
  | detached f l => simp [TimeSeries.broken, hs] at h

/-! ## Arrays of series -/

/-- `pool_size_time_series` or `pool_total_size_time_series`, and for each pool
of the registry the samples taken of it since it was added or the series were
last reset. -/
structure Track where
  series : List (Option TimeSeries)
  samples : List (List Timedval)
  deriving DecidableEq, Repr

/-- The entry at an index. -/
def Track.slot (t : Track) (i : Nat) : Option TimeSeries := t.series[i]?.join

/-- What can be read at an index. -/
def Track.entry (t : Track) (i : Nat) : Option (List Timedval) :=
  (t.slot i).map TimeSeries.values

/-- There is an entry for each of `n` pools, with the samples taken of it. -/
def Track.Follows (n : Nat) (t : Track) : Prop :=
  ∀ i < n, (t.entry i).isSome = true ∧ t.entry i = t.samples[i]?

instance (n : Nat) (t : Track) : Decidable (t.Follows n) :=
  inferInstanceAs (Decidable (∀ i < n, _ ∧ _))

/-- The arrays that `__margo_default_monitor_initialize` allocates. -/
def initialTrack (n : Nat) : Track where
  series := List.replicate n (some ⟨256, .empty⟩)
  samples := List.replicate n []

/-- `__margo_default_monitor_on_add_pool` at the start of an addition to `n`
pools: `realloc`, then a new entry with the capacity of the one before. -/
def onAddPool (n : Nat) (t : Track) : Track where
  series := (List.range n).map t.slot ++
    [if n = 0 then none else (t.slot (n - 1)).map fun s => ⟨s.frameCapacity, .empty⟩]
  samples := t.samples

/-- `__margo_default_monitor_on_remove_pool` after the removal of pool `i`, which
leaves `n` pools: clear entry `i`, then `memmove`. -/
def onRemovePool (n i : Nat) (t : Track) : Track where
  series :=
    let cleared := t.series.modify i (Option.map timeSeriesClear)
    cleared.mapIdx fun j s => if i ≤ j ∧ j < n then cleared[j + 1]?.join else s
  samples := t.samples

/-- `update_pool_time_series`, with the values read for each of `n` pools. -/
def updatePools (n : Nat) (values : Nat → Option Timedval) (t : Track) : Track where
  series := t.series.mapIdx fun i s =>
    match values i with
    | some v => if i < n then s.map (timeSeriesAppend · v) else s
    | none => s
  samples := t.samples.mapIdx fun i l => l ++ (values i).toList

/-- The end of `pool_time_series_to_json` if it is asked to reset the series. -/
def resetPools (n : Nat) (t : Track) : Track where
  series := t.series.mapIdx fun i s => if i < n then s.map timeSeriesClear else s
  samples := t.samples.map fun _ => []

/-- A pool has come to the registry. -/
def poolAdded (t : Track) : Track := { t with samples := t.samples ++ [[]] }

/-- The registry has removed pool `i`. -/
def poolRemoved (i : Nat) (t : Track) : Track :=
  { t with samples := swapRemove t.samples i }

/-! ## Entries after each operation -/

theorem slot_onAddPool (n : Nat) (t : Track) {i : Nat} (hi : i < n) :
    (onAddPool n t).slot i = t.slot i := by
  simp [Track.slot, onAddPool, List.getElem?_append, hi]

theorem slot_onAddPool_last (n : Nat) (t : Track) :
    (onAddPool n t).slot n =
      if n = 0 then none else (t.slot (n - 1)).map fun s => ⟨s.frameCapacity, .empty⟩ := by
  simp [Track.slot, onAddPool]

theorem slot_onRemovePool (n i j : Nat) (t : Track) :
    (onRemovePool n i t).slot j =
      if i ≤ j ∧ j < n then t.slot (j + 1)
      else if i = j then (t.slot j).map timeSeriesClear else t.slot j := by
  simp only [Track.slot, onRemovePool, List.getElem?_mapIdx, List.getElem?_modify]
  by_cases hj : j < t.series.length
  · by_cases hmoved : i ≤ j ∧ j < n
    · have hne : i ≠ j + 1 := by omega
      simp [hmoved, hne, List.getElem?_eq_getElem hj]
    · by_cases hij : i = j
      · subst hij
        simp [List.getElem?_eq_getElem hj]
      · simp [hmoved, hij, List.getElem?_eq_getElem hj]
  · have hend : t.series[j]? = none := List.getElem?_eq_none (by omega)
    have hnext : t.series[j + 1]? = none := List.getElem?_eq_none (by omega)
    simp [hend, hnext]

theorem slot_updatePools (n : Nat) (values : Nat → Option Timedval) (t : Track) {i : Nat}
    (hi : i < n) :
    (updatePools n values t).slot i =
      match values i with
      | some v => (t.slot i).map (timeSeriesAppend · v)
      | none => t.slot i := by
  simp only [Track.slot, updatePools, List.getElem?_mapIdx, hi, if_true]
  cases values i <;> cases t.series[i]? <;> rfl

theorem slot_resetPools (n : Nat) (t : Track) {i : Nat} (hi : i < n) :
    (resetPools n t).slot i = (t.slot i).map timeSeriesClear := by
  simp only [Track.slot, resetPools, List.getElem?_mapIdx, hi, if_true]
  cases t.series[i]? <;> rfl

/-! ## What keeps an array in step with the pools -/

/-- There is a list of samples for each of `n` pools, and no entry has lost a
frame. -/
def Track.Sound (n : Nat) (t : Track) : Prop :=
  t.samples.length = n ∧ ∀ i < n, ∀ s, t.slot i = some s → s.broken = false

/-- The entry at an index is empty. -/
def Track.Vacant (n : Nat) (t : Track) : Prop := (t.slot n).map (·.frames) = some .empty

instance (n : Nat) (t : Track) : Decidable (t.Vacant n) :=
  inferInstanceAs (Decidable (_ = _))

/-- The pools after pool `i` have the same samples. -/
def Track.AlikeAfter (n i : Nat) (t : Track) : Prop :=
  ∀ l < n, i < l → t.samples[l]? = t.samples[l + 1]?

instance (n i : Nat) (t : Track) : Decidable (t.AlikeAfter n i) :=
  inferInstanceAs (Decidable (∀ l < n, _ → _))

/-- No series that gets a value is full. -/
def Track.HasRoom (n : Nat) (values : Nat → Option Timedval) (t : Track) : Prop :=
  ∀ i < n, (values i).isSome = true → (t.slot i).all (!·.full) = true

instance (n : Nat) (values : Nat → Option Timedval) (t : Track) :
    Decidable (t.HasRoom n values) :=
  inferInstanceAs (Decidable (∀ i < n, _ → _))

section

variable {n : Nat} {t : Track}

theorem Track.Follows.slot (h : t.Follows n) {i : Nat} (hi : i < n) :
    ∃ s, t.slot i = some s ∧ t.samples[i]? = some s.values := by
  obtain ⟨hsome, heq⟩ := h i hi
  cases hs : t.slot i with
  | none => simp [Track.entry, hs] at hsome
  | some s => exact ⟨s, rfl, by rw [← heq, Track.entry, hs]; rfl⟩

/-- An entry that is there and holds the samples. -/
theorem entry_iff {u : Track} {s : TimeSeries} {i : Nat} (h : u.slot i = some s) :
    ((u.entry i).isSome = true ∧ u.entry i = u.samples[i]?) ↔
      u.samples[i]? = some s.values := by
  simp [Track.entry, h, eq_comm]

theorem follows_onAddPool (h : t.Follows n) : (onAddPool n t).Follows n := by
  intro i hi
  obtain ⟨s, hs, hval⟩ := h.slot hi
  have hslot : (onAddPool n t).slot i = some s := (slot_onAddPool n t hi).trans hs
  exact (entry_iff hslot).mpr hval

/-- The calling instance's array after an addition. -/
theorem follows_added (hlen : t.samples.length = n) (h : t.Follows n) :
    (poolAdded (onAddPool n t)).Follows (n + 1) ↔ n ≠ 0 := by
  have hlast : (poolAdded (onAddPool n t)).samples[n]? = some [] := by
    simp [poolAdded, onAddPool, ← hlen]
  constructor
  · intro hf hn
    obtain ⟨s, hs, -⟩ := hf.slot (Nat.lt_succ_self n)
    have hnone := slot_onAddPool_last n t
    rw [if_pos hn] at hnone
    exact absurd (hs.symm.trans hnone) (by simp)
  · intro hn i hi
    by_cases hin : i = n
    · subst hin
      obtain ⟨s, hs, -⟩ := h.slot (show i - 1 < i by omega)
      have hslot : (poolAdded (onAddPool i t)).slot i = some ⟨s.frameCapacity, .empty⟩ := by
        have hnew := slot_onAddPool_last i t
        rw [if_neg hn, hs] at hnew
        exact hnew
      exact (entry_iff hslot).mpr hlast
    · have hlt : i < n := by omega
      have hsamples : (poolAdded (onAddPool n t)).samples[i]? = t.samples[i]? :=
        List.getElem?_append_left (by rw [← hlen] at hlt; exact hlt)
      have := follows_onAddPool h i hlt
      rw [hsamples]
      exact this

/-- Another instance's array after an addition. -/
theorem follows_poolAdded (hlen : t.samples.length = n) (h : t.Follows n) :
    (poolAdded t).Follows (n + 1) ↔ t.Vacant n := by
  have hlast : (poolAdded t).samples[n]? = some [] := by simp [poolAdded, ← hlen]
  constructor
  · intro hf
    obtain ⟨s, hs, hval⟩ := hf.slot (Nat.lt_succ_self n)
    have hnil : s.values = [] := by simpa using hval.symm.trans hlast
    have hslot : t.slot n = some s := hs
    simp [Track.Vacant, hslot, values_eq_nil.mp hnil]
  · intro hv i hi
    by_cases hin : i = n
    · subst hin
      obtain ⟨s, hs, hempty⟩ := Option.map_eq_some_iff.mp hv
      have hslot : (poolAdded t).slot i = some s := hs
      rw [entry_iff hslot, hlast, values_eq_nil.mpr hempty]
    · have hlt : i < n := by omega
      have hsamples : (poolAdded t).samples[i]? = t.samples[i]? :=
        List.getElem?_append_left (by rw [← hlen] at hlt; exact hlt)
      rw [hsamples]
      exact h i hlt

/-- The samples by index after a removal. -/
theorem samples_poolRemoved (hlen : t.samples.length = n + 1) (i : Nat) {j : Nat}
    (hj : j < n) :
    (poolRemoved i t).samples[j]? = if i = j then t.samples[n]? else t.samples[j]? := by
  obtain hnil | ⟨init, last, hconcat⟩ := List.eq_nil_or_concat t.samples
  · simp [hnil] at hlen
  rw [List.concat_eq_append] at hconcat
  have hinit : init.length = n := by simpa [hconcat] using hlen
  have hlast : t.samples[n]? = some last := by simp [hconcat, ← hinit]
  have hbefore : t.samples[j]? = init[j]? := by
    rw [hconcat]
    exact List.getElem?_append_left (by omega)
  rw [hlast, hbefore]
  simp only [poolRemoved, hconcat]
  exact getElem?_swapRemove init last i j (by omega)

theorem Track.AlikeAfter.eq_last {i : Nat} (h : t.AlikeAfter n i) {l : Nat} (hil : i < l)
    (hln : l ≤ n) : t.samples[l]? = t.samples[n]? := by
  -- Downwards from the last pool.
  induction hln using Nat.decreasingInduction with
  | self => rfl
  | of_succ k hk ih => exact (h k hk hil).trans (ih (Nat.lt_succ_of_lt hil))

/-- The calling instance's array after a removal: the entries are shifted, while
the last pool has taken the place of the one removed. -/
theorem follows_removed (hlen : t.samples.length = n + 1) (h : t.Follows (n + 1))
    (i : Nat) :
    (poolRemoved i (onRemovePool n i t)).Follows n ↔ t.AlikeAfter n i := by
  have hsamples : ∀ j < n, (poolRemoved i (onRemovePool n i t)).samples[j]? =
      if i = j then t.samples[n]? else t.samples[j]? := by
    intro j hj
    exact samples_poolRemoved (t := onRemovePool n i t) hlen i hj
  have hmoved : ∀ j < n, i ≤ j → ∃ s, (poolRemoved i (onRemovePool n i t)).slot j = some s ∧
      t.samples[j + 1]? = some s.values := by
    intro j hj hij
    obtain ⟨s, hs, hval⟩ := h.slot (show j + 1 < n + 1 by omega)
    refine ⟨s, ?_, hval⟩
    have hslot := slot_onRemovePool n i j t
    rw [if_pos ⟨hij, hj⟩, hs] at hslot
    exact hslot
  constructor
  · intro hf l hl hil
    obtain ⟨s, hs, hval⟩ := hmoved l hl (by omega)
    have hnew := (entry_iff hs).mp (hf l hl)
    rw [hsamples l hl, if_neg (by omega)] at hnew
    rw [hnew, hval]
  · intro hlike j hj
    by_cases hij : i ≤ j
    · obtain ⟨s, hs, hval⟩ := hmoved j hj hij
      rw [entry_iff hs, hsamples j hj, ← hval]
      by_cases heq : i = j
      · rw [if_pos heq]
        exact (hlike.eq_last (by omega) (by omega)).symm
      · rw [if_neg heq]
        exact hlike j hj (by omega)
    · obtain ⟨s, hs, hval⟩ := h.slot (show j < n + 1 by omega)
      have hslot := slot_onRemovePool n i j t
      rw [if_neg (by omega), if_neg (by omega), hs] at hslot
      have hslot' : (poolRemoved i (onRemovePool n i t)).slot j = some s := hslot
      rw [entry_iff hslot', hsamples j hj, if_neg (by omega), hval]

/-- Another instance's array after a removal. -/
theorem follows_poolRemoved (hlen : t.samples.length = n + 1) (h : t.Follows (n + 1))
    (i : Nat) :
    (poolRemoved i t).Follows n ↔ (i < n → t.samples[i]? = t.samples[n]?) := by
  constructor
  · intro hf hin
    obtain ⟨s, hs, hval⟩ := h.slot (show i < n + 1 by omega)
    have hslot : (poolRemoved i t).slot i = some s := hs
    have hnew := (entry_iff hslot).mp (hf i hin)
    rw [samples_poolRemoved hlen i hin, if_pos rfl] at hnew
    rw [hval, hnew]
  · intro hlike j hj
    obtain ⟨s, hs, hval⟩ := h.slot (show j < n + 1 by omega)
    have hslot : (poolRemoved i t).slot j = some s := hs
    rw [entry_iff hslot, samples_poolRemoved hlen i hj, ← hval]
    by_cases hij : i = j
    · subst hij
      rw [if_pos rfl, hlike hj]
    · rw [if_neg hij]

/-- An array after a sample. -/
theorem follows_updatePools (hsound : t.Sound n) (h : t.Follows n)
    (values : Nat → Option Timedval) :
    (updatePools n values t).Follows n ↔ t.HasRoom n values := by
  apply forall₂_congr
  intro i hi
  obtain ⟨s, hs, hval⟩ := h.slot hi
  have hslot := slot_updatePools n values t hi
  have hsamples : (updatePools n values t).samples[i]? = some (s.values ++ (values i).toList) := by
    simp [updatePools, List.getElem?_mapIdx, hval]
  cases hv : values i with
  | none =>
      rw [hv, hs] at hslot
      rw [hv] at hsamples
      rw [entry_iff hslot, hsamples]
      simp
  | some v =>
      rw [hv, hs] at hslot
      rw [hv] at hsamples
      rw [entry_iff hslot, hsamples]
      have hread := values_append (hsound.2 i hi s hs) v
      rw [Option.some.injEq, eq_comm, Option.toList_some, hread]
      simp [hs]

theorem follows_resetPools (h : t.Follows n) : (resetPools n t).Follows n := by
  intro i hi
  obtain ⟨s, hs, hval⟩ := h.slot hi
  have hslot : (resetPools n t).slot i = some (timeSeriesClear s) := by
    rw [slot_resetPools n t hi, hs]
    rfl
  rw [entry_iff hslot]
  simp only [resetPools, List.getElem?_map, hval]
  rfl

/-! ## No frame is lost -/

theorem sound_onAddPool (h : t.Sound n) : (onAddPool n t).Sound n := by
  refine ⟨h.1, ?_⟩
  intro i hi s hs
  rw [slot_onAddPool n t hi] at hs
  exact h.2 i hi s hs

theorem sound_added (h : t.Sound n) : (poolAdded (onAddPool n t)).Sound (n + 1) := by
  refine ⟨by simp [poolAdded, onAddPool, h.1], ?_⟩
  intro i hi s hs
  have hslot : (onAddPool n t).slot i = some s := hs
  by_cases hin : i = n
  · subst hin
    rw [slot_onAddPool_last] at hslot
    split at hslot
    · cases hslot
    · obtain ⟨_, -, rfl⟩ := Option.map_eq_some_iff.mp hslot
      rfl
  · exact (sound_onAddPool h).2 i (by omega) s hslot

theorem sound_poolAdded (h : t.Sound n) (hv : t.Vacant n) : (poolAdded t).Sound (n + 1) := by
  refine ⟨by simp [poolAdded, h.1], ?_⟩
  intro i hi s hs
  have hslot : t.slot i = some s := hs
  by_cases hin : i = n
  · subst hin
    have hempty : s.frames = .empty := by simpa [Track.Vacant, hslot] using hv
    simp [TimeSeries.broken, hempty]
  · exact h.2 i (by omega) s hslot

theorem length_poolRemoved (hlen : t.samples.length = n + 1) (i : Nat) :
    (poolRemoved i t).samples.length = n := by
  simp [poolRemoved, length_swapRemove, hlen]

theorem sound_removed (h : t.Sound (n + 1)) (i : Nat) :
    (poolRemoved i (onRemovePool n i t)).Sound n := by
  refine ⟨length_poolRemoved (t := onRemovePool n i t) h.1 i, ?_⟩
  intro j hj s hs
  have hslot : (onRemovePool n i t).slot j = some s := hs
  rw [slot_onRemovePool] at hslot
  split at hslot
  · exact h.2 (j + 1) (by omega) s hslot
  · split at hslot
    · obtain ⟨_, -, rfl⟩ := Option.map_eq_some_iff.mp hslot
      rfl
    · exact h.2 j (by omega) s hslot

theorem sound_poolRemoved (h : t.Sound (n + 1)) (i : Nat) : (poolRemoved i t).Sound n := by
  refine ⟨length_poolRemoved h.1 i, ?_⟩
  intro j hj s hs
  exact h.2 j (by omega) s hs

theorem sound_updatePools {values : Nat → Option Timedval} (h : t.Sound n)
    (hroom : t.HasRoom n values) : (updatePools n values t).Sound n := by
  refine ⟨by simp [updatePools, h.1], ?_⟩
  intro i hi s hs
  rw [slot_updatePools n values t hi] at hs
  cases hv : values i with
  | none =>
      rw [hv] at hs
      exact h.2 i hi s hs
  | some v =>
      rw [hv] at hs
      obtain ⟨s₀, hs₀, rfl⟩ := Option.map_eq_some_iff.mp hs
      rw [broken_append (h.2 i hi s₀ hs₀)]
      have := hroom i hi (by rw [hv]; rfl)
      simpa [hs₀] using this

theorem sound_resetPools (h : t.Sound n) : (resetPools n t).Sound n := by
  refine ⟨by simp [resetPools, h.1], ?_⟩
  intro i hi s hs
  rw [slot_resetPools n t hi] at hs
  obtain ⟨_, -, rfl⟩ := Option.map_eq_some_iff.mp hs
  rfl

end

end Margo.Monitor
