import Margo.Lib.Paths
import Margo.Monitor.Series
import Mathlib.Algebra.GroupWithZero.Nat
import Mathlib.Data.List.Induction
import Mathlib.Data.List.Infix

/-!
# The frames of a time series in memory

`time_series_append` and `time_series_clear` on the three pointers of a series: to its first
frame, to its last frame, and from each frame to the next one. A frame is given out when
there is none or the last one is full; nothing ever stores the new frame in the `next` of
the one before.

## Implementation notes

Frames are numbered in the order in which they are allocated, and `malloc` gives each of
them once. `freed` lists the calls of `free`. The monitor adds the size of a bulk transfer to
a 64-bit counter before Mercury is asked for the transfer; the bytes that Mercury transfers
are events of their own, which no step of the monitor reads.
-/

namespace Margo.Monitor.FrameMemory

open Function Lib.Paths

/-- `time_series_t` and the memory of its frames. -/
structure SeriesMemory where
  frameCapacity : Nat
  firstFrame : Option Nat
  lastFrame : Option Nat
  next : Nat → Option Nat
  /-- The first `size` entries of a frame. -/
  data : Nat → List Timedval
  malloced : Nat
  freed : List Nat

/-- A series before its first value. -/
def emptySeries (frameCapacity : Nat) : SeriesMemory where
  frameCapacity := frameCapacity
  firstFrame := none
  lastFrame := none
  next _ := none
  data _ := []
  malloced := 0
  freed := []

/-- A new frame, which becomes the last one. -/
def mallocFrame (series : SeriesMemory) : SeriesMemory :=
  let frame := series.malloced
  { series with
    malloced := frame + 1
    next := update series.next frame none
    data := update series.data frame []
    lastFrame := some frame }

/-- The frame of the next value. -/
def frameFor (series : SeriesMemory) : Nat × SeriesMemory :=
  match series.lastFrame with
  | none => (series.malloced, mallocFrame series)
  | some frame =>
      if (series.data frame).length = series.frameCapacity then
        (series.malloced, mallocFrame series)
      else (frame, series)

/-- `time_series_append`. -/
def timeSeriesAppend (series : SeriesMemory) (v : Timedval) : SeriesMemory :=
  let (frame, series) := frameFor series
  { series with
    firstFrame := series.firstFrame.or (some frame)
    data := update series.data frame (series.data frame ++ [v]) }

/-- The loop of `time_series_clear`. -/
def clearFrames : Nat → SeriesMemory → SeriesMemory
  | 0, series => series
  | fuel + 1, series =>
      match series.firstFrame with
      | none => series
      | some frame =>
          clearFrames fuel
            { series with freed := series.freed ++ [frame], firstFrame := series.next frame }

/-- `time_series_clear`: there are no more frames than were ever allocated. -/
def timeSeriesClear (series : SeriesMemory) : SeriesMemory :=
  { clearFrames series.malloced series with lastFrame := none }

/-- The frames that a dump walks over. -/
def SeriesMemory.frames (series : SeriesMemory) : List Nat :=
  walk series.next series.malloced series.firstFrame

/-- The values that a dump lists. -/
def SeriesMemory.values (series : SeriesMemory) : List Timedval :=
  series.frames.flatMap series.data

/-- What is done with a series. -/
inductive SeriesOp
  | append (v : Timedval)
  | clear
  deriving DecidableEq, Repr

/-- The series after an operation. -/
def SeriesOp.apply (series : SeriesMemory) : SeriesOp → SeriesMemory
  | .append v => timeSeriesAppend series v
  | .clear => timeSeriesClear series

/-- The series after a sequence of operations. -/
def seriesAfter (frameCapacity : Nat) (ops : List SeriesOp) : SeriesMemory :=
  ops.foldl SeriesOp.apply (emptySeries frameCapacity)

/-- The values since the last clear after one more operation. -/
def SeriesOp.record (values : List Timedval) : SeriesOp → List Timedval
  | .append v => values ++ [v]
  | .clear => []

/-- The values appended since the last clear. -/
def appendedSince (ops : List SeriesOp) : List Timedval := ops.foldl SeriesOp.record []

/-- Nothing is lost: the dump lists the values, it meets every frame that is allocated, and
to clear the series frees what is left of all frames ever allocated, each once. -/
structure Lossless (series : SeriesMemory) (values : List Timedval) : Prop where
  values : series.values = values
  frames : ∀ frame, frame ∈ series.frames ↔ frame < series.malloced ∧ frame ∉ series.freed
  cleared : (timeSeriesClear series).freed.Perm (List.range (timeSeriesClear series).malloced)

/-- Never are there more values between two clears than a frame takes. -/
def OneFrame (frameCapacity : Nat) (ops : List SeriesOp) : Prop :=
  ∀ pre, pre <+: ops → (appendedSince pre).length ≤ frameCapacity

/-! ## The state of a series -/

/-- What holds of every series: no frame is linked to another one, and the ends of the series
are frames that have not been freed. -/
structure Sound (series : SeriesMemory) : Prop where
  next : ∀ frame, series.next frame = none
  first : ∀ frame ∈ series.firstFrame, frame < series.malloced ∧ frame ∉ series.freed
  last : ∀ frame ∈ series.lastFrame, frame < series.malloced ∧ frame ∉ series.freed
  ends : series.firstFrame = none ↔ series.lastFrame = none
  freed : ∀ frame ∈ series.freed, frame < series.malloced
  nodup : series.freed.Nodup

/-- A frame that was allocated cannot be reached and was not freed. -/
def Leaks (series : SeriesMemory) : Prop :=
  ∃ frame, frame < series.malloced ∧ frame ∉ series.freed ∧ series.firstFrame ≠ some frame

section

variable {series : SeriesMemory} {values : List Timedval} {v : Timedval}

theorem sound_emptySeries (frameCapacity : Nat) : Sound (emptySeries frameCapacity) where
  next _ := rfl
  first _ h := absurd h (by simp [emptySeries])
  last _ h := absurd h (by simp [emptySeries])
  ends := Iff.rfl
  freed _ h := absurd h List.not_mem_nil
  nodup := List.nodup_nil

/-- The walk ends behind the first frame. -/
theorem Sound.frames_eq (h : Sound series) : series.frames = series.firstFrame.toList := by
  have hpath : Path series.next series.firstFrame series.firstFrame.toList := by
    cases series.firstFrame with
    | none => rfl
    | some frame => exact ⟨rfl, h.next frame⟩
  apply hpath.walk_eq
  cases hfirst : series.firstFrame with
  | none => exact Nat.zero_le _
  | some frame =>
      have hlt := (h.first frame hfirst).1
      simp only [Option.toList_some, List.length_singleton]
      omega

theorem Sound.values_eq (h : Sound series) :
    series.values = series.firstFrame.toList.flatMap series.data := by
  rw [SeriesMemory.values, h.frames_eq]

theorem clearFrames_none (fuel : Nat) (h : series.firstFrame = none) :
    clearFrames fuel series = series := by
  cases fuel with
  | zero => rfl
  | succ fuel => rw [clearFrames, h]

/-- What is left after a clear. -/
theorem Sound.clear_eq (h : Sound series) :
    timeSeriesClear series =
      { series with
        freed := series.freed ++ series.firstFrame.toList
        firstFrame := none
        lastFrame := none } := by
  rw [timeSeriesClear]
  cases hfirst : series.firstFrame with
  | none => rw [clearFrames_none _ hfirst, Option.toList_none, List.append_nil, ← hfirst]
  | some frame =>
      have hlt := (h.first frame hfirst).1
      obtain ⟨fuel, hfuel⟩ := Nat.exists_eq_succ_of_ne_zero (show series.malloced ≠ 0 by omega)
      rw [hfuel, clearFrames, hfirst]
      simp only
      rw [clearFrames_none _ (h.next frame), h.next frame, ← hfuel]
      rfl

theorem Sound.clear (h : Sound series) : Sound (timeSeriesClear series) := by
  rw [h.clear_eq]
  refine ⟨h.next, by simp, by simp, by simp, ?_, ?_⟩
  · intro frame hframe
    rcases List.mem_append.mp hframe with hframe | hframe
    · exact h.freed frame hframe
    · exact (h.first frame (Option.mem_toList.mp hframe)).1
  · apply h.nodup.append (by cases series.firstFrame <;> simp)
    intro frame hfreed hfirst
    exact (h.first frame (Option.mem_toList.mp hfirst)).2 hfreed

/-- A value goes behind the last one of the last frame, or into a new frame. -/
theorem Sound.append_cases (h : Sound series) (v : Timedval) :
    (∃ frame, series.lastFrame = some frame ∧
      (series.data frame).length ≠ series.frameCapacity ∧
      timeSeriesAppend series v =
        { series with data := update series.data frame (series.data frame ++ [v]) }) ∨
    ((∀ frame ∈ series.lastFrame, (series.data frame).length = series.frameCapacity) ∧
      timeSeriesAppend series v =
        { series with
          malloced := series.malloced + 1
          firstFrame := series.firstFrame.or (some series.malloced)
          lastFrame := some series.malloced
          data := update series.data series.malloced [v] }) := by
  have hmalloc : update series.next series.malloced none = series.next :=
    update_eq_self_iff.mpr (h.next _).symm
  cases hlast : series.lastFrame with
  | none =>
      right
      refine ⟨by simp, ?_⟩
      simp only [timeSeriesAppend, frameFor, hlast, mallocFrame, hmalloc, update_self, update_idem,
        List.nil_append]
  | some frame =>
      by_cases hfull : (series.data frame).length = series.frameCapacity
      · right
        refine ⟨by simpa using hfull, ?_⟩
        simp only [timeSeriesAppend, frameFor, hlast, hfull, if_true, mallocFrame, hmalloc,
          update_self, update_idem, List.nil_append]
      · left
        have hfirst : series.firstFrame.or (some frame) = series.firstFrame := by
          cases hfirst : series.firstFrame with
          | none => simp [h.ends.mp hfirst] at hlast
          | some first => rfl
        refine ⟨frame, rfl, hfull, ?_⟩
        simp only [timeSeriesAppend, frameFor, hlast, hfull, if_false, hfirst]

/-- A frame number that has not been given out is not that of a freed frame. -/
theorem Sound.fresh (h : Sound series) : series.malloced ∉ series.freed := by
  intro hmem
  exact Nat.lt_irrefl _ (h.freed _ hmem)

theorem Sound.append (h : Sound series) (v : Timedval) : Sound (timeSeriesAppend series v) := by
  rcases h.append_cases v with ⟨frame, -, -, happend⟩ | ⟨-, happend⟩
  · rw [happend]
    exact ⟨h.next, h.first, h.last, h.ends, h.freed, h.nodup⟩
  · rw [happend]
    have hlater : ∀ frame, frame < series.malloced ∧ frame ∉ series.freed →
        frame < series.malloced + 1 ∧ frame ∉ series.freed :=
      fun frame hframe => ⟨Nat.lt_succ_of_lt hframe.1, hframe.2⟩
    refine ⟨h.next, ?_, ?_, by simp, ?_, h.nodup⟩
    · intro frame hframe
      cases hfirst : series.firstFrame with
      | none =>
          obtain rfl : series.malloced = frame := by simpa [hfirst] using hframe
          exact ⟨Nat.lt_succ_self _, h.fresh⟩
      | some first =>
          obtain rfl : first = frame := by simpa [hfirst] using hframe
          exact hlater _ (h.first first hfirst)
    · intro frame hframe
      obtain rfl : series.malloced = frame := by simpa using hframe
      exact ⟨Nat.lt_succ_self _, h.fresh⟩
    · exact fun frame hframe => Nat.lt_succ_of_lt (h.freed frame hframe)

/-! ## A frame that is lost stays lost -/

theorem Leaks.append (h : Leaks series) (hsound : Sound series) (v : Timedval) :
    Leaks (timeSeriesAppend series v) := by
  obtain ⟨frame, hlt, hfreed, hfirst⟩ := h
  rcases hsound.append_cases v with ⟨last, -, -, happend⟩ | ⟨-, happend⟩
  · rw [happend]
    exact ⟨frame, hlt, hfreed, hfirst⟩
  · rw [happend]
    refine ⟨frame, Nat.lt_succ_of_lt hlt, hfreed, ?_⟩
    cases hsome : series.firstFrame with
    | none =>
        simp only [Option.none_or, ne_eq, Option.some.injEq]
        omega
    | some first =>
        rw [hsome] at hfirst
        exact hfirst

theorem Leaks.clear (h : Leaks series) (hsound : Sound series) :
    Leaks (timeSeriesClear series) := by
  obtain ⟨frame, hlt, hfreed, hfirst⟩ := h
  rw [hsound.clear_eq]
  refine ⟨frame, hlt, ?_, by simp⟩
  rw [List.mem_append, Option.mem_toList]
  rintro (hmem | hmem)
  · exact hfreed hmem
  · exact hfirst hmem

theorem Leaks.not_lossless (h : Leaks series) (hsound : Sound series) :
    ¬ Lossless series values := by
  intro hlossless
  obtain ⟨frame, hlt, hfreed, hfirst⟩ := h
  have hmem := (hlossless.frames frame).mpr ⟨hlt, hfreed⟩
  rw [hsound.frames_eq, Option.mem_toList] at hmem
  exact hfirst hmem

/-! ## A series of one frame -/

/-- The first frame is also the last one, it holds the values, and every other frame has been
freed. -/
structure Whole (series : SeriesMemory) (values : List Timedval) : Prop extends Sound series where
  content : series.firstFrame.toList.flatMap series.data = values
  room : values.length ≤ series.frameCapacity
  empty : series.firstFrame = none ↔ values = []
  same : series.lastFrame = series.firstFrame
  live : ∀ frame < series.malloced, frame ∉ series.freed → series.firstFrame = some frame

theorem whole_emptySeries (frameCapacity : Nat) : Whole (emptySeries frameCapacity) [] where
  toSound := sound_emptySeries frameCapacity
  content := rfl
  room := Nat.zero_le _
  empty := Iff.intro (fun _ => rfl) fun _ => rfl
  same := rfl
  live _ h := absurd h (Nat.not_lt_zero _)

theorem Whole.clear (h : Whole series values) : Whole (timeSeriesClear series) [] := by
  have hsound := h.toSound.clear
  rw [h.toSound.clear_eq] at hsound ⊢
  refine ⟨hsound, rfl, Nat.zero_le _, by simp, rfl, ?_⟩
  intro frame hlt hfreed
  rw [List.mem_append, not_or] at hfreed
  have hfirst := h.live frame hlt hfreed.1
  exact absurd (Option.mem_toList.mpr hfirst) hfreed.2

/-- The values of the only frame. -/
theorem Whole.data_eq (h : Whole series values) {frame : Nat}
    (hlast : series.lastFrame = some frame) : series.data frame = values := by
  have hvalues := h.content
  rw [← h.same, hlast] at hvalues
  simpa using hvalues

/-- As long as a frame takes the values, they stay together. -/
theorem Whole.append (h : Whole series values) (hroom : values.length < series.frameCapacity)
    (v : Timedval) : Whole (timeSeriesAppend series v) (values ++ [v]) := by
  have hsound := h.toSound.append v
  rcases h.toSound.append_cases v with ⟨frame, hlast, -, happend⟩ | ⟨hfull, happend⟩
  · rw [happend] at hsound ⊢
    have hfirst : series.firstFrame = some frame := h.same.symm.trans hlast
    refine ⟨hsound, ?_, List.length_append ▸ hroom, by simp [hfirst], h.same, h.live⟩
    simp [hfirst, h.data_eq hlast]
  · have hlast : series.lastFrame = none := by
      cases hlast : series.lastFrame with
      | none => rfl
      | some frame =>
          have hlen := hfull frame hlast
          rw [h.data_eq hlast] at hlen
          omega
    have hfirst : series.firstFrame = none := h.same.symm.trans hlast
    have hnil : values = [] := h.empty.mp hfirst
    rw [hnil] at hroom ⊢
    rw [happend] at hsound ⊢
    refine ⟨hsound, ?_, hroom, by simp, by simp [hfirst], ?_⟩
    · simp [hfirst]
    · intro frame hlt hfreed
      have heq : frame = series.malloced := by
        by_contra hne
        have hsome := h.live frame (by simp only at hlt; omega) hfreed
        rw [hfirst] at hsome
        cases hsome
      simp [hfirst, heq]

/-- The value after a full frame takes a frame that is never found again. -/
theorem Whole.append_full (h : Whole series values)
    (hfull : values.length = series.frameCapacity) (hcapacity : 0 < series.frameCapacity)
    (v : Timedval) : Leaks (timeSeriesAppend series v) := by
  rcases h.toSound.append_cases v with ⟨frame, hlast, hroom, -⟩ | ⟨-, happend⟩
  · rw [h.data_eq hlast] at hroom
    exact absurd hfull hroom
  · rw [happend]
    refine ⟨series.malloced, Nat.lt_succ_self _, h.toSound.fresh, ?_⟩
    cases hfirst : series.firstFrame with
    | none =>
        have hnil := h.empty.mp hfirst
        rw [hnil, List.length_nil] at hfull
        omega
    | some first =>
        have hlt := (h.first first hfirst).1
        simp only [Option.some_or, ne_eq, Option.some.injEq]
        omega

theorem Whole.lossless (h : Whole series values) : Lossless series values := by
  refine ⟨h.toSound.values_eq.trans h.content, ?_, ?_⟩
  · intro frame
    rw [h.toSound.frames_eq, Option.mem_toList]
    exact ⟨h.first frame, fun hlive => h.live frame hlive.1 hlive.2⟩
  · have hclear := h.clear
    rw [List.perm_ext_iff_of_nodup hclear.nodup List.nodup_range]
    intro frame
    rw [List.mem_range]
    refine ⟨hclear.freed frame, ?_⟩
    intro hlt
    by_contra hfreed
    have hsome := hclear.live frame hlt hfreed
    rw [h.toSound.clear_eq] at hsome
    cases hsome

end

/-! ## The abstract series -/

/-- The memory of a series stands for a series of the abstract model. -/
def Stands (series : SeriesMemory) (t : TimeSeries) : Prop :=
  t.frameCapacity = series.frameCapacity ∧
    match t.frames with
    | .empty => series.firstFrame = none ∧ series.lastFrame = none
    | .one f => ∃ a, series.firstFrame = some a ∧ series.lastFrame = some a ∧
        series.data a = f.data
    | .detached f l => ∃ a b, a ≠ b ∧ series.firstFrame = some a ∧ series.lastFrame = some b ∧
        series.data a = f.data ∧ series.data b = l.data

section

variable {series : SeriesMemory} {t : TimeSeries}

theorem Stands.clear (h : Stands series t) (hsound : Sound series) :
    Stands (timeSeriesClear series) (Monitor.timeSeriesClear t) := by
  rw [hsound.clear_eq]
  exact ⟨h.1, rfl, rfl⟩

/-- The abstract series appends as the memory does. -/
theorem Stands.append (h : Stands series t) (hsound : Sound series) (v : Timedval) :
    Stands (timeSeriesAppend series v) (Monitor.timeSeriesAppend t v) := by
  obtain ⟨hcapacity, hframes⟩ := h
  rcases hsound.append_cases v with ⟨frame, hlast, hroom, happend⟩ | ⟨hfull, happend⟩
  · rw [happend]
    refine ⟨hcapacity, ?_⟩
    cases ht : t.frames with
    | empty =>
        rw [ht] at hframes
        simp [hframes.2] at hlast
    | one f =>
        rw [ht] at hframes
        obtain ⟨a, hfirst, hlast', hdata⟩ := hframes
        obtain rfl : a = frame := Option.some.inj (hlast'.symm.trans hlast)
        rw [hdata, ← hcapacity] at hroom
        simp only [Monitor.timeSeriesAppend, ht, if_neg hroom]
        exact ⟨a, hfirst, hlast, by simp [hdata, Frame.push]⟩
    | detached f l =>
        rw [ht] at hframes
        obtain ⟨a, b, hne, hfirst, hlast', hdata, hdata'⟩ := hframes
        obtain rfl : b = frame := Option.some.inj (hlast'.symm.trans hlast)
        rw [hdata', ← hcapacity] at hroom
        simp only [Monitor.timeSeriesAppend, ht, if_neg hroom]
        exact ⟨a, b, hne, hfirst, hlast, by simp [hne, hdata], by simp [hdata', Frame.push]⟩
  · rw [happend]
    refine ⟨hcapacity, ?_⟩
    cases ht : t.frames with
    | empty =>
        rw [ht] at hframes
        simp only [Monitor.timeSeriesAppend, ht]
        exact ⟨series.malloced, by simp [hframes.1], rfl, by simp [Frame.new]⟩
    | one f =>
        rw [ht] at hframes
        obtain ⟨a, hfirst, hlast, hdata⟩ := hframes
        have hlen := hfull a hlast
        rw [hdata, ← hcapacity] at hlen
        have hne : a ≠ series.malloced := Nat.ne_of_lt (hsound.first a hfirst).1
        simp only [Monitor.timeSeriesAppend, ht, if_pos hlen]
        exact ⟨a, series.malloced, hne, by simp [hfirst], rfl, by simp [hne, hdata],
          by simp [Frame.new]⟩
    | detached f l =>
        rw [ht] at hframes
        obtain ⟨a, b, -, hfirst, hlast, hdata, hdata'⟩ := hframes
        have hlen := hfull b hlast
        rw [hdata', ← hcapacity] at hlen
        have hne : a ≠ series.malloced := Nat.ne_of_lt (hsound.first a hfirst).1
        simp only [Monitor.timeSeriesAppend, ht, if_pos hlen]
        exact ⟨a, series.malloced, hne, by simp [hfirst], rfl, by simp [hne, hdata],
          by simp [Frame.new]⟩

/-- A dump lists what the abstract series holds. -/
theorem Stands.values_eq (h : Stands series t) (hsound : Sound series) :
    series.values = t.values := by
  rw [hsound.values_eq, TimeSeries.values]
  obtain ⟨-, hframes⟩ := h
  cases ht : t.frames with
  | empty =>
      rw [ht] at hframes
      simp [hframes.1]
  | one f =>
      rw [ht] at hframes
      obtain ⟨a, hfirst, -, hdata⟩ := hframes
      simp [hfirst, hdata]
  | detached f l =>
      rw [ht] at hframes
      obtain ⟨a, b, -, hfirst, -, hdata, -⟩ := hframes
      simp [hfirst, hdata]

end

/-- The abstract series after an operation. -/
def SeriesOp.applyAbstract (t : TimeSeries) : SeriesOp → TimeSeries
  | .append v => Monitor.timeSeriesAppend t v
  | .clear => Monitor.timeSeriesClear t

/-- The abstract series goes along with the memory. -/
theorem stands_seriesAfter (frameCapacity : Nat) (ops : List SeriesOp) :
    Sound (seriesAfter frameCapacity ops) ∧
      Stands (seriesAfter frameCapacity ops)
        (ops.foldl SeriesOp.applyAbstract ⟨frameCapacity, .empty⟩) := by
  induction ops using List.reverseRecOn with
  | nil => exact ⟨sound_emptySeries frameCapacity, rfl, rfl, rfl⟩
  | append_singleton ops op ih =>
      obtain ⟨hsound, hstands⟩ := ih
      rw [seriesAfter, List.foldl_concat, List.foldl_concat]
      cases op with
      | append v => exact ⟨hsound.append v, hstands.append hsound v⟩
      | clear => exact ⟨hsound.clear, hstands.clear hsound⟩

/-! ## Sequences of operations -/

theorem oneFrame_concat {frameCapacity : Nat} {ops : List SeriesOp} {op : SeriesOp} :
    OneFrame frameCapacity (ops ++ [op]) ↔
      OneFrame frameCapacity ops ∧ (appendedSince (ops ++ [op])).length ≤ frameCapacity := by
  constructor
  · intro h
    refine ⟨?_, h _ List.prefix_rfl⟩
    intro pre hpre
    exact h pre (hpre.trans (List.prefix_append ops [op]))
  · rintro ⟨h, hlast⟩ pre hpre
    rcases List.prefix_concat_iff.mp hpre with rfl | hpre
    · exact hlast
    · exact h pre hpre

/-- Up to the first value too many the series is whole, and from then on it leaks. -/
theorem whole_or_leaks {frameCapacity : Nat} (hcapacity : 0 < frameCapacity)
    (ops : List SeriesOp) :
    (seriesAfter frameCapacity ops).frameCapacity = frameCapacity ∧
      (OneFrame frameCapacity ops ∧ Whole (seriesAfter frameCapacity ops) (appendedSince ops) ∨
      ¬ OneFrame frameCapacity ops ∧ Leaks (seriesAfter frameCapacity ops)) := by
  induction ops using List.reverseRecOn with
  | nil =>
      refine ⟨rfl, .inl ⟨?_, whole_emptySeries frameCapacity⟩⟩
      intro pre hpre
      rw [List.prefix_nil.mp hpre]
      exact Nat.zero_le _
  | append_singleton ops op ih =>
      obtain ⟨hsame, hstate⟩ := ih
      have hsound := (stands_seriesAfter frameCapacity ops).1
      have hnext : seriesAfter frameCapacity (ops ++ [op]) =
          op.apply (seriesAfter frameCapacity ops) := List.foldl_concat ..
      have hvalues : appendedSince (ops ++ [op]) = op.record (appendedSince ops) :=
        List.foldl_concat ..
      rw [oneFrame_concat, hnext, hvalues]
      cases op with
      | append v =>
          have hkept : (timeSeriesAppend (seriesAfter frameCapacity ops) v).frameCapacity =
              frameCapacity := by
            rcases hsound.append_cases v with ⟨frame, -, -, happend⟩ | ⟨-, happend⟩ <;>
              rw [happend, hsame]
          refine ⟨hkept, ?_⟩
          have hlen : (appendedSince ops ++ [v]).length = (appendedSince ops).length + 1 :=
            List.length_append
          simp only [SeriesOp.record, SeriesOp.apply, hlen]
          rcases hstate with ⟨hfits, hwhole⟩ | ⟨hfits, hleaks⟩
          · have hroom := hwhole.room
            rw [hsame] at hroom
            by_cases hfull : (appendedSince ops).length = frameCapacity
            · refine .inr ⟨by omega, ?_⟩
              apply hwhole.append_full
              · rw [hsame, hfull]
              · rwa [hsame]
            · refine .inl ⟨⟨hfits, by omega⟩, ?_⟩
              apply hwhole.append
              rw [hsame]
              omega
          · exact .inr ⟨fun h => hfits h.1, hleaks.append hsound v⟩
      | clear =>
          refine ⟨?_, ?_⟩
          · rw [SeriesOp.apply, hsound.clear_eq]
            exact hsame
          · rcases hstate with ⟨hfits, hwhole⟩ | ⟨hfits, hleaks⟩
            · exact .inl ⟨⟨hfits, Nat.zero_le _⟩, hwhole.clear⟩
            · exact .inr ⟨fun h => hfits h.1, hleaks.clear hsound⟩

/-- A series is kept as long as it fits into one frame between two clears. -/
theorem lossless_iff {frameCapacity : Nat} (hcapacity : 0 < frameCapacity)
    (ops : List SeriesOp) :
    Lossless (seriesAfter frameCapacity ops) (appendedSince ops) ↔
      OneFrame frameCapacity ops := by
  rcases (whole_or_leaks hcapacity ops).2 with ⟨hfits, hwhole⟩ | ⟨hfits, hleaks⟩
  · exact iff_of_true hwhole.lossless hfits
  · exact iff_of_false (hleaks.not_lossless (stands_seriesAfter frameCapacity ops).1) hfits

/-! ## The time series of an RPC -/

/-- `rpc_time_series_t`. -/
structure RpcTimeSeries where
  rpcCount : UInt64
  rpcCountSeries : SeriesMemory
  bulkSize : UInt64
  bulkSizeSeries : SeriesMemory

/-- `find_or_add_time_series_for_rpc` for a new RPC. -/
def newRpcTimeSeries : RpcTimeSeries := ⟨0, emptySeries 256, 0, emptySeries 256⟩

/-- The object that `rpc_time_series_to_json` returns. -/
structure RpcTimeSeriesJson where
  timestamps : List Nat
  count : List Nat
  bulkSize : List Nat
  deriving DecidableEq, Repr

/-- `rpc_time_series_to_json`: the object, and the series afterwards. -/
def rpcTimeSeriesToJson (rpcTs : RpcTimeSeries) (reset : Bool) :
    RpcTimeSeriesJson × RpcTimeSeries :=
  (⟨rpcTs.rpcCountSeries.values.map Timedval.timestamp,
    rpcTs.rpcCountSeries.values.map Timedval.value,
    rpcTs.bulkSizeSeries.values.map Timedval.value⟩,
    if reset then
      { rpcTs with
        rpcCountSeries := timeSeriesClear rpcTs.rpcCountSeries
        bulkSizeSeries := timeSeriesClear rpcTs.bulkSizeSeries }
    else rpcTs)

/-- `update_rpc_time_series` for one RPC. -/
def updateRpcTimeSeries (rpcTs : RpcTimeSeries) (timestamp : Nat) : RpcTimeSeries where
  rpcCount := 0
  rpcCountSeries := timeSeriesAppend rpcTs.rpcCountSeries ⟨timestamp, rpcTs.rpcCount.toNat⟩
  bulkSize := 0
  bulkSizeSeries := timeSeriesAppend rpcTs.bulkSizeSeries ⟨timestamp, rpcTs.bulkSize.toNat⟩

/-- What happens to the time series of an RPC, and to its bulk transfers. -/
inductive RpcOp
  /-- `__margo_default_monitor_on_rpc_handler` counts an RPC. -/
  | rpcHandler
  /-- `__margo_default_monitor_on_bulk_transfer` counts the size of a transfer before
  `HG_Bulk_transfer` is called. -/
  | bulkTransfer (size : UInt64)
  /-- Mercury has transferred bytes. A transfer that it refuses has no such event, nor has one
  that fails. -/
  | transferred (bytes : Nat)
  | update (timestamp : Nat)
  | toJson (reset : Bool)
  deriving DecidableEq, Repr

/-- The time series after an operation. -/
def RpcOp.apply (rpcTs : RpcTimeSeries) : RpcOp → RpcTimeSeries
  | .rpcHandler => { rpcTs with rpcCount := rpcTs.rpcCount + 1 }
  | .bulkTransfer size => { rpcTs with bulkSize := rpcTs.bulkSize + size }
  | .transferred _ => rpcTs
  | .update timestamp => updateRpcTimeSeries rpcTs timestamp
  | .toJson reset => (rpcTimeSeriesToJson rpcTs reset).2

/-- The time series after a sequence of operations. -/
def rpcAfter (ops : List RpcOp) : RpcTimeSeries := ops.foldl RpcOp.apply newRpcTimeSeries

/-- An amount that the monitor counts: what it adds for an operation, and what has happened
by it. -/
structure Amount where
  counted : RpcOp → Nat
  happened : RpcOp → Nat

/-- An RPC is counted when its handler is called. -/
def Amount.rpcs : Amount :=
  let calls : RpcOp → Nat
    | .rpcHandler => 1
    | _ => 0
  ⟨calls, calls⟩

/-- Bytes are counted when a transfer is asked for. -/
def Amount.bytes : Amount where
  counted
    | .bulkTransfer size => size.toNat
    | _ => 0
  happened
    | .transferred bytes => bytes
    | _ => 0

/-- What an amount should come to, and what the monitor counts of it. -/
structure Ledger where
  /-- Counted since the last update. -/
  pending : Nat
  /-- Counted up to the last update, from the last reset on. -/
  listed : Nat
  /-- How often the 64-bit counter has wrapped in this time. -/
  wraps : Nat
  /-- Happened since the last update. -/
  fresh : Nat
  /-- Happened up to the last update, from the last reset on. -/
  happened : Nat
  /-- What the operations are for the series of the amount. -/
  ops : List SeriesOp

/-- The ledger after one more operation. -/
def Ledger.step (amount : Amount) (l : Ledger) (op : RpcOp) : Ledger :=
  match op with
  | .update timestamp =>
      { pending := 0
        listed := l.listed + l.pending
        wraps := l.wraps + l.pending / 2 ^ 64
        fresh := 0
        happened := l.happened + l.fresh
        ops := l.ops ++ [.append ⟨timestamp, l.pending % 2 ^ 64⟩] }
  | .toJson true => { l with listed := 0, wraps := 0, happened := 0, ops := l.ops ++ [.clear] }
  | op =>
      { l with
        pending := l.pending + amount.counted op
        fresh := l.fresh + amount.happened op }

/-- The ledger of an amount. -/
def ledger (amount : Amount) (ops : List RpcOp) : Ledger :=
  ops.foldl (Ledger.step amount) ⟨0, 0, 0, 0, 0, []⟩

/-- The updates since the last reset after one more operation. -/
def RpcOp.updates (n : Nat) : RpcOp → Nat
  | .update _ => n + 1
  | .toJson true => 0
  | _ => n

/-- The updates since the last reset. -/
def updatesSince (ops : List RpcOp) : Nat := ops.foldl RpcOp.updates 0

/-- The time series of an RPC say what has happened. -/
structure RpcExact (ops : List RpcOp) : Prop where
  count : Lossless (rpcAfter ops).rpcCountSeries (appendedSince (ledger .rpcs ops).ops)
  bulkSize : Lossless (rpcAfter ops).bulkSizeSeries (appendedSince (ledger .bytes ops).ops)
  lengths : ∀ reset,
    (rpcTimeSeriesToJson (rpcAfter ops) reset).1.count.length =
      (rpcTimeSeriesToJson (rpcAfter ops) reset).1.timestamps.length ∧
    (rpcTimeSeriesToJson (rpcAfter ops) reset).1.bulkSize.length =
      (rpcTimeSeriesToJson (rpcAfter ops) reset).1.timestamps.length
  sums : ∀ reset,
    (rpcTimeSeriesToJson (rpcAfter ops) reset).1.count.sum = (ledger .rpcs ops).happened ∧
    (rpcTimeSeriesToJson (rpcAfter ops) reset).1.bulkSize.sum = (ledger .bytes ops).happened

/-- Never are there more than 256 updates between two resets. -/
def FewUpdates (ops : List RpcOp) : Prop := ∀ pre, pre <+: ops → updatesSince pre ≤ 256

/-- When the time series of an RPC are right. -/
structure Accounted (ops : List RpcOp) : Prop where
  updates : FewUpdates ops
  /-- There were fewer than `2 ^ 64` RPCs between two updates. -/
  rpcs : (ledger .rpcs ops).wraps = 0
  /-- The bytes that were asked for were transferred, up to what the wraps have lost. -/
  bytes : (ledger .bytes ops).listed =
    (ledger .bytes ops).happened + 2 ^ 64 * (ledger .bytes ops).wraps

section

variable (amount : Amount) (ops : List RpcOp)

theorem ledger_concat (op : RpcOp) :
    ledger amount (ops ++ [op]) = (ledger amount ops).step amount op := List.foldl_concat ..

theorem appendedSince_concat (sops : List SeriesOp) (op : SeriesOp) :
    appendedSince (sops ++ [op]) = op.record (appendedSince sops) := List.foldl_concat ..

/-- Every update since the last reset has its value, and the values are what was counted,
without what the wraps have lost. -/
theorem appendedSince_ledger :
    (appendedSince (ledger amount ops).ops).length = updatesSince ops ∧
      ((appendedSince (ledger amount ops).ops).map Timedval.value).sum +
        2 ^ 64 * (ledger amount ops).wraps = (ledger amount ops).listed := by
  induction ops using List.reverseRecOn with
  | nil => exact ⟨rfl, rfl⟩
  | append_singleton ops op ih =>
      obtain ⟨hlength, hsum⟩ := ih
      have hupdates : updatesSince (ops ++ [op]) = op.updates (updatesSince ops) :=
        List.foldl_concat ..
      rw [ledger_concat, hupdates]
      cases op with
      | update timestamp =>
          simp only [Ledger.step, appendedSince_concat, SeriesOp.record, RpcOp.updates,
            List.length_append, List.length_singleton, List.map_append, List.map_singleton,
            List.sum_append, List.sum_singleton, hlength, true_and]
          have hwrap := Nat.mod_add_div (ledger amount ops).pending (2 ^ 64)
          omega
      | toJson reset =>
          cases reset with
          | true =>
              simp [Ledger.step, appendedSince_concat, SeriesOp.record, RpcOp.updates]
          | false => exact ⟨hlength, hsum⟩
      | rpcHandler | bulkTransfer | transferred => exact ⟨hlength, hsum⟩

/-- Every RPC is counted when it happens. -/
theorem ledger_rpcs : (ledger .rpcs ops).pending = (ledger .rpcs ops).fresh ∧
    (ledger .rpcs ops).listed = (ledger .rpcs ops).happened := by
  induction ops using List.reverseRecOn with
  | nil => exact ⟨rfl, rfl⟩
  | append_singleton ops op ih =>
      obtain ⟨hpending, hlisted⟩ := ih
      rw [ledger_concat]
      cases op with
      | update timestamp => exact ⟨rfl, congrArg₂ (· + ·) hlisted hpending⟩
      | toJson reset =>
          cases reset with
          | true => exact ⟨hpending, rfl⟩
          | false => exact ⟨hpending, hlisted⟩
      | rpcHandler | bulkTransfer | transferred => exact ⟨congrArg (· + _) hpending, hlisted⟩

theorem fewUpdates_concat (op : RpcOp) :
    FewUpdates (ops ++ [op]) ↔ FewUpdates ops ∧ updatesSince (ops ++ [op]) ≤ 256 := by
  constructor
  · intro h
    refine ⟨?_, h _ List.prefix_rfl⟩
    intro pre hpre
    exact h pre (hpre.trans (List.prefix_append ops [op]))
  · rintro ⟨h, hlast⟩ pre hpre
    rcases List.prefix_concat_iff.mp hpre with rfl | hpre
    · exact hlast
    · exact h pre hpre

/-- A value is appended with every update. -/
theorem oneFrame_ledger : OneFrame 256 (ledger amount ops).ops ↔ FewUpdates ops := by
  induction ops using List.reverseRecOn with
  | nil =>
      constructor
      · intro _ pre hpre
        rw [List.prefix_nil.mp hpre]
        exact Nat.zero_le _
      · intro _ pre hpre
        rw [List.prefix_nil.mp hpre]
        exact Nat.zero_le _
  | append_singleton ops op ih =>
      have hlength := (appendedSince_ledger amount (ops ++ [op])).1
      rw [fewUpdates_concat, ← hlength, ← ih, ledger_concat]
      -- An operation that does nothing to the series is no new prefix of them.
      have hsame (l : Ledger) (hops : l.ops = (ledger amount ops).ops) :
          OneFrame 256 l.ops ↔
            OneFrame 256 (ledger amount ops).ops ∧ (appendedSince l.ops).length ≤ 256 := by
        rw [hops]
        exact ⟨fun h => ⟨h, h _ List.prefix_rfl⟩, And.left⟩
      cases op with
      | update timestamp => exact oneFrame_concat
      | toJson reset =>
          cases reset with
          | true => exact oneFrame_concat
          | false => exact hsame _ rfl
      | rpcHandler | bulkTransfer | transferred => exact hsame _ rfl

/-- Each of the two series has its own share of the operations. -/
theorem rpcAfter_eq :
    rpcAfter ops =
      { rpcCount := .ofNat (ledger .rpcs ops).pending
        rpcCountSeries := seriesAfter 256 (ledger .rpcs ops).ops
        bulkSize := .ofNat (ledger .bytes ops).pending
        bulkSizeSeries := seriesAfter 256 (ledger .bytes ops).ops } := by
  have hseries (sops : List SeriesOp) (op : SeriesOp) :
      seriesAfter 256 (sops ++ [op]) = op.apply (seriesAfter 256 sops) := List.foldl_concat ..
  induction ops using List.reverseRecOn with
  | nil => rfl
  | append_singleton ops op ih =>
      have hnext : rpcAfter (ops ++ [op]) = op.apply (rpcAfter ops) := List.foldl_concat ..
      rw [hnext, ih, ledger_concat, ledger_concat]
      cases op with
      | update timestamp =>
          simp only [RpcOp.apply, updateRpcTimeSeries, Ledger.step, hseries, UInt64.toNat_ofNat']
          rfl
      | toJson reset =>
          cases reset with
          | true =>
              simp only [Ledger.step, hseries]
              rfl
          | false => rfl
      | rpcHandler =>
          have hcount (n : Nat) : UInt64.ofNat n + 1 = .ofNat (n + 1) := (UInt64.ofNat_add n 1).symm
          exact congrArg (RpcTimeSeries.mk · _ _ _) (hcount _)
      | bulkTransfer size =>
          have hcount (n : Nat) : UInt64.ofNat n + size = .ofNat (n + size.toNat) := by
            rw [UInt64.ofNat_add, UInt64.ofNat_toNat]
          exact congrArg (RpcTimeSeries.mk _ _ · _) (hcount _)
      | transferred => rfl

/-- The time series of an RPC are right as long as each fits into one frame and what was
counted is what has happened. -/
theorem rpcExact_iff : RpcExact ops ↔ Accounted ops := by
  have hcount := lossless_iff (show 0 < 256 by omega) (ledger .rpcs ops).ops
  have hbulk := lossless_iff (show 0 < 256 by omega) (ledger .bytes ops).ops
  rw [oneFrame_ledger] at hcount hbulk
  obtain ⟨hlength, hsum⟩ := appendedSince_ledger .rpcs ops
  obtain ⟨hlength', hsum'⟩ := appendedSince_ledger .bytes ops
  have hlisted := (ledger_rpcs ops).2
  constructor
  · intro h
    have hlossless := h.count
    have hlossless' := h.bulkSize
    obtain ⟨hrpcs, hbytes⟩ := h.sums true
    rw [rpcAfter_eq] at hlossless hlossless' hrpcs hbytes
    simp only [rpcTimeSeriesToJson, hlossless.values] at hrpcs
    simp only [rpcTimeSeriesToJson, hlossless'.values] at hbytes
    refine ⟨hcount.mp hlossless, ?_, ?_⟩
    · omega
    · omega
  · intro h
    have hvalues := (hcount.mpr h.updates).values
    have hvalues' := (hbulk.mpr h.updates).values
    have hrpcs := h.rpcs
    have hbytes := h.bytes
    refine ⟨?_, ?_, ?_, ?_⟩
    · rw [rpcAfter_eq]
      exact hcount.mpr h.updates
    · rw [rpcAfter_eq]
      exact hbulk.mpr h.updates
    · intro reset
      rw [rpcAfter_eq]
      simp only [rpcTimeSeriesToJson, List.length_map, hvalues, hvalues', hlength, hlength',
        and_self]
    · intro reset
      rw [rpcAfter_eq]
      simp only [rpcTimeSeriesToJson, hvalues, hvalues']
      omega

end

/-- The sums are wrong for a transfer that Mercury refuses, for one that is not over at the
last update, and for transfers of `2 ^ 64` bytes between two updates. -/
theorem not_rpcExact (timestamp : Nat) :
    ¬ RpcExact [.bulkTransfer 64, .update timestamp] ∧
    ¬ RpcExact [.bulkTransfer 64, .update timestamp, .transferred 64] ∧
    ¬ RpcExact [.bulkTransfer 0x8000000000000000, .transferred 0x8000000000000000,
      .bulkTransfer 0x8000000000000000, .transferred 0x8000000000000000, .update timestamp] := by
  have hbytes {ops : List RpcOp} (h : RpcExact ops) := ((rpcExact_iff ops).mp h).bytes
  refine ⟨mt hbytes ?_, mt hbytes ?_, mt hbytes ?_⟩
  all_goals simp [ledger, Ledger.step, Amount.bytes]

/-- Time series lose nothing exactly as long as they fit into one frame between two clears:
a series with any capacity, and the two series of an RPC with theirs of 256. The sums of the
latter are right if the counters, moreover, count what happens. -/
theorem time_series_lossless_iff (frameCapacity : Nat) (ops : List SeriesOp)
    (rpcOps : List RpcOp) (hcapacity : 0 < frameCapacity) :
    (Lossless (seriesAfter frameCapacity ops) (appendedSince ops) ↔
      OneFrame frameCapacity ops) ∧
    (RpcExact rpcOps ↔ Accounted rpcOps) :=
  ⟨lossless_iff hcapacity ops, rpcExact_iff rpcOps⟩

/-- Two values and a clear, in a series whose frames take two, and an RPC whose two calls
are dumped. -/
theorem time_series_lossless_two :
    Lossless (seriesAfter 2 [.append ⟨0, 4⟩, .append ⟨1, 5⟩, .clear, .append ⟨2, 6⟩])
      [⟨2, 6⟩] ∧
    RpcExact [.rpcHandler, .bulkTransfer 64, .rpcHandler, .transferred 64, .update 3] := by
  have hiff := time_series_lossless_iff 2
    [.append ⟨0, 4⟩, .append ⟨1, 5⟩, .clear, .append ⟨2, 6⟩]
    [.rpcHandler, .bulkTransfer 64, .rpcHandler, .transferred 64, .update 3] (by decide)
  have hprefixes : ∀ pre ∈ [SeriesOp.append ⟨0, 4⟩, .append ⟨1, 5⟩, .clear,
      .append ⟨2, 6⟩].inits, (appendedSince pre).length ≤ 2 := by decide
  have hupdates : ∀ pre ∈ [RpcOp.rpcHandler, .bulkTransfer 64, .rpcHandler, .transferred 64,
      .update 3].inits, updatesSince pre ≤ 256 := by decide
  constructor
  · exact hiff.1.mpr fun pre hpre => hprefixes pre ((List.mem_inits _ _).mpr hpre)
  · refine hiff.2.mpr ⟨fun pre hpre => hupdates pre ((List.mem_inits _ _).mpr hpre), ?_, ?_⟩
    · decide
    · decide

/-- A series with the capacity that the monitor gives it, after one value more than that. -/
theorem not_time_series_lossless :
    ¬ ∀ (frameCapacity : Nat) (ops : List SeriesOp), 0 < frameCapacity →
      Lossless (seriesAfter frameCapacity ops) (appendedSince ops) := by
  intro h
  have hcapacity : 0 < 256 := by decide
  have hfits := (lossless_iff hcapacity _).mp
    (h 256 (List.replicate 257 (.append ⟨0, 1⟩)) hcapacity)
  have hmany (n : Nat) : (appendedSince (List.replicate n (.append ⟨0, 1⟩))).length = n := by
    induction n with
    | zero => rfl
    | succ n ih =>
        rw [List.replicate_succ', appendedSince_concat, SeriesOp.record, List.length_append, ih]
        rfl
  have hle := hfits _ List.prefix_rfl
  rw [hmany] at hle
  omega

end Margo.Monitor.FrameMemory
