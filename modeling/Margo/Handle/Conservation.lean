import Margo.Handle.Cache

/-!
# Conservation of the cache elements

Every element of the handle cache is in the free list once, or one handle in use is
backed by it, exactly in the runs in which every step recycles.

## Implementation notes

The reference count of a handle in use is the number of threads that own a
reference, and the element of a handle is found in its data, which stays attached.
-/

namespace Margo.Handle

open Function Lib.ThreadPool Lib.Runs

/-- Owns a reference to the handle. -/
def Thread.refs (handle : Nat) : Thread → Bool
  | .holder h | .refGet h | .hgDestroy h | .cachePut h | .inFlight h => handle = h
  | _ => false

/-- Has taken the element out of the free list, and no reference to its handle exists. -/
def Thread.owns (el : Nat) : Thread → Bool
  | .reset e | .putBack e | .push e => el = e
  | _ => false

/-- `margo_create` with its handle. -/
def Thread.sets (handle : Nat) : Thread → Bool
  | .setData h => handle = h
  | _ => false

/-- The references to a handle. -/
def refs (threads : List Thread) (handle : Nat) : Nat := threads.countP (Thread.refs handle)

/-- The calls that have taken an element out of the free list. -/
def owners (threads : List Thread) (el : Nat) : Nat := threads.countP (Thread.owns el)

/-- The calls of `margo_create` with a handle. -/
def creators (threads : List Thread) (handle : Nat) : Nat := threads.countP (Thread.sets handle)

/-- How many times an element is used: by a call on its way from or to the free list, by
a call of `margo_create` that has its handle, and by all references to its handle. -/
def users (m : Shared) (threads : List Thread) (el : Nat) : Nat :=
  owners threads el + creators threads (m.handle el) +
    if refs threads (m.handle el) = 0 then 0 else 1

/-- The elements of the cache are conserved. -/
structure Conserved (size : Nat) (s : Handles) : Prop where
  /-- An element is in the free list or in use, once. -/
  elements : ∀ el < size, s.shared.freeHandleList.count el + users s.shared s.threads el = 1
  /-- No call of `margo_create` that failed kept an element. -/
  lost : s.shared.lost = []
  /-- What was released into the arena came from there. -/
  released : ∀ arena ∈ s.shared.released, arena = true

/-! ## The references and the data of the handles -/

/-- An element of the cache and its handle. -/
structure Element (m : Shared) (threads : List Thread) (el : Nat) : Prop where
  lt : m.handle el < m.nextHandle
  data : ∃ d, m.data (m.handle el) = some d ∧ d.cacheEl = some el ∧
    (0 < refs threads (m.handle el) → d.mid = true)
  refCount : m.refCount (m.handle el) = max 1 (refs threads (m.handle el))

/-- A handle that is not of the cache: it is being created or has the data of an RPC,
or it is gone. -/
inductive Created (m : Shared) (threads : List Thread) (handle : Nat) : Prop
  | blank (hdata : m.data handle = none) (hrefs : refs threads handle = 0)
      (hrefCount : 0 < creators threads handle → m.refCount handle = 1)
      (hsets : creators threads handle ≤ 1)
  | used (hdata : m.data handle = some ⟨true, none, true⟩)
      (hrefs : refs threads handle = m.refCount handle)
      (hsets : creators threads handle = 0)

/-- What the threads, the free list and the handles have to do with each other. -/
structure Linked (size : Nat) (m : Shared) (threads : List Thread) : Prop where
  elements : ∀ el < size, m.freeHandleList.count el + users m threads el = 1
  element : ∀ el < size, Element m threads el
  created : ∀ h, (∀ el < size, m.handle el ≠ h) → Created m threads h
  free : ∀ el, size ≤ el → m.freeHandleList.count el = 0 ∧ owners threads el = 0
  fresh : ∀ h, m.nextHandle ≤ h → refs threads h = 0 ∧ creators threads h = 0
  putting : ∀ h, .cachePut h ∈ threads → refs threads h = 1

section

variable {size : Nat} {m m' : Shared} {threads threads' others ts : List Thread} {thread : Thread}
  {choice : Choice} {h el : Nat}

@[simp] theorem refs_cons (x : Thread) (threads : List Thread) (h : Nat) :
    refs (x :: threads) h = refs threads h + if x.refs h then 1 else 0 :=
  List.countP_cons ..

@[simp] theorem owners_cons (x : Thread) (threads : List Thread) (el : Nat) :
    owners (x :: threads) el = owners threads el + if x.owns el then 1 else 0 :=
  List.countP_cons ..

@[simp] theorem creators_cons (x : Thread) (threads : List Thread) (h : Nat) :
    creators (x :: threads) h = creators threads h + if x.sets h then 1 else 0 :=
  List.countP_cons ..

theorem Element.congr (helement : Element m threads el) (hhandle : m'.handle el = m.handle el)
    (hnext : m.nextHandle ≤ m'.nextHandle) (hdata : m'.data (m.handle el) = m.data (m.handle el))
    (hrefCount : m'.refCount (m.handle el) = m.refCount (m.handle el))
    (hrefs : refs threads' (m.handle el) = refs threads (m.handle el)) :
    Element m' threads' el := by
  obtain ⟨hlt, hattached, hcount⟩ := helement
  constructor
  · rw [hhandle]
    exact Nat.lt_of_lt_of_le hlt hnext
  · rw [hhandle, hdata, hrefs]
    exact hattached
  · rw [hhandle, hrefCount, hrefs, hcount]

theorem Created.congr (hcreated : Created m threads h) (hdata : m'.data h = m.data h)
    (hrefCount : m'.refCount h = m.refCount h) (hrefs : refs threads' h = refs threads h)
    (hsets : creators threads' h = creators threads h) :
    Created m' threads' h := by
  cases hcreated with
  | blank hnone hzero hone hle =>
      exact .blank (hdata.trans hnone) (hrefs.trans hzero) (by rw [hsets, hrefCount]; exact hone)
        (hsets ▸ hle)
  | used hsome hcount hzero =>
      exact .used (hdata.trans hsome) (by rw [hrefs, hrefCount, hcount]) (hsets.trans hzero)

/-- The handles of two elements differ. -/
theorem Linked.handle_inj (hlinked : Linked size m threads) {el' : Nat} (hel : el < size)
    (hel' : el' < size) (heq : m.handle el = m.handle el') : el = el' := by
  obtain ⟨d, hdata, hcache, -⟩ := (hlinked.element el hel).data
  obtain ⟨d', hdata', hcache', -⟩ := (hlinked.element el' hel').data
  rw [heq, hdata'] at hdata
  obtain rfl := Option.some.inj hdata
  rw [hcache'] at hcache
  exact (Option.some.inj hcache).symm

/-- A handle with an element is the one of the element. -/
theorem Linked.cached_iff (hlinked : Linked size m threads) :
    m.Cached h ↔ ∃ el < size, m.handle el = h := by
  constructor
  · intro hcached
    by_contra hnot
    have hother := hlinked.created h fun el hel heq => hnot ⟨el, hel, heq⟩
    cases hother with
    | blank hdata | used hdata => simp [Shared.Cached, hdata] at hcached
  · rintro ⟨el, hel, rfl⟩
    obtain ⟨d, hdata, hcache, -⟩ := (hlinked.element el hel).data
    simp [Shared.Cached, hdata, hcache]

/-- A step that moves no reference and no element. -/
theorem Linked.congr (hlinked : Linked size m threads)
    (hrefs : ∀ h, refs threads' h = refs threads h)
    (howns : ∀ el, owners threads' el = owners threads el)
    (hsets : ∀ h, creators threads' h = creators threads h)
    (hputs : ∀ h, .cachePut h ∈ threads' → refs threads h = 1) : Linked size m threads' := by
  constructor
  case elements =>
    intro el hel
    rw [users, howns, hsets, hrefs]
    exact hlinked.elements el hel
  case element =>
    exact fun el hel => (hlinked.element el hel).congr rfl (Nat.le_refl _) rfl rfl (hrefs _)
  case created =>
    exact fun h hh => (hlinked.created h hh).congr rfl rfl (hrefs h) (hsets h)
  case free =>
    intro el hel
    rw [howns]
    exact hlinked.free el hel
  case fresh =>
    intro h hh
    rw [hrefs, hsets]
    exact hlinked.fresh h hh
  case putting =>
    intro h hh
    rw [hrefs]
    exact hputs h hh

/-- A step of the free list. -/
theorem Linked.move (hlinked : Linked size m threads) (freeHandleList : List Nat)
    (hrefs : ∀ h, refs threads' h = refs threads h)
    (hsets : ∀ h, creators threads' h = creators threads h)
    (hmoved : ∀ el, freeHandleList.count el + owners threads' el =
      m.freeHandleList.count el + owners threads el)
    (hputs : ∀ h, .cachePut h ∈ threads' → .cachePut h ∈ threads) :
    Linked size { m with freeHandleList } threads' := by
  constructor
  case elements =>
    intro el hel
    have helements := hlinked.elements el hel
    have hel := hmoved el
    simp only [users, hsets, hrefs] at helements ⊢
    omega
  case element =>
    exact fun el hel => (hlinked.element el hel).congr rfl (Nat.le_refl _) rfl rfl (hrefs _)
  case created =>
    exact fun h hh => (hlinked.created h hh).congr rfl rfl (hrefs h) (hsets h)
  case free =>
    intro el hel
    have hfree := hlinked.free el hel
    have hel := hmoved el
    simp only
    omega
  case fresh =>
    intro h hh
    rw [hrefs, hsets]
    exact hlinked.fresh h hh
  case putting =>
    intro h hh
    rw [hrefs]
    exact hlinked.putting h (hputs h hh)

/-- What a step about one handle leaves alone. -/
structure Elsewhere (m m' : Shared) (threads threads' : List Thread) (h : Nat) : Prop where
  handle : m'.handle = m.handle
  next : m.nextHandle ≤ m'.nextHandle
  lt : h < m'.nextHandle
  data : ∀ u, u ≠ h → m'.data u = m.data u
  refCount : ∀ u, u ≠ h → m'.refCount u = m.refCount u
  refs : ∀ u, u ≠ h → Handle.refs threads' u = Handle.refs threads u
  sets : ∀ u, u ≠ h → creators threads' u = creators threads u
  free : ∀ el, m.handle el ≠ h → m'.freeHandleList.count el = m.freeHandleList.count el ∧
    owners threads' el = owners threads el
  putting : ∀ u, u ≠ h → .cachePut u ∈ threads' → .cachePut u ∈ threads

/-- A step about one handle. -/
theorem Linked.update (hlinked : Linked size m threads) (helse : Elsewhere m m' threads threads' h)
    (hcached : ∀ el < size, m.handle el = h → Element m' threads' el ∧
      m'.freeHandleList.count el + users m' threads' el = 1)
    (hcreated : (∀ el < size, m.handle el ≠ h) → Created m' threads' h)
    (hfree : ∀ el, size ≤ el → m'.freeHandleList.count el = 0 ∧
      owners threads' el = 0)
    (hputting : .cachePut h ∈ threads' → refs threads' h = 1) : Linked size m' threads' := by
  have hhandle := helse.handle
  constructor
  case elements =>
    intro el hel
    by_cases heq : m.handle el = h
    · exact (hcached el hel heq).2
    · have helements := hlinked.elements el hel
      rw [users, hhandle, (helse.free el heq).1, (helse.free el heq).2, helse.refs _ heq,
        helse.sets _ heq]
      exact helements
  case element =>
    intro el hel
    by_cases heq : m.handle el = h
    · exact (hcached el hel heq).1
    · exact (hlinked.element el hel).congr (congrFun hhandle el) helse.next (helse.data _ heq)
        (helse.refCount _ heq) (helse.refs _ heq)
  case created =>
    intro u hu
    rw [hhandle] at hu
    by_cases heq : u = h
    · exact heq ▸ hcreated (heq ▸ hu)
    · exact (hlinked.created u hu).congr (helse.data u heq) (helse.refCount u heq)
        (helse.refs u heq) (helse.sets u heq)
  case free => exact hfree
  case fresh =>
    intro u hu
    have hne : u ≠ h := fun heq => Nat.lt_irrefl u (Nat.lt_of_lt_of_le (heq ▸ helse.lt) hu)
    rw [helse.refs u hne, helse.sets u hne]
    exact hlinked.fresh u (Nat.le_trans helse.next hu)
  case putting =>
    intro u hu
    by_cases heq : u = h
    · exact heq ▸ hputting (heq ▸ hu)
    · rw [helse.refs u heq]
      exact hlinked.putting u (helse.putting u heq hu)

/-! ## Every step -/

/-- A handle that is being created has no references. -/
theorem Linked.refs_eq_zero (hlinked : Linked size m threads)
    (hsets : 0 < creators threads h) : refs threads h = 0 := by
  by_cases hcached : ∃ el < size, m.handle el = h
  · obtain ⟨el, hel, rfl⟩ := hcached
    have helements := hlinked.elements el hel
    by_contra hne
    rw [users, if_neg hne] at helements
    omega
  · cases hlinked.created h fun el hel heq => hcached ⟨el, hel, heq⟩ with
    | blank _ hrefs => exact hrefs
    | used _ _ hzero => omega

/-- `__margo_internal_set_handle_data`. -/
theorem Linked.setData (hlinked : Linked size m (.setData h :: others)) :
    Linked size (m.setHandleData h) (.holder h :: others) := by
  have hsets : 0 < creators (Thread.setData h :: others) h :=
    List.countP_pos_iff.mpr ⟨_, List.mem_cons_self, decide_eq_true rfl⟩
  have hrefs := hlinked.refs_eq_zero hsets
  simp [Thread.refs] at hrefs
  have hlt : h < m.nextHandle := by
    by_contra hge
    have hnone := (hlinked.fresh h (Nat.not_lt.mp hge)).2
    omega
  apply hlinked.update (h := h)
  · constructor
    case handle => rfl
    case next => exact Nat.le_refl _
    case lt => exact hlt
    case data => exact fun u hu => update_of_ne hu ..
    case refCount => exact fun _ _ => rfl
    case refs => exact fun u hu => by simp [Thread.refs, hu]
    case sets => exact fun u hu => by simp [Thread.sets, hu]
    case free => exact fun el _ => ⟨rfl, by simp [Thread.owns]⟩
    case putting => exact fun u _ hmem => by simpa using hmem
  · rintro el hel rfl
    have helements := hlinked.elements el hel
    obtain ⟨-, ⟨d, hdata, hcache, -⟩, hcount⟩ := hlinked.element el hel
    simp [users, Thread.owns, Thread.sets, Thread.refs, hrefs] at helements hcount
    refine ⟨⟨hlt, ?_, ?_⟩, ?_⟩
    · exact ⟨{ d with mid := true }, by simp [Shared.setHandleData, hdata], hcache, fun _ => rfl⟩
    · simp [Shared.setHandleData, hrefs, hcount, Thread.refs]
    · simp [users, Shared.setHandleData, Thread.owns, Thread.sets, Thread.refs]
      omega
  · intro hother
    cases hlinked.created h hother with
    | blank hdata _ hrefCount hle =>
        have hone := hrefCount hsets
        simp [Thread.sets] at hle
        refine .used ?_ ?_ ?_
        · simp [Shared.setHandleData, hdata]
        · simp [Shared.setHandleData, Thread.refs, hrefs, hone]
        · simpa [Thread.sets] using hle
    | used _ _ hzero => omega
  · intro el hel
    simpa [Thread.owns, Shared.setHandleData] using hlinked.free el hel
  · intro _
    simp [Thread.refs, hrefs]

/-- `margo_create` fails with a handle that is not of the cache. -/
theorem Linked.abandon (hlinked : Linked size m (.setData h :: others)) (hnot : ¬m.Cached h)
    (lost : List Nat) : Linked size { m with lost } (.client :: others) := by
  have hsets : 0 < creators (Thread.setData h :: others) h :=
    List.countP_pos_iff.mpr ⟨_, List.mem_cons_self, decide_eq_true rfl⟩
  apply hlinked.update (h := h)
  · constructor
    case handle => rfl
    case next => exact Nat.le_refl _
    case lt =>
      by_contra hge
      have hnone := (hlinked.fresh h (Nat.not_lt.mp hge)).2
      omega
    case data => exact fun _ _ => rfl
    case refCount => exact fun _ _ => rfl
    case refs => exact fun u hu => by simp [Thread.refs]
    case sets => exact fun u hu => by simp [Thread.sets, hu]
    case free => exact fun el _ => ⟨rfl, by simp [Thread.owns]⟩
    case putting => exact fun u _ hmem => by simpa using hmem
  · exact fun el hel heq => absurd (hlinked.cached_iff.mpr ⟨el, hel, heq⟩) hnot
  · intro hother
    cases hlinked.created h hother with
    | blank hdata hrefs hrefCount hle =>
        simp [Thread.refs, Thread.sets] at hrefs hle
        refine .blank hdata (by simp [Thread.refs, hrefs]) ?_ ?_
        · simp [Thread.sets, hle]
        · simp [Thread.sets, hle]
    | used _ _ hzero => omega
  · intro el hel
    simpa [Thread.owns] using hlinked.free el hel
  · intro hmem
    have hput := hlinked.putting h (by simpa using hmem)
    simpa [Thread.refs] using hput

/-- A new handle of `HG_Create`. -/
theorem Linked.create (hlinked : Linked size m (.hgCreate :: others)) :
    Linked size { m with
      refCount := Function.update m.refCount m.nextHandle 1
      data := Function.update m.data m.nextHandle none
      nextHandle := m.nextHandle + 1 } (.setData m.nextHandle :: others) := by
  have hfresh := hlinked.fresh m.nextHandle (Nat.le_refl _)
  simp [Thread.refs, Thread.sets] at hfresh
  obtain ⟨hrefs, hsets⟩ := hfresh
  apply hlinked.update (h := m.nextHandle)
  · constructor
    case handle => rfl
    case next => exact Nat.le_succ _
    case lt => exact Nat.lt_succ_self _
    case data => exact fun u hu => update_of_ne hu ..
    case refCount => exact fun u hu => update_of_ne hu ..
    case refs => exact fun u hu => by simp [Thread.refs]
    case sets => exact fun u hu => by simp [Thread.sets, hu]
    case free => exact fun el _ => ⟨rfl, by simp [Thread.owns]⟩
    case putting => exact fun u _ hmem => by simpa using hmem
  · intro el hel heq
    have hlt := (hlinked.element el hel).lt
    omega
  · intro _
    refine .blank ?_ ?_ ?_ ?_
    · simp
    · simp [Thread.refs, hrefs]
    · simp
    · simp [Thread.sets, hsets]
  · intro el hel
    simpa [Thread.owns] using hlinked.free el hel
  · intro hmem
    have hput := hlinked.putting m.nextHandle (by simpa using hmem)
    simp [Thread.refs, hrefs] at hput

theorem refs_pos (hmem : thread ∈ threads) (hthread : thread.refs h = true) :
    0 < refs threads h :=
  List.countP_pos_iff.mpr ⟨thread, hmem, hthread⟩

/-- A handle with a reference exists, and its count is the number of references. -/
theorem Linked.counted (hlinked : Linked size m threads) (hrefs : 0 < refs threads h) :
    h < m.nextHandle ∧ m.refCount h = refs threads h ∧ creators threads h = 0 := by
  refine ⟨?_, ?_, ?_⟩
  · by_contra hge
    have hnone := (hlinked.fresh h (Nat.not_lt.mp hge)).1
    omega
  · by_cases hcached : ∃ el < size, m.handle el = h
    · obtain ⟨el, hel, rfl⟩ := hcached
      have hcount := (hlinked.element el hel).refCount
      omega
    · cases hlinked.created h fun el hel heq => hcached ⟨el, hel, heq⟩ with
      | blank _ hzero => omega
      | used _ hcount => exact hcount.symm
  · by_contra hne
    have hzero := hlinked.refs_eq_zero (Nat.pos_of_ne_zero hne)
    omega

/-- A reference that is put into the cache is the only one. -/
theorem Linked.not_putting (hlinked : Linked size m (thread :: others))
    (hthread : thread.refs h = true) : .cachePut h ∉ others := by
  intro hmem
  have hput := hlinked.putting h (List.mem_cons_of_mem thread hmem)
  have hpos : 0 < refs others h := refs_pos hmem (decide_eq_true rfl)
  rw [refs_cons, if_pos hthread] at hput
  omega

/-- The thread owns one reference to the handle, and nothing else. -/
structure Refers (h : Nat) (x : Thread) : Prop where
  refs : ∀ u, x.refs u = decide (u = h)
  owns : ∀ el, x.owns el = false
  sets : ∀ u, x.sets u = false

theorem refers_holder (h : Nat) : Refers h (.holder h) := ⟨fun _ => rfl, fun _ => rfl, fun _ => rfl⟩

theorem refers_hgDestroy (h : Nat) : Refers h (.hgDestroy h) :=
  ⟨fun _ => rfl, fun _ => rfl, fun _ => rfl⟩

theorem refers_cachePut (h : Nat) : Refers h (.cachePut h) :=
  ⟨fun _ => rfl, fun _ => rfl, fun _ => rfl⟩

theorem refers_inFlight (h : Nat) : Refers h (.inFlight h) :=
  ⟨fun _ => rfl, fun _ => rfl, fun _ => rfl⟩

/-- `HG_Ref_incr`, or a forward. -/
theorem Linked.retain {x : Thread} (hlinked : Linked size m (.holder h :: others))
    (hx : Refers h x) (hputs : ∀ u, x ≠ .cachePut u) :
    Linked size { m with refCount := Function.update m.refCount h (m.refCount h + 1) }
      (.holder h :: x :: others) := by
  have hholder := refers_holder h
  have hself : Thread.refs h (.holder h) = true := decide_eq_true rfl
  obtain ⟨hlt, hcount, hcreators⟩ := hlinked.counted (refs_pos List.mem_cons_self hself)
  have hnot := hlinked.not_putting hself
  simp [hholder.refs, hholder.sets] at hcount hcreators
  apply hlinked.update (h := h)
  · constructor
    case handle => rfl
    case next => exact Nat.le_refl _
    case lt => exact hlt
    case data => exact fun _ _ => rfl
    case refCount => exact fun u hu => update_of_ne hu ..
    case refs => exact fun u hu => by simp [hholder.refs, hx.refs, hu]
    case sets => exact fun u hu => by simp [hholder.sets, hx.sets]
    case free => exact fun el _ => ⟨rfl, by simp [hholder.owns, hx.owns]⟩
    case putting => exact fun u _ hmem => by simpa [(hputs u).symm] using hmem
  · rintro el hel rfl
    have helements := hlinked.elements el hel
    obtain ⟨-, ⟨d, hdata, hcache, hmid⟩, -⟩ := hlinked.element el hel
    simp [users, hholder.owns, hholder.sets, hholder.refs] at helements hmid
    refine ⟨⟨hlt, ?_, ?_⟩, ?_⟩
    · exact ⟨d, hdata, hcache, fun _ => hmid⟩
    · simp [hholder.refs, hx.refs, hcount]
    · simp [users, hholder.owns, hholder.sets, hholder.refs, hx.owns, hx.sets, hx.refs]
      omega
  · intro hother
    cases hlinked.created h hother with
    | blank _ hzero => simp [hholder.refs] at hzero
    | used hdata =>
        refine .used hdata ?_ ?_
        · simp [hholder.refs, hx.refs, hcount]
        · simp [hholder.sets, hx.sets, hcreators]
  · intro el hel
    simpa [hholder.owns, hx.owns] using hlinked.free el hel
  · intro hmem
    exact absurd (by simpa [(hputs h).symm] using hmem) hnot

/-- What `HG_Destroy` changes when it does not free the handle. -/
theorem drop_of_ne (hne : m.refCount h ≠ 1) (hpos : 0 < m.refCount h) :
    m.drop h = { m with refCount := Function.update m.refCount h (m.refCount h - 1) } := by
  rw [Shared.drop, if_neg]
  simp
  omega

/-- The last reference to a handle that is not of the cache. -/
theorem drop_of_eq (hone : m.refCount h = 1) (hdata : m.data h = some ⟨true, none, true⟩) :
    m.drop h = { m with
      refCount := Function.update m.refCount h 0
      data := Function.update m.data h none
      released := m.released ++ [true] } := by
  rw [Shared.drop, if_pos]
  · simp [Shared.dataFree, hone, hdata]
  · simp [hone]

/-- A reference that is not the last one of a cached handle is dropped. -/
theorem Linked.drop (hlinked : Linked size m (thread :: others)) (hthread : Refers h thread)
    (hkept : m.Cached h → m.refCount h ≠ 1) :
    Linked size (m.drop h) others ∧ (m.drop h).lost = m.lost ∧
      ∀ arena ∈ (m.drop h).released, arena ∈ m.released ∨ arena = true := by
  have hself : thread.refs h = true := by simp [hthread.refs]
  obtain ⟨hlt, hcount, hcreators⟩ := hlinked.counted (refs_pos List.mem_cons_self hself)
  have hnot := hlinked.not_putting hself
  simp [hthread.refs, hthread.sets] at hcount hcreators
  have helse : ∀ m', m'.handle = m.handle → m'.nextHandle = m.nextHandle →
      m'.freeHandleList = m.freeHandleList → (∀ u ≠ h, m'.data u = m.data u) →
      (∀ u ≠ h, m'.refCount u = m.refCount u) → Elsewhere m m' (thread :: others) others h := by
    intro m' hhandle hnext hfree hdata hrefCount
    constructor
    case handle => exact hhandle
    case next => exact Nat.le_of_eq hnext.symm
    case lt => exact hnext ▸ hlt
    case data => exact hdata
    case refCount => exact hrefCount
    case refs => exact fun u hu => by simp [hthread.refs, hu]
    case sets => exact fun u hu => by simp [hthread.sets]
    case free => exact fun el _ => ⟨by rw [hfree], by simp [hthread.owns]⟩
    case putting => exact fun u _ hmem => List.mem_cons_of_mem thread hmem
  by_cases hone : m.refCount h = 1
  · have hother : ∀ el < size, m.handle el ≠ h := fun el hel heq =>
      hkept (hlinked.cached_iff.mpr ⟨el, hel, heq⟩) hone
    cases hlinked.created h hother with
    | blank _ hzero => simp [hthread.refs] at hzero
    | used hdata =>
        rw [drop_of_eq hone hdata]
        refine ⟨?_, rfl, by simp⟩
        apply hlinked.update (h := h)
        · exact helse _ rfl rfl rfl (fun u hu => update_of_ne hu ..) fun u hu => update_of_ne hu ..
        · exact fun el hel heq => absurd heq (hother el hel)
        · intro _
          refine .blank (by simp) (by omega) ?_ (by omega)
          intro hpos
          omega
        · intro el hel
          simpa [hthread.owns] using hlinked.free el hel
        · exact fun hmem => absurd hmem hnot
  · rw [drop_of_ne hone (by omega)]
    refine ⟨?_, rfl, fun _ => .inl⟩
    apply hlinked.update (h := h)
    · exact helse _ rfl rfl rfl (fun _ _ => rfl) fun u hu => update_of_ne hu ..
    · rintro el hel rfl
      have helements := hlinked.elements el hel
      obtain ⟨-, ⟨d, hdata, hcache, hmid⟩, -⟩ := hlinked.element el hel
      simp [users, hthread.owns, hthread.sets, hthread.refs] at helements hmid
      refine ⟨⟨hlt, ⟨d, hdata, hcache, fun _ => hmid⟩, ?_⟩, ?_⟩
      · simp [hcount]
        omega
      · have hne : refs others (m.handle el) ≠ 0 := by omega
        simp [users, hne]
        omega
    · intro hother
      cases hlinked.created h hother with
      | blank _ hzero => simp [hthread.refs] at hzero
      | used hdata =>
          refine .used hdata ?_ hcreators
          simp [hcount]
    · intro el hel
      simpa [hthread.owns] using hlinked.free el hel
    · exact fun hmem => absurd hmem hnot

/-- `__margo_handle_cache_put` up to its section. -/
theorem Linked.put {arena : Bool} (hlinked : Linked size m (.cachePut h :: others))
    (hdata : m.data h = some ⟨true, some el, arena⟩) :
    Linked size { m with data := Function.update m.data h (some ⟨false, some el, arena⟩) }
      (.push el :: others) := by
  have hput := refers_cachePut h
  have hself : Thread.refs h (.cachePut h) = true := decide_eq_true rfl
  obtain ⟨hlt, hcount, hcreators⟩ := hlinked.counted (refs_pos List.mem_cons_self hself)
  have hnot := hlinked.not_putting hself
  have hone := hlinked.putting h List.mem_cons_self
  have hcached : m.Cached h := by simp [Shared.Cached, hdata]
  obtain ⟨e, he, heq⟩ := hlinked.cached_iff.mp hcached
  obtain ⟨d, hd, hcache, -⟩ := (hlinked.element e he).data
  rw [heq, hdata] at hd
  obtain rfl := Option.some.inj hd
  obtain rfl := Option.some.inj hcache
  subst heq
  rw [hone] at hcount
  simp [hput.refs, hput.sets] at hone hcreators
  apply hlinked.update (h := m.handle el)
  · constructor
    case handle => rfl
    case next => exact Nat.le_refl _
    case lt => exact hlt
    case data => exact fun u hu => update_of_ne hu ..
    case refCount => exact fun _ _ => rfl
    case refs => exact fun u hu => by simp [Thread.refs, hu]
    case sets => exact fun u hu => by simp [Thread.sets]
    case free =>
      intro el' hne
      have hel' : el' ≠ el := fun heq => hne (heq ▸ rfl)
      exact ⟨rfl, by simp [Thread.owns, hel']⟩
    case putting => exact fun u _ hmem => List.mem_cons_of_mem _ (by simpa using hmem)
  · intro e' he' heq
    obtain rfl := hlinked.handle_inj he' he heq
    have helements := hlinked.elements e' he'
    simp [users, hput.owns, hput.sets, hput.refs, hone, hcreators] at helements
    refine ⟨⟨hlt, ⟨_, update_self .., rfl, ?_⟩, ?_⟩, ?_⟩
    · simp [Thread.refs, hone]
    · simp [Thread.refs, hone, hcount]
    · simp [users, Thread.owns, Thread.sets, Thread.refs, hone, hcreators]
      omega
  · exact fun hother => absurd rfl (hother el he)
  · intro el' hel'
    have hne : el' ≠ el := by omega
    simpa [Thread.owns, hput.owns, hne] using hlinked.free el' hel'
  · exact fun hmem => absurd (by simpa using hmem) hnot

theorem Linked.perm (hlinked : Linked size m threads) (hperm : threads.Perm threads') :
    Linked size m threads' := by
  apply hlinked.congr
  · exact fun h => (hperm.countP_eq _).symm
  · exact fun el => (hperm.countP_eq _).symm
  · exact fun h => (hperm.countP_eq _).symm
  · exact fun h hmem => hlinked.putting h (hperm.mem_iff.mpr hmem)

theorem users_perm (hperm : threads.Perm threads') : users m threads el = users m threads' el := by
  have howners : owners threads el = owners threads' el := hperm.countP_eq _
  have hcreators : creators threads (m.handle el) = creators threads' (m.handle el) :=
    hperm.countP_eq _
  have hrefs : refs threads (m.handle el) = refs threads' (m.handle el) := hperm.countP_eq _
  rw [users, users, howners, hcreators, hrefs]

/-- A thread goes on with what it has. -/
theorem Linked.replace {x y : Thread} (hlinked : Linked size m (x :: others))
    (hrefs : ∀ h, y.refs h = x.refs h) (howns : ∀ el, y.owns el = x.owns el)
    (hsets : ∀ h, y.sets h = x.sets h)
    (hputs : ∀ h, y = .cachePut h → refs (x :: others) h = 1) : Linked size m (y :: others) := by
  apply hlinked.congr
  · exact fun h => by rw [refs_cons, refs_cons, hrefs]
  · exact fun el => by rw [owners_cons, owners_cons, howns]
  · exact fun h => by rw [creators_cons, creators_cons, hsets]
  · intro h hmem
    obtain heq | hmem := List.mem_cons.mp hmem
    · exact hputs h heq.symm
    · exact hlinked.putting h (List.mem_cons_of_mem x hmem)

/-- An element moves between the free list and a call. -/
theorem Linked.exchange {x y : Thread} (hlinked : Linked size m (x :: others))
    (freeHandleList : List Nat) (hrefs : ∀ h, y.refs h = x.refs h)
    (hsets : ∀ h, y.sets h = x.sets h)
    (hmoved : ∀ el, freeHandleList.count el + (if y.owns el then 1 else 0) =
      m.freeHandleList.count el + if x.owns el then 1 else 0)
    (hputs : ∀ h, y ≠ .cachePut h) : Linked size { m with freeHandleList } (y :: others) := by
  apply hlinked.move
  · exact fun h => by rw [refs_cons, refs_cons, hrefs]
  · exact fun h => by rw [creators_cons, creators_cons, hsets]
  · intro el
    have hel := hmoved el
    rw [owners_cons, owners_cons]
    omega
  · intro h hmem
    exact List.mem_cons_of_mem x ((List.mem_cons.mp hmem).resolve_left (hputs h).symm)

/-- The handle of an element is handed to `margo_create`. -/
theorem Linked.handOver (hlinked : Linked size m (.reset el :: others)) :
    Linked size m (.setData (m.handle el) :: others) := by
  have hel : el < size := by
    by_contra hge
    have hnone := (hlinked.free el (Nat.not_lt.mp hge)).2
    simp [Thread.owns] at hnone
  have helements := hlinked.elements el hel
  have hrefs : refs others (m.handle el) = 0 := by
    by_contra hne
    simp [users, Thread.owns, Thread.sets, Thread.refs, hne] at helements
    omega
  simp [users, Thread.owns, Thread.sets, Thread.refs, hrefs] at helements
  apply hlinked.update (h := m.handle el)
  · constructor
    case handle => rfl
    case next => exact Nat.le_refl _
    case lt => exact (hlinked.element el hel).lt
    case data => exact fun _ _ => rfl
    case refCount => exact fun _ _ => rfl
    case refs => exact fun u _ => by simp [Thread.refs]
    case sets => exact fun u hu => by simp [Thread.sets, hu]
    case free =>
      intro el' hne
      have hel' : el' ≠ el := fun heq => hne (heq ▸ rfl)
      exact ⟨rfl, by simp [Thread.owns, hel']⟩
    case putting => exact fun u _ hmem => List.mem_cons_of_mem _ (by simpa using hmem)
  · intro e he heq
    obtain rfl := hlinked.handle_inj he hel heq
    refine ⟨(hlinked.element e he).congr rfl (Nat.le_refl _) rfl rfl ?_, ?_⟩
    · simp [Thread.refs]
    · simp [users, Thread.owns, Thread.sets, Thread.refs, hrefs]
      omega
  · exact fun hother => absurd rfl (hother el hel)
  · intro e he
    have hne : e ≠ el := by omega
    simpa [Thread.owns, hne] using hlinked.free e he
  · intro hmem
    have hput := hlinked.putting (m.handle el) (List.mem_cons_of_mem _ (by simpa using hmem))
    simp [Thread.refs, hrefs] at hput

/-- A client is outside of any call. -/
theorem Linked.client (hlinked : Linked size m others) : Linked size m (.client :: others) := by
  apply hlinked.congr
  · exact fun h => refs_cons ..
  · exact fun el => owners_cons ..
  · exact fun h => creators_cons ..
  · exact fun h hmem => hlinked.putting h (by simpa using hmem)

theorem count_push (el e : Nat) (rest : List Nat) :
    (el :: rest).count e = rest.count e + if e = el then 1 else 0 := by
  rw [List.count_cons]
  by_cases heq : el = e
  · simp [heq]
  · simp [heq, Ne.symm heq]

theorem lost_of_not_cached (hnot : ¬m.Cached h) :
    (m.data h).toList.flatMap (·.cacheEl.toList) = [] := by
  rw [Shared.Cached] at hnot
  cases hdata : m.data h with
  | none => rfl
  | some d => simpa [hdata] using hnot

/-- A step keeps the free list, the handles and the threads together. -/
theorem Linked.program (hlinked : Linked size m (thread :: others))
    (hrecycles : Recycles ⟨m, thread :: others⟩ (0, choice))
    (hprogram : Handle.program m thread choice = some (m', ts)) :
    Linked size m' (ts ++ others) ∧ m'.lost = m.lost ∧
      ∀ arena ∈ m'.released, arena ∈ m.released ∨ arena = true := by
  cases thread with
  | client =>
      cases choice with
      | create =>
          cases hprogram
          exact ⟨hlinked.replace (fun _ => rfl) (fun _ => rfl) (fun _ => rfl) (by simp), rfl,
            fun _ => .inl⟩
      | _ => cases hprogram
  | cacheGet =>
      cases choice with
      | ok =>
          simp only [Handle.program] at hprogram
          cases hlist : m.freeHandleList with
          | nil =>
              rw [hlist] at hprogram
              cases hprogram
              exact ⟨hlinked.replace (fun _ => rfl) (fun _ => rfl) (fun _ => rfl) (by simp), rfl,
                fun _ => .inl⟩
          | cons el rest =>
              rw [hlist] at hprogram
              cases hprogram
              refine ⟨hlinked.exchange rest (fun _ => rfl) (fun _ => rfl) ?_ (by simp), rfl,
                fun _ => .inl⟩
              intro e
              rw [hlist, count_push]
              simp [Thread.owns]
      | _ => cases hprogram
  | reset el =>
      cases choice with
      | ok =>
          cases hprogram
          exact ⟨hlinked.handOver, rfl, fun _ => .inl⟩
      | fail =>
          cases hprogram
          exact ⟨hlinked.replace (fun _ => rfl) (fun _ => rfl) (fun _ => rfl) (by simp), rfl,
            fun _ => .inl⟩
      | _ => cases hprogram
  | putBack el | push el =>
      cases choice with
      | ok =>
          cases hprogram
          refine ⟨hlinked.exchange _ (fun _ => rfl) (fun _ => rfl) ?_ (by simp), rfl,
            fun _ => .inl⟩
          intro e
          rw [count_push]
          simp [Thread.owns]
      | _ => cases hprogram
  | hgCreate =>
      cases choice with
      | ok =>
          cases hprogram
          exact ⟨hlinked.create, rfl, fun _ => .inl⟩
      | fail =>
          cases hprogram
          exact ⟨hlinked.replace (fun _ => rfl) (fun _ => rfl) (fun _ => rfl) (by simp), rfl,
            fun _ => .inl⟩
      | _ => cases hprogram
  | setData h =>
      cases choice with
      | ok =>
          cases hprogram
          exact ⟨hlinked.setData, rfl, fun _ => .inl⟩
      | fail =>
          have hnot : ¬m.Cached h := hrecycles
          cases hprogram
          refine ⟨hlinked.abandon hnot _, ?_, fun _ => .inl⟩
          rw [lost_of_not_cached hnot, List.append_nil]
      | noSetData =>
          simp only [Handle.program] at hprogram
          split at hprogram
          · next hnone =>
              cases hprogram
              have hnot : ¬m.Cached h := by simp [Shared.Cached, hnone]
              exact ⟨hlinked.abandon hnot m.lost, rfl, fun _ => .inl⟩
          · cases hprogram
      | _ => cases hprogram
  | holder h =>
      cases choice with
      | refIncr =>
          cases hprogram
          exact ⟨hlinked.retain (refers_holder h) (by simp), rfl, fun _ => .inl⟩
      | forward =>
          cases hprogram
          exact ⟨hlinked.retain (refers_inFlight h) (by simp), rfl, fun _ => .inl⟩
      | destroy =>
          cases hprogram
          exact ⟨hlinked.replace (fun _ => rfl) (fun _ => rfl) (fun _ => rfl) (by simp), rfl,
            fun _ => .inl⟩
      | _ => cases hprogram
  | refGet h =>
      cases choice with
      | ok =>
          simp only [Handle.program] at hprogram
          split at hprogram
          · next hone =>
              cases hprogram
              refine ⟨hlinked.replace (fun _ => rfl) (fun _ => rfl) (fun _ => rfl) ?_, rfl,
                fun _ => .inl⟩
              rintro u heq
              obtain rfl := Thread.cachePut.inj heq
              rw [← hone]
              exact (hlinked.counted (refs_pos List.mem_cons_self (decide_eq_true rfl))).2.1.symm
          · cases hprogram
            exact ⟨hlinked.replace (fun _ => rfl) (fun _ => rfl) (fun _ => rfl) (by simp), rfl,
              fun _ => .inl⟩
      | _ => cases hprogram
  | hgDestroy h =>
      cases choice with
      | ok =>
          have hkept : m.Cached h → m.refCount h ≠ 1 := hrecycles
          cases hprogram
          obtain ⟨hdropped, hlost, hreleased⟩ := hlinked.drop (refers_hgDestroy h) hkept
          exact ⟨hdropped.client, hlost, hreleased⟩
      | _ => cases hprogram
  | cachePut h =>
      cases choice with
      | ok =>
          simp only [Handle.program] at hprogram
          split at hprogram
          · next el arena hdata =>
              cases hprogram
              exact ⟨hlinked.put hdata, rfl, fun _ => .inl⟩
          all_goals
            cases hprogram
            exact ⟨hlinked.replace (fun _ => rfl) (fun _ => rfl) (fun _ => rfl) (by simp), rfl,
              fun _ => .inl⟩
      | _ => cases hprogram
  | inFlight h =>
      cases choice with
      | ok =>
          have hkept : m.Cached h → m.refCount h ≠ 1 := hrecycles
          cases hprogram
          exact hlinked.drop (refers_inFlight h) hkept
      | _ => cases hprogram

/-- A step that does not recycle takes an element away from the cache. -/
theorem Linked.program_lost (hlinked : Linked size m (thread :: others))
    (hnot : ¬Recycles ⟨m, thread :: others⟩ (0, choice))
    (hprogram : Handle.program m thread choice = some (m', ts)) :
    ∃ el < size, m'.freeHandleList.count el + users m' (ts ++ others) el ≠ 1 := by
  have hdropped : ∀ h, Refers h thread → m.Cached h → m.refCount h = 1 →
      ∃ el < size, (m.drop h).freeHandleList.count el + users (m.drop h) others el ≠ 1 := by
    intro h hthread hcached hone
    obtain ⟨el, hel, rfl⟩ := hlinked.cached_iff.mp hcached
    have hself : thread.refs (m.handle el) = true := by simp [hthread.refs]
    have hcount := (hlinked.counted (refs_pos List.mem_cons_self hself)).2.1
    have helements := hlinked.elements el hel
    have hsame : (m.drop (m.handle el)).freeHandleList = m.freeHandleList ∧
        (m.drop (m.handle el)).handle = m.handle := by
      rw [Shared.drop]
      split <;> exact ⟨rfl, rfl⟩
    rw [hone] at hcount
    simp [users, hthread.refs, hthread.owns, hthread.sets] at hcount helements
    refine ⟨el, hel, ?_⟩
    rw [users, hsame.1, hsame.2, if_pos hcount]
    omega
  cases thread with
  | setData h =>
      cases choice with
      | fail =>
          have hcached : m.Cached h := not_not.mp hnot
          cases hprogram
          obtain ⟨el, hel, rfl⟩ := hlinked.cached_iff.mp hcached
          have helements := hlinked.elements el hel
          have hsets : 0 < creators (.setData (m.handle el) :: others) (m.handle el) :=
            List.countP_pos_iff.mpr ⟨_, List.mem_cons_self, decide_eq_true rfl⟩
          have hrefs := hlinked.refs_eq_zero hsets
          simp [users, Thread.owns, Thread.sets, Thread.refs] at hrefs helements
          refine ⟨el, hel, ?_⟩
          simp [users, Thread.owns, Thread.sets, Thread.refs, hrefs]
          omega
      | _ => exact absurd trivial hnot
  | hgDestroy h =>
      cases choice with
      | ok =>
          obtain ⟨hcached, hone⟩ := Classical.not_imp.mp hnot
          cases hprogram
          obtain ⟨el, hel, hlost⟩ := hdropped h (refers_hgDestroy h) hcached (not_not.mp hone)
          refine ⟨el, hel, ?_⟩
          simpa [users, Thread.owns, Thread.sets, Thread.refs] using hlost
      | _ => exact absurd trivial hnot
  | inFlight h =>
      cases choice with
      | ok =>
          obtain ⟨hcached, hone⟩ := Classical.not_imp.mp hnot
          cases hprogram
          exact hdropped h (refers_inFlight h) hcached (not_not.mp hone)
      | _ => exact absurd trivial hnot
  | _ => exact absurd trivial hnot

/-! ## The initialized cache -/

/-- One more element of the cache, before any handle is used. -/
theorem Linked.addElement (hlinked : Linked size m threads) (howners : ∀ el, owners threads el = 0)
    (hrefs : ∀ h, refs threads h = 0) (hcreators : ∀ h, creators threads h = 0) :
    Linked (size + 1) (m.addElement size) threads := by
  have hhandle : ∀ el < size, (m.addElement size).handle el = m.handle el := fun el hel =>
    update_of_ne (Nat.ne_of_lt hel) ..
  have hnext : (m.addElement size).handle size = m.nextHandle := update_self ..
  constructor
  case elements =>
    intro el hel
    have hcount : (m.addElement size).freeHandleList.count el =
        m.freeHandleList.count el + if el = size then 1 else 0 := count_push ..
    obtain hlt | rfl := Nat.lt_succ_iff_lt_or_eq.mp hel
    · have helements := hlinked.elements el hlt
      simp only [users, howners, hrefs, hcreators] at helements ⊢
      rw [hcount, if_neg (Nat.ne_of_lt hlt)]
      exact helements
    · simp [users, howners, hrefs, hcreators, hcount, (hlinked.free el (Nat.le_refl _)).1]
  case element =>
    intro el hel
    obtain hlt | rfl := Nat.lt_succ_iff_lt_or_eq.mp hel
    · have hne : m.handle el ≠ m.nextHandle := Nat.ne_of_lt (hlinked.element el hlt).lt
      exact (hlinked.element el hlt).congr (hhandle el hlt) (Nat.le_succ _)
        (update_of_ne hne ..) (update_of_ne hne ..) rfl
    · constructor
      · rw [hnext]
        exact Nat.lt_succ_self _
      · rw [hnext]
        refine ⟨⟨false, some el, false⟩, update_self .., rfl, fun hpos => ?_⟩
        rw [hrefs] at hpos
        cases hpos
      · rw [hnext, hrefs]
        exact update_self ..
  case created =>
    intro h hother
    have hne : h ≠ m.nextHandle := fun heq =>
      hother size (Nat.lt_succ_self _) (hnext.trans heq.symm)
    have hold : ∀ el < size, m.handle el ≠ h := fun el hel heq =>
      hother el (Nat.lt_succ_of_lt hel) ((hhandle el hel).trans heq)
    exact (hlinked.created h hold).congr (update_of_ne hne ..) (update_of_ne hne ..) rfl rfl
  case free =>
    intro el hel
    have hcount : (m.addElement size).freeHandleList.count el =
        m.freeHandleList.count el + if el = size then 1 else 0 := count_push ..
    rw [hcount, if_neg (by omega), howners]
    exact ⟨(hlinked.free el (by omega)).1, rfl⟩
  case fresh => exact fun h _ => ⟨hrefs h, hcreators h⟩
  case putting =>
    intro h hmem
    have hpos : 0 < refs threads h := refs_pos hmem (decide_eq_true rfl)
    rw [hrefs] at hpos
    cases hpos

theorem linked_init {succeeds : Nat → Bool} (hinit : handleCacheInit succeeds size = some m)
    (howners : ∀ el, owners threads el = 0) (hrefs : ∀ h, refs threads h = 0)
    (hcreators : ∀ h, creators threads h = 0) :
    Linked size m threads ∧ m.lost = [] ∧ m.released = [] := by
  induction size generalizing m with
  | zero =>
      cases hinit
      refine ⟨?_, rfl, rfl⟩
      constructor
      case elements => exact fun el hel => absurd hel (Nat.not_lt_zero el)
      case element => exact fun el hel => absurd hel (Nat.not_lt_zero el)
      case created =>
        intro h _
        refine .blank rfl (hrefs h) ?_ ?_
        · simp [hcreators]
        · simp [hcreators]
      case free => exact fun el _ => ⟨rfl, howners el⟩
      case fresh => exact fun h _ => ⟨hrefs h, hcreators h⟩
      case putting =>
        intro h hmem
        have hpos : 0 < refs threads h := refs_pos hmem (decide_eq_true rfl)
        rw [hrefs] at hpos
        cases hpos
  | succ size ih =>
      obtain ⟨before, hbefore, hadd⟩ := Option.bind_eq_some_iff.mp hinit
      split at hadd
      · obtain rfl := Option.some.inj hadd
        obtain ⟨hlinked, hlost, hreleased⟩ := ih hbefore
        exact ⟨hlinked.addElement howners hrefs hcreators, hlost, hreleased⟩
      · cases hadd

end

/-! ## Every run -/

section

variable {size : Nat} {s s' : Handles} {a : Move}

/-- What a step recycles does not depend on the order of the threads. -/
theorem recycles_congr {thread : Thread} {others : List Thread}
    (hthread : s.threads[a.1]? = some thread) :
    Recycles s a ↔ Recycles ⟨s.shared, thread :: others⟩ (0, a.2) := by
  simp only [Recycles, hthread, List.getElem?_cons_zero]

theorem linked_step (hlinked : Linked size s.shared s.threads) (hrecycles : Recycles s a)
    (hstep : step s a = some s') : Linked size s'.shared s'.threads ∧
      s'.shared.lost = s.shared.lost ∧
      ∀ arena ∈ s'.shared.released, arena ∈ s.shared.released ∨ arena = true := by
  obtain ⟨thread, ts, hthread, hprogram, hperm, hperm'⟩ := step_cases hstep
  obtain ⟨hlinked', hlost, hreleased⟩ :=
    (hlinked.perm hperm).program ((recycles_congr hthread).mp hrecycles) hprogram
  exact ⟨hlinked'.perm hperm'.symm, hlost, hreleased⟩

/-- A step recycles exactly if it conserves the elements. -/
theorem conserved_step (hlinked : Linked size s.shared s.threads) (hconserved : Conserved size s)
    (hstep : step s a = some s') : Conserved size s' ↔ Recycles s a := by
  constructor
  · intro hafter
    by_contra hnot
    obtain ⟨thread, ts, hthread, hprogram, hperm, hperm'⟩ := step_cases hstep
    obtain ⟨el, hel, hlost⟩ := (hlinked.perm hperm).program_lost
      (mt (recycles_congr hthread).mpr hnot) hprogram
    have helements := hafter.elements el hel
    rw [users_perm hperm'] at helements
    exact hlost helements
  · intro hrecycles
    obtain ⟨hlinked', hlost, hreleased⟩ := linked_step hlinked hrecycles hstep
    refine ⟨hlinked'.elements, hlost.trans hconserved.lost, fun arena harena => ?_⟩
    exact (hreleased arena harena).elim (hconserved.released arena) id

/-- The elements of the cache are conserved in every state of a run if and only if
every step of it recycles. -/
theorem elements_conserved_iff {m : Shared} {succeeds : Nat → Bool}
    (hinit : handleCacheInit succeeds size = some m) (clients : Nat) (moves : List Move) :
    Run step (fun _ _ t => Conserved size t) (start m clients) moves s ↔
      Run step (fun t a _ => Recycles t a) (start m clients) moves s := by
  have hclients : ∀ p : Thread → Bool, p .client = false →
      (start m clients).threads.countP p = 0 := by
    intro p hp
    refine List.countP_eq_zero.mpr fun x hx => ?_
    rw [List.eq_of_mem_replicate hx, hp]
    exact Bool.false_ne_true
  obtain ⟨hlinked, hlost, hreleased⟩ : Linked size m (start m clients).threads ∧ _ :=
    linked_init hinit (fun el => hclients _ rfl) (fun h => hclients _ rfl) fun h => hclients _ rfl
  apply Run.invariant_iff_of_invariant (I := fun t => Linked size t.shared t.threads)
  · intro t a t' ht hconserved hafter hstep
    exact (linked_step ht ((conserved_step ht hconserved hstep).mp hafter) hstep).1
  · intro t a t' ht hconserved hstep
    exact conserved_step ht hconserved hstep
  · exact hlinked
  · refine ⟨hlinked.elements, hlost, fun arena harena => ?_⟩
    have hnone : arena ∈ m.released := harena
    rw [hreleased] at hnone
    cases hnone

/-- The only element is used for a forward, which completes before `margo_destroy`. -/
theorem elements_conserved_one :
    ∃ s, Run step (fun _ _ t => Conserved 1 t) (start (noHandles.addElement 0) 1)
        [(0, .create), (0, .ok), (0, .ok), (0, .ok), (0, .forward), (1, .ok), (0, .destroy),
          (0, .ok), (0, .ok), (0, .ok)] s ∧
      s.threads = [Thread.client] := by
  have hinit : handleCacheInit (fun _ => true) 1 = some (noHandles.addElement 0) := rfl
  refine (run_of_exec_map (G := fun t a _ => Recycles t a) (f := Config.threads) ?_).imp
    fun s hrun => ⟨(elements_conserved_iff hinit 1 _).mpr hrun.1, hrun.2⟩
  decide

/-- `margo_destroy` is called during a forward: it reads two references and drops one,
and the completion of the forward drops the last one. -/
theorem destroyed_in_flight :
    ¬∀ (size : Nat) (succeeds : Nat → Bool) (m : Shared) (clients : Nat) (moves : List Move)
      (s : Handles), handleCacheInit succeeds size = some m →
      Run step Any (start m clients) moves s → Conserved size s := by
  intro hall
  let moves : List Move :=
    [(0, .create), (0, .ok), (0, .ok), (0, .ok), (0, .forward), (0, .destroy), (0, .ok), (0, .ok),
      (1, .ok)]
  have hexec : (exec step Any (start (noHandles.addElement 0) 1) moves).map
      (fun s => (s.threads, s.shared.freeHandleList, s.shared.released)) =
      some ([.client], [], [false]) := by decide
  obtain ⟨s, hrun, hend⟩ := run_of_exec_map hexec
  simp only [Prod.mk.injEq] at hend
  have hreleased := (hall 1 (fun _ => true) _ _ _ _ rfl hrun).released false
  rw [hend.2.2] at hreleased
  cases hreleased (List.mem_singleton_self false)

end

end Margo.Handle
