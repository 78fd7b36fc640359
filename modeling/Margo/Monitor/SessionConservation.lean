import Margo.Monitor.Sessions
import Mathlib.Data.List.Dedup

/-!
# Conservation of the monitoring sessions

The sessions of handles and of bulk transfers are all free or in use in every state of a run
exactly if the run has four kinds of steps not: a `margo_create` that fails, an operation of
Mercury that ends with the last reference to a handle, a bulk transfer that is not issued, and
one that completes with a callback.

## Implementation notes

The reference count of a handle in use is the number of its references. A handle has a session
as soon as it has data, and what takes or gives an object out of turn changes how many are
accounted for.
-/

namespace Margo.Monitor.Sessions

open Function Handle Lib.Runs Lib.Slots Request
open Handle.User (Answers handleCacheGet freeHandles)
open scoped List

/-! ## The data of the monitor -/

section

variable (s : State) (handle : Option Nat) (session : Nat)

theorem setMonitoringData_eq : setMonitoringData s handle session =
    { s with monitorData := (setMonitoringData s handle session).monitorData } := by
  cases handle with
  | none => rfl
  | some h =>
      simp only [setMonitoringData]
      split <;> rfl

/-- The session is attached to a handle with data, and to no other one. -/
theorem session_setMonitoringData (x : Nat) : (setMonitoringData s handle session).session x =
    if handle = some x ∧ s.shared.data x ≠ none then some session else s.session x := by
  cases handle with
  | none => simp [setMonitoringData]
  | some h =>
      cases hdata : s.shared.data h with
      | none =>
          have hsame : setMonitoringData s (some h) session = s := by
            simp only [setMonitoringData, hdata]
          rw [hsame, if_neg]
          rintro ⟨heq, hsome⟩
          exact hsome (Option.some.inj heq ▸ hdata)
      | some d =>
          simp only [setMonitoringData, hdata]
          by_cases heq : h = x
          · subst heq
            simp [State.session, hdata]
          · simp [State.session, update_of_ne (Ne.symm heq), heq]

end

/-! ## The sessions of the live handles -/

section

variable {s s' : State} {h : Nat}

theorem nodup_live (s : State) : s.live.Nodup := List.nodup_dedup _

theorem mem_live : h ∈ s.live ↔ h ∈ s.refs := List.mem_dedup

/-- The same handles with the same sessions. -/
theorem sessions_same (hrefs : ∀ x, x ∈ s'.refs ↔ x ∈ s.refs)
    (hsession : ∀ x ∈ s.refs, s'.session x = s.session x) : s'.sessions ~ s.sessions := by
  have hlive : s'.live ~ s.live := by
    apply (List.perm_ext_iff_of_nodup (nodup_live s') (nodup_live s)).mpr
    intro x
    rw [mem_live, mem_live]
    exact hrefs x
  apply (hlive.filterMap s'.session).trans
  rw [List.filterMap_congr fun x hx => hsession x (mem_live.mp hx)]
  rfl

/-- One live handle more. -/
theorem sessions_add (hnew : h ∉ s.refs) (hrefs : ∀ x, x ∈ s'.refs ↔ x = h ∨ x ∈ s.refs)
    (hsession : ∀ x ∈ s.refs, s'.session x = s.session x) :
    s'.sessions ~ (s'.session h).toList ++ s.sessions := by
  have hnodup : (h :: s.live).Nodup :=
    List.nodup_cons.mpr ⟨fun hmem => hnew (mem_live.mp hmem), nodup_live s⟩
  have hlive : s'.live ~ h :: s.live := by
    apply (List.perm_ext_iff_of_nodup (nodup_live s') hnodup).mpr
    intro x
    rw [mem_live, List.mem_cons, mem_live]
    exact hrefs x
  apply (hlive.filterMap s'.session).trans
  have hsame : s.live.filterMap s'.session = s.sessions :=
    List.filterMap_congr fun x hx => hsession x (mem_live.mp hx)
  rw [List.filterMap_cons, hsame]
  cases s'.session h <;> rfl

/-- How many sessions there are depends on which handles have one. -/
theorem length_sessions (hrefs : s'.refs = s.refs)
    (hsome : ∀ x ∈ s.refs, (s'.session x).isSome = (s.session x).isSome) :
    s'.sessions.length = s.sessions.length := by
  rw [State.sessions, State.sessions, List.length_filterMap_eq_countP,
    List.length_filterMap_eq_countP, State.live, State.live, hrefs]
  apply List.countP_congr
  intro x hx
  rw [hsome x (List.mem_dedup.mp hx)]

end

/-! ## References, handles and their data -/

/-- How the references to the handles and the free list belong together. -/
structure Sound (m : Shared) (refs : List Nat) : Prop where
  refCount : ∀ h ∈ refs, m.refCount h = refs.count h
  lt : ∀ h ∈ refs, h < m.nextHandle
  data : ∀ h ∈ refs, ∀ d, m.data h = some d →
    d.mid = true ∧ ∀ el, d.cacheEl = some el → m.handle el = h
  nodup : (freeHandles m).Nodup
  free : ∀ el ∈ m.freeHandleList, m.handle el ∉ refs ∧ m.handle el < m.nextHandle ∧
    m.refCount (m.handle el) = 1 ∧ ∃ d, m.data (m.handle el) = some d ∧ d.cacheEl = some el

section

variable {m : Shared} {refs refs' : List Nat} {h el : Nat} {rest : List Nat}

theorem Sound.perm (hsound : Sound m refs) (hperm : refs ~ refs') : Sound m refs' where
  refCount x hx := (hsound.refCount x (hperm.mem_iff.mpr hx)).trans (hperm.count_eq x)
  lt x hx := hsound.lt x (hperm.mem_iff.mpr hx)
  data x hx := hsound.data x (hperm.mem_iff.mpr hx)
  nodup := hsound.nodup
  free el hel := by
    obtain ⟨hmem, hrest⟩ := hsound.free el hel
    exact ⟨mt hperm.mem_iff.mpr hmem, hrest⟩

/-- The number of the next handle is not that of one in use. -/
theorem Sound.fresh (hsound : Sound m refs) : m.nextHandle ∉ refs := by
  intro hmem
  exact Nat.lt_irrefl _ (hsound.lt _ hmem)

/-- The last reference is the only one. -/
theorem Sound.last (hsound : Sound m refs) (hperm : refs ~ h :: refs')
    (hcount : m.refCount h = 1) : h ∉ refs' := by
  have hrefs := (hsound.perm hperm).refCount h List.mem_cons_self
  rw [hcount, List.count_cons_self] at hrefs
  exact List.count_eq_zero.mp (Nat.succ.inj hrefs).symm

/-- A handle that Mercury makes. -/
theorem Sound.new (hsound : Sound m refs) :
    Sound { m with
      refCount := update m.refCount m.nextHandle 1
      data := update m.data m.nextHandle none
      nextHandle := m.nextHandle + 1 } (m.nextHandle :: refs) := by
  have hfresh := hsound.fresh
  have hne : ∀ x ∈ refs, x ≠ m.nextHandle := fun x hx heq => hfresh (heq ▸ hx)
  constructor
  · intro x hx
    obtain rfl | hx := List.mem_cons.mp hx
    · simp [List.count_eq_zero.mpr hfresh]
    · simp only [update_of_ne (hne x hx), List.count_cons_of_ne (hne x hx).symm]
      exact hsound.refCount x hx
  · intro x hx
    obtain rfl | hx := List.mem_cons.mp hx
    · exact Nat.lt_succ_self _
    · exact Nat.lt_succ_of_lt (hsound.lt x hx)
  · intro x hx d hd
    dsimp only at hd
    obtain rfl | hx := List.mem_cons.mp hx
    · rw [update_self] at hd
      cases hd
    · rw [update_of_ne (hne x hx)] at hd
      exact hsound.data x hx d hd
  · exact hsound.nodup
  · intro el hel
    obtain ⟨hmem, hlt, hcount, hdata⟩ := hsound.free el hel
    have hother : m.handle el ≠ m.nextHandle := Nat.ne_of_lt hlt
    simp only [update_of_ne hother]
    exact ⟨fun hcons => (List.mem_cons.mp hcons).elim hother hmem, Nat.lt_succ_of_lt hlt,
      hcount, hdata⟩

theorem data_setHandleData : (m.setHandleData h).data =
    update m.data h (some { (m.data h).getD ⟨false, none, true⟩ with mid := true }) := rfl

theorem data_setHandleData_of_ne {x : Nat} (hne : x ≠ h) :
    (m.setHandleData h).data x = m.data x := update_of_ne hne _ _

/-- The data of a handle in use is attached, or set again. -/
theorem Sound.setHandleData (hsound : Sound m refs) (hh : h ∈ refs) :
    Sound (m.setHandleData h) refs := by
  constructor
  · exact hsound.refCount
  · exact hsound.lt
  · intro x hx d hd
    by_cases heq : x = h
    · subst heq
      rw [data_setHandleData, update_self] at hd
      cases hold : m.data x with
      | none =>
          rw [hold] at hd
          cases hd
          exact ⟨rfl, nofun⟩
      | some d' =>
          rw [hold] at hd
          cases hd
          exact ⟨rfl, (hsound.data x hx d' hold).2⟩
    · rw [data_setHandleData_of_ne heq] at hd
      exact hsound.data x hx d hd
  · exact hsound.nodup
  · intro el hel
    obtain ⟨hmem, hlt, hcount, d, hd, hcacheEl⟩ := hsound.free el hel
    have hother : m.handle el ≠ h := fun heq => hmem (heq ▸ hh)
    exact ⟨hmem, hlt, hcount, d, (data_setHandleData_of_ne hother).trans hd, hcacheEl⟩

/-- A handle of the cache is taken out of the free list and gets the data of an RPC. -/
theorem Sound.reuse (hsound : Sound m refs) (hlist : m.freeHandleList = el :: rest) :
    Sound (Shared.setHandleData { m with freeHandleList := rest } (m.handle el))
      (m.handle el :: refs) := by
  have hel : el ∈ m.freeHandleList := hlist ▸ List.mem_cons_self
  obtain ⟨hunused, hlt, hcount, d, hd, hcacheEl⟩ := hsound.free el hel
  have hne : ∀ x ∈ refs, x ≠ m.handle el := fun x hx heq => hunused (heq ▸ hx)
  have hnodup := hsound.nodup
  rw [freeHandles, hlist, List.map_cons, List.nodup_cons] at hnodup
  constructor
  · intro x hx
    obtain rfl | hx := List.mem_cons.mp hx
    · rw [List.count_cons_self, List.count_eq_zero.mpr hunused]
      exact hcount
    · rw [List.count_cons_of_ne (hne x hx).symm]
      exact hsound.refCount x hx
  · intro x hx
    obtain rfl | hx := List.mem_cons.mp hx
    · exact hlt
    · exact hsound.lt x hx
  · intro x hx d' hd'
    rw [data_setHandleData] at hd'
    obtain rfl | hx := List.mem_cons.mp hx
    · rw [update_self, hd] at hd'
      cases hd'
      refine ⟨rfl, fun el' hel' => ?_⟩
      obtain rfl : el = el' := Option.some.inj (hcacheEl.symm.trans hel')
      rfl
    · rw [update_of_ne (hne x hx)] at hd'
      exact hsound.data x hx d' hd'
  · exact hnodup.2
  · intro el' hel'
    obtain ⟨hmem, hlt', hcount', d', hd', hcacheEl'⟩ :=
      hsound.free el' (hlist ▸ List.mem_cons_of_mem el hel')
    have hother : m.handle el' ≠ m.handle el := fun heq =>
      hnodup.1 (heq ▸ List.mem_map_of_mem hel')
    exact ⟨fun hcons => (List.mem_cons.mp hcons).elim hother hmem, hlt', hcount', d',
      (data_setHandleData_of_ne hother).trans hd', hcacheEl'⟩

/-- One reference more to a handle in use. -/
theorem Sound.incr (hsound : Sound m refs) (hh : h ∈ refs) :
    Sound { m with refCount := update m.refCount h (m.refCount h + 1) } (h :: refs) := by
  have hmem : ∀ x, x ∈ h :: refs → x ∈ refs := fun x hx =>
    (List.mem_cons.mp hx).elim (fun heq => heq ▸ hh) id
  constructor
  · intro x hx
    dsimp only
    by_cases heq : x = h
    · subst heq
      rw [update_self, List.count_cons_self, hsound.refCount x hh]
    · rw [update_of_ne heq, List.count_cons_of_ne (Ne.symm heq)]
      exact hsound.refCount x (hmem x hx)
  · exact fun x hx => hsound.lt x (hmem x hx)
  · exact fun x hx => hsound.data x (hmem x hx)
  · exact hsound.nodup
  · intro el hel
    obtain ⟨hunused, hlt, hcount, hdata⟩ := hsound.free el hel
    have hother : m.handle el ≠ h := fun heq => hunused (heq ▸ hh)
    refine ⟨mt (hmem _) hunused, hlt, ?_, hdata⟩
    exact (update_of_ne hother _ _).trans hcount

theorem data_drop (hcount : m.refCount h ≠ 1) (hpos : m.refCount h ≠ 0) :
    (m.drop h).data = m.data := by
  have hrest : m.refCount h - 1 ≠ 0 := by omega
  simp only [Shared.drop, update_self, if_neg hrest]

theorem data_drop_of_ne {x : Nat} (hne : x ≠ h) : (m.drop h).data x = m.data x := by
  simp only [Shared.drop]
  split
  · exact update_of_ne hne _ _
  · rfl

theorem refCount_drop : (m.drop h).refCount = update m.refCount h (m.refCount h - 1) := by
  simp only [Shared.drop]
  split <;> rfl

theorem frame_drop : (m.drop h).freeHandleList = m.freeHandleList ∧
    (m.drop h).handle = m.handle ∧ (m.drop h).nextHandle = m.nextHandle := by
  simp only [Shared.drop]
  split <;> exact ⟨rfl, rfl, rfl⟩

/-- Mercury drops a reference. -/
theorem Sound.drop (hsound : Sound m (h :: refs)) : Sound (m.drop h) refs := by
  obtain ⟨hlist, hhandle, hnext⟩ := frame_drop (m := m) (h := h)
  have hcount := hsound.refCount h List.mem_cons_self
  rw [List.count_cons_self] at hcount
  constructor
  · intro x hx
    rw [refCount_drop]
    by_cases heq : x = h
    · subst heq
      rw [update_self]
      omega
    · rw [update_of_ne heq, hsound.refCount x (List.mem_cons_of_mem h hx),
        List.count_cons_of_ne (Ne.symm heq)]
  · intro x hx
    rw [hnext]
    exact hsound.lt x (List.mem_cons_of_mem h hx)
  · intro x hx d hd
    rw [hhandle]
    apply hsound.data x (List.mem_cons_of_mem h hx) d
    by_cases heq : x = h
    · subst heq
      have hpos := List.count_pos_iff.mpr hx
      rwa [data_drop (by omega) (by omega)] at hd
    · rwa [data_drop_of_ne heq] at hd
  · rw [freeHandles, hlist, hhandle]
    exact hsound.nodup
  · intro el hel
    rw [hlist] at hel
    obtain ⟨hunused, hlt, hone, hdata⟩ := hsound.free el hel
    have hother : m.handle el ≠ h := fun heq => hunused (heq ▸ List.mem_cons_self)
    rw [hhandle, hnext, refCount_drop, data_drop_of_ne hother, update_of_ne hother]
    exact ⟨fun hmem => hunused (List.mem_cons_of_mem h hmem), hlt, hone, hdata⟩

/-- A handle of the cache goes back to the free list. -/
theorem Sound.put (hsound : Sound m (h :: refs)) (hlast : h ∉ refs) {mid arena : Bool}
    (hdata : m.data h = some ⟨mid, some el, arena⟩) :
    Sound { m with
      data := update m.data h (some ⟨false, some el, arena⟩)
      freeHandleList := el :: m.freeHandleList } refs := by
  have hhandle : m.handle el = h := (hsound.data h List.mem_cons_self _ hdata).2 el rfl
  have hcount := hsound.refCount h List.mem_cons_self
  rw [List.count_cons_self, List.count_eq_zero.mpr hlast] at hcount
  have hne : ∀ x ∈ refs, x ≠ h := fun x hx heq => hlast (heq ▸ hx)
  constructor
  · intro x hx
    rw [hsound.refCount x (List.mem_cons_of_mem h hx), List.count_cons_of_ne (hne x hx).symm]
  · exact fun x hx => hsound.lt x (List.mem_cons_of_mem h hx)
  · intro x hx d hd
    dsimp only at hd
    rw [update_of_ne (hne x hx)] at hd
    exact hsound.data x (List.mem_cons_of_mem h hx) d hd
  · rw [freeHandles, List.map_cons, List.nodup_cons]
    refine ⟨fun hmem => ?_, hsound.nodup⟩
    obtain ⟨el', hel', hsame⟩ := List.mem_map.mp hmem
    have hunused := (hsound.free el' hel').1
    rw [hsame, hhandle] at hunused
    exact hunused List.mem_cons_self
  · intro el' hel'
    obtain rfl | hel' := List.mem_cons.mp hel'
    · rw [hhandle]
      exact ⟨hlast, hsound.lt h List.mem_cons_self, hcount, _, update_self .., rfl⟩
    · obtain ⟨hunused, hlt, hone, hdata'⟩ := hsound.free el' hel'
      have hother : m.handle el' ≠ h := fun heq => hunused (heq ▸ List.mem_cons_self)
      dsimp only
      rw [update_of_ne hother]
      exact ⟨fun hmem => hunused (List.mem_cons_of_mem h hmem), hlt, hone, hdata'⟩

end

/-! ## Steps that keep the accounts -/

/-- The invariant of a run in which every session is accounted for. -/
structure Good (s : State) : Prop where
  sound : Sound s.shared s.refs
  sessions : s.sessionArena.Holds s.sessions
  bulkSessions : s.bulkSessionArena.Holds s.bulkSessions

/-- The bulk transfers are left alone. -/
structure SameBulk (s s' : State) : Prop where
  arena : s'.bulkSessionArena = s.bulkSessionArena
  requests : s'.bulkRequests = s.bulkRequests

section

variable {s s' : State} {h : Nat}

theorem SameBulk.trans {s'' : State} (hbulk : SameBulk s s') (hbulk' : SameBulk s' s'') :
    SameBulk s s'' :=
  ⟨hbulk'.arena.trans hbulk.arena, hbulk'.requests.trans hbulk.requests⟩

theorem Good.holdsBulk (hgood : Good s) (hbulk : SameBulk s s') :
    s'.bulkSessionArena.Holds s'.bulkSessions := by
  rw [State.bulkSessions, hbulk.arena, hbulk.requests]
  exact hgood.bulkSessions

theorem Good.conserved (hgood : Good s) : Conserved s where
  sessions := hgood.sessions
  bulkSessions := hgood.bulkSessions
  noHandles hlive := by
    have hheld := hgood.sessions
    rw [State.sessions, hlive] at hheld
    exact hheld.all_free
  noTransfers hrequests := by
    have hheld := hgood.bulkSessions
    rw [State.bulkSessions, hrequests] at hheld
    exact hheld.all_free

/-- No session is taken, given back or moved. -/
theorem Good.same (hgood : Good s) (hsound : Sound s'.shared s'.refs)
    (harena : s'.sessionArena = s.sessionArena) (hrefs : ∀ x, x ∈ s'.refs ↔ x ∈ s.refs)
    (hsession : ∀ x ∈ s.refs, s'.session x = s.session x) (hbulk : SameBulk s s') : Good s' where
  sound := hsound
  sessions := by
    rw [harena]
    exact hgood.sessions.perm (sessions_same hrefs hsession).symm
  bulkSessions := hgood.holdsBulk hbulk

theorem mem_refs_of_owned (howned : h ∈ s.owned) : h ∈ s.refs := List.mem_append_left _ howned

theorem mem_refs_of_mercury (hmercury : h ∈ s.mercury) : h ∈ s.refs :=
  List.mem_append_right _ hmercury

/-- The reference of a client or a handler, and the others. -/
theorem refs_erase_owned (howned : h ∈ s.owned) :
    s.refs ~ h :: (s.owned.erase h ++ s.mercury) :=
  (List.perm_cons_erase howned).append_right s.mercury

/-- The reference of Mercury, and the others. -/
theorem refs_erase_mercury (hmercury : h ∈ s.mercury) :
    s.refs ~ h :: (s.owned ++ s.mercury.erase h) :=
  ((List.perm_cons_erase hmercury).append_left s.owned).trans List.perm_middle

theorem mem_cons_iff_of_mem {l : List Nat} (hh : h ∈ l) (x : Nat) : x ∈ h :: l ↔ x ∈ l :=
  ⟨fun hx => (List.mem_cons.mp hx).elim (fun heq => heq ▸ hh) id, List.mem_cons_of_mem h⟩

/-- A client or a handler gets a reference more. -/
theorem Good.incrOwned (hgood : Good s) (hh : h ∈ s.refs) :
    Good { refIncr s h with owned := h :: s.owned } :=
  hgood.same (hgood.sound.incr hh) rfl (mem_cons_iff_of_mem hh) (fun _ _ => rfl) ⟨rfl, rfl⟩

/-- Mercury owns a reference during an operation. -/
theorem Good.hgSubmit (hgood : Good s) (hh : h ∈ s.refs) (accepted : Bool) :
    Good (hgSubmit s h accepted) := by
  rw [Sessions.hgSubmit]
  split
  · have hperm : h :: s.refs ~ s.owned ++ h :: s.mercury := List.perm_middle.symm
    refine hgood.same ?_ rfl (fun x => ?_) (fun _ _ => rfl) ⟨rfl, rfl⟩
    · exact (hgood.sound.incr hh).perm hperm
    · exact hperm.mem_iff.symm.trans (mem_cons_iff_of_mem hh x)
  · exact hgood

theorem Good.submit (hgood : Good s) (hh : h ∈ s.refs) (accepted : Bool) :
    Good (submit s h accepted) := by
  rw [Sessions.submit]
  split
  · exact hgood
  · exact hgood.hgSubmit hh accepted

/-- A new handle has no data, and no session. -/
theorem Good.arrive (hgood : Good s) : Good (arrive s) := by
  have hfresh := hgood.sound.fresh
  have hnone : (Sessions.arrive s).session s.shared.nextHandle = none := by
    simp [State.session, Sessions.arrive, newHandle]
  constructor
  · exact hgood.sound.new
  · have hadd : (Sessions.arrive s).sessions ~
        ((Sessions.arrive s).session s.shared.nextHandle).toList ++ s.sessions := by
      apply sessions_add hfresh
      · exact fun x => List.mem_cons
      · intro x hx
        have hne : x ≠ s.shared.nextHandle := fun heq => hfresh (heq ▸ hx)
        simp [State.session, Sessions.arrive, newHandle, update_of_ne hne]
    rw [hnone] at hadd
    exact hgood.sessions.perm hadd.symm
  · exact hgood.bulkSessions

/-- The data that is attached to a handle in use has no session yet. -/
theorem Good.setHandleData (hgood : Good s) (hh : h ∈ s.refs) :
    Good (internalSetHandleData s h true true).2 := by
  cases hdata : s.shared.data h with
  | some d =>
      simp only [internalSetHandleData, hdata, if_true]
      refine hgood.same ?_ rfl (fun _ => Iff.rfl) (fun x _ => ?_) ⟨rfl, rfl⟩
      · exact hgood.sound.setHandleData hh
      · by_cases heq : x = h
        · subst heq
          simp [State.session, data_setHandleData, hdata]
        · simp [State.session, data_setHandleData_of_ne heq]
  | none =>
      simp only [internalSetHandleData, hdata, if_true]
      refine hgood.same ?_ rfl (fun _ => Iff.rfl) (fun x _ => ?_) ⟨rfl, rfl⟩
      · exact hgood.sound.setHandleData hh
      · by_cases heq : x = h
        · subst heq
          simp [State.session, data_setHandleData, hdata]
        · simp [State.session, data_setHandleData_of_ne heq, update_of_ne heq]

/-- The session of a live handle and those of the others. -/
theorem sessions_split (hh : h ∈ s.refs) :
    s.sessions ~ (s.session h).toList ++ (s.live.erase h).filterMap s.session := by
  apply ((List.perm_cons_erase (mem_live.mpr hh)).filterMap s.session).trans
  rw [List.filterMap_cons]
  cases s.session h <;> rfl

/-- A handler finds the session of the handle, or attaches one. -/
theorem Good.onRpcHandler (hgood : Good s) (hh : h ∈ s.refs) (hdata : s.shared.data h ≠ none)
    (hstep : onRpcHandler s h = some s') : Good s' := by
  have hset : ∀ (t : State) (session : Nat), t.shared = s.shared →
      (setMonitoringData t (some h) session).session h = some session := fun t session hshared => by
    rw [session_setMonitoringData, if_pos ⟨rfl, hshared ▸ hdata⟩]
  have hothers : ∀ (t : State) (session : Nat), ∀ x, x ≠ h →
      (setMonitoringData t (some h) session).session x = t.session x := fun t session x hne => by
    rw [session_setMonitoringData, if_neg fun hand => hne (Option.some.inj hand.1).symm]
  rw [Sessions.onRpcHandler] at hstep
  cases hsession : s.session h with
  | some session =>
      simp only [hsession, Option.some.injEq] at hstep
      rw [← hstep]
      have hself := hset s session rfl
      have hrest := hothers s session
      rw [setMonitoringData_eq] at hself hrest ⊢
      refine hgood.same hgood.sound rfl (fun _ => Iff.rfl) (fun x _ => ?_) ⟨rfl, rfl⟩
      by_cases heq : x = h
      · rw [heq, hself, hsession]
      · exact hrest x heq
  | none =>
      simp only [hsession, Option.map_eq_some_iff] at hstep
      obtain ⟨⟨session, arena⟩, htake, hresult⟩ := hstep
      have hself := hset { s with sessionArena := arena } session rfl
      have hrest := hothers { s with sessionArena := arena } session
      rw [hresult] at hself hrest
      rw [setMonitoringData_eq] at hresult
      have hlive : s'.live = s.live := hresult ▸ rfl
      have hheld := hgood.sessions.perm (sessions_split hh)
      rw [hsession] at hheld
      have hsplit : s'.sessions ~ (s'.session h).toList ++ (s'.live.erase h).filterMap s'.session :=
        sessions_split (hresult ▸ hh)
      have hsame : (s'.live.erase h).filterMap s'.session =
          (s.live.erase h).filterMap s.session := by
        rw [hlive]
        apply List.filterMap_congr
        intro x hx
        exact hrest x ((nodup_live s).mem_erase_iff.mp hx).1
      rw [hself, hsame] at hsplit
      have hholds := (hheld.take htake).perm hsplit.symm
      have harena : s'.sessionArena = arena := hresult ▸ rfl
      refine ⟨hresult ▸ hgood.sound, ?_, hgood.holdsBulk ⟨hresult ▸ rfl, hresult ▸ rfl⟩⟩
      rw [harena]
      exact hholds

/-! ## The end of a handle -/

theorem onDestroy_eq (s : State) (h : Nat) :
    onDestroy s h = { s with sessionArena := (onDestroy s h).sessionArena } := by
  rw [onDestroy]
  split <;> rfl

/-- The session of a handle is given back when its life ends. -/
theorem Good.release (hgood : Good s) (hperm : s.refs ~ h :: s'.refs) (hlast : h ∉ s'.refs)
    (hsound : Sound s'.shared s'.refs)
    (harena : s'.sessionArena = (onDestroy s h).sessionArena)
    (hsession : ∀ x ∈ s'.refs, s.session x = s'.session x) (hbulk : SameBulk s s') : Good s' where
  sound := hsound
  sessions := by
    have hadd : s.sessions ~ (s.session h).toList ++ s'.sessions :=
      sessions_add hlast (fun x => hperm.mem_iff.trans List.mem_cons) hsession
    have hheld := hgood.sessions.perm hadd
    rw [harena, onDestroy]
    cases hown : s.session h with
    | none =>
        rw [hown] at hheld
        exact hheld
    | some session =>
        rw [hown] at hheld
        exact hheld.give
  bulkSessions := hgood.holdsBulk hbulk

/-- A reference that is not the last one is dropped. -/
theorem Good.drop (hgood : Good s) (hperm : s.refs ~ h :: s'.refs)
    (hcount : s.shared.refCount h ≠ 1) (hshared : s'.shared = s.shared.drop h)
    (hmonitor : s'.monitorData = s.monitorData) (harena : s'.sessionArena = s.sessionArena)
    (hbulk : SameBulk s s') : Good s' := by
  have hh : h ∈ s.refs := hperm.mem_iff.mpr List.mem_cons_self
  have hrefs := hgood.sound.refCount h hh
  have hcons := hperm.count_eq h
  rw [List.count_cons_self] at hcons
  have hpos := List.count_pos_iff.mpr hh
  have hmore : h ∈ s'.refs := List.count_pos_iff.mp (by omega)
  refine hgood.same ?_ harena (fun x => ?_) (fun x _ => ?_) hbulk
  · rw [hshared]
    exact (hgood.sound.perm hperm).drop
  · exact (mem_cons_iff_of_mem hmore x).symm.trans hperm.mem_iff.symm
  · rw [State.session, State.session, hshared, hmonitor, data_drop hcount (by omega)]

theorem Good.destroyOwned (hgood : Good s) (howned : h ∈ s.owned) : Good (destroyOwned s h) := by
  have hperm := refs_erase_owned howned
  have hh := mem_refs_of_owned howned
  rw [Sessions.destroyOwned, margoDestroy]
  by_cases hcount : s.shared.refCount h = 1
  · have hlast := hgood.sound.last hperm hcount
    have hne : ∀ x ∈ s.owned.erase h ++ s.mercury, x ≠ h := fun x hx heq => hlast (heq ▸ hx)
    have hsound := hgood.sound.perm hperm
    rw [if_neg (not_not.mpr hcount)]
    cases hdata : s.shared.data h with
    | none => exact hgood
    | some d =>
        obtain ⟨known, cacheEl, arena⟩ := d
        obtain rfl : known = true := (hgood.sound.data h hh _ hdata).1
        cases cacheEl with
        | some el =>
            rw [onDestroy_eq s h]
            simp only [handleCachePut, hdata, if_true]
            refine hgood.release hperm hlast ?_ rfl (fun x hx => ?_) ⟨rfl, rfl⟩
            · exact hsound.put hlast hdata
            · simp [State.session, update_of_ne (hne x hx)]
        | none =>
            rw [onDestroy_eq s h]
            simp only [handleCachePut, hdata, Bool.false_eq_true, if_false, if_true]
            refine hgood.release hperm hlast ?_ rfl (fun x hx => ?_) ⟨rfl, rfl⟩
            · exact hsound.drop
            · simp [State.session, hgDestroy, data_drop_of_ne (hne x hx)]
  · rw [if_pos hcount]
    exact hgood.drop hperm hcount rfl rfl rfl ⟨rfl, rfl⟩

theorem Good.dismiss (hgood : Good s) (howned : h ∈ s.owned) (responds : Bool) :
    Good (dismiss s h responds) := by
  apply (hgood.hgSubmit (mem_refs_of_owned howned) responds).destroyOwned
  rw [Sessions.hgSubmit]
  split
  · exact howned
  · exact howned

/-- Mercury drops a reference, unless it is the last one to a handle with a session. -/
theorem Good.operationEnd (hgood : Good s) (hmercury : h ∈ s.mercury)
    (hbalanced : s.session h ≠ none → s.shared.refCount h ≠ 1) :
    Good { hgDestroy s h with mercury := s.mercury.erase h } := by
  have hperm := refs_erase_mercury hmercury
  by_cases hcount : s.shared.refCount h = 1
  · have hnone : s.session h = none := by
      by_contra hsome
      exact hbalanced hsome hcount
    have hlast := hgood.sound.last hperm hcount
    refine hgood.release hperm hlast ?_ ?_ (fun x hx => ?_) ⟨rfl, rfl⟩
    · exact (hgood.sound.perm hperm).drop
    · rw [onDestroy, hnone]
      rfl
    · have hne : x ≠ h := fun heq => hlast (heq ▸ hx)
      simp [State.session, hgDestroy, data_drop_of_ne hne]
  · exact hgood.drop hperm hcount rfl rfl rfl ⟨rfl, rfl⟩

/-! ## Handlers -/

theorem owned_internalSetHandleData (s : State) (h : Nat) (registered setData : Bool) :
    (internalSetHandleData s h registered setData).2.owned = s.owned := by
  rw [internalSetHandleData]
  split
  · split
    · rfl
    · split <;> rfl
  · rfl

theorem data_internalSetHandleData (s : State) (h : Nat) :
    (internalSetHandleData s h true true).2.shared.data h ≠ none := by
  rw [internalSetHandleData, if_pos rfl]
  split <;> simp [data_setHandleData]

theorem owned_onRpcHandler (hstep : onRpcHandler s h = some s') : s'.owned = s.owned := by
  rw [onRpcHandler] at hstep
  split at hstep
  · rw [← Option.some.inj hstep, setMonitoringData_eq]
  · obtain ⟨⟨session, arena⟩, -, rfl⟩ := Option.map_eq_some_iff.mp hstep
    dsimp only
    rw [setMonitoringData_eq]

theorem Good.rpcHandler (hgood : Good s) (howned : h ∈ s.owned) {responds : Bool}
    {handling : Handling} (hstep : rpcHandler s h responds handling = some s') : Good s' := by
  have hh := mem_refs_of_owned howned
  have hset := hgood.setHandleData hh
  have hdata := data_internalSetHandleData s h
  have howned' : h ∈ (internalSetHandleData s h true true).2.owned := by
    rw [owned_internalSetHandleData]
    exact howned
  have hh' := mem_refs_of_owned howned'
  cases handling with
  | null | noData =>
      cases hstep
      exact hgood.dismiss howned responds
  | refused =>
      cases hstep
      exact hset.dismiss howned' responds
  | noUlt =>
      obtain ⟨t, ht, rfl⟩ := Option.map_eq_some_iff.mp hstep
      apply (hset.onRpcHandler hh' hdata ht).dismiss
      rw [owned_onRpcHandler ht]
      exact howned'
  | ult => exact hset.onRpcHandler hh' hdata hstep

/-! ## The creation of handles -/

/-- What `margo_create` leaves to its last event. -/
structure Created (s t : State) : Prop where
  owned : t.owned = s.owned
  mercury : t.mercury = s.mercury
  arena : t.sessionArena = s.sessionArena
  data : ∀ x ∈ s.refs, t.shared.data x = s.shared.data x
  session : ∀ x ∈ s.refs, t.session x = s.session x
  bulk : SameBulk s t

/-- A handle that has been created is a new one in use and has data. -/
structure CreatedNew (s t : State) (h : Nat) : Prop extends Created s t where
  fresh : h ∉ s.refs
  sound : Sound t.shared (h :: s.refs)
  attached : t.shared.data h ≠ none

theorem handleCacheGet_cases (m : Shared) (reset : Bool) :
    (∃ el rest, m.freeHandleList = el :: rest ∧ reset = true ∧
      handleCacheGet m reset = (some (m.handle el), { m with freeHandleList := rest })) ∨
    ¬(m.freeHandleList ≠ [] ∧ reset = true) ∧ handleCacheGet m reset = (none, m) := by
  rw [handleCacheGet]
  cases hlist : m.freeHandleList with
  | nil => exact .inr ⟨fun hand => hand.1 rfl, rfl⟩
  | cons el rest =>
      cases reset with
      | true => exact .inl ⟨el, rest, rfl, rfl, rfl⟩
      | false => exact .inr ⟨fun hand => Bool.false_ne_true hand.2, rfl⟩

theorem createHandle_succeeds {answers : Answers} (hgood : Good s) (before : Option Nat)
    (hsucceeds : CreateSucceeds s answers) :
    ∃ h t, createHandle s before answers = (true, some h, t) ∧ CreatedNew s t h := by
  obtain ⟨hregistered, hway⟩ := hsucceeds
  obtain ⟨el, rest, hlist, -, hget⟩ | ⟨hnone, hget⟩ := handleCacheGet_cases s.shared answers.reset
  · obtain ⟨hunused, -, -, d, hd, -⟩ :=
      hgood.sound.free el (hlist ▸ List.mem_cons_self)
    have hresult : createHandle s before answers = (true, some (s.shared.handle el),
        { s with
          shared := Shared.setHandleData { s.shared with freeHandleList := rest }
            (s.shared.handle el) }) := by
      simp only [createHandle, hget, internalSetHandleData, hregistered, hd, if_true]
    have hne : ∀ x ∈ s.refs, x ≠ s.shared.handle el := fun x hx heq => hunused (heq ▸ hx)
    refine ⟨_, _, hresult, ⟨rfl, rfl, rfl, fun x hx => ?_, fun x hx => ?_, ⟨rfl, rfl⟩⟩, hunused,
      hgood.sound.reuse hlist, ?_⟩
    · exact data_setHandleData_of_ne (hne x hx)
    · simp [State.session, data_setHandleData_of_ne (hne x hx)]
    · simp [data_setHandleData]
  · obtain ⟨hcreate, hsetData⟩ := hway.resolve_left hnone
    have hfresh := hgood.sound.fresh
    have hdata : (newHandle s).shared.data s.shared.nextHandle = none := by simp [newHandle]
    have hresult : createHandle s before answers = (true, some s.shared.nextHandle,
        { newHandle s with
          shared := (newHandle s).shared.setHandleData s.shared.nextHandle
          monitorData := update s.monitorData s.shared.nextHandle none }) := by
      simp only [createHandle, createNew, hget, hcreate, internalSetHandleData, hregistered,
        hdata, hsetData, if_true]
      rfl
    have hne : ∀ x ∈ s.refs, x ≠ s.shared.nextHandle := fun x hx heq => hfresh (heq ▸ hx)
    refine ⟨_, _, hresult, ⟨rfl, rfl, rfl, fun x hx => ?_, fun x hx => ?_, ⟨rfl, rfl⟩⟩, hfresh,
      hgood.sound.new.setHandleData List.mem_cons_self, ?_⟩
    · simp [newHandle, data_setHandleData_of_ne (hne x hx), update_of_ne (hne x hx)]
    · simp [State.session, newHandle, data_setHandleData_of_ne (hne x hx), update_of_ne (hne x hx)]
    · simp [data_setHandleData]

theorem Good.create (hgood : Good s) {before : Option Nat} {answers : Answers}
    (hsucceeds : CreateSucceeds s answers) (hstep : step s (.create before answers) = some s') :
    Good s' := by
  obtain ⟨h, t, hresult, hnew⟩ := createHandle_succeeds hgood before hsucceeds
  simp only [step, margoCreate, hresult, onCreate] at hstep
  split at hstep
  · simp only [Option.map_map, Option.map_eq_some_iff, Function.comp_apply, if_true] at hstep
    obtain ⟨⟨session, arena⟩, htake, hs'⟩ := hstep
    rw [hnew.arena] at htake
    have hset := session_setMonitoringData { t with sessionArena := arena } (some h) session
    have hsession : ∀ x, s'.session x = if some h = some x ∧ t.shared.data x ≠ none then
        some session else t.session x := fun x => hs' ▸ hset x
    rw [setMonitoringData_eq] at hs'
    have hshared : s'.shared = t.shared := hs' ▸ rfl
    have harena : s'.sessionArena = arena := hs' ▸ rfl
    have hrefs : s'.refs = h :: s.refs := by
      rw [← hs', State.refs, State.refs, ← hnew.owned, ← hnew.mercury]
      rfl
    have hbulk : SameBulk t s' := ⟨hs' ▸ rfl, hs' ▸ rfl⟩
    constructor
    · rw [hshared, hrefs]
      exact hnew.sound
    · have hadd : s'.sessions ~ (s'.session h).toList ++ s.sessions := by
        apply sessions_add hnew.fresh
        · exact fun x => hrefs ▸ List.mem_cons
        · intro x hx
          have hne : ¬(some h = some x ∧ t.shared.data x ≠ none) := fun hand =>
            hnew.fresh (Option.some.inj hand.1 ▸ hx)
          rw [hsession, if_neg hne, hnew.session x hx]
      rw [hsession, if_pos ⟨rfl, hnew.attached⟩] at hadd
      rw [harena]
      exact (hgood.sessions.take htake).perm hadd.symm
    · exact hgood.holdsBulk (hnew.bulk.trans hbulk)
  · cases hstep

/-- A call that fails ends with a handle that is not in use, or with the one before it. -/
theorem createHandle_fails {before : Option Nat} {answers : Answers} (hgood : Good s)
    (hgiven : Given s before) (hfails : ¬CreateSucceeds s answers) :
    ∃ out t, createHandle s before answers = (false, out, t) ∧ Created s t ∧ Given s out := by
  have hunused : ∀ {h}, h ∉ s.refs → Given s (some h) := by
    intro h hnot x hx hmem
    obtain rfl := Option.mem_some_iff.mp hx
    exact absurd hmem hnot
  obtain ⟨el, rest, hlist, hreset, hget⟩ | ⟨hnone, hget⟩ :=
    handleCacheGet_cases s.shared answers.reset
  · have hregistered : answers.registered = false := by
      by_contra htrue
      exact hfails ⟨eq_true_of_ne_false htrue, .inl ⟨hlist ▸ List.cons_ne_nil _ _, hreset⟩⟩
    have hresult : createHandle s before answers = (false, some (s.shared.handle el),
        { s with shared := { s.shared with freeHandleList := rest } }) := by
      simp only [createHandle, hget, internalSetHandleData, hregistered, Bool.false_eq_true,
        if_false]
    exact ⟨_, _, hresult, ⟨rfl, rfl, rfl, fun _ _ => rfl, fun _ _ => rfl, ⟨rfl, rfl⟩⟩,
      hunused (hgood.sound.free el (hlist ▸ List.mem_cons_self)).1⟩
  · cases hcreate : answers.create with
    | false =>
        refine ⟨before, s, ?_, ⟨rfl, rfl, rfl, fun _ _ => rfl, fun _ _ => rfl, ⟨rfl, rfl⟩⟩,
          hgiven⟩
        simp only [createHandle, createNew, hget, hcreate, Bool.false_eq_true, if_false]
    | true =>
        have hfresh := hgood.sound.fresh
        have hdata : (newHandle s).shared.data s.shared.nextHandle = none := by simp [newHandle]
        have hset : ¬(answers.registered = true ∧ answers.setData = true) := fun hboth =>
          hfails ⟨hboth.1, .inr ⟨hcreate, hboth.2⟩⟩
        have hresult : createHandle s before answers =
            (false, some s.shared.nextHandle, newHandle s) := by
          simp only [createHandle, createNew, hget, hcreate, internalSetHandleData, hdata, if_true]
          split
          · next hregistered =>
              rw [if_neg fun hsetData => hset ⟨hregistered, hsetData⟩]
          · rfl
        have hne : ∀ x ∈ s.refs, x ≠ s.shared.nextHandle := fun x hx heq => hfresh (heq ▸ hx)
        refine ⟨_, _, hresult, ⟨rfl, rfl, rfl, fun x hx => ?_, fun x hx => ?_, ⟨rfl, rfl⟩⟩,
          hunused hfresh⟩
        · simp [newHandle, update_of_ne (hne x hx)]
        · simp [State.session, newHandle, update_of_ne (hne x hx)]

/-- The session that is taken at the end of a call that fails is nobody's. -/
theorem Good.not_create (hgood : Good s) {before : Option Nat} {answers : Answers}
    (hfails : ¬CreateSucceeds s answers) (hstep : step s (.create before answers) = some s') :
    ¬Conserved s' := by
  simp only [step] at hstep
  split at hstep
  · next hgiven =>
      obtain ⟨out, t, hresult, hcreated, hout⟩ := createHandle_fails hgood hgiven hfails
      simp only [margoCreate, hresult, onCreate, Option.map_map, Option.map_eq_some_iff,
        Function.comp_apply, Bool.false_eq_true, if_false] at hstep
      obtain ⟨⟨session, arena⟩, htake, hs'⟩ := hstep
      rw [hcreated.arena] at htake
      have hset := session_setMonitoringData { t with sessionArena := arena } out session
      have hsession : ∀ x, s'.session x = if out = some x ∧ t.shared.data x ≠ none then
          some session else t.session x := fun x => hs' ▸ hset x
      rw [setMonitoringData_eq] at hs'
      have harena : s'.sessionArena = arena := hs' ▸ rfl
      have hrefs : s'.refs = s.refs := by
        rw [← hs', State.refs, State.refs, ← hcreated.owned, ← hcreated.mercury]
        rfl
      have hlength : s'.sessions.length = s.sessions.length := by
        apply length_sessions hrefs
        intro x hx
        rw [hsession]
        split
        · next hhere =>
            have hold : s.session x ≠ none := by
              apply hout x hhere.1 hx
              rw [← hcreated.data x hx]
              exact hhere.2
            rw [Option.isSome_some, Option.isSome_iff_ne_none.mpr hold]
        · rw [hcreated.session x hx]
      intro hconserved
      have hholds := hconserved.sessions
      rw [harena] at hholds
      exact hgood.sessions.not_take htake hlength hholds
  · cases hstep

/-! ## Bulk transfers -/

theorem Good.bulkTransfer (hgood : Good s) {kind : RequestKind} {issued : Bool}
    (hstep : bulkItransferInternal s kind issued = some s') :
    (issued = true → Good s') ∧ (issued = false → ¬Conserved s') := by
  obtain ⟨⟨session, arena⟩, htake, rfl⟩ := Option.map_eq_some_iff.mp hstep
  constructor
  · rintro rfl
    exact ⟨hgood.sound, hgood.sessions, hgood.bulkSessions.take htake⟩
  · rintro rfl hconserved
    exact hgood.bulkSessions.not_take htake rfl hconserved.bulkSessions

/-- A transfer with a callback ends without its session. -/
theorem Good.bulkCb (hgood : Good s) {i : Nat} (hstep : bulkCb s i = some s') :
    ((∀ r ∈ s.bulkRequests[i]?, r.kind = .eventual) → Good s') ∧
      ((∃ r ∈ s.bulkRequests[i]?, r.kind = .callback) → ¬Conserved s') := by
  rw [Sessions.bulkCb] at hstep
  split at hstep
  · next session completed hrequest =>
      cases hstep
      constructor
      · intro heventual
        exact absurd (heventual _ hrequest) nofun
      · intro _ hconserved
        have hlength := hgood.bulkSessions.length_eq hconserved.bulkSessions
        have hi := (List.getElem?_eq_some_iff.mp hrequest).1
        simp only [State.bulkSessions, List.length_map, List.length_eraseIdx_of_lt hi] at hlength
        omega
  · next session hrequest =>
      cases hstep
      constructor
      · intro _
        refine ⟨hgood.sound, hgood.sessions, ?_⟩
        have hsame : (s.bulkRequests.set i ⟨.eventual, session, true⟩).map
            BulkRequest.monitorData = s.bulkSessions := by
          obtain ⟨hi, hget⟩ := List.getElem?_eq_some_iff.mp hrequest
          have hi' : i < s.bulkSessions.length := by
            rw [State.bulkSessions, List.length_map]
            exact hi
          have hself : s.bulkSessions[i] = session := by
            simp only [State.bulkSessions, List.getElem_map, hget]
          calc
            _ = s.bulkSessions.set i session := List.map_set
            _ = s.bulkSessions.set i s.bulkSessions[i] := by rw [hself]
            _ = s.bulkSessions := List.set_getElem_self hi'
        rw [State.bulkSessions, hsame]
        exact hgood.bulkSessions
      · rintro ⟨r, hr, hcallback⟩
        rw [hrequest] at hr
        obtain rfl := Option.some.inj hr
        cases hcallback
  · cases hstep

/-- The wait for a transfer gives its session back. -/
theorem Good.bulkWait (hgood : Good s) {i : Nat} (hstep : bulkWait s i = some s') : Good s' := by
  rw [Sessions.bulkWait] at hstep
  split at hstep
  · next session hrequest =>
      cases hstep
      refine ⟨hgood.sound, hgood.sessions, ?_⟩
      obtain ⟨hi, hget⟩ := List.getElem?_eq_some_iff.mp hrequest
      have hperm := (List.getElem_cons_eraseIdx_perm hi).map BulkRequest.monitorData
      rw [List.map_cons, hget] at hperm
      exact (hgood.bulkSessions.perm hperm.symm).give
  · cases hstep

/-! ## Runs -/

/-- A step that is balanced keeps the accounts. -/
theorem Good.step (hgood : Good s) {c : Call} (hbalanced : Balanced s c)
    (hstep : step s c = some s') : Good s' := by
  cases c with
  | create before answers => exact hgood.create hbalanced hstep
  | bulkTransfer kind issued => exact (hgood.bulkTransfer hstep).1 hbalanced
  | bulkCb i => exact (hgood.bulkCb hstep).1 hbalanced
  | wait i => exact hgood.bulkWait hstep
  | handler handling responds => exact hgood.arrive.rpcHandler List.mem_cons_self hstep
  | handlerSelf h handling responds =>
      obtain ⟨⟨hmercury, -⟩, hstep⟩ := Option.ite_none_right_eq_some.mp hstep
      exact (hgood.incrOwned (mem_refs_of_mercury hmercury)).rpcHandler List.mem_cons_self hstep
  | refIncr h =>
      obtain ⟨howned, hresult⟩ := Option.ite_none_right_eq_some.mp hstep
      rw [← Option.some.inj hresult]
      exact hgood.incrOwned (mem_refs_of_owned howned)
  | forward h accepted | respond h accepted =>
      obtain ⟨howned, hresult⟩ := Option.ite_none_right_eq_some.mp hstep
      rw [← Option.some.inj hresult]
      exact hgood.submit (mem_refs_of_owned howned) accepted
  | operationEnd h =>
      obtain ⟨hmercury, hresult⟩ := Option.ite_none_right_eq_some.mp hstep
      rw [← Option.some.inj hresult]
      exact hgood.operationEnd hmercury hbalanced
  | destroy h =>
      obtain ⟨howned, hresult⟩ := Option.ite_none_right_eq_some.mp hstep
      rw [← Option.some.inj hresult]
      exact hgood.destroyOwned howned

/-- The session of a handle whose last reference is dropped by Mercury is lost. -/
theorem Good.not_operationEnd (hgood : Good s) (hmercury : h ∈ s.mercury)
    (hsession : s.session h ≠ none) (hcount : s.shared.refCount h = 1) :
    ¬Conserved { hgDestroy s h with mercury := s.mercury.erase h } := by
  intro hconserved
  have hperm := refs_erase_mercury hmercury
  have hlast := hgood.sound.last hperm hcount
  have hadd : s.sessions ~ (s.session h).toList ++
      State.sessions { hgDestroy s h with mercury := s.mercury.erase h } := by
    apply sessions_add hlast
    · exact fun x => hperm.mem_iff.trans List.mem_cons
    · intro x hx
      have hne : x ≠ h := fun heq => hlast (heq ▸ hx)
      simp [State.session, hgDestroy, data_drop_of_ne hne]
  obtain ⟨session, hsome⟩ := Option.ne_none_iff_exists'.mp hsession
  have hlength := (hgood.sessions.perm hadd).length_eq hconserved.sessions
  rw [hsome, List.length_append, Option.toList_some, List.length_singleton] at hlength
  omega

/-- A step that is not balanced loses a session. -/
theorem Good.not_step (hgood : Good s) {c : Call} (hunbalanced : ¬Balanced s c)
    (hstep : Sessions.step s c = some s') : ¬Conserved s' := by
  cases c with
  | create before answers => exact hgood.not_create hunbalanced hstep
  | bulkTransfer kind issued =>
      exact (hgood.bulkTransfer hstep).2 (eq_false_of_ne_true hunbalanced)
  | bulkCb i =>
      apply (hgood.bulkCb hstep).2
      by_contra hnone
      apply hunbalanced
      intro r hr
      cases hkind : r.kind with
      | eventual => rfl
      | callback => exact absurd ⟨r, hr, hkind⟩ hnone
  | operationEnd h =>
      obtain ⟨hmercury, hresult⟩ := Option.ite_none_right_eq_some.mp hstep
      obtain ⟨hsession, hcount⟩ := Classical.not_imp.mp hunbalanced
      rw [← Option.some.inj hresult]
      exact hgood.not_operationEnd hmercury hsession (not_not.mp hcount)
  | wait | handler | handlerSelf | refIncr | forward | respond | destroy =>
      exact absurd trivial hunbalanced

theorem good_start {succeeds : Nat → Bool} {size : Nat} {m : Shared}
    (hinit : handleCacheInit succeeds size = some m) : Good (start m) := by
  have hcache : Handle.User.Sound (Handle.User.start m : Handle.User.Client Unit Unit) :=
    Handle.User.sound_start hinit
  refine ⟨⟨nofun, nofun, nofun, ?_, fun el hel => ?_⟩, Pool.holds_empty, Pool.holds_empty⟩
  · simpa [Handle.User.start, start] using hcache.nodup
  · have hmem : m.handle el ∈ freeHandles m ++ [] :=
      List.mem_append_left _ (List.mem_map_of_mem hel)
    exact ⟨List.not_mem_nil, hcache.lt _ hmem, hcache.refCount _ hmem, hcache.free el hel⟩

end

/-- The runs in which every session is accounted for in every state are those in which every
call of `margo_create` succeeds, Mercury never drops the last reference to a handle with a
session, every bulk transfer is issued, and none completes with a callback. -/
theorem sessions_conserved_iff {succeeds : Nat → Bool} {size : Nat} {m : Shared}
    (hinit : handleCacheInit succeeds size = some m) {calls : List Call} {s : State} :
    Run step (fun _ _ t => Conserved t) (start m) calls s ↔
      Run step (fun t c _ => Balanced t c) (start m) calls s := by
  have hstart := good_start hinit
  have hgood : ∀ {t : State}, Sound t.shared t.refs → Conserved t → Good t :=
    fun hsound hconserved => ⟨hsound, hconserved.sessions, hconserved.bulkSessions⟩
  apply Run.invariant_iff_of_invariant (I := fun t => Sound t.shared t.refs)
  · intro t c t' hsound hconserved hconserved' hstep
    by_cases hbalanced : Balanced t c
    · exact ((hgood hsound hconserved).step hbalanced hstep).sound
    · exact absurd hconserved' ((hgood hsound hconserved).not_step hbalanced hstep)
  · intro t c t' hsound hconserved hstep
    constructor
    · intro hconserved'
      by_contra hbalanced
      exact (hgood hsound hconserved).not_step hbalanced hstep hconserved'
    · intro hbalanced
      exact ((hgood hsound hconserved).step hbalanced hstep).conserved
  · exact hstart.sound
  · exact hstart.conserved

/-- A cached handle and a new one, a forward of the process to itself, an RPC of another process
and a bulk transfer: all sessions are free at the end. -/
theorem sessions_conserved_two :
    ∃ s, Run step (fun _ _ t => Conserved t) (start (noHandles.addElement 0))
        [.create none ⟨true, true, true, true⟩, .create none ⟨true, true, true, true⟩,
          .forward 0 true, .handlerSelf 0 .ult false, .handler .ult false, .refIncr 2,
          .respond 2 true, .bulkTransfer .eventual true, .operationEnd 2, .destroy 2, .bulkCb 0,
          .wait 0, .destroy 2, .destroy 0, .operationEnd 0, .destroy 0, .destroy 1] s ∧
      s.live = [] := by
  have hinit : handleCacheInit (fun _ => true) 1 = some (noHandles.addElement 0) := rfl
  refine (run_of_exec_map (G := fun t c _ => Balanced t c) (f := State.live) ?_).imp
    fun s hrun => ⟨(sessions_conserved_iff hinit).mpr hrun.1, hrun.2⟩
  decide

/-- A bulk transfer completes with a callback: nothing goes on, and one of the 32 sessions in
the arena is not free. -/
theorem not_sessions_conserved :
    ¬∀ (succeeds : Nat → Bool) (size : Nat) (m : Shared) (calls : List Call) (s : State),
      handleCacheInit succeeds size = some m → Run step Any (start m) calls s →
      Conserved s := by
  intro hall
  have hexec : (exec step Any (start noHandles) [.bulkTransfer .callback true, .bulkCb 0]).map
      (fun s => (s.bulkRequests, s.bulkSessionArena.free.length, s.bulkSessionArena.size)) =
      some ([], 31, 32) := by decide
  obtain ⟨s, hrun, hend⟩ := run_of_exec_map hexec
  simp only [Prod.mk.injEq] at hend
  have hfree := (hall (fun _ => true) 0 noHandles _ s rfl hrun).noTransfers hend.1
  have hlength := hfree.length_eq
  rw [List.length_range, hend.2.1, hend.2.2] at hlength
  cases hlength

end Margo.Monitor.Sessions
