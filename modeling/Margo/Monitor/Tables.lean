import Margo.Monitor.Keys
import Margo.Uthash.Runs

/-!
# The monitor's hash tables

The addresses that the default monitor has met are elements of two hash tables, one by name
and one by id, and the statistics of the callpaths are elements of two more. They are the
lists from which the keys of the dump were obtained, and when the monitor is finalized its
loops free every element once.

## Implementation notes

A field under which an element is hashed is the key in its handle. `calloc` returns an object
that is not in use, as no caller checks for anything else, and whatever is written over an
object that was freed is an argument. The tables of RPCs, of bulk operations and of time
series are left out. An event runs without another one between its two critical sections.
-/

namespace Margo.Monitor.Tables

open Function Uthash Keys
open scoped List

/-- The hash function, on the bytes of a name, an id and a callpath. -/
structure HashFunction where
  name : String → BitVec 32
  id : Nat → BitVec 32
  callpath : Callpath → BitVec 32

/-- The tables of the monitor, `addr_info_last_id`, and the objects that are allocated. -/
structure MonitorState (α : Type) where
  addrInfoByName : Hash α String
  addrInfoById : Hash α Nat
  rpcStats : Side → Hash α Callpath
  addrInfoLastId : Nat
  live : List α

/-- What the memory of the handles contains. -/
structure Memory (α : Type) where
  byName : Handles α String
  byId : Handles α Nat
  hh : Side → Handles α Callpath

variable {α : Type}

/-- The tables of a new monitor. -/
def noTables (memory : Memory α) : MonitorState α where
  addrInfoByName := nullHash memory.byName
  addrInfoById := nullHash memory.byId
  rpcStats side := nullHash (memory.hh side)
  addrInfoLastId := 0
  live := []

/-- The object `*info`. -/
def MonitorState.addrInfo (t : MonitorState α) (info : α) : AddrInfo :=
  ⟨t.addrInfoById.handles.key info, t.addrInfoByName.handles.key info⟩

variable [DecidableEq α]

/-- `addr_info_find_or_add`. -/
def addrInfoFindOrAdd (h : HashFunction) (calloc : List α → α) (t : MonitorState α)
    (addr : PeerAddr) : Except Stop (α × MonitorState α) := do
  match ← hashFind h.name t.addrInfoByName (addrStr addr) with
  | some info => return (info, t)
  | none =>
      let info := calloc t.live
      let id := t.addrInfoLastId + 1
      let byName ← hashAdd h.name true t.addrInfoByName info (addrStr addr)
      let byId ← hashAdd h.id true t.addrInfoById info id
      return (info, { t with
        addrInfoByName := byName
        addrInfoById := byId
        addrInfoLastId := id
        live := info :: t.live })

/-- The statistics of a callpath are found or added. -/
def findOrAddStats (h : HashFunction) (calloc : List α → α) (t : MonitorState α) (side : Side)
    (key : Callpath) : Except Stop (MonitorState α) := do
  match ← hashFind h.callpath (t.rpcStats side) key with
  | some _ => return t
  | none =>
      let stats := calloc t.live
      let table ← hashAdd h.callpath true (t.rpcStats side) stats key
      return { t with
        rpcStats := update t.rpcStats side table
        live := stats :: t.live }

/-- The callpath of an event, with its statistics in the table of its side. -/
def record (h : HashFunction) (calloc : List α → α) (t : MonitorState α) (e : Event) :
    Except Stop (MonitorState α) := do
  let (info, t) ← addrInfoFindOrAdd h calloc t e.addr
  let key : Callpath := ⟨e.rpcId, e.parentId, (t.addrInfo info).id⟩
  match e.side with
  | none => return t
  | some side => findOrAddStats h calloc t side key

/-- The tables after a sequence of events. -/
def recordAll (h : HashFunction) (calloc : List α → α) (t : MonitorState α) :
    List Event → Except Stop (MonitorState α)
  | [] => .ok t
  | e :: es => do
      let t ← record h calloc t e
      recordAll h calloc t es

/-- `free`: its argument was allocated, and its memory is used for something else at once. -/
def free (junk : Memory α) (t : MonitorState α) (p : α) : Except Stop (MonitorState α) :=
  if p ∈ t.live then
    .ok { t with
      addrInfoByName := { t.addrInfoByName with
        handles := t.addrInfoByName.handles.overwrite junk.byName p }
      addrInfoById := { t.addrInfoById with
        handles := t.addrInfoById.handles.overwrite junk.byId p }
      rpcStats := fun side => { t.rpcStats side with
        handles := (t.rpcStats side).handles.overwrite (junk.hh side) p }
      live := t.live.erase p }
  else .error .fault

/-- `addr_info_clear`. -/
def addrInfoClear (junk : Memory α) (t : MonitorState α) : Except Stop (MonitorState α) := do
  let t ← hashIter MonitorState.addrInfoById (fun t p => do
    let byId ← hashDelete t.addrInfoById p
    return { t with addrInfoById := byId }) t
  hashIter MonitorState.addrInfoByName (fun t p => do
    let byName ← hashDelete t.addrInfoByName p
    free junk { t with addrInfoByName := byName } p) t

/-- The loop of `finalize` that frees the statistics of a side. -/
def rpcStatsClear (junk : Memory α) (side : Side) (t : MonitorState α) :
    Except Stop (MonitorState α) :=
  hashIter (fun t => t.rpcStats side) (fun t p => do
    let table ← hashDelete (t.rpcStats side) p
    free junk { t with rpcStats := update t.rpcStats side table } p) t

/-- The part of `finalize` that frees these tables. -/
def clear (junk : Memory α) (t : MonitorState α) : Except Stop (MonitorState α) := do
  let t ← addrInfoClear junk t
  let t ← rpcStatsClear junk .origin t
  rpcStatsClear junk .target t

/-! ## What the tables show -/

/-- What the dump reads of the tables. -/
structure Reads (h : HashFunction) (t : MonitorState α) (m : Callpaths) : Prop where
  /-- The loops over the statistics meet the callpaths of the list in its order. -/
  stats : ∀ side, ∃ order, elements (t.rpcStats side) = .ok order ∧
    order.map (t.rpcStats side).handles.key = m.stats side
  /-- `addr_info_find_by_id` finds the address that is in the list of addresses. -/
  findById : ∀ id, ∃ found, hashFind h.id t.addrInfoById id = .ok found ∧
    found.map t.addrInfo = addrInfoFindById m.table id

/-- Nothing is left: no object, no element and no block of a table. -/
structure Cleared (t : MonitorState α) : Prop where
  live : t.live = []
  byName : t.addrInfoByName.head = none ∧ t.addrInfoByName.malloced = t.addrInfoByName.freed
  byId : t.addrInfoById.head = none ∧ t.addrInfoById.malloced = t.addrInfoById.freed
  stats : ∀ side, (t.rpcStats side).head = none ∧
    (t.rpcStats side).malloced = (t.rpcStats side).freed

/-! ## The elements of the tables -/

/-- The contents of the tables, and that every element is an object of its own. -/
structure Keeps (h : HashFunction) (t : MonitorState α) (names : Contents α String)
    (ids : Contents α Nat) (paths : Side → Contents α Callpath) : Prop where
  byName : Holds h.name t.addrInfoByName names
  byId : Holds h.id t.addrInfoById ids
  stats : ∀ side, Holds h.callpath (t.rpcStats side) (paths side)
  live : t.live ~ names.map Prod.fst ++
    ((paths .origin).map Prod.fst ++ (paths .target).map Prod.fst)
  nodup : t.live.Nodup
  sub : ids.map Prod.fst ⊆ names.map Prod.fst

section

variable {h : HashFunction} {t : MonitorState α} {names : Contents α String}
  {ids : Contents α Nat} {paths : Side → Contents α Callpath} {junk : Memory α} {x p : α}
  {side : Side}

omit [DecidableEq α] in
theorem keeps_noTables (h : HashFunction) (memory : Memory α) :
    Keeps h (noTables memory) [] [] fun _ => [] :=
  ⟨holds_nullHash _, holds_nullHash _, fun _ => holds_nullHash _, List.Perm.refl [],
    List.nodup_nil, List.Subset.refl []⟩

omit [DecidableEq α] in
theorem Keeps.names_live (hk : Keeps h t names ids paths) : names.map Prod.fst ⊆ t.live :=
  fun _ hx => hk.live.mem_iff.mpr (List.mem_append_left _ hx)

omit [DecidableEq α] in
theorem Keeps.ids_live (hk : Keeps h t names ids paths) : ids.map Prod.fst ⊆ t.live :=
  fun _ hx => hk.names_live (hk.sub hx)

omit [DecidableEq α] in
theorem Keeps.paths_live (hk : Keeps h t names ids paths) (side : Side) :
    (paths side).map Prod.fst ⊆ t.live := by
  intro x hx
  apply hk.live.mem_iff.mpr
  apply List.mem_append_right
  cases side with
  | origin => exact List.mem_append_left _ hx
  | target => exact List.mem_append_right _ hx

/-- An address that is not there is added to both tables. -/
theorem Keeps.addAddr (hk : Keeps h t names ids paths) (hx : x ∉ t.live) (name : String)
    (id : Nat) :
    ∃ byName byId, hashAdd h.name true t.addrInfoByName x name = .ok byName ∧
      hashAdd h.id true t.addrInfoById x id = .ok byId ∧
      Keeps h { t with
        addrInfoByName := byName, addrInfoById := byId, addrInfoLastId := id, live := x :: t.live }
        (names ++ [(x, name)]) (ids ++ [(x, id)]) paths := by
  obtain ⟨byName, hname, hbyName⟩ := hk.byName.add (fun hmem => hx (hk.names_live hmem)) name
  obtain ⟨byId, hid, hbyId⟩ := hk.byId.add (fun hmem => hx (hk.ids_live hmem)) id
  refine ⟨byName, byId, hname, hid, hbyName, hbyId, hk.stats, ?_, ?_, ?_⟩
  · rw [List.map_append, List.map_singleton, List.append_assoc]
    exact (hk.live.cons x).trans List.perm_middle.symm
  · exact List.nodup_cons.mpr ⟨hx, hk.nodup⟩
  · rw [List.map_append, List.map_append]
    intro y hy
    rcases List.mem_append.mp hy with hold | hnew
    · exact List.mem_append_left _ (hk.sub hold)
    · exact List.mem_append_right _ hnew

/-- Statistics that are not there are added to the table of their side. -/
theorem Keeps.addStats (hk : Keeps h t names ids paths) (hx : x ∉ t.live) (side : Side)
    (key : Callpath) :
    ∃ table, hashAdd h.callpath true (t.rpcStats side) x key = .ok table ∧
      Keeps h { t with
        rpcStats := update t.rpcStats side table, live := x :: t.live }
        names ids (update paths side (paths side ++ [(x, key)])) := by
  obtain ⟨table, hrun, htable⟩ := (hk.stats side).add (fun hmem => hx (hk.paths_live side hmem)) key
  refine ⟨table, hrun, hk.byName, hk.byId, ?_, ?_, List.nodup_cons.mpr ⟨hx, hk.nodup⟩, hk.sub⟩
  · intro s
    by_cases hs : s = side
    · subst hs
      simpa only [update_self] using htable
    · simpa only [update_of_ne hs] using hk.stats s
  · have hcons := hk.live.cons x
    cases side with
    | origin =>
        have hne : Side.target ≠ Side.origin := by decide
        rw [update_self, update_of_ne hne, List.map_append, List.map_singleton, List.append_assoc,
          List.singleton_append]
        refine hcons.trans ?_
        rw [← List.append_assoc, ← List.append_assoc]
        exact List.perm_middle.symm
    | target =>
        have hne : Side.origin ≠ Side.target := by decide
        rw [update_self, update_of_ne hne, List.map_append, List.map_singleton]
        refine hcons.trans ?_
        rw [← List.append_assoc, ← List.append_assoc, ← List.append_assoc]
        exact (List.perm_append_singleton x _).symm

/-! ## Every event does what it does to the lists -/

/-- The tables hold the lists. -/
structure Refines (h : HashFunction) (t : MonitorState α) (m : Callpaths)
    (cells : Contents α AddrInfo) (paths : Side → Contents α Callpath) : Prop where
  keeps : Keeps h t (cells.map fun c => (c.1, c.2.name)) (cells.map fun c => (c.1, c.2.id)) paths
  table : m.table = ⟨cells.map Prod.snd, t.addrInfoLastId⟩
  valid : m.table.Valid
  stats : ∀ side, m.stats side = (paths side).map Prod.snd

variable {m : Callpaths} {cells : Contents α AddrInfo} {calloc : List α → α} {addr : PeerAddr}

omit [DecidableEq α] in
theorem refines_noTables (h : HashFunction) (memory : Memory α) :
    Refines h (noTables memory) (callpathsAfter []) [] fun _ => [] :=
  ⟨keeps_noTables h memory, rfl, ⟨List.nodup_nil, List.nodup_nil, fun _ hinfo =>
    absurd hinfo List.not_mem_nil⟩, fun _ => rfl⟩

omit [DecidableEq α] in
/-- The object of an address contains its name and its id. -/
theorem Refines.addrInfo (hr : Refines h t m cells paths) {c : α × AddrInfo} (hc : c ∈ cells) :
    t.addrInfo c.1 = c.2 := by
  have hid := hr.keeps.byId.keys (c.1, c.2.id)
    (List.mem_map_of_mem (f := fun c => (c.1, c.2.id)) hc)
  have hname := hr.keeps.byName.keys (c.1, c.2.name)
    (List.mem_map_of_mem (f := fun c => (c.1, c.2.name)) hc)
  rw [MonitorState.addrInfo, hid, hname]

theorem Refines.findOrAdd (hr : Refines h t m cells paths) (hcalloc : ∀ live, calloc live ∉ live)
    (addr : PeerAddr) :
    ∃ info t' cells', addrInfoFindOrAdd h calloc t addr = .ok (info, t') ∧
      (t'.addrInfo info).id = (Keys.addrInfoFindOrAdd m.table addr).1 ∧
      Refines h t' { m with table := (Keys.addrInfoFindOrAdd m.table addr).2 } cells' paths := by
  obtain ⟨found, hfind, hnone, hsome⟩ := hr.keeps.byName.shows.find (addrStr addr)
  have hvalid := hr.valid.findOrAdd addr
  have hnames : (cells.map fun c => (c.1, c.2.name)).map Prod.snd =
      m.table.infos.map AddrInfo.name := by
    rw [hr.table, List.map_map, List.map_map]
    rfl
  rw [hnames] at hnone
  rw [addrInfoFindOrAdd, hfind]
  cases found with
  | none =>
      have hnot := hnone.mp rfl
      have hlist : m.table.infos.find? (fun info => info.name = addrStr addr) = none := by
        apply List.find?_eq_none.mpr
        intro info hinfo hsame
        exact hnot (of_decide_eq_true hsame ▸ List.mem_map_of_mem hinfo)
      have habstract : Keys.addrInfoFindOrAdd m.table addr =
          (t.addrInfoLastId + 1, ⟨m.table.infos ++ [⟨t.addrInfoLastId + 1, addrStr addr⟩],
            t.addrInfoLastId + 1⟩) := by
        rw [Keys.addrInfoFindOrAdd, hlist, hr.table]
      rw [habstract] at hvalid ⊢
      obtain ⟨byName, byId, hname, hid, hkeeps⟩ :=
        hr.keeps.addAddr (hcalloc t.live) (addrStr addr) (t.addrInfoLastId + 1)
      refine ⟨calloc t.live, { t with
          addrInfoByName := byName
          addrInfoById := byId
          addrInfoLastId := t.addrInfoLastId + 1
          live := calloc t.live :: t.live },
        cells ++ [(calloc t.live, ⟨t.addrInfoLastId + 1, addrStr addr⟩)], ?_, ?_, ?_, ?_, hvalid,
        hr.stats⟩
      · simp only [bind, Except.bind, hname, hid]
        rfl
      · have hkey := hkeeps.byId.keys (calloc t.live, t.addrInfoLastId + 1)
          (List.mem_append_right _ (List.mem_singleton_self _))
        exact hkey
      · simpa only [List.map_append, List.map_singleton] using hkeeps
      · rw [hr.table, List.map_append, List.map_singleton]
  | some info =>
      obtain ⟨c, hc, hsame⟩ := List.mem_map.mp (hsome info rfl)
      rw [Prod.mk.injEq] at hsame
      obtain ⟨rfl, hname⟩ := hsame
      have hmem : c.2 ∈ m.table.infos := by
        rw [hr.table]
        exact List.mem_map_of_mem hc
      have hlist := Lib.find?_of_nodup hr.valid.names hmem
      have habstract : Keys.addrInfoFindOrAdd m.table addr = (c.2.id, m.table) := by
        rw [Keys.addrInfoFindOrAdd, ← hname, hlist]
      rw [habstract]
      refine ⟨c.1, t, cells, rfl, ?_, hr⟩
      rw [hr.addrInfo hc]

theorem Refines.findOrAddStats (hr : Refines h t m cells paths)
    (hcalloc : ∀ live, calloc live ∉ live) (side : Side) (key : Callpath) :
    ∃ t' paths', findOrAddStats h calloc t side key = .ok t' ∧
      Refines h t' { m with stats := fun s =>
        if s = side ∧ key ∉ m.stats s then m.stats s ++ [key] else m.stats s } cells paths' := by
  obtain ⟨found, hfind, hnone, hsome⟩ := (hr.keeps.stats side).shows.find key
  rw [← hr.stats side] at hnone
  rw [Tables.findOrAddStats, hfind]
  cases found with
  | none =>
      have hnot := hnone.mp rfl
      obtain ⟨table, hrun, hkeeps⟩ := hr.keeps.addStats (hcalloc t.live) side key
      refine ⟨{ t with
          rpcStats := update t.rpcStats side table
          live := calloc t.live :: t.live }, _, ?_, hkeeps, hr.table, hr.valid, ?_⟩
      · simp only [bind, Except.bind, hrun]
        rfl
      · intro s
        by_cases hs : s = side
        · subst hs
          dsimp only
          rw [if_pos ⟨rfl, hnot⟩, update_self, List.map_append, hr.stats s]
          rfl
        · have hother : ¬(s = side ∧ key ∉ m.stats s) := fun hboth => hs hboth.1
          dsimp only
          rw [if_neg hother, update_of_ne hs, hr.stats s]
  | some stats =>
      have hmem : key ∈ m.stats side := by
        rw [hr.stats side]
        exact List.mem_map_of_mem (hsome stats rfl)
      refine ⟨t, paths, rfl, hr.keeps, hr.table, hr.valid, ?_⟩
      intro s
      have hold : ¬(s = side ∧ key ∉ m.stats s) := by
        rintro ⟨rfl, hnot⟩
        exact hnot hmem
      dsimp only
      rw [if_neg hold, hr.stats s]

/-- An event does to the tables what it does to the lists. -/
theorem Refines.record (hr : Refines h t m cells paths) (hcalloc : ∀ live, calloc live ∉ live)
    (e : Event) :
    ∃ t' cells' paths', record h calloc t e = .ok t' ∧
      Refines h t' (m.record e) cells' paths' := by
  obtain ⟨info, t₁, cells', hfind, hid, hr₁⟩ := hr.findOrAdd hcalloc e.addr
  rw [Tables.record, hfind]
  cases hside : e.side with
  | none =>
      refine ⟨t₁, cells', paths, ?_, ?_⟩
      · rfl
      · rw [Callpaths.record, hside]
        simpa using hr₁
  | some side =>
      obtain ⟨t₂, paths', hrun, hr₂⟩ := hr₁.findOrAddStats hcalloc side
        ⟨e.rpcId, e.parentId, (Keys.addrInfoFindOrAdd m.table e.addr).1⟩
      refine ⟨t₂, cells', paths', ?_, ?_⟩
      · simp only [bind, Except.bind, hid]
        exact hrun
      · rw [Callpaths.record, hside]
        simpa using hr₂

theorem Refines.recordAll (hr : Refines h t m cells paths) (hcalloc : ∀ live, calloc live ∉ live)
    (es : List Event) :
    ∃ t' cells' paths', recordAll h calloc t es = .ok t' ∧
      Refines h t' (es.foldl Callpaths.record m) cells' paths' := by
  induction es generalizing t m cells paths with
  | nil => exact ⟨t, cells, paths, rfl, hr⟩
  | cons e es ih =>
      obtain ⟨t₁, cells₁, paths₁, hrun, hr₁⟩ := hr.record hcalloc e
      obtain ⟨t₂, cells₂, paths₂, hrest, hr₂⟩ := ih hr₁
      refine ⟨t₂, cells₂, paths₂, ?_, hr₂⟩
      rw [Tables.recordAll, hrun]
      exact hrest

/-- The dump reads the lists from the tables. -/
theorem Refines.reads (hr : Refines h t m cells paths) : Reads h t m where
  stats side := by
    have hholds := hr.keeps.stats side
    refine ⟨_, hholds.shows.elements, ?_⟩
    rw [hr.stats side, List.map_map]
    exact List.map_congr_left hholds.keys
  findById id := by
    obtain ⟨found, hfind, hnone, hsome⟩ := hr.keeps.byId.shows.find id
    refine ⟨found, hfind, ?_⟩
    have hids : (cells.map fun c => (c.1, c.2.id)).map Prod.snd =
        m.table.infos.map AddrInfo.id := by
      rw [hr.table, List.map_map, List.map_map]
      rfl
    rw [hids] at hnone
    cases found with
    | none =>
        have hnot := hnone.mp rfl
        symm
        apply List.find?_eq_none.mpr
        intro info hinfo hsame
        exact hnot (of_decide_eq_true hsame ▸ List.mem_map_of_mem hinfo)
    | some info =>
        obtain ⟨c, hc, hsame⟩ := List.mem_map.mp (hsome info rfl)
        rw [Prod.mk.injEq] at hsame
        obtain ⟨rfl, rfl⟩ := hsame
        have hmem : c.2 ∈ m.table.infos := by
          rw [hr.table]
          exact List.mem_map_of_mem hc
        rw [hr.valid.findById hmem, Option.map_some, hr.addrInfo hc]

/-! ## Finalizing the monitor -/

/-- An object that was taken out of its table is freed. -/
theorem free_keeps (junk : Memory α) (p : α) (hname : Holds h.name t.addrInfoByName names)
    (hid : Holds h.id t.addrInfoById ids)
    (hstats : ∀ side, Holds h.callpath (t.rpcStats side) (paths side))
    (hlive : t.live ~ p :: (names.map Prod.fst ++
      ((paths .origin).map Prod.fst ++ (paths .target).map Prod.fst)))
    (hnodup : t.live.Nodup) (hsub : ids.map Prod.fst ⊆ names.map Prod.fst) :
    ∃ t', free junk t p = .ok t' ∧ Keeps h t' names ids paths := by
  have hmem : p ∈ t.live := hlive.mem_iff.mpr List.mem_cons_self
  have hnot := (List.nodup_cons.mp (hlive.nodup_iff.mp hnodup)).1
  rw [List.mem_append, List.mem_append, not_or, not_or] at hnot
  obtain ⟨hnotName, hnotOrigin, hnotTarget⟩ := hnot
  refine ⟨_, if_pos hmem, hname.overwrite hnotName _, ?_, ?_, ?_, hnodup.erase p, hsub⟩
  · exact hid.overwrite (fun hmem => hnotName (hsub hmem)) _
  · intro side
    apply (hstats side).overwrite
    cases side with
    | origin => exact hnotOrigin
    | target => exact hnotTarget
  · have herase := hlive.erase p
    rwa [List.erase_cons_head] at herase

theorem Keeps.addrInfoClear (hk : Keeps h t names ids paths) (junk : Memory α) :
    ∃ t', addrInfoClear junk t = .ok t' ∧ Keeps h t' [] [] paths := by
  obtain ⟨t₁, hrun₁, h₁⟩ := hashIter_empty MonitorState.addrInfoById
    (fun t p => do
      let byId ← hashDelete t.addrInfoById p
      return { t with addrInfoById := byId })
    (fun ids t => Keeps h t names ids paths) (fun _ _ hI => hI.byId)
    (by
      intro e ids t hI
      obtain ⟨byId, hdel, hbyId⟩ := hI.byId.delete_head
      refine ⟨{ t with addrInfoById := byId }, ?_, hI.byName, hbyId, hI.stats, hI.live, hI.nodup,
        fun x hx => hI.sub (List.mem_cons_of_mem _ hx)⟩
      rw [hdel]
      rfl) hk
  obtain ⟨t₂, hrun₂, h₂⟩ := hashIter_empty MonitorState.addrInfoByName
    (fun t p => do
      let byName ← hashDelete t.addrInfoByName p
      free junk { t with addrInfoByName := byName } p)
    (fun names t => Keeps h t names [] paths) (fun _ _ hI => hI.byName)
    (by
      intro e names t hI
      obtain ⟨byName, hdel, hbyName⟩ := hI.byName.delete_head
      obtain ⟨t', hfree, ht'⟩ := free_keeps junk e.1
        (t := { t with addrInfoByName := byName }) hbyName hI.byId hI.stats hI.live hI.nodup
        (List.nil_subset _)
      refine ⟨t', ?_, ht'⟩
      rw [hdel]
      exact hfree) h₁
  refine ⟨t₂, ?_, h₂⟩
  rw [Tables.addrInfoClear, hrun₁]
  exact hrun₂

theorem Keeps.rpcStatsClear (hk : Keeps h t [] [] paths) (junk : Memory α) (side : Side) :
    ∃ t', rpcStatsClear junk side t = .ok t' ∧ Keeps h t' [] [] (update paths side []) := by
  rw [Tables.rpcStatsClear]
  have hholds : ∀ c (t : MonitorState α), Keeps h t [] [] (update paths side c) →
      Holds h.callpath (t.rpcStats side) c := by
    intro c t hI
    simpa only [update_self] using hI.stats side
  refine hashIter_empty (fun t : MonitorState α => t.rpcStats side) _
    (fun c t => Keeps h t [] [] (update paths side c)) hholds (c := paths side) ?_ ?_
  · intro e c t hI
    obtain ⟨table, hdel, htable⟩ := (hholds _ t hI).delete_head
    have hlive : t.live ~ e.1 :: (([] : Contents α String).map Prod.fst ++
        ((update paths side c .origin).map Prod.fst ++
          (update paths side c .target).map Prod.fst)) := by
      refine hI.live.trans ?_
      cases side with
      | origin =>
          have hne : Side.target ≠ Side.origin := by decide
          rw [update_self, update_self, update_of_ne hne, update_of_ne hne]
          exact List.Perm.refl _
      | target =>
          have hne : Side.origin ≠ Side.target := by decide
          rw [update_self, update_self, update_of_ne hne, update_of_ne hne]
          exact List.perm_middle
    have hstats : ∀ s, Holds h.callpath (update t.rpcStats side table s)
        (update paths side c s) := by
      intro s
      by_cases hs : s = side
      · subst hs
        rwa [update_self, update_self]
      · have hother := hI.stats s
        rw [update_of_ne hs] at hother
        rwa [update_of_ne hs, update_of_ne hs]
    obtain ⟨t', hfree, ht'⟩ := free_keeps junk e.1
      (t := { t with rpcStats := update t.rpcStats side table }) hI.byName hI.byId hstats hlive
      hI.nodup (List.nil_subset _)
    refine ⟨t', ?_, ht'⟩
    rw [hdel]
    exact hfree
  · rwa [update_eq_self]

omit [DecidableEq α] in
theorem cleared_of_holds {κ : Type} {hash : κ → BitVec 32} {s : Hash α κ}
    (hs : Holds hash s []) : s.head = none ∧ s.malloced = s.freed := by
  have hnone : ¬s.head.isSome := fun hsome => hs.head_isSome.mp hsome rfl
  have hblocks := hs.balanced
  rw [Uthash.Balanced, if_neg hnone] at hblocks
  exact ⟨Option.not_isSome_iff_eq_none.mp hnone, hblocks⟩

/-- `finalize` frees every object, once, and every block of the tables. -/
theorem Keeps.clear (hk : Keeps h t names ids paths) (junk : Memory α) :
    ∃ t', clear junk t = .ok t' ∧ Cleared t' := by
  obtain ⟨t₁, hrun₁, h₁⟩ := hk.addrInfoClear junk
  obtain ⟨t₂, hrun₂, h₂⟩ := h₁.rpcStatsClear junk .origin
  obtain ⟨t₃, hrun₃, h₃⟩ := h₂.rpcStatsClear junk .target
  have hempty : ∀ side, update (update paths .origin []) .target [] side = [] := by
    intro side
    cases side <;> rfl
  refine ⟨t₃, ?_, ?_, cleared_of_holds h₃.byName, cleared_of_holds h₃.byId, ?_⟩
  · rw [Tables.clear, hrun₁]
    show (Tables.rpcStatsClear junk .origin t₁ >>= Tables.rpcStatsClear junk .target) = _
    rw [hrun₂]
    exact hrun₃
  · have hlive := h₃.live
    rw [hempty, hempty] at hlive
    exact hlive.eq_nil
  · intro side
    have hstats := h₃.stats side
    rw [hempty] at hstats
    exact cleared_of_holds hstats

end

/-- After any sequence of events the tables show the dump the callpaths and the addresses of the
lists, for every hash function; then `finalize` frees every object once and leaves nothing. -/
theorem tables_refine_lists (h : HashFunction) (memory junk : Memory α) (calloc : List α → α)
    (hcalloc : ∀ live, calloc live ∉ live) (es : List Event) :
    ∃ t, recordAll h calloc (noTables memory) es = .ok t ∧ Reads h t (callpathsAfter es) ∧
      ∃ t', clear junk t = .ok t' ∧ Cleared t' := by
  obtain ⟨t, cells, paths, hrun, hr⟩ := (refines_noTables h memory).recordAll hcalloc es
  exact ⟨t, hrun, hr.reads, hr.keeps.clear junk⟩

/-- An allocator that goes through the addresses. -/
def bumpCalloc (live : List Nat) : Nat := live.foldr (fun p next => max (p + 1) next) 0

theorem bumpCalloc_not_mem (live : List Nat) : bumpCalloc live ∉ live := by
  have hlt : ∀ p ∈ live, p < bumpCalloc live := by
    induction live with
    | nil => exact fun p hp => absurd hp List.not_mem_nil
    | cons q live ih =>
        intro p hp
        rw [bumpCalloc, List.foldr_cons]
        rcases List.mem_cons.mp hp with rfl | hp
        · exact lt_of_lt_of_le (Nat.lt_succ_self p) (le_max_left _ _)
        · exact lt_of_lt_of_le (ih p hp) (le_max_right _ _)
  exact fun hmem => Nat.lt_irrefl _ (hlt _ hmem)

/-- Memory in which every handle points to itself. -/
def loopMemory : Memory Nat where
  byName := ⟨some, some, some, some, fun _ => "", fun _ => 0#32⟩
  byId := ⟨some, some, some, some, id, fun _ => 0#32⟩
  hh _ := ⟨some, some, some, some, fun _ => ⟨0, 0, 0⟩, fun _ => 0#32⟩

/-- A forward to a peer and a request from it, for a hash function that tells nothing apart. -/
theorem tables_refine_lists_two :
    ∃ t, recordAll ⟨fun _ => 0#32, fun _ => 0#32, fun _ => 0#32⟩ bumpCalloc (noTables loopMemory)
        [⟨some .origin, 1, 0, ⟨"na+sm://1", by decide, false⟩⟩,
          ⟨some .target, 1, 0, ⟨"na+sm://1", by decide, false⟩⟩] = .ok t ∧
      Reads ⟨fun _ => 0#32, fun _ => 0#32, fun _ => 0#32⟩ t
        (callpathsAfter [⟨some .origin, 1, 0, ⟨"na+sm://1", by decide, false⟩⟩,
          ⟨some .target, 1, 0, ⟨"na+sm://1", by decide, false⟩⟩]) ∧
      ∃ t', clear loopMemory t = .ok t' ∧ Cleared t' :=
  tables_refine_lists _ loopMemory loopMemory bumpCalloc bumpCalloc_not_mem _

end Margo.Monitor.Tables
