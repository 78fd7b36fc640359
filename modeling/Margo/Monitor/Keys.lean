import Margo.Abt.Json
import Margo.Lib.Directory
import Margo.Lib.Separators
import Margo.Rpc.Ids

/-!
# The keys of the monitor's dump

`monitor_statistics_to_json` writes the statistics of a callpath under a key made of its RPC
ids and a key made of the address of its peer, and `monitor_time_series_to_json` writes the
time series of an RPC under its name and its provider. All of them are added with a flag
that says that the key is new.

## Implementation notes

The statistics of a callpath and the time series of an RPC are left out: a section stands
for the callpath that it is written for. An address in the table of addresses is the bytes
that `uthash` compares, with the null byte that Mercury counts. The table gives out fewer
than `2 ^ 64` ids.
-/

namespace Margo.Monitor.Keys

open Abt Rpc Lib.Separators
open scoped List

/-! ## Addresses -/

/-- The address of a peer, as Mercury prints it. -/
structure PeerAddr where
  str : String
  noNull : '\x00' ∉ str.toList
  /-- Mercury cannot print it for another reason than its length. -/
  fails : Bool
  deriving DecidableEq

/-- `margo_addr_to_string` with a buffer of the given size: the bytes it writes. -/
def margoAddrToString (bufSize : Nat) (addr : PeerAddr) : Option String :=
  if addr.fails || bufSize < addr.str.utf8ByteSize + 1 then none else some (addr.str ++ "\x00")

/-- `addr_info_t`. -/
structure AddrInfo where
  id : Nat
  name : String
  deriving DecidableEq, Repr

/-- The two tables of addresses and `addr_info_last_id`. -/
structure AddrTable where
  infos : List AddrInfo
  lastId : Nat
  deriving DecidableEq, Repr

/-- The bytes that `addr_info_find_or_add` looks up: `addr_str_size` does not count the null
byte of `"<unknown>"`. -/
def addrStr (addr : PeerAddr) : String := (margoAddrToString 128 addr).getD "<unknown>"

/-- `addr_info_find_or_add`: the id, and the tables afterwards. -/
def addrInfoFindOrAdd (table : AddrTable) (addr : PeerAddr) : Nat × AddrTable :=
  match table.infos.find? fun info => info.name = addrStr addr with
  | some info => (info.id, table)
  | none =>
      let id := table.lastId + 1
      (id, ⟨table.infos ++ [⟨id, addrStr addr⟩], id⟩)

/-- `addr_info_find_by_id`. -/
def addrInfoFindById (table : AddrTable) (id : Nat) : Option AddrInfo :=
  table.infos.find? fun info => info.id = id

/-! ## Callpaths -/

/-- `callpath_t`. -/
@[ext]
structure Callpath where
  rpcId : HgId
  parentId : HgId
  addrId : Nat
  deriving DecidableEq, Repr

/-- The tables `origin_rpc_stats` and `target_rpc_stats`. -/
inductive Side
  | origin
  | target
  deriving DecidableEq, Repr

/-- The callpaths that the monitor keeps statistics for. -/
structure Callpaths where
  table : AddrTable
  stats : Side → List Callpath

/-- An event that has an address looked up, or added: the side is that of the statistics that
are looked up with it, if any are. -/
structure Event where
  side : Option Side
  rpcId : HgId
  parentId : HgId
  addr : PeerAddr
  deriving DecidableEq

/-- The callpath of an event, with its statistics in the table of its side. -/
def Callpaths.record (m : Callpaths) (e : Event) : Callpaths :=
  let (addrId, table) := addrInfoFindOrAdd m.table e.addr
  let callpath : Callpath := ⟨e.rpcId, e.parentId, addrId⟩
  { table := table
    stats := fun side =>
      if some side = e.side ∧ callpath ∉ m.stats side then m.stats side ++ [callpath]
      else m.stats side }

/-- The callpaths after a sequence of events. -/
def callpathsAfter (es : List Event) : Callpaths :=
  es.foldl Callpaths.record ⟨⟨[], 0⟩, fun _ => []⟩

/-! ## The dump of the statistics -/

/-- `build_rpc_key`. -/
def buildRpcKey (callpath : Callpath) : String :=
  let (baseId, providerId) := demuxId callpath.rpcId
  let (parentBaseId, parentProviderId) := demuxId callpath.parentId
  parentBaseId.toNat.repr ++ (":" ++ (parentProviderId.toNat.repr ++ (":" ++
    (baseId.toNat.repr ++ (":" ++ providerId.toNat.repr)))))

/-- The start of an address key. -/
def Side.addrPrefix : Side → String
  | .origin => "sent to "
  | .target => "received from "

/-- The address key of a callpath. -/
def addrKey (table : AddrTable) (side : Side) (callpath : Callpath) : String :=
  side.addrPrefix ++
    match addrInfoFindById table callpath.addrId with
    | some info => Json.cString info.name
    | none => "<unknown>"

/-- The object of an RPC: the sections of each side, in the order in which they are added. -/
abbrev RpcJson := Side → List (String × Callpath)

/-- One iteration of the loop over a table: the object of the RPC is found or added, and the
section is added to it without a look at its keys. -/
def addSection (table : AddrTable) (side : Side) (callpath : Callpath) :
    List (String × RpcJson) → List (String × RpcJson)
  | [] =>
      [(buildRpcKey callpath, fun other =>
        if other = side then [(addrKey table side callpath, callpath)] else [])]
  | (rpcKey, rpcJson) :: rpcs =>
      if rpcKey = buildRpcKey callpath then
        (rpcKey, fun other =>
          if other = side then rpcJson other ++ [(addrKey table side callpath, callpath)]
          else rpcJson other) :: rpcs
      else (rpcKey, rpcJson) :: addSection table side callpath rpcs

/-- The part of `monitor_statistics_to_json` that dumps the two tables of callpaths. -/
def monitorStatisticsToJson (m : Callpaths) : List (String × RpcJson) :=
  let rpcs := (m.stats .origin).foldl (fun rpcs p => addSection m.table .origin p rpcs) []
  (m.stats .target).foldl (fun rpcs p => addSection m.table .target p rpcs) rpcs

/-- All sections of a side, with the two keys that lead to each of them. -/
def sections (side : Side) (rpcs : List (String × RpcJson)) :
    List ((String × String) × Callpath) :=
  rpcs.flatMap fun (rpcKey, rpcJson) =>
    (rpcJson side).map fun (addrKey, callpath) => ((rpcKey, addrKey), callpath)

/-- The dump has one object for an RPC, one section for a callpath, and no two sections of a
side under the same keys. -/
structure OneSectionEach (m : Callpaths) : Prop where
  objects : ((monitorStatisticsToJson m).map Prod.fst).Nodup
  sections : ∀ side,
    ((sections side (monitorStatisticsToJson m)).map Prod.snd).Perm (m.stats side)
  keys : ∀ side, ((Keys.sections side (monitorStatisticsToJson m)).map Prod.fst).Nodup

/-- Two events would be told apart by nothing but an address that Mercury cannot print and an
address that is printed as `<unknown>`. -/
def Mistakable (e e' : Event) : Prop :=
  e.side ≠ none ∧ e.side = e'.side ∧ e.rpcId = e'.rpcId ∧ e.parentId = e'.parentId ∧
    margoAddrToString 128 e.addr = none ∧ margoAddrToString 128 e'.addr = some "<unknown>\x00"

instance (e e' : Event) : Decidable (Mistakable e e') := by
  unfold Mistakable
  infer_instance

/-! ## The dump of the time series -/

/-- `rpc_info_t`. -/
structure RpcInfo where
  id : HgId
  name : String
  deriving DecidableEq, Repr

/-- `rpc_info_find`. -/
def rpcInfoFind (hash : List RpcInfo) (id : HgId) : Option RpcInfo :=
  hash.find? fun info => info.id = id

/-- An RPC that a provider registers. -/
@[ext]
structure Registration where
  name : String
  providerId : ProviderId
  deriving DecidableEq, Repr

/-- The id that `margo_provider_register_name` generates, for a hash of the name. -/
def Registration.id (version : HgVersion) (hashval : String → BitVec 32) (r : Registration) :
    HgId :=
  genId version (hashval r.name) r.providerId

/-- `on_register`, at its end. -/
def onRegister (hash : List RpcInfo) (id : HgId) (name : String) : List RpcInfo :=
  ⟨id, name⟩ :: hash

/-- The RPCs that the monitor knows after some registrations. -/
def rpcInfosAfter (version : HgVersion) (hashval : String → BitVec 32)
    (registered : List Registration) : List RpcInfo :=
  registered.foldl (fun hash r => onRegister hash (r.id version hashval) r.name) []

/-- The key of the time series of an RPC. -/
def seriesKey (hash : List RpcInfo) (rpcId : HgId) : String :=
  let (_, providerId) := demuxId rpcId
  match rpcInfoFind hash rpcId with
  | some info => info.name ++ (":" ++ providerId.toNat.repr)
  | none => "<unknown>"

/-- The part of `monitor_time_series_to_json` that dumps the RPCs: a key is added without a
look at those that are there. -/
def monitorTimeSeriesToJson (hash : List RpcInfo) (series : List HgId) : List (String × HgId) :=
  series.map fun rpcId => (seriesKey hash rpcId, rpcId)

/-- The name and the provider of an RPC. -/
def Registration.key (r : Registration) : String :=
  r.name ++ (":" ++ r.providerId.toNat.repr)

/-- The time series of some RPCs are dumped one by one, each under a name and a provider of its
own. -/
structure OneSeriesEach (version : HgVersion) (hashval : String → BitVec 32)
    (registered series : List Registration) : Prop where
  sections : monitorTimeSeriesToJson (rpcInfosAfter version hashval registered)
      (series.map (Registration.id version hashval)) =
    series.map fun r => (r.key, r.id version hashval)
  keys : (series.map Registration.key).Nodup

/-! ## The sections of the dump -/

section

variable {table : AddrTable} {side other : Side} {callpath : Callpath}
  {rpcs : List (String × RpcJson)}

/-- The section of a callpath, with its keys. -/
def entry (table : AddrTable) (side : Side) (callpath : Callpath) :
    (String × String) × Callpath :=
  ((buildRpcKey callpath, addrKey table side callpath), callpath)

/-- One section more on its side, and no other one. -/
theorem sections_addSection :
    sections other (addSection table side callpath rpcs) ~
      (if other = side then [entry table side callpath] else []) ++ sections other rpcs := by
  induction rpcs with
  | nil => by_cases hside : other = side <;> simp [addSection, sections, entry, hside]
  | cons r rpcs ih =>
      obtain ⟨rpcKey, rpcJson⟩ := r
      rw [addSection]
      split
      · next hkey =>
          by_cases hside : other = side
          · simp only [sections, List.flatMap_cons, hside, if_true, List.map_append, List.map_cons,
              List.map_nil, hkey, entry, List.append_assoc]
            exact List.perm_append_comm_assoc _ _ _
          · simp only [sections, List.flatMap_cons, if_neg hside, List.nil_append]
            rfl
      · simp only [sections, List.flatMap_cons] at ih ⊢
        exact (ih.append_left _).trans (List.perm_append_comm_assoc _ _ _)

theorem sections_foldl (l : List Callpath) :
    sections other (l.foldl (fun rpcs p => addSection table side p rpcs) rpcs) ~
      (if other = side then l.map (entry table side) else []) ++ sections other rpcs := by
  induction l generalizing rpcs with
  | nil => simp
  | cons p l ih =>
      rw [List.foldl_cons]
      apply ih.trans
      apply (sections_addSection.append_left _).trans
      by_cases hside : other = side
      · simp only [if_pos hside, List.map_cons, List.cons_append, List.nil_append]
        exact List.perm_middle
      · simp only [if_neg hside, List.nil_append]
        rfl

/-- Every callpath is dumped under its keys. -/
theorem sections_dump (m : Callpaths) (side : Side) :
    sections side (monitorStatisticsToJson m) ~ (m.stats side).map (entry m.table side) := by
  unfold monitorStatisticsToJson
  cases side with
  | origin =>
      apply (sections_foldl (m.stats .target)).trans
      rw [if_neg nofun, List.nil_append]
      apply (sections_foldl (m.stats .origin)).trans
      rw [if_pos rfl]
      simp [sections]
  | target =>
      apply (sections_foldl (m.stats .target)).trans
      rw [if_pos rfl]
      have horigin : sections .target
          ((m.stats .origin).foldl (fun rpcs p => addSection m.table .origin p rpcs) []) ~
            (if Side.target = .origin then (m.stats .origin).map (entry m.table .origin)
              else []) ++ sections .target [] := sections_foldl (m.stats .origin)
      rw [if_neg nofun, List.nil_append] at horigin
      simpa [sections] using horigin.append_left ((m.stats .target).map (entry m.table .target))

theorem mem_objects_addSection {key : String} :
    key ∈ (addSection table side callpath rpcs).map Prod.fst →
      key = buildRpcKey callpath ∨ key ∈ rpcs.map Prod.fst := by
  induction rpcs with
  | nil => simp [addSection]
  | cons r rpcs ih =>
      rw [addSection]
      split
      · exact Or.inr
      · intro hkey
        rcases List.mem_cons.mp hkey with hhead | htail
        · exact .inr (hhead ▸ List.mem_cons_self)
        · exact (ih htail).imp_right (List.mem_cons_of_mem _)

/-- An object is added for an RPC that has none. -/
theorem nodup_objects_addSection (h : (rpcs.map Prod.fst).Nodup) :
    ((addSection table side callpath rpcs).map Prod.fst).Nodup := by
  induction rpcs with
  | nil => simp [addSection]
  | cons r rpcs ih =>
      have hcons := List.nodup_cons.mp h
      rw [addSection]
      split
      · exact h
      · next hkey =>
          apply List.nodup_cons.mpr
          constructor
          · intro hmem
            rcases mem_objects_addSection hmem with hsame | hold
            · exact hkey hsame
            · exact hcons.1 hold
          · exact ih hcons.2

theorem nodup_objects_foldl (l : List Callpath) (h : (rpcs.map Prod.fst).Nodup) :
    ((l.foldl (fun rpcs p => addSection table side p rpcs) rpcs).map Prod.fst).Nodup := by
  induction l generalizing rpcs with
  | nil => exact h
  | cons p l ih => exact ih (nodup_objects_addSection h)

theorem nodup_objects_dump (m : Callpaths) :
    ((monitorStatisticsToJson m).map Prod.fst).Nodup :=
  nodup_objects_foldl _ (nodup_objects_foldl _ List.nodup_nil)

/-- What is left to decide is whether the keys tell the callpaths apart. -/
theorem oneSectionEach_iff {m : Callpaths} (hstats : ∀ side, (m.stats side).Nodup) :
    OneSectionEach m ↔ ∀ side, ∀ p ∈ m.stats side, ∀ q ∈ m.stats side,
      buildRpcKey p = buildRpcKey q → addrKey m.table side p = addrKey m.table side q → p = q := by
  have hkeys : ∀ side, ((sections side (monitorStatisticsToJson m)).map Prod.fst).Nodup ↔
      ((m.stats side).map fun p => (buildRpcKey p, addrKey m.table side p)).Nodup := by
    intro side
    rw [((sections_dump m side).map Prod.fst).nodup_iff, List.map_map]
    rfl
  constructor
  · intro h side p hp q hq hrpc haddr
    exact List.inj_on_of_nodup_map ((hkeys side).mp (h.keys side)) hp hq (Prod.ext hrpc haddr)
  · intro h
    refine ⟨nodup_objects_dump m, fun side => ?_, fun side => (hkeys side).mpr ?_⟩
    · apply ((sections_dump m side).map Prod.snd).trans
      rw [List.map_map]
      exact (List.map_id (m.stats side)).symm ▸ List.Perm.refl _
    · apply (hstats side).map_on
      intro p hp q hq hkey
      exact h side p hp q hq (congrArg Prod.fst hkey) (congrArg Prod.snd hkey)

end

/-! ## The table of addresses -/

/-- Names and ids of the table belong to each other. -/
structure AddrTable.Valid (table : AddrTable) : Prop where
  names : (table.infos.map AddrInfo.name).Nodup
  ids : (table.infos.map AddrInfo.id).Nodup
  given : ∀ info ∈ table.infos, info.id ≤ table.lastId

section

variable {table : AddrTable} {addr : PeerAddr}

theorem AddrTable.Valid.findById (h : table.Valid) {info : AddrInfo} (hinfo : info ∈ table.infos) :
    addrInfoFindById table info.id = some info :=
  Lib.find?_of_nodup h.ids hinfo

theorem AddrTable.Valid.findOrAdd (h : table.Valid) (addr : PeerAddr) :
    (addrInfoFindOrAdd table addr).2.Valid := by
  rw [addrInfoFindOrAdd]
  cases hfind : table.infos.find? fun info => info.name = addrStr addr with
  | some info => exact h
  | none =>
      have hname : addrStr addr ∉ table.infos.map AddrInfo.name := by
        intro hmem
        obtain ⟨info, hinfo, hsame⟩ := List.mem_map.mp hmem
        exact List.find?_eq_none.mp hfind info hinfo (decide_eq_true hsame)
      have hid : table.lastId + 1 ∉ table.infos.map AddrInfo.id := by
        intro hmem
        obtain ⟨info, hinfo, hsame⟩ := List.mem_map.mp hmem
        have hgiven := h.given info hinfo
        omega
      constructor
      · simpa [List.nodup_append] using ⟨h.names, fun info hinfo hsame =>
          hname (hsame ▸ List.mem_map_of_mem hinfo)⟩
      · simpa [List.nodup_append] using ⟨h.ids, fun info hinfo hsame =>
          hid (hsame ▸ List.mem_map_of_mem hinfo)⟩
      · intro info hinfo
        rcases List.mem_append.mp hinfo with hold | hnew
        · exact Nat.le_succ_of_le (h.given info hold)
        · rw [List.mem_singleton.mp hnew]

/-- The id of an address is the one of its name. -/
theorem findOrAdd_mem (table : AddrTable) (addr : PeerAddr) :
    ⟨(addrInfoFindOrAdd table addr).1, addrStr addr⟩ ∈ (addrInfoFindOrAdd table addr).2.infos := by
  rw [addrInfoFindOrAdd]
  cases hfind : table.infos.find? fun info => info.name = addrStr addr with
  | some info =>
      have hname : info.name = addrStr addr := by simpa using List.find?_some hfind
      rw [← hname]
      exact List.mem_of_find?_eq_some hfind
  | none => exact List.mem_append_right _ List.mem_cons_self

theorem findOrAdd_subset (table : AddrTable) (addr : PeerAddr) :
    table.infos ⊆ (addrInfoFindOrAdd table addr).2.infos := by
  rw [addrInfoFindOrAdd]
  cases table.infos.find? fun info => info.name = addrStr addr with
  | some info => exact List.Subset.refl _
  | none => exact List.subset_append_left _ _

end

/-! ## What the events leave behind -/

/-- The callpath of an event. -/
structure PathOf (table : AddrTable) (e : Event) (callpath : Callpath) : Prop where
  rpcId : callpath.rpcId = e.rpcId
  parentId : callpath.parentId = e.parentId
  addrId : ⟨callpath.addrId, addrStr e.addr⟩ ∈ table.infos

/-- The statistics of some events: one callpath for those that have the same one. -/
structure Recorded (es : List Event) (m : Callpaths) : Prop where
  table : m.table.Valid
  nodup : ∀ side, (m.stats side).Nodup
  sound : ∀ side, ∀ p ∈ m.stats side, ∃ e ∈ es, e.side = some side ∧ PathOf m.table e p
  complete : ∀ side, ∀ e ∈ es, e.side = some side → ∃ p ∈ m.stats side, PathOf m.table e p

section

variable {es : List Event} {m : Callpaths}

theorem PathOf.mono {table table' : AddrTable} {e : Event} {p : Callpath}
    (h : PathOf table e p) (hinfos : table.infos ⊆ table'.infos) : PathOf table' e p :=
  ⟨h.rpcId, h.parentId, hinfos h.addrId⟩

theorem Recorded.record (h : Recorded es m) (e : Event) : Recorded (es ++ [e]) (m.record e) := by
  have hinfos := findOrAdd_subset m.table e.addr
  have hpath : PathOf (addrInfoFindOrAdd m.table e.addr).2 e
      ⟨e.rpcId, e.parentId, (addrInfoFindOrAdd m.table e.addr).1⟩ :=
    ⟨rfl, rfl, findOrAdd_mem m.table e.addr⟩
  generalize hp : (⟨e.rpcId, e.parentId, (addrInfoFindOrAdd m.table e.addr).1⟩ : Callpath) = p
    at hpath
  have hstats : ∀ side, (m.record e).stats side =
      if some side = e.side ∧ p ∉ m.stats side then m.stats side ++ [p] else m.stats side := by
    intro side
    rw [← hp]
    rfl
  have hold : ∀ {side q}, q ∈ m.stats side → q ∈ (m.record e).stats side := by
    intro side q hq
    rw [hstats]
    split
    · exact List.mem_append_left _ hq
    · exact hq
  refine ⟨h.table.findOrAdd e.addr, fun side => ?_, fun side q hq => ?_,
    fun side e' he' hside => ?_⟩
  · rw [hstats]
    split
    · next hnew => simpa using (h.nodup side).concat hnew.2
    · exact h.nodup side
  · rw [hstats] at hq
    have hcases : q ∈ m.stats side ∨ e.side = some side ∧ q = p := by
      split at hq
      · next hnew =>
          exact (List.mem_append.mp hq).imp_right fun hq => ⟨hnew.1.symm, List.mem_singleton.mp hq⟩
      · exact .inl hq
    rcases hcases with hq | ⟨hside, rfl⟩
    · obtain ⟨e', he', hside, hpath'⟩ := h.sound side q hq
      exact ⟨e', List.mem_append_left _ he', hside, hpath'.mono hinfos⟩
    · exact ⟨e, List.mem_append_right _ List.mem_cons_self, hside, hpath⟩
  · rcases List.mem_append.mp he' with he' | he'
    · obtain ⟨q, hq, hpath'⟩ := h.complete side e' he' hside
      exact ⟨q, hold hq, hpath'.mono hinfos⟩
    · obtain rfl := List.mem_singleton.mp he'
      refine ⟨p, ?_, hpath⟩
      rw [hstats]
      by_cases hmem : p ∈ m.stats side
      · rw [if_neg fun hnew => hnew.2 hmem]
        exact hmem
      · rw [if_pos ⟨hside.symm, hmem⟩]
        exact List.mem_append_right _ List.mem_cons_self

theorem recorded_after (es : List Event) : Recorded es (callpathsAfter es) := by
  induction es using List.reverseRecOn with
  | nil =>
      exact ⟨⟨List.nodup_nil, List.nodup_nil, nofun⟩, fun _ => List.nodup_nil, nofun, nofun⟩
  | append_singleton es e ih =>
      rw [callpathsAfter, List.foldl_append]
      exact ih.record e

end

/-! ## Which keys are the same -/

section

variable {p q : Callpath} {table : AddrTable} {side : Side} {e e' : Event}

/-- The key of an RPC tells its id and the one of its parent. -/
theorem buildRpcKey_inj (h : buildRpcKey p = buildRpcKey q) :
    p.rpcId = q.rpcId ∧ p.parentId = q.parentId := by
  have hcolon : (':' : Char).isDigit = false := by decide
  obtain ⟨hparentBase, h⟩ := repr_append_inj hcolon h
  obtain ⟨hparentProvider, h⟩ := repr_append_inj hcolon h
  obtain ⟨hbase, hprovider⟩ := append_repr_inj (c := ':') hcolon h
  constructor
  · exact demuxId_injective (Prod.ext (BitVec.eq_of_toNat_eq (Nat.repr_injective hbase))
      (BitVec.eq_of_toNat_eq hprovider))
  · exact demuxId_injective (Prod.ext (BitVec.eq_of_toNat_eq hparentBase)
      (BitVec.eq_of_toNat_eq hparentProvider))

/-- What the dump shows of an address. -/
theorem addrKey_eq (h : table.Valid) (hpath : PathOf table e p) :
    addrKey table side p = side.addrPrefix ++ Json.cString (addrStr e.addr) := by
  rw [addrKey, h.findById hpath.addrId]

theorem addrStr_of_none {addr : PeerAddr} (h : margoAddrToString 128 addr = none) :
    addrStr addr = "<unknown>" := by
  rw [addrStr, h]
  rfl

theorem addrStr_of_some {addr : PeerAddr} {bytes : String}
    (h : margoAddrToString 128 addr = some bytes) : addrStr addr = bytes := by
  rw [addrStr, h]
  rfl

/-- A printed address has a null byte, and only at its end. -/
theorem cString_of_some {addr : PeerAddr} {bytes : String}
    (h : margoAddrToString 128 addr = some bytes) : Json.cString bytes ++ "\x00" = bytes := by
  rw [margoAddrToString] at h
  split at h
  · cases h
  · obtain rfl := Option.some.inj h
    have hkeep : ∀ c ∈ addr.str.toList, decide (c ≠ '\x00') = true := by
      intro c hc
      apply decide_eq_true
      rintro rfl
      exact addr.noNull hc
    congr 1
    apply String.toList_injective
    rw [Json.cString, String.toList_ofList, String.toList_append,
      List.takeWhile_append_of_pos hkeep]
    exact List.append_nil _

/-- The dump shows two addresses alike if they have one name in the table, or if one of them
cannot be printed and the other one is printed as what stands for it. -/
theorem addrStr_of_cString {addr addr' : PeerAddr}
    (h : Json.cString (addrStr addr) = Json.cString (addrStr addr')) :
    addrStr addr = addrStr addr' ∨
      margoAddrToString 128 addr = none ∧ margoAddrToString 128 addr' = some "<unknown>\x00" ∨
      margoAddrToString 128 addr' = none ∧ margoAddrToString 128 addr = some "<unknown>\x00" := by
  have hunknown : Json.cString "<unknown>" = "<unknown>" := by decide
  cases ha : margoAddrToString 128 addr with
  | none =>
      rw [addrStr_of_none ha, hunknown] at h
      cases ha' : margoAddrToString 128 addr' with
      | none =>
          rw [addrStr_of_none ha, addrStr_of_none ha']
          exact .inl rfl
      | some bytes' =>
          have hbytes := cString_of_some ha'
          rw [addrStr_of_some ha'] at h
          rw [← h] at hbytes
          exact .inr (.inl ⟨rfl, congrArg some hbytes.symm⟩)
  | some bytes =>
      have hbytes := cString_of_some ha
      rw [addrStr_of_some ha] at h
      cases ha' : margoAddrToString 128 addr' with
      | none =>
          rw [addrStr_of_none ha', hunknown] at h
          rw [h] at hbytes
          exact .inr (.inr ⟨rfl, congrArg some hbytes.symm⟩)
      | some bytes' =>
          rw [addrStr_of_some ha'] at h
          rw [addrStr_of_some ha, addrStr_of_some ha']
          refine .inl ?_
          calc
            bytes = Json.cString bytes ++ "\x00" := hbytes.symm
            _ = Json.cString bytes' ++ "\x00" := by rw [h]
            _ = bytes' := cString_of_some ha'

end

/-- The keys of callpaths are distinct unless an address is taken for the one that stands for
those that cannot be printed. -/
theorem oneSectionEach_callpathsAfter (es : List Event) :
    OneSectionEach (callpathsAfter es) ↔ ∀ e ∈ es, ∀ e' ∈ es, ¬Mistakable e e' := by
  have hrecorded := recorded_after es
  have hkey : ∀ {side e p}, PathOf (callpathsAfter es).table e p →
      addrKey (callpathsAfter es).table side p =
        side.addrPrefix ++ Json.cString (addrStr e.addr) :=
    fun hpath => addrKey_eq hrecorded.table hpath
  rw [oneSectionEach_iff hrecorded.nodup]
  constructor
  · intro hone e he e' he' hmistake
    obtain ⟨hsome, hside, hrpc, hparent, hnone, hunknown⟩ := hmistake
    obtain ⟨side, hes⟩ := Option.ne_none_iff_exists'.mp hsome
    obtain ⟨p, hp, hpath⟩ := hrecorded.complete side e he hes
    obtain ⟨q, hq, hpath'⟩ := hrecorded.complete side e' he' (hside ▸ hes)
    have hrpcKey : buildRpcKey p = buildRpcKey q := by
      simp only [buildRpcKey, hpath.rpcId, hpath'.rpcId, hpath.parentId, hpath'.parentId, hrpc,
        hparent]
    have haddrKey : addrKey (callpathsAfter es).table side p =
        addrKey (callpathsAfter es).table side q := by
      rw [hkey hpath, hkey hpath', addrStr_of_none hnone, addrStr_of_some hunknown]
      congr 1
    have hsame := hone side p hp q hq hrpcKey haddrKey
    have hinfo := List.inj_on_of_nodup_map hrecorded.table.ids hpath.addrId hpath'.addrId
      (congrArg Callpath.addrId hsame)
    have hname : addrStr e.addr = addrStr e'.addr := congrArg AddrInfo.name hinfo
    rw [addrStr_of_none hnone, addrStr_of_some hunknown] at hname
    exact absurd hname (by decide)
  · intro hnone side p hp q hq hrpcKey haddrKey
    obtain ⟨e, he, hside, hpath⟩ := hrecorded.sound side p hp
    obtain ⟨e', he', hside', hpath'⟩ := hrecorded.sound side q hq
    obtain ⟨hrpc, hparent⟩ := buildRpcKey_inj hrpcKey
    rw [hkey hpath, hkey hpath', String.append_right_inj] at haddrKey
    have hrpcs : e.rpcId = e'.rpcId := hpath.rpcId ▸ hpath'.rpcId ▸ hrpc
    have hparents : e.parentId = e'.parentId := hpath.parentId ▸ hpath'.parentId ▸ hparent
    have hsides : e.side = e'.side := hside.trans hside'.symm
    have hsome : e.side ≠ none := by simp [hside]
    rcases addrStr_of_cString haddrKey with hname | ⟨hfail, hunknown⟩ | ⟨hfail, hunknown⟩
    · have hinfo := List.inj_on_of_nodup_map hrecorded.table.names hpath.addrId hpath'.addrId hname
      exact Callpath.ext hrpc hparent (congrArg AddrInfo.id hinfo)
    · exact absurd ⟨hsome, hsides, hrpcs, hparents, hfail, hunknown⟩ (hnone e he e' he')
    · exact absurd ⟨hsides ▸ hsome, hsides.symm, hrpcs.symm, hparents.symm, hfail, hunknown⟩
        (hnone e' he' e he)

/-! ## The keys of the time series -/

section

variable {version : HgVersion} {hashval : String → BitVec 32} {registered : List Registration}
  {r r' : Registration}

/-- The provider is taken out of the id that it was put into. -/
theorem providerId_id (r : Registration) : (demuxId (r.id version hashval)).2 = r.providerId := by
  rw [Registration.id, ← muxId_genId version (hashval r.name) r.providerId r.providerId]
  exact providerId_muxId _ _

theorem rpcInfosAfter_perm (version : HgVersion) (hashval : String → BitVec 32)
    (registered : List Registration) :
    rpcInfosAfter version hashval registered ~
      registered.map fun r => ⟨r.id version hashval, r.name⟩ := by
  induction registered using List.reverseRecOn with
  | nil => exact List.Perm.refl _
  | append_singleton registered r ih =>
      rw [rpcInfosAfter, List.foldl_append, List.map_append]
      exact (ih.cons _).trans (List.perm_append_singleton _ _).symm

theorem seriesKey_id (hids : (registered.map (Registration.id version hashval)).Nodup)
    (hr : r ∈ registered) :
    seriesKey (rpcInfosAfter version hashval registered) (r.id version hashval) = r.key := by
  have hperm := rpcInfosAfter_perm version hashval registered
  have hnodup : ((rpcInfosAfter version hashval registered).map RpcInfo.id).Nodup := by
    rw [(hperm.map RpcInfo.id).nodup_iff, List.map_map]
    exact hids
  have hmem : ⟨r.id version hashval, r.name⟩ ∈ rpcInfosAfter version hashval registered :=
    hperm.mem_iff.mpr (List.mem_map_of_mem hr)
  have hfind : rpcInfoFind (rpcInfosAfter version hashval registered) (r.id version hashval) =
      some ⟨r.id version hashval, r.name⟩ := Lib.find?_of_nodup hnodup hmem
  rw [seriesKey, hfind, Registration.key, ← providerId_id r]

/-- Whatever stands in the names, the last colon is the one before the provider. -/
theorem key_injective (h : r.key = r'.key) : r = r' := by
  have hcolon : (':' : Char).isDigit = false := by decide
  obtain ⟨hname, hprovider⟩ := append_repr_inj (c := ':') hcolon h
  exact Registration.ext hname (BitVec.eq_of_toNat_eq hprovider)

theorem oneSeriesEach {series : List Registration}
    (hids : (registered.map (Registration.id version hashval)).Nodup)
    (hseries : ∀ r ∈ series, r ∈ registered) (hnodup : series.Nodup) :
    OneSeriesEach version hashval registered series := by
  constructor
  · rw [monitorTimeSeriesToJson, List.map_map]
    apply List.map_congr_left
    intro r hr
    rw [Function.comp_apply, seriesKey_id hids (hseries r hr)]
  · exact hnodup.map fun r r' => key_injective

end

/-- Every callpath and every time series has a section of its own exactly if no callpath with
an address that Mercury cannot print meets one with an address that is printed as
`<unknown>`. -/
theorem one_section_each_iff (version : HgVersion) (hashval : String → BitVec 32)
    (es : List Event) (registered series : List Registration)
    (hids : (registered.map (Registration.id version hashval)).Nodup)
    (hseries : ∀ r ∈ series, r ∈ registered) (hnodup : series.Nodup) :
    OneSectionEach (callpathsAfter es) ∧ OneSeriesEach version hashval registered series ↔
      ∀ e ∈ es, ∀ e' ∈ es, ¬Mistakable e e' := by
  rw [oneSectionEach_callpathsAfter]
  exact and_iff_left (oneSeriesEach hids hseries hnodup)

/-- Two RPCs whose names and providers are the same text up to the place of a colon, and calls
to two peers. -/
theorem one_section_each_two :
    OneSectionEach (callpathsAfter [⟨some .origin, 1, 2, ⟨"na+sm://1-0", by decide, false⟩⟩,
        ⟨some .origin, 1, 2, ⟨"na+sm://2-0", by decide, false⟩⟩]) ∧
      OneSeriesEach ⟨2, 4⟩ (fun name => name.length) [⟨"a:1", 2⟩, ⟨"a", 12⟩]
        [⟨"a", 12⟩, ⟨"a:1", 2⟩] := by
  apply (one_section_each_iff ⟨2, 4⟩ (fun name => name.length) _ [⟨"a:1", 2⟩, ⟨"a", 12⟩]
    [⟨"a", 12⟩, ⟨"a:1", 2⟩] (by decide) (by decide) (by decide)).mpr
  decide

/-- One call to a peer whose address cannot be printed and one to a peer with the address
`<unknown>`: two callpaths have the same keys. -/
theorem not_one_section_each :
    ¬∀ (version : HgVersion) (hashval : String → BitVec 32) (es : List Event)
      (registered series : List Registration),
      (registered.map (Registration.id version hashval)).Nodup →
      (∀ r ∈ series, r ∈ registered) → series.Nodup →
      OneSectionEach (callpathsAfter es) ∧
        OneSeriesEach version hashval registered series := by
  intro hall
  have hone := (hall ⟨2, 4⟩ (fun _ => 0)
    [⟨some .origin, 1, 2, ⟨"na+sm://1-0", by decide, true⟩⟩,
      ⟨some .origin, 1, 2, ⟨"<unknown>", by decide, false⟩⟩]
    [] [] List.nodup_nil nofun List.nodup_nil).1
  apply (oneSectionEach_callpathsAfter _).mp hone _ List.mem_cons_self _
    (List.mem_cons_of_mem _ List.mem_cons_self)
  decide

end Margo.Monitor.Keys
