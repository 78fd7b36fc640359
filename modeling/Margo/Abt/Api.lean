import Margo.Abt.Registry

/-!
# The public functions on pools and xstreams

Every function of `margo-config.c` that finds, references, counts, releases,
adds or removes pools or xstreams: the checks it makes before it takes
`abt->mtx`, and what it does from there to its return, with the number of
times it unlocks the mutex on that path.

## Implementation notes

Functions that differ only in how they find their entry or in whether it is a
pool or an xstream are one definition, applied to a way to find the entry and
to a table. `none` is a run into a null pointer.
-/

namespace Margo.Abt

open Lib

/-- The positions of an instance in the array of pools. -/
structure Instance where
  progressPoolIdx : Nat
  rpcPoolIdx : Nat
  deriving DecidableEq, Repr

/-- The handle in a slot of the array of pools; a slot that is not in use is
zero. -/
def poolAt (abt : MargoAbt) (i : Nat) : PoolHandle := (abt.pools[i]?.map (·.pool)).getD .null

/-- What a call hands back besides its return code. -/
inductive Output
  | nothing
  | size (n : Nat)
  | refcount (n : Nat)
  | poolInfo (index : Nat) (name : String) (pool : PoolHandle)
  | xstreamInfo (index : Nat) (name : String) (xstream : XstreamHandle)
  deriving DecidableEq, Repr

/-- How a call leaves the section it locked. -/
structure Exit where
  abt : MargoAbt
  ret : HgReturn
  output : Output
  unlocks : Nat
  deriving DecidableEq, Repr

/-- The single way out that most paths take. -/
def Exit.plain (abt : MargoAbt) (ret : HgReturn) (output : Output) : Exit :=
  ⟨abt, ret, output, 1⟩

/-- What a call does before it takes the lock. -/
inductive Enter
  | locks
  | returns (ret : HgReturn)
  | crashes
  deriving DecidableEq, Repr

/-- A public function applied to its arguments. -/
structure Api where
  enter : Enter
  body : Replies → MargoAbt → Option Exit

/-- A whole call, with nobody else on the environment. -/
def Api.run (api : Api) (r : Replies) (abt : MargoAbt) : Option MargoAbt :=
  match api.enter with
  | .locks => (api.body r abt).map (·.abt)
  | .returns _ => some abt
  | .crashes => none

/-- Return `HG_INVALID_ARG` at once if the instance is null or the check fails. -/
def checked (mid : Option Instance) (ok : Bool) : Enter :=
  if mid.isSome && ok then .locks else .returns .invalidArg

/-- Use the instance without a check. -/
def unchecked (mid : Option Instance) : Enter := if mid.isSome then .locks else .crashes

/-! ## Entries -/

/-- The array of pools or that of xstreams. -/
structure Table where
  refcount : MargoAbt → Nat → Nat
  update : (Nat → Nat) → Nat → MargoAbt → MargoAbt
  info : MargoAbt → Nat → Output

/-- The array of pools. -/
def poolTable : Table where
  refcount abt i := (abt.pools[i]?.map (·.refcount)).getD 0
  update f i abt :=
    { abt with pools := abt.pools.modify i fun p => { p with refcount := f p.refcount } }
  info abt i :=
    match abt.pools[i]? with
    | some p => .poolInfo i p.name p.pool
    | none => .nothing

/-- The array of xstreams. -/
def xstreamTable : Table where
  refcount abt i := (abt.xstreams[i]?.map (·.refcount)).getD 0
  update f i abt :=
    { abt with xstreams := abt.xstreams.modify i fun x => { x with refcount := f x.refcount } }
  info abt i :=
    match abt.xstreams[i]? with
    | some x => .xstreamInfo i x.name x.xstream
    | none => .nothing

/-- A way to find an entry: the checks made before the lock, the search, and
the return code if there is no such entry. -/
structure Finder where
  ok : Bool
  find : MargoAbt → Option Nat
  missing : HgReturn

def poolByHandle (handle : PoolHandle) : Finder :=
  ⟨handle ≠ .poolNull, fun abt => abt.pools.findIdx? fun p => p.pool == handle, .noEntry⟩

def poolByName (name : Option String) : Finder :=
  ⟨name.isSome, fun abt => findPoolByName abt name, .noEntry⟩

def poolByIndex (index : Nat) : Finder :=
  ⟨true, fun abt => if index < abt.pools.length then some index else none, .invalidArg⟩

def xstreamByHandle (handle : XstreamHandle) : Finder :=
  ⟨handle ≠ .xstreamNull, fun abt => abt.xstreams.findIdx? fun x => x.xstream == handle,
    .noEntry⟩

def xstreamByName (name : Option String) : Finder :=
  ⟨name.isSome, fun abt => findXstreamByName abt name, .noEntry⟩

def xstreamByIndex (index : Nat) : Finder :=
  ⟨true, fun abt => if index < abt.xstreams.length then some index else none, .invalidArg⟩

/-- Find an entry under the lock and act on it. -/
def onEntry (mid : Option Instance) (finder : Finder) (act : Nat → MargoAbt → Exit) : Api where
  enter := checked mid finder.ok
  body _ abt :=
    match finder.find abt with
    | none => some (.plain abt finder.missing .nothing)
    | some i => some (act i abt)

/-- The `margo_find_*` functions. -/
def findEntry (table : Table) (mid : Option Instance) (finder : Finder) : Api :=
  onEntry mid finder fun i abt => .plain abt .success (table.info abt i)

/-- The `*_ref_incr_*` functions. -/
def refIncr (table : Table) (mid : Option Instance) (finder : Finder) : Api :=
  onEntry mid finder fun i abt => .plain (table.update incr32 i abt) .success .nothing

/-- The `*_ref_count_*` functions. -/
def refCount (table : Table) (mid : Option Instance) (finder : Finder) : Api :=
  onEntry mid finder fun i abt => .plain abt .success (.refcount (table.refcount abt i))

/-- The `*_release_*` functions, with the number of unlocks on the path that
finds no reference to release. -/
def release (unlocks : Nat) (table : Table) (mid : Option Instance) (finder : Finder) : Api :=
  onEntry mid finder fun i abt =>
    if table.refcount abt i = 0 then ⟨abt, .permission, .nothing, unlocks⟩
    else .plain (table.update decr32 i abt) .success .nothing

def margoFindPoolByHandle (mid : Option Instance) (handle : PoolHandle) : Api :=
  findEntry poolTable mid (poolByHandle handle)

def margoFindPoolByName (mid : Option Instance) (name : Option String) : Api :=
  findEntry poolTable mid (poolByName name)

def margoFindPoolByIndex (mid : Option Instance) (index : Nat) : Api :=
  findEntry poolTable mid (poolByIndex index)

def margoPoolRefIncrByHandle (mid : Option Instance) (handle : PoolHandle) : Api :=
  refIncr poolTable mid (poolByHandle handle)

def margoPoolRefIncrByName (mid : Option Instance) (name : Option String) : Api :=
  refIncr poolTable mid (poolByName name)

def margoPoolRefIncrByIndex (mid : Option Instance) (index : Nat) : Api :=
  refIncr poolTable mid (poolByIndex index)

def margoPoolRefCountByHandle (mid : Option Instance) (handle : PoolHandle) : Api :=
  refCount poolTable mid (poolByHandle handle)

def margoPoolRefCountByName (mid : Option Instance) (name : Option String) : Api :=
  refCount poolTable mid (poolByName name)

def margoPoolRefCountByIndex (mid : Option Instance) (index : Nat) : Api :=
  refCount poolTable mid (poolByIndex index)

/-- Unlocks in its loop and again after it. -/
def margoPoolReleaseByHandle (mid : Option Instance) (handle : PoolHandle) : Api :=
  release 2 poolTable mid (poolByHandle handle)

/-- Unlocks in its loop and again after it. -/
def margoPoolReleaseByName (mid : Option Instance) (name : Option String) : Api :=
  release 2 poolTable mid (poolByName name)

def margoPoolReleaseByIndex (mid : Option Instance) (index : Nat) : Api :=
  release 1 poolTable mid (poolByIndex index)

def margoFindXstreamByHandle (mid : Option Instance) (handle : XstreamHandle) : Api :=
  findEntry xstreamTable mid (xstreamByHandle handle)

def margoFindXstreamByName (mid : Option Instance) (name : Option String) : Api :=
  findEntry xstreamTable mid (xstreamByName name)

def margoFindXstreamByIndex (mid : Option Instance) (index : Nat) : Api :=
  findEntry xstreamTable mid (xstreamByIndex index)

def margoXstreamRefIncrByHandle (mid : Option Instance) (handle : XstreamHandle) : Api :=
  refIncr xstreamTable mid (xstreamByHandle handle)

def margoXstreamRefIncrByName (mid : Option Instance) (name : Option String) : Api :=
  refIncr xstreamTable mid (xstreamByName name)

def margoXstreamRefIncrByIndex (mid : Option Instance) (index : Nat) : Api :=
  refIncr xstreamTable mid (xstreamByIndex index)

def margoXstreamRefCountByHandle (mid : Option Instance) (handle : XstreamHandle) : Api :=
  refCount xstreamTable mid (xstreamByHandle handle)

def margoXstreamRefCountByName (mid : Option Instance) (name : Option String) : Api :=
  refCount xstreamTable mid (xstreamByName name)

def margoXstreamRefCountByIndex (mid : Option Instance) (index : Nat) : Api :=
  refCount xstreamTable mid (xstreamByIndex index)

/-- Unlocks in its loop and again after it. -/
def margoXstreamReleaseByHandle (mid : Option Instance) (handle : XstreamHandle) : Api :=
  release 2 xstreamTable mid (xstreamByHandle handle)

/-- Unlocks in its loop and again after it. -/
def margoXstreamReleaseByName (mid : Option Instance) (name : Option String) : Api :=
  release 2 xstreamTable mid (xstreamByName name)

def margoXstreamReleaseByIndex (mid : Option Instance) (index : Nat) : Api :=
  release 1 xstreamTable mid (xstreamByIndex index)

/-! ## The arrays as a whole -/

def margoGetNumPools (mid : Option Instance) : Api :=
  ⟨unchecked mid, fun _ abt => some (.plain abt .success (.size abt.pools.length))⟩

def margoGetNumXstreams (mid : Option Instance) : Api :=
  ⟨unchecked mid, fun _ abt => some (.plain abt .success (.size abt.xstreams.length))⟩

/-- How an addition ends: with what it added, or with `HG_INVALID_ARG`. -/
def added (table : Table) (last : MargoAbt → Nat) : MargoAbt × Bool → Exit
  | (abt, true) => .plain abt .success (table.info abt (last abt))
  | (abt, false) => .plain abt .invalidArg .nothing

@[simp] theorem added_abt (table : Table) (last : MargoAbt → Nat) (x : MargoAbt × Bool) :
    (added table last x).abt = x.1 := by
  obtain ⟨abt, ok⟩ := x
  cases ok <;> rfl

/-- `margo_add_pool_from_json`; `json` is the parsed string, null if it is empty
and `none` if it does not parse. -/
def margoAddPoolFromJson (mid : Option Instance) (json : Option Json) : Api where
  enter := if json.isNone then .returns .invalidArg else unchecked mid
  body r abt :=
    some (added poolTable (·.pools.length - 1) (addPoolFromJson r (json.getD .null) abt))

/-- `margo_add_pool_external`. -/
def margoAddPoolExternal (mid : Option Instance) (name : Option String) (pool : PoolHandle)
    (takeOwnership : Bool) : Api where
  enter := checked mid true
  body r abt :=
    let (abt, ok) := addExternalPool r name pool abt
    let last := abt.pools.length - 1
    let abt :=
      if ok then
        { abt with pools := abt.pools.modify last fun p =>
          { p with margoFreeFlag := takeOwnership } }
      else abt
    some (added poolTable (·.pools.length - 1) (abt, ok))

/-- The part the three removals of a pool share: the pool at `index` is not
removed if it is the progress or the RPC pool of the calling instance. -/
def removePoolAt (r : Replies) (mid : Instance) (index : Nat) (abt : MargoAbt) : Exit :=
  if abt.pools.length ≤ index then .plain abt .invalidArg .nothing
  else if poolAt abt index = poolAt abt mid.progressPoolIdx then
    .plain abt .otherError .nothing
  else if poolAt abt index = poolAt abt mid.rpcPoolIdx then .plain abt .otherError .nothing
  else
    match removePool r index abt with
    | (abt, ret) => .plain abt ret .nothing

/-- `margo_remove_pool_by_index`. -/
def margoRemovePoolByIndex (mid : Option Instance) (index : Nat) : Api where
  enter := checked mid true
  body r abt := mid.map fun mid => removePoolAt r mid index abt

/-- A removal by name or handle. -/
def removePoolFound (mid : Option Instance) (find : MargoAbt → Option Nat) : Api where
  enter := checked mid true
  body r abt := mid.map fun mid =>
    match find abt with
    | none => .plain abt .invalidArg .nothing
    | some index => removePoolAt r mid index abt

def margoRemovePoolByName (mid : Option Instance) (name : Option String) : Api :=
  removePoolFound mid fun abt => findPoolByName abt name

def margoRemovePoolByHandle (mid : Option Instance) (handle : PoolHandle) : Api :=
  removePoolFound mid fun abt => findPoolByHandle abt handle

/-- `margo_add_xstream_from_json`. -/
def margoAddXstreamFromJson (mid : Option Instance) (json : Option Json) : Api where
  enter := checked mid json.isSome
  body r abt :=
    some (added xstreamTable (·.xstreams.length - 1)
      (addXstreamFromJson r (json.getD .null) abt))

/-- `margo_add_xstream_external`. -/
def margoAddXstreamExternal (mid : Option Instance) (name : Option String)
    (xstream : XstreamHandle) (takeOwnership : Bool) : Api where
  enter := checked mid true
  body r abt :=
    (addExternalXstream r name xstream abt).map fun (abt, ok) =>
      let last := abt.xstreams.length - 1
      let abt :=
        if ok then
          { abt with xstreams := abt.xstreams.modify last fun x =>
            { x with margoFreeFlag := takeOwnership } }
        else abt
      added xstreamTable (·.xstreams.length - 1) (abt, ok)

/-- A removal of an xstream: `missing` is returned when there is none. -/
def removeXstreamFound (mid : Option Instance) (find : MargoAbt → Option Nat)
    (missing : HgReturn) : Api where
  enter := checked mid true
  body _ abt :=
    match find abt with
    | none => some (.plain abt missing .nothing)
    | some index =>
        match removeXstream index abt with
        | (abt, ret) => some (.plain abt ret .nothing)

def margoRemoveXstreamByIndex (mid : Option Instance) (index : Nat) : Api :=
  removeXstreamFound mid
    (fun abt => if index < abt.xstreams.length then some index else none) .otherError

def margoRemoveXstreamByName (mid : Option Instance) (name : Option String) : Api :=
  removeXstreamFound mid (fun abt => findXstreamByName abt name) .invalidArg

def margoRemoveXstreamByHandle (mid : Option Instance) (handle : XstreamHandle) : Api :=
  removeXstreamFound mid (fun abt => findXstreamByHandle abt handle) .invalidArg

end Margo.Abt
