import Margo.Hg.Model
import Margo.Plumber.RoundRobin
import Mathlib.Logic.Function.Basic

/-!
# Resolving a network card

`mochi_plumber_resolve_nic` divides the network cards of a node into buckets, draws one from
the bucket of the process and appends its name to the address, if the address asks for a card.

## Implementation notes

What hwloc and libfabric know of the node is an argument, and so is what the allocator answers.
Memory, topologies and lists of interfaces are objects of a ledger; a reallocation gives a new
block. A read through a null pointer or outside an array has no result.
-/

namespace Margo.Plumber

open Lib
open Hg (CStr strstr)

/-- The kinds of the objects. -/
inductive Object
  | block
  | topology
  | info
  deriving DecidableEq, Repr

/-- `struct fi_pci_attr`. -/
structure PciAttr where
  domainId : Nat
  busId : Nat
  deviceId : Nat
  functionId : Nat
  deriving DecidableEq, Repr

/-- `struct fi_info`: the name, and the address on the bus of a PCI device; with it what
`realloc` and `strdup` answer while it is put into its bucket. -/
structure Interface where
  name : String
  pci : Option PciAttr
  realloc : Bool
  strdup : Bool
  deriving DecidableEq, Repr

/-- What hwloc knows of a device, or of the core at which the process runs: the first NUMA
node, and the `os_index` of the package, if it is in one. -/
structure Place where
  node : Int
  package : Option Int
  deriving DecidableEq, Repr

/-- The type of an object of hwloc. -/
inductive ObjType
  | package
  | other
  deriving DecidableEq, Repr

/-- What hwloc answers about the node. -/
structure Topology where
  /-- `hwloc_bitmap_weight` of the complete set of NUMA nodes. -/
  nodes : Int
  /-- The children of the root. -/
  children : List ObjType
  /-- `hwloc_get_pcidev_by_busid`. -/
  pcidev : PciAttr → Option Place

/-- What hwloc answers about the process, and `rand` after it was seeded with the pid. -/
structure Process where
  /-- `hwloc_get_last_cpu_location`: the place, and the first core of the set. -/
  lastCpu : Option (Place × Int)
  /-- The first core of `hwloc_get_cpubind`. -/
  cpubind : Option Int
  rand : Nat

/-- What everything else answers. -/
structure Replies where
  canonicalize : Bool
  calloc : Bool
  /-- `fi_getinfo`. -/
  getinfo : Option (List Interface)
  malloc : Bool
  file : FileReplies

/-- The token files of a user, by bucket. -/
abbrev Files := Nat → Option (List Bytes.Byte)

/-- `struct bucket`. -/
structure Bucket where
  array : Option Nat
  nics : List CStr
  deriving DecidableEq, Repr

/-! ## Buckets -/

/-- `count_packages`. -/
def countPackages (t : Topology) : Int := t.children.count .package

/-- The number of buckets, if the policy is known. -/
def numBuckets (t : Topology) (bucketPolicy : String) : Option Int :=
  if bucketPolicy = "all" then some 1
  else if bucketPolicy = "numa" then some t.nodes
  else if bucketPolicy = "package" then some (countPackages t)
  else none

/-- The index of the bucket of a place. -/
def bucketIndex (bucketPolicy : String) (nbuckets : Int) (place : Place) : Option Int :=
  if nbuckets = 1 then some 0
  else if bucketPolicy = "numa" then some place.node
  else if bucketPolicy = "package" then place.package
  -- the policy "all" has one bucket
  else some 0

/-- `free` of an array. -/
def freeArray (b : Bucket) (w : Ledger Object) : Ledger Object :=
  match b.array with
  | none => w
  | some a => w.release .block a

/-- `realloc` of the array of a bucket. -/
def reallocArray (b : Bucket) (w : Ledger Object) : Bucket × Ledger Object :=
  let w := freeArray b w
  let (a, w) := w.create .block
  ({ b with array := some a }, w)

/-- `strdup` of a name into a bucket. -/
def addName (b : Bucket) (name : String) (w : Ledger Object) : Bucket × Ledger Object :=
  let (a, w) := w.create .block
  ({ b with nics := b.nics ++ [⟨a, name⟩] }, w)

/-- What the loop over the interfaces leaves. -/
inductive Filled
  | done (buckets : List Bucket) (w : Ledger Object)
  | error (buckets : List Bucket) (w : Ledger Object)
  | crash

/-- The loop over the interfaces. -/
def fill (t : Topology) (bucketPolicy : String) (nbuckets : Int) :
    List Interface → List Bucket → Ledger Object → Filled
  | [], buckets, w => .done buckets w
  | cur :: rest, buckets, w =>
      match cur.pci with
      | none => fill t bucketPolicy nbuckets rest buckets w
      | some pci =>
          match t.pcidev pci with
          | none => .error buckets w
          | some dev =>
              match bucketIndex bucketPolicy nbuckets dev with
              | none => .crash
              | some i =>
                  match if i < 0 || i ≥ nbuckets then none else buckets[i.toNat]? with
                  | none => .error buckets w
                  | some b =>
                      if !cur.realloc then .error buckets w
                      else
                        let (b, w) := reallocArray b w
                        if !cur.strdup then .error (buckets.set i.toNat b) w
                        else
                          let (b, w) := addName b cur.name w
                          fill t bucketPolicy nbuckets rest (buckets.set i.toNat b) w

/-- The loop of `release_buckets`. -/
def freeArrays (buckets : List Bucket) (w : Ledger Object) : Ledger Object :=
  buckets.foldl (fun w b => freeArray b w) w

/-- `release_buckets`. -/
def releaseBuckets (address : Nat) (buckets : List Bucket) (w : Ledger Object) : Ledger Object :=
  (freeArrays buckets w).release .block address

/-- What `setup_buckets` leaves: the array of the buckets, or a negative result. -/
inductive Setup
  | ok (nbuckets : Int) (address : Nat) (buckets : List Bucket) (w : Ledger Object)
  | error (w : Ledger Object)
  | crash

/-- The end of `setup_buckets`, after the loop. -/
def Filled.finish (nbuckets : Int) (address info : Nat) : Filled → Setup
  | .done buckets w => .ok nbuckets address buckets (w.release .info info)
  | .error buckets w => .error (releaseBuckets address buckets (w.release .info info))
  | .crash => .crash

/-- `setup_buckets`. -/
def setupBuckets (t : Topology) (r : Replies) (bucketPolicy : String) (w : Ledger Object) : Setup :=
  match numBuckets t bucketPolicy with
  | none => .error w
  | some nbuckets =>
      -- a negative number of buckets is a size that cannot be allocated
      if nbuckets < 0 || !r.calloc then .error w
      else
        let (address, w) := w.create .block
        let (hints, w) := w.create .info
        let w := w.release .info hints
        match r.getinfo with
        | none => .error (w.release .block address)
        | some interfaces =>
            let (info, w) := w.create .info
            (fill t bucketPolicy nbuckets interfaces
              (List.replicate nbuckets.toNat ⟨none, []⟩) w).finish nbuckets address info

/-! ## Selection -/

/-- The bucket of the process, or an error. -/
def selectBucket (p : Process) (bucketPolicy : String) (nbuckets : Int) :
    Option (Option Int) :=
  if nbuckets = 1 then some (some 0)
  else
    let index : Option (Option Int) :=
      if bucketPolicy = "numa" then some (p.lastCpu.map fun cpu => cpu.1.node)
      else if bucketPolicy = "package" then
        match p.lastCpu with
        | none => some none
        | some cpu => cpu.1.package.map some
      else some none
    index.map fun i => i.filter fun i => !(i < 0 || i ≥ nbuckets)

/-- The card of a bucket: its index or an error, and the token files afterwards. -/
def selectIndex (p : Process) (o : FileReplies) (nicPolicy : String) (bucket : Nat) (numNics : Int)
    (files : Files) : Option Int × Files :=
  if nicPolicy = "roundrobin" then
    let (file, i) := selectNicRoundrobin o numNics (files bucket)
    (i, Function.update files bucket file)
  else if numNics ≤ 0 then (none, files)
  else if nicPolicy = "random" then (some ((p.rand : Int).tmod numNics), files)
  else if nicPolicy = "bycore" then
    (p.lastCpu.bind fun cpu => if cpu.2 < 0 then none else some (cpu.2.tmod numNics), files)
  else if nicPolicy = "byset" then
    (p.cpubind.bind fun first => if first < 0 then none else some (first.tmod numNics), files)
  else (none, files)

/-- `select_nic`: a card or an error, and the token files. -/
def selectNic (p : Process) (o : FileReplies) (bucketPolicy nicPolicy : String) (nbuckets : Int)
    (buckets : List Bucket) (files : Files) : Option (Option CStr × Files) :=
  match selectBucket p bucketPolicy nbuckets with
  | none => none
  | some none => some (none, files)
  | some (some i) =>
      match buckets[i.toNat]? with
      | none => none
      | some b =>
          if b.nics.length = 1 then some (b.nics[0]?, files)
          else
            match selectIndex p o nicPolicy i.toNat b.nics.length files with
            | (none, files) => some (none, files)
            | (some k, files) =>
                if k < 0 then none else b.nics[k.toNat]?.map fun nic => (some nic, files)

/-! ## Resolution -/

/-- `canonicalize_addr_string`. -/
def canonicalizeAddrString (inAddress : String) : String :=
  if strstr "://".toList inAddress.toList then inAddress else inAddress ++ "://"

/-- The address names CXI and no card. -/
def asksForNic (canon : String) : Bool :=
  ("cxi".toList.isPrefixOf canon.toList || "ofi+cxi".toList.isPrefixOf canon.toList) &&
    match canon.toList.reverse with
    | '/' :: '/' :: _ => true
    | _ => false

/-- The result of `mochi_plumber_resolve_nic`, what is stored in `out_address`, and the token
files. -/
structure Resolution where
  ret : Int
  outAddress : Option CStr
  files : Files
  world : Ledger Object

/-- `mochi_plumber_resolve_nic`, unless it crashes. -/
def resolveNic (t : Topology) (p : Process) (r : Replies)
    (inAddress bucketPolicy nicPolicy : String) (files : Files) (w : Ledger Object) :
    Option Resolution :=
  if !r.canonicalize then some ⟨-1, none, files, w⟩
  else
    let canon := canonicalizeAddrString inAddress
    let (address, w) := w.create .block
    if nicPolicy = "passthrough" || bucketPolicy = "passthrough" || !asksForNic canon then
      some ⟨0, some ⟨address, canon⟩, files, w⟩
    else
      let (topology, w) := w.create .topology
      match setupBuckets t r bucketPolicy w with
      | .crash => none
      | .error w => some ⟨0, some ⟨address, canon⟩, files, w.release .topology topology⟩
      | .ok nbuckets array buckets w =>
          if buckets.any fun b => b.nics.isEmpty then
            some ⟨0, some ⟨address, canon⟩, files,
              (releaseBuckets array buckets w).release .topology topology⟩
          else
            match selectNic p r.file bucketPolicy nicPolicy nbuckets buckets files with
            | none => none
            | some (none, files) =>
                some ⟨0, some ⟨address, canon⟩, files,
                  (releaseBuckets array buckets w).release .topology topology⟩
            | some (some nic, files) =>
                if !r.malloc then
                  let w := (releaseBuckets array buckets w).release .topology topology
                  some ⟨-1, none, files, w.release .block address⟩
                else
                  let (out, w) := w.create .block
                  let w := (releaseBuckets array buckets w).release .topology topology
                  some ⟨0, some ⟨out, canon ++ nic.text⟩, files, w.release .block address⟩

end Margo.Plumber
