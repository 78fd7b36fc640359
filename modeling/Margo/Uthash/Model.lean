import Mathlib.Algebra.GroupWithZero.Nat
import Mathlib.Logic.Function.Basic

/-!
# The hash tables of `uthash.h`

The macros with which the default monitor keeps its tables, `HASH_FIND`, `HASH_ADD`,
`HASH_DELETE` and `HASH_ITER`, and the check `HASH_FSCK` of what they leave behind. An
element carries a hash handle, which links it into the list of all elements and into the
chain of its bucket. A chain that grows too long makes the table double its buckets and deal
out all elements anew.

## Implementation notes

The fields of all handles are functions of the element, so that a store is an update of one
of them; an element and its handle are not told apart. A key stands for the bytes that the
length and `memcmp` compare, and the hash function is an argument. The record of the table
is found through the first element. The counters do not wrap around: a table has fewer than
`2 ^ 32` elements, and fewer than `2 ^ 32` buckets, for which 64 GiB would be allocated.
A call that does not return ends the process or is at fault: it follows a null pointer,
reads behind the buckets, or goes around a chain more often than there are elements.
-/

namespace Margo.Uthash

open Function

/-- How the process ends in a macro: `uthash_fatal`, or an access that it must not make. -/
inductive Stop
  | fatal
  | fault
  deriving DecidableEq, Repr

/-- `HASH_INITIAL_NUM_BUCKETS`. -/
def initialNumBuckets : Nat := 32

/-- `HASH_INITIAL_NUM_BUCKETS_LOG2`. -/
def initialNumBucketsLog2 : Nat := 5

/-- `HASH_BKT_CAPACITY_THRESH`. -/
def bktCapacityThresh : Nat := 10

/-- The fields of all `UT_hash_handle`, without `tbl`. -/
structure Handles (α κ : Type) where
  prev : α → Option α
  next : α → Option α
  hhPrev : α → Option α
  hhNext : α → Option α
  key : α → κ
  hashv : α → BitVec 32

/-- `UT_hash_bucket`. -/
structure Bucket (α : Type) where
  hhHead : Option α
  count : Nat
  expandMult : Nat

/-- `UT_hash_table`. -/
structure Table (α : Type) where
  buckets : List (Bucket α)
  numBuckets : Nat
  log2NumBuckets : Nat
  numItems : Nat
  tail : α
  idealChainMaxlen : Nat
  nonidealItems : Nat
  ineffExpands : Nat
  noexpand : Bool

/-- The handles, the pointer to the first element with the table that its handle points to,
and how many blocks were allocated and freed for the table. -/
structure Hash (α κ : Type) where
  handles : Handles α κ
  head : Option (α × Table α)
  malloced : Nat
  freed : Nat

section

variable {α κ : Type}

/-- A bucket of zeros. -/
def emptyBucket : Bucket α := ⟨none, 0, 0⟩

/-- `HASH_TO_BKT`. -/
def hashToBkt (hashv : BitVec 32) (numBkts : Nat) : Nat := hashv.toNat &&& (numBkts - 1)

/-- `buckets[bkt]`. -/
def bucketAt (buckets : List (Bucket α)) (bkt : Nat) : Except Stop (Bucket α) :=
  match buckets[bkt]? with
  | none => .error .fault
  | some bucket => .ok bucket

end

variable {α κ : Type} [DecidableEq α] [DecidableEq κ]

omit [DecidableEq α] in
/-- `HASH_FIND_IN_BKT`. -/
def findInBkt (hs : Handles α κ) (keyptr : κ) (hashval : BitVec 32) :
    Nat → Option α → Except Stop (Option α)
  | _, none => .ok none
  | 0, some _ => .error .fault
  | fuel + 1, some out =>
      if hs.hashv out = hashval ∧ hs.key out = keyptr then .ok (some out)
      else findInBkt hs keyptr hashval fuel (hs.hhNext out)

omit [DecidableEq α] in
/-- `HASH_FIND`. -/
def hashFind (hash : κ → BitVec 32) (s : Hash α κ) (keyptr : κ) : Except Stop (Option α) :=
  match s.head with
  | none => .ok none
  | some (_, tbl) => do
      let hashval := hash keyptr
      let bucket ← bucketAt tbl.buckets (hashToBkt hashval tbl.numBuckets)
      findInBkt s.handles keyptr hashval tbl.numItems bucket.hhHead

/-! ## Adding an element -/

omit [DecidableEq κ] in
/-- Link an element in before the first one of a chain. -/
def linkFirst (hs : Handles α κ) (hhHead : Option α) (x : α) : Handles α κ :=
  let hs := { hs with hhNext := update hs.hhNext x hhHead, hhPrev := update hs.hhPrev x none }
  match hhHead with
  | none => hs
  | some first => { hs with hhPrev := update hs.hhPrev first (some x) }

/-- What `HASH_EXPAND_BUCKETS` changes as it goes over the elements. -/
structure Expansion (α κ : Type) where
  handles : Handles α κ
  newBuckets : List (Bucket α)
  nonidealItems : Nat

omit [DecidableEq κ] in
/-- One element is moved into its new bucket. -/
def moveItem (newNumBuckets idealChainMaxlen : Nat) (e : Expansion α κ) (thh : α) :
    Except Stop (Expansion α κ) := do
  let bkt := hashToBkt (e.handles.hashv thh) newNumBuckets
  let newbkt ← bucketAt e.newBuckets bkt
  let newbkt := { newbkt with count := newbkt.count + 1 }
  let (newbkt, nonidealItems) :=
    if newbkt.count > idealChainMaxlen then
      if newbkt.count > newbkt.expandMult * idealChainMaxlen then
        ({ newbkt with expandMult := newbkt.expandMult + 1 }, e.nonidealItems + 1)
      else (newbkt, e.nonidealItems + 1)
    else (newbkt, e.nonidealItems)
  return {
    handles := linkFirst e.handles newbkt.hhHead thh
    newBuckets := e.newBuckets.set bkt { newbkt with hhHead := some thh }
    nonidealItems := nonidealItems }

omit [DecidableEq κ] in
/-- The inner loop of `HASH_EXPAND_BUCKETS`, over the chain of an old bucket. -/
def moveChain (newNumBuckets idealChainMaxlen : Nat) :
    Nat → Expansion α κ → Option α → Except Stop (Expansion α κ)
  | _, e, none => .ok e
  | 0, _, some _ => .error .fault
  | fuel + 1, e, some thh => do
      let nxt := e.handles.hhNext thh
      let e ← moveItem newNumBuckets idealChainMaxlen e thh
      moveChain newNumBuckets idealChainMaxlen fuel e nxt

omit [DecidableEq κ] in
/-- `HASH_EXPAND_BUCKETS`; `alloc` tells whether the new buckets are allocated. -/
def expandBuckets (alloc : Bool) (hs : Handles α κ) (tbl : Table α) :
    Except Stop (Handles α κ × Table α) :=
  if !alloc then .error .fatal
  else do
    let idealChainMaxlen := (tbl.numItems >>> (tbl.log2NumBuckets + 1)) +
      if tbl.numItems &&& (tbl.numBuckets * 2 - 1) ≠ 0 then 1 else 0
    let e ← (List.range tbl.numBuckets).foldlM (fun e bktI => do
      let bucket ← bucketAt tbl.buckets bktI
      moveChain (tbl.numBuckets * 2) idealChainMaxlen tbl.numItems e bucket.hhHead)
      ⟨hs, List.replicate (tbl.numBuckets * 2) emptyBucket, 0⟩
    let ineffExpands :=
      if e.nonidealItems > tbl.numItems >>> 1 then tbl.ineffExpands + 1 else 0
    return (e.handles, { tbl with
      buckets := e.newBuckets
      numBuckets := tbl.numBuckets * 2
      log2NumBuckets := tbl.log2NumBuckets + 1
      idealChainMaxlen := idealChainMaxlen
      nonidealItems := e.nonidealItems
      ineffExpands := ineffExpands
      noexpand := tbl.noexpand || decide (ineffExpands > 1) })

omit [DecidableEq κ] in
/-- `HASH_ADD_TO_BKT`, with the number of arrays of buckets that it allocates, and frees. -/
def addToBkt (alloc : Bool) (hs : Handles α κ) (tbl : Table α) (bkt : Nat) (addhh : α) :
    Except Stop (Handles α κ × Table α × Nat) := do
  let bucket ← bucketAt tbl.buckets bkt
  let hs := linkFirst hs bucket.hhHead addhh
  let bucket := { bucket with count := bucket.count + 1, hhHead := some addhh }
  let tbl := { tbl with buckets := tbl.buckets.set bkt bucket }
  if bucket.count ≥ (bucket.expandMult + 1) * bktCapacityThresh ∧ !tbl.noexpand then
    let (hs, tbl) ← expandBuckets alloc hs tbl
    return (hs, tbl, 1)
  else return (hs, tbl, 0)

omit [DecidableEq κ] in
/-- `HASH_ADD_TO_TABLE`. -/
def addToTable (alloc : Bool) (s : Hash α κ) (head : α) (tbl : Table α) (add : α) :
    Except Stop (Hash α κ) := do
  let tbl := { tbl with numItems := tbl.numItems + 1 }
  let bkt := hashToBkt (s.handles.hashv add) tbl.numBuckets
  let (hs, tbl, expands) ← addToBkt alloc s.handles tbl bkt add
  return {
    handles := hs
    head := some (head, tbl)
    malloced := s.malloced + expands
    freed := s.freed + expands }

omit [DecidableEq α] [DecidableEq κ] in
/-- The table that `HASH_MAKE_TABLE` makes. -/
def newTable (add : α) : Table α where
  buckets := List.replicate initialNumBuckets emptyBucket
  numBuckets := initialNumBuckets
  log2NumBuckets := initialNumBucketsLog2
  numItems := 0
  tail := add
  idealChainMaxlen := 0
  nonidealItems := 0
  ineffExpands := 0
  noexpand := false

omit [DecidableEq κ] in
/-- `HASH_ADD`, for an element with the given key; `alloc` tells whether what it allocates is
there. -/
def hashAdd (hash : κ → BitVec 32) (alloc : Bool) (s : Hash α κ) (add : α) (key : κ) :
    Except Stop (Hash α κ) :=
  let hs := { s.handles with
    hashv := update s.handles.hashv add (hash key)
    key := update s.handles.key add key }
  match s.head with
  | none =>
      let hs := { hs with next := update hs.next add none, prev := update hs.prev add none }
      if !alloc then .error .fatal
      else addToTable alloc { s with handles := hs, malloced := s.malloced + 2 } add
        (newTable add) add
  | some (head, tbl) =>
      let hs := { hs with
        next := update (update hs.next add none) tbl.tail (some add)
        prev := update hs.prev add (some tbl.tail) }
      addToTable alloc { s with handles := hs } head { tbl with tail := add } add

/-! ## Deleting an element -/

omit [DecidableEq κ] in
/-- `if (p) p->next = v`. -/
def setNext (hs : Handles α κ) (p v : Option α) : Handles α κ :=
  match p with
  | none => hs
  | some a => { hs with next := update hs.next a v }

omit [DecidableEq κ] in
/-- `if (p) p->prev = v`. -/
def setPrev (hs : Handles α κ) (p v : Option α) : Handles α κ :=
  match p with
  | none => hs
  | some a => { hs with prev := update hs.prev a v }

omit [DecidableEq κ] in
/-- `HASH_DEL_IN_BKT`: the handles and the bucket. -/
def delInBkt (hs : Handles α κ) (bucket : Bucket α) (delhh : α) : Handles α κ × Bucket α :=
  let bucket := { bucket with
    count := bucket.count - 1
    hhHead := if bucket.hhHead = some delhh then hs.hhNext delhh else bucket.hhHead }
  let hs := match hs.hhPrev delhh with
    | none => hs
    | some p => { hs with hhNext := update hs.hhNext p (hs.hhNext delhh) }
  let hs := match hs.hhNext delhh with
    | none => hs
    | some n => { hs with hhPrev := update hs.hhPrev n (hs.hhPrev delhh) }
  (hs, bucket)

omit [DecidableEq κ] in
/-- The tail after a deletion. -/
def tailWithout (hs : Handles α κ) (tbl : Table α) (del : α) : Except Stop α :=
  if del = tbl.tail then
    match hs.prev del with
    | none => .error .fault
    | some p => .ok p
  else .ok tbl.tail

omit [DecidableEq α] [DecidableEq κ] in
/-- The first element after a deletion. -/
def headWithout (hs : Handles α κ) (head del : α) : Except Stop α :=
  match hs.prev del with
  | some _ => .ok head
  | none =>
      match hs.next del with
      | none => .error .fault
      | some n => .ok n

omit [DecidableEq κ] in
/-- The neighbours of the deleted element are linked to each other. -/
def unlink (hs : Handles α κ) (del : α) : Handles α κ :=
  setPrev (setNext hs (hs.prev del) (hs.next del)) (hs.next del) (hs.prev del)

omit [DecidableEq κ] in
/-- `HASH_DELETE`. -/
def hashDelete (s : Hash α κ) (del : α) : Except Stop (Hash α κ) :=
  match s.head with
  | none => .error .fault
  | some (head, tbl) =>
      if s.handles.prev del = none ∧ s.handles.next del = none then
        .ok { s with head := none, freed := s.freed + 2 }
      else do
        let tail ← tailWithout s.handles tbl del
        let head ← headWithout s.handles head del
        let hs := unlink s.handles del
        let bkt := hashToBkt (hs.hashv del) tbl.numBuckets
        let bucket ← bucketAt tbl.buckets bkt
        return { s with
          handles := (delInBkt hs bucket del).1
          head := some (head, { tbl with
            tail := tail
            buckets := tbl.buckets.set bkt (delInBkt hs bucket del).2
            numItems := tbl.numItems - 1 }) }

/-! ## Going over all elements -/

omit [DecidableEq α] [DecidableEq κ] in
/-- `HASH_ITER`: the element after the next one is looked up after the body has been run. -/
def iterLoop {σ : Type} (hash : σ → Hash α κ) (body : σ → α → Except Stop σ) :
    Nat → σ → Option α → Option α → Except Stop σ
  | _, t, none, _ => .ok t
  | 0, _, some _, _ => .error .fault
  | fuel + 1, t, some el, tmp => do
      let t ← body t el
      iterLoop hash body fuel t tmp (tmp.bind (hash t).handles.next)

omit [DecidableEq α] [DecidableEq κ] in
/-- `HASH_ITER`, from the first element on. -/
def hashIter {σ : Type} (hash : σ → Hash α κ) (body : σ → α → Except Stop σ) (t : σ) :
    Except Stop σ :=
  match (hash t).head with
  | none => .ok t
  | some (head, tbl) =>
      iterLoop hash body tbl.numItems t (some head) ((hash t).handles.next head)

omit [DecidableEq α] [DecidableEq κ] in
/-- The elements in the order in which a loop that changes nothing meets them. -/
def elements (s : Hash α κ) : Except Stop (List α) :=
  (hashIter Prod.fst (fun t el => .ok (t.1, t.2 ++ [el])) (s, [])).map Prod.snd

/-! ## The check of a table -/

omit [DecidableEq κ] in
/-- The loops of `HASH_FSCK`: the number of nodes, unless one does not point back to the one
before it. -/
def fsckWalk (prev next : α → Option α) : Nat → Option α → Option α → Option Nat
  | _, _, none => some 0
  | 0, _, some _ => none
  | fuel + 1, before, some thh =>
      if prev thh ≠ before then none
      else (fsckWalk prev next fuel (some thh) (next thh)).map (· + 1)

omit [DecidableEq κ] in
/-- The check of a bucket: the length of its chain. -/
def fsckBucket (hs : Handles α κ) (tbl : Table α) (bktI : Nat) : Option Nat := do
  let bucket ← tbl.buckets[bktI]?
  let bktCount ← fsckWalk hs.hhPrev hs.hhNext tbl.numItems none bucket.hhHead
  if bucket.count ≠ bktCount then none else some bktCount

omit [DecidableEq κ] in
/-- `HASH_FSCK`: whether it finds nothing. -/
def hashFsck (s : Hash α κ) : Bool :=
  match s.head with
  | none => true
  | some (head, tbl) =>
      match (List.range tbl.numBuckets).mapM (fsckBucket s.handles tbl) with
      | none => false
      | some counts =>
          counts.sum = tbl.numItems &&
            fsckWalk s.handles.prev s.handles.next tbl.numItems none (some head)
              = some tbl.numItems

end Margo.Uthash
