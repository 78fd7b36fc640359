import Margo.Lib.Rows
import Margo.Uthash.Model
import Mathlib.Data.List.Perm.Subperm

/-!
# A hash table holds what was added to it

The list of all elements is a row of doubly linked nodes, and so is the chain of every
bucket; a chain consists of the elements whose hash leads to its bucket. Adding, deleting
and doubling the buckets keep this, whatever the hash function is.
-/

namespace Margo.Uthash

open Function Lib.Rows Lib.Paths

/-! ## Buckets and their chains -/

section

variable {α κ : Type} {hs hs' : Handles α κ} {buckets : List (Bucket α)} {order us : List α}
  {bucket bucket' : Bucket α} {rows : Nat → List α} {x : α} {n i : Nat}

/-- The bucket of an element. -/
def slot (hs : Handles α κ) (n : Nat) (x : α) : Nat := hashToBkt (hs.hashv x) n

theorem hashToBkt_lt (hashv : BitVec 32) (hn : 0 < n) : hashToBkt hashv n < n := by
  have hle : hashToBkt hashv n ≤ n - 1 := Nat.and_le_right
  omega

theorem bucketAt_eq_ok (h : buckets[i]? = some bucket) : bucketAt buckets i = .ok bucket := by
  rw [bucketAt, h]

/-- The links of the chains, and their first elements. -/
def rowMemory (hs : Handles α κ) (buckets : List (Bucket α)) : Memory α where
  next := hs.hhNext
  prev := hs.hhPrev
  head i := buckets[i]?.bind Bucket.hhHead

theorem rowMemory_head (hs : Handles α κ) (hb : buckets[i]? = some bucket) :
    (rowMemory hs buckets).head i = bucket.hhHead := by
  show buckets[i]?.bind Bucket.hhHead = bucket.hhHead
  rw [hb, Option.bind_some]

/-- The chains of the buckets: each element of the table is in the chain of its bucket. -/
structure Chained (hs : Handles α κ) (buckets : List (Bucket α)) (n : Nat) (order : List α)
    (rows : Nat → List α) : Prop where
  holds : Holds (rowMemory hs buckets) (slot hs n) rows
  count : ∀ i bucket, buckets[i]? = some bucket → bucket.count = (rows i).length
  mem : ∀ x, x ∈ rows (slot hs n x) ↔ x ∈ order

theorem Chained.of_mem (h : Chained hs buckets n order rows) (hx : x ∈ rows i) :
    x ∈ order ∧ slot hs n x = i := by
  have hslot := h.holds.slot i x hx
  exact ⟨(h.mem x).mp (hslot ▸ hx), hslot⟩

theorem Chained.row (h : Chained hs buckets n order rows) (i : Nat) :
    Row hs.hhNext hs.hhPrev (rows i) :=
  h.holds.row i

theorem Chained.path (h : Chained hs buckets n order rows) (hb : buckets[i]? = some bucket) :
    Path hs.hhNext bucket.hhHead (rows i) := by
  have hpath := (h.row i).path
  rwa [← h.holds.head, rowMemory_head hs hb] at hpath

theorem Chained.length_le (h : Chained hs buckets n order rows) : (rows i).length ≤ order.length :=
  ((h.row i).1.subperm fun _ hx => (h.of_mem hx).1).length_le

theorem chained_empty (hs : Handles α κ) (k n : Nat) :
    Chained hs (List.replicate k emptyBucket) n [] fun _ => [] where
  holds := by
    have hhead : rowMemory hs (List.replicate k emptyBucket) =
        ⟨hs.hhNext, hs.hhPrev, fun _ => none⟩ := by
      rw [rowMemory, Memory.mk.injEq]
      refine ⟨rfl, rfl, funext fun i => ?_⟩
      rw [List.getElem?_replicate]
      split <;> rfl
    rw [hhead]
    exact holds_empty _ _ _
  count i bucket hb := by
    rw [List.getElem?_replicate] at hb
    split at hb
    · rw [← Option.some.inj hb]
      rfl
    · cases hb
  mem _ := Iff.rfl

variable [DecidableEq α]

@[simp] theorem linkFirst_prev (p : Option α) : (linkFirst hs p x).prev = hs.prev := by
  cases p <;> rfl

@[simp] theorem linkFirst_next (p : Option α) : (linkFirst hs p x).next = hs.next := by
  cases p <;> rfl

@[simp] theorem linkFirst_key (p : Option α) : (linkFirst hs p x).key = hs.key := by
  cases p <;> rfl

@[simp] theorem linkFirst_hashv (p : Option α) : (linkFirst hs p x).hashv = hs.hashv := by
  cases p <;> rfl

@[simp] theorem linkFirst_hhNext (p : Option α) :
    (linkFirst hs p x).hhNext = update hs.hhNext x p := by
  cases p <;> rfl

@[simp] theorem linkFirst_hhPrev (p : Option α) :
    (linkFirst hs p x).hhPrev = store (update hs.hhPrev x none) p (some x) := by
  cases p <;> rfl

omit [DecidableEq α] in
/-- The heads of the chains when one bucket is stored. -/
theorem head_set (hb : buckets[i]? = some bucket) :
    (fun j => (buckets.set i bucket')[j]?.bind Bucket.hhHead) =
      update (fun j => buckets[j]?.bind Bucket.hhHead) i bucket'.hhHead := by
  have hlt : i < buckets.length := (List.getElem?_eq_some_iff.mp hb).1
  funext j
  by_cases hj : j = i
  · subst hj
    rw [update_self, List.getElem?_set_self hlt, Option.bind_some]
  · rw [update_of_ne hj, List.getElem?_set_ne (Ne.symm hj)]

theorem rowMemory_push (hb : buckets[i]? = some bucket) (hhead : bucket'.hhHead = some x) :
    rowMemory (linkFirst hs bucket.hhHead x) (buckets.set i bucket') =
      (rowMemory hs buckets).push i x := by
  rw [Memory.push, rowMemory_head hs hb, rowMemory, linkFirst_hhNext, linkFirst_hhPrev, head_set hb,
    hhead]
  rfl

/-- An element is put into its bucket. -/
theorem Chained.push (h : Chained hs buckets n order rows) (bucket' : Bucket α) (hx : x ∉ order)
    (hb : buckets[slot hs n x]? = some bucket) (hhead : bucket'.hhHead = some x)
    (hcount : bucket'.count = bucket.count + 1) :
    Chained (linkFirst hs bucket.hhHead x) (buckets.set (slot hs n x) bucket') n (order ++ [x])
      (update rows (slot hs n x) (x :: rows (slot hs n x))) := by
  have hslot : slot (linkFirst hs bucket.hhHead x) n = slot hs n := by
    funext y
    rw [slot, linkFirst_hashv, slot]
  constructor
  · rw [hslot, rowMemory_push hb hhead]
    exact h.holds.push fun hmem => hx ((h.mem x).mp hmem)
  · intro i b hset
    by_cases hi : slot hs n x = i
    · subst hi
      rw [List.getElem?_set_self (List.getElem?_eq_some_iff.mp hb).1] at hset
      rw [← Option.some.inj hset, hcount, h.count _ _ hb, update_self, List.length_cons]
    · rw [List.getElem?_set_ne hi] at hset
      rw [update_of_ne (Ne.symm hi), h.count _ _ hset]
  · intro y
    rw [hslot, List.mem_append, List.mem_singleton]
    by_cases hy : slot hs n y = slot hs n x
    · rw [hy, update_self, List.mem_cons, ← h.mem y, hy, or_comm]
    · have hne : y ≠ x := fun heq => hy (congrArg _ heq)
      rw [update_of_ne hy, h.mem y]
      exact ⟨Or.inl, fun hor => hor.resolve_right hne⟩

theorem delInBkt_eq (hp : hs.hhPrev x ≠ some x) :
    delInBkt hs bucket x =
      ({ hs with
          hhNext := store hs.hhNext (hs.hhPrev x) (hs.hhNext x)
          hhPrev := store hs.hhPrev (hs.hhNext x) (hs.hhPrev x) },
        { bucket with
          count := bucket.count - 1
          hhHead := if bucket.hhHead = some x then hs.hhNext x else bucket.hhHead }) := by
  rw [delInBkt]
  cases hprev : hs.hhPrev x with
  | none =>
      simp only [store_none, Prod.mk.injEq, and_true]
      cases hnext : hs.hhNext x with
      | none => rw [store_none]
      | some q => rw [store_some, hprev]
  | some p =>
      have hne : x ≠ p := fun heq => hp (heq ▸ hprev)
      simp only [store_some, update_of_ne hne, Prod.mk.injEq, and_true]
      cases hnext : hs.hhNext x with
      | none => rw [store_none]
      | some q => rw [store_some, hprev]

/-- An element is taken out of its bucket. -/
theorem Chained.remove (h : Chained hs buckets n order rows) (hx : x ∈ order)
    (hnodup : order.Nodup) (hb : buckets[slot hs n x]? = some bucket) :
    Chained (delInBkt hs bucket x).1
      (buckets.set (slot hs n x) (delInBkt hs bucket x).2) n (order.erase x)
      (update rows (slot hs n x) ((rows (slot hs n x)).erase x)) := by
  obtain ⟨xs, ys, hrow⟩ := List.append_of_mem ((h.mem x).mpr hx)
  have hnodupRow := (h.holds.row (slot hs n x)).1
  have hnot : x ∉ xs := by
    rw [hrow] at hnodupRow
    exact fun hmem => (List.nodup_append.mp hnodupRow).2.2 x hmem x List.mem_cons_self rfl
  have hprev : hs.hhPrev x = xs.getLast? := (hrow ▸ h.holds.row (slot hs n x)).links.1
  have hself : hs.hhPrev x ≠ some x := fun heq =>
    hnot (List.mem_of_getLast? (hprev.symm.trans heq))
  have herase : (rows (slot hs n x)).erase x = xs ++ ys := by
    rw [hrow, List.erase_append_right _ hnot, List.erase_cons_head]
  have hhead := rowMemory_head hs hb
  have hmemory : rowMemory (delInBkt hs bucket x).1
      (buckets.set (slot hs n x) (delInBkt hs bucket x).2) =
        (rowMemory hs buckets).remove (slot hs n x) x := by
    rw [delInBkt_eq hself, rowMemory, Memory.remove, hhead, head_set hb]
    congr 1
    dsimp only
    split
    · rfl
    · exact update_eq_self_iff.mpr hhead.symm
  have hslot : slot (delInBkt hs bucket x).1 n = slot hs n := by
    rw [delInBkt_eq hself]
    rfl
  constructor
  · rw [hslot, hmemory, herase]
    exact h.holds.remove hrow
  · intro i b hset
    by_cases hi : slot hs n x = i
    · subst hi
      rw [List.getElem?_set_self (List.getElem?_eq_some_iff.mp hb).1] at hset
      rw [← Option.some.inj hset, delInBkt_eq hself, update_self,
        List.length_erase_of_mem ((h.mem x).mpr hx), ← h.count _ _ hb]
    · rw [List.getElem?_set_ne hi] at hset
      rw [update_of_ne (Ne.symm hi), h.count _ _ hset]
  · intro y
    rw [hslot, hnodup.mem_erase_iff]
    by_cases hy : slot hs n y = slot hs n x
    · rw [hy, update_self, hnodupRow.mem_erase_iff, ← hy, h.mem y]
    · have hne : y ≠ x := fun heq => hy (congrArg _ heq)
      rw [update_of_ne hy, h.mem y]
      exact ⟨fun hmem => ⟨hne, hmem⟩, And.right⟩

end

/-! ## Doubling the buckets -/

section

variable {α κ : Type} [DecidableEq α] {hs hs' : Handles α κ} {tbl tbl' : Table α}
  {e : Expansion α κ} {order placed us : List α} {rows : Nat → List α} {start : Option α}
  {x : α} {n ideal fuel : Nat}

omit [DecidableEq α] in
/-- The elements met so far are in the new buckets, the other ones are linked as before. -/
structure Moved (hs : Handles α κ) (n : Nat) (placed : List α) (e : Expansion α κ) : Prop where
  prev : e.handles.prev = hs.prev
  next : e.handles.next = hs.next
  key : e.handles.key = hs.key
  hashv : e.handles.hashv = hs.hashv
  hhNext : ∀ y ∉ placed, e.handles.hhNext y = hs.hhNext y
  length : e.newBuckets.length = n
  chained : ∃ rows, Chained e.handles e.newBuckets n placed rows

omit [DecidableEq α] in
theorem Moved.slot (h : Moved hs n placed e) : slot e.handles n = slot hs n := by
  funext y
  rw [Uthash.slot, h.hashv, Uthash.slot]

/-- Whatever is counted as not ideal, the element is put into its new bucket. -/
theorem moveItem_eq {bucket : Bucket α} (ideal : Nat)
    (hb : e.newBuckets[slot e.handles n x]? = some bucket) :
    ∃ bucket' nonideal, bucket'.hhHead = some x ∧ bucket'.count = bucket.count + 1 ∧
      moveItem n ideal e x = .ok ⟨linkFirst e.handles bucket.hhHead x,
        e.newBuckets.set (slot e.handles n x) bucket', nonideal⟩ := by
  have hat : bucketAt e.newBuckets (hashToBkt (e.handles.hashv x) n) = .ok bucket :=
    bucketAt_eq_ok hb
  rw [moveItem, hat]
  by_cases hideal : bucket.count + 1 > ideal
  · by_cases hmult : bucket.count + 1 > bucket.expandMult * ideal
    · refine ⟨⟨some x, bucket.count + 1, bucket.expandMult + 1⟩, e.nonidealItems + 1, rfl, rfl, ?_⟩
      simp only [bind, Except.bind, hideal, hmult, if_true]
      rfl
    · refine ⟨⟨some x, bucket.count + 1, bucket.expandMult⟩, e.nonidealItems + 1, rfl, rfl, ?_⟩
      simp only [bind, Except.bind, hideal, hmult, if_true, if_false]
      rfl
  · refine ⟨⟨some x, bucket.count + 1, bucket.expandMult⟩, e.nonidealItems, rfl, rfl, ?_⟩
    simp only [bind, Except.bind, hideal, if_false]
    rfl

theorem Moved.item (h : Moved hs n placed e) (ideal : Nat) (hn : 0 < n) (hx : x ∉ placed) :
    ∃ e', moveItem n ideal e x = .ok e' ∧ Moved hs n (placed ++ [x]) e' := by
  obtain ⟨rows, hrows⟩ := h.chained
  have hlt : Uthash.slot e.handles n x < e.newBuckets.length := by
    rw [h.length]
    exact hashToBkt_lt _ hn
  have hb := List.getElem?_eq_getElem hlt
  obtain ⟨bucket', nonideal, hhead, hcount, heq⟩ := moveItem_eq ideal hb
  refine ⟨_, heq, ?_, ?_, ?_, ?_, ?_, ?_, _, hrows.push bucket' hx hb hhead hcount⟩
  · rw [linkFirst_prev, h.prev]
  · rw [linkFirst_next, h.next]
  · rw [linkFirst_key, h.key]
  · rw [linkFirst_hashv, h.hashv]
  · intro y hy
    have hout : y ∉ placed := fun hmem => hy (List.mem_append_left _ hmem)
    have hne : y ≠ x := fun heq => hy (heq ▸ List.mem_append_right _ (List.mem_singleton_self y))
    rw [linkFirst_hhNext, update_of_ne hne, h.hhNext y hout]
  · rw [List.length_set, h.length]

theorem Moved.chain (h : Moved hs n placed e) (ideal : Nat) (hn : 0 < n)
    (hpath : Path hs.hhNext start us)
    (hnodup : us.Nodup) (hdisj : us.Disjoint placed) (hfuel : us.length ≤ fuel) :
    ∃ e', moveChain n ideal fuel e start = .ok e' ∧ Moved hs n (placed ++ us) e' := by
  induction us generalizing fuel e placed start with
  | nil =>
      obtain rfl := path_nil.mp hpath
      refine ⟨e, ?_, ?_⟩
      · cases fuel <;> rfl
      · rwa [List.append_nil]
  | cons a us ih =>
      obtain ⟨rfl, hrest⟩ := path_cons.mp hpath
      obtain ⟨hnot, hnodup'⟩ := List.nodup_cons.mp hnodup
      have ha : a ∉ placed := hdisj List.mem_cons_self
      cases fuel with
      | zero => cases hfuel
      | succ fuel =>
          obtain ⟨e₁, hitem, h₁⟩ := h.item ideal hn ha
          have hdisj' : us.Disjoint (placed ++ [a]) := by
            intro y hy hmem
            rcases List.mem_append.mp hmem with hold | hone
            · exact hdisj (List.mem_cons_of_mem a hy) hold
            · exact hnot (List.mem_singleton.mp hone ▸ hy)
          obtain ⟨e₂, hloop, h₂⟩ := ih h₁ hrest hnodup' hdisj' (Nat.le_of_succ_le_succ hfuel)
          refine ⟨e₂, ?_, ?_⟩
          · rw [moveChain, hitem, h.hhNext a ha]
            exact hloop
          · rwa [List.append_assoc, List.singleton_append] at h₂

/-- The chains of the first buckets, one behind the other. -/
def firstRows (rows : Nat → List α) (k : Nat) : List α := (List.range k).flatMap rows

omit [DecidableEq α] in
theorem firstRows_succ (rows : Nat → List α) (k : Nat) :
    firstRows rows (k + 1) = firstRows rows k ++ rows k := by
  rw [firstRows, firstRows, List.range_succ, List.flatMap_append, List.flatMap_singleton]

omit [DecidableEq α] in
theorem Chained.mem_firstRows (h : Chained hs tbl.buckets n order rows) {k : Nat} :
    x ∈ firstRows rows k ↔ x ∈ order ∧ Uthash.slot hs n x < k := by
  rw [firstRows, List.mem_flatMap]
  constructor
  · rintro ⟨i, hi, hx⟩
    obtain ⟨hmem, hslot⟩ := h.of_mem hx
    exact ⟨hmem, hslot ▸ List.mem_range.mp hi⟩
  · rintro ⟨hmem, hlt⟩
    exact ⟨_, List.mem_range.mpr hlt, (h.mem x).mpr hmem⟩

/-- The outer loop of `HASH_EXPAND_BUCKETS`. -/
theorem Chained.moveAll (h : Chained hs tbl.buckets tbl.numBuckets order rows) (ideal : Nat)
    (hn : 0 < n)
    (hitems : tbl.numItems = order.length) (hbuckets : tbl.buckets.length = tbl.numBuckets)
    {k : Nat} (hk : k ≤ tbl.numBuckets) :
    ∃ e, (List.range k).foldlM (fun e bktI => do
        let bucket ← bucketAt tbl.buckets bktI
        moveChain n ideal tbl.numItems e bucket.hhHead)
        (⟨hs, List.replicate n emptyBucket, 0⟩ : Expansion α κ) = .ok e ∧
      Moved hs n (firstRows rows k) e := by
  induction k with
  | zero =>
      refine ⟨_, rfl, ⟨rfl, rfl, rfl, rfl, fun _ _ => rfl, List.length_replicate,
        fun _ => [], ?_⟩⟩
      exact chained_empty hs n n
  | succ k ih =>
      obtain ⟨e, hloop, hmoved⟩ := ih (Nat.le_of_succ_le hk)
      have hlt : k < tbl.buckets.length := hbuckets ▸ hk
      have hb := List.getElem?_eq_getElem hlt
      have hdisj : (rows k).Disjoint (firstRows rows k) := by
        intro y hy hmem
        have hbelow := (h.mem_firstRows.mp hmem).2
        rw [(h.of_mem hy).2] at hbelow
        exact Nat.lt_irrefl k hbelow
      obtain ⟨e', hchain, hmoved'⟩ := hmoved.chain ideal hn (h.path hb)
        (h.holds.row k).1 hdisj (hitems ▸ h.length_le)
      refine ⟨e', ?_, ?_⟩
      · rw [List.range_succ, List.foldlM_append, hloop]
        simp only [bind, Except.bind, List.foldlM_cons, List.foldlM_nil, bucketAt_eq_ok hb, hchain]
        rfl
      · rwa [firstRows_succ]

omit [DecidableEq α] in
/-- The list of the elements does not matter, as long as they are the same ones. -/
theorem Chained.of_mem_iff {buckets : List (Bucket α)} {order' : List α}
    (h : Chained hs buckets n order rows) (hmem : ∀ x, x ∈ order ↔ x ∈ order') :
    Chained hs buckets n order' rows :=
  ⟨h.holds, h.count, fun x => (h.mem x).trans (hmem x)⟩

/-- What doubling the buckets leaves as it is, and that the chains are right afterwards. -/
structure Expanded (hs : Handles α κ) (tbl : Table α) (order : List α) (hs' : Handles α κ)
    (tbl' : Table α) : Prop where
  prev : hs'.prev = hs.prev
  next : hs'.next = hs.next
  key : hs'.key = hs.key
  hashv : hs'.hashv = hs.hashv
  tail : tbl'.tail = tbl.tail
  numItems : tbl'.numItems = tbl.numItems
  numBuckets : tbl'.numBuckets = tbl.numBuckets * 2
  log2NumBuckets : tbl'.log2NumBuckets = tbl.log2NumBuckets + 1
  length : tbl'.buckets.length = tbl'.numBuckets
  chained : ∃ rows, Chained hs' tbl'.buckets tbl'.numBuckets order rows

/-- Doubling the buckets keeps every element, whatever the hash function makes of it. -/
theorem Chained.expandBuckets (h : Chained hs tbl.buckets tbl.numBuckets order rows)
    (hn : 0 < tbl.numBuckets) (hitems : tbl.numItems = order.length)
    (hbuckets : tbl.buckets.length = tbl.numBuckets) :
    ∃ hs' tbl', expandBuckets true hs tbl = .ok (hs', tbl') ∧ Expanded hs tbl order hs' tbl' := by
  obtain ⟨e, hloop, hmoved⟩ := h.moveAll
    ((tbl.numItems >>> (tbl.log2NumBuckets + 1)) +
      if tbl.numItems &&& (tbl.numBuckets * 2 - 1) ≠ 0 then 1 else 0)
    (Nat.mul_pos hn Nat.two_pos) hitems hbuckets
    (Nat.le_refl _)
  obtain ⟨rows', hrows'⟩ := hmoved.chained
  have hall : ∀ y, y ∈ firstRows rows tbl.numBuckets ↔ y ∈ order := by
    intro y
    rw [h.mem_firstRows]
    exact and_iff_left (hashToBkt_lt _ hn)
  have hmove : Uthash.expandBuckets true hs tbl = _ :=
    (if_neg Bool.false_ne_true).trans (congrArg (· >>= _) hloop)
  refine ⟨_, _, hmove, ?_⟩
  exact ⟨hmoved.prev, hmoved.next, hmoved.key, hmoved.hashv, rfl, rfl, rfl, rfl, hmoved.length,
    rows', hrows'.of_mem_iff hall⟩

end

end Margo.Uthash
