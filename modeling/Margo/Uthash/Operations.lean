import Margo.Uthash.Table

/-!
# The operations on a hash table

Each macro is specified by the list of the elements in the order in which they were added:
`HASH_ADD` puts one behind the last, `HASH_DELETE` takes one out, `HASH_FIND` finds an
element with the key if there is one, `HASH_ITER` meets the elements in order, and
`HASH_FSCK` finds nothing wrong.
-/

namespace Margo.Uthash

open Function Lib.Rows Lib.Paths Lib.Links

section

variable {α κ : Type} {hash : κ → BitVec 32} {hs hs' : Handles α κ} {head x : α}
  {tbl tbl' : Table α} {order us : List α} {key : κ} {s : Hash α κ}

/-- The buckets of a table hold its elements. -/
structure Filled (hs : Handles α κ) (tbl : Table α) (order : List α) : Prop where
  numBuckets : tbl.numBuckets = 2 ^ tbl.log2NumBuckets
  length : tbl.buckets.length = tbl.numBuckets
  chained : ∃ rows, Chained hs tbl.buckets tbl.numBuckets order rows

/-- The table with the given first element holds the elements in order. -/
structure Represents (hash : κ → BitVec 32) (hs : Handles α κ) (head : α) (tbl : Table α)
    (order : List α) : Prop where
  line : Row hs.next hs.prev order
  head : order.head? = some head
  tail : order.getLast? = some tbl.tail
  numItems : tbl.numItems = order.length
  hashv : ∀ y ∈ order, hs.hashv y = hash (hs.key y)
  filled : Filled hs tbl order

/-- A pointer to a table of the elements in order; the null pointer is an empty table. -/
def IsTable (hash : κ → BitVec 32) (s : Hash α κ) (order : List α) : Prop :=
  match s.head with
  | none => order = []
  | some (head, tbl) => Represents hash s.handles head tbl order

theorem Filled.pos (h : Filled hs tbl order) : 0 < tbl.numBuckets := by
  rw [h.numBuckets]
  exact Nat.two_pow_pos _

theorem Filled.exists_bucket (h : Filled hs tbl order) (x : α) :
    ∃ bucket, tbl.buckets[slot hs tbl.numBuckets x]? = some bucket := by
  have hlt : slot hs tbl.numBuckets x < tbl.buckets.length := by
    rw [h.length]
    exact hashToBkt_lt _ h.pos
  exact ⟨_, List.getElem?_eq_getElem hlt⟩

theorem isTable_none (h : s.head = none) : IsTable hash s order ↔ order = [] := by
  rw [IsTable, h]

theorem isTable_some (h : s.head = some (head, tbl)) :
    IsTable hash s order ↔ Represents hash s.handles head tbl order := by
  rw [IsTable, h]

theorem IsTable.nodup (h : IsTable hash s order) : order.Nodup := by
  cases hhead : s.head with
  | none =>
      obtain rfl := (isTable_none hhead).mp h
      exact List.nodup_nil
  | some p => exact ((isTable_some hhead).mp h).line.1

/-! ## Finding an element -/

section

variable [DecidableEq κ]

/-- The search goes through the whole chain. -/
theorem findInBkt_eq {hashval : BitVec 32} {fuel : Nat} {start : Option α}
    (hpath : Path hs.hhNext start us) (hfuel : us.length ≤ fuel) :
    findInBkt hs key hashval fuel start =
      .ok (us.find? fun y => hs.hashv y = hashval ∧ hs.key y = key) := by
  induction us generalizing fuel start with
  | nil =>
      obtain rfl := path_nil.mp hpath
      cases fuel <;> rfl
  | cons a us ih =>
      obtain ⟨rfl, hrest⟩ := path_cons.mp hpath
      cases fuel with
      | zero => cases hfuel
      | succ fuel =>
          rw [findInBkt, List.find?_cons, ih hrest (Nat.le_of_succ_le_succ hfuel)]
          by_cases ha : hs.hashv a = hashval ∧ hs.key a = key
          · rw [if_pos ha, decide_eq_true ha]
          · rw [if_neg ha, decide_eq_false ha]

/-- `HASH_FIND` returns the first element of the chain that has the key. -/
theorem Represents.find (h : Represents hash s.handles head tbl order)
    (hhead : s.head = some (head, tbl)) {rows : Nat → List α}
    (hrows : Chained s.handles tbl.buckets tbl.numBuckets order rows) :
    hashFind hash s key = .ok ((rows (hashToBkt (hash key) tbl.numBuckets)).find? fun y =>
      s.handles.hashv y = hash key ∧ s.handles.key y = key) := by
  have hlt : hashToBkt (hash key) tbl.numBuckets < tbl.buckets.length := by
    rw [h.filled.length]
    exact hashToBkt_lt _ h.filled.pos
  have hb := List.getElem?_eq_getElem hlt
  have hle := hrows.length_le (i := hashToBkt (hash key) tbl.numBuckets)
  rw [← h.numItems] at hle
  rw [hashFind, hhead, ← findInBkt_eq (hrows.path hb) hle]
  show bucketAt tbl.buckets (hashToBkt (hash key) tbl.numBuckets) >>= _ = _
  rw [bucketAt_eq_ok hb]
  rfl

/-- `HASH_FIND` returns an element with the key, and nothing only if there is none. -/
theorem IsTable.find (h : IsTable hash s order) (key : κ) :
    ∃ found, hashFind hash s key = .ok found ∧
      (found = none → ∀ y ∈ order, s.handles.key y ≠ key) ∧
      ∀ y, found = some y → y ∈ order ∧ s.handles.key y = key := by
  cases hhead : s.head with
  | none =>
      obtain rfl := (isTable_none hhead).mp h
      refine ⟨none, ?_, ?_, ?_⟩
      · rw [hashFind, hhead]
      · exact fun _ y hy => absurd hy List.not_mem_nil
      · exact fun y hy => absurd hy.symm (Option.some_ne_none y)
  | some p =>
      obtain ⟨head, tbl⟩ := p
      have hrep := (isTable_some hhead).mp h
      obtain ⟨rows, hrows⟩ := hrep.filled.chained
      refine ⟨_, hrep.find hhead hrows, ?_, ?_⟩
      · intro hnone y hy hkey
        have hhash : s.handles.hashv y = hash key := hkey ▸ hrep.hashv y hy
        have hmem := (hrows.mem y).mpr hy
        rw [slot, hhash] at hmem
        have hother := List.find?_eq_none.mp hnone y hmem
        exact hother (decide_eq_true ⟨hhash, hkey⟩)
      · intro y hy
        have htest := List.find?_some hy
        have hkey := (decide_eq_true_eq.mp htest).2
        exact ⟨(hrows.of_mem (List.mem_of_find?_eq_some hy)).1, hkey⟩

end

/-! ## Going over the elements -/

/-- A loop whose body says with every element what is left to be met. -/
theorem iterLoop_eq {σ : Type} {toHash : σ → Hash α κ} {body : σ → α → Except Stop σ}
    {R : List α → σ → Prop} {fuel : Nat} {t : σ}
    (hbody : ∀ a rest t, R (a :: rest) t → ∃ t', body t a = .ok t' ∧ R rest t')
    (hnext : ∀ a rest t, R (a :: rest) t → (toHash t).handles.next a = rest.head?)
    (h : R us t) (hfuel : us.length ≤ fuel) :
    ∃ t', iterLoop toHash body fuel t us.head? (us.head?.bind (toHash t).handles.next) = .ok t' ∧
      R [] t' := by
  induction us generalizing fuel t with
  | nil =>
      refine ⟨t, ?_, h⟩
      cases fuel <;> rfl
  | cons a us ih =>
      cases fuel with
      | zero => cases hfuel
      | succ fuel =>
          obtain ⟨t₁, hrun, h₁⟩ := hbody a us t h
          obtain ⟨t₂, hloop, h₂⟩ := ih h₁ (Nat.le_of_succ_le_succ hfuel)
          refine ⟨t₂, ?_, h₂⟩
          rw [List.head?_cons, iterLoop, hrun, Option.bind_some, hnext a us t h]
          exact hloop

/-- `HASH_ITER` on a table, with such a body. -/
theorem IsTable.iter {σ : Type} (toHash : σ → Hash α κ) (body : σ → α → Except Stop σ)
    (R : List α → σ → Prop) {t : σ} (h : IsTable hash (toHash t) order)
    (hbody : ∀ a rest t, R (a :: rest) t → ∃ t', body t a = .ok t' ∧ R rest t')
    (hnext : ∀ a rest t, R (a :: rest) t → (toHash t).handles.next a = rest.head?)
    (hR : R order t) : ∃ t', hashIter toHash body t = .ok t' ∧ R [] t' := by
  rw [hashIter]
  cases hhead : (toHash t).head with
  | none =>
      obtain rfl := (isTable_none hhead).mp h
      exact ⟨t, rfl, hR⟩
  | some p =>
      obtain ⟨head, tbl⟩ := p
      have hrep := (isTable_some hhead).mp h
      have hloop := iterLoop_eq hbody hnext hR (Nat.le_of_eq hrep.numItems.symm)
      rwa [hrep.head] at hloop

theorem IsTable.next_of_append (h : IsTable hash s order) {before rest : List α}
    (horder : order = before ++ x :: rest) : s.handles.next x = rest.head? := by
  cases hhead : s.head with
  | none =>
      rw [(isTable_none hhead).mp h] at horder
      exact absurd horder.symm (List.append_ne_nil_of_right_ne_nil _ (List.cons_ne_nil _ _))
  | some p =>
      have hrow := ((isTable_some hhead).mp h).line
      exact (horder ▸ hrow).links.2

/-- The elements are met in the order in which they were added. -/
theorem IsTable.elements (h : IsTable hash s order) : elements s = .ok order := by
  let body : Hash α κ × List α → α → Except Stop (Hash α κ × List α) :=
    fun t el => .ok (t.1, t.2 ++ [el])
  let R : List α → Hash α κ × List α → Prop := fun rest t => t.1 = s ∧ t.2 ++ rest = order
  have hbody : ∀ a rest t, R (a :: rest) t → ∃ t', body t a = .ok t' ∧ R rest t' := by
    rintro a rest ⟨t, met⟩ ⟨ht, hmet⟩
    refine ⟨_, rfl, ht, ?_⟩
    rwa [List.append_assoc]
  have hnext : ∀ a rest t, R (a :: rest) t → t.1.handles.next a = rest.head? := by
    rintro a rest ⟨t, met⟩ ⟨rfl, hmet⟩
    exact h.next_of_append hmet.symm
  obtain ⟨⟨s', met⟩, hrun, -, hmet⟩ := IsTable.iter Prod.fst body R (t := (s, [])) h hbody hnext
    ⟨rfl, List.nil_append _⟩
  rw [List.append_nil] at hmet
  rw [Uthash.elements, hrun]
  exact congrArg Except.ok hmet

end

/-! ## Checking a table -/

section

variable {α κ : Type} [DecidableEq α] {hash : κ → BitVec 32} {hs : Handles α κ} {tbl : Table α}
  {order us : List α} {rows : Nat → List α} {s : Hash α κ} {n k fuel : Nat}

theorem fsckWalk_eq {prev next : α → Option α} {before : Option α}
    (h : Seg next prev before us none) (hfuel : us.length ≤ fuel) :
    fsckWalk prev next fuel before us.head? = some us.length := by
  induction us generalizing fuel before with
  | nil => cases fuel <;> rfl
  | cons a us ih =>
      obtain ⟨hprev, hnext, hrest⟩ := seg_cons.mp h
      rw [Option.or_none] at hnext
      cases fuel with
      | zero => cases hfuel
      | succ fuel =>
          rw [List.head?_cons, fsckWalk, if_neg (not_not.mpr hprev), hnext,
            ih hrest (Nat.le_of_succ_le_succ hfuel)]
          rfl

omit [DecidableEq α] in
theorem Chained.nodup_firstRows (h : Chained hs tbl.buckets n order rows) :
    (firstRows rows k).Nodup := by
  induction k with
  | zero => exact List.nodup_nil
  | succ k ih =>
      rw [firstRows_succ]
      refine ih.append (h.row k).1 ?_
      intro y hmem hy
      have hbelow := (h.mem_firstRows.mp hmem).2
      rw [(h.of_mem hy).2] at hbelow
      exact Nat.lt_irrefl k hbelow

omit [DecidableEq α] in
/-- Every element is in one chain. -/
theorem Filled.perm (h : Filled hs tbl order) (hnodup : order.Nodup)
    (hrows : Chained hs tbl.buckets tbl.numBuckets order rows) :
    (firstRows rows tbl.numBuckets).Perm order := by
  apply (List.perm_ext_iff_of_nodup hrows.nodup_firstRows hnodup).mpr
  intro y
  rw [hrows.mem_firstRows]
  exact and_iff_left (hashToBkt_lt _ h.pos)

theorem mapM_eq_some {f : Nat → Option Nat} {g : Nat → Nat} {l : List Nat}
    (h : ∀ i ∈ l, f i = some (g i)) : l.mapM f = some (l.map g) := by
  induction l with
  | nil => rfl
  | cons i l ih =>
      have hrest := ih fun j hj => h j (List.mem_cons_of_mem i hj)
      rw [List.mapM_cons, h i List.mem_cons_self, hrest]
      rfl

theorem Represents.fsckBucket {head : α} (h : Represents hash hs head tbl order)
    (hrows : Chained hs tbl.buckets tbl.numBuckets order rows) (hk : k < tbl.numBuckets) :
    fsckBucket hs tbl k = some (rows k).length := by
  have hlt : k < tbl.buckets.length := by rwa [h.filled.length]
  have hb := List.getElem?_eq_getElem hlt
  have hwalk := fsckWalk_eq (hrows.row k).2
    (h.numItems ▸ hrows.length_le)
  rw [(hrows.path hb).head] at hwalk
  have hcount := hrows.count k _ hb
  rw [Uthash.fsckBucket, hb]
  show (fsckWalk hs.hhPrev hs.hhNext tbl.numItems none tbl.buckets[k].hhHead).bind _ = _
  rw [hwalk]
  exact if_neg (not_not.mpr hcount)

/-- `HASH_FSCK` finds nothing in a table. -/
theorem IsTable.fsck (h : IsTable hash s order) : hashFsck s = true := by
  rw [hashFsck]
  cases hhead : s.head with
  | none => rfl
  | some p =>
      obtain ⟨head, tbl⟩ := p
      have hrep := (isTable_some hhead).mp h
      obtain ⟨rows, hrows⟩ := hrep.filled.chained
      have hcounts := mapM_eq_some (l := List.range tbl.numBuckets) fun i hi =>
        hrep.fsckBucket hrows (List.mem_range.mp hi)
      have hsum : ((List.range tbl.numBuckets).map fun i => (rows i).length).sum =
          tbl.numItems := by
        rw [← List.length_flatMap, hrep.numItems]
        exact (hrep.filled.perm hrep.line.1 hrows).length_eq
      have hwalk := fsckWalk_eq hrep.line.2
        (Nat.le_of_eq hrep.numItems.symm)
      rw [hrep.head, ← hrep.numItems] at hwalk
      simp only [hcounts, hsum, hwalk, decide_true, Bool.and_true]

end

/-! ## Adding and deleting -/

section

variable {α κ : Type} [DecidableEq α] {hash : κ → BitVec 32} {hs hs' : Handles α κ} {head x : α}
  {tbl tbl' : Table α} {order : List α} {rows : Nat → List α} {key : κ} {s : Hash α κ}

omit [DecidableEq α] in
/-- The handles outside the chains are the same. -/
structure SameLine (hs hs' : Handles α κ) : Prop where
  prev : hs'.prev = hs.prev
  next : hs'.next = hs.next
  key : hs'.key = hs.key
  hashv : hs'.hashv = hs.hashv

theorem sameLine_linkFirst (p : Option α) : SameLine hs (linkFirst hs p x) :=
  ⟨linkFirst_prev p, linkFirst_next p, linkFirst_key p, linkFirst_hashv p⟩

/-- `HASH_ADD_TO_BKT`, in the bucket of the element, with or without an expansion. -/
theorem Filled.addToBkt (h : Filled hs tbl order) (hx : x ∉ order)
    (hitems : tbl.numItems = order.length + 1) :
    ∃ hs' tbl' expands,
      addToBkt true hs tbl (slot hs tbl.numBuckets x) x = .ok (hs', tbl', expands) ∧
      SameLine hs hs' ∧ tbl'.tail = tbl.tail ∧ tbl'.numItems = tbl.numItems ∧
      Filled hs' tbl' (order ++ [x]) := by
  obtain ⟨bucket, hb⟩ := h.exists_bucket x
  obtain ⟨rows, hrows⟩ := h.chained
  have hpush := hrows.push ⟨some x, bucket.count + 1, bucket.expandMult⟩ hx hb rfl rfl
  set i := slot hs tbl.numBuckets x with hi
  set hs₁ := linkFirst hs bucket.hhHead x with hhs₁
  set tbl₁ : Table α := { tbl with
    buckets := tbl.buckets.set i ⟨some x, bucket.count + 1, bucket.expandMult⟩ } with htbl₁
  have hline : SameLine hs hs₁ := sameLine_linkFirst _
  have hlength : tbl₁.buckets.length = tbl₁.numBuckets := by
    rw [htbl₁, List.length_set, h.length]
  rw [Uthash.addToBkt, bucketAt_eq_ok hb]
  by_cases hexpand : bucket.count + 1 ≥ (bucket.expandMult + 1) * bktCapacityThresh ∧ !tbl.noexpand
  · have hitems₁ : tbl₁.numItems = (order ++ [x]).length := by
      rw [List.length_append, List.length_singleton]
      exact hitems
    have hpush₁ : Chained hs₁ tbl₁.buckets tbl₁.numBuckets (order ++ [x]) _ := hpush
    obtain ⟨hs₂, tbl₂, hrun, hexp⟩ := hpush₁.expandBuckets h.pos hitems₁ hlength
    refine ⟨hs₂, tbl₂, 1, ?_, ?_, hexp.tail, hexp.numItems, ?_⟩
    · simp only [bind, Except.bind, hexpand, ← hhs₁, ← htbl₁, hrun]
      rfl
    · exact ⟨hexp.prev.trans hline.prev, hexp.next.trans hline.next, hexp.key.trans hline.key,
        hexp.hashv.trans hline.hashv⟩
    · refine ⟨?_, hexp.length, hexp.chained⟩
      rw [hexp.numBuckets, hexp.log2NumBuckets, Nat.pow_succ]
      exact congrArg (· * 2) h.numBuckets
  · refine ⟨hs₁, tbl₁, 0, ?_, hline, rfl, rfl, h.numBuckets, hlength, _, hpush⟩
    simp only [bind, Except.bind, hexpand, if_false]
    rfl

omit [DecidableEq α] in
/-- The handles of the elements of a table are the same. -/
structure Agree (hs hs' : Handles α κ) (order : List α) : Prop where
  prev : ∀ y ∈ order, hs'.prev y = hs.prev y
  next : ∀ y ∈ order, hs'.next y = hs.next y
  hhPrev : ∀ y ∈ order, hs'.hhPrev y = hs.hhPrev y
  hhNext : ∀ y ∈ order, hs'.hhNext y = hs.hhNext y
  key : ∀ y ∈ order, hs'.key y = hs.key y
  hashv : ∀ y ∈ order, hs'.hashv y = hs.hashv y

omit [DecidableEq α] in
/-- The chains do not depend on the handles of other elements. -/
theorem Filled.congr (h : Filled hs tbl order) (hnext : ∀ y ∈ order, hs'.hhNext y = hs.hhNext y)
    (hprev : ∀ y ∈ order, hs'.hhPrev y = hs.hhPrev y)
    (hhash : ∀ y ∈ order, hs'.hashv y = hs.hashv y) : Filled hs' tbl order := by
  obtain ⟨rows, hrows⟩ := h.chained
  have hslot : ∀ y ∈ order, slot hs' tbl.numBuckets y = slot hs tbl.numBuckets y := by
    intro y hy
    rw [slot, slot, hhash y hy]
  refine ⟨h.numBuckets, h.length, rows, ⟨?_, hrows.holds.head, ?_⟩, hrows.count, ?_⟩
  · intro i
    apply (hrows.row i).congr
    · exact fun y hy => hnext y (hrows.of_mem hy).1
    · exact fun y hy => hprev y (hrows.of_mem hy).1
  · intro i y hy
    rw [hslot y (hrows.of_mem hy).1]
    exact hrows.holds.slot i y hy
  · intro y
    refine ⟨fun hy => (hrows.of_mem hy).1, fun hy => ?_⟩
    rw [hslot y hy]
    exact (hrows.mem y).mpr hy

omit [DecidableEq α] in
theorem Represents.congr (h : Represents hash hs head tbl order) (hagree : Agree hs hs' order) :
    Represents hash hs' head tbl order where
  line := h.line.congr hagree.next hagree.prev
  head := h.head
  tail := h.tail
  numItems := h.numItems
  hashv y hy := by rw [hagree.hashv y hy, hagree.key y hy, h.hashv y hy]
  filled := h.filled.congr hagree.hhNext hagree.hhPrev hagree.hashv

/-- `HASH_ADD_TO_TABLE`, when everything but the buckets is already prepared. -/
theorem Filled.addToTable (h : Filled s.handles tbl order) (head : α) (hx : x ∉ order)
    (hitems : tbl.numItems = order.length)
    (hline : Row s.handles.next s.handles.prev (order ++ [x]))
    (hhead : (order ++ [x]).head? = some head) (htail : tbl.tail = x)
    (hhash : ∀ y ∈ order ++ [x], s.handles.hashv y = hash (s.handles.key y)) :
    ∃ s', addToTable true s head tbl x = .ok s' ∧ IsTable hash s' (order ++ [x]) ∧
      s'.head ≠ none ∧ s'.handles.key = s.handles.key ∧
      s'.malloced + s.freed = s'.freed + s.malloced := by
  have hfilled : Filled s.handles { tbl with numItems := tbl.numItems + 1 } order :=
    ⟨h.numBuckets, h.length, h.chained⟩
  obtain ⟨hs', tbl', expands, hrun, hsame, htail', hitems', hfilled'⟩ :=
    hfilled.addToBkt hx (congrArg (· + 1) hitems)
  refine ⟨⟨hs', some (head, tbl'), s.malloced + expands, s.freed + expands⟩, ?_, ?_, ?_,
    hsame.key, ?_⟩
  · show Uthash.addToBkt true s.handles { tbl with numItems := tbl.numItems + 1 }
      (slot s.handles tbl.numBuckets x) x >>= _ = _
    rw [hrun]
    rfl
  · refine (isTable_some rfl).mpr ⟨?_, hhead, ?_, ?_, ?_, hfilled'⟩
    · rw [hsame.next, hsame.prev]
      exact hline
    · rw [List.getLast?_concat, htail', htail]
    · rw [hitems', hitems, List.length_append, List.length_singleton]
    · rw [hsame.hashv, hsame.key]
      exact hhash
  · exact Option.some_ne_none _
  · show s.malloced + expands + s.freed = s.freed + expands + s.malloced
    omega

/-- The blocks of a table: the table and its buckets. -/
def Balanced (s : Hash α κ) : Prop := s.malloced = s.freed + if s.head.isSome then 2 else 0

/-- `HASH_ADD` puts an element that is not in the table behind the last one. -/
theorem IsTable.add (h : IsTable hash s order) (hx : x ∉ order) (hbal : Balanced s) (key : κ) :
    ∃ s', hashAdd hash true s x key = .ok s' ∧ IsTable hash s' (order ++ [x]) ∧
      s'.handles.key = update s.handles.key x key ∧ Balanced s' := by
  have hne : ∀ y ∈ order, y ≠ x := fun y hy => ne_of_mem_of_not_mem hy hx
  have hhashv : ∀ y ∈ order, update s.handles.hashv x (hash key) y = s.handles.hashv y :=
    fun y hy => update_of_ne (hne y hy) _ _
  rw [hashAdd]
  cases hhead : s.head with
  | none =>
      obtain rfl := (isTable_none hhead).mp h
      set hs : Handles α κ := { s.handles with
        hashv := update s.handles.hashv x (hash key)
        key := update s.handles.key x key
        next := update s.handles.next x none
        prev := update s.handles.prev x none } with hhs
      have hfilled : Filled hs (newTable x) [] :=
        ⟨rfl, List.length_replicate, _, chained_empty hs _ _⟩
      have hhash : ∀ y ∈ [] ++ [x], hs.hashv y = hash (hs.key y) := by simp [hhs]
      obtain ⟨s', hrun, htable, hsome, hkey, hblocks⟩ :=
        Filled.addToTable (s := { s with handles := hs, malloced := s.malloced + 2 }) hfilled x hx
          rfl (row_singleton x) rfl rfl hhash
      refine ⟨s', hrun, htable, hkey, ?_⟩
      rw [Balanced, hhead] at hbal
      rw [Balanced, if_pos (Option.isSome_iff_ne_none.mpr hsome)]
      dsimp only at hblocks
      simp only [Option.isSome_none, Bool.false_eq_true, if_false] at hbal
      omega
  | some p =>
      obtain ⟨head, tbl⟩ := p
      have hrep := (isTable_some hhead).mp h
      set hs : Handles α κ := { s.handles with
        hashv := update s.handles.hashv x (hash key)
        key := update s.handles.key x key
        next := update (update s.handles.next x none) tbl.tail (some x)
        prev := update s.handles.prev x (some tbl.tail) } with hhs
      have hsame : Filled hs tbl order :=
        hrep.filled.congr (fun _ _ => rfl) (fun _ _ => rfl) hhashv
      have hfilled : Filled hs { tbl with tail := x } order :=
        ⟨hsame.numBuckets, hsame.length, hsame.chained⟩
      have hhash : ∀ y ∈ order ++ [x], hs.hashv y = hash (hs.key y) := by
        intro y hy
        rcases List.mem_append.mp hy with hold | hnew
        · show update s.handles.hashv x (hash key) y = hash (update s.handles.key x key y)
          rw [hhashv y hold, update_of_ne (hne y hold), hrep.hashv y hold]
        · obtain rfl := List.mem_singleton.mp hnew
          show update s.handles.hashv y (hash key) y = hash (update s.handles.key y key y)
          rw [update_self, update_self]
      obtain ⟨s', hrun, htable, hsome, hkey, hblocks⟩ :=
        Filled.addToTable (s := { s with handles := hs }) hfilled head hx hrep.numItems
          (hrep.line.push_back hx hrep.tail) (by rw [List.head?_append, hrep.head]; rfl) rfl hhash
      refine ⟨s', hrun, htable, hkey, ?_⟩
      rw [Balanced, hhead] at hbal
      rw [Balanced, if_pos (Option.isSome_iff_ne_none.mpr hsome)]
      dsimp only at hblocks
      simp only [Option.isSome_some, if_true] at hbal
      omega

/-- If an allocation fails, then the process ends, or nothing was to be allocated. -/
theorem hashAdd_false (hash : κ → BitVec 32) (s : Hash α κ) (x : α) (key : κ) :
    hashAdd hash false s x key = .error .fatal ∨
      hashAdd hash false s x key = hashAdd hash true s x key := by
  have hbkt : ∀ (hs : Handles α κ) (tbl : Table α) (i : Nat),
      addToBkt false hs tbl i x = .error .fatal ∨
        addToBkt false hs tbl i x = addToBkt true hs tbl i x := by
    intro hs tbl i
    rw [addToBkt, addToBkt]
    cases bucketAt tbl.buckets i with
    | error stop => exact Or.inr rfl
    | ok bucket =>
        by_cases hexpand :
            bucket.count + 1 ≥ (bucket.expandMult + 1) * bktCapacityThresh ∧ !tbl.noexpand
        · left
          simp only [bind, Except.bind, hexpand, expandBuckets]
          rfl
        · right
          simp only [bind, Except.bind, hexpand, if_false]
  have htable : ∀ (s : Hash α κ) (head : α) (tbl : Table α),
      addToTable false s head tbl x = .error .fatal ∨
        addToTable false s head tbl x = addToTable true s head tbl x := by
    intro s head tbl
    rw [addToTable, addToTable]
    rcases hbkt s.handles { tbl with numItems := tbl.numItems + 1 }
      (hashToBkt (s.handles.hashv x) tbl.numBuckets) with hfatal | hsame
    · left
      rw [hfatal]
      rfl
    · right
      rw [hsame]
  rw [hashAdd, hashAdd]
  cases s.head with
  | none => exact Or.inl rfl
  | some p => exact htable _ _ _

theorem unlink_eq : unlink hs x = { hs with
    next := store hs.next (hs.prev x) (hs.next x)
    prev := store hs.prev (hs.next x) (hs.prev x) } := by
  rw [unlink]
  cases hs.prev x <;> cases hs.next x <;> rfl

theorem sameLine_delInBkt (hs : Handles α κ) (x : α) (bucket : Bucket α) :
    SameLine hs (delInBkt hs bucket x).1 := by
  rw [delInBkt]
  cases hs.hhPrev x with
  | none =>
      dsimp only
      split <;> exact ⟨rfl, rfl, rfl, rfl⟩
  | some p =>
      dsimp only
      split <;> exact ⟨rfl, rfl, rfl, rfl⟩

variable {xs ys : List α}

theorem Represents.tailWithout (h : Represents hash hs head tbl (xs ++ x :: ys))
    (hmore : xs ++ ys ≠ []) :
    ∃ t, tailWithout hs tbl x = .ok t ∧ (xs ++ ys).getLast? = some t := by
  have htail := h.tail
  have hprev := h.line.links.1
  rw [Uthash.tailWithout]
  cases ys with
  | nil =>
      rw [List.append_nil] at hmore
      rw [List.getLast?_concat] at htail
      rw [if_pos (Option.some.inj htail), hprev, List.append_nil]
      cases hlast : xs.getLast? with
      | none => exact absurd (List.getLast?_eq_none_iff.mp hlast) hmore
      | some p => exact ⟨p, rfl, rfl⟩
  | cons y ys =>
      rw [List.getLast?_append, List.getLast?_cons_cons] at htail
      have hlast : (y :: ys).getLast? = some tbl.tail := by
        cases hy : (y :: ys).getLast? with
        | none => exact absurd (List.getLast?_eq_none_iff.mp hy) (List.cons_ne_nil y ys)
        | some t => rwa [hy, Option.some_or] at htail
      have hne : x ≠ tbl.tail := by
        have hnot := (List.nodup_cons.mp (List.nodup_append.mp h.line.1).2.1).1
        exact fun heq => hnot (heq ▸ List.mem_of_getLast? hlast)
      refine ⟨tbl.tail, if_neg hne, ?_⟩
      rw [List.getLast?_append, hlast, Option.some_or]

omit [DecidableEq α] in
theorem Represents.headWithout (h : Represents hash hs head tbl (xs ++ x :: ys))
    (hmore : xs ++ ys ≠ []) :
    ∃ u, headWithout hs head x = .ok u ∧ (xs ++ ys).head? = some u := by
  obtain ⟨hprev, hnext⟩ := h.line.links
  have hhead := h.head
  rw [Uthash.headWithout, hprev]
  cases xs with
  | nil =>
      cases ys with
      | nil => exact absurd rfl hmore
      | cons y ys =>
          rw [hnext]
          exact ⟨y, rfl, rfl⟩
  | cons u us =>
      rw [List.cons_append, List.head?_cons] at hhead
      have hlast : (u :: us).getLast? = some ((u :: us).getLast (List.cons_ne_nil u us)) :=
        List.getLast?_eq_some_getLast _
      rw [hlast]
      exact ⟨head, rfl, hhead⟩

/-- `HASH_DELETE` takes an element out of its bucket and out of the list of all elements. -/
theorem IsTable.delete (h : IsTable hash s order) (hx : x ∈ order) (hbal : Balanced s) :
    ∃ s', hashDelete s x = .ok s' ∧ IsTable hash s' (order.erase x) ∧
      s'.handles.key = s.handles.key ∧ Balanced s' := by
  cases hhead : s.head with
  | none =>
      rw [(isTable_none hhead).mp h] at hx
      exact absurd hx List.not_mem_nil
  | some p =>
      obtain ⟨head, tbl⟩ := p
      have hrep := (isTable_some hhead).mp h
      rw [Balanced, hhead, Option.isSome_some, if_pos rfl] at hbal
      obtain ⟨xs, ys, rfl⟩ := List.append_of_mem hx
      obtain ⟨hprev, hnext⟩ := hrep.line.links
      have hnot : x ∉ xs := fun hmem =>
        (List.nodup_append.mp hrep.line.1).2.2 x hmem x List.mem_cons_self rfl
      have herase : (xs ++ x :: ys).erase x = xs ++ ys := by
        rw [List.erase_append_right _ hnot, List.erase_cons_head]
      by_cases hmore : xs ++ ys = []
      · obtain ⟨rfl, rfl⟩ := List.append_eq_nil_iff.mp hmore
        refine ⟨{ s with head := none, freed := s.freed + 2 }, ?_, ?_, rfl, ?_⟩
        · rw [hashDelete, hhead]
          exact if_pos ⟨hprev, hnext⟩
        · rw [herase]
          exact (isTable_none rfl).mpr rfl
        · exact hbal
      · have hlinked : ¬(s.handles.prev x = none ∧ s.handles.next x = none) := by
          rw [hprev, hnext, List.getLast?_eq_none_iff, List.head?_eq_none_iff]
          exact fun hnil => hmore (List.append_eq_nil_iff.mpr hnil)
        obtain ⟨t, htail, hlast⟩ := hrep.tailWithout hmore
        obtain ⟨u, hfirst, hhead'⟩ := hrep.headWithout hmore
        have hfilled : Filled (unlink s.handles x) tbl (xs ++ x :: ys) := by
          rw [unlink_eq]
          exact hrep.filled.congr (fun _ _ => rfl) (fun _ _ => rfl) fun _ _ => rfl
        obtain ⟨bucket, hb⟩ := hfilled.exists_bucket x
        obtain ⟨rows, hrows⟩ := hfilled.chained
        have hchained := hrows.remove hx hrep.line.1 hb
        have hsame := sameLine_delInBkt (unlink s.handles x) x bucket
        refine ⟨{ s with
          handles := (delInBkt (unlink s.handles x) bucket x).1
          head := some (u, { tbl with
            tail := t
            buckets := tbl.buckets.set (slot (unlink s.handles x) tbl.numBuckets x)
              (delInBkt (unlink s.handles x) bucket x).2
            numItems := tbl.numItems - 1 }) }, ?_, ?_, ?_, ?_⟩
        · rw [hashDelete, hhead]
          dsimp only
          rw [if_neg hlinked, htail, hfirst]
          show bucketAt tbl.buckets (slot (unlink s.handles x) tbl.numBuckets x) >>= _ = _
          rw [bucketAt_eq_ok hb]
          rfl
        · rw [herase] at hchained ⊢
          refine (isTable_some rfl).mpr ⟨?_, hhead', hlast, ?_, ?_, ?_⟩
          · dsimp only
            rw [hsame.next, hsame.prev, unlink_eq]
            dsimp only
            rw [hprev, hnext]
            exact hrep.line.delete
          · dsimp only
            rw [hrep.numItems]
            simp only [List.length_append, List.length_cons]
            omega
          · intro y hy
            dsimp only
            rw [hsame.hashv, hsame.key, unlink_eq]
            apply hrep.hashv
            rcases List.mem_append.mp hy with hl | hr
            · exact List.mem_append_left _ hl
            · exact List.mem_append_right _ (List.mem_cons_of_mem x hr)
          · refine ⟨hrep.filled.numBuckets, ?_, _, hchained⟩
            dsimp only
            rw [List.length_set, hrep.filled.length]
        · dsimp only
          rw [hsame.key, unlink_eq]
        · exact hbal

end

end Margo.Uthash
