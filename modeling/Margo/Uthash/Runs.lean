import Margo.Uthash.Operations

/-!
# A hash table is a finite map

From the null pointer on, whatever is added and deleted and whatever is written over the
handles of elements that are in no table, the table holds the elements under the keys with
which they were added, and it is checked to be in order.
-/

namespace Margo.Uthash

open Function

variable {α κ : Type} [DecidableEq α] [DecidableEq κ]

omit [DecidableEq α] [DecidableEq κ] in
/-- What a program does with a table and with the memory of its elements. -/
inductive Op (α κ : Type)
  | add (x : α) (key : κ) (alloc : Bool)
  | delete (x : α)
  /-- The memory of an element is used for something else. -/
  | overwrite (x : α) (junk : Handles α κ)

omit [DecidableEq κ] in
/-- The handle of one element becomes what it is in other memory. -/
def Handles.overwrite (hs junk : Handles α κ) (x : α) : Handles α κ where
  prev := update hs.prev x (junk.prev x)
  next := update hs.next x (junk.next x)
  hhPrev := update hs.hhPrev x (junk.hhPrev x)
  hhNext := update hs.hhNext x (junk.hhNext x)
  key := update hs.key x (junk.key x)
  hashv := update hs.hashv x (junk.hashv x)

omit [DecidableEq κ] in
/-- One operation. -/
def run (hash : κ → BitVec 32) (s : Hash α κ) : Op α κ → Except Stop (Hash α κ)
  | .add x key alloc => hashAdd hash alloc s x key
  | .delete x => hashDelete s x
  | .overwrite x junk => .ok { s with handles := s.handles.overwrite junk x }

omit [DecidableEq κ] in
/-- A sequence of operations. -/
def runAll (hash : κ → BitVec 32) (s : Hash α κ) : List (Op α κ) → Except Stop (Hash α κ)
  | [] => .ok s
  | op :: ops => do
      let s ← run hash s op
      runAll hash s ops

omit [DecidableEq α] [DecidableEq κ] in
/-- The null pointer, in any memory. -/
def nullHash (memory : Handles α κ) : Hash α κ := ⟨memory, none, 0, 0⟩

/-! ## What should be in the table -/

/-- The elements with the keys under which they were added, oldest first. -/
abbrev Contents (α κ : Type) := List (α × κ)

omit [DecidableEq κ] in
/-- What an operation should make of the contents. -/
def Contents.after (c : Contents α κ) : Op α κ → Contents α κ
  | .add x key _ => c ++ [(x, key)]
  | .delete x => c.filter fun e => e.1 ≠ x
  | .overwrite _ _ => c

omit [DecidableEq α] [DecidableEq κ] in
/-- An element is added when it is not in the table and deleted when it is; its memory is not
used for something else in between. -/
def Contents.Allows (c : Contents α κ) : Op α κ → Prop
  | .add x _ _ => x ∉ c.map Prod.fst
  | .delete x => x ∈ c.map Prod.fst
  | .overwrite x _ => x ∉ c.map Prod.fst

omit [DecidableEq κ] in
/-- Every operation of the sequence is allowed where it comes. -/
def Contents.AllowsAll (c : Contents α κ) : List (Op α κ) → Prop
  | [] => True
  | op :: ops => c.Allows op ∧ (c.after op).AllowsAll ops

/-- The macros show the contents. -/
structure Shows (hash : κ → BitVec 32) (s : Hash α κ) (c : Contents α κ) : Prop where
  /-- `HASH_ITER` meets the elements in the order in which they were added. -/
  elements : elements s = .ok (c.map Prod.fst)
  /-- `HASH_FIND` returns an element that was added with the key, if there is one. -/
  find : ∀ key, ∃ found, hashFind hash s key = .ok found ∧
    (found = none ↔ key ∉ c.map Prod.snd) ∧ ∀ x, found = some x → (x, key) ∈ c
  /-- `HASH_FSCK` finds nothing. -/
  fsck : hashFsck s = true
  /-- All blocks of an empty table are freed, and all but two of another one. -/
  blocks : s.malloced = s.freed + if c = [] then 0 else 2

/-! ## Every operation keeps the table -/

omit [DecidableEq κ] in
/-- The table of the contents. -/
structure Holds (hash : κ → BitVec 32) (s : Hash α κ) (c : Contents α κ) : Prop where
  table : IsTable hash s (c.map Prod.fst)
  keys : ∀ e ∈ c, s.handles.key e.1 = e.2
  balanced : Balanced s

section

variable {hash : κ → BitVec 32} {s : Hash α κ} {c : Contents α κ} {op : Op α κ} {x : α} {key : κ}

omit [DecidableEq α] [DecidableEq κ] in
theorem holds_nullHash (memory : Handles α κ) : Holds hash (nullHash memory) [] :=
  ⟨rfl, fun _ he => absurd he List.not_mem_nil, rfl⟩

omit [DecidableEq κ] in
theorem map_fst_filter_ne (h : (c.map Prod.fst).Nodup) :
    (c.filter fun e => e.1 ≠ x).map Prod.fst = (c.map Prod.fst).erase x := by
  rw [h.erase_eq_filter, List.filter_map]
  congr 1
  apply List.filter_congr
  intro e _
  rw [Function.comp_apply, bne, beq_eq_decide, decide_not]

omit [DecidableEq κ] in
theorem Holds.add (h : Holds hash s c) (hx : x ∉ c.map Prod.fst) (key : κ) :
    ∃ s', hashAdd hash true s x key = .ok s' ∧ Holds hash s' (c ++ [(x, key)]) := by
  obtain ⟨s', hrun, htable, hkey, hbal⟩ := h.table.add hx h.balanced key
  refine ⟨s', hrun, ?_, ?_, hbal⟩
  · rwa [List.map_append, List.map_singleton]
  · intro e he
    rw [hkey]
    rcases List.mem_append.mp he with hold | hnew
    · have hne : e.1 ≠ x := ne_of_mem_of_not_mem (List.mem_map_of_mem hold) hx
      rw [update_of_ne hne, h.keys e hold]
    · obtain rfl := List.mem_singleton.mp hnew
      exact update_self ..

omit [DecidableEq κ] in
theorem Holds.delete (h : Holds hash s c) (hx : x ∈ c.map Prod.fst) :
    ∃ s', hashDelete s x = .ok s' ∧ Holds hash s' (c.filter fun e => e.1 ≠ x) := by
  obtain ⟨s', hrun, htable, hkey, hbal⟩ := h.table.delete hx h.balanced
  refine ⟨s', hrun, ?_, ?_, hbal⟩
  · rwa [map_fst_filter_ne h.table.nodup]
  · intro e he
    rw [hkey, h.keys e (List.mem_of_mem_filter he)]

omit [DecidableEq κ] in
theorem agree_overwrite (hs junk : Handles α κ) {order : List α} (hx : x ∉ order) :
    Agree hs (hs.overwrite junk x) order := by
  have hne : ∀ y ∈ order, y ≠ x := fun y hy => ne_of_mem_of_not_mem hy hx
  constructor <;> exact fun y hy => update_of_ne (hne y hy) _ _

omit [DecidableEq κ] in
theorem Holds.overwrite (h : Holds hash s c) (hx : x ∉ c.map Prod.fst) (junk : Handles α κ) :
    Holds hash { s with handles := s.handles.overwrite junk x } c := by
  have hagree := agree_overwrite s.handles junk hx
  refine ⟨?_, ?_, h.balanced⟩
  · have htable := h.table
    rw [IsTable] at htable ⊢
    cases hhead : s.head with
    | none => rwa [hhead] at htable
    | some p =>
        rw [hhead] at htable
        exact htable.congr hagree
  · intro e he
    exact (hagree.key e.1 (List.mem_map_of_mem he)).trans (h.keys e he)

omit [DecidableEq κ] in
/-- One operation, unless memory runs out. -/
theorem Holds.run (h : Holds hash s c) (hop : c.Allows op) :
    (∃ s', run hash s op = .ok s' ∧ Holds hash s' (c.after op)) ∨
      run hash s op = .error .fatal ∧ ∃ x key, op = .add x key false := by
  cases op with
  | add x key alloc =>
      obtain ⟨s', hrun, hs'⟩ := h.add hop key
      cases alloc with
      | true => exact Or.inl ⟨s', hrun, hs'⟩
      | false =>
          rcases hashAdd_false hash s x key with hfatal | hsame
          · exact Or.inr ⟨hfatal, x, key, rfl⟩
          · exact Or.inl ⟨s', hsame.trans hrun, hs'⟩
  | delete x => exact Or.inl (h.delete hop)
  | overwrite x junk => exact Or.inl ⟨_, rfl, h.overwrite hop junk⟩

omit [DecidableEq κ] in
theorem Holds.runAll {ops : List (Op α κ)} (h : Holds hash s c) (hops : c.AllowsAll ops) :
    (∃ s', runAll hash s ops = .ok s' ∧ Holds hash s' (ops.foldl Contents.after c)) ∨
      runAll hash s ops = .error .fatal ∧ ∃ x key, .add x key false ∈ ops := by
  induction ops generalizing s c with
  | nil => exact Or.inl ⟨s, rfl, h⟩
  | cons op ops ih =>
      rw [Uthash.runAll]
      rcases h.run hops.1 with ⟨s', hrun, hs'⟩ | ⟨hrun, x, key, rfl⟩
      · rw [hrun]
        rcases ih hs' hops.2 with hok | ⟨hfatal, x, key, hmem⟩
        · exact Or.inl hok
        · exact Or.inr ⟨hfatal, x, key, List.mem_cons_of_mem op hmem⟩
      · rw [hrun]
        exact Or.inr ⟨rfl, x, key, List.mem_cons_self⟩

omit [DecidableEq α] [DecidableEq κ] in
/-- An empty table is the null pointer. -/
theorem Holds.head_isSome (h : Holds hash s c) : s.head.isSome ↔ c ≠ [] := by
  have htable := h.table
  rw [IsTable] at htable
  cases hhead : s.head with
  | none =>
      rw [hhead] at htable
      simpa using htable
  | some p =>
      rw [hhead] at htable
      have hfirst := htable.head
      refine ⟨?_, fun _ => rfl⟩
      rintro - rfl
      exact absurd hfirst.symm (Option.some_ne_none p.1)

theorem Holds.shows (h : Holds hash s c) : Shows hash s c where
  elements := h.table.elements
  find key := by
    obtain ⟨found, hrun, hnone, hsome⟩ := h.table.find key
    have hin : ∀ x, found = some x → (x, key) ∈ c := by
      intro x hx
      obtain ⟨hmem, hkey⟩ := hsome x hx
      obtain ⟨e, he, rfl⟩ := List.mem_map.mp hmem
      rwa [← hkey, h.keys e he]
    refine ⟨found, hrun, ⟨?_, ?_⟩, hin⟩
    · rintro hfound hmem
      obtain ⟨e, he, rfl⟩ := List.mem_map.mp hmem
      exact hnone hfound e.1 (List.mem_map_of_mem he) (h.keys e he)
    · intro hnot
      cases hfound : found with
      | none => rfl
      | some x => exact absurd (List.mem_map_of_mem (hin x hfound)) hnot
  fsck := h.table.fsck
  blocks := by
    have hblocks := h.balanced
    rw [Balanced] at hblocks
    by_cases hc : c = []
    · have hnull : ¬ s.head.isSome := fun hsome => h.head_isSome.mp hsome hc
      rw [if_pos hc]
      rwa [if_neg hnull] at hblocks
    · rw [if_neg hc]
      rwa [if_pos (h.head_isSome.mpr hc)] at hblocks

/-! ## Loops that empty a table -/

omit [DecidableEq κ] in
theorem Holds.delete_head {e : α × κ} (h : Holds hash s (e :: c)) :
    ∃ s', hashDelete s e.1 = .ok s' ∧ Holds hash s' c := by
  obtain ⟨s', hrun, hs'⟩ := h.delete (x := e.1) List.mem_cons_self
  refine ⟨s', hrun, ?_⟩
  have hnot := (List.nodup_cons.mp h.table.nodup).1
  have hrest : ((e :: c).filter fun d => d.1 ≠ e.1) = c := by
    rw [List.filter_cons_of_neg (by simp), List.filter_eq_self]
    intro d hd
    exact decide_eq_true (ne_of_mem_of_not_mem (List.mem_map_of_mem hd) hnot)
  rwa [hrest] at hs'

omit [DecidableEq α] [DecidableEq κ] in
/-- `HASH_ITER` with a body that takes every element out of the table. -/
theorem hashIter_empty {σ : Type} (toHash : σ → Hash α κ) (body : σ → α → Except Stop σ)
    (I : Contents α κ → σ → Prop) {t : σ} (hholds : ∀ c t, I c t → Holds hash (toHash t) c)
    (hbody : ∀ e c t, I (e :: c) t → ∃ t', body t e.1 = .ok t' ∧ I c t') (h : I c t) :
    ∃ t', hashIter toHash body t = .ok t' ∧ I [] t' := by
  let R : List α → σ → Prop := fun rest t => ∃ c, c.map Prod.fst = rest ∧ I c t
  have hstep : ∀ a rest t, R (a :: rest) t → ∃ t', body t a = .ok t' ∧ R rest t' := by
    rintro a rest t ⟨c, hc, hI⟩
    obtain ⟨e, c, rfl, rfl, rfl⟩ := List.map_eq_cons_iff.mp hc
    obtain ⟨t', hrun, ht'⟩ := hbody e c t hI
    exact ⟨t', hrun, c, rfl, ht'⟩
  have hnext : ∀ a rest t, R (a :: rest) t → (toHash t).handles.next a = rest.head? := by
    rintro a rest t ⟨c, hc, hI⟩
    exact (hholds c t hI).table.next_of_append (hc.trans (List.nil_append _).symm)
  obtain ⟨t', hrun, c', hnil, ht'⟩ :=
    (hholds c t h).table.iter toHash body R hstep hnext ⟨c, rfl, h⟩
  rw [List.map_eq_nil_iff] at hnil
  exact ⟨t', hrun, hnil ▸ ht'⟩

end

/-- After any sequence of operations the table shows what was added and not deleted, for every
hash function; the process ends only where memory runs out, and no macro makes an access that
it must not make. -/
theorem runAll_shows (hash : κ → BitVec 32) (memory : Handles α κ) (ops : List (Op α κ))
    (hops : Contents.AllowsAll [] ops) :
    (∃ s, runAll hash (nullHash memory) ops = .ok s ∧
      Shows hash s (ops.foldl Contents.after [])) ∨
      runAll hash (nullHash memory) ops = .error .fatal ∧ ∃ x key, .add x key false ∈ ops := by
  rcases (holds_nullHash memory).runAll hops with ⟨s, hrun, hs⟩ | hfatal
  · exact Or.inl ⟨s, hrun, hs.shows⟩
  · exact Or.inr hfatal

/-- Two elements in a bucket, one of them deleted and its memory used again. -/
theorem runAll_shows_two :
    ∃ s, runAll (fun _ => 0#32)
        (nullHash ⟨some, some, some, some, fun _ => 0, fun _ => 0#32⟩)
        [.add 0 7 true, .add 1 8 true, .delete 0,
          .overwrite 0 ⟨some, some, some, some, id, fun _ => 1#32⟩] = .ok s ∧
      Shows (fun _ => 0#32) s [((1 : Nat), (8 : Nat))] := by
  rcases runAll_shows (fun _ => 0#32)
      ⟨some, some, some, some, fun _ => 0, fun _ => 0#32⟩
      [.add (0 : Nat) (7 : Nat) true, .add 1 8 true, .delete 0,
        .overwrite 0 ⟨some, some, some, some, id, fun _ => 1#32⟩]
      (by simp [Contents.AllowsAll, Contents.Allows, Contents.after]) with hok | ⟨-, x, key, hmem⟩
  · simpa [Contents.after] using hok
  · simp at hmem

end Margo.Uthash
