import Margo.Lib.Links
import Margo.Lib.Paths

/-!
# Rows of doubly linked nodes

A row is a list of distinct nodes linked to each other in both directions, with nothing
before the first one and nothing after the last one. Many rows can share one memory of
links: every node lies in the row of its slot, and only the first node of a row is pointed
to from outside.
-/

namespace Margo.Lib.Rows

open Function Links Paths

variable {α : Type*} {next prev : α → Option α} {us xs ys : List α} {d t x : α}

/-- Distinct nodes linked in both directions, with both ends open. -/
def Row (next prev : α → Option α) (us : List α) : Prop :=
  us.Nodup ∧ Seg next prev none us none

theorem row_nil : Row next prev [] := ⟨List.nodup_nil, trivial⟩

/-- Links of other nodes do not matter. -/
theorem Row.congr {next' prev' : α → Option α} (h : Row next prev us)
    (hnext : ∀ a ∈ us, next' a = next a) (hprev : ∀ a ∈ us, prev' a = prev a) :
    Row next' prev' us :=
  ⟨h.1, h.2.congr hnext hprev⟩

/-- What is before and after a node of a row. -/
theorem Row.links (h : Row next prev (xs ++ d :: ys)) :
    prev d = xs.getLast? ∧ next d = ys.head? := by
  have hlinks := Seg.links h.2
  rwa [Option.or_none, Option.or_none] at hlinks

/-- The forward links lead through the row. -/
theorem Row.path (h : Row next prev us) : Path next us.head? us := by
  have hseg : ∀ (p : Option α) (us : List α), Seg next prev p us none → Path next us.head? us := by
    intro p us
    induction us generalizing p with
    | nil => exact fun _ => rfl
    | cons a us ih =>
        rintro ⟨-, hnext, hrest⟩
        rw [Option.or_none] at hnext
        exact ⟨rfl, hnext ▸ ih (some a) hrest⟩
  exact hseg none us h.2

variable [DecidableEq α]

/-- `if (p) p->link = v`. -/
def store (link : α → Option α) (p v : Option α) : α → Option α :=
  match p with
  | none => link
  | some a => update link a v

@[simp] theorem store_none (link : α → Option α) (v : Option α) : store link none v = link := rfl

@[simp] theorem store_some (link : α → Option α) (a : α) (v : Option α) :
    store link (some a) v = update link a v := rfl

theorem store_of_ne {link : α → Option α} {p v : Option α} {a : α} (h : p ≠ some a) :
    store link p v a = link a := by
  cases p with
  | none => rfl
  | some b =>
      have hne : a ≠ b := fun hab => h (congrArg some hab.symm)
      exact update_of_ne hne v link

theorem row_singleton (x : α) : Row (update next x none) (update prev x none) [x] :=
  ⟨List.nodup_singleton x, seg_singleton.mpr ⟨update_self .., update_self ..⟩⟩

/-- Put a node before the first one. -/
theorem Row.push_front (h : Row next prev us) (hx : x ∉ us) :
    Row (update next x us.head?) (store (update prev x none) us.head? (some x)) (x :: us) := by
  refine ⟨List.nodup_cons.mpr ⟨hx, h.1⟩, ?_⟩
  cases us with
  | nil => exact seg_singleton.mpr ⟨update_self .., update_self ..⟩
  | cons u us =>
      have hne : x ≠ u := fun heq => hx (heq ▸ List.mem_cons_self)
      refine ⟨?_, update_self .., ?_⟩
      · rw [List.head?_cons, store_some, update_of_ne hne, update_self]
      · exact ((h.2.update_next hx _).update_prev hx _).relink_first h.1 rfl (some x)

/-- Put a node behind the last one. -/
theorem Row.push_back (h : Row next prev us) (hx : x ∉ us) (ht : us.getLast? = some t) :
    Row (update (update next x none) t (some x)) (update prev x (some t)) (us ++ [x]) := by
  have hne : x ≠ t := (ne_of_mem_of_not_mem (List.mem_of_getLast? ht) hx).symm
  have hdisj : us.Disjoint [x] := by simpa using hx
  refine ⟨h.1.append (List.nodup_singleton x) hdisj, ?_⟩
  rw [seg_append, seg_singleton, ht]
  refine ⟨?_, update_self .., ?_⟩
  · exact ((h.2.update_next hx none).relink_last h.1 ht (some x)).update_prev hx _
  · rw [update_of_ne hne, update_self]

/-- Take a node out: the nodes on its two sides are linked to each other. -/
theorem Row.delete (h : Row next prev (xs ++ d :: ys)) :
    Row (store next xs.getLast? ys.head?) (store prev ys.head? xs.getLast?) (xs ++ ys) := by
  obtain ⟨hnodupX, hnodupY, hdisj⟩ := List.nodup_append.mp h.1
  obtain ⟨hsegX, -, -, hsegY⟩ := seg_append.mp h.2
  have hnodupY' := (List.nodup_cons.mp hnodupY).2
  refine ⟨(List.nodup_cons.mp (List.perm_middle.nodup_iff.mp h.1)).2, ?_⟩
  rw [seg_append, Option.or_none, Option.or_none]
  constructor
  · have hlast : Seg (store next xs.getLast? ys.head?) prev none xs ys.head? := by
      cases ht : xs.getLast? with
      | none =>
          rw [List.getLast?_eq_none_iff.mp ht]
          trivial
      | some t => exact hsegX.relink_last hnodupX ht ys.head?
    apply hlast.congr
    · exact fun _ _ => rfl
    · intro a ha
      apply store_of_ne
      intro hv
      exact hdisj a ha a (List.mem_cons_of_mem d (List.mem_of_head? hv)) rfl
  · have hfirst : Seg next (store prev ys.head? xs.getLast?) xs.getLast? ys none := by
      cases hv : ys.head? with
      | none =>
          rw [List.head?_eq_none_iff.mp hv]
          trivial
      | some v => exact hsegY.relink_first hnodupY' hv xs.getLast?
    apply hfirst.congr
    · intro a ha
      apply store_of_ne
      intro ht
      exact hdisj a (List.mem_of_getLast? ht) a (List.mem_cons_of_mem d ha) rfl
    · exact fun _ _ => rfl

/-! ## Many rows in one memory -/

/-- The links of all nodes, and the first node of every row. -/
structure Memory (α : Type*) where
  next : α → Option α
  prev : α → Option α
  head : Nat → Option α

/-- Put a node before the first one of a row. -/
def Memory.push (m : Memory α) (i : Nat) (x : α) : Memory α where
  next := update m.next x (m.head i)
  prev := store (update m.prev x none) (m.head i) (some x)
  head := update m.head i (some x)

@[simp] theorem Memory.push_next (m : Memory α) (i : Nat) (x : α) :
    (m.push i x).next = update m.next x (m.head i) := rfl

@[simp] theorem Memory.push_prev (m : Memory α) (i : Nat) (x : α) :
    (m.push i x).prev = store (update m.prev x none) (m.head i) (some x) := rfl

@[simp] theorem Memory.push_head (m : Memory α) (i : Nat) (x : α) :
    (m.push i x).head = update m.head i (some x) := rfl

/-- Take a node out of its row. -/
def Memory.remove (m : Memory α) (i : Nat) (x : α) : Memory α where
  next := store m.next (m.prev x) (m.next x)
  prev := store m.prev (m.next x) (m.prev x)
  head := if m.head i = some x then update m.head i (m.next x) else m.head

@[simp] theorem Memory.remove_next (m : Memory α) (i : Nat) (x : α) :
    (m.remove i x).next = store m.next (m.prev x) (m.next x) := rfl

@[simp] theorem Memory.remove_prev (m : Memory α) (i : Nat) (x : α) :
    (m.remove i x).prev = store m.prev (m.next x) (m.prev x) := rfl

@[simp] theorem Memory.remove_head (m : Memory α) (i : Nat) (x : α) :
    (m.remove i x).head = if m.head i = some x then update m.head i (m.next x) else m.head := rfl

omit [DecidableEq α] in
/-- Every row is linked, starts at its head and consists of nodes of its slot. -/
structure Holds (m : Memory α) (slot : α → Nat) (rows : Nat → List α) : Prop where
  row : ∀ i, Row m.next m.prev (rows i)
  head : ∀ i, m.head i = (rows i).head?
  slot : ∀ i, ∀ x ∈ rows i, slot x = i

section

variable {m : Memory α} {slot : α → Nat} {rows : Nat → List α}

omit [DecidableEq α] in
theorem Holds.not_mem {i : Nat} (h : Holds m slot rows) (hx : x ∈ rows i) {j : Nat} (hne : j ≠ i) :
    x ∉ rows j :=
  fun hmem => hne ((h.slot j x hmem).symm.trans (h.slot i x hx))

omit [DecidableEq α] in
theorem holds_empty (next prev : α → Option α) (slot : α → Nat) :
    Holds ⟨next, prev, fun _ => none⟩ slot fun _ => [] where
  row _ := row_nil
  head _ := rfl
  slot _ _ hx := absurd hx List.not_mem_nil

theorem Holds.push (h : Holds m slot rows) (hx : x ∉ rows (slot x)) :
    Holds (m.push (slot x) x) slot (update rows (slot x) (x :: rows (slot x))) where
  row i := by
    by_cases hi : i = slot x
    · subst hi
      rw [update_self, Memory.push_next, Memory.push_prev, h.head]
      exact (h.row _).push_front hx
    · rw [update_of_ne hi]
      have hout : x ∉ rows i := fun hmem => hi (h.slot i x hmem).symm
      apply (h.row i).congr
      · intro a ha
        exact update_of_ne (ne_of_mem_of_not_mem ha hout) _ _
      · intro a ha
        rw [Memory.push_prev, h.head, store_of_ne]
        · exact update_of_ne (ne_of_mem_of_not_mem ha hout) _ _
        · intro hhead
          exact hi ((h.slot i a ha).symm.trans (h.slot _ a (List.mem_of_head? hhead)))
  head i := by
    by_cases hi : i = slot x
    · subst hi
      rw [Memory.push_head, update_self, update_self, List.head?_cons]
    · rw [Memory.push_head, update_of_ne hi, update_of_ne hi, h.head]
  slot i a ha := by
    by_cases hi : i = slot x
    · subst hi
      rw [update_self] at ha
      rcases List.mem_cons.mp ha with rfl | hold
      · rfl
      · exact h.slot _ a hold
    · rw [update_of_ne hi] at ha
      exact h.slot i a ha

theorem Holds.remove (h : Holds m slot rows) (hrow : rows (slot x) = xs ++ x :: ys) :
    Holds (m.remove (slot x) x) slot (update rows (slot x) (xs ++ ys)) where
  row i := by
    have hlinks := (hrow ▸ h.row (slot x)).links
    have hsub : ∀ a, a ∈ xs ++ ys → a ∈ rows (slot x) := by
      intro a ha
      rw [hrow]
      rcases List.mem_append.mp ha with hl | hr
      · exact List.mem_append_left _ hl
      · exact List.mem_append_right _ (List.mem_cons_of_mem x hr)
    rw [Memory.remove_next, Memory.remove_prev, hlinks.1, hlinks.2]
    by_cases hi : i = slot x
    · subst hi
      rw [update_self]
      exact (hrow ▸ h.row _).delete
    · rw [update_of_ne hi]
      have hother : ∀ a ∈ rows i, a ∉ rows (slot x) := fun a ha => h.not_mem ha (Ne.symm hi)
      apply (h.row i).congr
      · intro a ha
        apply store_of_ne
        intro hlast
        exact hother a ha (hsub a (List.mem_append_left _ (List.mem_of_getLast? hlast)))
      · intro a ha
        apply store_of_ne
        intro hhead
        exact hother a ha (hsub a (List.mem_append_right _ (List.mem_of_head? hhead)))
  head i := by
    have hlinks := (hrow ▸ h.row (slot x)).links
    have hnot : x ∉ xs := by
      have hnodup := (List.nodup_append.mp (hrow ▸ (h.row (slot x)).1)).2.2
      exact fun hmem => hnodup x hmem x List.mem_cons_self rfl
    rw [Memory.remove_head, h.head, hrow]
    cases xs with
    | nil =>
        rw [List.nil_append, List.head?_cons, if_pos rfl, hlinks.2]
        by_cases hi : i = slot x
        · subst hi
          rw [update_self, update_self, List.nil_append]
        · rw [update_of_ne hi, update_of_ne hi, h.head]
    | cons u us =>
        have hne : ¬ some u = some x := fun heq =>
          hnot (Option.some.inj heq ▸ List.mem_cons_self)
        rw [List.cons_append, List.head?_cons, if_neg hne, h.head]
        by_cases hi : i = slot x
        · subst hi
          rw [update_self, hrow, List.cons_append, List.cons_append]
          rfl
        · rw [update_of_ne hi]
  slot i a ha := by
    by_cases hi : i = slot x
    · subst hi
      rw [update_self] at ha
      apply h.slot
      rw [hrow]
      rcases List.mem_append.mp ha with hl | hr
      · exact List.mem_append_left _ hl
      · exact List.mem_append_right _ (List.mem_cons_of_mem x hr)
    · rw [update_of_ne hi] at ha
      exact h.slot i a ha

end

end Margo.Lib.Rows
