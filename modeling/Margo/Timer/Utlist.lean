import Margo.Lib.Links

/-!
# The list macros that the timers use

The `DL_` macros of `utlist.h` on the `prev` and `next` fields of all timers.

## Implementation notes

`none` as a whole result is a failed assertion of the macro or a run into a null
pointer. Each macro has one lemma that says what it does to a list; the links of
nodes outside of the list are kept, those of a deleted node too.
-/

namespace Margo.Timer

open Function Lib.Links

/-- The fields `next` and `prev` of all nodes. -/
structure Links (τ : Type*) where
  next : τ → Option τ
  prev : τ → Option τ

variable {τ : Type*} [DecidableEq τ]

/-- Store into `next`. -/
def Links.setNext (links : Links τ) (a : τ) (v : Option τ) : Links τ :=
  { links with next := update links.next a v }

/-- Store into `prev`. -/
def Links.setPrev (links : Links τ) (a : τ) (v : Option τ) : Links τ :=
  { links with prev := update links.prev a v }

/-- `DL_PREPEND`. -/
def dlPrepend (links : Links τ) (head : Option τ) (add : τ) : Links τ × Option τ :=
  let links := links.setNext add head
  match head with
  | some h => ((links.setPrev add (links.prev h)).setPrev h (some add), some add)
  | none => (links.setPrev add (some add), some add)

/-- `DL_APPEND`. -/
def dlAppend (links : Links τ) (head : Option τ) (add : τ) : Option (Links τ × Option τ) :=
  match head with
  | some h => do
      let links := links.setPrev add (links.prev h)
      let tail ← links.prev h
      let links := (links.setNext tail (some add)).setPrev h (some add)
      return (links.setNext add none, head)
  | none => some ((links.setPrev add (some add)).setNext add none, some add)

/-- `DL_APPEND_ELEM`, where `el` is not null. -/
def dlAppendElem (links : Links τ) (head : Option τ) (el add : τ) :
    Option (Links τ × Option τ) := do
  let h ← head
  let links := ((links.setNext add (links.next el)).setPrev add (some el)).setNext el (some add)
  match links.next add with
  | some after => return (links.setPrev after (some add), head)
  | none => return (links.setPrev h (some add), head)

/-- `DL_DELETE`. -/
def dlDelete (links : Links τ) (head : Option τ) (del : τ) : Option (Links τ × Option τ) := do
  let before ← links.prev del
  if before = del then return (links, none)
  else if head = some del then
    let after ← links.next del
    return (links.setPrev after (some before), some after)
  else
    let links := links.setNext before (links.next del)
    match links.next del with
    | some after => return (links.setPrev after (some before), head)
    | none =>
        let h ← head
        return (links.setPrev h (some before), head)

/-! ## What the macros do to a list -/

/-- The links hold the list. -/
def Links.Hold (links : Links τ) (us : List τ) : Prop := DList links.next links.prev us

/-- Nodes that are not among these keep their links. -/
def Links.Kept (us : List τ) (links links' : Links τ) : Prop :=
  ∀ a ∉ us, links'.next a = links.next a ∧ links'.prev a = links.prev a

section

variable {links : Links τ} {us xs ys : List τ} {t : τ}

theorem Links.Kept.setNext {links' : Links τ} {a : τ} (h : Kept us links links') (ha : a ∈ us)
    (v : Option τ) : Kept us links (links'.setNext a v) := by
  intro b hb
  refine ⟨?_, (h b hb).2⟩
  exact (update_of_ne (ne_of_mem_of_not_mem ha hb).symm ..).trans (h b hb).1

theorem Links.Kept.setPrev {links' : Links τ} {a : τ} (h : Kept us links links') (ha : a ∈ us)
    (v : Option τ) : Kept us links (links'.setPrev a v) := by
  intro b hb
  refine ⟨(h b hb).1, ?_⟩
  exact (update_of_ne (ne_of_mem_of_not_mem ha hb).symm ..).trans (h b hb).2

omit [DecidableEq τ] in
theorem Links.Kept.refl (us : List τ) (links : Links τ) : Kept us links links :=
  fun _ _ => ⟨rfl, rfl⟩

/-- `DL_APPEND` to an empty list. -/
theorem dlAppend_nil (links : Links τ) (t : τ) :
    ∃ links', dlAppend links none t = some (links', some t) ∧ links'.Hold [t] ∧
      Links.Kept [t] links links' := by
  refine ⟨_, rfl, dlist_singleton t, ?_⟩
  exact ((Links.Kept.refl [t] links).setPrev List.mem_cons_self _).setNext List.mem_cons_self _

/-- `DL_PREPEND` to a list that is not empty. -/
theorem dlPrepend_cons {u : τ} (h : links.Hold us) (hu : us.head? = some u) (ht : t ∉ us) :
    ∃ links', dlPrepend links (some u) t = (links', some t) ∧ links'.Hold (t :: us) ∧
      Links.Kept (t :: us) links links' := by
  refine ⟨_, rfl, ?_, ?_⟩
  · have hinsert := h.insert_first ht hu
    rw [← h.first hu] at hinsert
    exact hinsert
  · have hmem : u ∈ t :: us := List.mem_cons_of_mem t (List.mem_of_head? hu)
    exact (((Links.Kept.refl _ links).setNext List.mem_cons_self _).setPrev List.mem_cons_self _)
      |>.setPrev hmem _

/-- `DL_APPEND_ELEM` behind a node of the list. -/
theorem dlAppendElem_append {u el : τ} (h : links.Hold (xs ++ ys)) (hel : xs.getLast? = some el)
    (hu : xs.head? = some u) (ht : t ∉ xs ++ ys) :
    ∃ links', dlAppendElem links (some u) el t = some (links', some u) ∧
      links'.Hold (xs ++ t :: ys) ∧ Links.Kept (t :: (xs ++ ys)) links links' := by
  have hmem : el ∈ xs := List.mem_of_getLast? hel
  have hne : t ≠ el := fun heq => ht (List.mem_append_left _ (heq ▸ hmem))
  have hnext : links.next el = ys.head? := by
    obtain ⟨ws, rfl⟩ := List.getLast?_eq_some_iff.mp hel
    have hlinks := h.2
    rw [List.append_assoc, List.singleton_append] at hlinks
    exact hlinks.links.2.trans Option.or_none
  have hkept : Links.Kept (t :: (xs ++ ys)) links
      (((links.setNext t ys.head?).setPrev t (some el)).setNext el (some t)) :=
    (((Links.Kept.refl _ links).setNext List.mem_cons_self _).setPrev List.mem_cons_self _)
      |>.setNext (List.mem_cons_of_mem t (List.mem_append_left _ hmem)) _
  have hread : (((links.setNext t ys.head?).setPrev t (some el)).setNext el (some t)).next t =
      ys.head? := by
    simp [Links.setNext, Links.setPrev, update_of_ne hne]
  unfold dlAppendElem
  simp only [Option.bind_eq_bind, Option.bind_some, hnext, hread]
  cases hv : ys.head? with
  | some v =>
      rw [hv] at hkept
      refine ⟨_, rfl, h.insert_middle ht hel hv, hkept.setPrev ?_ _⟩
      exact List.mem_cons_of_mem t (List.mem_append_right _ (List.mem_of_head? hv))
  | none =>
      rw [hv] at hkept
      obtain rfl : ys = [] := List.head?_eq_none_iff.mp hv
      rw [List.append_nil] at h ht
      refine ⟨_, rfl, h.insert_last ht hu hel, hkept.setPrev ?_ _⟩
      exact List.mem_cons_of_mem t (List.mem_append_left _ (List.mem_of_head? hu))

/-- `DL_DELETE` of the only node. -/
theorem dlDelete_singleton (h : links.Hold [t]) :
    dlDelete links (some t) t = some (links, none) := by
  have hprev : links.prev t = some t := (seg_singleton.mp h.2).1
  rw [dlDelete, hprev]
  exact if_pos rfl

/-- `DL_DELETE` of the head. -/
theorem dlDelete_cons {v : τ} (h : links.Hold (t :: ys)) (hv : ys.head? = some v) :
    dlDelete links (some t) t = some (links.setPrev v (links.prev t), some v) := by
  obtain ⟨hnot, -⟩ := List.nodup_cons.mp h.1
  obtain ⟨hprev, hnext, -⟩ := seg_cons.mp h.2
  have hne : ys ≠ [] := fun hnil => by rw [hnil] at hv; cases hv
  rw [List.getLast?_cons_of_ne_nil hne, List.getLast?_eq_some_getLast hne] at hprev
  have hlast : ys.getLast hne ≠ t := ne_of_mem_of_not_mem (List.getLast_mem hne) hnot
  rw [hv] at hnext
  rw [dlDelete, hprev, hnext]
  exact (if_neg hlast).trans (if_pos rfl)

/-- `DL_DELETE` of a node behind the head. -/
theorem dlDelete_behind {u el : τ} (h : links.Hold (xs ++ t :: ys)) (hu : xs.head? = some u)
    (hel : xs.getLast? = some el) :
    dlDelete links (some u) t =
      some ((links.setNext el ys.head?).setPrev (ys.head?.getD u) (some el), some u) := by
  have hnot : t ∉ xs := fun hmem =>
    (List.nodup_append.mp h.1).2.2 t hmem t List.mem_cons_self rfl
  have hne : el ≠ t := ne_of_mem_of_not_mem (List.mem_of_getLast? hel) hnot
  have hhead : some u ≠ some t := by
    rw [ne_eq, Option.some.injEq]
    exact ne_of_mem_of_not_mem (List.mem_of_head? hu) hnot
  obtain ⟨hprev, hnext⟩ := Seg.links h.2
  rw [hel] at hprev
  rw [Option.or_none] at hnext
  have hread : (links.setNext el ys.head?).next t = ys.head? :=
    (update_of_ne hne.symm ..).trans hnext
  unfold dlDelete
  rw [hprev, Option.some_or, Option.bind_eq_bind, Option.bind_some, if_neg hne, if_neg hhead, hnext]
  simp only [hread]
  cases ys.head? <;> rfl

/-- `DL_DELETE` of a node of the list. -/
theorem dlDelete_append (h : links.Hold (xs ++ t :: ys)) :
    ∃ links', dlDelete links (xs ++ t :: ys).head? t = some (links', (xs ++ ys).head?) ∧
      links'.Hold (xs ++ ys) ∧ Links.Kept (xs ++ ys) links links' := by
  cases hu : xs.head? with
  | none =>
      obtain rfl : xs = [] := List.head?_eq_none_iff.mp hu
      cases hv : ys.head? with
      | none =>
          obtain rfl : ys = [] := List.head?_eq_none_iff.mp hv
          exact ⟨links, dlDelete_singleton h, dlist_nil, .refl _ _⟩
      | some v =>
          refine ⟨links.setPrev v (links.prev t), ?_, DList.delete_first h hv, ?_⟩
          · rw [List.nil_append, List.nil_append, hv]
            exact dlDelete_cons h hv
          · exact (Links.Kept.refl _ links).setPrev (List.mem_of_head? hv) _
  | some u =>
      have hne : xs ≠ [] := fun hnil => by rw [hnil] at hu; cases hu
      have hel : xs.getLast? = some (xs.getLast hne) := List.getLast?_eq_some_getLast hne
      have hmem : xs.getLast hne ∈ xs ++ ys := List.mem_append_left _ (List.getLast_mem hne)
      have hdelete := dlDelete_behind h hu hel
      have hhead (zs : List τ) : (xs ++ zs).head? = some u := by
        rw [List.head?_append_of_ne_nil _ hne, hu]
      rw [hhead, hhead, hdelete]
      cases hv : ys.head? with
      | none =>
          obtain rfl : ys = [] := List.head?_eq_none_iff.mp hv
          rw [List.append_nil] at hmem ⊢
          refine ⟨_, rfl, DList.delete_last h hu hel, ?_⟩
          exact ((Links.Kept.refl _ links).setNext hmem _).setPrev (List.mem_of_head? hu) _
      | some v =>
          refine ⟨_, rfl, DList.delete_middle h hel hv, ?_⟩
          have hvmem : v ∈ xs ++ ys := List.mem_append_right _ (List.mem_of_head? hv)
          exact ((Links.Kept.refl _ links).setNext hmem _).setPrev hvmem _

end

end Margo.Timer
