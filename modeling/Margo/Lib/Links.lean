import Mathlib.Data.List.Nodup
import Mathlib.Logic.Function.Basic

/-!
# Doubly linked nodes

The links of all nodes are two functions. A segment is a list of nodes linked
to each other in both directions, together with what its first node has before
it and its last node after it. A ring is a segment closed on itself; a list
with a tail pointer closes only its backward links.

Stores into links are updates of the two functions. A segment survives every
store into nodes outside it, and its ends are moved by one store each.
-/

namespace Margo.Lib.Links

open Function

variable {α : Type*}

/-- The nodes are linked to each other, the first one back to `p` and the last
one on to `n`. -/
def Seg (next prev : α → Option α) : Option α → List α → Option α → Prop
  | _, [], _ => True
  | p, a :: us, n => prev a = p ∧ next a = us.head?.or n ∧ Seg next prev (some a) us n

variable {next prev : α → Option α} {p n : Option α} {us : List α}

@[simp] theorem seg_nil : Seg next prev p [] n := trivial

@[simp] theorem seg_singleton {a : α} : Seg next prev p [a] n ↔ prev a = p ∧ next a = n := by
  simp [Seg]

theorem seg_cons {a : α} :
    Seg next prev p (a :: us) n ↔
      prev a = p ∧ next a = us.head?.or n ∧ Seg next prev (some a) us n :=
  Iff.rfl

theorem seg_append {xs ys : List α} :
    Seg next prev p (xs ++ ys) n ↔
      Seg next prev p xs (ys.head?.or n) ∧ Seg next prev (xs.getLast?.or p) ys n := by
  induction xs generalizing p with
  | nil => simp
  | cons a xs ih =>
      have hhead : (xs ++ ys).head?.or n = xs.head?.or (ys.head?.or n) := by
        rw [List.head?_append, Option.or_assoc]
      have hlast : (a :: xs).getLast?.or p = xs.getLast?.or (some a) := by
        rw [List.getLast?_cons]
        cases xs.getLast? <;> rfl
      rw [List.cons_append, seg_cons, seg_cons, ih, hhead, hlast]
      tauto

/-- Stores outside the segment do not change it. -/
theorem Seg.congr {next' prev' : α → Option α} (h : Seg next prev p us n)
    (hnext : ∀ a ∈ us, next' a = next a) (hprev : ∀ a ∈ us, prev' a = prev a) :
    Seg next' prev' p us n := by
  induction us generalizing p with
  | nil => trivial
  | cons a us ih =>
      obtain ⟨hp, hn, hrest⟩ := h
      refine ⟨?_, ?_, ?_⟩
      · rw [hprev a List.mem_cons_self, hp]
      · rw [hnext a List.mem_cons_self, hn]
      · apply ih hrest
        · exact fun b hb => hnext b (List.mem_cons_of_mem a hb)
        · exact fun b hb => hprev b (List.mem_cons_of_mem a hb)

theorem Seg.first {u : α} (h : Seg next prev p us n) (hu : us.head? = some u) : prev u = p := by
  cases us with
  | nil => cases hu
  | cons a us =>
      obtain rfl : a = u := Option.some.inj hu
      exact h.1

theorem Seg.last {t : α} (h : Seg next prev p us n) (ht : us.getLast? = some t) : next t = n := by
  obtain ⟨xs, rfl⟩ := List.getLast?_eq_some_iff.mp ht
  exact (seg_singleton.mp (seg_append.mp h).2).2

/-- The forward links and the ends say which list it is. -/
theorem Seg.eq_of_ends {prev' : α → Option α} {p' n' : Option α} {vs : List α}
    (h : Seg next prev p us n) (h' : Seg next prev' p' vs n') (hus : us.Nodup) (hvs : vs.Nodup)
    (hhead : us.head? = vs.head?) (hlast : us.getLast? = vs.getLast?) : us = vs := by
  induction us generalizing p p' vs with
  | nil => exact (List.head?_eq_none_iff.mp hhead.symm).symm
  | cons a us ih =>
      obtain ⟨vs, rfl⟩ := List.head?_eq_some_iff.mp hhead.symm
      obtain ⟨-, hnext, hrest⟩ := h
      obtain ⟨-, hnext', hrest'⟩ := h'
      obtain ⟨hnot, hus⟩ := List.nodup_cons.mp hus
      obtain ⟨hnot', hvs⟩ := List.nodup_cons.mp hvs
      cases us with
      | nil =>
          cases vs with
          | nil => rfl
          | cons v vs =>
              rw [List.getLast?_singleton, List.getLast?_cons_cons] at hlast
              exact absurd (List.mem_of_getLast? hlast.symm) hnot'
      | cons u us =>
          cases vs with
          | nil =>
              rw [List.getLast?_singleton, List.getLast?_cons_cons] at hlast
              exact absurd (List.mem_of_getLast? hlast) hnot
          | cons v vs =>
              rw [hnext] at hnext'
              rw [List.getLast?_cons_cons, List.getLast?_cons_cons] at hlast
              exact congrArg (a :: ·) (ih hrest hrest' hus hvs hnext' hlast)

variable [DecidableEq α]

theorem Seg.update_next {a : α} (h : Seg next prev p us n) (ha : a ∉ us) (v : Option α) :
    Seg (update next a v) prev p us n := by
  apply h.congr
  · intro b hb
    exact update_of_ne (ne_of_mem_of_not_mem hb ha) v next
  · exact fun _ _ => rfl

theorem Seg.update_prev {a : α} (h : Seg next prev p us n) (ha : a ∉ us) (v : Option α) :
    Seg next (update prev a v) p us n := by
  apply h.congr
  · exact fun _ _ => rfl
  · intro b hb
    exact update_of_ne (ne_of_mem_of_not_mem hb ha) v prev

/-- A store into the backward link of the first node moves the front end. -/
theorem Seg.relink_first {u : α} (h : Seg next prev p us n) (hnodup : us.Nodup)
    (hu : us.head? = some u) (p' : Option α) : Seg next (update prev u p') p' us n := by
  cases us with
  | nil => cases hu
  | cons a us =>
      obtain rfl : a = u := Option.some.inj hu
      obtain ⟨-, hn, hrest⟩ := h
      exact ⟨update_self .., hn, hrest.update_prev (List.nodup_cons.mp hnodup).1 p'⟩

/-- A store into the forward link of the last node moves the back end. -/
theorem Seg.relink_last {t : α} (h : Seg next prev p us n) (hnodup : us.Nodup)
    (ht : us.getLast? = some t) (n' : Option α) : Seg (update next t n') prev p us n' := by
  obtain ⟨xs, rfl⟩ := List.getLast?_eq_some_iff.mp ht
  obtain ⟨hxs, ht'⟩ := seg_append.mp h
  have hnot : t ∉ xs := by
    have hdisj := (List.nodup_append.mp hnodup).2.2
    exact fun hmem => hdisj t hmem t (List.mem_singleton_self t) rfl
  refine seg_append.mpr ⟨hxs.update_next hnot n', ?_⟩
  exact seg_singleton.mpr ⟨(seg_singleton.mp ht').1, update_self ..⟩

/-! ## Rings -/

omit [DecidableEq α] in
/-- Distinct nodes linked in a circle. -/
def Ring (next prev : α → Option α) (us : List α) : Prop :=
  us.Nodup ∧ Seg next prev us.getLast? us us.head?

omit [DecidableEq α] in
theorem ring_nil : Ring next prev [] := ⟨List.nodup_nil, trivial⟩

omit [DecidableEq α] in
theorem Ring.congr {next' prev' : α → Option α} (h : Ring next prev us)
    (hnext : ∀ a ∈ us, next' a = next a) (hprev : ∀ a ∈ us, prev' a = prev a) :
    Ring next' prev' us :=
  ⟨h.1, h.2.congr hnext hprev⟩

theorem Ring.update_next {a : α} (h : Ring next prev us) (ha : a ∉ us) (v : Option α) :
    Ring (update next a v) prev us :=
  ⟨h.1, h.2.update_next ha v⟩

theorem Ring.update_prev {a : α} (h : Ring next prev us) (ha : a ∉ us) (v : Option α) :
    Ring next (update prev a v) us :=
  ⟨h.1, h.2.update_prev ha v⟩

theorem ring_singleton (x : α) :
    Ring (update next x (some x)) (update prev x (some x)) [x] :=
  ⟨List.nodup_singleton x, seg_singleton.mpr ⟨update_self .., update_self ..⟩⟩

/-- Link a node in behind the last one. -/
theorem Ring.push {u t x : α} (h : Ring next prev us) (hu : us.head? = some u)
    (ht : us.getLast? = some t) (hx : x ∉ us) :
    Ring (update (update next t (some x)) x (some u)) (update (update prev u (some x)) x (some t))
      (us ++ [x]) := by
  have hhead : (us ++ [x]).head? = some u := by rw [List.head?_append, hu]; rfl
  have hdisj : us.Disjoint [x] := by simpa using hx
  refine ⟨h.1.append (List.nodup_singleton x) hdisj, ?_⟩
  rw [hhead, List.getLast?_concat, seg_append]
  constructor
  · have hlast := h.2.relink_last h.1 ht (some x)
    exact ((hlast.relink_first h.1 hu (some x)).update_next hx _).update_prev hx _
  · rw [seg_singleton, ht]
    exact ⟨update_self .., update_self ..⟩

/-- Unlink the first of several nodes. -/
theorem Ring.pop {u v t : α} (h : Ring next prev (u :: us)) (hv : us.head? = some v)
    (ht : us.getLast? = some t) :
    Ring (update next t (some v)) (update prev v (some t)) us := by
  have hnodup := (List.nodup_cons.mp h.1).2
  have hrest := (seg_cons.mp h.2).2.2
  refine ⟨hnodup, ?_⟩
  rw [hv, ht]
  exact (hrest.relink_last hnodup ht (some v)).relink_first hnodup hv (some t)

/-- Unlink a node that is neither the first nor the last one. -/
theorem Ring.delete_middle {xs ys : List α} {d t v : α} (h : Ring next prev (xs ++ d :: ys))
    (ht : xs.getLast? = some t) (hv : ys.head? = some v) :
    Ring (update next t (some v)) (update prev v (some t)) (xs ++ ys) := by
  obtain ⟨hnodupX, hnodupY, hdisj⟩ := List.nodup_append.mp h.1
  obtain ⟨hsegX, hsegY⟩ := seg_append.mp h.2
  have htx : t ∈ xs := List.mem_of_getLast? ht
  have hvy : v ∈ ys := List.mem_of_head? hv
  have hty : t ∉ ys := fun hmem => hdisj t htx t (List.mem_cons_of_mem d hmem) rfl
  have hvx : v ∉ xs := fun hmem => hdisj v hmem v (List.mem_cons_of_mem d hvy) rfl
  have hneX : xs ≠ [] := List.ne_nil_of_mem htx
  have hneY : ys ≠ [] := List.ne_nil_of_mem hvy
  have hlast : (xs ++ d :: ys).getLast? = (xs ++ ys).getLast? := by
    rw [List.getLast?_append_of_ne_nil _ (List.cons_ne_nil d ys),
      List.getLast?_cons_of_ne_nil hneY, List.getLast?_append_of_ne_nil _ hneY]
  have hhead : (xs ++ d :: ys).head? = (xs ++ ys).head? := by
    rw [List.head?_append_of_ne_nil _ hneX, List.head?_append_of_ne_nil _ hneX]
  have hnodupY' := (List.nodup_cons.mp hnodupY).2
  refine ⟨(List.nodup_cons.mp (List.perm_middle.nodup_iff.mp h.1)).2, ?_⟩
  rw [← hlast, ← hhead, seg_append, ht, hv]
  constructor
  · exact (hsegX.relink_last hnodupX ht (some v)).update_prev hvx _
  · exact ((seg_cons.mp hsegY).2.2.update_next hty _).relink_first hnodupY' hv _

omit [DecidableEq α] in
/-- In a ring every node has a node before it and a node after it. -/
theorem Ring.links_ne_none {d : α} (h : Ring next prev us) (hd : d ∈ us) :
    prev d ≠ none ∧ next d ≠ none := by
  obtain ⟨xs, ys, rfl⟩ := List.append_of_mem hd
  obtain ⟨-, hprev, hnext, -⟩ := seg_append.mp h.2
  rw [hprev, hnext, List.getLast?_append_cons, List.getLast?_cons, List.head?_append]
  constructor
  · cases xs.getLast? <;> exact Option.some_ne_none _
  · cases ys.head? <;> cases xs.head? <;> exact Option.some_ne_none _

omit [DecidableEq α] in
/-- The links of a ring stay in it. -/
theorem Ring.links_mem {d u v : α} (h : Ring next prev us) (hd : d ∈ us) (hu : prev d = some u)
    (hv : next d = some v) : u ∈ us ∧ v ∈ us := by
  obtain ⟨xs, ys, rfl⟩ := List.append_of_mem hd
  obtain ⟨-, hprev, hnext, -⟩ := seg_append.mp h.2
  rw [hu] at hprev
  rw [hv] at hnext
  constructor
  · obtain hlast | ⟨-, hlast⟩ := Option.or_eq_some_iff.mp hprev.symm
    · exact List.mem_append_left _ (List.mem_of_getLast? hlast)
    · exact List.mem_of_getLast? hlast
  · obtain hhead | ⟨-, hhead⟩ := Option.or_eq_some_iff.mp hnext.symm
    · exact List.mem_append_right _ (List.mem_cons_of_mem d (List.mem_of_head? hhead))
    · exact List.mem_of_head? hhead

/-! ## Forward links only -/

omit [DecidableEq α] in
/-- Distinct nodes linked forwards, with no node after the last one. -/
def Chain (next : α → Option α) (us : List α) : Prop :=
  us.Nodup ∧ ∃ prev, Seg next prev none us none

omit [DecidableEq α] in
theorem chain_nil : Chain next [] := ⟨List.nodup_nil, fun _ => none, trivial⟩

theorem chain_singleton (x : α) : Chain (update next x none) [x] :=
  ⟨List.nodup_singleton x, fun _ => none, seg_singleton.mpr ⟨rfl, update_self ..⟩⟩

theorem Chain.update_next {a : α} (h : Chain next us) (ha : a ∉ us) (v : Option α) :
    Chain (update next a v) us := by
  obtain ⟨hnodup, prev, hseg⟩ := h
  exact ⟨hnodup, prev, hseg.update_next ha v⟩

/-- Link a node in behind the last one. -/
theorem Chain.push {t x : α} (h : Chain next us) (ht : us.getLast? = some t) (hx : x ∉ us) :
    Chain (update (update next x none) t (some x)) (us ++ [x]) := by
  obtain ⟨hnodup, prev, hseg⟩ := h
  have hdisj : us.Disjoint [x] := by simpa using hx
  have hne : x ≠ t := (ne_of_mem_of_not_mem (List.mem_of_getLast? ht) hx).symm
  refine ⟨hnodup.append (List.nodup_singleton x) hdisj, update prev x (some t), ?_⟩
  rw [seg_append, seg_singleton, ht]
  refine ⟨?_, update_self .., ?_⟩
  · exact ((hseg.update_next hx none).relink_last hnodup ht (some x)).update_prev hx _
  · rw [update_of_ne hne, update_self]

/-- Unlink the first node. -/
theorem Chain.pop {u : α} (h : Chain next (u :: us)) :
    next u = us.head? ∧ Chain (update next u none) us := by
  obtain ⟨hnodup, prev, hseg⟩ := h
  obtain ⟨hnot, hrest⟩ := List.nodup_cons.mp hnodup
  obtain ⟨-, hnext, htail⟩ := seg_cons.mp hseg
  refine ⟨hnext.trans Option.or_none, hrest, ?_⟩
  cases us with
  | nil => exact ⟨prev, trivial⟩
  | cons v us =>
      refine ⟨update prev v none, ?_⟩
      exact (htail.relink_first hrest rfl none).update_next hnot none

/-! ## Lists with a link from the head to the tail -/

omit [DecidableEq α] in
/-- Distinct nodes in a list whose head links back to its tail. -/
def DList (next prev : α → Option α) (us : List α) : Prop :=
  us.Nodup ∧ Seg next prev us.getLast? us none

section

variable {xs ys : List α} {d u t v x : α}

omit [DecidableEq α] in
theorem dlist_nil : DList next prev [] := ⟨List.nodup_nil, trivial⟩

omit [DecidableEq α] in
theorem DList.congr {next' prev' : α → Option α} (h : DList next prev us)
    (hnext : ∀ a ∈ us, next' a = next a) (hprev : ∀ a ∈ us, prev' a = prev a) :
    DList next' prev' us :=
  ⟨h.1, h.2.congr hnext hprev⟩

omit [DecidableEq α] in
/-- What is before and after a node of a segment. -/
theorem Seg.links (h : Seg next prev p (xs ++ d :: ys) n) :
    prev d = xs.getLast?.or p ∧ next d = ys.head?.or n := by
  obtain ⟨-, hprev, hnext, -⟩ := seg_append.mp h
  exact ⟨hprev, hnext⟩

omit [DecidableEq α] in
/-- Every node of the list has a node before it, the tail for the head. -/
theorem DList.prev_ne_none (h : DList next prev us) (hd : d ∈ us) : prev d ≠ none := by
  obtain ⟨xs, ys, rfl⟩ := List.append_of_mem hd
  rw [(Seg.links h.2).1, List.getLast?_append_cons, List.getLast?_cons]
  cases xs.getLast? <;> exact Option.some_ne_none _

omit [DecidableEq α] in
theorem DList.first (h : DList next prev us) (hu : us.head? = some u) :
    prev u = us.getLast? :=
  Seg.first h.2 hu

theorem dlist_singleton (x : α) : DList (update next x none) (update prev x (some x)) [x] :=
  ⟨List.nodup_singleton x, seg_singleton.mpr ⟨update_self .., update_self ..⟩⟩

theorem DList.insert_first (h : DList next prev us) (hx : x ∉ us) (hu : us.head? = some u) :
    DList (update next x (some u)) (update (update prev x us.getLast?) u (some x)) (x :: us) := by
  have hne : us ≠ [] := fun hnil => by rw [hnil] at hu; cases hu
  have hxu : x ≠ u := (ne_of_mem_of_not_mem (List.mem_of_head? hu) hx).symm
  refine ⟨List.nodup_cons.mpr ⟨hx, h.1⟩, ?_⟩
  rw [List.getLast?_cons_of_ne_nil hne, seg_cons, hu]
  refine ⟨?_, update_self .., ?_⟩
  · rw [update_of_ne hxu, update_self]
  · exact ((h.2.update_next hx _).update_prev hx _).relink_first h.1 hu (some x)

theorem DList.insert_last (h : DList next prev us) (hx : x ∉ us) (hu : us.head? = some u)
    (ht : us.getLast? = some t) :
    DList (update (update next x none) t (some x)) (update (update prev x (some t)) u (some x))
      (us ++ [x]) := by
  have hxu : x ≠ u := (ne_of_mem_of_not_mem (List.mem_of_head? hu) hx).symm
  have hxt : x ≠ t := (ne_of_mem_of_not_mem (List.mem_of_getLast? ht) hx).symm
  have hdisj : us.Disjoint [x] := by simpa using hx
  refine ⟨h.1.append (List.nodup_singleton x) hdisj, ?_⟩
  rw [List.getLast?_concat, seg_append, seg_singleton, ht]
  refine ⟨?_, ?_, ?_⟩
  · exact ((h.2.update_next hx none).relink_last h.1 ht (some x)).update_prev hx _
      |>.relink_first h.1 hu (some x)
  · rw [update_of_ne hxu, update_self]
    rfl
  · rw [update_of_ne hxt, update_self]

theorem DList.insert_middle (h : DList next prev (xs ++ ys)) (hx : x ∉ xs ++ ys)
    (ht : xs.getLast? = some t) (hv : ys.head? = some v) :
    DList (update (update next x (some v)) t (some x)) (update (update prev x (some t)) v (some x))
      (xs ++ x :: ys) := by
  obtain ⟨hxs, hys⟩ : x ∉ xs ∧ x ∉ ys := by simpa using hx
  obtain ⟨hnodupX, hnodupY, hdisj⟩ := List.nodup_append.mp h.1
  obtain ⟨hsegX, hsegY⟩ := seg_append.mp h.2
  have htx : t ∈ xs := List.mem_of_getLast? ht
  have hvy : v ∈ ys := List.mem_of_head? hv
  have hxt : x ≠ t := (ne_of_mem_of_not_mem htx hxs).symm
  have hxv : x ≠ v := (ne_of_mem_of_not_mem hvy hys).symm
  have hty : t ∉ ys := fun hmem => hdisj t htx t hmem rfl
  have hvx : v ∉ xs := fun hmem => hdisj v hmem v hvy rfl
  have hne : ys ≠ [] := fun hnil => by rw [hnil] at hv; cases hv
  have hlast : (xs ++ x :: ys).getLast? = (xs ++ ys).getLast? := by
    rw [List.getLast?_append_of_ne_nil _ (List.cons_ne_nil x ys),
      List.getLast?_cons_of_ne_nil hne, List.getLast?_append_of_ne_nil _ hne]
  refine ⟨(List.perm_middle.nodup_iff).mpr (List.nodup_cons.mpr ⟨hx, h.1⟩), ?_⟩
  rw [hlast, seg_append, seg_cons, ht, hv]
  refine ⟨?_, ?_, ?_, ?_⟩
  · exact ((hsegX.update_next hxs _).relink_last hnodupX ht (some x)).update_prev hxs _
      |>.update_prev hvx _
  · rw [update_of_ne hxv, update_self]
    rfl
  · rw [update_of_ne hxt, update_self]
    rfl
  · exact ((hsegY.update_next hys _).update_next hty _).update_prev hys _
      |>.relink_first hnodupY hv (some x)

theorem DList.delete_first (h : DList next prev (d :: us)) (hv : us.head? = some v) :
    DList next (update prev v (prev d)) us := by
  have hnodup := (List.nodup_cons.mp h.1).2
  have hne : us ≠ [] := fun hnil => by rw [hnil] at hv; cases hv
  obtain ⟨hprev, -, hrest⟩ := seg_cons.mp h.2
  refine ⟨hnodup, ?_⟩
  rw [hprev, List.getLast?_cons_of_ne_nil hne]
  exact hrest.relink_first hnodup hv _

theorem DList.delete_last (h : DList next prev (us ++ [d])) (hu : us.head? = some u)
    (ht : us.getLast? = some t) :
    DList (update next t none) (update prev u (some t)) us := by
  have hnodup := (List.nodup_append.mp h.1).1
  refine ⟨hnodup, ?_⟩
  rw [ht]
  exact ((seg_append.mp h.2).1.relink_last hnodup ht none).relink_first hnodup hu _

theorem DList.delete_middle (h : DList next prev (xs ++ d :: ys)) (ht : xs.getLast? = some t)
    (hv : ys.head? = some v) :
    DList (update next t (some v)) (update prev v (some t)) (xs ++ ys) := by
  obtain ⟨hnodupX, hnodupY, hdisj⟩ := List.nodup_append.mp h.1
  obtain ⟨hsegX, hsegY⟩ := seg_append.mp h.2
  have hvy : v ∈ ys := List.mem_of_head? hv
  have hty : t ∉ ys := fun hmem =>
    hdisj t (List.mem_of_getLast? ht) t (List.mem_cons_of_mem d hmem) rfl
  have hvx : v ∉ xs := fun hmem => hdisj v hmem v (List.mem_cons_of_mem d hvy) rfl
  have hne : ys ≠ [] := fun hnil => by rw [hnil] at hv; cases hv
  have hlast : (xs ++ d :: ys).getLast? = (xs ++ ys).getLast? := by
    rw [List.getLast?_append_of_ne_nil _ (List.cons_ne_nil d ys),
      List.getLast?_cons_of_ne_nil hne, List.getLast?_append_of_ne_nil _ hne]
  have hnodupY' := (List.nodup_cons.mp hnodupY).2
  refine ⟨(List.nodup_cons.mp (List.perm_middle.nodup_iff.mp h.1)).2, ?_⟩
  rw [← hlast, seg_append, ht, hv]
  constructor
  · exact (hsegX.relink_last hnodupX ht (some v)).update_prev hvx _
  · exact ((seg_cons.mp hsegY).2.2.update_next hty _).relink_first hnodupY' hv _

end

end Margo.Lib.Links
