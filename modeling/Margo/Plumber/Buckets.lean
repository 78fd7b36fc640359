import Margo.Plumber.Model
import Mathlib.Data.List.Flatten
import Mathlib.Data.List.Perm.Basic
import Mathlib.Tactic.Common

/-!
# The buckets of the network cards

Every card on the PCI bus is put into the bucket of its place, in the order of libfabric, or
there are no buckets. The arrays of the buckets are released, the names in them are not.
-/

namespace Margo.Plumber

open Lib Lib.Ledger
open Hg (CStr)

variable {t : Topology} {r : Replies} {bucketPolicy : String} {n : Int}
  {interfaces : List Interface} {buckets buckets' : List Bucket} {w w' base : Ledger Object}
  {owned : List (Object × Nat)}

/-! ## The cards of a bucket -/

/-- The place of a card. -/
def Interface.place (t : Topology) (cur : Interface) : Option Place := cur.pci.bind t.pcidev

/-- The bucket of a card. -/
def Interface.bucket (t : Topology) (bucketPolicy : String) (n : Int) (cur : Interface) :
    Option Int :=
  (cur.place t).bind (bucketIndex bucketPolicy n)

/-- The cards on the PCI bus. -/
def pciCards (interfaces : List Interface) : List Interface :=
  interfaces.filter fun cur => cur.pci.isSome

/-- The names of the cards of a bucket. -/
def cards (t : Topology) (bucketPolicy : String) (n : Int) (interfaces : List Interface) (i : Int) :
    List String :=
  (interfaces.filter fun cur => cur.bucket t bucketPolicy n == some i).map Interface.name

/-- The names in a bucket. -/
def Bucket.names (b : Bucket) : List String := b.nics.map CStr.text

theorem pciCards_cons_of_none {cur : Interface} (h : cur.pci = none) :
    pciCards (cur :: interfaces) = pciCards interfaces :=
  List.filter_cons_of_neg (by rw [h]; exact Bool.false_ne_true)

theorem pciCards_cons_of_isSome {cur : Interface} (h : cur.pci.isSome) :
    pciCards (cur :: interfaces) = cur :: pciCards interfaces :=
  List.filter_cons_of_pos h

theorem cards_cons_of_eq {cur : Interface} {i : Int}
    (h : cur.bucket t bucketPolicy n = some i) :
    cards t bucketPolicy n (cur :: interfaces) i =
      cur.name :: cards t bucketPolicy n interfaces i := by
  rw [cards, List.filter_cons_of_pos (by rw [h, beq_self_eq_true]), List.map_cons, cards]

theorem cards_cons_of_ne {cur : Interface} {i : Int}
    (h : cur.bucket t bucketPolicy n ≠ some i) :
    cards t bucketPolicy n (cur :: interfaces) i = cards t bucketPolicy n interfaces i := by
  rw [cards, List.filter_cons_of_neg (by rw [beq_iff_eq]; exact h), cards]

/-! ## One card -/

/-- What the loop does with one card. -/
inductive Placed (t : Topology) (bucketPolicy : String) (n : Int) (cur : Interface)
    (buckets : List Bucket) (w : Ledger Object) : Filled → Prop
  | refused : Placed t bucketPolicy n cur buckets w (.error buckets w)
  | unnamed {i : Nat} {b : Bucket} (hb : buckets[i]? = some b) :
      Placed t bucketPolicy n cur buckets w
        (.error (buckets.set i (reallocArray b w).1) (reallocArray b w).2)
  | added {i : Nat} {b : Bucket} (hb : buckets[i]? = some b) (hi : (i : Int) < n)
      (hplace : cur.bucket t bucketPolicy n = some (i : Int)) :
      Placed t bucketPolicy n cur buckets w
        (.done (buckets.set i (addName (reallocArray b w).1 cur.name (reallocArray b w).2).1)
          (addName (reallocArray b w).1 cur.name (reallocArray b w).2).2)
  | crashed : Placed t bucketPolicy n cur buckets w .crash

/-- The loop after one card. -/
def Filled.andThen (f : List Bucket → Ledger Object → Filled) : Filled → Filled
  | .done buckets w => f buckets w
  | .error buckets w => .error buckets w
  | .crash => .crash

theorem fill_cons (cur : Interface) (rest : List Interface) (buckets : List Bucket)
    (w : Ledger Object) :
    (cur.pci = none ∧
        fill t bucketPolicy n (cur :: rest) buckets w = fill t bucketPolicy n rest buckets w) ∨
      (cur.pci.isSome ∧ ∃ f, Placed t bucketPolicy n cur buckets w f ∧
        fill t bucketPolicy n (cur :: rest) buckets w =
          f.andThen (fill t bucketPolicy n rest)) := by
  rw [fill]
  cases hpci : cur.pci with
  | none => exact .inl ⟨rfl, rfl⟩
  | some pci =>
      refine .inr ⟨rfl, ?_⟩
      dsimp only
      cases hdev : t.pcidev pci with
      | none => exact ⟨_, .refused, rfl⟩
      | some dev =>
          dsimp only
          cases hindex : bucketIndex bucketPolicy n dev with
          | none => exact ⟨_, .crashed, rfl⟩
          | some i =>
              dsimp only
              split
              · exact ⟨_, .refused, rfl⟩
              · next b hb =>
                  split at hb
                  · cases hb
                  · next hrange =>
                      have hlower : 0 ≤ i := by
                        simp only [Bool.or_eq_true, decide_eq_true_eq, not_or, not_lt] at hrange
                        exact hrange.1
                      have hupper : i < n := by
                        simp only [Bool.or_eq_true, decide_eq_true_eq, not_or, ge_iff_le,
                          not_le] at hrange
                        exact hrange.2
                      have hcast : ((i.toNat : Nat) : Int) = i := Int.toNat_of_nonneg hlower
                      split
                      · exact ⟨_, .refused, rfl⟩
                      · split
                        · exact ⟨_, .unnamed hb, rfl⟩
                        · refine ⟨_, .added hb (hcast.symm ▸ hupper) ?_, rfl⟩
                          rw [Interface.bucket, Interface.place, hpci, Option.bind_some, hdev,
                            Option.bind_some, hindex, hcast]

/-! ## The loop -/

/-- The names in all buckets. -/
def allNames (buckets : List Bucket) : List String := buckets.flatMap Bucket.names

@[simp] theorem names_reallocArray (b : Bucket) (w : Ledger Object) :
    (reallocArray b w).1.names = b.names := rfl

@[simp] theorem names_addName (b : Bucket) (name : String) (w : Ledger Object) :
    (addName b name w).1.names = b.names ++ [name] := List.map_append ..

theorem perm_set {i : Nat} {b : Bucket} (b' : Bucket) (hb : buckets[i]? = some b) {α : Type}
    (f : Bucket → List α) :
    ((buckets.set i b').flatMap f).Perm (f b' ++ (buckets.eraseIdx i).flatMap f) ∧
      (buckets.flatMap f).Perm (f b ++ (buckets.eraseIdx i).flatMap f) := by
  obtain ⟨hi, rfl⟩ := List.getElem?_eq_some_iff.mp hb
  have hset : i < (buckets.set i b').length := by rwa [List.length_set]
  constructor
  · have hperm := (List.getElem_cons_eraseIdx_perm hset).symm.flatMap_right f
    rwa [List.getElem_set_self, List.eraseIdx_set_eq, List.flatMap_cons] at hperm
  · exact (List.getElem_cons_eraseIdx_perm hi).symm.flatMap_right f

/-- A card that is put into a bucket is one name more. -/
theorem allNames_set {i : Nat} {b b' : Bucket} {added : List String}
    (hb : buckets[i]? = some b) (hnames : b'.names = b.names ++ added) :
    (allNames (buckets.set i b')).Perm (allNames buckets ++ added) := by
  obtain ⟨hset, hold⟩ := perm_set b' hb Bucket.names
  calc allNames (buckets.set i b')
    _ |>.Perm (b'.names ++ (buckets.eraseIdx i).flatMap Bucket.names) := hset
    _ = b.names ++ (added ++ (buckets.eraseIdx i).flatMap Bucket.names) := by
      rw [hnames, List.append_assoc]
    _ |>.Perm (b.names ++ ((buckets.eraseIdx i).flatMap Bucket.names ++ added)) :=
      List.perm_append_comm.append_left _
    _ = b.names ++ (buckets.eraseIdx i).flatMap Bucket.names ++ added :=
      (List.append_assoc _ _ _).symm
    _ |>.Perm (allNames buckets ++ added) := hold.symm.append_right added

/-- Each bucket gets its cards, in their order. -/
theorem fill_bucket (h : fill t bucketPolicy n interfaces buckets w = .done buckets' w') (i : Nat) :
    buckets'[i]?.map Bucket.names =
      buckets[i]?.map fun b => b.names ++ cards t bucketPolicy n interfaces i := by
  induction interfaces generalizing buckets w with
  | nil =>
      obtain ⟨rfl, -⟩ := Filled.done.inj h
      simp only [cards, List.filter_nil, List.map_nil, List.append_nil]
  | cons cur rest ih =>
      rcases fill_cons (t := t) (n := n) cur rest buckets w with
        ⟨hpci, heq⟩ | ⟨-, f, hplaced, heq⟩
      · have hnone : cur.bucket t bucketPolicy n ≠ some (i : Int) := by
          rw [Interface.bucket, Interface.place, hpci, Option.bind_none, Option.bind_none]
          exact Option.some_ne_none _ |>.symm
        rw [ih (heq.symm.trans h), cards_cons_of_ne hnone]
      · rw [heq] at h
        cases hplaced with
        | refused => cases h
        | unnamed _ => cases h
        | crashed => cases h
        | @added j b hb _ hplace =>
            rw [ih h, List.getElem?_set]
            by_cases hij : j = i
            · subst hij
              have hj : j < buckets.length := (List.getElem?_eq_some_iff.mp hb).1
              rw [if_pos rfl, if_pos hj, hb, Option.map_some, Option.map_some,
                cards_cons_of_eq hplace]
              rw [names_addName, names_reallocArray, List.append_assoc, List.singleton_append]
            · have hother : cur.bucket t bucketPolicy n ≠ some (i : Int) := by
                rw [hplace]
                intro hsome
                exact hij (Int.ofNat_inj.mp (Option.some.inj hsome))
              rw [if_neg hij, cards_cons_of_ne hother]

/-- After the loop every card has a bucket. -/
theorem fill_inRange (h : fill t bucketPolicy n interfaces buckets w = .done buckets' w') :
    ∀ cur ∈ pciCards interfaces, ∃ i : Nat, (i : Int) < n ∧
      cur.bucket t bucketPolicy n = some (i : Int) := by
  induction interfaces generalizing buckets w with
  | nil => exact fun _ hcur => absurd hcur List.not_mem_nil
  | cons card rest ih =>
      intro cur hcur
      rcases fill_cons (t := t) (n := n) card rest buckets w with
        ⟨hpci, heq⟩ | ⟨hpci, f, hplaced, heq⟩
      · rw [pciCards_cons_of_none hpci] at hcur
        exact ih (heq.symm.trans h) cur hcur
      · rw [pciCards_cons_of_isSome hpci] at hcur
        rw [heq] at h
        cases hplaced with
        | refused => cases h
        | unnamed _ => cases h
        | crashed => cases h
        | added _ hi hplace =>
            rcases List.mem_cons.mp hcur with rfl | hrest
            · exact ⟨_, hi, hplace⟩
            · exact ih h cur hrest

/-- What holds of the buckets after the loop, and after an error. -/
def Filled.Holds (P Q : List Bucket → Ledger Object → Prop) : Filled → Prop
  | .done buckets w => P buckets w
  | .error buckets w => Q buckets w
  | .crash => True

theorem Filled.Holds.imp {P P' Q Q' : List Bucket → Ledger Object → Prop} {f : Filled}
    (h : f.Holds P Q) (hdone : ∀ buckets w, P buckets w → P' buckets w)
    (herror : ∀ buckets w, Q buckets w → Q' buckets w) : f.Holds P' Q' := by
  cases f with
  | done buckets w => exact hdone buckets w h
  | error buckets w => exact herror buckets w h
  | crash => exact trivial

theorem perm_append_cons {all l l' names : List String} {name : String}
    (hset : l'.Perm (l ++ [name])) (h : all.Perm (l' ++ names)) :
    all.Perm (l ++ name :: names) := by
  apply (h.trans (hset.append_right names)).trans
  rw [List.append_assoc, List.singleton_append]

/-- The names in the buckets are those of the cards so far. -/
theorem fill_names (t : Topology) (bucketPolicy : String) (n : Int)
    (interfaces : List Interface) (buckets : List Bucket) (w : Ledger Object) :
    (fill t bucketPolicy n interfaces buckets w).Holds
      (fun buckets' _ => (allNames buckets').Perm
        (allNames buckets ++ (pciCards interfaces).map Interface.name))
      (fun buckets' _ => ∃ placed, placed <+: pciCards interfaces ∧
        (allNames buckets').Perm (allNames buckets ++ placed.map Interface.name)) := by
  induction interfaces generalizing buckets w with
  | nil =>
      rw [fill, Filled.Holds, pciCards, List.filter_nil, List.map_nil, List.append_nil]
  | cons cur rest ih =>
      have hnone : ∃ placed, placed <+: pciCards (cur :: rest) ∧
          (allNames buckets).Perm (allNames buckets ++ placed.map Interface.name) := by
        refine ⟨[], List.nil_prefix, ?_⟩
        rw [List.map_nil, List.append_nil]
      rcases fill_cons (t := t) (n := n) cur rest buckets w with
        ⟨hpci, heq⟩ | ⟨hpci, f, hplaced, heq⟩
      · rw [heq, pciCards_cons_of_none hpci]
        exact ih buckets w
      · rw [heq]
        cases hplaced with
        | refused => exact hnone
        | crashed => exact trivial
        | unnamed hb =>
            obtain ⟨placed, hprefix, hperm⟩ := hnone
            refine ⟨placed, hprefix, List.Perm.trans ?_ hperm⟩
            have hset := allNames_set hb ((names_reallocArray _ w).trans (List.append_nil _).symm)
            rwa [List.append_nil] at hset
        | @added i b hb _ _ =>
            have hset := allNames_set hb (names_addName (reallocArray b w).1 cur.name
              (reallocArray b w).2)
            rw [pciCards_cons_of_isSome hpci]
            apply (ih _ _).imp
            · exact fun _ _ hperm => perm_append_cons hset hperm
            · rintro _ _ ⟨placed, hprefix, hperm⟩
              exact ⟨cur :: placed, List.cons_prefix_cons.mpr ⟨rfl, hprefix⟩,
                perm_append_cons hset hperm⟩

/-- Nothing keeps the card from its bucket. -/
structure Ready (t : Topology) (bucketPolicy : String) (n : Int) (cur : Interface) : Prop where
  realloc : cur.realloc = true
  strdup : cur.strdup = true
  inRange : ∃ i : Nat, (i : Int) < n ∧ cur.bucket t bucketPolicy n = some (i : Int)

theorem fill_cons_ready {cur : Interface} (rest : List Interface) (w : Ledger Object)
    (hready : Ready t bucketPolicy n cur) (hlength : (buckets.length : Int) = n) :
    ∃ buckets' w', buckets'.length = buckets.length ∧
      fill t bucketPolicy n (cur :: rest) buckets w =
        fill t bucketPolicy n rest buckets' w' := by
  obtain ⟨i, hi, hbucket⟩ := hready.inRange
  obtain ⟨place, hplace, hindex⟩ := Option.bind_eq_some_iff.mp hbucket
  obtain ⟨pci, hpci, hdev⟩ := Option.bind_eq_some_iff.mp hplace
  have hlt : i < buckets.length := by omega
  have hrange : ¬((i : Int) < 0 ∨ n ≤ i) := by omega
  refine ⟨buckets.set i (addName (reallocArray buckets[i] w).1 cur.name
    (reallocArray buckets[i] w).2).1, (addName (reallocArray buckets[i] w).1 cur.name
    (reallocArray buckets[i] w).2).2, List.length_set, ?_⟩
  rw [fill, hpci]
  dsimp only
  rw [hdev]
  dsimp only
  rw [hindex]
  simp only [ge_iff_le, Bool.or_eq_true, decide_eq_true_eq, hrange, if_false, Int.toNat_natCast,
    List.getElem?_eq_getElem hlt, hready.realloc, hready.strdup, Bool.not_true,
    Bool.false_eq_true]

/-- If nothing keeps the cards from their buckets, the loop runs to its end. -/
theorem fill_ready (w : Ledger Object)
    (hready : ∀ cur ∈ pciCards interfaces, Ready t bucketPolicy n cur)
    (hlength : (buckets.length : Int) = n) :
    ∃ buckets' w', fill t bucketPolicy n interfaces buckets w = .done buckets' w' := by
  induction interfaces generalizing buckets w with
  | nil => exact ⟨buckets, w, rfl⟩
  | cons cur rest ih =>
      cases hpci : cur.pci with
      | none =>
          rw [pciCards_cons_of_none hpci] at hready
          rw [fill, hpci]
          exact ih w hready hlength
      | some pci =>
          rw [pciCards_cons_of_isSome (hpci ▸ rfl)] at hready
          obtain ⟨buckets', w', hsame, hfill⟩ :=
            fill_cons_ready rest w (hready cur List.mem_cons_self) hlength
          rw [hfill]
          exact ih w' (fun cur hcur => hready cur (List.mem_cons_of_mem _ hcur)) (hsame ▸ hlength)

/-! ## What the buckets own -/

/-- The array of a bucket. -/
def Bucket.arrayObject (b : Bucket) : List (Object × Nat) :=
  match b.array with
  | none => []
  | some a => [(.block, a)]

/-- The names in a bucket. -/
def Bucket.nameObjects (b : Bucket) : List (Object × Nat) :=
  b.nics.map fun nic => (.block, nic.address)

/-- The array and the names. -/
def Bucket.objects (b : Bucket) : List (Object × Nat) := b.arrayObject ++ b.nameObjects

theorem owns_freeArray {b : Bucket} (h : base.Owns w (b.arrayObject ++ owned)) :
    base.Owns (freeArray b w) owned := by
  rw [Bucket.arrayObject] at h
  rw [freeArray]
  cases harray : b.array with
  | none =>
      rw [harray] at h
      exact h
  | some a =>
      rw [harray] at h
      exact h.release

theorem owns_reallocArray {b : Bucket} (h : base.Owns w (b.objects ++ owned)) :
    base.Owns (reallocArray b w).2 ((reallocArray b w).1.objects ++ owned) := by
  rw [Bucket.objects, List.append_assoc] at h
  exact (owns_freeArray h).create .block

theorem owns_addName {b : Bucket} (h : base.Owns w (b.objects ++ owned)) (name : String) :
    base.Owns (addName b name w).2 ((addName b name w).1.objects ++ owned) := by
  apply (h.create .block).perm
  have hnames : (addName b name w).1.objects = b.objects ++ [(.block, w.next)] := by
    rw [Bucket.objects, Bucket.objects, List.append_assoc]
    exact congrArg (b.arrayObject ++ ·) List.map_append
  rw [hnames, List.append_assoc, List.singleton_append]
  exact List.perm_middle.symm

/-- One bucket changes with what it owns. -/
theorem owns_set {i : Nat} {b b' : Bucket} (hb : buckets[i]? = some b)
    (hstep : ∀ {owned}, base.Owns w (b.objects ++ owned) → base.Owns w' (b'.objects ++ owned))
    (h : base.Owns w (buckets.flatMap Bucket.objects ++ owned)) :
    base.Owns w' ((buckets.set i b').flatMap Bucket.objects ++ owned) := by
  obtain ⟨hset, hold⟩ := perm_set b' hb Bucket.objects
  have hfirst := h.perm (hold.append_right owned)
  rw [List.append_assoc] at hfirst
  apply (hstep hfirst).perm
  rw [← List.append_assoc]
  exact hset.symm.append_right owned

/-- Whatever the loop does, the buckets own what was created. -/
theorem owns_fill (t : Topology) (bucketPolicy : String) (n : Int) (interfaces : List Interface)
    (h : base.Owns w (buckets.flatMap Bucket.objects ++ owned)) :
    (fill t bucketPolicy n interfaces buckets w).Holds
      (fun buckets' w' => base.Owns w' (buckets'.flatMap Bucket.objects ++ owned))
      (fun buckets' w' => base.Owns w' (buckets'.flatMap Bucket.objects ++ owned)) := by
  induction interfaces generalizing buckets w with
  | nil => exact h
  | cons cur rest ih =>
      rcases fill_cons (t := t) (n := n) cur rest buckets w with
        ⟨-, heq⟩ | ⟨-, f, hplaced, heq⟩
      · rw [heq]
        exact ih h
      · rw [heq]
        cases hplaced with
        | refused => exact h
        | crashed => exact trivial
        | unnamed hb => exact owns_set hb owns_reallocArray h
        | added hb _ _ => exact ih (owns_set hb (fun h => owns_addName (owns_reallocArray h) _) h)

theorem owns_freeArrays (h : base.Owns w (buckets.flatMap Bucket.objects ++ owned)) :
    base.Owns (freeArrays buckets w) (buckets.flatMap Bucket.nameObjects ++ owned) := by
  induction buckets generalizing w owned with
  | nil => exact h
  | cons b rest ih =>
      rw [List.flatMap_cons, Bucket.objects, List.append_assoc, List.append_assoc] at h
      have hnames : (b.nameObjects ++ (rest.flatMap Bucket.objects ++ owned)).Perm
          (rest.flatMap Bucket.objects ++ (b.nameObjects ++ owned)) := by
        rw [← List.append_assoc, ← List.append_assoc]
        exact List.perm_append_comm.append_right owned
      apply (ih ((owns_freeArray h).perm hnames)).perm
      rw [List.flatMap_cons, ← List.append_assoc]
      exact List.perm_append_comm.append_right owned

/-- Releasing the buckets leaves the names. -/
theorem owns_releaseBuckets {address : Nat}
    (h : base.Owns w (buckets.flatMap Bucket.objects ++ (.block, address) :: owned)) :
    base.Owns (releaseBuckets address buckets w)
      (buckets.flatMap Bucket.nameObjects ++ owned) :=
  ((owns_freeArrays h).perm List.perm_middle).release

/-! ## Setting up the buckets -/

/-- The cards are divided. -/
structure Divides (t : Topology) (bucketPolicy : String) (interfaces : List Interface) (n : Int)
    (buckets : List Bucket) : Prop where
  count : numBuckets t bucketPolicy = some n
  length : (buckets.length : Int) = n
  /-- A bucket has the cards of its place, in their order. -/
  bucket : ∀ (i : Nat) b, buckets[i]? = some b → b.names = cards t bucketPolicy n interfaces i
  /-- No card is lost, and none is there twice. -/
  names : (allNames buckets).Perm ((pciCards interfaces).map Interface.name)
  inRange : ∀ cur ∈ pciCards interfaces, ∃ i : Nat, (i : Int) < n ∧
    cur.bucket t bucketPolicy n = some (i : Int)

/-- The memory of strings. -/
def strings (leaked : List CStr) : List (Object × Nat) :=
  leaked.map fun s => (.block, s.address)

/-- The strings in the buckets. -/
def allNics (buckets : List Bucket) : List CStr := buckets.flatMap Bucket.nics

theorem strings_allNics (buckets : List Bucket) :
    strings (allNics buckets) = buckets.flatMap Bucket.nameObjects :=
  List.map_flatMap ..

theorem text_allNics (buckets : List Bucket) :
    (allNics buckets).map CStr.text = allNames buckets :=
  List.map_flatMap ..

/-- The buckets before the loop. -/
theorem flatMap_replicate_empty (m : Nat) {α : Type} (f : Bucket → List α)
    (hempty : f ⟨none, []⟩ = []) : (List.replicate m ⟨none, []⟩).flatMap f = [] := by
  apply List.flatMap_eq_nil_iff.mpr
  intro b hb
  rw [List.eq_of_mem_replicate hb, hempty]

theorem allNames_replicate (m : Nat) : allNames (List.replicate m ⟨none, []⟩) = [] :=
  flatMap_replicate_empty m Bucket.names rfl

/-- The loop on empty buckets. -/
theorem divides_fill (hcount : numBuckets t bucketPolicy = some n) (hn : 0 ≤ n)
    (hfill : fill t bucketPolicy n interfaces (List.replicate n.toNat ⟨none, []⟩) w =
      .done buckets w') : Divides t bucketPolicy interfaces n buckets := by
  have hbucket := fill_bucket hfill
  have hlength : buckets.length = n.toNat := by
    have hend : ∀ i, buckets.length ≤ i ↔ n.toNat ≤ i := by
      intro i
      rw [← List.getElem?_eq_none_iff, ← Option.map_eq_none_iff, hbucket i,
        Option.map_eq_none_iff, List.getElem?_eq_none_iff, List.length_replicate]
    exact Nat.le_antisymm ((hend _).mpr (Nat.le_refl _)) ((hend _).mp (Nat.le_refl _))
  constructor
  · exact hcount
  · rw [hlength, Int.toNat_of_nonneg hn]
  · intro i b hb
    have hi := hbucket i
    have hlt : i < n.toNat := hlength ▸ (List.getElem?_eq_some_iff.mp hb).1
    rw [hb, List.getElem?_replicate, if_pos hlt, Option.map_some, Option.map_some] at hi
    exact Option.some.inj hi
  · have hnames := fill_names t bucketPolicy n interfaces (List.replicate n.toNat ⟨none, []⟩) w
    rw [hfill, Filled.Holds, allNames_replicate] at hnames
    exact hnames
  · exact fill_inRange hfill

/-- The objects before the loop: the array of the buckets lives, the hints do not. -/
def hinted (w : Ledger Object) : Ledger Object :=
  let w := (w.create .block).2
  (w.create .info).2.release .info w.next

theorem owns_hinted (h : base.Owns w owned) :
    base.Owns (hinted w) ((.block, w.next) :: owned) :=
  ((h.create .block).create .info).release

theorem setupBuckets_cases (t : Topology) (r : Replies) (bucketPolicy : String)
    (w : Ledger Object) :
    setupBuckets t r bucketPolicy w = .error w ∨
      setupBuckets t r bucketPolicy w = .error ((hinted w).release .block w.next) ∨
      ∃ n interfaces, numBuckets t bucketPolicy = some n ∧ 0 ≤ n ∧
        r.getinfo = some interfaces ∧
        setupBuckets t r bucketPolicy w =
          (fill t bucketPolicy n interfaces (List.replicate n.toNat ⟨none, []⟩)
            ((hinted w).create .info).2).finish n w.next (hinted w).next := by
  rw [setupBuckets]
  cases hcount : numBuckets t bucketPolicy with
  | none => exact .inl rfl
  | some n =>
      dsimp only
      split
      · exact .inl rfl
      · next hcalloc =>
          have hn : 0 ≤ n := by
            simp only [Bool.or_eq_true, decide_eq_true_eq, not_or, not_lt] at hcalloc
            exact hcalloc.1
          cases hinfo : r.getinfo with
          | none => exact .inr (.inl rfl)
          | some interfaces =>
              exact .inr (.inr ⟨n, interfaces, rfl, hn, rfl, rfl⟩)

/-- If nothing keeps the cards from their buckets, there are buckets. -/
theorem setupBuckets_ready (w : Ledger Object) (hcount : numBuckets t bucketPolicy = some n)
    (hn : 0 ≤ n) (hcalloc : r.calloc = true) (hinfo : r.getinfo = some interfaces)
    (hready : ∀ cur ∈ pciCards interfaces, Ready t bucketPolicy n cur) :
    ∃ address buckets w', setupBuckets t r bucketPolicy w = .ok n address buckets w' := by
  have hlength : ((List.replicate n.toNat (⟨none, []⟩ : Bucket)).length : Int) = n := by
    rw [List.length_replicate, Int.toNat_of_nonneg hn]
  obtain ⟨buckets, w₁, hfill⟩ := fill_ready ((hinted w).create .info).2 hready hlength
  refine ⟨w.next, buckets, w₁.release .info (hinted w).next, ?_⟩
  rw [setupBuckets, hcount]
  dsimp only
  rw [if_neg (by simp only [Int.not_lt.mpr hn, hcalloc, decide_false, Bool.not_true, Bool.or_self,
    Bool.false_eq_true, not_false_eq_true]), hinfo]
  exact congrArg (Filled.finish n w.next (hinted w).next) hfill

/-- If there are buckets, the loop has run to its end. -/
theorem setupBuckets_ok {address : Nat}
    (hsetup : setupBuckets t r bucketPolicy w = .ok n address buckets w') :
    ∃ interfaces w₁, numBuckets t bucketPolicy = some n ∧ 0 ≤ n ∧ r.getinfo = some interfaces ∧
      fill t bucketPolicy n interfaces (List.replicate n.toNat ⟨none, []⟩)
        ((hinted w).create .info).2 = .done buckets w₁ ∧
      address = w.next ∧ w' = w₁.release .info (hinted w).next := by
  rcases setupBuckets_cases t r bucketPolicy w with
    heq | heq | ⟨m, interfaces, hcount, hm, hinfo, heq⟩
  · cases heq.symm.trans hsetup
  · cases heq.symm.trans hsetup
  · rw [heq] at hsetup
    cases hfill : fill t bucketPolicy m interfaces (List.replicate m.toNat ⟨none, []⟩)
        ((hinted w).create .info).2 with
    | done buckets₁ w₁ =>
        rw [hfill] at hsetup
        obtain ⟨rfl, rfl, rfl, rfl⟩ := Setup.ok.inj hsetup
        exact ⟨interfaces, w₁, hcount, hm, hinfo, hfill, rfl, rfl⟩
    | error buckets₁ w₁ =>
        rw [hfill] at hsetup
        cases hsetup
    | crash =>
        rw [hfill] at hsetup
        cases hsetup

/-- If there are buckets, the cards are divided. -/
theorem setupBuckets_divides {address : Nat}
    (hsetup : setupBuckets t r bucketPolicy w = .ok n address buckets w') :
    ∃ interfaces, r.getinfo = some interfaces ∧
      Divides t bucketPolicy interfaces n buckets := by
  obtain ⟨interfaces, w₁, hcount, hn, hinfo, hfill, -, -⟩ := setupBuckets_ok hsetup
  exact ⟨interfaces, hinfo, divides_fill hcount hn hfill⟩

theorem owns_empty_buckets (h : base.Owns w owned) (m : Nat) :
    base.Owns ((hinted w).create .info).2
      ((List.replicate m ⟨none, []⟩).flatMap Bucket.objects ++
        (.info, (hinted w).next) :: (.block, w.next) :: owned) := by
  rw [flatMap_replicate_empty m Bucket.objects rfl]
  exact (owns_hinted h).create .info

/-- If there are buckets, they own what was created. -/
theorem owns_setupBuckets {address : Nat}
    (hsetup : setupBuckets t r bucketPolicy w = .ok n address buckets w')
    (h : base.Owns w owned) :
    base.Owns w' (buckets.flatMap Bucket.objects ++ (.block, address) :: owned) := by
  obtain ⟨interfaces, w₁, -, -, -, hfill, rfl, rfl⟩ := setupBuckets_ok hsetup
  have howns := owns_fill t bucketPolicy n interfaces (owns_empty_buckets h n.toNat)
  rw [hfill] at howns
  exact (howns.perm List.perm_middle).release

/-- After an error the names of some first cards are left. -/
theorem setupBuckets_error (hsetup : setupBuckets t r bucketPolicy w = .error w')
    (h : base.Owns w owned) :
    ∃ leaked placed, placed <+: pciCards (r.getinfo.getD []) ∧
      (leaked.map CStr.text).Perm (placed.map Interface.name) ∧
      base.Owns w' (strings leaked ++ owned) := by
  have hnone : ∀ {w'}, base.Owns w' owned → ∃ leaked placed,
      placed <+: pciCards (r.getinfo.getD []) ∧
        (leaked.map CStr.text).Perm (placed.map Interface.name) ∧
        base.Owns w' (strings leaked ++ owned) := fun h =>
    ⟨[], [], List.nil_prefix, .refl _, h⟩
  rcases setupBuckets_cases t r bucketPolicy w with
    heq | heq | ⟨m, interfaces, hcount, hm, hinfo, heq⟩
  · obtain rfl := Setup.error.inj (heq.symm.trans hsetup)
    exact hnone h
  · obtain rfl := Setup.error.inj (heq.symm.trans hsetup)
    exact hnone (owns_hinted h).release
  · have howns := owns_fill t bucketPolicy m interfaces (owns_empty_buckets h m.toNat)
    have hnames := fill_names t bucketPolicy m interfaces
      (List.replicate m.toNat ⟨none, []⟩) ((hinted w).create .info).2
    rw [heq] at hsetup
    cases hfill : fill t bucketPolicy m interfaces (List.replicate m.toNat ⟨none, []⟩)
        ((hinted w).create .info).2 with
    | error buckets₁ w₁ =>
        rw [hfill] at hsetup howns hnames
        obtain rfl := Setup.error.inj hsetup
        obtain ⟨placed, hprefix, hperm⟩ := hnames
        rw [allNames_replicate] at hperm
        refine ⟨allNics buckets₁, placed, hinfo ▸ hprefix, text_allNics buckets₁ ▸ hperm, ?_⟩
        rw [strings_allNics]
        exact owns_releaseBuckets (howns.perm List.perm_middle).release
    | done buckets₁ w₁ =>
        rw [hfill] at hsetup
        cases hsetup
    | crash =>
        rw [hfill] at hsetup
        cases hsetup

end Margo.Plumber
