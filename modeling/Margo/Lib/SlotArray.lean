import Margo.Lib.SwapRemove

/-!
# Growable arrays whose unused slots are zero

A growable array as it lies in memory: the first slots are in use, the others up
to the capacity are zero. An entry is added by filling the first free slot, a
full array moves to larger memory whose new part is cleared, and a removal moves
the last entry into the gap and clears the slot it leaves.

## Implementation notes

The capacity is kept next to the memory, and what the memory gained by a growth
holds before it is cleared is an argument, so that the array being tidy is
something to prove.
-/

namespace Margo.Lib

/-- An array of slots, the first `len` of which are in use. -/
structure SlotArray (α : Type*) where
  slots : List α
  cap : Nat
  len : Nat
  deriving DecidableEq, Repr

namespace SlotArray

variable {α : Type*}

/-- The slots in use. -/
def entries (a : SlotArray α) : List α := a.slots.take a.len

def write (i : Nat) (x : α) (a : SlotArray α) : SlotArray α := { a with slots := a.slots.set i x }

def modify (i : Nat) (f : α → α) (a : SlotArray α) : SlotArray α :=
  { a with slots := a.slots.modify i f }

/-- Move the slots to memory for `cap` of them. -/
def realloc (cap : Nat) (fresh : Nat → α) (a : SlotArray α) : SlotArray α :=
  { a with
    slots := a.slots.take cap ++ (List.range' a.slots.length (cap - a.slots.length)).map fresh
    cap := cap }

variable [Zero α]

/-- Cleared memory for `n` slots. -/
def calloc (n : Nat) : SlotArray α := ⟨List.replicate n 0, n, 0⟩

/-- Clear `n` slots from slot `i` on. -/
def clear (i n : Nat) (a : SlotArray α) : SlotArray α :=
  { a with slots := a.slots.take i ++ List.replicate n 0 ++ a.slots.drop (i + n) }

/-- Move to larger memory and clear what is not in use. -/
def grow (cap : Nat) (fresh : Nat → α) (a : SlotArray α) : SlotArray α :=
  (a.realloc cap fresh).clear a.len (cap - a.len)

/-- Clear slot `i`, move the last entry into it and clear the slot it was in. -/
def remove (i : Nat) (a : SlotArray α) : SlotArray α :=
  let last := a.len - 1
  let a := a.write i 0
  let a := if i ≠ last then a.write i (a.slots.getD last 0) else a
  { a.write last 0 with len := last }

/-- The capacity is that of the memory, and every slot not in use is zero. -/
structure Tidy (a : SlotArray α) : Prop where
  memory : a.slots.length = a.cap
  len_le : a.len ≤ a.cap
  unused : ∀ i, a.len ≤ i → i < a.cap → a.slots[i]? = some 0

/-- The tidy array with these entries and `k` free slots. -/
def ofEntries (es : List α) (k : Nat) : SlotArray α :=
  ⟨es ++ List.replicate k 0, es.length + k, es.length⟩

variable {es : List α} {k : Nat}

@[simp] theorem len_ofEntries : (ofEntries es k).len = es.length := rfl

@[simp] theorem cap_ofEntries : (ofEntries es k).cap = es.length + k := rfl

@[simp] theorem entries_ofEntries : (ofEntries es k).entries = es := List.take_left

theorem tidy_ofEntries (es : List α) (k : Nat) : (ofEntries es k).Tidy where
  memory := by simp [ofEntries]
  len_le := Nat.le_add_right _ _
  unused i hle hlt := by
    rw [len_ofEntries] at hle
    rw [cap_ofEntries] at hlt
    have hk : i - es.length < k := by omega
    simp only [ofEntries, List.getElem?_append_right hle, List.getElem?_replicate_of_lt hk]

/-- Every tidy array is told by its entries and the number of free slots. -/
theorem Tidy.eq_ofEntries {a : SlotArray α} (h : a.Tidy) :
    a = ofEntries a.entries (a.cap - a.len) := by
  obtain ⟨slots, cap, len⟩ := a
  obtain ⟨hmemory, hlen, hunused⟩ := h
  change slots.length = cap at hmemory
  subst hmemory
  change len ≤ slots.length at hlen
  have hentries : (slots.take len).length = len := List.length_take_of_le hlen
  have hrest : slots.drop len = List.replicate (slots.length - len) 0 := by
    refine List.ext_getElem? fun i => ?_
    rw [List.getElem?_drop]
    by_cases hi : len + i < slots.length
    · rw [hunused _ (Nat.le_add_right _ _) hi, List.getElem?_replicate_of_lt (by omega)]
    · rw [List.getElem?_eq_none (by omega), List.getElem?_eq_none (by simp; omega)]
  simp only [ofEntries, entries, hentries, SlotArray.mk.injEq, and_true]
  refine ⟨?_, by omega⟩
  rw [← hrest, List.take_append_drop]

theorem calloc_eq (n : Nat) : calloc n = ofEntries ([] : List α) n := by
  simp [calloc, ofEntries]

/-- The first free slot. -/
theorem slots_len : (ofEntries es (k + 1)).slots[es.length]? = some 0 := by
  simp [ofEntries]

theorem slots_of_lt {i : Nat} (hi : i < es.length) : (ofEntries es k).slots[i]? = es[i]? := by
  simp [ofEntries, List.getElem?_append_left hi]

/-- Leave the first free slot as it was. -/
theorem write_zero : (ofEntries es (k + 1)).write es.length 0 = ofEntries es (k + 1) := by
  simp [write, ofEntries, List.replicate_succ]

/-- Fill the first free slot. -/
theorem write_len (x : α) :
    { (ofEntries es (k + 1)).write es.length x with len := es.length + 1 } =
      ofEntries (es ++ [x]) k := by
  simp only [write, ofEntries, List.replicate_succ, List.set_append_right _ _ (Nat.le_refl _),
    Nat.sub_self, List.set_cons_zero, List.length_append, List.length_singleton,
    List.append_assoc, List.singleton_append, SlotArray.mk.injEq, true_and, and_true]
  omega

theorem modify_ofEntries {i : Nat} (hi : i < es.length) (f : α → α) :
    (ofEntries es k).modify i f = ofEntries (es.modify i f) k := by
  have hsplit : ∀ l : List α, (es ++ l).modify i f = es.modify i f ++ l := by
    intro l
    have hlt : i < (es ++ l).length := by
      rw [List.length_append]
      omega
    rw [List.modify_eq_take_cons_drop hlt, List.modify_eq_take_cons_drop hi,
      List.take_append_of_le_length (Nat.le_of_lt hi), List.getElem_append_left hi,
      List.drop_append_of_le_length hi, List.append_assoc, List.cons_append]
  simp only [modify, ofEntries, List.length_modify, hsplit]

/-- Growing keeps the entries, whatever the new memory holds. -/
theorem grow_ofEntries {cap : Nat} (hcap : es.length + k ≤ cap) (fresh : Nat → α) :
    (ofEntries es k).grow cap fresh = ofEntries es (cap - es.length) := by
  have hlen : (es ++ List.replicate k (0 : α)).length ≤ cap := by simpa using hcap
  simp only [grow, realloc, clear, ofEntries, SlotArray.mk.injEq, and_true]
  refine ⟨?_, by omega⟩
  rw [List.take_of_length_le hlen, List.append_assoc es, List.take_left, List.append_assoc]
  have hdrop : ((es ++ (List.replicate k (0 : α) ++ (List.range'
      (es ++ List.replicate k (0 : α)).length
      (cap - (es ++ List.replicate k (0 : α)).length)).map fresh)).drop
      (es.length + (cap - es.length))) = [] := by
    apply List.drop_eq_nil_of_le
    simp only [List.length_append, List.length_replicate, List.length_map, List.length_range']
    omega
  rw [hdrop, List.append_nil]

/-- A removal leaves the other entries and one more free slot. -/
theorem remove_ofEntries {i : Nat} (hi : i < es.length) :
    (ofEntries es k).remove i = ofEntries (swapRemove es i) (k + 1) := by
  obtain rfl | ⟨init, last, rfl⟩ := List.eq_nil_or_concat es
  · exact absurd hi (Nat.not_lt_zero _)
  rw [List.concat_eq_append] at hi ⊢
  have hlast : (init ++ [last]).length - 1 = init.length := by simp
  have hcap : (init ++ [last]).length + k = init.length + (k + 1) := by
    simp only [List.length_append, List.length_singleton]
    omega
  rw [swapRemove_concat]
  simp only [remove, write, ofEntries, hlast, hcap, List.length_set, SlotArray.mk.injEq, and_true,
    List.append_assoc, List.singleton_append, List.replicate_succ]
  by_cases hne : i = init.length
  · subst hne
    simp [List.set_eq_of_length_le]
  · have hlt : i < init.length := by
      simp only [List.length_append, List.length_singleton] at hi
      omega
    have hlt' : i < (init.set i 0).length := by simpa using hlt
    simp [hne, List.set_append_left _ _ hlt, List.set_append_left _ _ hlt']

/-! ## Arrays of images -/

section

variable {β : Type*} {slot : β → α} {l : List β} {cap i : Nat}

/-- The tidy array of this capacity with the images of a list. -/
def image (slot : β → α) (l : List β) (cap : Nat) : SlotArray α :=
  ofEntries (l.map slot) (cap - l.length)

@[simp] theorem entries_image : (image slot l cap).entries = l.map slot := entries_ofEntries

@[simp] theorem len_image : (image slot l cap).len = l.length := List.length_map slot

theorem cap_image (hcap : l.length ≤ cap) : (image slot l cap).cap = cap := by
  rw [image, cap_ofEntries, List.length_map]
  omega

theorem slots_image (hi : i < l.length) :
    (image slot l cap).slots[i]? = l[i]?.map slot := by
  rw [image, slots_of_lt (by rwa [List.length_map]), List.getElem?_map]

theorem grow_image {cap' : Nat} (hcap : l.length ≤ cap) (hle : cap ≤ cap') (fresh : Nat → α) :
    (image slot l cap).grow cap' fresh = image slot l cap' := by
  have hroom : (l.map slot).length + (cap - l.length) ≤ cap' := by
    rw [List.length_map]
    omega
  rw [image, grow_ofEntries hroom, List.length_map, image]

/-- An array that is not full has a free slot. -/
theorem image_of_lt (hcap : l.length < cap) :
    image slot l cap = ofEntries (l.map slot) (cap - l.length - 1 + 1) := by
  rw [image, Nat.sub_add_cancel (Nat.sub_pos_of_lt hcap)]

theorem slots_image_length (hcap : l.length < cap) :
    (image slot l cap).slots[l.length]? = some 0 := by
  rw [image_of_lt hcap, ← List.length_map (f := slot)]
  exact slots_len

theorem write_zero_image (hcap : l.length < cap) :
    (image slot l cap).write l.length 0 = image slot l cap := by
  rw [image_of_lt hcap, ← List.length_map (f := slot)]
  exact write_zero

theorem write_image (hcap : l.length < cap) (b : β) :
    { (image slot l cap).write l.length (slot b) with len := l.length + 1 } =
      image slot (l ++ [b]) cap := by
  have hrest : cap - (l ++ [b]).length = cap - l.length - 1 := by
    rw [List.length_append, List.length_singleton]
    omega
  rw [image_of_lt hcap, image, hrest, List.map_append, List.map_singleton, ← write_len,
    List.length_map]

omit [Zero α] in
theorem map_modify_eq {f : β → β} {g : α → α} (hg : ∀ b, g (slot b) = slot (f b)) (l : List β)
    (i : Nat) : (l.map slot).modify i g = (l.modify i f).map slot := by
  refine List.ext_getElem? fun j => ?_
  rw [List.getElem?_modify, List.getElem?_map, List.getElem?_map, List.getElem?_modify]
  cases l[j]? with
  | none => rfl
  | some b =>
      change some (if i = j then g (slot b) else slot b) = some (slot (if i = j then f b else b))
      rw [hg, apply_ite slot]

theorem modify_image {f : β → β} {g : α → α} (hg : ∀ b, g (slot b) = slot (f b))
    (hi : i < l.length) : (image slot l cap).modify i g = image slot (l.modify i f) cap := by
  rw [image, modify_ofEntries (by rwa [List.length_map]), map_modify_eq hg, image,
    List.length_modify]

theorem remove_image (hcap : l.length ≤ cap) (hi : i < l.length) :
    (image slot l cap).remove i = image slot (swapRemove l i) cap := by
  have hrest : cap - l.length + 1 = cap - (swapRemove l i).length := by
    rw [length_swapRemove]
    omega
  rw [image, remove_ofEntries (by rwa [List.length_map]), map_swapRemove, hrest, image]

end

end SlotArray

end Margo.Lib
