import Mathlib.Data.List.Nodup
import Mathlib.Data.List.Perm.Basic

/-!
# Directories

A directory lists entries under two keys, a name and a handle, and one of the
handles is set aside to mean none. In a proper directory no two entries share a
name or a handle and no entry has the null handle, so that every entry is found
under its position, its name and its handle.
-/

namespace Margo.Lib

variable {α β : Type*}

/-- Names and handles are pairwise distinct, and no handle is null. -/
structure Directory (null : β) (es : List (α × β)) : Prop where
  names : (es.map Prod.fst).Nodup
  handles : (es.map Prod.snd).Nodup
  notNull : null ∉ es.map Prod.snd

namespace Directory

variable {null : β} {es es' : List (α × β)}

theorem empty : Directory (α := α) null [] :=
  ⟨List.nodup_nil, List.nodup_nil, List.not_mem_nil⟩

/-- An entry with a new name and a new handle can be added. -/
theorem add (hd : Directory null es) {name : α} {h : β} (hname : name ∉ es.map Prod.fst)
    (hhandle : h ∉ es.map Prod.snd) (hnull : h ≠ null) : Directory null (es ++ [(name, h)]) where
  names := by
    rw [List.map_append, List.map_singleton, ← List.concat_eq_append]
    exact hd.names.concat hname
  handles := by
    rw [List.map_append, List.map_singleton, ← List.concat_eq_append]
    exact hd.handles.concat hhandle
  notNull := by
    rw [List.map_append, List.map_singleton, List.mem_append, List.mem_singleton]
    rintro (hmem | heq)
    · exact hd.notNull hmem
    · exact hnull heq.symm

/-- Any entry can be removed, whatever happens to the order of the others. -/
theorem remove (hd : Directory null es) {e : α × β} (hperm : es.Perm (e :: es')) :
    Directory null es' where
  names := (List.nodup_cons.mp ((hperm.map Prod.fst).nodup_iff.mp hd.names)).2
  handles := (List.nodup_cons.mp ((hperm.map Prod.snd).nodup_iff.mp hd.handles)).2
  notNull hmem := hd.notNull ((hperm.map Prod.snd).mem_iff.mpr (List.mem_cons_of_mem _ hmem))

end Directory

/-- In a list without duplicate keys, searching for the key of an entry finds
its position. -/
theorem findIdx?_of_nodup {γ κ : Type*} [DecidableEq κ] {key : γ → κ} {l : List γ} {i : Nat}
    {a : γ} (hd : (l.map key).Nodup) (h : l[i]? = some a) :
    l.findIdx? (fun b => key b == key a) = some i := by
  obtain ⟨hi, rfl⟩ := List.getElem?_eq_some_iff.mp h
  refine List.findIdx?_eq_some_iff_getElem.mpr ⟨hi, by simp, fun j hj => ?_⟩
  simp only [Bool.not_eq_true, beq_eq_false_iff_ne]
  intro heq
  have hlen : (l.map key).length = l.length := List.length_map key
  have hi' : i < (l.map key).length := by omega
  have hj' : j < (l.map key).length := by omega
  have hmap : (l.map key)[j] = (l.map key)[i] := by simpa using heq
  have hij : j = i := (List.Nodup.getElem_inj_iff hd).mp hmap
  omega

/-- The same search finds the entry. -/
theorem find?_of_nodup {γ κ : Type*} [DecidableEq κ] {key : γ → κ} {l : List γ} {a : γ}
    (hd : (l.map key).Nodup) (h : a ∈ l) : l.find? (fun b => key b = key a) = some a := by
  cases hfind : l.find? fun b => key b = key a with
  | none => exact absurd (decide_eq_true rfl) (List.find?_eq_none.mp hfind a h)
  | some b =>
      have hkey : key b = key a := by simpa using List.find?_some hfind
      rw [List.inj_on_of_nodup_map hd (List.mem_of_find?_eq_some hfind) h hkey]

end Margo.Lib
