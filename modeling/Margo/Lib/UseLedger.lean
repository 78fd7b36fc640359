import Mathlib.Data.List.Count
import Mathlib.Data.List.Perm.Basic

/-!
# Use counts in a bounded counter

Entries carry a key and a counter, users a list of keys, in which a key may
occur several times. Every counter holds the number of occurrences of its key,
modulo the range of the counter; adding and removing users and unused entries
keeps that. A ledger is balanced when moreover every key of a user belongs to
an entry.
-/

namespace Margo.Lib

variable {κ : Type*} [DecidableEq κ]

/-- Every counter is the number of uses of its key, modulo `m`. -/
def Counts (m : Nat) (entries : List (κ × Nat)) (uses : List κ) : Prop :=
  ∀ e ∈ entries, e.2 = uses.count e.1 % m

namespace Counts

variable {m : Nat} {entries entries' : List (κ × Nat)} {uses uses' u : List κ}

/-- A new entry starts at zero. -/
theorem addEntry (h : Counts m entries uses) {k : κ} (hk : k ∉ uses) :
    Counts m (entries ++ [(k, 0)]) uses := by
  intro e he
  rcases List.mem_append.mp he with he | he
  · exact h e he
  · obtain rfl := List.mem_singleton.mp he
    rw [List.count_eq_zero.mpr hk, Nat.zero_mod]

/-- An entry can go. -/
theorem removeEntry (h : Counts m entries uses) {e : κ × Nat}
    (hperm : entries.Perm (e :: entries')) : Counts m entries' uses :=
  fun e' he' => h e' (hperm.mem_iff.mpr (List.mem_cons_of_mem e he'))

/-- New uses are counted as often as they use each key. -/
theorem add (h : Counts m entries uses) {count : κ → Nat → Nat}
    (hcount : ∀ k n, count k (n % m) = (n + u.count k) % m) :
    Counts m (entries.map fun e => (e.1, count e.1 e.2)) (uses ++ u) := by
  intro e he
  obtain ⟨e, hmem, rfl⟩ := List.mem_map.mp he
  rw [List.count_append, h e hmem, hcount]

/-- Uses that end are discounted as often as they used each key. -/
theorem remove (h : Counts m entries uses) (hperm : uses.Perm (uses' ++ u))
    {discount : κ → Nat → Nat} (hdiscount : ∀ k n, discount k ((n + u.count k) % m) = n % m) :
    Counts m (entries.map fun e => (e.1, discount e.1 e.2)) uses' := by
  intro e he
  obtain ⟨e, hmem, rfl⟩ := List.mem_map.mp he
  rw [h e hmem, hperm.count_eq, List.count_append, hdiscount]

theorem perm (h : Counts m entries uses) (hperm : uses.Perm uses') : Counts m entries uses' :=
  fun e he => (h e he).trans (by rw [hperm.count_eq])

end Counts

/-- Entries with their counters, and the keys that each user uses. -/
structure UseLedger (κ : Type*) where
  entries : List (κ × Nat)
  users : List (List κ)

namespace UseLedger

/-- How often a key is used. -/
def uses (l : UseLedger κ) (k : κ) : Nat := l.users.flatten.count k

/-- Every key in use has an entry, and every counter is right modulo `m`. -/
structure Balanced (m : Nat) (l : UseLedger κ) : Prop where
  known : ∀ u ∈ l.users, ∀ k ∈ u, k ∈ l.entries.map Prod.fst
  counts : Counts m l.entries l.users.flatten

variable {m : Nat} {l : UseLedger κ}

/-- A new entry starts at zero. -/
theorem Balanced.addEntry (h : Balanced m l) {k : κ} (hk : ∀ u ∈ l.users, k ∉ u) :
    Balanced m ⟨l.entries ++ [(k, 0)], l.users⟩ where
  known u hu k' hk' := by
    have hmem := h.known u hu k' hk'
    simp only [List.map_append, List.mem_append]
    exact .inl hmem
  counts := by
    apply h.counts.addEntry
    intro hmem
    obtain ⟨u, hu, hku⟩ := List.mem_flatten.mp hmem
    exact hk u hu hku

/-- An entry that nobody uses can go. -/
theorem Balanced.removeEntry (h : Balanced m l) {e : κ × Nat} {entries' : List (κ × Nat)}
    (hperm : l.entries.Perm (e :: entries')) (hz : l.uses e.1 = 0) :
    Balanced m ⟨entries', l.users⟩ where
  known u hu k hk := by
    have hmem := (hperm.map Prod.fst).mem_iff.mp (h.known u hu k hk)
    rcases List.mem_cons.mp hmem with rfl | hmem
    · exact absurd (List.mem_flatten.mpr ⟨u, hu, hk⟩) (List.count_eq_zero.mp hz)
    · exact hmem
  counts := h.counts.removeEntry hperm

/-- A new user is counted as often as it uses each key. -/
theorem Balanced.addUser (h : Balanced m l) {u : List κ}
    (hu : ∀ k ∈ u, k ∈ l.entries.map Prod.fst) {count : κ → Nat → Nat}
    (hcount : ∀ k n, count k (n % m) = (n + u.count k) % m) :
    Balanced m ⟨l.entries.map fun e => (e.1, count e.1 e.2), l.users ++ [u]⟩ where
  known v hv k hk := by
    simp only [List.map_map, Function.comp_def]
    rcases List.mem_append.mp hv with hv | hv
    · exact h.known v hv k hk
    · obtain rfl := List.mem_singleton.mp hv
      exact hu k hk
  counts := by
    rw [List.flatten_append, List.flatten_singleton]
    exact h.counts.add hcount

/-- A user that leaves is discounted as often as it used each key. -/
theorem Balanced.removeUser (h : Balanced m l) {u : List κ} {users' : List (List κ)}
    (hperm : l.users.Perm (u :: users')) {discount : κ → Nat → Nat}
    (hdiscount : ∀ k n, discount k ((n + u.count k) % m) = n % m) :
    Balanced m ⟨l.entries.map fun e => (e.1, discount e.1 e.2), users'⟩ where
  known v hv k hk := by
    simp only [List.map_map, Function.comp_def]
    exact h.known v (hperm.mem_iff.mpr (List.mem_cons_of_mem u hv)) k hk
  counts := by
    refine h.counts.remove ?_ hdiscount
    calc
      l.users.flatten.Perm (u :: users').flatten := hperm.flatten
      _ |>.Perm (u ++ users'.flatten) := List.Perm.of_eq List.flatten_cons
      _ |>.Perm (users'.flatten ++ u) := List.perm_append_comm

end UseLedger

end Margo.Lib
