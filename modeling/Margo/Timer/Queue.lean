import Margo.Timer.Utlist
import Mathlib.Data.List.Induction
import Mathlib.Order.Lattice

/-!
# The sorted queue of timers

`__margo_timer_queue`, which puts a timer into the list of its instance, and the
loop of `__margo_check_timers` that takes the expired timers out of it.

## Implementation notes

Expirations are the elements of a linear order. A walk along links that are no
list need not end, so the loops have a bound on their iterations; a list of
distinct nodes that is not longer than the bound is enough for both to end.
-/

namespace Margo.Timer

open Function Lib.Links

variable {τ κ : Type*} [DecidableEq τ] [LinearOrder κ]

/-- The loop of `__margo_timer_queue`: walk backwards to a timer that expires
earlier, and add the timer after it. -/
def walkBack (expiration : τ → κ) (timer head : τ) (links : Links τ) :
    Nat → τ → Option (Links τ × Option τ)
  | 0, _ => none
  | bound + 1, cur => do
      let cur ← links.prev cur
      if expiration cur < expiration timer then dlAppendElem links (some head) cur timer
      else if cur = head then return (links, some head)
      else walkBack expiration timer head links bound cur

/-- `__margo_timer_queue`. -/
def timerQueue (expiration : τ → κ) (bound : Nat) (links : Links τ) (queueHead : Option τ)
    (timer : τ) : Option (Links τ × Option τ) :=
  match queueHead with
  | none => dlAppend links none timer
  | some head => do
      let (links, queueHead) ← walkBack expiration timer head links bound head
      if links.prev timer = none ∧ links.next timer = none then
        return dlPrepend links queueHead timer
      else return (links, queueHead)

/-- `timer->prev = timer->next = NULL`. -/
def Links.clear (links : Links τ) (timer : τ) : Links τ :=
  (links.setNext timer none).setPrev timer none

/-- `timer->prev || timer->next`. -/
def Links.Linked (links : Links τ) (timer : τ) : Prop :=
  links.prev timer ≠ none ∨ links.next timer ≠ none

instance (links : Links τ) (timer : τ) : Decidable (links.Linked timer) :=
  inferInstanceAs (Decidable (_ ∨ _))

/-! ## The queue -/

/-- The links and the head are those of a list. The timers outside of it have
null links, except that the links of the stale ones are left over. -/
structure IsQueue (links : Links τ) (queueHead : Option τ) (us : List τ) (stale : τ → Prop) :
    Prop where
  hold : links.Hold us
  head : queueHead = us.head?
  others : ∀ t ∉ us, ¬stale t → links.prev t = none ∧ links.next t = none

/-- No timer is before one that expires earlier. -/
def SortedBy (expiration : τ → κ) (us : List τ) : Prop :=
  us.Pairwise fun t u => expiration t ≤ expiration u

section

variable {links : Links τ} {queueHead : Option τ} {expiration : τ → κ} {us xs ys : List τ} {t : τ}
  {stale : τ → Prop}

omit [DecidableEq τ] in
/-- Whether a timer is in the queue can be told from its own links. -/
theorem IsQueue.linked_iff (h : IsQueue links queueHead us stale) (ht : ¬stale t) :
    links.Linked t ↔ t ∈ us := by
  constructor
  · intro hlinked
    by_contra hnot
    obtain ⟨hprev, hnext⟩ := h.others t hnot ht
    exact hlinked.elim (fun hne => hne hprev) fun hne => hne hnext
  · intro hmem
    exact .inl (DList.prev_ne_none h.hold hmem)

omit [DecidableEq τ] in
theorem IsQueue.mono {stale' : τ → Prop} (h : IsQueue links queueHead us stale)
    (hstale : ∀ a ∉ us, stale a → stale' a) : IsQueue links queueHead us stale' :=
  ⟨h.hold, h.head, fun a ha hnot => h.others a ha (mt (hstale a ha) hnot)⟩

omit [DecidableEq τ] in
theorem isQueue_nil (hlinks : ∀ t, links.prev t = none ∧ links.next t = none) :
    IsQueue links none [] stale :=
  ⟨dlist_nil, rfl, fun t _ _ => hlinks t⟩

omit [DecidableEq τ] in
theorem IsQueue.not_mem (h : IsQueue links queueHead (xs ++ t :: ys) stale) : t ∉ xs ++ ys :=
  (List.nodup_cons.mp (List.perm_middle.nodup_iff.mp h.hold.1)).1

/-- A deleted timer keeps its links. -/
theorem IsQueue.delete (h : IsQueue links queueHead (xs ++ t :: ys) stale) :
    ∃ links', dlDelete links queueHead t = some (links', (xs ++ ys).head?) ∧
      IsQueue links' (xs ++ ys).head? (xs ++ ys) fun a => a = t ∨ stale a := by
  obtain ⟨links', hdelete, hhold, hkept⟩ := dlDelete_append h.hold
  refine ⟨links', h.head ▸ hdelete, hhold, rfl, ?_⟩
  intro a ha hnot
  obtain ⟨hne, hstale⟩ := not_or.mp hnot
  have hmem : a ∉ xs ++ t :: ys := by
    rw [List.perm_middle.mem_iff, List.mem_cons]
    exact fun hor => hor.elim hne ha
  obtain ⟨hnext, hprev⟩ := hkept a ha
  obtain ⟨hprev', hnext'⟩ := h.others a hmem hstale
  exact ⟨hprev.trans hprev', hnext.trans hnext'⟩

/-- The links of a timer that is not in the queue are set to null. -/
theorem IsQueue.clear (h : IsQueue links queueHead us stale) (ht : t ∉ us) :
    IsQueue (links.clear t) queueHead us fun a => a ≠ t ∧ stale a := by
  refine ⟨?_, h.head, ?_⟩
  · apply DList.congr h.hold
    · exact fun a ha => update_of_ne (ne_of_mem_of_not_mem ha ht) ..
    · exact fun a ha => update_of_ne (ne_of_mem_of_not_mem ha ht) ..
  · intro a ha hnot
    by_cases heq : a = t
    · rw [heq]
      exact ⟨update_self .., update_self ..⟩
    · obtain ⟨hprev, hnext⟩ := h.others a ha fun hstale => hnot ⟨heq, hstale⟩
      exact ⟨(update_of_ne heq ..).trans hprev, (update_of_ne heq ..).trans hnext⟩

/-- Where the walk ends: behind the last timer that expires earlier, or at the
head if there is none. The walk has passed `zs` and has `xs` before it. -/
theorem walkBack_spec {head cur : τ} {zs : List τ} {bound : Nat} (h : links.Hold us)
    (hhead : us.head? = some head) (hus : us = xs ++ zs) (hne : xs ≠ [])
    (hprev : links.prev cur = xs.getLast?) (hlater : ∀ z ∈ zs, expiration t ≤ expiration z)
    (hbound : xs.length ≤ bound) :
    (∃ xs ys el, us = xs ++ ys ∧ xs.getLast? = some el ∧ expiration el < expiration t ∧
      (∀ y ∈ ys, expiration t ≤ expiration y) ∧
      walkBack expiration t head links bound cur = dlAppendElem links (some head) el t) ∨
    ((∀ u ∈ us, expiration t ≤ expiration u) ∧
      walkBack expiration t head links bound cur = some (links, some head)) := by
  induction xs using List.reverseRecOn generalizing cur zs bound with
  | nil => exact absurd rfl hne
  | append_singleton xs c ih =>
      obtain ⟨bound, rfl⟩ : ∃ b, bound = b + 1 := by
        rw [List.length_append, List.length_singleton] at hbound
        exact ⟨bound - 1, by omega⟩
      rw [List.getLast?_concat] at hprev
      rw [walkBack, hprev, Option.bind_eq_bind, Option.bind_some]
      by_cases hearlier : expiration c < expiration t
      · rw [if_pos hearlier]
        exact .inl ⟨xs ++ [c], zs, c, hus, List.getLast?_concat, hearlier, hlater, rfl⟩
      · rw [if_neg hearlier]
        have hlater' : ∀ z ∈ c :: zs, expiration t ≤ expiration z := by
          intro z hz
          obtain rfl | hz := List.mem_cons.mp hz
          · exact not_lt.mp hearlier
          · exact hlater z hz
        rw [List.append_assoc, List.singleton_append] at hus
        by_cases hfirst : xs = []
        · rw [hfirst, List.nil_append] at hus
          have hc : c = head := by
            rw [hus] at hhead
            exact Option.some.inj hhead
          rw [if_pos hc]
          exact .inr ⟨hus ▸ hlater', rfl⟩
        · have hc : c ≠ head := by
            rintro rfl
            have hmem : c ∈ xs := by
              rw [hus, List.head?_append_of_ne_nil _ hfirst] at hhead
              exact List.mem_of_head? hhead
            have hnodup := h.1
            rw [hus] at hnodup
            exact (List.nodup_append.mp hnodup).2.2 c hmem c List.mem_cons_self rfl
          have hlinks := h.2
          rw [hus] at hlinks
          have hprev' : links.prev c = xs.getLast? := by
            rw [hlinks.links.1, List.getLast?_eq_some_getLast hfirst]
            rfl
          rw [if_neg hc]
          apply ih hus hfirst hprev' hlater'
          rw [List.length_append, List.length_singleton] at hbound
          omega

omit [DecidableEq τ] in
/-- A timer that expires after the timers before it and not after those behind
it is in its place. -/
theorem sortedBy_insert (hsorted : SortedBy expiration (xs ++ ys))
    (hbefore : ∀ el ∈ xs.getLast?, expiration el < expiration t)
    (hbehind : ∀ y ∈ ys, expiration t ≤ expiration y) :
    SortedBy expiration (xs ++ t :: ys) := by
  obtain ⟨hsortedX, hsortedY, hXY⟩ := List.pairwise_append.mp hsorted
  refine List.pairwise_append.mpr ⟨hsortedX, List.pairwise_cons.mpr ⟨hbehind, hsortedY⟩, ?_⟩
  have hX : ∀ x ∈ xs, expiration x ≤ expiration t := by
    induction xs using List.reverseRecOn with
    | nil => exact fun x hx => absurd hx List.not_mem_nil
    | append_singleton xs c _ =>
        have hc : expiration c < expiration t := hbefore c List.getLast?_concat
        intro x hx
        obtain hx | hx := List.mem_append.mp hx
        · have hxc : expiration x ≤ expiration c :=
            (List.pairwise_append.mp hsortedX).2.2 x hx c List.mem_cons_self
          exact le_trans hxc (le_of_lt hc)
        · rw [List.mem_singleton.mp hx]
          exact le_of_lt hc
  intro x hx y hy
  obtain rfl | hy := List.mem_cons.mp hy
  · exact hX x hx
  · exact hXY x hx y hy

omit [DecidableEq τ] in
/-- The links of a timer that is put in the queue, and nothing else changes. -/
theorem IsQueue.insert {links' : Links τ} (h : IsQueue links queueHead (xs ++ ys) stale)
    (hhold : links'.Hold (xs ++ t :: ys)) (hkept : Links.Kept (t :: (xs ++ ys)) links links') :
    IsQueue links' (xs ++ t :: ys).head? (xs ++ t :: ys) stale := by
  refine ⟨hhold, rfl, ?_⟩
  intro a ha hstale
  rw [List.perm_middle.mem_iff] at ha
  obtain ⟨hnext, hprev⟩ := hkept a ha
  obtain ⟨hprev', hnext'⟩ := h.others a (fun hmem => ha (List.mem_cons_of_mem t hmem)) hstale
  exact ⟨hprev.trans hprev', hnext.trans hnext'⟩

/-- `__margo_timer_queue` puts a timer behind the last one that expires earlier. -/
theorem timerQueue_insert {bound : Nat} (h : IsQueue links queueHead us stale)
    (expiration : τ → κ) (ht : t ∉ us) (hstale : ¬stale t) (hbound : us.length ≤ bound) :
    ∃ links' xs ys, us = xs ++ ys ∧
      timerQueue expiration bound links queueHead t = some (links', (xs ++ t :: ys).head?) ∧
      IsQueue links' (xs ++ t :: ys).head? (xs ++ t :: ys) stale ∧
      (∀ el ∈ xs.getLast?, expiration el < expiration t) ∧
      ∀ y ∈ ys, expiration t ≤ expiration y := by
  cases hhead : us.head? with
  | none =>
      obtain rfl : us = [] := List.head?_eq_none_iff.mp hhead
      obtain ⟨links', happend, hhold, hkept⟩ := dlAppend_nil links t
      refine ⟨links', [], [], rfl, ?_, ?_, ?_, fun y hy => absurd hy List.not_mem_nil⟩
      · rw [h.head]
        exact happend
      · have hempty : IsQueue links queueHead ([] ++ []) stale := h
        exact hempty.insert hhold hkept
      · intro el hel
        cases hel
  | some head =>
      have hne : us ≠ [] := fun hnil => by rw [hnil] at hhead; cases hhead
      have hnone : ∀ z ∈ [], expiration t ≤ expiration z := fun z hz => absurd hz List.not_mem_nil
      have hwalk := walkBack_spec h.hold hhead (List.append_nil us).symm hne (h.hold.first hhead)
        hnone hbound
      obtain ⟨xs, ys, el, rfl, hel, hearlier, hlater, hwalk⟩ | ⟨hlater, hwalk⟩ := hwalk
      · have hneX : xs ≠ [] := fun hnil => by rw [hnil] at hel; cases hel
        have hheadX : xs.head? = some head := by
          rwa [List.head?_append_of_ne_nil _ hneX] at hhead
        obtain ⟨links', hadd, hhold, hkept⟩ := dlAppendElem_append h.hold hel hheadX ht
        have hlinked : ¬(links'.prev t = none ∧ links'.next t = none) := by
          intro hnull
          exact DList.prev_ne_none hhold (by simp) hnull.1
        refine ⟨links', xs, ys, rfl, ?_, h.insert hhold hkept, ?_, hlater⟩
        · rw [h.head, hhead, timerQueue]
          simp only [hwalk, hadd, Option.bind_eq_bind, Option.bind_some]
          rw [if_neg hlinked, List.head?_append_of_ne_nil _ hneX, hheadX]
          rfl
        · intro el' hel'
          rw [hel] at hel'
          exact Option.some.inj hel' ▸ hearlier
      · have hfront : IsQueue links queueHead ([] ++ us) stale := h
        obtain ⟨links', hadd, hhold, hkept⟩ := dlPrepend_cons h.hold hhead ht
        refine ⟨links', [], us, rfl, ?_, hfront.insert hhold hkept, ?_, hlater⟩
        · rw [h.head, hhead, timerQueue]
          simp only [hwalk, Option.bind_eq_bind, Option.bind_some]
          rw [if_pos (h.others t ht hstale), hadd]
          rfl
        · intro el hel
          cases hel

end

end Margo.Timer
