import Margo.Lib.Paths
import Margo.Lib.Runs
import Mathlib.Data.List.Perm.Subperm
import Mathlib.Data.List.Range

/-!
# The finalize and prefinalize callbacks

Two lists of an instance, each linked from its newest entry on and shared by all owners:
the callbacks that `margo_finalize` calls before the progress loop ends, and those that
`margo_call_finalization_callbacks` calls after it. A callback may push, pop and look up
entries of both lists while the loop that called it is under way.

## Implementation notes

The two lists are handled by the same code on another field of the instance, which is a
parameter here. Entries are numbered in the order in which they are pushed, and `malloc`
gives each of them once. `freed` lists the calls of `free`. A loop is taken apart at the
calls it makes: a step goes up to the next call of a callback, or to the end of the loop.
-/

namespace Margo.Shutdown.Callbacks

open Function Lib.Paths Lib.Runs
open scoped List

/-- `prefinalize_cb` and `finalize_cb`. -/
inductive Stack
  | prefinalize
  | finalize
  deriving DecidableEq, Repr

/-- `struct margo_finalize_cb` without its link. -/
structure FinalizeCb (Ω Φ α : Type) where
  owner : Ω
  callback : Φ
  uargs : α
  deriving DecidableEq, Repr

/-- The lists of an instance and the memory of their entries. -/
structure Lists (Ω Φ α : Type) where
  head : Stack → Option Nat
  next : Nat → Option Nat
  cb : Nat → Option (FinalizeCb Ω Φ α)
  malloced : Nat
  freed : List Nat

variable {Ω Φ α : Type}

/-! ## Pushing, popping and looking up -/

/-- A push; a null callback is not pushed. -/
def pushCallback (stack : Stack) (mid : Lists Ω Φ α) (owner : Ω) (callback : Option Φ)
    (uargs : α) : Lists Ω Φ α :=
  match callback with
  | none => mid
  | some callback =>
      let fcb := mid.malloced
      { mid with
        malloced := fcb + 1
        cb := update mid.cb fcb (some ⟨owner, callback, uargs⟩)
        next := update mid.next fcb (mid.head stack)
        head := update mid.head stack (some fcb) }

/-- `margo_provider_push_prefinalize_callback`. -/
def margoProviderPushPrefinalizeCallback (mid : Lists Ω Φ α) (owner : Ω) (cb : Option Φ)
    (uargs : α) : Lists Ω Φ α := pushCallback .prefinalize mid owner cb uargs

/-- `margo_provider_push_finalize_callback`. -/
def margoProviderPushFinalizeCallback (mid : Lists Ω Φ α) (owner : Ω) (cb : Option Φ)
    (uargs : α) : Lists Ω Φ α := pushCallback .finalize mid owner cb uargs

section

variable [DecidableEq Ω]

/-- `fcb->owner == owner`. -/
def Lists.owns (mid : Lists Ω Φ α) (owner : Ω) (fcb : Nat) : Bool :=
  (mid.cb fcb).any fun cb => cb.owner = owner

/-- The loop over `prev` and `fcb` that a pop and a look-up start with. -/
def findCallback (stack : Stack) (mid : Lists Ω Φ α) (owner : Ω) : Option Nat × Option Nat :=
  search mid.next (mid.owns owner) mid.malloced none (mid.head stack)

/-- A look-up: the number it returns, and what it stores through its arguments. -/
def topCallback (stack : Stack) (mid : Lists Ω Φ α) (owner : Ω) : Int × Option (Φ × α) :=
  match (findCallback stack mid owner).2 with
  | none => (0, none)
  | some fcb => (1, (mid.cb fcb).map fun cb => (cb.callback, cb.uargs))

/-- A pop: the number it returns, and the lists afterwards. -/
def popCallback (stack : Stack) (mid : Lists Ω Φ α) (owner : Ω) : Int × Lists Ω Φ α :=
  match findCallback stack mid owner with
  | (_, none) => (0, mid)
  | (none, some fcb) =>
      (1, { mid with
        head := update mid.head stack (mid.next fcb)
        freed := mid.freed ++ [fcb] })
  | (some prev, some fcb) =>
      (1, { mid with
        next := update mid.next prev (mid.next fcb)
        freed := mid.freed ++ [fcb] })

/-- `margo_provider_top_prefinalize_callback`. -/
def margoProviderTopPrefinalizeCallback (mid : Lists Ω Φ α) (owner : Ω) :
    Int × Option (Φ × α) := topCallback .prefinalize mid owner

/-- `margo_provider_pop_prefinalize_callback`. -/
def margoProviderPopPrefinalizeCallback (mid : Lists Ω Φ α) (owner : Ω) :
    Int × Lists Ω Φ α := popCallback .prefinalize mid owner

/-- `margo_provider_top_finalize_callback`. -/
def margoProviderTopFinalizeCallback (mid : Lists Ω Φ α) (owner : Ω) :
    Int × Option (Φ × α) := topCallback .finalize mid owner

/-- `margo_provider_pop_finalize_callback`. -/
def margoProviderPopFinalizeCallback (mid : Lists Ω Φ α) (owner : Ω) :
    Int × Lists Ω Φ α := popCallback .finalize mid owner

end

/-! ## The loops that call -/

/-- A call of a callback, with the entry it was made for. -/
structure Call (Φ α : Type) where
  fcb : Nat
  callback : Φ
  uargs : α
  deriving DecidableEq, Repr

/-- An instance whose callbacks are pushed, popped and called. -/
structure Runtime (Ω Φ α : Type) where
  mid : Lists Ω Φ α
  /-- The list that is being called, and the entry whose callback is under way. -/
  running : Option (Stack × Nat)
  /-- The calls made so far. No function reads them. -/
  calls : List (Call Φ α)
  /-- The entries popped so far. No function reads them. -/
  popped : List Nat

/-- What the program does with its callbacks, or a callback that is under way. -/
inductive Action (Ω Φ α : Type)
  | push (stack : Stack) (owner : Ω) (cb : Option Φ) (uargs : α)
  | pop (stack : Stack) (owner : Ω)
  | top (stack : Stack) (owner : Ω)
  /-- Start the loop of a list: `margo_finalize` or `margo_call_finalization_callbacks`. -/
  | run (stack : Stack)
  /-- The callback that is under way returns. -/
  | return
  deriving DecidableEq, Repr

/-- The loops of `margo_finalize` and of `margo_call_finalization_callbacks` at the test
`while (fcb)`, with `fcb` the head of the list. -/
def callNext (stack : Stack) (s : Runtime Ω Φ α) : Runtime Ω Φ α :=
  match s.mid.head stack with
  | none => { s with running := none }
  | some fcb =>
      { s with
        mid := { s.mid with head := update s.mid.head stack (s.mid.next fcb) }
        running := some (stack, fcb)
        calls := s.calls ++ (s.mid.cb fcb).toList.map fun cb => ⟨fcb, cb.callback, cb.uargs⟩ }

/-- One action; a loop is only started when none is under way. -/
def step [DecidableEq Ω] (s : Runtime Ω Φ α) : Action Ω Φ α → Option (Runtime Ω Φ α)
  | .push .prefinalize owner cb uargs =>
      some { s with mid := margoProviderPushPrefinalizeCallback s.mid owner cb uargs }
  | .push .finalize owner cb uargs =>
      some { s with mid := margoProviderPushFinalizeCallback s.mid owner cb uargs }
  | .pop .prefinalize owner =>
      some { s with
        mid := (margoProviderPopPrefinalizeCallback s.mid owner).2
        popped := s.popped ++ (findCallback .prefinalize s.mid owner).2.toList }
  | .pop .finalize owner =>
      some { s with
        mid := (margoProviderPopFinalizeCallback s.mid owner).2
        popped := s.popped ++ (findCallback .finalize s.mid owner).2.toList }
  | .top _ _ => some s
  | .run stack =>
      match s.running with
      | none => some (callNext stack s)
      | some _ => none
  | .return =>
      match s.running with
      | none => none
      | some (stack, tmp) =>
          -- `fcb` is read again before `tmp` is freed
          some (callNext stack { s with mid := { s.mid with freed := s.mid.freed ++ [tmp] } })

/-- An instance before its first callback. -/
def init : Runtime Ω Φ α where
  mid := ⟨fun _ => none, fun _ => none, fun _ => none, 0, []⟩
  running := none
  calls := []
  popped := []

/-! ## What the lists hold -/

/-- The entries of a list from its head on. -/
def Lists.entries (mid : Lists Ω Φ α) (stack : Stack) : List Nat :=
  walk mid.next mid.malloced (mid.head stack)

/-- The entry that an action pushes. -/
def Action.entry : Action Ω Φ α → Option (Stack × FinalizeCb Ω Φ α)
  | .push stack owner (some callback) uargs => some (stack, ⟨owner, callback, uargs⟩)
  | _ => none

/-- The entries pushed by a sequence of actions, in order. -/
def pushes (as : List (Action Ω Φ α)) : List (Stack × FinalizeCb Ω Φ α) :=
  as.filterMap Action.entry

/-- The pushed entry is one of an owner's. -/
def ownedBy [DecidableEq Ω] (ps : List (Stack × FinalizeCb Ω Φ α)) (owner : Ω) (fcb : Nat) : Bool :=
  ps[fcb]?.any fun entry => entry.2.owner = owner

/-- Every entry that was pushed is in its list, was popped or was called, and only once; the
lists go from the newest entry on; a call was made with what was pushed; look-ups and pops
return what they should. -/
structure StackLaws [DecidableEq Ω] (ps : List (Stack × FinalizeCb Ω Φ α))
    (s : Runtime Ω Φ α) : Prop where
  accounted : (s.mid.entries .prefinalize ++ s.mid.entries .finalize ++
    (s.popped ++ s.calls.map Call.fcb)).Perm (List.range ps.length)
  freed : (s.mid.freed ++ (s.running.map Prod.snd).toList).Perm
    (s.popped ++ s.calls.map Call.fcb)
  newestFirst : ∀ stack, (s.mid.entries stack).Pairwise (· > ·)
  ownList : ∀ stack, ∀ fcb ∈ s.mid.entries stack, ps[fcb]?.map Prod.fst = some stack
  ownArgument : ∀ call ∈ s.calls, ∃ stack owner,
    ps[call.fcb]? = some (stack, ⟨owner, call.callback, call.uargs⟩)
  top : ∀ stack owner, topCallback stack s.mid owner =
    match (s.mid.entries stack).find? (ownedBy ps owner) with
    | none => (0, none)
    | some fcb => (1, ps[fcb]?.map fun entry => (entry.2.callback, entry.2.uargs))
  pop : ∀ stack owner, (popCallback stack s.mid owner).1 =
    if (s.mid.entries stack).any (ownedBy ps owner) then 1 else 0

/-- What the loop of a list does between two calls: it calls the newest entry of the list,
and it ends when there is none. -/
def Turn (stack : Stack) (s s' : Runtime Ω Φ α) : Prop :=
  s'.popped = s.popped ∧
    match s.mid.entries stack with
    | [] => s'.mid.entries = s.mid.entries ∧ s'.calls = s.calls ∧ s'.running = none
    | fcb :: rest =>
        s'.mid.entries = update s.mid.entries stack rest ∧
          (∃ callback uargs, s'.calls = s.calls ++ [⟨fcb, callback, uargs⟩]) ∧
          s'.running = some (stack, fcb)

/-- What an action does to the lists. -/
def StepLaw [DecidableEq Ω] (ps : List (Stack × FinalizeCb Ω Φ α)) (s : Runtime Ω Φ α)
    (a : Action Ω Φ α) (s' : Runtime Ω Φ α) : Prop :=
  match a with
  | .push stack _ (some _) _ =>
      s'.mid.entries =
          update s.mid.entries stack (ps.length :: s.mid.entries stack) ∧
        s'.calls = s.calls ∧ s'.popped = s.popped ∧ s'.running = s.running
  | .push _ _ none _ | .top _ _ => s' = s
  | .pop stack owner =>
      s'.mid.entries =
          update s.mid.entries stack ((s.mid.entries stack).eraseP (ownedBy ps owner)) ∧
        s'.calls = s.calls ∧ s'.running = s.running ∧
        s'.popped = s.popped ++ ((s.mid.entries stack).find? (ownedBy ps owner)).toList
  | .run stack => s.running = none ∧ Turn stack s s'
  | .return => ∃ stack fcb, s.running = some (stack, fcb) ∧ Turn stack s s'

/-! ## The lists in memory -/

/-- The links of the two lists lead through these entries. -/
structure Linked (mid : Lists Ω Φ α) (es : Stack → List Nat) : Prop where
  path : ∀ stack, Path mid.next (mid.head stack) (es stack)
  lt : ∀ stack, ∀ fcb ∈ es stack, fcb < mid.malloced
  apart : ∀ stack other, other ≠ stack → (es other).Disjoint (es stack)

section

variable {mid : Lists Ω Φ α} {es : Stack → List Nat}

theorem Linked.length_le (h : Linked mid es) (stack : Stack) :
    (es stack).length ≤ mid.malloced := by
  have hsubset : es stack ⊆ List.range mid.malloced :=
    fun fcb hfcb => List.mem_range.mpr (h.lt stack fcb hfcb)
  have hle := ((h.path stack).nodup.subperm hsubset).length_le
  rwa [List.length_range] at hle

theorem Linked.entries_eq (h : Linked mid es) : mid.entries = es := by
  ext1 stack
  exact (h.path stack).walk_eq (h.length_le stack)

/-- One list becomes another one, the other list stays as it is. -/
theorem Linked.relist (h : Linked mid es) {mid' : Lists Ω Φ α} {stack : Stack} {p : Option Nat}
    {us : List Nat} (hhead : mid'.head = update mid.head stack p) (hpath : Path mid'.next p us)
    (hother : ∀ other ≠ stack, Path mid'.next (mid.head other) (es other))
    (hmalloced : mid.malloced ≤ mid'.malloced) (hlt : ∀ fcb ∈ us, fcb < mid'.malloced)
    (hapart : ∀ other ≠ stack, (es other).Disjoint us) : Linked mid' (update es stack us) := by
  refine ⟨?_, ?_, ?_⟩
  · intro other
    rw [hhead]
    by_cases hsame : other = stack
    · rw [hsame, update_self, update_self]
      exact hpath
    · rw [update_of_ne hsame, update_of_ne hsame]
      exact hother other hsame
  · intro other fcb hfcb
    by_cases hsame : other = stack
    · rw [hsame, update_self] at hfcb
      exact hlt fcb hfcb
    · rw [update_of_ne hsame] at hfcb
      exact (h.lt other fcb hfcb).trans_le hmalloced
  · intro first other hne
    by_cases hfirst : first = stack
    · subst hfirst
      rw [update_self, update_of_ne hne]
      exact hapart other hne
    · rw [update_of_ne hfirst]
      by_cases hsame : other = stack
      · rw [hsame, update_self]
        exact fun n hn hmem => hapart first hfirst hmem hn
      · rw [update_of_ne hsame]
        exact h.apart first other hne

/-- The entries of one list are not in the other one. -/
theorem Linked.apart_of_subset (h : Linked mid es) {stack : Stack} {us : List Nat}
    (hsub : us ⊆ es stack) : ∀ other ≠ stack, (es other).Disjoint us := by
  intro other hother fcb hfcb hus
  exact h.apart stack other hother hfcb (hsub hus)

/-- The first entry is taken off a list. -/
theorem Linked.detach (h : Linked mid es) {stack : Stack} {fcb : Nat} {rest : List Nat}
    (hes : es stack = fcb :: rest) (freed : List Nat) :
    Linked { mid with head := update mid.head stack (mid.next fcb), freed := freed }
      (update es stack rest) := by
  have hpath := h.path stack
  rw [hes] at hpath
  have hsub : rest ⊆ es stack := hes ▸ List.subset_cons_self fcb rest
  apply h.relist
  · rfl
  · exact hpath.2
  · exact fun other _ => h.path other
  · exact le_rfl
  · exact fun n hn => h.lt stack n (hsub hn)
  · exact h.apart_of_subset hsub

/-- An entry is put before the first one. -/
theorem Linked.push (h : Linked mid es) (stack : Stack) (owner : Ω) (callback : Φ) (uargs : α) :
    Linked (pushCallback stack mid owner (some callback) uargs)
      (update es stack (mid.malloced :: es stack)) := by
  have hnew : ∀ other, mid.malloced ∉ es other :=
    fun other hmem => Nat.lt_irrefl _ (h.lt other _ hmem)
  apply h.relist
  · rfl
  · exact (h.path stack).push (hnew stack)
  · exact fun other _ => (h.path other).update (hnew other) _
  · exact Nat.le_succ _
  · intro fcb hfcb
    rcases List.mem_cons.mp hfcb with rfl | hfcb
    · exact Nat.lt_succ_self _
    · exact Nat.lt_succ_of_lt (h.lt stack fcb hfcb)
  · intro other hother fcb hfcb hmem
    rcases List.mem_cons.mp hmem with rfl | hmem
    · exact hnew other hfcb
    · exact h.apart stack other hother hfcb hmem

section

variable [DecidableEq Ω]

/-- What the loop of a pop and of a look-up finds. -/
theorem Linked.find_eq (h : Linked mid es) (stack : Stack) (owner : Ω) :
    findCallback stack mid owner =
      (((es stack).takeWhile fun fcb => !mid.owns owner fcb).getLast?,
        (es stack).find? (mid.owns owner)) := by
  rw [findCallback, (h.path stack).search_eq (h.length_le stack), Option.or_none]

/-- A look-up finds the owner's newest entry. -/
theorem Linked.top_eq (h : Linked mid es) (stack : Stack) (owner : Ω) :
    topCallback stack mid owner =
      match (es stack).find? (mid.owns owner) with
      | none => (0, none)
      | some fcb => (1, (mid.cb fcb).map fun cb => (cb.callback, cb.uargs)) := by
  rw [topCallback, h.find_eq]

/-- A pop takes the owner's newest entry out of the list and frees it. -/
theorem Linked.pop (h : Linked mid es) (stack : Stack) (owner : Ω) :
    (popCallback stack mid owner).1 = (if (es stack).any (mid.owns owner) then 1 else 0) ∧
      Linked (popCallback stack mid owner).2
        (update es stack ((es stack).eraseP (mid.owns owner))) ∧
      (popCallback stack mid owner).2.cb = mid.cb ∧
      (popCallback stack mid owner).2.malloced = mid.malloced ∧
      (popCallback stack mid owner).2.freed =
        mid.freed ++ ((es stack).find? (mid.owns owner)).toList := by
  rw [popCallback, h.find_eq]
  cases hfind : (es stack).find? (mid.owns owner) with
  | none =>
      have hnone := List.find?_eq_none.mp hfind
      have hany : (es stack).any (mid.owns owner) = false := by simpa using hnone
      rw [List.eraseP_of_forall_not hnone, update_eq_self, hany]
      exact ⟨rfl, h, rfl, rfl, (List.append_nil _).symm⟩
  | some fcb =>
      obtain ⟨howns, xs, ys, hes, hxs⟩ := List.find?_eq_some_iff_append.mp hfind
      have hxs' : ∀ n ∈ xs, ¬ mid.owns owner n = true := by simpa using hxs
      have hany : (es stack).any (mid.owns owner) = true :=
        List.any_eq_true.mpr ⟨fcb, by simp [hes], howns⟩
      have herase : (es stack).eraseP (mid.owns owner) = xs ++ ys := by
        rw [hes, List.eraseP_append_right _ hxs', List.eraseP_cons_of_pos howns]
      have htake : (es stack).takeWhile (fun n => !mid.owns owner n) = xs := by
        rw [hes, List.takeWhile_append_of_pos hxs,
          List.takeWhile_cons_of_neg (by simp [howns]), List.append_nil]
      have hsub : xs ++ ys ⊆ es stack := by
        rw [hes]
        exact (List.sublist_cons_self fcb ys).append_left xs |>.subset
      have hpath := h.path stack
      rw [hes] at hpath
      rw [herase, htake, hany]
      cases hlast : xs.getLast? with
      | none =>
          -- the first entry of the list
          obtain rfl := List.getLast?_eq_none_iff.mp hlast
          exact ⟨rfl, h.detach hes _, rfl, rfl, rfl⟩
      | some prev =>
          have hprev : prev ∈ es stack :=
            hsub (List.mem_append_left ys (List.mem_of_getLast? hlast))
          refine ⟨rfl, ?_, rfl, rfl, rfl⟩
          apply h.relist
          · exact (update_eq_self stack mid.head).symm
          · exact hpath.unlink hlast
          · intro other hother
            exact (h.path other).update (fun hmem => h.apart stack other hother hmem hprev) _
          · exact le_rfl
          · exact fun n hn => h.lt stack n (hsub hn)
          · exact h.apart_of_subset hsub

end

end

/-! ## Every entry once -/

/-- The entries of both lists. -/
def allEntries (es : Stack → List Nat) : List Nat := es .prefinalize ++ es .finalize

/-- An entry more in one list is an entry more in both. -/
theorem allEntries_update {es : Stack → List Nat} {stack : Stack} {fcb : Nat} {rest : List Nat}
    (h : (es stack).Perm (fcb :: rest)) :
    (allEntries es).Perm (fcb :: allEntries (update es stack rest)) := by
  cases stack with
  | prefinalize => exact h.append_right (es .finalize)
  | finalize => exact (h.append_left (es .prefinalize)).trans List.perm_middle

/-- What holds after entries have been pushed. -/
structure Inv (ps : List (Stack × FinalizeCb Ω Φ α)) (s : Runtime Ω Φ α)
    (es : Stack → List Nat) : Prop where
  linked : Linked s.mid es
  malloced : s.mid.malloced = ps.length
  cb : ∀ fcb, s.mid.cb fcb = ps[fcb]?.map Prod.snd
  newestFirst : ∀ stack, (es stack).Pairwise (· > ·)
  ownList : ∀ stack, ∀ fcb ∈ es stack, ps[fcb]?.map Prod.fst = some stack
  accounted : (allEntries es ++ (s.popped ++ s.calls.map Call.fcb)).Perm (List.range ps.length)
  freed : (s.mid.freed ++ (s.running.map Prod.snd).toList).Perm
    (s.popped ++ s.calls.map Call.fcb)
  ownArgument : ∀ call ∈ s.calls, ∃ stack owner,
    ps[call.fcb]? = some (stack, ⟨owner, call.callback, call.uargs⟩)

section

variable {ps : List (Stack × FinalizeCb Ω Φ α)} {s s' : Runtime Ω Φ α} {es : Stack → List Nat}

theorem inv_init : Inv ([] : List (Stack × FinalizeCb Ω Φ α)) init (fun _ => []) where
  linked := ⟨fun _ => rfl, by simp, by simp⟩
  malloced := rfl
  cb _ := rfl
  newestFirst _ := List.Pairwise.nil
  ownList _ _ h := absurd h List.not_mem_nil
  accounted := List.Perm.nil
  freed := List.Perm.nil
  ownArgument _ h := absurd h List.not_mem_nil

/-- What was pushed stays where it is when more is pushed. -/
theorem getElem?_concat {β : Type*} {l : List β} {n : Nat} {b : β} (h : l[n]? = some b)
    (c : β) : (l ++ [c])[n]? = some b := by
  obtain ⟨hlt, -⟩ := List.getElem?_eq_some_iff.mp h
  rw [List.getElem?_append_left hlt, h]

theorem Inv.quiet (h : Inv ps s es) : Inv (ps ++ []) s es := by
  rwa [List.append_nil]

theorem Inv.push (h : Inv ps s es) (stack : Stack) (owner : Ω) (callback : Φ) (uargs : α) :
    Inv (ps ++ [(stack, ⟨owner, callback, uargs⟩)])
      { s with mid := pushCallback stack s.mid owner (some callback) uargs }
      (update es stack (ps.length :: es stack)) := by
  have hlinked := h.linked.push stack owner callback uargs
  rw [h.malloced] at hlinked
  refine ⟨hlinked, ?_, ?_, ?_, ?_, ?_, h.freed, ?_⟩
  · simp [pushCallback, h.malloced]
  · intro fcb
    by_cases hnew : fcb = ps.length
    · simp [pushCallback, h.malloced, hnew]
    · have hsame : (ps ++ [(stack, ⟨owner, callback, uargs⟩)])[fcb]? = ps[fcb]? := by
        by_cases hlt : fcb < ps.length
        · exact List.getElem?_append_left hlt
        · rw [List.getElem?_eq_none (by simp; omega), List.getElem?_eq_none (by omega)]
      simp [pushCallback, h.malloced, hnew, hsame, h.cb]
  · intro other
    by_cases hother : other = stack
    · subst hother
      rw [update_self, List.pairwise_cons]
      refine ⟨?_, h.newestFirst other⟩
      intro fcb hfcb
      rw [← h.malloced]
      exact h.linked.lt other fcb hfcb
    · rw [update_of_ne hother]
      exact h.newestFirst other
  · have hold : ∀ other, ∀ fcb ∈ es other,
        (ps ++ [(stack, ⟨owner, callback, uargs⟩)])[fcb]?.map Prod.fst = some other := by
      intro other fcb hfcb
      obtain ⟨entry, hentry, rfl⟩ := Option.map_eq_some_iff.mp (h.ownList other fcb hfcb)
      rw [getElem?_concat hentry, Option.map_some]
    intro other fcb hfcb
    by_cases hother : other = stack
    · subst hother
      rw [update_self] at hfcb
      rcases List.mem_cons.mp hfcb with rfl | hfcb
      · simp
      · exact hold other fcb hfcb
    · rw [update_of_ne hother] at hfcb
      exact hold other fcb hfcb
  · have hself : update es stack (ps.length :: es stack) stack ~ ps.length :: es stack := by
      rw [update_self]
    have hall := allEntries_update hself
    rw [update_idem, update_eq_self] at hall
    rw [List.length_append, List.length_singleton, List.range_succ]
    calc allEntries (update es stack (ps.length :: es stack)) ++
          (s.popped ++ s.calls.map Call.fcb)
        _ ~ ps.length :: allEntries es ++ (s.popped ++ s.calls.map Call.fcb) :=
          hall.append_right _
        _ ~ ps.length :: List.range ps.length := h.accounted.cons _
        _ ~ List.range ps.length ++ [ps.length] := (List.perm_append_singleton _ _).symm
  · intro call hcall
    obtain ⟨other, owner', hentry⟩ := h.ownArgument call hcall
    exact ⟨other, owner', getElem?_concat hentry _⟩

/-- An entry is taken out of a list, to be counted elsewhere. -/
theorem Inv.take (h : Inv ps s es) {stack : Stack} {fcb : Nat} {rest : List Nat}
    (hperm : (es stack).Perm (fcb :: rest)) :
    (allEntries (update es stack rest) ++ (fcb :: (s.popped ++ s.calls.map Call.fcb))).Perm
      (List.range ps.length) := by
  calc allEntries (update es stack rest) ++ (fcb :: (s.popped ++ s.calls.map Call.fcb))
      _ ~ fcb :: allEntries (update es stack rest) ++ (s.popped ++ s.calls.map Call.fcb) :=
        List.perm_middle
      _ ~ allEntries es ++ (s.popped ++ s.calls.map Call.fcb) :=
        ((allEntries_update hperm).symm.append_right _)
      _ ~ List.range ps.length := h.accounted

/-- A shorter list of the same entries. -/
theorem Inv.shorten (h : Inv ps s es) {stack : Stack} {us : List Nat}
    (hsub : us.Sublist (es stack)) :
    (∀ other, (update es stack us other).Pairwise (· > ·)) ∧
      ∀ other, ∀ fcb ∈ update es stack us other, ps[fcb]?.map Prod.fst = some other := by
  constructor
  · intro other
    by_cases hother : other = stack
    · subst hother
      rw [update_self]
      exact (h.newestFirst other).sublist hsub
    · rw [update_of_ne hother]
      exact h.newestFirst other
  · intro other fcb hfcb
    by_cases hother : other = stack
    · subst hother
      rw [update_self] at hfcb
      exact h.ownList other fcb (hsub.subset hfcb)
    · rw [update_of_ne hother] at hfcb
      exact h.ownList other fcb hfcb

theorem callNext_none {stack : Stack} (hhead : s.mid.head stack = none) :
    callNext stack s = { s with running := none } := by
  rw [callNext, hhead]

theorem callNext_some {stack : Stack} {fcb : Nat} {cb : FinalizeCb Ω Φ α}
    (hhead : s.mid.head stack = some fcb) (hcb : s.mid.cb fcb = some cb) :
    callNext stack s =
      { s with
        mid := { s.mid with head := update s.mid.head stack (s.mid.next fcb) }
        running := some (stack, fcb)
        calls := s.calls ++ [⟨fcb, cb.callback, cb.uargs⟩] } := by
  simp only [callNext, hhead, hcb, Option.toList_some, List.map_cons, List.map_nil]

/-- An entry of a list is in memory as it was pushed. -/
theorem Inv.entry (h : Inv ps s es) {stack : Stack} {fcb : Nat} (hfcb : fcb ∈ es stack) :
    ∃ cb, ps[fcb]? = some (stack, cb) ∧ s.mid.cb fcb = some cb := by
  obtain ⟨⟨_, cb⟩, hentry, rfl⟩ := Option.map_eq_some_iff.mp (h.ownList stack fcb hfcb)
  refine ⟨cb, hentry, ?_⟩
  rw [h.cb, hentry, Option.map_some]

/-- The loop of a list at its test, with no callback under way. -/
theorem Inv.callNext (h : Inv ps { s with running := none } es) (stack : Stack) :
    Inv ps (callNext stack s) (update es stack (es stack).tail) ∧
      Turn stack s (Callbacks.callNext stack s) := by
  have hhead : (es stack).head? = s.mid.head stack := (h.linked.path stack).head
  have hentries : s.mid.entries = es := h.linked.entries_eq
  have hfreed : s.mid.freed ~ s.popped ++ s.calls.map Call.fcb := by simpa using h.freed
  cases hes : es stack with
  | nil =>
      rw [hes] at hhead
      have hsame : update es stack [] = es := by rw [← hes, update_eq_self]
      rw [callNext_none hhead.symm, List.tail_nil, hsame, Turn, hentries, hes]
      exact ⟨h, rfl, rfl, rfl, rfl⟩
  | cons fcb rest =>
      have hmem : fcb ∈ es stack := by rw [hes]; exact List.mem_cons_self
      have hsub : rest.Sublist (es stack) := by rw [hes]; exact List.sublist_cons_self fcb rest
      obtain ⟨cb, hentry, hcb⟩ := h.entry hmem
      obtain ⟨hnewest, hown⟩ := h.shorten hsub
      rw [hes] at hhead
      rw [callNext_some hhead.symm hcb, List.tail_cons]
      have hlinked := h.linked.detach hes s.mid.freed
      constructor
      · refine ⟨hlinked, h.malloced, h.cb, hnewest, hown, ?_, ?_, ?_⟩
        · apply List.Perm.trans _ (h.take (List.Perm.of_eq hes))
          apply List.Perm.append_left
          simp only [List.map_append, List.map_cons, List.map_nil, ← List.append_assoc]
          exact List.perm_append_singleton _ _
        · simp only [List.map_append, List.map_cons, List.map_nil, ← List.append_assoc]
          exact hfreed.append_right _
        · intro call hcall
          rcases List.mem_append.mp hcall with hcall | hcall
          · exact h.ownArgument call hcall
          · obtain rfl := List.mem_singleton.mp hcall
            exact ⟨stack, cb.owner, hentry⟩
      · rw [Turn, hentries, hes]
        exact ⟨rfl, hlinked.entries_eq, ⟨cb.callback, cb.uargs, rfl⟩, rfl⟩

section

variable [DecidableEq Ω]

theorem Inv.owns_eq (h : Inv ps s es) (owner : Ω) : s.mid.owns owner = ownedBy ps owner := by
  ext1 fcb
  rw [Lists.owns, ownedBy, h.cb]
  cases ps[fcb]? <;> rfl

/-- The first entry that passes a test, taken out. -/
theorem perm_eraseP {l : List Nat} {test : Nat → Bool} {n : Nat} (hfind : l.find? test = some n) :
    l ~ n :: l.eraseP test := by
  obtain ⟨htest, xs, ys, rfl, hxs⟩ := List.find?_eq_some_iff_append.mp hfind
  rw [List.eraseP_append_right _ (by simpa using hxs), List.eraseP_cons_of_pos htest]
  exact List.perm_middle

theorem Inv.pop (h : Inv ps s es) (stack : Stack) (owner : Ω) :
    Inv ps
      { s with
        mid := (popCallback stack s.mid owner).2
        popped := s.popped ++ (findCallback stack s.mid owner).2.toList }
      (update es stack ((es stack).eraseP (ownedBy ps owner))) := by
  obtain ⟨-, hlinked, hcb, hmalloced, hfreed⟩ := h.linked.pop stack owner
  rw [h.owns_eq] at hlinked hfreed
  obtain ⟨hnewest, hown⟩ := h.shorten (List.eraseP_sublist (p := ownedBy ps owner))
  have hfind : (findCallback stack s.mid owner).2 = (es stack).find? (ownedBy ps owner) := by
    rw [h.linked.find_eq, h.owns_eq]
  refine ⟨hlinked, hmalloced.trans h.malloced, ?_, hnewest, hown, ?_, ?_, h.ownArgument⟩
  · intro fcb
    rw [hcb, h.cb]
  · simp only [hfind]
    cases hfound : (es stack).find? (ownedBy ps owner) with
    | none =>
        rw [List.eraseP_of_forall_not (List.find?_eq_none.mp hfound), update_eq_self,
          Option.toList_none, List.append_nil]
        exact h.accounted
    | some fcb =>
        apply List.Perm.trans _ (h.take (perm_eraseP hfound))
        apply List.Perm.append_left
        rw [Option.toList_some, List.append_assoc]
        exact List.perm_middle
  · simp only [hfind, hfreed]
    have hmoved : s.mid.freed ++ ((es stack).find? (ownedBy ps owner)).toList ++
          (s.running.map Prod.snd).toList ~
        ((es stack).find? (ownedBy ps owner)).toList ++
          (s.popped ++ s.calls.map Call.fcb) := by
      rw [List.append_assoc]
      exact (List.perm_append_comm_assoc _ _ _).trans (h.freed.append_left _)
    apply hmoved.trans
    rw [List.append_assoc]
    exact List.perm_append_comm_assoc _ _ _

/-! ## Runs -/

/-- What an action does, and what holds after it. -/
theorem Inv.step (h : Inv ps s es) {a : Action Ω Φ α} (hstep : Callbacks.step s a = some s') :
    StepLaw ps s a s' ∧ ∃ es', Inv (ps ++ a.entry.toList) s' es' := by
  have hentries : s.mid.entries = es := h.linked.entries_eq
  cases a with
  | push stack owner cb uargs =>
      cases cb with
      | none =>
          have hs : s' = s := by
            cases stack <;> exact (Option.some.inj hstep).symm
          subst hs
          exact ⟨rfl, es, h.quiet⟩
      | some callback =>
          have hs : s' =
              { s with mid := pushCallback stack s.mid owner (some callback) uargs } := by
            cases stack <;> exact (Option.some.inj hstep).symm
          subst hs
          have hpush := h.push stack owner callback uargs
          refine ⟨⟨?_, rfl, rfl, rfl⟩, _, hpush⟩
          rw [hentries]
          exact hpush.linked.entries_eq
  | pop stack owner =>
      have hs : s' = { s with
          mid := (popCallback stack s.mid owner).2
          popped := s.popped ++ (findCallback stack s.mid owner).2.toList } := by
        cases stack <;> exact (Option.some.inj hstep).symm
      subst hs
      have hpop := h.pop stack owner
      refine ⟨⟨?_, rfl, rfl, ?_⟩, _, hpop.quiet⟩
      · rw [hentries]
        exact hpop.linked.entries_eq
      · rw [hentries, h.linked.find_eq, h.owns_eq]
  | top stack owner =>
      obtain rfl := Option.some.inj hstep
      exact ⟨rfl, es, h.quiet⟩
  | run stack =>
      cases hrunning : s.running with
      | some running => simp [Callbacks.step, hrunning] at hstep
      | none =>
          simp only [Callbacks.step, hrunning, Option.some.injEq] at hstep
          subst hstep
          have hidle : { s with running := none } = s := by rw [← hrunning]
          obtain ⟨hinv, hturn⟩ := Inv.callNext (hidle.symm ▸ h) stack
          exact ⟨⟨hrunning, hturn⟩, _, hinv.quiet⟩
  | «return» =>
      cases hrunning : s.running with
      | none => simp [Callbacks.step, hrunning] at hstep
      | some running =>
          obtain ⟨stack, tmp⟩ := running
          simp only [Callbacks.step, hrunning, Option.some.injEq] at hstep
          subst hstep
          have hfreed := h.freed
          rw [hrunning] at hfreed
          have hidle : Inv ps
              { s with
                mid := { s.mid with freed := s.mid.freed ++ [tmp] }
                running := none } es := by
            refine ⟨⟨h.linked.path, h.linked.lt, h.linked.apart⟩, h.malloced, h.cb, h.newestFirst,
              h.ownList, h.accounted, ?_, h.ownArgument⟩
            simpa using hfreed
          obtain ⟨hinv, hturn⟩ := Inv.callNext
            (s := { s with mid := { s.mid with freed := s.mid.freed ++ [tmp] } }) hidle stack
          exact ⟨⟨stack, tmp, hrunning, hturn⟩, _, hinv.quiet⟩

theorem Inv.run (h : Inv ps s es) {as : List (Action Ω Φ α)}
    (hrun : Run Callbacks.step Any s as s') : ∃ es', Inv (ps ++ pushes as) s' es' := by
  induction hrun generalizing ps es with
  | nil => exact ⟨es, h.quiet⟩
  | @cons s a s' as s'' hstep _ _ ih =>
      obtain ⟨-, es', h'⟩ := h.step hstep
      obtain ⟨es'', h''⟩ := ih h'
      have hpushes : pushes (a :: as) = a.entry.toList ++ pushes as := by
        cases hentry : a.entry <;> simp [pushes, hentry]
      rw [hpushes, ← List.append_assoc]
      exact ⟨es'', h''⟩

theorem Inv.stackLaws (h : Inv ps s es) : StackLaws ps s := by
  have hentries : s.mid.entries = es := h.linked.entries_eq
  refine ⟨?_, h.freed, ?_, ?_, h.ownArgument, ?_, ?_⟩
  · rw [hentries]
    exact h.accounted
  · rw [hentries]
    exact h.newestFirst
  · rw [hentries]
    exact h.ownList
  · intro stack owner
    rw [h.linked.top_eq, hentries, h.owns_eq]
    cases (es stack).find? (ownedBy ps owner) with
    | none => rfl
    | some fcb =>
        simp only [h.cb, Option.map_map]
        rfl
  · intro stack owner
    rw [hentries, ← h.owns_eq]
    exact (h.linked.pop stack owner).1

end

end

section

variable [DecidableEq Ω] {ps : List (Stack × FinalizeCb Ω Φ α)} {s : Runtime Ω Φ α}

/-- Once a list is empty, all that was pushed on it has been popped or called. -/
theorem StackLaws.all_done (h : StackLaws ps s) {stack : Stack}
    (hempty : s.mid.entries stack = []) {fcb : Nat} (hfcb : ps[fcb]?.map Prod.fst = some stack) :
    fcb ∈ s.popped ∨ ∃ call ∈ s.calls, call.fcb = fcb := by
  obtain ⟨entry, hentry, rfl⟩ := Option.map_eq_some_iff.mp hfcb
  obtain ⟨hlt, -⟩ := List.getElem?_eq_some_iff.mp hentry
  have hmem := h.accounted.mem_iff.mpr (List.mem_range.mpr hlt)
  have hnot : ∀ other, fcb ∉ s.mid.entries other := by
    intro other hother
    have hown := h.ownList other fcb hother
    rw [hfcb] at hown
    rw [← Option.some.inj hown, hempty] at hother
    exact List.not_mem_nil hother
  rcases List.mem_append.mp hmem with hlist | hdone
  · rcases List.mem_append.mp hlist with hlist | hlist
    · exact absurd hlist (hnot _)
    · exact absurd hlist (hnot _)
  · rcases List.mem_append.mp hdone with hpopped | hcalled
    · exact .inl hpopped
    · exact .inr (List.mem_map.mp hcalled)

end

/-- Whatever is pushed, popped, looked up and called, in whatever order: each entry is in its
list, popped or called once, with its own argument; the loop of a list always calls the
newest entry and ends when there is none; and then all that was pushed on it is done. -/
theorem callback_stacks [DecidableEq Ω] {as : List (Action Ω Φ α)} {s : Runtime Ω Φ α}
    (hrun : Run step Any init as s) :
    StackLaws (pushes as) s ∧
      (∀ a s', step s a = some s' → StepLaw (pushes as) s a s') ∧
      ∀ stack, s.mid.entries stack = [] →
        ∀ fcb, (pushes as)[fcb]?.map Prod.fst = some stack →
          fcb ∈ s.popped ∨ ∃ call ∈ s.calls, call.fcb = fcb := by
  obtain ⟨es, hinv⟩ := inv_init.run hrun
  refine ⟨hinv.stackLaws, ?_, ?_⟩
  · exact fun a s' hstep => (hinv.step hstep).1
  · exact fun stack hempty fcb => hinv.stackLaws.all_done hempty

/-- Two callbacks are pushed; the one called first pushes a third one for the owner of the
other, and takes it off again. -/
def reentrant : List (Action Nat Nat Nat) :=
  [.push .finalize 1 (some 10) 100, .push .finalize 2 (some 20) 200, .run .finalize,
    .push .finalize 1 (some 30) 300, .pop .finalize 1, .return, .return]

theorem callback_stacks_reentrant :
    ∃ s : Runtime Nat Nat Nat, Run step Any init reentrant s ∧
      s.calls = [⟨1, 20, 200⟩, ⟨0, 10, 100⟩] ∧ StackLaws (pushes reentrant) s := by
  have hexec : (exec step Any init reentrant).map Runtime.calls =
      some [⟨1, 20, 200⟩, ⟨0, 10, 100⟩] := by decide
  obtain ⟨s, hrun, hcalls⟩ := run_of_exec_map hexec
  exact ⟨s, hrun, hcalls, (callback_stacks hrun).1⟩

end Margo.Shutdown.Callbacks
