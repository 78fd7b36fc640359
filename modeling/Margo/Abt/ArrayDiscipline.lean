import Margo.Abt.ArraySpecs
import Margo.Abt.Calls
import Margo.Lib.Runs

/-!
# The discipline of the arrays

From any initialization on, whatever is added and removed and however that
fails, both arrays stay tidy: the slots not in use are zero, and a new entry is
always written below the capacity. An operation that fails changes nothing but
use counts, one that adds an entry appends it, and one that removes an entry
leaves exactly the others.

## Implementation notes

Reference counts belong to whoever refers to an entry, so a run changes them in
any way between two operations. The primary xstream stays registered; it is what
keeps a failed registration from marking pools as used by it.
-/

namespace Margo.Abt.Arrays

open Lib Lib.Runs

variable {ps : List PoolSlot} {k : Nat} {xs : List XstreamSlot} {m : Nat}

/-! ## Registration -/

/-- An xstream named like the primary one is registered. -/
def HasPrimary (a : Arrays) : Prop := ∃ x ∈ a.xstreams.entries, x.name = some "__primary__"

theorem hasPrimary_laid :
    (laid ps k xs m).HasPrimary ↔ ∃ x ∈ xs, x.name = some "__primary__" := by
  rw [HasPrimary, entries_xstreams_laid]

/-- How an addition of a pool returns. -/
def AddsPool (ps : List PoolSlot) (xs : List XstreamSlot) (m : Nat) (r : Arrays × Bool) : Prop :=
  (∃ k, r = (laid ps k xs m, false)) ∨
    ∃ p k, Unused p ∧ r = (laid (ps ++ [p]) k xs m, true)

/-- How an addition of an xstream returns. -/
def AddsXstream (ps : List PoolSlot) (k : Nat) (xs : List XstreamSlot) (r : Arrays × Bool) :
    Prop :=
  ∃ ps', ps'.map forgetUses = ps.map forgetUses ∧
    ((∃ m, r = (laid ps' k xs m, false)) ∨
      ∃ x m, x.refcount = 0 ∧ r = (laid ps' k (xs ++ [x]) m, true))

theorem addsPool_failed : AddsPool ps xs m (laid ps k xs m, false) := .inl ⟨k, rfl⟩

theorem addsXstream_failed : AddsXstream ps k xs (laid ps k xs m, false) :=
  ⟨ps, rfl, .inl ⟨m, rfl⟩⟩

theorem growPools_append {env : Env} {init : Arrays → PoolSlot → Mem (PoolSlot × Bool)}
    (hinit : ∀ a, Returns (init a 0) InitsPool) :
    Returns (match growPools env (laid ps k xs m) with
      | none => pure (laid ps k xs m, false)
      | some a => appendPool (init a) a) (AddsPool ps xs m) := by
  split
  · exact returns_pure addsPool_failed
  · next a hgrow =>
      obtain ⟨k', rfl⟩ := growPools_laid hgrow
      refine (appendPool_laid (hinit _)).mono fun r hr => ?_
      obtain rfl | ⟨p, hp, rfl⟩ := hr
      · exact addsPool_failed
      · exact .inr ⟨p, k', hp, rfl⟩

theorem addPoolFromJson_laid (env : Env) (config : Json) :
    Returns (addPoolFromJson env config (laid ps k xs m)) (AddsPool ps xs m) := by
  unfold addPoolFromJson
  split
  · exact returns_pure addsPool_failed
  · split
    · exact returns_pure addsPool_failed
    · exact growPools_append (poolInitFromJson_zero env config)

theorem addExternalPool_laid (env : Env) (name : Option String) (pool : PoolHandle) :
    Returns (addExternalPool env name pool (laid ps k xs m)) (AddsPool ps xs m) := by
  unfold addExternalPool
  split
  · exact returns_pure addsPool_failed
  · split
    · exact returns_pure addsPool_failed
    · exact growPools_append (poolInitExternal_zero name pool)

theorem growXstreams_append {env : Env}
    {init : Arrays → XstreamSlot → Mem (Arrays × XstreamSlot × Bool)}
    (hinit : ∀ m, Returns (init (laid ps k xs m) 0) fun r =>
      ∃ name, InitsXstream forgetUses ps k xs m name r) :
    Returns (match growXstreams env (laid ps k xs m) with
      | none => pure (laid ps k xs m, false)
      | some a => appendXstream init a) (AddsXstream ps k xs) := by
  split
  · exact returns_pure addsXstream_failed
  · next a hgrow =>
      obtain ⟨m', rfl⟩ := growXstreams_laid hgrow
      have hinit : Returns (init (laid ps k xs (m' + 1)) 0) fun r =>
          ∃ name, True ∧ InitsXstream forgetUses ps k xs (m' + 1) name r :=
        (hinit _).mono fun r ⟨name, h⟩ => ⟨name, trivial, h⟩
      refine (appendXstream_laid hinit).mono fun r hr => ?_
      obtain ⟨name, -, ps', hmap, rfl | ⟨x, -, href, rfl⟩⟩ := hr
      · exact ⟨ps', hmap, .inl ⟨m' + 1, rfl⟩⟩
      · exact ⟨ps', hmap, .inr ⟨x, m', href, rfl⟩⟩

/-- A name that no registered xstream has is not that of the primary one. -/
theorem ne_primary {a : Arrays} (hp : a.HasPrimary) {name : String}
    (hfree : findXstreamByName a (some name) = none) : name ≠ "__primary__" := by
  rintro rfl
  obtain ⟨x, hx, hname⟩ := hp
  simpa [hname] using List.findIdx?_eq_none_iff.mp hfree x hx

theorem xstreamJsonName_ne {a a' : Arrays} (hp : a.HasPrimary) {config : Json} {name : String}
    (hfree : ((config.get "name").present &&
      (findXstreamByName a (some (config.get "name").getString)).isSome) = false)
    (hname : xstreamJsonName config a' = .ok name) : name ≠ "__primary__" := by
  unfold xstreamJsonName at hname
  split at hname
  · next hpresent =>
      rw [hpresent, Bool.true_and, Option.isSome_eq_false_iff, Option.isNone_iff_eq_none] at hfree
      obtain rfl := Except.ok.inj hname
      exact ne_primary hp hfree
  · obtain ⟨used, -, hused⟩ : ∃ used : List String, True ∧
        generateUnusedName (fun i => "__xstream_" ++ printInt i ++ "__") used = name := by
      unfold generateUnusedXstreamName at hname
      cases hmap : a'.xstreams.entries.mapM fun x => deref x.name with
      | error e =>
          rw [hmap] at hname
          cases hname
      | ok used =>
          rw [hmap] at hname
          exact ⟨used, trivial, Except.ok.inj hname⟩
    rw [← hused]
    refine generateUnusedName_ne (fun i h => ?_) _
    have hlist := congrArg String.toList h
    simp [String.toList_append] at hlist

theorem addXstreamFromJson_laid (hp : (laid ps k xs m).HasPrimary) (env : Env) (config : Json) :
    Returns (addXstreamFromJson env config (laid ps k xs m)) (AddsXstream ps k xs) := by
  unfold addXstreamFromJson
  split
  · exact returns_pure addsXstream_failed
  · split
    · exact returns_pure addsXstream_failed
    · next hfree =>
        refine growXstreams_append fun m' => ?_
        have hg : ∀ name, xstreamJsonName config (laid ps k xs m') = .ok name →
            Unseen forgetUses (name == "__primary__") := by
          intro name hname
          have hne := xstreamJsonName_ne hp (Bool.eq_false_iff.mpr hfree) hname
          rw [beq_false_of_ne hne]
          exact unseen_forgetUses
        exact (xstreamInitFromJson_laid env config hg).mono fun r ⟨name, _, h⟩ => ⟨name, h⟩

theorem addExternalXstream_laid (hp : (laid ps k xs m).HasPrimary) (env : Env)
    (name : Option String) (xstream : XstreamHandle) :
    Returns (addExternalXstream env name xstream (laid ps k xs m)) (AddsXstream ps k xs) := by
  unfold addExternalXstream
  split
  · exact returns_pure addsXstream_failed
  · next hfree =>
      split
      · exact returns_pure addsXstream_failed
      · refine growXstreams_append fun m' => ?_
        have hne : (name == some "__primary__") = false := by
          cases name with
          | none => rfl
          | some name =>
              have hnone : findXstreamByName (laid ps k xs m) (some name) = none := by
                simpa using hfree
              simpa using ne_primary hp hnone
        have hg : Unseen forgetUses (name == some "__primary__") := by
          rw [hne]
          exact unseen_forgetUses
        exact (xstreamInitExternal_laid env xstream hg).mono fun r ⟨given, _, h⟩ => ⟨given, h⟩

/-! ## One operation -/

/-- The additions of a pool. -/
def Op.addsPool : Op → Bool
  | .addPoolFromJson _ => true
  | .addExternalPool _ _ _ => true
  | _ => false

/-- The additions of an xstream. -/
def Op.addsXstream : Op → Bool
  | .addXstreamFromJson _ => true
  | .addExternalXstream _ _ _ => true
  | _ => false

/-- What an operation does to the entries, next to what its caller is told. -/
inductive Outcome (a a' : Arrays) : Op → Report → Prop
  | failed {op}
      (hpools : a'.pools.entries.map forgetUses = a.pools.entries.map forgetUses)
      (hxstreams : a'.xstreams.entries = a.xstreams.entries) : Outcome a a' op .failed
  | addedPool {op p} (hop : op.addsPool) (hp : Unused p)
      (hpools : a'.pools.entries = a.pools.entries ++ [p])
      (hxstreams : a'.xstreams.entries = a.xstreams.entries) :
      Outcome a a' op (.added a.pools.entries.length)
  | addedXstream {op x} (hop : op.addsXstream) (hx : x.refcount = 0)
      (hpools : a'.pools.entries.map forgetUses = a.pools.entries.map forgetUses)
      (hxstreams : a'.xstreams.entries = a.xstreams.entries ++ [x]) :
      Outcome a a' op (.added a.xstreams.entries.length)
  | removedPool {i p} (hp : a.pools.entries[i]? = some p)
      (hpools : a.pools.entries.Perm (p :: a'.pools.entries))
      (hxstreams : a'.xstreams.entries = a.xstreams.entries) :
      Outcome a a' (.removePool i) .removed
  | removedXstream {i x} (hx : a.xstreams.entries[i]? = some x)
      (hpools : a'.pools.entries.map forgetUses = a.pools.entries.map forgetUses)
      (hxstreams : a.xstreams.entries.Perm (x :: a'.xstreams.entries)) :
      Outcome a a' (.removeXstream i) .removed
  | poolCounted {i n}
      (hpools : a'.pools.entries = a.pools.entries.modify i fun p => { p with refcount := n })
      (hxstreams : a'.xstreams.entries = a.xstreams.entries) :
      Outcome a a' (.poolRefcount i n) .counted
  | xstreamCounted {i n}
      (hpools : a'.pools.entries = a.pools.entries)
      (hxstreams : a'.xstreams.entries =
        a.xstreams.entries.modify i fun x => { x with refcount := n }) :
      Outcome a a' (.xstreamRefcount i n) .counted

/-- The arrays after an operation, and what its caller is told, are as they
should be. -/
structure Orderly (a : Arrays) (op : Op) (r : Arrays × Report) : Prop where
  tidy : r.1.Tidy
  primary : r.1.HasPrimary
  outcome : Outcome a r.1 op r.2

variable {op : Op}

theorem orderly_failed (hp : (laid ps k xs m).HasPrimary) {ps' : List PoolSlot} {k' m' : Nat}
    (hmap : ps'.map forgetUses = ps.map forgetUses) :
    Orderly (laid ps k xs m) op (laid ps' k' xs m', .failed) where
  tidy := tidy_laid ps' k' xs m'
  primary := hasPrimary_laid.mpr (hasPrimary_laid.mp hp)
  outcome := .failed (by simpa using hmap) (by simp)

theorem AddsPool.orderly {r : Arrays × Bool} (h : AddsPool ps xs m r)
    (hp : (laid ps k xs m).HasPrimary) (hop : op.addsPool) :
    Orderly (laid ps k xs m) op (reportPool r) := by
  obtain ⟨k', rfl⟩ | ⟨p, k', hnew, rfl⟩ := h
  · exact orderly_failed hp rfl
  · refine ⟨tidy_laid _ _ _ _, hasPrimary_laid.mpr (hasPrimary_laid.mp hp), ?_⟩
    have hindex : (laid (ps ++ [p]) k' xs m).pools.len - 1 =
        (laid ps k xs m).pools.entries.length := by simp
    rw [reportPool, hindex]
    exact .addedPool hop hnew (by simp) (by simp)

theorem AddsXstream.orderly {r : Arrays × Bool} (h : AddsXstream ps k xs r)
    (hp : (laid ps k xs m).HasPrimary) (hop : op.addsXstream) :
    Orderly (laid ps k xs m) op (reportXstream r) := by
  obtain ⟨ps', hmap, ⟨m', rfl⟩ | ⟨x, m', href, rfl⟩⟩ := h
  · exact orderly_failed hp hmap
  · obtain ⟨y, hy, hname⟩ := hasPrimary_laid.mp hp
    refine ⟨tidy_laid _ _ _ _,
      hasPrimary_laid.mpr ⟨y, List.mem_append_left _ hy, hname⟩, ?_⟩
    have hindex : (laid ps' k (xs ++ [x]) m').xstreams.len - 1 =
        (laid ps k xs m).xstreams.entries.length := by simp
    rw [reportXstream, hindex]
    exact .addedXstream hop href (by simpa using hmap) (by simp)

theorem modify_last {α : Type} (l : List α) (a : α) (f : α → α) :
    (l ++ [a]).modify l.length f = l ++ [f a] := by
  induction l with
  | nil => rfl
  | cons b l ih => exact congrArg (b :: ·) ih

theorem AddsPool.own {r : Arrays × Bool} (h : AddsPool ps xs m r) (takeOwnership : Bool) :
    AddsPool ps xs m (ownPool takeOwnership r) := by
  obtain ⟨k', rfl⟩ | ⟨p, k', hnew, rfl⟩ := h
  · exact .inl ⟨k', rfl⟩
  · refine .inr ⟨{ p with margoFreeFlag := takeOwnership }, k', ⟨hnew.refcount,
      hnew.numXstreams, hnew.usedByPrimary⟩, ?_⟩
    have hlast : (laid (ps ++ [p]) k' xs m).pools.len - 1 = ps.length := by simp
    rw [ownPool, hlast, laid, SlotArray.modify_ofEntries (by simp), modify_last, laid]

theorem AddsXstream.own {r : Arrays × Bool} (h : AddsXstream ps k xs r) (takeOwnership : Bool) :
    AddsXstream ps k xs (ownXstream takeOwnership r) := by
  obtain ⟨ps', hmap, ⟨m', rfl⟩ | ⟨x, m', href, rfl⟩⟩ := h
  · exact ⟨ps', hmap, .inl ⟨m', rfl⟩⟩
  · refine ⟨ps', hmap, .inr ⟨{ x with margoFreeFlag := takeOwnership }, m', href, ?_⟩⟩
    have hlast : (laid ps' k (xs ++ [x]) m').xstreams.len - 1 = xs.length := by simp
    rw [ownXstream, hlast, laid, SlotArray.modify_ofEntries (by simp), modify_last, laid]

theorem orderly_refused (hp : (laid ps k xs m).HasPrimary) {ret : HgReturn}
    (hret : ret ≠ .success) :
    Orderly (laid ps k xs m) op (reportRemoval (laid ps k xs m, ret)) := by
  cases ret with
  | success => exact absurd rfl hret
  | invalidArg
  | noEntry
  | permission
  | otherError => exact orderly_failed hp rfl

theorem removePool_orderly (hp : (laid ps k xs m).HasPrimary) (env : Env) (index : Nat) :
    Returns (removePool env index (laid ps k xs m)) fun r =>
      Orderly (laid ps k xs m) (.removePool index) (reportRemoval r) := by
  unfold removePool
  split
  · exact returns_pure (orderly_refused hp (by decide))
  · next hindex =>
      have hlt : index < ps.length := Nat.lt_of_not_le hindex
      have hentry : ps[index]? = some ps[index] := List.getElem?_eq_getElem hlt
      have hslot : (laid ps k xs m).pools.slots[index]? = some ps[index] := by
        rw [laid, SlotArray.slots_of_lt hlt, hentry]
      rw [hslot]
      dsimp only
      split
      · exact returns_pure (orderly_refused hp (by decide))
      · split
        · exact returns_pure (orderly_refused hp (by decide))
        · split
          · exact returns_pure (orderly_refused hp (by decide))
          · split
            · exact returns_pure (orderly_refused hp (by decide))
            · have hremove : (⟨(laid ps k xs m).pools.remove index,
                  (laid ps k xs m).xstreams⟩ : Arrays) =
                  laid (swapRemove ps index) (k + 1) xs m := by
                rw [laid, SlotArray.remove_ofEntries hlt, laid]
              rw [hremove]
              refine returns_pure
                ⟨tidy_laid _ _ _ _, hasPrimary_laid.mpr (hasPrimary_laid.mp hp), ?_⟩
              refine .removedPool (p := ps[index]) (by rwa [entries_pools_laid]) ?_
                (entries_xstreams_laid.trans entries_xstreams_laid.symm)
              rw [entries_pools_laid, reportRemoval, entries_pools_laid]
              exact perm_swapRemove hentry

/-- A removed xstream that is not the primary one leaves that one registered. -/
theorem primary_swapRemove {x : XstreamSlot} {i : Nat} (hx : xs[i]? = some x)
    (hne : x.name ≠ some "__primary__") (hp : ∃ x ∈ xs, x.name = some "__primary__") :
    ∃ x ∈ swapRemove xs i, x.name = some "__primary__" := by
  obtain ⟨y, hy, hname⟩ := hp
  obtain rfl | hy := List.mem_cons.mp ((perm_swapRemove hx).mem_iff.mp hy)
  · exact absurd hname hne
  · exact ⟨y, hy, hname⟩

theorem removeXstream_orderly (hp : (laid ps k xs m).HasPrimary) (env : Env) (index : Nat) :
    Returns (removeXstream env index (laid ps k xs m)) fun r =>
      Orderly (laid ps k xs m) (.removeXstream index) (reportRemoval r) := by
  unfold removeXstream
  split
  · exact returns_pure (orderly_refused hp (by decide))
  · next hindex =>
      have hlt : index < xs.length := Nat.lt_of_not_le hindex
      have hentry : xs[index]? = some xs[index] := List.getElem?_eq_getElem hlt
      have hslot : (laid ps k xs m).xstreams.slots[index]? = some xs[index] := by
        rw [laid, SlotArray.slots_of_lt hlt, hentry]
      rw [hslot]
      refine (noOverrun_deref _).bind fun name hname => ?_
      split
      · exact returns_pure (orderly_refused hp (by decide))
      · next hne =>
          split
          · exact returns_pure (orderly_refused hp (by decide))
          · have hlaid : ∃ ps', xstreamDestroy env.destroy xs[index] (laid ps k xs m) =
                (laid ps' k xs m, 0) ∧ ps'.map forgetUses = ps.map forgetUses :=
              xstreamDestroy_laid unseen_forgetUses env.destroy xs[index] ps
            obtain ⟨ps', hdestroy, hmap⟩ := hlaid
            rw [hdestroy]
            have hremove : (⟨(laid ps' k xs m).pools,
                (laid ps' k xs m).xstreams.remove index⟩ : Arrays) =
                laid ps' k (swapRemove xs index) (m + 1) := by
              rw [laid, SlotArray.remove_ofEntries hlt, laid]
            have hother : xs[index].name ≠ some "__primary__" := by
              intro heq
              rw [heq] at hname
              exact hne (Except.ok.inj hname).symm
            dsimp only
            rw [hremove]
            refine returns_pure ⟨tidy_laid _ _ _ _, hasPrimary_laid.mpr
              (primary_swapRemove hentry hother (hasPrimary_laid.mp hp)), ?_⟩
            refine .removedXstream (x := xs[index]) (by rwa [entries_xstreams_laid]) ?_ ?_
            · rw [reportRemoval, entries_pools_laid, entries_pools_laid]
              exact hmap
            · rw [entries_xstreams_laid, reportRemoval, entries_xstreams_laid]
              exact perm_swapRemove hentry

theorem setPoolRefcount_orderly (hp : (laid ps k xs m).HasPrimary) (i n : Nat) :
    Orderly (laid ps k xs m) (.poolRefcount i n)
      (setPoolRefcount i n (laid ps k xs m), .counted) := by
  have hset : setPoolRefcount i n (laid ps k xs m) =
      laid (ps.modify i fun p => { p with refcount := n }) k xs m := by
    unfold setPoolRefcount
    split
    · next hlt => rw [laid, SlotArray.modify_ofEntries hlt, laid]
    · next hge => rw [List.modify_eq_self (Nat.le_of_not_lt hge)]
  rw [hset]
  exact ⟨tidy_laid _ _ _ _, hasPrimary_laid.mpr (hasPrimary_laid.mp hp),
    .poolCounted (by simp) (by simp)⟩

theorem setXstreamRefcount_orderly (hp : (laid ps k xs m).HasPrimary) (i n : Nat) :
    Orderly (laid ps k xs m) (.xstreamRefcount i n)
      (setXstreamRefcount i n (laid ps k xs m), .counted) := by
  have hset : setXstreamRefcount i n (laid ps k xs m) =
      laid ps k (xs.modify i fun x => { x with refcount := n }) m := by
    unfold setXstreamRefcount
    split
    · next hlt => rw [laid, SlotArray.modify_ofEntries hlt, laid]
    · next hge => rw [List.modify_eq_self (Nat.le_of_not_lt hge)]
  have hnames : (xs.modify i fun x => { x with refcount := n }).map (·.name) =
      xs.map (·.name) := map_modify_of_eq (by intro; rfl) xs i
  obtain ⟨x, hx, hname⟩ := hasPrimary_laid.mp hp
  have hprimary : some "__primary__" ∈ xs.map (·.name) := List.mem_map.mpr ⟨x, hx, hname⟩
  rw [← hnames] at hprimary
  rw [hset]
  exact ⟨tidy_laid _ _ _ _, hasPrimary_laid.mpr (List.mem_map.mp hprimary),
    .xstreamCounted (by simp) (by simp)⟩

/-- Every operation is orderly on tidy arrays. -/
theorem perform_orderly {a : Arrays} (ha : a.Tidy) (hp : a.HasPrimary) (op : Op) (env : Env) :
    Returns (perform a (op, env)) (Orderly a op) := by
  obtain ⟨ps, k, xs, m, rfl⟩ := ha.eq_laid
  cases op with
  | addPoolFromJson config =>
      exact (addPoolFromJson_laid env config).map fun r h => h.orderly hp rfl
  | addExternalPool name pool takeOwnership =>
      exact (addExternalPool_laid env name pool).map fun r h =>
        (h.own takeOwnership).orderly hp rfl
  | addXstreamFromJson config =>
      exact (addXstreamFromJson_laid hp env config).map fun r h => h.orderly hp rfl
  | addExternalXstream name xstream takeOwnership =>
      exact (addExternalXstream_laid hp env name xstream).map fun r h =>
        (h.own takeOwnership).orderly hp rfl
  | removePool index => exact (removePool_orderly hp env index).map fun r h => h
  | removeXstream index => exact (removeXstream_orderly hp env index).map fun r h => h
  | poolRefcount i n => exact returns_pure (setPoolRefcount_orderly hp i n)
  | xstreamRefcount i n => exact returns_pure (setXstreamRefcount_orderly hp i n)

/-! ## Initialization -/

/-- If the registration succeeds, it leaves the arrays as described. -/
def Registers (x : Mem (Arrays × Bool)) (Q : Arrays → Prop) : Prop :=
  Returns x fun r => r.2 = true → Q r.1

/-- If this stage of an initialization succeeds, it leaves the arrays as described. -/
def Establishes (x : Mem (Option Arrays)) (Q : Arrays → Prop) : Prop :=
  Returns x fun r => ∀ a, r = some a → Q a

theorem establishes_some {Q : Arrays → Prop} {a : Arrays} (h : Q a) :
    Establishes (pure (some a)) Q := by
  refine returns_pure fun b hb => ?_
  obtain rfl := Option.some.inj hb
  exact h

theorem establishes_none {Q : Arrays → Prop} : Establishes (pure none) Q := returns_pure nofun

theorem Registers.orElseFail {x : Mem (Arrays × Bool)} {next : Arrays → Mem (Option Arrays)}
    {Q P : Arrays → Prop} (hx : Registers x Q) (hnext : ∀ a, Q a → Establishes (next a) P) :
    Establishes (orElseFail x next) P := by
  refine hx.bind fun r hr => ?_
  obtain ⟨a, ok⟩ := r
  cases ok with
  | true => exact hnext a (hr rfl)
  | false => exact establishes_none

/-- A registration that succeeds uses up one free slot of the pools. -/
theorem appendPool_registers {init : PoolSlot → Mem (PoolSlot × Bool)}
    (hinit : Returns (init 0) InitsPool) :
    Registers (appendPool init (laid ps (k + 1) xs m)) fun a =>
      ∃ p, a = laid (ps ++ [p]) k xs m := by
  refine (appendPool_laid hinit).mono fun r hr hok => ?_
  obtain rfl | ⟨p, -, rfl⟩ := hr
  · cases hok
  · exact ⟨p, rfl⟩

/-- A registration that succeeds uses up one free slot of the xstreams. -/
theorem appendXstream_registers {N : String → Prop}
    {init : Arrays → XstreamSlot → Mem (Arrays × XstreamSlot × Bool)}
    (hinit : Returns (init (laid ps k xs (m + 1)) 0) fun r =>
      ∃ name, N name ∧ InitsXstream (fun _ => ()) ps k xs (m + 1) name r) :
    Registers (appendXstream init (laid ps k xs (m + 1))) fun a =>
      ∃ name, N name ∧ ∃ ps' x, x.name = some name ∧ a = laid ps' k (xs ++ [x]) m := by
  refine (appendXstream_laid hinit).mono fun r hr hok => ?_
  obtain ⟨name, hname, ps', -, rfl | ⟨x, hx, -, rfl⟩⟩ := hr
  · cases hok
  · exact ⟨name, hname, ps', x, hx, rfl⟩

/-- The slots set aside for the configured pools are enough for them. -/
theorem initPools_establishes (env : InitEnv) (js : List Json) (ps : List PoolSlot) :
    Establishes (initPools env (laid ps (js.length + k) xs m) js) fun a =>
      ∃ ps', a = laid ps' k xs m := by
  induction js generalizing ps with
  | nil =>
      rw [List.length_nil, Nat.zero_add]
      exact establishes_some ⟨ps, rfl⟩
  | cons j js ih =>
      have hfree : (j :: js).length + k = js.length + k + 1 := by
        rw [List.length_cons]
        omega
      rw [initPools, hfree]
      refine (appendPool_registers (poolInitFromJson_zero _ j _)).orElseFail ?_
      rintro a ⟨p, rfl⟩
      exact ih (ps ++ [p])

theorem initXstream_registers (env : InitEnv) (j : Json) :
    Registers (initXstream env j (laid ps k xs (m + 1))) fun a =>
      ∃ name, xstreamJsonName j (laid ps k xs (m + 1)) = .ok name ∧
        ∃ ps' x, x.name = some name ∧ a = laid ps' k (xs ++ [x]) m :=
  appendXstream_registers (xstreamInitFromJson_laid _ j fun _ _ => unseen_unit _)

/-- The slots set aside for the configured xstreams are enough for them. -/
theorem initXstreams_establishes (env : InitEnv) (js : List Json) (ps : List PoolSlot)
    (xs : List XstreamSlot) :
    Establishes (initXstreams env (laid ps k xs (js.length + m)) js) fun a =>
      ∃ ps' xs', a = laid ps' k xs' m := by
  induction js generalizing ps xs with
  | nil =>
      rw [List.length_nil, Nat.zero_add]
      exact establishes_some ⟨ps, xs, rfl⟩
  | cons j js ih =>
      have hfree : (j :: js).length + m = js.length + m + 1 := by
        rw [List.length_cons]
        omega
      rw [initXstreams, hfree]
      refine (initXstream_registers env j).orElseFail ?_
      rintro a ⟨name, -, ps', x, -, rfl⟩
      exact ih ps' (xs ++ [x])

theorem findPoolByName_lt {name : Option String} {i : Nat}
    (h : findPoolByName (laid ps k xs m) name = some i) : i < ps.length := by
  cases name with
  | none => cases h
  | some name =>
      rw [findPoolByName, entries_pools_laid] at h
      exact (List.findIdx?_eq_some_iff_getElem.mp h).1

/-- The primary pool fits into the slots set aside for it. -/
theorem initPrimaryPool_registers (env : InitEnv) :
    Registers (initPrimaryPool env (laid ps (k + 1) xs m)) fun a =>
      ∃ ps' k', a = laid ps' k' xs m ∧
        (findPoolByName (laid ps (k + 1) xs m) (some "__primary__")).getD ps.length <
          ps'.length := by
  unfold initPrimaryPool
  split
  · next i hfind =>
      refine returns_pure fun _ => ⟨ps, k + 1, rfl, ?_⟩
      rw [hfind]
      exact findPoolByName_lt hfind
  · next hfind =>
      refine (appendPool_registers (poolInitFromJson_zero _ _ _)).mono fun r hr hok => ?_
      obtain ⟨p, hr⟩ := hr hok
      refine ⟨ps ++ [p], k, hr, ?_⟩
      rw [hfind]
      simp

/-- The environment that an initialization leaves behind. -/
def Initialized (a : Arrays) : Prop := a.Tidy ∧ a.HasPrimary

theorem initialized_append (ps : List PoolSlot) (k : Nat) {x : XstreamSlot}
    (hname : x.name = some "__primary__") (m : Nat) : Initialized (laid ps k (xs ++ [x]) m) :=
  ⟨tidy_laid _ _ _ _, hasPrimary_laid.mpr ⟨x, by simp, hname⟩⟩

/-- The primary xstream fits into the slot set aside for it. -/
theorem initPrimary_establishes (env : InitEnv) :
    Establishes (initPrimary env (laid ps (k + 1) xs (m + 1))) Initialized := by
  unfold initPrimary
  refine (initPrimaryPool_registers env).orElseFail ?_
  rintro a ⟨ps', k', rfl, hlt⟩
  have hmodify : ∀ i f, i < ps'.length → (⟨(laid ps' k' xs (m + 1)).pools.modify i f,
      (laid ps' k' xs (m + 1)).xstreams⟩ : Arrays) = laid (ps'.modify i f) k' xs (m + 1) := by
    intro i f hi
    rw [laid, SlotArray.modify_ofEntries hi, laid]
  rw [len_pools_laid, hmodify _ _ hlt]
  refine (initXstream_registers env _).orElseFail ?_
  rintro a ⟨name, hname, ps'', x, hx, rfl⟩
  obtain rfl : "__primary__" = name := Except.ok.inj hname
  exact establishes_some (initialized_append _ _ hx _)

/-- So do the pool and the xstream that Argobots was initialized with. -/
theorem initPrimaryExternal_establishes (env : InitEnv) :
    Establishes (initPrimaryExternal env (laid ps (k + 1) xs (m + 1))) Initialized := by
  unfold initPrimaryExternal
  refine (appendPool_registers (poolInitExternal_zero _ _ _)).orElseFail ?_
  rintro a ⟨p, rfl⟩
  refine (appendXstream_registers
    (xstreamInitExternal_laid _ _ (unseen_unit _))).orElseFail ?_
  rintro a ⟨name, hname, ps', x, hx, rfl⟩
  obtain rfl : "__primary__" = name := Except.ok.inj hname
  exact establishes_some (initialized_append _ _ hx _)

theorem checkPrimary_eq {env : InitEnv} {es : XstreamSlot} {a a' : Arrays}
    (h : checkPrimary env es a = some a') : a' = a := by
  unfold checkPrimary at h
  split at h
  · cases h
  · dsimp only at h
    split at h
    · exact (Option.some.inj h).symm
    · split at h
      · exact (Option.some.inj h).symm
      · cases h

theorem Establishes.bind {x : Mem (Option Arrays)} {next : Arrays → Mem (Option Arrays)}
    {Q P : Arrays → Prop} (hx : Establishes x Q) (hnext : ∀ a, Q a → Establishes (next a) P) :
    Establishes (x >>= fun | none => pure none | some a => next a) P := by
  refine Returns.bind hx fun r hr => ?_
  cases r with
  | none => exact establishes_none
  | some a => exact hnext a (hr a rfl)

/-- An initialization writes every entry into a slot set aside for it, and
leaves the unused ones zero. -/
theorem abtInitFromJson_establishes (env : InitEnv) (jabt : Json) :
    Establishes (abtInitFromJson env jabt) Initialized := by
  unfold abtInitFromJson
  split
  · exact establishes_none
  · have hstart : (⟨.calloc ((jabt.get "pools").items.length + 3),
        .calloc ((jabt.get "xstreams").items.length + 1)⟩ : Arrays) =
        laid [] ((jabt.get "pools").items.length + 3) []
          ((jabt.get "xstreams").items.length + 1) := by
      rw [SlotArray.calloc_eq, SlotArray.calloc_eq, laid]
    dsimp only
    rw [hstart]
    refine Establishes.bind (initPools_establishes env _ []) ?_
    rintro a ⟨ps, rfl⟩
    refine Establishes.bind (initXstreams_establishes env _ ps []) ?_
    rintro a ⟨ps', xs, rfl⟩
    split
    · split
      · next es hes =>
          refine returns_pure fun a ha => ?_
          obtain rfl := checkPrimary_eq ha
          refine ⟨tidy_laid _ _ _ _, es, ?_, by simpa using List.find?_some hes⟩
          exact List.mem_reverse.mp (List.mem_of_find?_eq_some hes)
      · exact establishes_none
    · split
      · exact initPrimaryExternal_establishes env
      · exact initPrimary_establishes env

/-! ## Runs -/

theorem step_some {a a' : Arrays} {x : Op × Env} (h : step a x = some a') :
    ∃ report, perform a x = .ok (a', report) := by
  unfold step at h
  cases hperform : perform a x with
  | error e =>
      rw [hperform] at h
      cases h
  | ok r =>
      rw [hperform] at h
      obtain rfl := Option.some.inj h
      exact ⟨r.2, rfl⟩

theorem initialized_step {a a' : Arrays} {x : Op × Env} (ha : Initialized a)
    (h : step a x = some a') : Initialized a' := by
  obtain ⟨report, hperform⟩ := step_some h
  have horderly := (perform_orderly ha.1 ha.2 x.1 x.2).2 _ hperform
  exact ⟨horderly.tidy, horderly.primary⟩

/-- An initialization stays in bounds, and so does everything that is done to the
arrays after it. They stay tidy, and every operation that returns has one of the
outcomes. -/
theorem arrays_stay_tidy (env : InitEnv) (jabt : Json) :
    abtInitFromJson env jabt ≠ .error .outOfBounds ∧
      ∀ a₀ as a, abtInitFromJson env jabt = .ok (some a₀) → Run step Any a₀ as a →
        a.Tidy ∧ ∀ op opEnv, perform a (op, opEnv) ≠ .error .outOfBounds ∧
          ∀ a' report, perform a (op, opEnv) = .ok (a', report) → Outcome a a' op report := by
  obtain ⟨hbounds, hinit⟩ := abtInitFromJson_establishes env jabt
  refine ⟨hbounds, fun a₀ as a h₀ hrun => ?_⟩
  have ha : Initialized a :=
    hrun.invariant (fun hs _ h => initialized_step hs h) (hinit _ h₀ a₀ rfl)
  refine ⟨ha.1, fun op opEnv => ?_⟩
  obtain ⟨hbounds, horderly⟩ := perform_orderly ha.1 ha.2 op opEnv
  exact ⟨hbounds, fun a' report h => (horderly _ h).outcome⟩

/-- Argobots and the allocator grant everything, and new memory is not clear. -/
def envGranted (id : Nat) : Env where
  toReplies := granted id
  external := ⟨true, true, fun _ => true⟩
  count := ⟨true, true, fun _ => true⟩
  destroy := ⟨true, true, fun _ => true⟩
  freshPool _ := ⟨some "garbage", .obj id, none, none, 1, 1, true, true⟩
  freshXstream _ := ⟨some "garbage", .obj id [], 1, none, true⟩

def initEnvGranted : InitEnv where
  abtInitialized := false
  abtInit := true
  pool i := envGranted i
  xstream i := envGranted (i + 1)
  mainPools := true
  self := 0
  selfPools := []

/-- The arrays of an instance without a configuration, with `m` free slots for
xstreams. -/
def primaryArrays (m : Nat) : Arrays :=
  laid [⟨some "__primary__", .obj 0, some "fifo_wait", some "mpmc", 0, 1, false, true⟩] 2
    [⟨some "__primary__", .obj 0 [.obj 0], 0, some "basic_wait", false⟩] m

/-- An external pool is added and an xstream that runs it, the pool cannot be
removed, and both are removed in the other order. -/
def growAndShrink : List (Op × Env) :=
  [(.addExternalPool (some "e") (.obj 7) false, envGranted 8),
    (.addXstreamFromJson (.object [("scheduler", .object [("pools", .array [.string "e"])])]),
      envGranted 9),
    (.removePool 1, envGranted 10), (.removeXstream 1, envGranted 11),
    (.removePool 1, envGranted 12)]

theorem arrays_stay_tidy_grown :
    abtInitFromJson initEnvGranted (.object []) = .ok (some (primaryArrays 0)) ∧
      Run step Any (primaryArrays 0) growAndShrink (primaryArrays 1) ∧
      (primaryArrays 1).Tidy := by
  have hinit : abtInitFromJson initEnvGranted (.object []) = .ok (some (primaryArrays 0)) := rfl
  have hrun : Run step Any (primaryArrays 0) growAndShrink (primaryArrays 1) :=
    run_of_exec (by decide +kernel)
  exact ⟨hinit, hrun,
    ((arrays_stay_tidy initEnvGranted (.object [])).2 _ _ _ hinit hrun).1⟩

end Margo.Abt.Arrays
