import Margo.Abt.Arrays
import Margo.Abt.Effects

/-!
# What each operation does to tidy arrays

One statement for every initializer and every way to register an entry: on
arrays whose unused slots are zero, it does not write behind the end of an
array, a failure leaves the slot zero, and what it has done to the other entries
does not show but in use counts.

## Implementation notes

The proofs compute on arrays told by their entries and their numbers of free
slots. A view of pools stands for what is compared of them before and after:
everything but the use counts, or nothing while the environment is set up.
-/

namespace Margo.Abt.Arrays

open Lib

/-! ## Calls that stay in bounds -/

section Returns

variable {α β : Type}

/-- The call does not write behind the end of an array. -/
def NoOverrun (x : Mem α) : Prop := x ≠ .error .outOfBounds

/-- The call does not write behind the end of an array, and if it returns its
result is as described. -/
def Returns (x : Mem α) (P : α → Prop) : Prop := NoOverrun x ∧ ∀ r, x = .ok r → P r

theorem returns_pure {P : α → Prop} {a : α} (h : P a) : Returns (pure a) P := by
  refine ⟨nofun, fun r hr => ?_⟩
  obtain rfl := Except.ok.inj hr
  exact h

theorem NoOverrun.bind {x : Mem α} {f : α → Mem β} {P : β → Prop} (hx : NoOverrun x)
    (hf : ∀ a, x = .ok a → Returns (f a) P) : Returns (x >>= f) P := by
  cases x with
  | error e => exact ⟨fun h => hx (congrArg Except.error (Except.error.inj h)), nofun⟩
  | ok a => exact hf a rfl

theorem Returns.bind {x : Mem α} {f : α → Mem β} {Q : α → Prop} {P : β → Prop}
    (hx : Returns x Q) (hf : ∀ a, Q a → Returns (f a) P) : Returns (x >>= f) P :=
  hx.1.bind fun a ha => hf a (hx.2 a ha)

theorem Returns.map {x : Mem α} {f : α → β} {Q : α → Prop} {P : β → Prop} (hx : Returns x Q)
    (hf : ∀ a, Q a → P (f a)) : Returns (f <$> x) P := by
  cases x with
  | error e => exact ⟨fun h => hx.1 (congrArg Except.error (Except.error.inj h)), nofun⟩
  | ok a => exact returns_pure (hf a (hx.2 a rfl))

theorem Returns.mono {x : Mem α} {Q P : α → Prop} (hx : Returns x Q) (h : ∀ a, Q a → P a) :
    Returns x P :=
  ⟨hx.1, fun r hr => h r (hx.2 r hr)⟩

theorem noOverrun_pure (a : α) : NoOverrun (pure a) := nofun

/-- The call of which nothing else is known stays in bounds. -/
theorem NoOverrun.seq {x : Mem α} {f : α → Mem β} (hx : NoOverrun x)
    (hf : ∀ a, NoOverrun (f a)) : NoOverrun (x >>= f) :=
  (hx.bind (P := fun _ => True) fun a _ => ⟨hf a, fun _ _ => trivial⟩).1

theorem noOverrun_deref (s : Option String) : NoOverrun (deref s) := by
  cases s <;> nofun

theorem noOverrun_mapM {f : α → Mem β} (hf : ∀ a, NoOverrun (f a)) (l : List α) :
    NoOverrun (l.mapM f) := by
  induction l with
  | nil => exact noOverrun_pure _
  | cons a l ih =>
      rw [List.mapM_cons]
      exact (hf a).seq fun _ => ih.seq fun _ => noOverrun_pure _

end Returns

theorem noOverrun_generateUnusedPoolName (a : Arrays) : NoOverrun (generateUnusedPoolName a) :=
  (noOverrun_mapM (fun p : PoolSlot => noOverrun_deref p.name) _).seq fun _ =>
    noOverrun_pure _

theorem noOverrun_generateUnusedXstreamName (a : Arrays) :
    NoOverrun (generateUnusedXstreamName a) :=
  (noOverrun_mapM (fun x : XstreamSlot => noOverrun_deref x.name) _).seq fun _ =>
    noOverrun_pure _

theorem noOverrun_poolJsonName (jpool : Json) (a : Arrays) :
    NoOverrun (poolJsonName jpool a) := by
  unfold poolJsonName
  split
  · exact noOverrun_pure _
  · exact noOverrun_generateUnusedPoolName a

theorem noOverrun_xstreamJsonName (jxstream : Json) (a : Arrays) :
    NoOverrun (xstreamJsonName jxstream a) := by
  unfold xstreamJsonName
  split
  · exact noOverrun_pure _
  · exact noOverrun_generateUnusedXstreamName a

theorem noOverrun_poolExternalName (name : Option String) (a : Arrays) :
    NoOverrun (poolExternalName name a) := by
  cases name with
  | some name => exact noOverrun_pure _
  | none => exact noOverrun_generateUnusedPoolName a

theorem noOverrun_xstreamExternalName (name : Option String) (a : Arrays) :
    NoOverrun (xstreamExternalName name a) := by
  cases name with
  | some name => exact noOverrun_pure _
  | none => exact noOverrun_generateUnusedXstreamName a

theorem noOverrun_indexOfName (name : String) (ps : List PoolSlot) :
    NoOverrun (indexOfName name ps) := by
  induction ps with
  | nil => exact noOverrun_pure _
  | cons p ps ih =>
      refine (noOverrun_deref p.name).seq fun other => ?_
      split
      · exact noOverrun_pure _
      · exact ih.seq fun _ => noOverrun_pure _

theorem noOverrun_refPosition (a : Arrays) (ref : Json) : NoOverrun (refPosition a ref) := by
  unfold refPosition
  split
  · exact noOverrun_pure _
  · exact noOverrun_indexOfName _ _

theorem noOverrun_schedPool (a : Arrays) (ref : Json) : NoOverrun (schedPool a ref) := by
  refine (noOverrun_refPosition a ref).seq fun index => ?_
  split <;> exact noOverrun_pure _

theorem noOverrun_schedPools (a : Arrays) (refs : List Json) : NoOverrun (schedPools a refs) := by
  induction refs with
  | nil => exact noOverrun_pure _
  | cons ref refs ih =>
      refine (noOverrun_schedPool a ref).seq fun pool => ?_
      split
      · exact noOverrun_pure _
      · exact ih.seq fun _ => noOverrun_pure _

theorem noOverrun_schedInitFromJson (env : Env) (jsched : Json) (a : Arrays) :
    NoOverrun (schedInitFromJson env jsched a) := by
  refine (noOverrun_schedPools a _).seq fun pools => ?_
  split
  · exact noOverrun_pure _
  · split <;> exact noOverrun_pure _

/-! ## Tidy arrays -/

/-- Both arrays are tidy. -/
structure Tidy (a : Arrays) : Prop where
  pools : a.pools.Tidy
  xstreams : a.xstreams.Tidy

/-- The tidy arrays with these entries and `k` and `m` free slots. -/
def laid (ps : List PoolSlot) (k : Nat) (xs : List XstreamSlot) (m : Nat) : Arrays :=
  ⟨.ofEntries ps k, .ofEntries xs m⟩

variable {ps : List PoolSlot} {k : Nat} {xs : List XstreamSlot} {m : Nat}

theorem tidy_laid (ps : List PoolSlot) (k : Nat) (xs : List XstreamSlot) (m : Nat) :
    (laid ps k xs m).Tidy :=
  ⟨SlotArray.tidy_ofEntries ps k, SlotArray.tidy_ofEntries xs m⟩

theorem Tidy.eq_laid {a : Arrays} (h : a.Tidy) : ∃ ps k xs m, a = laid ps k xs m := by
  obtain ⟨pools, xstreams⟩ := a
  refine ⟨pools.entries, pools.cap - pools.len, xstreams.entries,
    xstreams.cap - xstreams.len, ?_⟩
  rw [laid, ← h.pools.eq_ofEntries, ← h.xstreams.eq_ofEntries]

@[simp] theorem entries_pools_laid : (laid ps k xs m).pools.entries = ps :=
  SlotArray.entries_ofEntries

@[simp] theorem entries_xstreams_laid : (laid ps k xs m).xstreams.entries = xs :=
  SlotArray.entries_ofEntries

@[simp] theorem len_pools_laid : (laid ps k xs m).pools.len = ps.length := rfl

@[simp] theorem len_xstreams_laid : (laid ps k xs m).xstreams.len = xs.length := rfl

theorem findPoolByHandle_lt {h : PoolHandle} {i : Nat}
    (hfind : findPoolByHandle (laid ps k xs m) h = some i) : i < ps.length := by
  unfold findPoolByHandle at hfind
  rw [entries_pools_laid] at hfind
  split at hfind
  · cases hfind
  · exact (List.findIdx?_eq_some_iff_getElem.mp hfind).1

/-! ## Use counts -/

/-- An entry but for its use count. -/
def forgetUses (p : PoolSlot) : PoolSlot := { p with numXstreams := 0 }

/-- A view of a pool in which the uses counted by an xstream do not show. -/
structure Unseen {γ : Type} (g : PoolSlot → γ) (primary : Bool) : Prop where
  count : ∀ p, g (countUse primary p) = g p
  discount : ∀ p, g (discountUse p) = g p

theorem unseen_forgetUses : Unseen forgetUses false where
  count p := by simp [forgetUses, countUse]
  discount _ := rfl

theorem unseen_unit (primary : Bool) : Unseen (fun _ => ()) primary where
  count _ := rfl
  discount _ := rfl

section Unseen

variable {γ : Type} {g : PoolSlot → γ} {primary : Bool}

theorem walkPools_laid {f : PoolSlot → PoolSlot} (hg : ∀ p, g (f p) = g p) (calls : SchedCalls)
    (hs : List PoolHandle) (ps : List PoolSlot) (i : Nat) :
    ∃ ps' ok, walkPools calls f (laid ps k xs m) hs i = (laid ps' k xs m, ok) ∧
      ps'.map g = ps.map g := by
  induction hs generalizing ps i with
  | nil => exact ⟨ps, true, rfl, rfl⟩
  | cons h hs ih =>
      rw [walkPools]
      split
      · exact ⟨ps, false, rfl, rfl⟩
      · split
        · exact ⟨ps, false, rfl, rfl⟩
        · next j hfind =>
            have hmodify : ({ laid ps k xs m with
                pools := (laid ps k xs m).pools.modify j f } : Arrays) =
                laid (ps.modify j f) k xs m := by
              rw [laid, SlotArray.modify_ofEntries (findPoolByHandle_lt hfind), laid]
            rw [hmodify]
            obtain ⟨ps', ok, hwalk, hmap⟩ := ih (ps.modify j f) (i + 1)
            exact ⟨ps', ok, hwalk, hmap.trans (map_modify_of_eq hg ps j)⟩

/-- A destroyed xstream leaves a zero slot, and use counts that may be wrong. -/
theorem xstreamDestroy_laid (hg : Unseen g primary) (calls : SchedCalls) (x : XstreamSlot)
    (ps : List PoolSlot) :
    ∃ ps', xstreamDestroy calls x (laid ps k xs m) = (laid ps' k xs m, 0) ∧
      ps'.map g = ps.map g := by
  unfold xstreamDestroy
  split
  · next id pools _ =>
      split
      · have hlaid : ∃ ps' ok, walkPools calls discountUse (laid ps k xs m) pools 0 =
            (laid ps' k xs m, ok) ∧ ps'.map g = ps.map g :=
          walkPools_laid hg.discount calls pools ps 0
        obtain ⟨ps', ok, hwalk, hmap⟩ := hlaid
        exact ⟨ps', by rw [hwalk], hmap⟩
      · exact ⟨ps, rfl, rfl⟩
  · exact ⟨ps, rfl, rfl⟩

/-- How an initializer of xstreams that was handed a zero slot returns: the slot
is zero again, or it holds a new xstream. -/
def InitsXstream (g : PoolSlot → γ) (ps : List PoolSlot) (k : Nat) (xs : List XstreamSlot)
    (m : Nat) (name : String) (r : Arrays × XstreamSlot × Bool) : Prop :=
  ∃ ps', ps'.map g = ps.map g ∧
    (r = (laid ps' k xs m, 0, false) ∨
      ∃ x : XstreamSlot, x.name = some name ∧ x.refcount = 0 ∧ r = (laid ps' k xs m, x, true))

theorem xstreamError_laid (hg : Unseen g primary) (env : Env) (x : XstreamSlot) (name : String) :
    InitsXstream g ps k xs m name (xstreamError env x (laid ps k xs m)) := by
  obtain ⟨ps', hdestroy, hmap⟩ := xstreamDestroy_laid hg env.destroy x ps
  refine ⟨ps', hmap, .inl ?_⟩
  rw [xstreamError, hdestroy]

theorem countXstream_laid (hg : Unseen g primary) (env : Env) {x : XstreamSlot} {name : String}
    (hname : x.name = some name) (href : x.refcount = 0) (pools : List PoolHandle) :
    InitsXstream g ps k xs m name (countXstream env primary x pools (laid ps k xs m)) := by
  unfold countXstream
  split
  · exact xstreamError_laid hg env x name
  · have hlaid : ∃ ps' ok, walkPools env.count (countUse primary) (laid ps k xs m) pools 0 =
        (laid ps' k xs m, ok) ∧ ps'.map g = ps.map g :=
      walkPools_laid hg.count env.count pools ps 0
    obtain ⟨ps', ok, hwalk, hmap⟩ := hlaid
    rw [hwalk]
    cases ok with
    | true => exact ⟨ps', hmap, .inr ⟨x, hname, href, rfl⟩⟩
    | false =>
        have herror : InitsXstream g ps' k xs m name (xstreamError env x (laid ps' k xs m)) :=
          xstreamError_laid hg env x name
        obtain ⟨ps'', hmap', hr⟩ := herror
        exact ⟨ps'', hmap'.trans hmap, hr⟩

theorem xstreamInitFromJson_laid (env : Env) (j : Json)
    (hg : ∀ name, xstreamJsonName j (laid ps k xs m) = .ok name →
      Unseen g (name == "__primary__")) :
    Returns (xstreamInitFromJson env j (laid ps k xs m) 0) fun r =>
      ∃ name, xstreamJsonName j (laid ps k xs m) = .ok name ∧ InitsXstream g ps k xs m name r := by
  refine (noOverrun_xstreamJsonName j _).bind fun name hname => ?_
  have hg := hg name hname
  split
  · exact returns_pure ⟨name, hname, xstreamError_laid hg env _ name⟩
  · refine (noOverrun_schedInitFromJson env _ _).bind fun sched _ => ?_
    split
    · exact returns_pure ⟨name, hname, xstreamError_laid hg env _ name⟩
    · split
      · next hne =>
          have hprimary : (name == "__primary__") = false := by simpa using hne
          rw [hprimary] at hg
          exact returns_pure ⟨name, hname, countXstream_laid hg env rfl rfl _⟩
      · next heq =>
          have hprimary : (name == "__primary__") = true := by simpa using heq
          rw [hprimary] at hg
          split
          · exact returns_pure ⟨name, hname, xstreamError_laid hg env _ name⟩
          · split
            · exact returns_pure ⟨name, hname, countXstream_laid hg env rfl rfl _⟩
            · exact returns_pure ⟨name, hname, xstreamError_laid hg env _ name⟩

theorem xstreamInitExternal_laid (env : Env) {name : Option String} (handle : XstreamHandle)
    (hg : Unseen g (name == some "__primary__")) :
    Returns (xstreamInitExternal env name handle (laid ps k xs m) 0) fun r =>
      ∃ given, xstreamExternalName name (laid ps k xs m) = .ok given ∧
        InitsXstream g ps k xs m given r := by
  refine (noOverrun_xstreamExternalName name _).bind fun given hgiven => ?_
  split
  · split
    · exact returns_pure ⟨given, hgiven, xstreamError_laid hg env _ given⟩
    · split
      · exact returns_pure ⟨given, hgiven, xstreamError_laid hg env _ given⟩
      · refine (noOverrun_deref name).bind fun n hderef => ?_
        cases name with
        | none => cases hderef
        | some n' =>
            obtain rfl : n' = n := Except.ok.inj hderef
            exact returns_pure ⟨given, hgiven, countXstream_laid hg env rfl rfl _⟩
  · exact returns_pure ⟨given, hgiven, xstreamError_laid hg env _ given⟩

end Unseen

/-! ## New entries -/

/-- A pool that nothing refers to, as the initializers make them out of a zero
slot. -/
structure Unused (p : PoolSlot) : Prop where
  refcount : p.refcount = 0
  numXstreams : p.numXstreams = 0
  usedByPrimary : p.usedByPrimary = false

/-- How an initializer of pools that was handed a zero slot returns. -/
def InitsPool (r : PoolSlot × Bool) : Prop := r = (0, false) ∨ ∃ p, Unused p ∧ r = (p, true)

theorem poolInitFromJson_zero (env : Env) (j : Json) (a : Arrays) :
    Returns (poolInitFromJson env j a 0) InitsPool := by
  refine (noOverrun_poolJsonName j a).bind fun name _ => ?_
  split
  · exact returns_pure (.inl rfl)
  · split
    · split
      · exact returns_pure (.inl rfl)
      · exact returns_pure (.inr ⟨_, ⟨rfl, rfl, rfl⟩, rfl⟩)
    · exact returns_pure (.inl rfl)

theorem poolInitExternal_zero (name : Option String) (handle : PoolHandle) (a : Arrays) :
    Returns (poolInitExternal name handle a 0) InitsPool :=
  (noOverrun_poolExternalName name a).bind fun _ _ =>
    returns_pure (.inr ⟨_, ⟨rfl, rfl, rfl⟩, rfl⟩)

/-- How the registration of a pool in a free slot returns. -/
def AppendsPool (ps : List PoolSlot) (k : Nat) (xs : List XstreamSlot) (m : Nat)
    (r : Arrays × Bool) : Prop :=
  r = (laid ps (k + 1) xs m, false) ∨ ∃ p, Unused p ∧ r = (laid (ps ++ [p]) k xs m, true)

theorem appendPool_laid {init : PoolSlot → Mem (PoolSlot × Bool)}
    (hinit : Returns (init 0) InitsPool) :
    Returns (appendPool init (laid ps (k + 1) xs m)) (AppendsPool ps k xs m) := by
  have hslot : (laid ps (k + 1) xs m).pools.slots[(laid ps (k + 1) xs m).pools.len]? = some 0 :=
    SlotArray.slots_len
  rw [appendPool, hslot]
  refine hinit.bind fun r hr => ?_
  obtain rfl | ⟨p, hp, rfl⟩ := hr
  · refine returns_pure (.inl ?_)
    change (({ laid ps (k + 1) xs m with
      pools := (SlotArray.ofEntries ps (k + 1)).write ps.length 0 } : Arrays), false) = _
    rw [SlotArray.write_zero]
    rfl
  · refine returns_pure (.inr ⟨p, hp, ?_⟩)
    change (({ laid ps (k + 1) xs m with
      pools := { (SlotArray.ofEntries ps (k + 1)).write ps.length p with
        len := ps.length + 1 } } : Arrays), true) = _
    rw [SlotArray.write_len]
    rfl

/-- How the registration of an xstream in a free slot returns. -/
def AppendsXstream {γ : Type} (g : PoolSlot → γ) (ps : List PoolSlot) (k : Nat)
    (xs : List XstreamSlot) (m : Nat) (name : String) (r : Arrays × Bool) : Prop :=
  ∃ ps', ps'.map g = ps.map g ∧
    (r = (laid ps' k xs (m + 1), false) ∨
      ∃ x : XstreamSlot, x.name = some name ∧ x.refcount = 0 ∧
        r = (laid ps' k (xs ++ [x]) m, true))

theorem appendXstream_laid {γ : Type} {g : PoolSlot → γ} {N : String → Prop}
    {init : Arrays → XstreamSlot → Mem (Arrays × XstreamSlot × Bool)}
    (hinit : Returns (init (laid ps k xs (m + 1)) 0) fun r =>
      ∃ name, N name ∧ InitsXstream g ps k xs (m + 1) name r) :
    Returns (appendXstream init (laid ps k xs (m + 1))) fun r =>
      ∃ name, N name ∧ AppendsXstream g ps k xs m name r := by
  have hslot : (laid ps k xs (m + 1)).xstreams.slots[(laid ps k xs (m + 1)).xstreams.len]? =
      some 0 := SlotArray.slots_len
  rw [appendXstream, hslot]
  refine hinit.bind fun r hr => ?_
  obtain ⟨name, hN, ps', hmap, rfl | ⟨x, hname, href, rfl⟩⟩ := hr
  · refine returns_pure ⟨name, hN, ps', hmap, .inl ?_⟩
    change (({ laid ps' k xs (m + 1) with
      xstreams := (SlotArray.ofEntries xs (m + 1)).write xs.length 0 } : Arrays), false) = _
    rw [SlotArray.write_zero]
    rfl
  · refine returns_pure ⟨name, hN, ps', hmap, .inr ⟨x, hname, href, ?_⟩⟩
    change (({ laid ps' k xs (m + 1) with
      xstreams := { (SlotArray.ofEntries xs (m + 1)).write xs.length x with
        len := xs.length + 1 } } : Arrays), true) = _
    rw [SlotArray.write_len]
    rfl

theorem le_grownCap (n : Nat) : n + 1 ≤ grownCap n := by
  unfold grownCap
  omega

/-- After a growth there is room for one more pool. -/
theorem growPools_laid {env : Env} {a : Arrays} (h : growPools env (laid ps k xs m) = some a) :
    ∃ k', a = laid ps (k' + 1) xs m := by
  unfold growPools at h
  change (if ps.length = ps.length + k then _ else _) = _ at h
  split at h
  · next hfull =>
      obtain rfl : k = 0 := by omega
      split at h
      · obtain rfl := Option.some.inj h
        have hgrown := le_grownCap ps.length
        obtain ⟨k', hk'⟩ := Nat.exists_eq_add_of_le hgrown
        refine ⟨k', ?_⟩
        change ({ laid ps 0 xs m with
          pools := (SlotArray.ofEntries ps 0).grow (grownCap ps.length) env.freshPool } :
            Arrays) = _
        rw [SlotArray.grow_ofEntries (by omega), hk']
        have hfree : ps.length + 1 + k' - ps.length = k' + 1 := by omega
        rw [hfree, laid, laid]
      · cases h
  · obtain rfl := Option.some.inj h
    obtain ⟨k', rfl⟩ := Nat.exists_eq_succ_of_ne_zero (n := k) (by omega)
    exact ⟨k', rfl⟩

/-- After a growth there is room for one more xstream. -/
theorem growXstreams_laid {env : Env} {a : Arrays}
    (h : growXstreams env (laid ps k xs m) = some a) : ∃ m', a = laid ps k xs (m' + 1) := by
  unfold growXstreams at h
  change (if xs.length = xs.length + m then _ else _) = _ at h
  split at h
  · next hfull =>
      obtain rfl : m = 0 := by omega
      split at h
      · obtain rfl := Option.some.inj h
        have hgrown := le_grownCap xs.length
        obtain ⟨m', hm'⟩ := Nat.exists_eq_add_of_le hgrown
        refine ⟨m', ?_⟩
        change ({ laid ps k xs 0 with
          xstreams := (SlotArray.ofEntries xs 0).grow (grownCap xs.length)
            env.freshXstream } : Arrays) = _
        rw [SlotArray.grow_ofEntries (by omega), hm']
        have hfree : xs.length + 1 + m' - xs.length = m' + 1 := by omega
        rw [hfree, laid, laid]
      · cases h
  · obtain rfl := Option.some.inj h
    obtain ⟨m', rfl⟩ := Nat.exists_eq_succ_of_ne_zero (n := m) (by omega)
    exact ⟨m', rfl⟩

end Margo.Abt.Arrays
