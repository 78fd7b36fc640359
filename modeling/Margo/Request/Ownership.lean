import Margo.Lib.Slots
import Margo.Request.Arena

/-!
# Who owns a request

An object of the arena belongs to the issuing call until Mercury accepts the
operation, then to the waiter, or to `margo_cb` if the request has a callback.
`margo_cb` uses a request it does not own from the moment it sets the eventual
to its second test of the kind: the waiter may have returned the object, and
another operation may have taken it, in between.
-/

namespace Margo.Request

open Lib Lib.Runs Lib.ThreadPool Lib.Slots

/-- The object a point has to release. -/
def owned : Point → Option Nat
  | .issue _ _ => none
  | .acquired p | .submit p | .failed p => some p.object
  | .flight p c w =>
      if (p.kind = .callback ∧ c = .ended) ∨ (p.kind = .eventual ∧ w = .ended) then none
      else some p.object

/-- `margo_cb` has not reported the completion of the operation yet. -/
def CbStage.pending : CbStage → Bool
  | .start | .timer | .complete => true
  | _ => false

/-- What a point finds in its object. -/
inductive Well (a : Arena) : Point → Prop
  | issue (type kind) : Well a (.issue type kind)
  | acquired {p} (h : a.objects[p.object]? = some ⟨.eventual, false, p.ticket⟩) :
      Well a (.acquired p)
  | submit {p} (h : a.objects[p.object]? = some ⟨p.kind, false, p.ticket⟩) :
      Well a (.submit p)
  | failed {p x} (h : a.objects[p.object]? = some x) (ht : x.ticket = p.ticket) :
      Well a (.failed p)
  | callback {p c x} (hp : p.kind = .callback) (hc : c ≠ .ended)
      (h : a.objects[p.object]? = some x) (hk : x.kind = .callback)
      (ht : x.ticket = p.ticket) : Well a (.flight p c .ended)
  | eventual {p c w x} (hp : p.kind = .eventual) (hc : c ≠ .release) (hw : w ≠ .ended)
      (h : a.objects[p.object]? = some x) (hk : x.kind = .eventual)
      (ht : x.ticket = p.ticket)
      (hpending : c.pending = true → x.ready = false ∧ (w = .kindTest ∨ w = .wait)) :
      Well a (.flight p c w)
  | ended (p) : Well a (.flight p .ended .ended)

/-- A point only depends on the object it owns. -/
theorem Well.congr {a a' : Arena} {t : Point} (h : Well a t)
    (hsame : ∀ o, owned t = some o → a'.objects[o]? = a.objects[o]?) : Well a' t := by
  cases h with
  | issue type kind => exact .issue type kind
  | acquired h => exact .acquired ((hsame _ rfl).trans h)
  | submit h => exact .submit ((hsame _ rfl).trans h)
  | failed h ht => exact .failed ((hsame _ rfl).trans h) ht
  | @callback p c x hp hc h hk ht =>
      have howned : owned (.flight p c .ended) = some p.object := by simp [owned, hp, hc]
      exact .callback hp hc ((hsame _ howned).trans h) hk ht
  | @eventual p c w x hp hc hw h hk ht hpending =>
      have howned : owned (.flight p c w) = some p.object := by simp [owned, hp, hw]
      exact .eventual hp hc hw ((hsame _ howned).trans h) hk ht hpending
  | ended p => exact .ended p

/-- Every object is free or owned by one point, which finds it as it left it. -/
structure Owned (a : Arena) (ts : List Point) : Prop where
  slots : Partition a.freeList (ts.filterMap owned) a.objects.length
  well : ∀ t ∈ ts, Well a t

theorem Owned.perm {a : Arena} {ts ts' : List Point} (h : Owned a ts) (hperm : ts.Perm ts') :
    Owned a ts' where
  slots := h.slots.perm (hperm.filterMap owned)
  well t ht := h.well t (hperm.mem_iff.mpr ht)

/-- The objects are divided between the free list, a point and what the other
points hold. -/
def Divided (a : Arena) (t : Point) (held : List Nat) : Prop :=
  Partition a.freeList ((owned t).toList ++ held) a.objects.length

/-- What a step makes of a point while the others hold `held`. -/
structure Effect (a' : Arena) (ts : List Point) (a : Arena) (held : List Nat) : Prop where
  slots : Partition a'.freeList (ts.filterMap owned ++ held) a'.objects.length
  frame : ∀ o ∈ held, a'.objects[o]? = a.objects[o]?
  well : ∀ t ∈ ts, Well a' t

theorem Owned.divided {a : Arena} {t : Point} {rest : List Point} (h : Owned a (t :: rest)) :
    Divided a t (rest.filterMap owned) := by
  have hslots := h.slots
  rw [List.filterMap_cons] at hslots
  cases howned : owned t <;> simpa [Divided, howned] using hslots

theorem Owned.effect {a a' : Arena} {t : Point} {ts rest : List Point}
    (h : Owned a (t :: rest)) (heff : Effect a' ts a (rest.filterMap owned)) :
    Owned a' (ts ++ rest) := by
  constructor
  · rw [List.filterMap_append]
    exact heff.slots
  · intro t' ht'
    obtain hnew | hold := List.mem_append.mp ht'
    · exact heff.well t' hnew
    · apply (h.well t' (List.mem_cons_of_mem t hold)).congr
      intro o ho
      exact heff.frame o (List.mem_filterMap.mpr ⟨t', hold, ho⟩)

section Effects

variable {a : Arena} {t t' : Point} {o : Nat} {held : List Nat}

/-- A step that leaves the arena alone. -/
theorem Divided.silent (h : Divided a t held) (howned : owned t' = owned t)
    (hwell : Well a t') : Effect a [t'] a held where
  slots := by
    cases ho : owned t <;> simpa [Divided, howned, ho] using h
  frame _ _ := rfl
  well u hu := by
    rw [List.mem_singleton.mp hu]
    exact hwell

/-- A step that writes to the object of its point. -/
theorem Divided.write {f : Object → Object} (h : Divided a t held) (ho : owned t = some o)
    (ho' : owned t' = some o) (hwell : Well (a.write o f) t') :
    Effect (a.write o f) [t'] a held where
  slots := by
    simpa [Divided, ho, ho', Arena.write] using h
  frame o' hmem := by
    have hne : o ≠ o' := by
      rintro rfl
      have hnodup := h.nodup_held
      rw [ho] at hnodup
      exact (List.nodup_cons.mp hnodup).1 hmem
    simp [Arena.write, hne]
  well u hu := by
    rw [List.mem_singleton.mp hu]
    exact hwell

/-- A step that returns the object of its point. -/
theorem Divided.release {ts : List Point} (h : Divided a t held) (ho : owned t = some o)
    (hts : ts.filterMap owned = []) (hwell : ∀ t' ∈ ts, Well (a.release o) t') :
    Effect (a.release o) ts a held where
  slots := by
    rw [Divided, ho] at h
    rw [hts]
    exact Partition.give h
  frame _ _ := rfl
  well := hwell

theorem partition_grow (h : Partition a.freeList held a.objects.length) :
    Partition a.grow.freeList held a.grow.objects.length := by
  simpa [Arena.grow] using h.grow a.blockCapacity

theorem grow_frame (h : Partition a.freeList held a.objects.length) (ho : o ∈ held) :
    a.grow.objects[o]? = a.objects[o]? := by
  have hlt : o < a.objects.length := h.lt (List.mem_append_right _ ho)
  simp [Arena.grow, List.getElem?_append_left hlt]

/-- Popping the free list: the object is zeroed for its new owner. -/
theorem effect_pop {a' : Arena} {type : RequestType} {kind : RequestKind}
    (h : Partition a.freeList held a.objects.length) (hpop : a.pop = some (o, a')) :
    Effect a' [.acquired ⟨type, kind, o, a.tickets⟩] a held := by
  cases hfree : a.freeList with
  | nil => simp [Arena.pop, hfree] at hpop
  | cons o' rest =>
      simp only [Arena.pop, hfree, Option.some.injEq, Prod.mk.injEq] at hpop
      obtain ⟨rfl, rfl⟩ := hpop
      have hlt : o' < a.objects.length := h.lt (by simp [hfree])
      constructor
      · rw [hfree] at h
        simpa [owned] using h.take
      · intro o ho
        have hne : o' ≠ o := by
          rintro rfl
          exact h.not_mem_free ho (by simp [hfree])
        simp [hne]
      · intro u hu
        rw [List.mem_singleton.mp hu]
        exact .acquired (by simp [hlt])

theorem Effect.trans_frame {b a' : Arena} {ts : List Point} (h : Effect a' ts b held)
    (hframe : ∀ o ∈ held, b.objects[o]? = a.objects[o]?) : Effect a' ts a held where
  slots := h.slots
  frame o ho := (h.frame o ho).trans (hframe o ho)
  well := h.well

/-- `mochi_arena_get` gives the caller a zeroed object of its own. -/
theorem effect_get {a' : Arena} {malloc : Bool} {type : RequestType} {kind : RequestKind}
    (h : Partition a.freeList held a.objects.length) (hget : a.get malloc = some (o, a')) :
    Effect a' [.acquired ⟨type, kind, o, a.tickets⟩] a held := by
  simp only [Arena.get] at hget
  split at hget
  · apply (effect_pop (partition_grow h) hget).trans_frame
    intro o ho
    exact grow_frame h ho
  · exact effect_pop h hget

/-- `margo_cb` of a request with a callback: it owns the object and returns it
at the end. -/
theorem effect_callback {a' : Arena} {p : Op} {c c' : CbStage} {x : Object}
    (hd : Divided a (.flight p c .ended) held) (hp : p.kind = .callback) (hc : c ≠ .ended)
    (hx : a.objects[p.object]? = some x) (hk : x.kind = .callback) (ht : x.ticket = p.ticket)
    (h : cbStep a p.object c = some (a', c')) : Effect a' [.flight p c' .ended] a held := by
  have hcb : a.isCallback p.object = true := by simp [Arena.isCallback, hx, hk]
  have howned : ∀ d, d ≠ .ended → owned (.flight p d .ended) = some p.object := by
    intro d hd
    simp [owned, hp, hd]
  have hsilent : ∀ d, d ≠ .ended → Effect a [.flight p d .ended] a held := by
    intro d hne
    apply hd.silent
    · rw [howned d hne, howned c hc]
    · exact .callback hp hne hx hk ht
  cases c <;> simp only [cbStep, hcb, if_true, Option.some.injEq, Prod.mk.injEq, reduceCtorEq] at h
  case release =>
    obtain ⟨rfl, rfl⟩ := h
    apply hd.release (howned _ hc)
    · simp [owned, hp]
    · intro t' ht'
      rw [List.mem_singleton.mp ht']
      exact .ended p
  all_goals
    obtain ⟨rfl, rfl⟩ := h
    exact hsilent _ (by decide)

/-- `margo_cb` of a request with an eventual, while the waiter owns the object. -/
theorem effect_eventual_cb {a' : Arena} {p : Op} {c c' : CbStage} {w : WaitStage} {x : Object}
    (hd : Divided a (.flight p c w) held) (hp : p.kind = .eventual) (hc : c ≠ .release)
    (hw : w ≠ .ended) (hx : a.objects[p.object]? = some x) (hk : x.kind = .eventual)
    (ht : x.ticket = p.ticket)
    (hpending : c.pending = true → x.ready = false ∧ (w = .kindTest ∨ w = .wait))
    (h : cbStep a p.object c = some (a', c')) : Effect a' [.flight p c' w] a held := by
  have hcb : a.isCallback p.object = false := by simp [Arena.isCallback, hx, hk]
  have howned : ∀ d, owned (.flight p d w) = some p.object := by
    intro d
    simp [owned, hp, hw]
  have hsilent : ∀ d, d ≠ .release → (d.pending = true → c.pending = true) →
      Effect a [.flight p d w] a held := by
    intro d hne hmono
    apply hd.silent
    · rw [howned d, howned c]
    · exact .eventual hp hne hw hx hk ht fun hd => hpending (hmono hd)
  cases c <;> simp only [cbStep, hcb, Bool.false_eq_true, if_false, Option.some.injEq,
    Prod.mk.injEq, reduceCtorEq] at h
  case complete =>
    obtain ⟨rfl, rfl⟩ := h
    apply hd.write (howned _) (howned _)
    exact .eventual (x := { x with ready := true }) hp (by decide) hw
      (by simp [Arena.write, hx]) hk ht (by simp [CbStage.pending])
  case release => exact absurd rfl hc
  all_goals
    obtain ⟨rfl, rfl⟩ := h
    exact hsilent _ (by decide) (by decide)

/-- `margo_wait`, which returns the object once `margo_cb` is through with it. -/
theorem effect_eventual_wait {a' : Arena} {p : Op} {c : CbStage} {w w' : WaitStage} {x : Object}
    (hd : Divided a (.flight p c w) held) (hp : p.kind = .eventual) (hc : c ≠ .release)
    (hw : w ≠ .ended) (hx : a.objects[p.object]? = some x) (hk : x.kind = .eventual)
    (ht : x.ticket = p.ticket)
    (hpending : c.pending = true → x.ready = false ∧ (w = .kindTest ∨ w = .wait))
    (hg : w = .release → c = .ended)
    (h : waitStep a p.object w = some (a', w')) : Effect a' [.flight p c w'] a held := by
  have hcb : a.isCallback p.object = false := by simp [Arena.isCallback, hx, hk]
  have howned : ∀ v, v ≠ .ended → owned (.flight p c v) = some p.object := by
    intro v hv
    simp [owned, hp, hv]
  have hsilent : ∀ v, v ≠ .ended →
      (c.pending = true → x.ready = false ∧ (v = .kindTest ∨ v = .wait)) →
      Effect a [.flight p c v] a held := by
    intro v hv hkeep
    apply hd.silent
    · rw [howned v hv, howned w hw]
    · exact .eventual hp hc hv hx hk ht hkeep
  cases w <;> simp only [waitStep, hcb, Bool.false_eq_true, if_false, Option.some.injEq,
    Prod.mk.injEq, reduceCtorEq] at h
  case kindTest =>
    obtain ⟨rfl, rfl⟩ := h
    exact hsilent _ (by decide) fun hpend => ⟨(hpending hpend).1, Or.inr rfl⟩
  case wait =>
    -- the eventual is set, so the callback has reported
    have hready : a.isReady p.object = x.ready := by simp [Arena.isReady, hx]
    rw [hready] at h
    cases hset : x.ready with
    | false => simp [hset] at h
    | true =>
        simp only [hset, if_true, Option.some.injEq, Prod.mk.injEq] at h
        obtain ⟨rfl, rfl⟩ := h
        apply hsilent _ (by decide)
        intro hpend
        simp [hset] at hpending
        simp [hpending] at hpend
  case free =>
    obtain ⟨rfl, rfl⟩ := h
    apply hd.write (howned _ hw) (howned _ (by decide))
    refine .eventual (x := { x with ready := false }) hp hc (by decide)
      (by simp [Arena.write, hx]) hk ht ?_
    intro hpend
    simpa using (hpending hpend).2
  case release =>
    obtain ⟨rfl, rfl⟩ := h
    obtain rfl := hg rfl
    apply hd.release (howned _ hw)
    · simp [owned, hp]
    · intro t' ht'
      rw [List.mem_singleton.mp ht']
      exact .ended p

end Effects

/-- A waiter returns its request only when the `margo_cb` of its operation is
past its second test of the kind. -/
def waiterLastAt : Point → Choice → Bool
  | .flight _ c .release, .waiter => c = .ended
  | _, _ => true

/-- No waiter overtakes the `margo_cb` of its operation in the step. -/
def WaiterLast (s : Process) (a : Nat × Choice) (_ : Process) : Prop :=
  (s.threads[a.1]?).all (waiterLastAt · a.2) = true

instance (s : Process) (a : Nat × Choice) (s' : Process) : Decidable (WaiterLast s a s') :=
  inferInstanceAs (Decidable (_ = true))

/-- One step of one point. -/
theorem Well.effect {a a' : Arena} {t : Point} {c : Choice} {ts : List Point}
    {held : List Nat} (hwell : Well a t) (hd : Divided a t held)
    (hg : waiterLastAt t c = true) (h : pointStep a t c = some (a', ts)) :
    Effect a' ts a held := by
  cases hwell with
  | issue type kind =>
      simp only [pointStep] at h
      cases hget : a.get (decide (c = .ok)) with
      | none =>
          simp only [hget, Option.some.injEq, Prod.mk.injEq] at h
          obtain ⟨rfl, rfl⟩ := h
          exact ⟨hd, fun _ _ => rfl, fun _ ht => absurd ht List.not_mem_nil⟩
      | some r =>
          simp only [hget, Option.some.injEq, Prod.mk.injEq] at h
          obtain ⟨rfl, rfl⟩ := h
          exact effect_get hd hget
  | @acquired p hx =>
      simp only [pointStep, Option.some.injEq, Prod.mk.injEq] at h
      obtain ⟨rfl, rfl⟩ := h
      cases hk : p.kind with
      | callback =>
          apply hd.write rfl rfl
          exact .submit (by simp [Arena.write, hx, hk])
      | eventual =>
          have hwell : Well a (.submit p) := .submit (by rw [hk]; exact hx)
          rw [if_neg (by decide)]
          exact hd.silent rfl hwell
  | @submit p hx =>
      have hfailed : Effect a [.failed p] a held := hd.silent rfl (.failed hx rfl)
      cases c <;> simp only [pointStep, Option.some.injEq, Prod.mk.injEq] at h
      case ok =>
        obtain ⟨rfl, rfl⟩ := h
        cases hk : p.kind with
        | callback =>
            rw [hk] at hx
            apply hd.silent (by simp [owned, hk])
            exact .callback hk (by decide) hx rfl rfl
        | eventual =>
            rw [hk] at hx
            apply hd.silent (by simp [owned, hk])
            exact .eventual hk (by decide) (by decide) hx rfl rfl (fun _ => ⟨rfl, Or.inl rfl⟩)
      all_goals
        obtain ⟨rfl, rfl⟩ := h
        exact hfailed
  | failed hx ht =>
      simp only [pointStep, Option.some.injEq, Prod.mk.injEq] at h
      obtain ⟨rfl, rfl⟩ := h
      exact hd.release rfl rfl fun _ ht => absurd ht List.not_mem_nil
  | callback hp hc hx hk ht =>
      cases c <;> simp only [pointStep, waitStep, Option.map_none, Option.map_eq_some_iff,
        reduceCtorEq] at h
      all_goals
        obtain ⟨r, hr, heq⟩ := h
        cases heq
        exact effect_callback hd hp hc hx hk ht hr
  | eventual hp hc hw hx hk ht hpending =>
      cases c <;> simp only [pointStep, Option.map_eq_some_iff] at h
      case waiter =>
        obtain ⟨r, hr, heq⟩ := h
        cases heq
        apply effect_eventual_wait hd hp hc hw hx hk ht hpending _ hr
        rintro rfl
        simpa [waiterLastAt] using hg
      all_goals
        obtain ⟨r, hr, heq⟩ := h
        cases heq
        exact effect_eventual_cb hd hp hc hw hx hk ht hpending hr
  | ended p => cases c <;> simp [pointStep, waitStep, cbStep] at h

theorem owned_start (n : Nat) (calls : List (RequestType × RequestKind)) :
    Owned (start n calls).shared (start n calls).threads where
  slots := by
    have hnone : (start n calls).threads.filterMap owned = [] := by
      apply List.filterMap_eq_nil_iff.mpr
      intro t ht
      obtain ⟨c, -, rfl⟩ := List.mem_map.mp ht
      rfl
    rw [hnone]
    exact partition_empty
  well t ht := by
    obtain ⟨c, -, rfl⟩ := List.mem_map.mp ht
    exact .issue c.1 c.2

theorem Owned.step {s s' : Process} {a : Nat × Choice} (hs : Owned s.shared s.threads)
    (hg : WaiterLast s a s') (h : Request.step s a = some s') :
    Owned s'.shared s'.threads := by
  obtain ⟨t, ts, ht, hprog, hperm, hperm'⟩ := step_cases h
  have hbefore := hs.perm hperm
  have hlast : waiterLastAt t a.2 = true := by simpa [WaiterLast, ht] using hg
  have heff := (hbefore.well t List.mem_cons_self).effect hbefore.divided hlast hprog
  exact (hbefore.effect heff).perm hperm'.symm

/-- The operation in whose name the next step of a point returns an object. -/
def releases : Point → Choice → Option Op
  | .failed p, _ => some p
  | .flight p _ w, .waiter => if w = .release then some p else none
  | .flight p c _, _ => if c = .release then some p else none
  | _, _ => none

/-- The point holds no request any more, or none yet. -/
def Point.idle : Point → Bool
  | .issue _ _ => true
  | .flight _ c w => c = .ended ∧ w = .ended
  | _ => false

/-- Requests are used by their owners only. -/
structure Sound (s : Process) : Prop where
  /-- An object that is returned is not free, stands for the acquisition in whose
  name it is returned, and belongs to no operation in flight. -/
  released : ∀ t ∈ s.threads, ∀ c p, releases t c = some p →
    p.object ∉ s.shared.freeList ∧
    (s.shared.objects[p.object]?).map Object.ticket = some p.ticket ∧
    ∀ p' c' w', .flight p' c' w' ∈ s.threads → c'.pending = true → p'.object ≠ p.object
  /-- When all operations are over, every object has been returned. -/
  returned : (∀ t ∈ s.threads, t.idle = true) →
    s.shared.freeList.Perm (List.range s.shared.objects.length)
  /-- Once the waiter has returned the request, `margo_cb` is through with it. -/
  untouched : ∀ p c, .flight p c .ended ∈ s.threads → p.kind = .eventual → c = .ended

/-- A point about to return an object owns it, and its operation has been
reported. -/
theorem Well.releases {a : Arena} {t : Point} {c : Choice} {p : Op} (h : Well a t)
    (hr : releases t c = some p) :
    owned t = some p.object ∧ (a.objects[p.object]?).map Object.ticket = some p.ticket ∧
      ∀ p' c' w', t = .flight p' c' w' → c'.pending = false := by
  cases h with
  | issue type kind => simp [Request.releases] at hr
  | acquired h => simp [Request.releases] at hr
  | submit h => simp [Request.releases] at hr
  | failed h ht =>
      obtain rfl : _ = p := by simpa [Request.releases] using hr
      exact ⟨rfl, by simp [h, ht], by simp⟩
  | @callback q d x hp hc h hk ht =>
      obtain ⟨rfl, rfl⟩ : d = .release ∧ q = p := by
        cases c <;> simp_all [Request.releases]
      exact ⟨by simp [owned, hp], by simp [h, ht], by rintro p' c' w' ⟨⟩; rfl⟩
  | @eventual q d w x hp hc hw h hk ht hpending =>
      obtain ⟨rfl, rfl⟩ : w = .release ∧ q = p := by
        cases c <;> simp_all [Request.releases]
      refine ⟨by simp [owned, hp], by simp [h, ht], ?_⟩
      rintro p' c' w' ⟨⟩
      by_contra hpend
      simp [hpend] at hpending
  | ended q => cases c <;> simp [Request.releases] at hr

theorem Well.pending_owned {a : Arena} {p : Op} {c : CbStage} {w : WaitStage}
    (h : Well a (.flight p c w)) (hc : c.pending = true) :
    owned (.flight p c w) = some p.object := by
  cases h with
  | callback hp hc' => simp [owned, hp, hc']
  | eventual hp hc' hw => simp [owned, hp, hw]
  | ended => simp [CbStage.pending] at hc

theorem Owned.sound {s : Process} (h : Owned s.shared s.threads) : Sound s where
  released t ht c p hr := by
    obtain ⟨howned, hticket, hreported⟩ := (h.well t ht).releases hr
    refine ⟨h.slots.not_mem_free (List.mem_filterMap.mpr ⟨t, ht, howned⟩), hticket, ?_⟩
    intro p' c' w' ht' hpending heq
    have howned' := (h.well _ ht').pending_owned hpending
    rw [heq] at howned'
    have hsame := eq_of_holds h.slots.nodup_held ht ht' howned howned'
    simp [hreported p' c' w' hsame] at hpending
  returned hidle := by
    have hnone : s.threads.filterMap owned = [] := by
      apply List.filterMap_eq_nil_iff.mpr
      intro t ht
      have hit := hidle t ht
      cases t with
      | issue type kind => rfl
      | flight p c w => cases hk : p.kind <;> simp_all [Point.idle, owned]
      | _ => simp [Point.idle] at hit
    exact (hnone ▸ h.slots).all_free
  untouched p c ht hp := by
    cases h.well _ ht with
    | callback hp' => simp [hp] at hp'
    | eventual hp' hc' hw => exact absurd rfl hw
    | ended => rfl

/-- As long as no waiter overtakes the `margo_cb` of its operation, in every
state of every interleaving every request is returned once for every time it
is taken, never while its operation is in flight, and no `margo_cb` uses it
after its waiter has returned it. -/
theorem request_ownership {n : Nat} {calls : List (RequestType × RequestKind)}
    {as : List (Nat × Choice)} {s : Process}
    (hrun : Run step WaiterLast (start n calls) as s) : Sound s := by
  have howned : Owned s.shared s.threads := by
    apply hrun.invariant (P := fun u => Owned u.shared u.threads) _ (owned_start n calls)
    intro u b u' hs hg h
    exact hs.step hg h
  exact howned.sound

/-- A forward completes and is waited for after its `margo_cb` is through. -/
theorem request_ownership_waited :
    ∃ s, Run step WaiterLast (start 64 [(.forward, .eventual)])
        ([(0, .ok), (0, .ok), (0, .ok)] ++ List.replicate 5 (0, .ok) ++
          List.replicate 4 (0, .waiter)) s ∧
      Sound s ∧ s.shared.freeList.Perm (List.range 64) := by
  have hrun : Run step WaiterLast (start 64 [(.forward, .eventual)])
      ([(0, .ok), (0, .ok), (0, .ok)] ++ List.replicate 5 (0, .ok) ++
        List.replicate 4 (0, .waiter))
      ⟨⟨64, List.replicate 64 ⟨.eventual, false, 0⟩, (List.range 64).reverse, 1⟩,
        [.flight ⟨.forward, .eventual, 63, 0⟩ .ended .ended]⟩ := run_of_exec (by decide)
  have hsound := request_ownership hrun
  exact ⟨_, hrun, hsound, hsound.returned (by decide)⟩

/-- The waiter of a forward returns the request between the two halves of
`margo_cb`, a forward with a callback takes the object, and the first
`margo_cb` is about to return it while the second forward is in flight. -/
theorem recycled_request_released :
    ¬ ∀ (n : Nat) (calls : List (RequestType × RequestKind)) (as : List (Nat × Choice))
      (s : Process), Run step Any (start n calls) as s → Sound s := by
  intro hall
  have hrun : Run step Any (start 64 [(.forward, .eventual), (.forward, .callback)])
      (List.replicate 6 (0, .ok) ++ List.replicate 4 (0, .waiter) ++
        List.replicate 3 (1, .ok) ++ [(0, .ok), (0, .ok)])
      ⟨⟨64, List.replicate 63 ⟨.eventual, false, 0⟩ ++ [⟨.callback, false, 1⟩],
          (List.range 63).reverse, 2⟩,
        [.flight ⟨.forward, .eventual, 63, 0⟩ .release .ended,
          .flight ⟨.forward, .callback, 63, 1⟩ .start .ended]⟩ := run_of_exec (by decide)
  have hsound := hall _ _ _ _ hrun
  obtain ⟨-, -, hflight⟩ := hsound.released _ List.mem_cons_self .ok _ rfl
  exact hflight ⟨.forward, .callback, 63, 1⟩ .start .ended (by simp) rfl rfl

end Margo.Request
