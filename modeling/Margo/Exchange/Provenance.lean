import Margo.Exchange.Model
import Margo.Serialization.Agreement

/-!
# Where results come from

Whatever the processes do and in whichever order Mercury lets things happen, what is known
of an operation only grows, a handler runs for it at most once, and its response is the one
that this handler gave or an error with which no handler was run.
-/

namespace Margo.Exchange

open Lib.Bytes Serialization
open Rpc (ProviderId muxId muxId_muxId)

variable {π α β : Type}

/-! ## What stays -/

/-- The later state of an operation. -/
structure Operation.Continues (op op' : Operation π α β) : Prop where
  origin : op'.origin = op.origin
  target : op'.target = op.target
  handle : op'.handle = op.handle
  id : op'.id = op.id
  request : op'.request = op.request
  noResponse : op'.noResponse = op.noResponse
  inStruct : op'.inStruct = op.inStruct
  context : op'.context = op.context
  parentRpcId : op'.parentRpcId = op.parentRpcId
  forwardKey : op'.forwardKey = op.forwardKey
  delivered : op.delivered = true → op'.delivered = true
  reply : ∀ r, op.reply = some r → op'.reply = some r

theorem Operation.Continues.refl (op : Operation π α β) : op.Continues op :=
  ⟨rfl, rfl, rfl, rfl, rfl, rfl, rfl, rfl, rfl, rfl, fun h => h, fun _ h => h⟩

/-- Every operation goes on. -/
def State.Later (s s' : State π α β) : Prop :=
  ∀ (t : Nat) (op : Operation π α β), s.operations[t]? = some op →
    ∃ op', s'.operations[t]? = some op' ∧ op.Continues op'

/-- The operations for which ULTs run handlers. -/
def State.servings (s : State π α β) : List Nat := s.ults.filterMap Ult.serving

/-- The value of the key of a ULT in a context. -/
def State.keyOf (s : State π α β) : Context → HgId
  | .program => 0
  | .rpc t =>
      match s.operations[t]? with
      | none => 0
      | some op => margoSetCurrentRpcId op.id
  | .chosen id => margoSetCurrentRpcId id

/-- The operation of a context was sent before. -/
def Context.Below (n : Nat) : Context → Prop
  | .rpc t => t < n
  | _ => True

section

variable {s s' : State π α β} {c : Context} {n m : Nat}

theorem Context.Below.mono (h : c.Below n) (hnm : n ≤ m) : c.Below m := by
  cases c with
  | rpc t => exact Nat.lt_of_lt_of_le h hnm
  | program => trivial
  | chosen id => trivial

theorem State.Later.keyOf (h : s.Later s') (hc : c.Below s.operations.length) :
    s'.keyOf c = s.keyOf c := by
  cases c with
  | program => rfl
  | chosen id => rfl
  | rpc t =>
      have hop := List.getElem?_eq_getElem hc
      obtain ⟨op', hop', hcont⟩ := h t _ hop
      rw [State.keyOf, State.keyOf, hop, hop']
      exact congrArg margoSetCurrentRpcId hcont.id

theorem later_of_eq (h : s'.operations = s.operations) : s.Later s' := by
  intro t op hop
  exact ⟨op, h ▸ hop, Operation.Continues.refl op⟩

theorem later_append {ops : List (Operation π α β)} (h : s'.operations = s.operations ++ ops) :
    s.Later s' := by
  intro t op hop
  refine ⟨op, ?_, Operation.Continues.refl op⟩
  rw [h, List.getElem?_append_left (List.getElem?_eq_some_iff.mp hop).1, hop]

theorem later_set {t : Nat} {op op' : Operation π α β} (hop : s.operations[t]? = some op)
    (h : s'.operations = s.operations.set t op') (hcont : op.Continues op') : s.Later s' := by
  intro i o ho
  by_cases hi : t = i
  · subst hi
    obtain rfl := Option.some.inj (hop.symm.trans ho)
    refine ⟨op', ?_, hcont⟩
    rw [h, List.getElem?_set_self (List.getElem?_eq_some_iff.mp hop).1]
  · refine ⟨o, ?_, Operation.Continues.refl o⟩
    rw [h, List.getElem?_set_ne hi, ho]

end

/-! ## The invariant -/

/-- What `margo_wait` says about the response of an operation, or that there was none. -/
def Tells (codes : ErrorCodes) (t : Nat) (op : Operation π α β) (t' : Nat)
    (op' : Operation π α β) (found : Bool) (hret : HgReturn) : Prop :=
  (found = true →
    (∃ v message, op'.reply = some (.data v message) ∧ hret = hgSuccess) ∨
      ∃ e message, op'.reply = some (.error e message) ∧ hret = e) ∧
    (found = false → hret = codes.invalidArg ∧ (t' = t → op.noResponse = true))

/-- What holds of every operation. -/
structure Sent (codes : ErrorCodes) (procs : HgId → HandleData α β) (s : State π α β) (t : Nat)
    (op : Operation π α β) : Prop where
  request : forwardMessage codes.toCodes (procs op.id) op.parentRpcId op.inStruct =
    (hgSuccess, op.request)
  below : op.context.Below t
  caller : ∀ t', op.context = .rpc t' → t' ∈ s.servings ∧
    ∃ op', s.operations[t']? = some op' ∧ op'.target = op.origin
  parent : op.parentRpcId = margoGetCurrentRpcId (s.keyOf op.context)
  forwardKey : op.forwardKey = (op.id, op.parentRpcId)
  handlerKey : ∀ k, op.handlerKey = some k → k = op.forwardKey
  responds : ∀ r, op.reply = some r → op.noResponse = false
  delivered : ∀ r, op.reply = some r → op.delivered = true
  data : ∀ v message, op.reply = some (.data v message) →
    irespondMessage codes.toCodes (procs op.id) v = (hgSuccess, message) ∧ t ∈ s.servings
  error : ∀ e message, op.reply = some (.error e message) →
    errorMessage codes.toCodes e = (hgSuccess, message) ∧ e ≠ hgSuccess ∧ t ∉ s.servings
  completed : op.completion = some hgSuccess → op.noResponse = true ∨ op.reply ≠ none
  waited : ∀ t' found hret, op.waited = some ⟨some t', found, hret⟩ → t ≤ t' ∧
    ∃ op', s.operations[t']? = some op' ∧ op'.handle = op.handle ∧
      Tells codes t op t' op' found hret

/-- The key of a ULT is the one of its context. -/
structure Keyed (s : State π α β) (u : Ult π) : Prop where
  key : u.currentRpcId = s.keyOf u.context
  below : u.context.Below s.operations.length
  own : ∀ t, u.context = .rpc t → u.serving = some t
  place : ∀ (t : Nat) (op : Operation π α β), u.serving = some t → s.operations[t]? = some op →
    u.proc = op.target

/-- What holds in every state that is reached. -/
structure Inv (codes : ErrorCodes) (procs : HgId → HandleData α β) (s : State π α β) : Prop where
  sent : ∀ (t : Nat) (op : Operation π α β), s.operations[t]? = some op → Sent codes procs s t op
  served : ∀ t ∈ s.servings, ∃ op, s.operations[t]? = some op ∧ op.delivered = true
  once : s.servings.Nodup
  keyed : ∀ u ∈ s.ults, Keyed s u
  handles : ∀ (i : Nat) (h : Handle π) (t : Nat), s.handles[i]? = some h → h.operation = some t →
    ∃ op, s.operations[t]? = some op ∧ op.handle = i
  latest : ∀ (t : Nat) (op : Operation π α β) (h : Handle π) (t' : Nat),
    s.operations[t]? = some op → s.handles[op.handle]? = some h → h.operation = some t' → t ≤ t'

section

variable {codes : ErrorCodes} {procs : HgId → HandleData α β} {s s' : State π α β} {t : Nat}
  {op op' : Operation π α β} {u : Ult π}

theorem lt_of_operation (hop : s.operations[t]? = some op) : t < s.operations.length :=
  (List.getElem?_eq_some_iff.mp hop).1

theorem Tells.continues {t' : Nat} {o o' : Operation π α β} {found : Bool} {hret : HgReturn}
    (h : Tells codes t op t' o found hret) (hcont : o.Continues o') :
    Tells codes t op t' o' found hret := by
  refine ⟨fun hfound => ?_, h.2⟩
  rcases h.1 hfound with ⟨v, message, hr, hret⟩ | ⟨e, message, hr, hret⟩
  · exact Or.inl ⟨v, message, hcont.reply _ hr, hret⟩
  · exact Or.inr ⟨e, message, hcont.reply _ hr, hret⟩

/-- What holds of an operation goes on to hold while it does not change itself. -/
theorem Sent.later (h : Sent codes procs s t op) (hop : s.operations[t]? = some op)
    (hlater : s.Later s') (hsub : s.servings ⊆ s'.servings)
    (hnot : ∀ e message, op.reply = some (.error e message) → t ∉ s.servings → t ∉ s'.servings) :
    Sent codes procs s' t op where
  request := h.request
  below := h.below
  caller t' hc := by
    obtain ⟨hserved, op', hop', htarget⟩ := h.caller t' hc
    obtain ⟨op'', hop'', hcont⟩ := hlater t' op' hop'
    exact ⟨hsub hserved, op'', hop'', hcont.target.trans htarget⟩
  parent := by
    rw [hlater.keyOf (h.below.mono (Nat.le_of_lt (lt_of_operation hop)))]
    exact h.parent
  forwardKey := h.forwardKey
  handlerKey := h.handlerKey
  responds := h.responds
  delivered := h.delivered
  data v message hr := ⟨(h.data v message hr).1, hsub (h.data v message hr).2⟩
  error e message hr := by
    obtain ⟨hmsg, hne, hnone⟩ := h.error e message hr
    exact ⟨hmsg, hne, hnot e message hr hnone⟩
  completed := h.completed
  waited t' found hret hw := by
    obtain ⟨hle, op', hop', hhandle, htells⟩ := h.waited t' found hret hw
    obtain ⟨op'', hop'', hcont⟩ := hlater t' op' hop'
    exact ⟨hle, op'', hop'', hcont.handle.trans hhandle, htells.continues hcont⟩

theorem Keyed.later (h : Keyed s u) (hlater : s.Later s')
    (hlen : s.operations.length ≤ s'.operations.length)
    (hplace : ∀ t, u.serving = some t → t < s.operations.length) : Keyed s' u where
  key := by
    rw [hlater.keyOf h.below]
    exact h.key
  below := h.below.mono hlen
  own := h.own
  place t op' hserving hop' := by
    have hop := List.getElem?_eq_getElem (hplace t hserving)
    obtain ⟨op'', hop'', hcont⟩ := hlater t _ hop
    obtain rfl := Option.some.inj (hop''.symm.trans hop')
    rw [hcont.target]
    exact h.place t _ hserving hop

theorem mem_servings : t ∈ s.servings ↔ ∃ u ∈ s.ults, u.serving = some t := by
  rw [State.servings, List.mem_filterMap]

theorem Inv.serving_lt (hi : Inv codes procs s) (hu : u ∈ s.ults) (ht : u.serving = some t) :
    t < s.operations.length := by
  obtain ⟨op, hop, -⟩ := hi.served t (mem_servings.mpr ⟨u, hu, ht⟩)
  exact lt_of_operation hop

/-- A step that neither concerns an operation nor a ULT. -/
theorem Inv.quiet (hi : Inv codes procs s) (hops : s'.operations = s.operations)
    (hults : s'.ults = s.ults)
    (hhandles : ∀ (i : Nat) (h : Handle π) (t : Nat), s'.handles[i]? = some h →
      h.operation = some t → ∃ h₀, s.handles[i]? = some h₀ ∧ h₀.operation = some t) :
    Inv codes procs s' := by
  have hservings : s'.servings = s.servings := by rw [State.servings, hults, State.servings]
  have hlater : s.Later s' := later_of_eq hops
  constructor
  · intro t op hop
    rw [hops] at hop
    apply (hi.sent t op hop).later hop hlater
    · rw [hservings]
      exact List.Subset.refl _
    · intro e message _ hnone
      rwa [hservings]
  · intro t ht
    rw [hservings] at ht
    rw [hops]
    exact hi.served t ht
  · rw [hservings]
    exact hi.once
  · intro u hu
    rw [hults] at hu
    apply (hi.keyed u hu).later hlater
    · rw [hops]
    · exact fun t ht => hi.serving_lt hu ht
  · intro i h t hh ht
    obtain ⟨h₀, hh₀, ht₀⟩ := hhandles i h t hh ht
    rw [hops]
    exact hi.handles i h₀ t hh₀ ht₀
  · intro t op h t' hop hh ht'
    rw [hops] at hop
    obtain ⟨h₀, hh₀, ht₀⟩ := hhandles _ h t' hh ht'
    exact hi.latest t op h₀ t' hop hh₀ ht₀

/-- A ULT of the program. -/
theorem Inv.spawn (hi : Inv codes procs s) (p : π) :
    Inv codes procs { s with ults := s.ults ++ [⟨p, 0, none, true, .program⟩] } := by
  have hservings : ({ s with ults := s.ults ++ [⟨p, 0, none, true, .program⟩] } :
      State π α β).servings = s.servings := by
    rw [State.servings, List.filterMap_append]
    exact List.append_nil _
  have hlater : s.Later { s with ults := s.ults ++ [⟨p, 0, none, true, .program⟩] } :=
    later_of_eq rfl
  constructor
  · intro t op hop
    apply (hi.sent t op hop).later hop hlater
    · rw [hservings]
      exact List.Subset.refl _
    · intro e message _ hnone
      rwa [hservings]
  · rw [hservings]
    exact hi.served
  · rw [hservings]
    exact hi.once
  · intro u hu
    rcases List.mem_append.mp hu with hold | hnew
    · exact (hi.keyed u hold).later hlater (Nat.le_refl _) fun t ht => hi.serving_lt hold ht
    · rw [List.mem_singleton.mp hnew]
      constructor
      · rfl
      · trivial
      · intro t hcontext
        cases hcontext
      · intro t op ht
        cases ht
  · exact hi.handles
  · exact hi.latest

theorem filterMap_set {γ δ : Type} {f : γ → Option δ} {l : List γ} {i : Nat} {a b : γ}
    (ha : l[i]? = some a) (hab : f b = f a) : (l.set i b).filterMap f = l.filterMap f := by
  have hmap : (l.set i b).map f = l.map f := by
    rw [List.map_set, hab]
    apply List.ext_getElem?
    intro j
    by_cases hj : i = j
    · subst hj
      have hlt : i < (l.map f).length := by
        rw [List.length_map]
        exact (List.getElem?_eq_some_iff.mp ha).1
      rw [List.getElem?_set_self hlt, List.getElem?_map, ha, Option.map_some]
    · rw [List.getElem?_set_ne hj]
  have hid : ∀ l : List γ, l.filterMap f = (l.map f).filterMap id := by
    intro l
    rw [List.filterMap_map, Function.id_comp]
  rw [hid, hid, hmap]

/-- A ULT sets its key, in a context to which the id belongs. -/
theorem Inv.setKey (hi : Inv codes procs s) {i : Nat} (hu : s.ults[i]? = some u) {id : HgId}
    {context : Context} (hkey : margoSetCurrentRpcId id = s.keyOf context)
    (hbelow : context.Below s.operations.length)
    (hown : ∀ t, context = .rpc t → u.serving = some t) :
    Inv codes procs (s.setKey i u id context) := by
  have hmem := List.mem_of_getElem? hu
  have hservings : (s.setKey i u id context).servings = s.servings := filterMap_set hu rfl
  have hlater : s.Later (s.setKey i u id context) := later_of_eq rfl
  constructor
  · intro t op hop
    apply (hi.sent t op hop).later hop hlater
    · rw [hservings]
      exact List.Subset.refl _
    · intro e message _ hnone
      rwa [hservings]
  · rw [hservings]
    exact hi.served
  · rw [hservings]
    exact hi.once
  · intro v hv
    rcases List.mem_or_eq_of_mem_set hv with hold | rfl
    · exact (hi.keyed v hold).later hlater (Nat.le_refl _) fun t ht => hi.serving_lt hold ht
    · exact ⟨hkey, hbelow, hown, (hi.keyed u hmem).place⟩
  · exact hi.handles
  · exact hi.latest

/-- An operation goes on, maybe with a new ULT for its handler. -/
theorem Inv.setOperation (hi : Inv codes procs s) (hop : s.operations[t]? = some op)
    (hcont : op.Continues op') (ult : Option (Ult π))
    (hult : ∀ u, ult = some u → u = ⟨op.target, 0, some t, false, .program⟩ ∧
      op.delivered = false ∧ op'.delivered = true)
    (hs' : s' = { s.setOperation t op' with ults := s.ults ++ ult.toList })
    (hnone : ult = none → s'.servings = s.servings → Sent codes procs s' t op →
      Sent codes procs s' t op')
    (hsome : ∀ u, ult = some u → Sent codes procs s' t op → Sent codes procs s' t op') :
    Inv codes procs s' := by
  have hops : s'.operations = s.operations.set t op' := by rw [hs']; rfl
  have hlater : s.Later s' := later_set hop hops hcont
  have hlen : s'.operations.length = s.operations.length := by rw [hops, List.length_set]
  have hself : s'.operations[t]? = some op' := by
    rw [hops, List.getElem?_set_self (lt_of_operation hop)]
  have hundelivered : op.delivered = false → t ∉ s.servings := by
    intro hfalse hmem
    obtain ⟨o, ho, htrue⟩ := hi.served t hmem
    obtain rfl := Option.some.inj (hop.symm.trans ho)
    exact Bool.false_ne_true (hfalse.symm.trans htrue)
  have hservings : s'.servings = s.servings ++ ult.toList.filterMap Ult.serving := by
    rw [hs', State.servings, List.filterMap_append, State.servings]
  have hhandles : s'.handles = s.handles := by rw [hs']; rfl
  have hults : s'.ults = s.ults ++ ult.toList := by rw [hs']
  have hnew : ∀ i ∈ ult.toList.filterMap Ult.serving, i = t := by
    intro i hmem
    obtain ⟨u, hu, hserving⟩ := List.mem_filterMap.mp hmem
    obtain ⟨rfl, -, -⟩ := hult u (Option.mem_toList.mp hu)
    exact (Option.some.inj hserving).symm
  constructor
  · intro i o ho
    by_cases hit : i = t
    · subst hit
      obtain rfl := Option.some.inj (hself.symm.trans ho)
      have hold := hi.sent i op hop
      cases hu : ult with
      | none =>
          rw [hu] at hservings
          have hsame : s'.servings = s.servings := hservings.trans (List.append_nil _)
          apply hnone hu hsame
          apply hold.later hop hlater
          · rw [hsame]
            exact List.Subset.refl _
          · intro e message _ hnot
            rwa [hsame]
      | some u =>
          have hfalse := (hult u hu).2.1
          apply hsome u hu
          apply hold.later hop hlater
          · rw [hservings]
            exact List.subset_append_left _ _
          · intro e message hr
            exact absurd (hfalse.symm.trans (hold.delivered _ hr)) Bool.false_ne_true
    · rw [hops, List.getElem?_set_ne (Ne.symm hit)] at ho
      apply (hi.sent i o ho).later ho hlater
      · rw [hservings]
        exact List.subset_append_left _ _
      · intro e message _ hnone
        rw [hservings, List.mem_append]
        rintro (hold | hmem)
        · exact hnone hold
        · exact hit (hnew i hmem)
  · intro i hmem
    rw [hservings, List.mem_append] at hmem
    rcases hmem with hold | hmem
    · obtain ⟨o, ho, htrue⟩ := hi.served i hold
      obtain ⟨o', ho', hcont'⟩ := hlater i o ho
      exact ⟨o', ho', hcont'.delivered htrue⟩
    · obtain rfl := hnew i hmem
      obtain ⟨u, hu, -⟩ := List.mem_filterMap.mp hmem
      exact ⟨op', hself, (hult u (Option.mem_toList.mp hu)).2.2⟩
  · rw [hservings]
    cases hu : ult with
    | none => simpa using hi.once
    | some u =>
        obtain ⟨rfl, hfalse, -⟩ := hult u hu
        exact hi.once.append (List.nodup_singleton t) (by simpa using hundelivered hfalse)
  · intro u hu
    rw [hults] at hu
    rcases List.mem_append.mp hu with hold | hmem
    · exact (hi.keyed u hold).later hlater (Nat.le_of_eq hlen.symm) fun i hs =>
        hi.serving_lt hold hs
    · obtain ⟨rfl, -, -⟩ := hult u (Option.mem_toList.mp hmem)
      constructor
      · rfl
      · trivial
      · intro i hcontext
        cases hcontext
      · intro i o hi' ho
        obtain rfl := Option.some.inj hi'
        obtain rfl := Option.some.inj (hself.symm.trans ho)
        exact hcont.target.symm
  · intro i h i' hh hi'
    rw [hhandles] at hh
    obtain ⟨o, ho, hhandle⟩ := hi.handles i h i' hh hi'
    obtain ⟨o', ho', hcont'⟩ := hlater i' o ho
    exact ⟨o', ho', hcont'.handle.trans hhandle⟩
  · intro i o h i' ho hh hi'
    rw [hhandles] at hh
    by_cases hit : i = t
    · subst hit
      obtain rfl := Option.some.inj (hself.symm.trans ho)
      rw [hcont.handle] at hh
      exact hi.latest i op h i' hop hh hi'
    · rw [hops, List.getElem?_set_ne (Ne.symm hit)] at ho
      exact hi.latest i o h i' ho hh hi'

/-! ## Steps -/

/-- A request is sent. -/
theorem Inv.send (hi : Inv codes procs s) (hmem : u ∈ s.ults) {i : Nat} {h : Handle π}
    (h' : Handle π) (hh : s.handles[i]? = some h) (hh' : h'.operation = some s.operations.length)
    (hnew : op.handle = i ∧ op.reply = none ∧ op.completion = none ∧ op.waited = none ∧
      op.handlerKey = none ∧ op.context = u.context ∧ op.origin = u.proc ∧
      op.parentRpcId = margoGetCurrentRpcId u.currentRpcId ∧
      op.forwardKey = (op.id, op.parentRpcId))
    (hrequest : forwardMessage codes.toCodes (procs op.id) op.parentRpcId op.inStruct =
      (hgSuccess, op.request))
    (hops : s'.operations = s.operations ++ [op]) (hults : s'.ults = s.ults)
    (hhandles : s'.handles = s.handles.set i h') : Inv codes procs s' := by
  obtain ⟨hhandle, hreply, hcompletion, hwaited, hhandlerKey, hcontext, horigin, hparent,
    hforward⟩ := hnew
  have hu := hi.keyed u hmem
  have hlater : s.Later s' := later_append hops
  have hlen : s'.operations.length = s.operations.length + 1 := by
    rw [hops, List.length_append, List.length_singleton]
  have hservings : s'.servings = s.servings := by rw [State.servings, hults, State.servings]
  have hcases : ∀ {t : Nat} {o : Operation π α β}, s'.operations[t]? = some o →
      s.operations[t]? = some o ∨ t = s.operations.length ∧ o = op := by
    intro t o ho
    rw [hops, List.getElem?_append] at ho
    split at ho
    · exact Or.inl ho
    · obtain ⟨hlt, hself⟩ := List.getElem?_eq_some_iff.mp ho
      rw [List.length_singleton] at hlt
      rw [List.getElem_singleton] at hself
      exact Or.inr ⟨by omega, hself.symm⟩
  have hlast : s'.operations[s.operations.length]? = some op := by
    rw [hops, List.getElem?_concat_length]
  constructor
  · intro t o ho
    rcases hcases ho with hold | ⟨rfl, rfl⟩
    · apply (hi.sent t o hold).later hold hlater
      · rw [hservings]
        exact List.Subset.refl _
      · intro e message _ hnone
        rwa [hservings]
    · constructor
      · exact hrequest
      · rw [hcontext]
        exact hu.below
      · intro t' hc
        have hserving := hu.own t' (hcontext.symm.trans hc)
        have hserved : t' ∈ s.servings := mem_servings.mpr ⟨u, hmem, hserving⟩
        obtain ⟨o, ho, -⟩ := hi.served t' hserved
        obtain ⟨o', ho', hcont⟩ := hlater t' o ho
        refine ⟨hservings ▸ hserved, o', ho', ?_⟩
        rw [hcont.target, horigin, hu.place t' o hserving ho]
      · rw [hparent, hcontext, hlater.keyOf hu.below, hu.key]
      · exact hforward
      · intro k hk
        rw [hhandlerKey] at hk
        cases hk
      · intro r hr
        rw [hreply] at hr
        cases hr
      · intro r hr
        rw [hreply] at hr
        cases hr
      · intro v message hr
        rw [hreply] at hr
        cases hr
      · intro e message hr
        rw [hreply] at hr
        cases hr
      · intro hc
        rw [hcompletion] at hc
        cases hc
      · intro t' found hret hw
        rw [hwaited] at hw
        cases hw
  · intro t ht
    rw [hservings] at ht
    obtain ⟨o, ho, htrue⟩ := hi.served t ht
    obtain ⟨o', ho', hcont⟩ := hlater t o ho
    exact ⟨o', ho', hcont.delivered htrue⟩
  · rw [hservings]
    exact hi.once
  · intro v hv
    rw [hults] at hv
    apply (hi.keyed v hv).later hlater
    · rw [hlen]
      exact Nat.le_succ _
    · exact fun t ht => hi.serving_lt hv ht
  · intro j g t hg ht
    rw [hhandles] at hg
    by_cases hij : i = j
    · subst hij
      rw [List.getElem?_set_self (List.getElem?_eq_some_iff.mp hh).1] at hg
      obtain rfl := Option.some.inj hg
      obtain rfl := Option.some.inj (hh'.symm.trans ht)
      exact ⟨op, hlast, hhandle⟩
    · rw [List.getElem?_set_ne hij] at hg
      obtain ⟨o, ho, hself⟩ := hi.handles j g t hg ht
      obtain ⟨o', ho', hcont⟩ := hlater t o ho
      exact ⟨o', ho', hcont.handle.trans hself⟩
  · intro t o g t' ho hg ht'
    rw [hhandles] at hg
    by_cases hij : i = o.handle
    · rw [← hij, List.getElem?_set_self (List.getElem?_eq_some_iff.mp hh).1] at hg
      obtain rfl := Option.some.inj hg
      obtain rfl := Option.some.inj (hh'.symm.trans ht')
      have hlt := lt_of_operation ho
      omega
    · rw [List.getElem?_set_ne hij] at hg
      rcases hcases ho with hold | ⟨-, rfl⟩
      · exact hi.latest t o g t' hold hg ht'
      · exact absurd hhandle.symm hij

variable [DecidableEq π]

theorem registerServerId_same {h : Handle π} {serverId : HgId} {reg : Registration}
    (hreg : registerServerId s h serverId = some (s', reg)) :
    s'.operations = s.operations ∧ s'.ults = s.ults ∧ s'.handles = s.handles := by
  rw [registerServerId] at hreg
  cases hserver : s.registered h.proc serverId with
  | some reg =>
      rw [hserver] at hreg
      obtain ⟨rfl, -⟩ := Prod.mk.inj (Option.some.inj hreg)
      exact ⟨rfl, rfl, rfl⟩
  | none =>
      rw [hserver] at hreg
      cases hclient : s.registered h.proc h.id with
      | none =>
          rw [hclient] at hreg
          cases hreg
      | some reg =>
          rw [hclient] at hreg
          obtain ⟨rfl, -⟩ := Prod.mk.inj (Option.some.inj hreg)
          exact ⟨rfl, rfl, rfl⟩

theorem Inv.iforward (hi : Inv codes procs s)
    (hprocs : ∀ id providerId, procs (muxId id providerId) = procs id) (hu : u ∈ s.ults) {i : Nat}
    {h : Handle π} (hh : s.handles[i]? = some h) (hproc : u.proc = h.proc)
    (providerId : ProviderId) (inStruct : α) (timer accepted : Bool) :
    Inv codes procs (iforward codes procs s u i h providerId inStruct timer accepted) := by
  rw [Exchange.iforward]
  cases hreg : registerServerId s h (muxId h.id providerId) with
  | none => exact hi
  | some r =>
      obtain ⟨s₁, reg⟩ := r
      obtain ⟨hops, hults, hhandles⟩ := registerServerId_same hreg
      have hi₁ : Inv codes procs s₁ := by
        apply hi.quiet hops hults
        intro j g t hg ht
        rw [hhandles] at hg
        exact ⟨g, hg, ht⟩
      have hh₁ : s₁.handles[i]? = some h := by rwa [hhandles]
      have hu₁ : u ∈ s₁.ults := by rwa [hults]
      dsimp only
      split
      · exact hi₁
      · split
        · next hsent =>
            refine hi₁.send hu₁ ⟨h.proc, h.addr, muxId h.id providerId, _⟩ hh₁ rfl
              ⟨rfl, rfl, rfl, rfl, rfl, rfl, hproc.symm, rfl, rfl⟩ ?_ rfl rfl rfl
            rw [hprocs]
            exact Prod.ext hsent.1 rfl
        · refine hi₁.quiet (by rfl) (by rfl) ?_
          intro j g t hg ht
          by_cases hij : i = j
          · subst hij
            rw [List.getElem?_set_self (List.getElem?_eq_some_iff.mp hh₁).1] at hg
            obtain rfl := Option.some.inj hg
            cases ht
          · rw [List.getElem?_set_ne hij] at hg
            exact ⟨g, hg, ht⟩

omit [DecidableEq π] in
theorem verdict_cases (codes : ErrorCodes) (checksum : Bool) :
    verdict codes checksum = hgSuccess ∨ verdict codes checksum = codes.checksumError := by
  cases checksum with
  | false => exact Or.inl rfl
  | true => exact Or.inr rfl

omit [DecidableEq π] in
/-- The target reads the parent id that the request was sent with. -/
theorem Sent.parentId (h : Sent codes procs s t op)
    (hin : ∀ id cb, (procs id).inProcCb = some cb → Undoes cb) (checksum : Bool) :
    checkParentIdInInput codes.toCodes (verdict codes checksum) op.request =
      (hgSuccess, some op.parentRpcId) := by
  obtain ⟨bytes, hmsg, -⟩ := forwardMessage_eq h.request (hin op.id)
  rw [hmsg]
  exact checkParentIdInInput_eq (verdict_cases codes checksum)

omit [DecidableEq π] in
theorem Sent.handled (h : Sent codes procs s t op) (key : Option (HgId × HgId))
    (hkey : ∀ k, key = some k → k = op.forwardKey) :
    Sent codes procs s t { op with delivered := true, handlerKey := key } :=
  ⟨h.request, h.below, h.caller, h.parent, h.forwardKey, hkey, h.responds, fun _ _ => rfl, h.data,
    h.error, h.completed, h.waited⟩

omit [DecidableEq π] in
/-- An error is sent as the response to a request for which no handler runs. -/
theorem Sent.respondWithError (h : Sent codes procs s t op) (hreply : op.reply = none)
    (hdelivered : op.delivered = true) (hnone : t ∉ s.servings) (reg : Registration)
    (accepted : Bool) {e : HgReturn} (he : e ≠ hgSuccess) :
    Sent codes procs s t (respondWithError codes reg accepted e op) ∧
      op.Continues (respondWithError codes reg accepted e op) ∧
      (respondWithError codes reg accepted e op).delivered = true := by
  rw [Exchange.respondWithError]
  split
  · exact ⟨h, Operation.Continues.refl op, hdelivered⟩
  · dsimp only
    split
    · next hsent =>
        obtain ⟨hhret, -, hresponse⟩ := hsent
        have hmessage : errorMessage codes.toCodes e = (hgSuccess, _) := Prod.ext hhret rfl
        refine ⟨⟨h.request, h.below, h.caller, h.parent, h.forwardKey, h.handlerKey, ?_, fun _ _ =>
          hdelivered, ?_, ?_, ?_, ?_⟩, ?_, hdelivered⟩
        · intro r _
          simpa using hresponse
        · intro v message hr
          cases hr
        · intro e' message hr
          obtain ⟨rfl, rfl⟩ := Reply.error.inj (Option.some.inj hr)
          exact ⟨hmessage, he, hnone⟩
        · exact fun _ => Or.inr (Option.some_ne_none _)
        · exact h.waited
        · refine ⟨rfl, rfl, rfl, rfl, rfl, rfl, rfl, rfl, rfl, rfl, fun h => h, ?_⟩
          intro r hr
          rw [hreply] at hr
          cases hr
    · exact ⟨h, Operation.Continues.refl op, hdelivered⟩

omit [DecidableEq π] in
theorem Operation.Continues.trans {op'' : Operation π α β} (h : op.Continues op')
    (h' : op'.Continues op'') : op.Continues op'' :=
  ⟨h'.origin.trans h.origin, h'.target.trans h.target, h'.handle.trans h.handle,
    h'.id.trans h.id, h'.request.trans h.request, h'.noResponse.trans h.noResponse,
    h'.inStruct.trans h.inStruct, h'.context.trans h.context,
    h'.parentRpcId.trans h.parentRpcId, h'.forwardKey.trans h.forwardKey,
    fun hd => h'.delivered (h.delivered hd), fun r hr => h'.reply r (h.reply r hr)⟩

omit [DecidableEq π] in
theorem continues_delivered (op : Operation π α β) (key : Option (HgId × HgId)) :
    op.Continues { op with delivered := true, handlerKey := key } :=
  ⟨rfl, rfl, rfl, rfl, rfl, rfl, rfl, rfl, rfl, rfl, fun _ => rfl, fun _ hr => hr⟩

omit [DecidableEq π] in
/-- The callback of an RPC refuses a request, or creates the one ULT for it. -/
theorem rpcHandler_cases (codes : ErrorCodes) (reg : Registration) (finalizing : Bool)
    (r : HandlerReplies) (t : Nat) (op : Operation π α β) :
    (∃ e key, e ≠ hgSuccess ∧
      (key = op.handlerKey ∨ key = some (op.id,
        (checkParentIdInInput codes.toCodes (verdict codes r.checksum) op.request).2.getD 0)) ∧
      rpcHandler codes reg finalizing r t op =
        (respondWithError codes reg r.respond e { op with handlerKey := key }, none)) ∨
      finalizing = false ∧
        rpcHandler codes reg finalizing r t op = ({ op with handlerKey := some (op.id,
          (checkParentIdInInput codes.toCodes (verdict codes r.checksum) op.request).2.getD 0) },
          some ⟨op.target, 0, some t, false, .program⟩) := by
  rw [rpcHandler]
  split
  · exact Or.inl ⟨_, _, codes.noEntry_ne, Or.inl rfl, rfl⟩
  · split
    · next hset => exact Or.inl ⟨_, _, hset, Or.inl rfl, rfl⟩
    · split
      · exact Or.inl ⟨_, _, codes.permission_ne, Or.inl rfl, rfl⟩
      · next hrunning =>
          dsimp only
          split
          · exact Or.inr ⟨Bool.not_eq_true _ ▸ hrunning, rfl⟩
          · exact Or.inl ⟨_, _, codes.otherError_ne, Or.inr rfl, rfl⟩

omit [DecidableEq π] in
theorem Inv.deliver (hi : Inv codes procs s)
    (hin : ∀ id cb, (procs id).inProcCb = some cb → Undoes cb)
    (hop : s.operations[t]? = some op) (hnew : op.delivered = false)
    (reg : Registration) (finalizing : Bool) (r : HandlerReplies) :
    Inv codes procs
      { s.setOperation t (rpcHandler codes reg finalizing r t { op with delivered := true }).1 with
        ults := s.ults ++
          (rpcHandler codes reg finalizing r t { op with delivered := true }).2.toList } := by
  have hsent := hi.sent t op hop
  have hreply : op.reply = none := by
    cases hr : op.reply with
    | none => rfl
    | some reply => exact absurd (hnew.symm.trans (hsent.delivered _ hr)) Bool.false_ne_true
  have hnone : t ∉ s.servings := by
    intro hmem
    obtain ⟨o, ho, htrue⟩ := hi.served t hmem
    obtain rfl := Option.some.inj (hop.symm.trans ho)
    exact Bool.false_ne_true (hnew.symm.trans htrue)
  have hparent := hsent.parentId hin r.checksum
  have hkey : ∀ key, (key = op.handlerKey ∨ key = some (op.id, (checkParentIdInInput codes.toCodes
      (verdict codes r.checksum) op.request).2.getD 0)) →
      ∀ k, key = some k → k = op.forwardKey := by
    intro key hcases k hk
    rcases hcases with rfl | rfl
    · exact hsent.handlerKey k hk
    · rw [hparent] at hk
      rw [← Option.some.inj hk, hsent.forwardKey]
      rfl
  rcases rpcHandler_cases codes reg finalizing r t { op with delivered := true } with
    ⟨e, key, he, hcases, heq⟩ | ⟨-, heq⟩
  · rw [heq]
    have hresponded : ∀ s' : State π α β, Sent codes procs s' t op → t ∉ s'.servings →
        Sent codes procs s' t (respondWithError codes reg r.respond e
          { op with delivered := true, handlerKey := key }) ∧
        op.Continues (respondWithError codes reg r.respond e
          { op with delivered := true, handlerKey := key }) := by
      intro s' hs' hnone'
      obtain ⟨hsent', hcont, -⟩ := (hs'.handled key (hkey key hcases)).respondWithError hreply rfl
        hnone' reg r.respond he
      exact ⟨hsent', (continues_delivered op key).trans hcont⟩
    refine hi.setOperation hop (hresponded s hsent hnone).2 none ?_ rfl ?_ ?_
    · intro u hu
      cases hu
    · intro _ hsame hs'
      apply (hresponded _ hs' ?_).1
      rw [hsame]
      exact hnone
    · intro u hu
      cases hu
  · rw [heq]
    refine hi.setOperation hop (continues_delivered op _) (some _) ?_ rfl ?_ ?_
    · intro u hu
      exact ⟨(Option.some.inj hu).symm, hnew, rfl⟩
    · intro hfalse
      cases hfalse
    · intro u _ hs'
      exact hs'.handled _ (hkey _ (Or.inr rfl))

omit [DecidableEq π] in
/-- The header of a response is the success of its handler, or the error. -/
theorem Sent.header (h : Sent codes procs s t op)
    (hout : ∀ id cb, (procs id).outProcCb = some cb → Undoes cb) {reply : Reply β}
    (hreply : op.reply = some reply) (checksum : Bool) :
    (∃ v message, reply = .data v message ∧ checkErrorInOutput codes.toCodes hgSuccess false
        (verdict codes checksum) reply.message = hgSuccess) ∨
      ∃ e message, reply = .error e message ∧ checkErrorInOutput codes.toCodes hgSuccess false
        (verdict codes checksum) reply.message = e := by
  cases reply with
  | data v message =>
      obtain ⟨bytes, hmessage, -⟩ := irespondMessage_eq (h.data v message hreply).1 (hout op.id)
      refine Or.inl ⟨v, message, rfl, ?_⟩
      rw [Reply.message, hmessage]
      exact checkErrorInOutput_eq (verdict_cases codes checksum)
  | error e message =>
      obtain ⟨hsent, hne, -⟩ := h.error e message hreply
      have hmessage : message = ofWord e ++ [] :=
        congrArg Prod.snd (hsent.symm.trans (errorMessage_eq hne))
      refine Or.inr ⟨e, message, rfl, ?_⟩
      rw [Reply.message, hmessage]
      exact checkErrorInOutput_eq (verdict_cases codes checksum)

omit [DecidableEq π] in
/-- `margo_wait` tells what the response says that the handle holds. -/
theorem Inv.waits (hi : Inv codes procs s)
    (hout : ∀ id cb, (procs id).outProcCb = some cb → Undoes cb)
    (hop : s.operations[t]? = some op) {h : Handle π} (hh : s.handles[op.handle]? = some h)
    {completion : HgReturn} (hcompletion : op.completion = some completion) {checksum : Bool}
    {t' : Nat} {found : Bool} {hret : HgReturn}
    (hwait : waitInternal codes s h completion checksum = ⟨some t', found, hret⟩) :
    t ≤ t' ∧ ∃ op', s.operations[t']? = some op' ∧ op'.handle = op.handle ∧
      Tells codes t op t' op' found hret := by
  rw [waitInternal] at hwait
  split at hwait
  · cases hwait
  · next hsuccess =>
      rw [checkErrorIn] at hwait
      split at hwait
      · cases hwait
      · split at hwait
        · cases hwait
        · split at hwait
          · next hnone =>
              obtain ⟨hoperation, rfl, rfl⟩ := Waited.mk.inj hwait
              obtain ⟨op', hop', hhandle⟩ := hi.handles _ h t' hh hoperation
              refine ⟨hi.latest t op h t' hop hh hoperation, op', hop', hhandle, nofun,
                fun _ => ⟨rfl, ?_⟩⟩
              rintro rfl
              obtain rfl := Option.some.inj (hop.symm.trans hop')
              rw [not_not] at hsuccess
              subst hsuccess
              rcases (hi.sent t' op hop).completed hcompletion with hno | hreply
              · exact hno
              · by_contra hresponse
                rw [Bool.not_eq_true] at hresponse
                simp only [State.output, hoperation, Option.bind_some, hop, hcompletion,
                  hresponse, Bool.not_false, and_self, if_true, Option.map_eq_none_iff] at hnone
                exact hreply hnone
          · next message hsome =>
              obtain ⟨hoperation, rfl, rfl⟩ := Waited.mk.inj hwait
              obtain ⟨op', hop', hhandle⟩ := hi.handles _ h t' hh hoperation
              refine ⟨hi.latest t op h t' hop hh hoperation, op', hop', hhandle, fun _ => ?_, nofun⟩
              simp only [State.output, hoperation, Option.bind_some, hop'] at hsome
              split at hsome
              · obtain ⟨reply, hreply, rfl⟩ := Option.map_eq_some_iff.mp hsome
                rcases (hi.sent t' op' hop').header hout hreply checksum with
                  ⟨v, message, rfl, hheader⟩ | ⟨e, message, rfl, hheader⟩
                · exact Or.inl ⟨v, message, hreply, hheader⟩
                · exact Or.inr ⟨e, message, hreply, hheader⟩
              · cases hsome

omit [DecidableEq π] in
theorem Inv.wait (hi : Inv codes procs s)
    (hout : ∀ id cb, (procs id).outProcCb = some cb → Undoes cb)
    (hop : s.operations[t]? = some op) {h : Handle π} (hh : s.handles[op.handle]? = some h)
    {completion : HgReturn} (hcompletion : op.completion = some completion) (checksum : Bool) :
    Inv codes procs (s.setOperation t
      { op with waited := some (waitInternal codes s h completion checksum) }) := by
  set op' : Operation π α β :=
    { op with waited := some (waitInternal codes s h completion checksum) } with hop'
  have hcont : op.Continues op' :=
    ⟨rfl, rfl, rfl, rfl, rfl, rfl, rfl, rfl, rfl, rfl, fun hd => hd, fun _ hr => hr⟩
  have hlater : s.Later (s.setOperation t op') := later_set hop rfl hcont
  have hs' : s.setOperation t op' =
      { s.setOperation t op' with ults := s.ults ++ (none : Option (Ult π)).toList } := by
    rw [Option.toList_none, List.append_nil]
    rfl
  refine hi.setOperation hop hcont none ?_ hs' ?_ ?_
  · intro u hu
    cases hu
  · intro _ _ hold
    refine ⟨hold.request, hold.below, hold.caller, hold.parent, hold.forwardKey, hold.handlerKey,
      hold.responds, hold.delivered, hold.data, hold.error, hold.completed, ?_⟩
    intro t' found hret hw
    obtain ⟨hle, o, ho, hhandle, htells⟩ :=
      hi.waits hout hop hh hcompletion (Option.some.inj hw)
    obtain ⟨o', ho', hcont'⟩ := hlater t' o ho
    exact ⟨hle, o', ho', hcont'.handle.trans hhandle, htells.continues hcont'⟩
  · intro u hu
    cases hu

omit [DecidableEq π] in
/-- An operation goes on without a new ULT. -/
theorem Inv.goOn (hi : Inv codes procs s) (hop : s.operations[t]? = some op)
    (hcont : op.Continues op')
    (hsent : ∀ s' : State π α β, s'.servings = s.servings → Sent codes procs s' t op →
      Sent codes procs s' t op') : Inv codes procs (s.setOperation t op') := by
  have hs' : s.setOperation t op' =
      { s.setOperation t op' with ults := s.ults ++ (none : Option (Ult π)).toList } := by
    rw [Option.toList_none, List.append_nil]
    rfl
  refine hi.setOperation hop hcont none ?_ hs' ?_ ?_
  · intro u hu
    cases hu
  · exact fun _ hsame hold => hsent _ hsame hold
  · intro u hu
    cases hu

omit [DecidableEq π] in
theorem Inv.complete (hi : Inv codes procs s) (hop : s.operations[t]? = some op)
    {completion : HgReturn}
    (hsuccess : completion = hgSuccess → op.noResponse = true ∨ op.reply ≠ none) :
    Inv codes procs (s.setOperation t { op with completion := some completion }) := by
  apply hi.goOn hop
  · exact ⟨rfl, rfl, rfl, rfl, rfl, rfl, rfl, rfl, rfl, rfl, fun hd => hd, fun _ hr => hr⟩
  · intro s' _ hold
    exact ⟨hold.request, hold.below, hold.caller, hold.parent, hold.forwardKey, hold.handlerKey,
      hold.responds, hold.delivered, hold.data, hold.error,
      fun hc => hsuccess (Option.some.inj hc), hold.waited⟩

omit [DecidableEq π] in
/-- The handler of an operation, or who it left the handle to, responds. -/
theorem Inv.respond (hi : Inv codes procs s) (hop : s.operations[t]? = some op)
    (hserved : t ∈ s.servings) {v : β} {message : List Byte}
    (hencode : irespondMessage codes.toCodes (procs op.id) v = (hgSuccess, message))
    (hresponse : op.noResponse = false) (hreply : op.reply = none) :
    Inv codes procs (s.setOperation t { op with reply := some (.data v message) }) := by
  obtain ⟨o, ho, hdelivered⟩ := hi.served t hserved
  obtain rfl := Option.some.inj (hop.symm.trans ho)
  apply hi.goOn hop
  · refine ⟨rfl, rfl, rfl, rfl, rfl, rfl, rfl, rfl, rfl, rfl, fun hd => hd, ?_⟩
    intro r hr
    rw [hreply] at hr
    cases hr
  · intro s' hsame hold
    refine ⟨hold.request, hold.below, hold.caller, hold.parent, hold.forwardKey, hold.handlerKey,
      fun _ _ => hresponse, fun _ _ => hdelivered, ?_, ?_, ?_, hold.waited⟩
    · intro v' message' hr
      obtain ⟨rfl, rfl⟩ := Reply.data.inj (Option.some.inj hr)
      refine ⟨hencode, ?_⟩
      rwa [hsame]
    · intro e message' hr
      cases hr
    · exact fun _ => Or.inr (Option.some_ne_none _)

omit [DecidableEq π] in
theorem margoCb_ne {ret : HgReturn} (codes : ErrorCodes) (hret : ret ≠ hgSuccess) (timer : Bool) :
    margoCb codes ret timer ≠ hgSuccess := by
  rw [margoCb]
  split
  · exact codes.timeout_ne
  · exact hret

/-! ## What a step does -/

/-- What a step does to a state, with what the call has checked or found. -/
inductive Effect (codes : ErrorCodes) (procs : HgId → HandleData α β) (s : State π α β) :
    Action π α β → State π α β → Prop
  /-- Registrations, finalizations and new handles. -/
  | quiet {a : Action π α β} {s' : State π α β} (hops : s'.operations = s.operations)
      (hults : s'.ults = s.ults)
      (hhandles : ∀ (i : Nat) (h : Handle π) (t : Nat), s'.handles[i]? = some h →
        h.operation = some t → ∃ h₀, s.handles[i]? = some h₀ ∧ h₀.operation = some t) :
      Effect codes procs s a s'
  | spawn (p : π) :
      Effect codes procs s (.spawn p) { s with ults := s.ults ++ [⟨p, 0, none, true, .program⟩] }
  /-- The user sets the key of a ULT, or a handler starts under the key of its operation. -/
  | setKey {a : Action π α β} {i : Nat} {u : Ult π} {id : HgId} {context : Context}
      (hu : s.ults[i]? = some u) (hkey : margoSetCurrentRpcId id = s.keyOf context)
      (hbelow : context.Below s.operations.length)
      (hown : ∀ t, context = .rpc t → u.serving = some t) :
      Effect codes procs s a (s.setKey i u id context)
  | forward {i k : Nat} {u : Ult π} {h : Handle π} (hu : s.ults[i]? = some u)
      (hh : s.handles[k]? = some h) (hproc : u.proc = h.proc) (providerId : ProviderId)
      (inStruct : α) (timer accepted : Bool) :
      Effect codes procs s (.forward i k providerId inStruct timer accepted)
        (iforward codes procs s u k h providerId inStruct timer accepted)
  /-- The target does not know the id. -/
  | lost {t : Nat} {op : Operation π α β} (hop : s.operations[t]? = some op) (r : HandlerReplies) :
      Effect codes procs s (.deliver t r) (s.setOperation t { op with delivered := true })
  | deliver {t : Nat} {op : Operation π α β} (hop : s.operations[t]? = some op)
      (hnew : op.delivered = false) (reg : Registration) (r : HandlerReplies) :
      Effect codes procs s (.deliver t r)
        { s.setOperation t
            (rpcHandler codes reg (s.finalizing op.target) r t { op with delivered := true }).1 with
          ults := s.ults ++
            (rpcHandler codes reg (s.finalizing op.target) r t
              { op with delivered := true }).2.toList }
  | respond {t : Nat} {op : Operation π α β} (hop : s.operations[t]? = some op)
      (hserved : t ∈ s.servings) {v : β} {message : List Byte}
      (hencode : irespondMessage codes.toCodes (procs op.id) v = (hgSuccess, message))
      (hresponse : op.noResponse = false) (hreply : op.reply = none) :
      Effect codes procs s (.respond t v true)
        (s.setOperation t { op with reply := some (.data v message) })
  | complete {a : Action π α β} {t : Nat} {op : Operation π α β}
      (hop : s.operations[t]? = some op) {completion : HgReturn}
      (hsuccess : completion = hgSuccess → op.noResponse = true ∨ op.reply ≠ none) :
      Effect codes procs s a (s.setOperation t { op with completion := some completion })
  | wait {t : Nat} {op : Operation π α β} (hop : s.operations[t]? = some op) {h : Handle π}
      (hh : s.handles[op.handle]? = some h) {completion : HgReturn}
      (hcompletion : op.completion = some completion) (checksum : Bool) :
      Effect codes procs s (.wait t checksum)
        (s.setOperation t { op with waited := some (waitInternal codes s h completion checksum) })

theorem Effect.register (a : Action π α β) (p : π) (id : HgId) (reg : Option Registration) :
    Effect codes procs s a (s.register p id reg) :=
  .quiet rfl rfl fun _ h _ hh ht => ⟨h, hh, ht⟩

theorem step_effect {a : Action π α β} (hstep : step codes procs s a = some s') :
    Effect codes procs s a s' := by
  cases a with
  | register p id reg =>
      rw [← Option.some.inj hstep]
      exact .register _ p id (some reg)
  | deregister p id =>
      rw [← Option.some.inj hstep]
      exact .register _ p id none
  | disableResponse p id disabled =>
      obtain ⟨reg, -, hs'⟩ := Option.bind_eq_some_iff.mp hstep
      rw [← Option.some.inj hs']
      exact .register _ p id _
  | finalize p =>
      rw [← Option.some.inj hstep]
      exact .quiet rfl rfl fun _ h _ hh ht => ⟨h, hh, ht⟩
  | spawn p =>
      rw [← Option.some.inj hstep]
      exact .spawn p
  | setCurrentRpcId i id =>
      obtain ⟨u, hu, hs'⟩ := Option.bind_eq_some_iff.mp hstep
      split at hs'
      · have hbelow : (Context.chosen id).Below s.operations.length := trivial
        rw [← Option.some.inj hs']
        apply Effect.setKey hu rfl hbelow
        intro t hcontext
        cases hcontext
      · cases hs'
  | create p addr id =>
      obtain ⟨reg, -, hs'⟩ := Option.bind_eq_some_iff.mp hstep
      rw [← Option.some.inj hs']
      refine .quiet rfl rfl ?_
      intro i h t hh ht
      rw [List.getElem?_append] at hh
      split at hh
      · exact ⟨h, hh, ht⟩
      · obtain ⟨hlt, hself⟩ := List.getElem?_eq_some_iff.mp hh
        rw [List.getElem_singleton] at hself
        rw [← hself] at ht
        cases ht
  | forward u i providerId inStruct timer accepted =>
      obtain ⟨ult, hu, hrest⟩ := Option.bind_eq_some_iff.mp hstep
      obtain ⟨h, hh, hs'⟩ := Option.bind_eq_some_iff.mp hrest
      split at hs'
      · next hproc =>
          rw [← Option.some.inj hs']
          exact .forward hu hh hproc.2 providerId inStruct timer accepted
      · cases hs'
  | deliver t r =>
      obtain ⟨op, hop, hs'⟩ := Option.bind_eq_some_iff.mp hstep
      dsimp only at hs'
      split at hs'
      · cases hs'
      · next hnew =>
          rw [Bool.not_eq_true] at hnew
          split at hs'
          · rw [← Option.some.inj hs']
            exact .lost hop r
          · next reg _ =>
              rw [← Option.some.inj hs']
              exact .deliver hop hnew reg r
  | start i =>
      obtain ⟨u, hu, hrest⟩ := Option.bind_eq_some_iff.mp hstep
      obtain ⟨t, ht, hrest⟩ := Option.bind_eq_some_iff.mp hrest
      obtain ⟨op, hop, hs'⟩ := Option.bind_eq_some_iff.mp hrest
      split at hs'
      · cases hs'
      · rw [← Option.some.inj hs']
        apply Effect.setKey hu
        · rw [State.keyOf, hop]
        · exact lt_of_operation hop
        · intro i' hcontext
          rw [ht, Context.rpc.inj hcontext]
  | respond t v accepted =>
      obtain ⟨op, hop, hs'⟩ := Option.bind_eq_some_iff.mp hstep
      dsimp only at hs'
      split at hs'
      · next hserved =>
          have hmem : t ∈ s.servings := by
            obtain ⟨u, hu, hserving⟩ := List.any_eq_true.mp hserved
            rw [Bool.and_eq_true, decide_eq_true_eq] at hserving
            exact mem_servings.mpr ⟨u, hu, hserving.1⟩
          split at hs'
          · next hsent =>
              obtain ⟨hhret, rfl, hresponse, hreply⟩ := hsent
              rw [← Option.some.inj hs']
              apply Effect.respond hop hmem (Prod.ext hhret rfl)
              · simpa using hresponse
              · exact Option.isNone_iff_eq_none.mp hreply
          · rw [← Option.some.inj hs']
            exact .quiet rfl rfl fun _ h _ hh ht => ⟨h, hh, ht⟩
      · cases hs'
  | arrive t =>
      obtain ⟨op, hop, hs'⟩ := Option.bind_eq_some_iff.mp hstep
      split at hs'
      · next harrives =>
          rw [← Option.some.inj hs']
          exact .complete hop fun _ => Or.inr (Option.isSome_iff_ne_none.mp harrives.2)
      · cases hs'
  | sent t =>
      obtain ⟨op, hop, hs'⟩ := Option.bind_eq_some_iff.mp hstep
      split at hs'
      · next hnone =>
          rw [← Option.some.inj hs']
          exact .complete hop fun _ => Or.inl hnone.2
      · cases hs'
  | fail t ret =>
      obtain ⟨op, hop, hs'⟩ := Option.bind_eq_some_iff.mp hstep
      split at hs'
      · next hfails =>
          rw [← Option.some.inj hs']
          apply Effect.complete hop
          exact fun hsuccess => absurd hsuccess (margoCb_ne codes hfails.2 op.timer)
      · cases hs'
  | wait t checksum =>
      obtain ⟨op, hop, hrest⟩ := Option.bind_eq_some_iff.mp hstep
      obtain ⟨completion, hcompletion, hrest⟩ := Option.bind_eq_some_iff.mp hrest
      obtain ⟨h, hh, hs'⟩ := Option.bind_eq_some_iff.mp hrest
      split at hs'
      · rw [← Option.some.inj hs']
        exact .wait hop hh hcompletion checksum
      · cases hs'

/-- Every step keeps the invariant. -/
theorem Inv.step (hi : Inv codes procs s)
    (hprocs : ∀ id providerId, procs (muxId id providerId) = procs id)
    (hin : ∀ id cb, (procs id).inProcCb = some cb → Undoes cb)
    (hout : ∀ id cb, (procs id).outProcCb = some cb → Undoes cb) {a : Action π α β}
    (hstep : step codes procs s a = some s') : Inv codes procs s' := by
  cases step_effect hstep with
  | quiet hops hults hhandles => exact hi.quiet hops hults hhandles
  | spawn p => exact hi.spawn p
  | setKey hu hkey hbelow hown => exact hi.setKey hu hkey hbelow hown
  | forward hu hh hproc providerId inStruct timer accepted =>
      exact hi.iforward hprocs (List.mem_of_getElem? hu) hh hproc providerId inStruct timer accepted
  | lost hop r =>
      apply hi.goOn hop (continues_delivered _ _)
      exact fun _ _ hold => hold.handled _ hold.handlerKey
  | deliver hop hnew reg r => exact hi.deliver hin hop hnew reg _ r
  | respond hop hserved hencode hresponse hreply =>
      exact hi.respond hop hserved hencode hresponse hreply
  | complete hop hsuccess => exact hi.complete hop hsuccess
  | wait hop hh hcompletion checksum => exact hi.wait hout hop hh hcompletion checksum

end

end Margo.Exchange
