import Margo.Hg.Model
import Mathlib.Tactic.Common

/-!
# The objects of the Mercury section

Every string, class, context and address that an initialization creates is released once,
by its own error path or later by `__margo_hg_destroy`, and nothing else is released, unless
the user passes a context.

## Implementation notes

With a context of the user, a class is created beside the one of the context, whose pointer
overwrites that to the new one. The flag that says who owns the class stays.
-/

namespace Margo.Hg

open Lib Lib.Ledger Abt

/-! ## What the structure owns -/

/-- The memory of a string. -/
def stringObject (s : Option CStr) : List (Kind × Nat) :=
  match s with
  | none => []
  | some s => [(.string, s.address)]

/-- The address. -/
def MargoHg.addrObject (hg : MargoHg) : List (Kind × Nat) :=
  match hg.hgClass, hg.selfAddr with
  | some _, some a => [(.hgAddr, a)]
  | _, _ => []

/-- The context, if it is owned. -/
def MargoHg.contextObject (hg : MargoHg) : List (Kind × Nat) :=
  match hg.hgContext with
  | some c => if hg.ownsHgContext then [(.hgContext, c)] else []
  | none => []

/-- The class, if it is owned. -/
def MargoHg.classObject (hg : MargoHg) : List (Kind × Nat) :=
  match hg.hgClass with
  | some c => if hg.ownsHgClass then [(.hgClass, c)] else []
  | none => []

/-- Everything that `__margo_hg_destroy` releases. -/
def MargoHg.objects (hg : MargoHg) : List (Kind × Nat) :=
  stringObject hg.hgInitInfo.smInfoString ++ stringObject hg.hgInitInfo.authKey ++
    stringObject hg.hgInitInfo.ipSubnet ++ stringObject hg.selfAddrStr ++
    stringObject hg.logLevel ++ stringObject hg.logSubsys ++ hg.addrObject ++
    hg.contextObject ++ hg.classObject

variable {base w : Ledger Kind} {owned : List (Kind × Nat)} {hg : MargoHg}

theorem owns_freeString {s : Option CStr} (h : base.Owns w (stringObject s ++ owned)) :
    base.Owns (freeString s w) owned := by
  cases s with
  | none => exact h
  | some s => exact h.release

theorem owns_freeAddr (h : base.Owns w (hg.addrObject ++ owned)) :
    base.Owns (freeAddr hg w) owned := by
  rw [MargoHg.addrObject] at h
  rw [freeAddr]
  split
  · next hclass haddr =>
      rw [hclass, haddr] at h
      exact h.release
  · next hnone =>
      split at h
      · next c a hclass haddr => exact absurd haddr (hnone c a hclass)
      · exact h

theorem owns_destroyContext (h : base.Owns w (hg.contextObject ++ owned)) :
    base.Owns (destroyContext hg w) owned := by
  rw [MargoHg.contextObject] at h
  rw [destroyContext]
  cases hcontext : hg.hgContext with
  | none =>
      rw [hcontext] at h
      exact h
  | some c =>
      rw [hcontext] at h
      cases howns : hg.ownsHgContext with
      | false =>
          rw [howns] at h
          exact h
      | true =>
          rw [howns] at h
          exact h.release

theorem owns_finalizeClass (h : base.Owns w (hg.classObject ++ owned)) :
    base.Owns (finalizeClass hg w) owned := by
  rw [MargoHg.classObject] at h
  rw [finalizeClass]
  cases hclass : hg.hgClass with
  | none =>
      rw [hclass] at h
      exact h
  | some c =>
      rw [hclass] at h
      cases howns : hg.ownsHgClass with
      | false =>
          rw [howns] at h
          exact h
      | true =>
          rw [howns] at h
          exact h.release

/-- Destroying releases what the structure owns. -/
theorem owns_hgDestroy (h : base.Owns w (hg.objects ++ owned)) :
    base.Owns (hgDestroy hg w).2 owned := by
  simp only [MargoHg.objects, List.append_assoc] at h
  have hstrings := owns_freeString (owns_freeString (owns_freeString (owns_freeString
    (owns_freeString (owns_freeString h)))))
  exact owns_finalizeClass (owns_destroyContext (owns_freeAddr hstrings))

/-! ## What the initialization creates -/

theorem owns_strdup (h : base.Owns w owned) (text : String) :
    base.Owns (strdup text w).2 (stringObject (strdup text w).1 ++ owned) :=
  h.create .string

theorem perm_of_count {l l' : List (Kind × Nat)} (h : ∀ o, l.count o = l'.count o) : l.Perm l' :=
  List.perm_iff_count.mpr h

theorem owns_strdupIf (h : base.Owns w owned) (s : Option CStr) :
    base.Owns (strdupIf s w).2 (stringObject (strdupIf s w).1 ++ owned) := by
  cases s with
  | none => exact h
  | some s => exact owns_strdup h s.text

theorem owns_strdupField (h : base.Owns w owned) (json : Json) (key : String) :
    base.Owns (strdupField json key w).2 (stringObject (strdupField json key w).1 ++ owned) := by
  rw [strdupField]
  split
  · exact owns_strdup h _
  · exact h

/-- There are neither a class nor a context nor an address. -/
structure Blank (hg : MargoHg) : Prop where
  hgClass : hg.hgClass = none
  hgContext : hg.hgContext = none
  selfAddr : hg.selfAddr = none
  selfAddrStr : hg.selfAddrStr = none
  ownsHgClass : hg.ownsHgClass = false
  ownsHgContext : hg.ownsHgContext = false

theorem blank_initial (initializer : HgInitInfo) : Blank (.initial initializer) :=
  ⟨rfl, rfl, rfl, rfl, rfl, rfl⟩

/-- A class and a context that a blank structure gets: the class is owned if it is made. -/
theorem Blank.objects_withClass (h : Blank hg) (hgClass hgContext : Option Nat) (owns : Bool) :
    ({ hg with
      hgClass := hgClass, ownsHgClass := owns, hgContext := hgContext } : MargoHg).objects.Perm
      ((if owns then hgClass.toList.map fun c => (.hgClass, c) else []) ++ hg.objects) := by
  have haddr : ({ hg with
      hgClass := hgClass, ownsHgClass := owns, hgContext := hgContext } : MargoHg).addrObject =
      [] := by
    rw [MargoHg.addrObject, h.selfAddr]
    cases hgClass <;> rfl
  have hcontext : ({ hg with
      hgClass := hgClass, ownsHgClass := owns, hgContext := hgContext } : MargoHg).contextObject =
      [] := by
    rw [MargoHg.contextObject, h.ownsHgContext]
    cases hgContext <;> rfl
  have hclass : ({ hg with
      hgClass := hgClass, ownsHgClass := owns, hgContext := hgContext } : MargoHg).classObject =
      if owns then hgClass.toList.map fun c => (.hgClass, c) else [] := by
    rw [MargoHg.classObject]
    cases hgClass with
    | none => exact (ite_self _).symm
    | some c => rfl
  have hold : hg.addrObject ++ hg.contextObject ++ hg.classObject = [] := by
    rw [MargoHg.addrObject, MargoHg.contextObject, MargoHg.classObject, h.hgClass, h.hgContext]
    rfl
  apply perm_of_count
  intro o
  have hcount := congrArg (List.count o) hold
  simp only [MargoHg.objects, haddr, hcontext, hclass, List.count_append, List.count_nil]
    at hcount ⊢
  omega

theorem owns_readAuthKey (h : base.Owns w owned) (r : Replies) (json : Json) (protocol : String) :
    base.Owns (readAuthKey r json protocol w).2
      (stringObject (readAuthKey r json protocol w).1 ++ owned) := by
  rw [readAuthKey]
  split
  · exact owns_strdup h _
  · split
    · exact h
    · exact owns_strdup h _

/-- What is read from the configuration is owned. -/
theorem owns_readJson (h : base.Owns w owned) (hblank : Blank hg) (v : Version) (casts : Casts)
    (r : Replies) (json : Json) (protocol : String) :
    Blank (readJson v casts r json protocol hg w).1 ∧
      base.Owns (readJson v casts r json protocol hg w).2
        ((readJson v casts r json protocol hg w).1.objects ++ owned) := by
  have h₁ := owns_strdupField h json "ip_subnet"
  have h₂ := owns_readAuthKey h₁ r json protocol
  have h₃ := owns_strdupField h₂ json "log_level"
  have h₄ := owns_strdupField h₃ json "log_subsys"
  have h₅ := owns_strdupField h₄ json "sm_info_string"
  obtain ⟨hclass, hcontext, haddr, hstr, hownsClass, hownsContext⟩ := hblank
  rw [readJson]
  refine ⟨⟨hclass, hcontext, haddr, hstr, hownsClass, hownsContext⟩, h₅.perm ?_⟩
  apply perm_of_count
  intro o
  simp only [MargoHg.objects, MargoHg.addrObject, MargoHg.contextObject, MargoHg.classObject,
    hclass, hcontext, hstr, stringObject, List.count_append, List.count_nil]
  omega

theorem owns_copyInitInfo (h : base.Owns w owned) (hblank : Blank hg)
    (hlevel : hg.logLevel = none) (hsubsys : hg.logSubsys = none) (info : HgInitInfo) :
    Blank (copyInitInfo info hg w).1 ∧
      base.Owns (copyInitInfo info hg w).2 ((copyInitInfo info hg w).1.objects ++ owned) := by
  have h₁ := owns_strdupIf h info.smInfoString
  have h₂ := owns_strdupIf h₁ info.ipSubnet
  have h₃ := owns_strdupIf h₂ info.authKey
  obtain ⟨hclass, hcontext, haddr, hstr, hownsClass, hownsContext⟩ := hblank
  rw [copyInitInfo]
  refine ⟨⟨hclass, hcontext, haddr, hstr, hownsClass, hownsContext⟩, h₃.perm ?_⟩
  apply perm_of_count
  intro o
  simp only [MargoHg.objects, MargoHg.addrObject, MargoHg.contextObject, MargoHg.classObject,
    hclass, hcontext, hstr, hlevel, hsubsys, stringObject, List.count_append, List.count_nil]
  omega

theorem owns_strdupDefault {s : Option CStr} (h : base.Owns w (stringObject s ++ owned))
    (text : String) : base.Owns (strdupDefault s text w).2
      (stringObject (strdupDefault s text w).1 ++ owned) := by
  cases s with
  | none => exact owns_strdup h text
  | some s => exact h

theorem owns_initLog (h : base.Owns w (hg.objects ++ owned)) :
    base.Owns (initLog hg w).2 ((initLog hg w).1.objects ++ owned) := by
  let others := stringObject hg.hgInitInfo.smInfoString ++ stringObject hg.hgInitInfo.authKey ++
    stringObject hg.hgInitInfo.ipSubnet ++ stringObject hg.selfAddrStr ++ hg.addrObject ++
    hg.contextObject ++ hg.classObject ++ owned
  have hfront : base.Owns w
      (stringObject hg.logLevel ++ (stringObject hg.logSubsys ++ others)) := by
    apply h.perm
    apply perm_of_count
    intro o
    simp only [others, MargoHg.objects, List.count_append]
    omega
  have h₁ := owns_strdupDefault hfront "warning"
  have h₂ := owns_strdupDefault (h₁.perm (List.perm_append_comm_assoc _ _ _)) "hg,na"
  have hobjects : (initLog hg w).1.objects = stringObject hg.hgInitInfo.smInfoString ++
      stringObject hg.hgInitInfo.authKey ++ stringObject hg.hgInitInfo.ipSubnet ++
      stringObject hg.selfAddrStr ++ stringObject (strdupDefault hg.logLevel "warning" w).1 ++
      stringObject (strdupDefault hg.logSubsys "hg,na"
        (strdupDefault hg.logLevel "warning" w).2).1 ++
      hg.addrObject ++ hg.contextObject ++ hg.classObject := rfl
  apply h₂.perm
  apply perm_of_count
  intro o
  simp only [hobjects, others, List.count_append]
  omega

theorem owns_initSelfAddr (h : base.Owns w (hg.objects ++ owned)) {c : Nat}
    (hclass : hg.hgClass = some c) (haddr : hg.selfAddr = none) (hstr : hg.selfAddrStr = none)
    (r : Replies) :
    base.Owns (initSelfAddr r hg w).2.2 ((initSelfAddr r hg w).2.1.objects ++ owned) := by
  have h₁ := h.create .hgAddr
  have h₂ := owns_strdup h₁ r.selfAddrStr
  rw [initSelfAddr]
  split
  · exact h
  · dsimp only
    split
    · refine h₁.perm (perm_of_count fun o => ?_)
      simp only [MargoHg.objects, MargoHg.addrObject, MargoHg.contextObject, MargoHg.classObject,
        hclass, haddr, hstr, stringObject, List.count_append, List.count_nil, List.count_cons,
        create]
      omega
    · split
      · refine h₁.perm (perm_of_count fun o => ?_)
        simp only [MargoHg.objects, MargoHg.addrObject, MargoHg.contextObject,
          MargoHg.classObject, hclass, haddr, List.count_append, List.count_nil,
          List.count_cons, create]
        omega
      · refine h₂.perm (perm_of_count fun o => ?_)
        simp only [MargoHg.objects, MargoHg.addrObject, MargoHg.contextObject,
          MargoHg.classObject, hclass, haddr, hstr, stringObject, List.count_append,
          List.count_nil, List.count_cons, create]
        omega

/-! ## From the initialization to the end -/

/-- What lives, but for a class. -/
def withoutClass (w : Ledger Kind) (hgClass : Option Nat) : List (Kind × Nat) :=
  match hgClass with
  | none => w.live
  | some k => w.live.erase (.hgClass, k)

/-- What lives after an initialization that failed, or after its result is destroyed. -/
def afterAll (out : Bool × MargoHg × Ledger Kind) : Ledger Kind :=
  if out.1 then (hgDestroy out.2.1 out.2.2).2 else out.2.2

/-- With a class and a context, all that is owned goes. -/
theorem owns_rest (h : base.Owns w (hg.objects ++ owned)) {c : Nat} (hclass : hg.hgClass = some c)
    (haddr : hg.selfAddr = none) (hstr : hg.selfAddrStr = none) (r : Replies) :
    base.Owns (afterAll (initRest r hg w)) owned := by
  have h₁ := owns_initSelfAddr h hclass haddr hstr r
  rw [initRest]
  generalize initSelfAddr r hg w = out at h₁ ⊢
  obtain ⟨done, hg', w'⟩ := out
  cases done with
  | false => exact owns_hgDestroy h₁
  | true => exact owns_hgDestroy (owns_initLog h₁)

/-- Without a new class, the one of the user is taken. -/
theorem initClass_user {user : UserArgs} {c : Nat} (hclass : user.hgClass = some c)
    (hcontext : user.hgContext = none) (r : Replies) (hg : MargoHg) (w : Ledger Kind) :
    initClass r user hg w = (true, { hg with hgClass := some c }, w) := by
  rw [initClass, hclass, hcontext]

/-- `HG_Init_opt` is called unless a class is passed without a context. -/
theorem initClass_new (h : base.Owns w owned) {user : UserArgs}
    (hnew : user.hgClass = none ∨ user.hgContext ≠ none) (r : Replies) (hg : MargoHg) :
    ∃ k w', base.next ≤ k ∧
      (r.initOpt = true ∧ base.Owns w' ((.hgClass, k) :: owned) ∧ initClass r user hg w =
        (true, { hg with hgClass := some k, ownsHgClass := true }, w') ∨
      r.initOpt = false ∧ base.Owns w' owned ∧ initClass r user hg w = (false, hg, w')) := by
  have heq : initClass r user hg w = makeClass r hg w := by
    rw [initClass]
    split
    · next hclass hcontext =>
        rcases hnew with hnone | hsome
        · exact absurd (hclass.symm.trans hnone) (Option.some_ne_none _)
        · exact absurd hcontext hsome
    · rfl
  rw [heq, makeClass]
  cases haddr : r.resolvedAddr with
  | none =>
      cases hinit : r.initOpt with
      | true => exact ⟨_, _, h.later, Or.inl ⟨rfl, h.create .hgClass, rfl⟩⟩
      | false => exact ⟨base.next, _, Nat.le_refl _, Or.inr ⟨rfl, h, rfl⟩⟩
  | some addr =>
      have h₁ := owns_strdup h addr
      cases hinit : r.initOpt with
      | true =>
          have h₂ := (h₁.create .hgClass).perm (List.Perm.swap _ _ _)
          exact ⟨_, _, h₁.later, Or.inl ⟨rfl, owns_freeString h₂, rfl⟩⟩
      | false => exact ⟨base.next, _, Nat.le_refl _, Or.inr ⟨rfl, owns_freeString h₁, rfl⟩⟩

theorem initContext_user {r : Replies} {user : UserArgs} {c : Nat}
    (hcontext : user.hgContext = some c) {hgClass : Option Nat} (hget : r.getClass c = hgClass) :
    initContext r user hg w =
      (hgClass.isSome, { hg with hgContext := some c, hgClass := hgClass }, w) := by
  rw [initContext, hcontext]
  dsimp only
  rw [hget]

theorem owns_initParameters (h : base.Owns w owned) (v : Version) (casts : Casts) (r : Replies)
    (json : Json) (user : UserArgs) (initializer : HgInitInfo) :
    Blank (initParameters v casts r json user (.initial initializer) w).1 ∧
      base.Owns (initParameters v casts r json user (.initial initializer) w).2
        ((initParameters v casts r json user (.initial initializer) w).1.objects ++ owned) := by
  have hblank := blank_initial initializer
  rw [initParameters]
  split
  · exact owns_copyInitInfo h hblank rfl rfl _
  · exact owns_readJson h hblank v casts r json user.protocol

/-- Without a context of the user, all that is owned goes. -/
theorem owns_withoutContext (h : base.Owns w (hg.objects ++ owned)) {user : UserArgs}
    (hcontext : user.hgContext = none) {c : Nat} (hclass : hg.hgClass = some c)
    (hnone : hg.hgContext = none) (haddr : hg.selfAddr = none) (hstr : hg.selfAddrStr = none)
    (r : Replies) :
    base.Owns (afterAll (let (done, hg, w) := initContext r user hg w
      if !done then initError hg w else initRest r hg w)) owned := by
  rw [initContext, hcontext]
  dsimp only
  cases hcreate : r.contextCreate with
  | false => exact owns_hgDestroy h
  | true =>
      have h₁ : base.Owns (w.create .hgContext).2
          (({ hg with hgContext := some w.next, ownsHgContext := true } : MargoHg).objects ++
            owned) := by
        apply (h.create .hgContext).perm
        apply perm_of_count
        intro o
        simp only [MargoHg.objects, MargoHg.addrObject, MargoHg.contextObject,
          MargoHg.classObject, hnone, haddr, hclass, List.count_append, List.count_nil,
          List.count_cons, if_true]
        omega
      exact owns_rest h₁ hclass haddr hstr r

section

variable (v : Version) (casts : Casts) (r : Replies) (json : Json) (user : UserArgs)
  (initializer : HgInitInfo)

theorem owns_nothing (hw : w.Sound) (hok : user.hgContext = none ∨ r.initOpt = false) :
    w.Owns (afterAll (hgInitFromJson v casts r json user (.initial initializer) w)) [] := by
  obtain ⟨hblank, h₁⟩ := owns_initParameters hw.owns v casts r json user initializer
  rw [hgInitFromJson]
  generalize initParameters v casts r json user (.initial initializer) w = out at hblank h₁ ⊢
  obtain ⟨hg, w₁⟩ := out
  dsimp only at hblank h₁ ⊢
  by_cases hnew : user.hgClass = none ∨ user.hgContext ≠ none
  · obtain ⟨k, w₂, -, ⟨hinit, h₂, heq⟩ | ⟨-, h₂, heq⟩⟩ := initClass_new h₁ hnew r hg
    · have hcontext : user.hgContext = none := by
        rcases hok with hnone | hfails
        · exact hnone
        · rw [hinit] at hfails
          cases hfails
      rw [heq]
      have h₃ : w.Owns w₂
          (({ hg with hgClass := some k, ownsHgClass := true } : MargoHg).objects ++ []) :=
        h₂.perm ((hblank.objects_withClass (some k) hg.hgContext true).append_right []).symm
      exact owns_withoutContext h₃ hcontext rfl hblank.hgContext hblank.selfAddr
        hblank.selfAddrStr r
    · rw [heq]
      exact owns_hgDestroy h₂
  · obtain ⟨hclass, hcontext⟩ := not_or.mp hnew
    obtain ⟨c, hclass⟩ := Option.ne_none_iff_exists'.mp hclass
    rw [not_not] at hcontext
    rw [initClass_user hclass hcontext]
    have h₂ : w.Owns w₁ (({ hg with hgClass := some c } : MargoHg).objects ++ []) := by
      have hnot : ¬hg.ownsHgClass = true := by
        rw [hblank.ownsHgClass]
        exact Bool.false_ne_true
      have hclass := hblank.objects_withClass (some c) hg.hgContext hg.ownsHgClass
      rw [if_neg hnot] at hclass
      exact h₁.perm (hclass.append_right []).symm
    exact owns_withoutContext h₂ hcontext rfl hblank.hgContext hblank.selfAddr
      hblank.selfAddrStr r

/-- With a context of the user, the new class stays, and the class of the context goes. -/
theorem exchanges_classes (hw : w.Sound) {c : Nat} (hcontext : user.hgContext = some c)
    (hinit : r.initOpt = true) (huser : ∀ k, r.getClass c = some k → (.hgClass, k) ∈ w.live) :
    ∃ k, w.next ≤ k ∧
      (afterAll (hgInitFromJson v casts r json user (.initial initializer) w)).faults =
        w.faults ∧
      (afterAll (hgInitFromJson v casts r json user (.initial initializer) w)).live.Perm
        ((.hgClass, k) :: withoutClass w (r.getClass c)) := by
  obtain ⟨hblank, h₁⟩ := owns_initParameters hw.owns v casts r json user initializer
  rw [hgInitFromJson]
  generalize initParameters v casts r json user (.initial initializer) w = out at hblank h₁ ⊢
  obtain ⟨hg, w₁⟩ := out
  dsimp only at hblank h₁ ⊢
  have hnew : user.hgClass = none ∨ user.hgContext ≠ none := by
    rw [hcontext]
    exact Or.inr (Option.some_ne_none _)
  obtain ⟨k, w₂, hk, ⟨-, h₂, heq⟩ | ⟨hfails, -⟩⟩ := initClass_new h₁ hnew r hg
  · refine ⟨k, hk, ?_⟩
    rw [heq]
    dsimp only
    rw [Bool.not_true, if_neg Bool.false_ne_true]
    rcases Option.eq_none_or_eq_some (r.getClass c) with hget | ⟨k', hget⟩
    · rw [initContext_user hcontext hget, hget]
      have h₃ : w.Owns w₂ (({ hg with
          hgClass := none, ownsHgClass := true, hgContext := some c } : MargoHg).objects ++
            [(.hgClass, k)]) := by
        apply h₂.perm
        rw [List.append_nil]
        have hclass := hblank.objects_withClass none (some c) true
        rw [if_pos rfl] at hclass
        exact (List.perm_append_singleton _ _).symm.trans (hclass.symm.append_right _)
      have hall := owns_hgDestroy h₃
      exact ⟨hall.faults, hall.live⟩
    · rw [initContext_user hcontext hget, hget]
      have h₃ := (h₂.lend (huser k' hget)).perm (List.Perm.swap _ _ _)
      have h₄ : Ledger.Owns { w with live := w.live.erase (.hgClass, k') } w₂ (({ hg with
          hgClass := some k', ownsHgClass := true, hgContext := some c } : MargoHg).objects ++
            [(.hgClass, k)]) := by
        apply h₃.perm
        rw [List.append_nil]
        have hclass := hblank.objects_withClass (some k') (some c) true
        rw [if_pos rfl] at hclass
        exact (List.perm_append_singleton _ _).symm.trans (hclass.symm.append_right _)
      have hall := owns_rest h₄ rfl hblank.selfAddr hblank.selfAddrStr r
      exact ⟨hall.faults, hall.live⟩
  · rw [hinit] at hfails
    cases hfails

/-- An initialization of Mercury, with the end of what it made, leaves the objects as they were,
exactly if the user passes no context or no class could be made. Otherwise the class that is
made beside the one of the context stays for ever, and the user's is destroyed. -/
theorem hg_resources (hw : w.Sound)
    (huser : ∀ c k, user.hgContext = some c → r.getClass c = some k → (.hgClass, k) ∈ w.live) :
    ((afterAll (hgInitFromJson v casts r json user (.initial initializer) w)).live.Perm w.live ∧
      (afterAll (hgInitFromJson v casts r json user (.initial initializer) w)).faults =
        w.faults ↔ user.hgContext = none ∨ r.initOpt = false) ∧
    ∀ c, user.hgContext = some c → r.initOpt = true → ∃ k, (.hgClass, k) ∉ w.live ∧
      (afterAll (hgInitFromJson v casts r json user (.initial initializer) w)).faults =
        w.faults ∧
      (afterAll (hgInitFromJson v casts r json user (.initial initializer) w)).live.Perm
        ((.hgClass, k) :: withoutClass w (r.getClass c)) := by
  have hexchange : ∀ c, user.hgContext = some c → r.initOpt = true → ∃ k, (.hgClass, k) ∉ w.live ∧
      (afterAll (hgInitFromJson v casts r json user (.initial initializer) w)).faults =
        w.faults ∧
      (afterAll (hgInitFromJson v casts r json user (.initial initializer) w)).live.Perm
        ((.hgClass, k) :: withoutClass w (r.getClass c)) := by
    intro c hcontext hinit
    obtain ⟨k, hk, hrest⟩ := exchanges_classes v casts r json user initializer hw hcontext hinit
      fun k hget => huser c k hcontext hget
    exact ⟨k, fun hmem => Nat.not_lt.mpr hk (hw.below _ hmem), hrest⟩
  refine ⟨⟨?_, ?_⟩, hexchange⟩
  · rintro ⟨hlive, -⟩
    cases hcontext : user.hgContext with
    | none => exact Or.inl rfl
    | some c =>
        cases hinit : r.initOpt with
        | false => exact Or.inr rfl
        | true =>
            obtain ⟨k, hk, -, hperm⟩ := hexchange c hcontext hinit
            exact absurd (hlive.mem_iff.mp (hperm.mem_iff.mpr List.mem_cons_self)) hk
  · intro hok
    have hall := owns_nothing v casts r json user initializer hw hok
    exact ⟨hall.live, hall.faults⟩

end

/-- 64-bit members. -/
def wide : Cast := ⟨fun x => x, fun _ => rfl⟩

/-- A node on which everything succeeds. -/
def allSucceeds : Replies where
  slingshotVnis := some "16369,16324"
  resolvedAddr := none
  initOpt := true
  getClass _ := some 0
  contextCreate := true
  addrSelf := true
  addrToString := true
  selfAddrStr := "ofi+cxi://0x0"
  calloc := true
  isListening := true
  inputEagerSize := 4080
  outputEagerSize := 4080
  version := "2.3.1"

/-- Mercury 2.3.1. -/
def mercury : Version := ⟨2, 3, 1, by decide⟩

/-- A class and a context of the user live, and the context is passed. -/
theorem hg_resources_context :
    ¬((afterAll (hgInitFromJson mercury ⟨wide, wide, wide, wide, wide⟩ allSucceeds .null
      ⟨"ofi+cxi://", none, none, some 1⟩ (.initial .zero)
      ⟨2, [(.hgClass, 0), (.hgContext, 1)], []⟩)).live.Perm [(.hgClass, 0), (.hgContext, 1)] ∧
      (afterAll (hgInitFromJson mercury ⟨wide, wide, wide, wide, wide⟩ allSucceeds .null
        ⟨"ofi+cxi://", none, none, some 1⟩ (.initial .zero)
        ⟨2, [(.hgClass, 0), (.hgContext, 1)], []⟩)).faults = []) := by
  have hw : Sound (⟨2, [(.hgClass, 0), (.hgContext, 1)], []⟩ : Ledger Kind) :=
    ⟨by decide, by decide⟩
  have hiff := (hg_resources mercury ⟨wide, wide, wide, wide, wide⟩ allSucceeds .null
    ⟨"ofi+cxi://", none, none, some 1⟩ .zero hw (by
      intro c k _ hget
      rw [← Option.some.inj hget]
      exact List.mem_cons_self)).1
  intro hbalanced
  rcases hiff.mp hbalanced with hnone | hfails
  · cases hnone
  · cases hfails

end Margo.Hg
