import Margo.Abt.Entries
import Margo.Abt.ListArrays

/-!
# Calls on the registry in memory

Where Argobots answers every question about a scheduler, a public call on the lists of the
registry is nothing or one operation on the arrays in memory, and an initialization of the
lists is one of the arrays. So every run of calls from an initialization on is a run of
operations on the arrays.
-/

namespace Margo.Abt.Arrays

open Lib Lib.Runs

section

variable {abt abt' : MargoAbt} {env : Env} {c : Call}

/-! ## Calls -/

/-- In memory, one environment is the other after at most one operation. -/
def Follows (env : Env) (abt abt' : MargoAbt) : Prop :=
  Fits abt' ∧ (abt' = abt ∨ ∃ op, step (inMemory abt) (op, env) = some (inMemory abt'))

theorem follows_refl (h : Fits abt) : Follows env abt abt := ⟨h, .inl rfl⟩

/-- An operation with this outcome takes the arrays there. -/
theorem follows_of_perform (op : Op) (report : Report) (hfits : Fits abt')
    (h : perform (inMemory abt) (op, env) = .ok (inMemory abt', report)) :
    Follows env abt abt' := by
  refine ⟨hfits, .inr ⟨op, ?_⟩⟩
  rw [step, h]
  rfl

/-- Only the entry itself decides what it is changed to. -/
theorem modify_congr {α : Type} {f g : α → α} {l : List α} {i : Nat} {a : α}
    (ha : l[i]? = some a) (hfg : f a = g a) : l.modify i f = l.modify i g := by
  refine List.ext_getElem? fun j => ?_
  rw [List.getElem?_modify, List.getElem?_modify]
  by_cases hij : i = j
  · subst hij
    simp only [ha, if_true, Option.map_eq_map, Option.map_some, hfg]
  · simp only [if_neg hij]

theorem follows_poolCounts (h : Fits abt) (hcounts : poolTable.Counts abt abt') :
    Follows env abt abt' := by
  obtain rfl | ⟨f, i, rfl⟩ := hcounts
  · exact follows_refl h
  by_cases hi : i < abt.pools.length
  · have hfits : Fits (poolTable.update f i abt) :=
      ⟨(List.length_modify _ abt.pools i).trans_le h.pools, h.xstreams⟩
    have hmodify : (abt.pools.modify i fun p => { p with refcount := f abt.pools[i].refcount }) =
        abt.pools.modify i fun p => { p with refcount := f p.refcount } :=
      modify_congr (List.getElem?_eq_getElem hi) rfl
    have hcount : setPoolRefcount i (f abt.pools[i].refcount) (inMemory abt) =
        inMemory (poolTable.update f i abt) := by
      rw [setPoolRefcount, len_pools_inMemory, if_pos hi,
        modifyPool_inMemory abt (f := fun p => { p with refcount := f abt.pools[i].refcount })
          (fun _ => rfl) hi, hmodify]
      rfl
    refine follows_of_perform (.poolRefcount i (f abt.pools[i].refcount)) .counted hfits ?_
    rw [perform, hcount]
    rfl
  · have hsame : poolTable.update f i abt = abt := by
      change { abt with pools := abt.pools.modify i _ } = abt
      rw [List.modify_eq_self (Nat.le_of_not_lt hi)]
    rw [hsame]
    exact follows_refl h

theorem follows_xstreamCounts (h : Fits abt) (hcounts : xstreamTable.Counts abt abt') :
    Follows env abt abt' := by
  obtain rfl | ⟨f, i, rfl⟩ := hcounts
  · exact follows_refl h
  by_cases hi : i < abt.xstreams.length
  · have hfits : Fits (xstreamTable.update f i abt) :=
      ⟨h.pools, (List.length_modify _ abt.xstreams i).trans_le h.xstreams⟩
    have hmodify : (abt.xstreams.modify i fun x =>
        { x with refcount := f abt.xstreams[i].refcount }) =
        abt.xstreams.modify i fun x => { x with refcount := f x.refcount } :=
      modify_congr (List.getElem?_eq_getElem hi) rfl
    have hcount : setXstreamRefcount i (f abt.xstreams[i].refcount) (inMemory abt) =
        inMemory (xstreamTable.update f i abt) := by
      rw [setXstreamRefcount, len_xstreams_inMemory, if_pos hi,
        modifyXstream_inMemory abt
          (f := fun x => { x with refcount := f abt.xstreams[i].refcount }) (fun _ => rfl) hi,
        hmodify]
      rfl
    refine follows_of_perform (.xstreamRefcount i (f abt.xstreams[i].refcount)) .counted hfits ?_
    rw [perform, hcount]
    rfl
  · have hsame : xstreamTable.update f i abt = abt := by
      change { abt with xstreams := abt.xstreams.modify i _ } = abt
      rw [List.modify_eq_self (Nat.le_of_not_lt hi)]
    rw [hsame]
    exact follows_refl h

/-! ## Calls that add or remove -/

theorem reportPool_fst (r : Arrays × Bool) : (reportPool r).1 = r.1 := by
  obtain ⟨a, ok⟩ := r
  cases ok <;> rfl

theorem reportXstream_fst (r : Arrays × Bool) : (reportXstream r).1 = r.1 := by
  obtain ⟨a, ok⟩ := r
  cases ok <;> rfl

theorem reportRemoval_fst (r : Arrays × HgReturn) : (reportRemoval r).1 = r.1 := by
  obtain ⟨a, ret⟩ := r
  cases ret <;> rfl

theorem follows_addPoolFromJson (h : Fits abt) {mid : Option Instance} {json : Option Json}
    (hstep : (margoAddPoolFromJson mid json).run env.toReplies abt = some abt') :
    Follows env abt abt' := by
  cases json with
  | none =>
      obtain rfl := Option.some.inj hstep
      exact follows_refl h
  | some config =>
      cases mid with
      | none => cases hstep
      | some mid =>
          obtain rfl : (Abt.addPoolFromJson env.toReplies config abt).1 = abt' := by
            simpa [Api.run, margoAddPoolFromJson, unchecked] using hstep
          refine ⟨fits_addPoolFromJson h env.toReplies config, .inr ⟨.addPoolFromJson config, ?_⟩⟩
          rw [step, perform, addPoolFromJson_inMemory h]
          exact congrArg some (reportPool_fst _)

/-- The caller decides whether an added pool is freed. -/
theorem ownPool_inMemory {takeOwnership ok : Bool} (hadded : ok = true → 0 < abt.pools.length) :
    (ownPool takeOwnership (inMemory abt, ok)).1 = inMemory (if ok then
      { abt with pools := abt.pools.modify (abt.pools.length - 1) fun p =>
        { p with margoFreeFlag := takeOwnership } }
      else abt) := by
  cases ok with
  | false => rfl
  | true =>
      have hlast : abt.pools.length - 1 < abt.pools.length := by
        have hpos := hadded rfl
        omega
      rw [ownPool, len_pools_inMemory,
        modifyPool_inMemory abt (f := fun p => { p with margoFreeFlag := takeOwnership })
          (fun _ => rfl) hlast]
      rfl

theorem follows_addPoolExternal (h : Fits abt) {mid : Option Instance} {name : Option String}
    {pool : PoolHandle} {own : Bool}
    (hstep : (margoAddPoolExternal mid name pool own).run env.toReplies abt = some abt') :
    Follows env abt abt' := by
  cases mid with
  | none =>
      obtain rfl := Option.some.inj hstep
      exact follows_refl h
  | some mid =>
      have hfits := fits_addExternalPool h env.toReplies name pool
      have hlength := length_addExternalPool env.toReplies name pool abt
      have hmemory := addExternalPool_inMemory h env name pool
      simp only [Api.run, margoAddPoolExternal, checked, Option.isSome_some, Bool.and_self,
        if_true, Option.map_some, Option.some.injEq, added_abt] at hstep
      generalize Abt.addExternalPool env.toReplies name pool abt = r at *
      obtain ⟨abt₁, ok⟩ := r
      subst hstep
      refine ⟨?_, .inr ⟨.addExternalPool name pool own, ?_⟩⟩
      · split
        · exact ⟨(List.length_modify _ abt₁.pools _).trans_le hfits.pools, hfits.xstreams⟩
        · exact hfits
      · have hadded : ok = true → 0 < abt₁.pools.length := by
          rintro rfl
          exact hlength.symm ▸ Nat.succ_pos _
        rw [step, perform, hmemory]
        exact congrArg some ((reportPool_fst _).trans (ownPool_inMemory hadded))

theorem follows_removal (h : Fits abt) (hremoval : Removal env.toReplies abt abt') :
    Follows env abt abt' := by
  obtain rfl | ⟨i, rfl⟩ := hremoval
  · exact follows_refl h
  · refine ⟨fits_removePool h env.toReplies i, .inr ⟨.removePool i, ?_⟩⟩
    rw [step, perform, removePool_inMemory h]
    exact congrArg some (reportRemoval_fst _)

theorem follows_addXstreamFromJson (h : Fits abt) (henv : env.Grants) {mid : Option Instance}
    {json : Option Json}
    (hstep : (margoAddXstreamFromJson mid json).run env.toReplies abt = some abt') :
    Follows env abt abt' := by
  cases mid with
  | none =>
      obtain rfl := Option.some.inj hstep
      exact follows_refl h
  | some mid =>
      cases json with
      | none =>
          obtain rfl := Option.some.inj hstep
          exact follows_refl h
      | some config =>
          obtain rfl : (Abt.addXstreamFromJson env.toReplies config abt).1 = abt' := by
            simpa [Api.run, margoAddXstreamFromJson, checked] using hstep
          refine ⟨fits_addXstreamFromJson h env.toReplies config,
            .inr ⟨.addXstreamFromJson config, ?_⟩⟩
          rw [step, perform, addXstreamFromJson_inMemory h henv]
          exact congrArg some (reportXstream_fst _)

/-- The caller decides whether an added xstream is freed. -/
theorem ownXstream_inMemory {takeOwnership ok : Bool}
    (hadded : ok = true → 0 < abt.xstreams.length) :
    (ownXstream takeOwnership (inMemory abt, ok)).1 = inMemory (if ok then
      { abt with xstreams := abt.xstreams.modify (abt.xstreams.length - 1) fun x =>
        { x with margoFreeFlag := takeOwnership } }
      else abt) := by
  cases ok with
  | false => rfl
  | true =>
      have hlast : abt.xstreams.length - 1 < abt.xstreams.length := by
        have hpos := hadded rfl
        omega
      rw [ownXstream, len_xstreams_inMemory,
        modifyXstream_inMemory abt (f := fun x => { x with margoFreeFlag := takeOwnership })
          (fun _ => rfl) hlast]
      rfl

/-- There is an xstream where one was added. -/
theorem addExternalXstream_pos {r : Replies} {name : Option String} {xstream : XstreamHandle}
    (hadd : Abt.addExternalXstream r name xstream abt = some (abt', true)) :
    0 < abt'.xstreams.length := by
  unfold Abt.addExternalXstream at hadd
  split_ifs at hadd
  · cases hadd
  · cases hadd
  · split at hadd
    · cases hadd
    · split at hadd
      · cases hadd
      · cases hadd
      · obtain ⟨rfl, -⟩ := Prod.mk.inj (Option.some.inj hadd)
        exact List.length_pos_of_ne_nil (List.concat_ne_nil _ _)

theorem follows_addXstreamExternal (h : Fits abt) (henv : env.Grants) {mid : Option Instance}
    {name : Option String} {xstream : XstreamHandle} {own : Bool}
    (hstep : (margoAddXstreamExternal mid name xstream own).run env.toReplies abt = some abt') :
    Follows env abt abt' := by
  cases mid with
  | none =>
      obtain rfl := Option.some.inj hstep
      exact follows_refl h
  | some mid =>
      simp only [Api.run, margoAddXstreamExternal, checked, Option.isSome_some, Bool.and_self,
        if_true, Option.map_map, Option.map_eq_some_iff] at hstep
      obtain ⟨⟨abt₁, ok⟩, hadd, rfl⟩ := hstep
      have hfits := fits_addExternalXstream h hadd
      have hmemory := addExternalXstream_inMemory h henv name xstream
      rw [hadd] at hmemory
      simp only [Function.comp_apply, added_abt]
      refine ⟨?_, .inr ⟨.addExternalXstream name xstream own, ?_⟩⟩
      · split
        · exact ⟨hfits.pools, (List.length_modify _ abt₁.xstreams _).trans_le hfits.xstreams⟩
        · exact hfits
      · have hadded : ok = true → 0 < abt₁.xstreams.length := by
          rintro rfl
          exact addExternalXstream_pos hadd
        rw [step, perform, hmemory]
        exact congrArg some ((reportXstream_fst _).trans (ownXstream_inMemory hadded))

theorem follows_removeXstream (h : Fits abt) (henv : env.Grants) {mid : Option Instance}
    {find : MargoAbt → Option Nat} {missing : HgReturn}
    (hstep : (removeXstreamFound mid find missing).run env.toReplies abt = some abt') :
    Follows env abt abt' := by
  cases mid with
  | none =>
      obtain rfl := Option.some.inj hstep
      exact follows_refl h
  | some mid =>
      simp only [Api.run, removeXstreamFound, checked, Option.isSome_some, Bool.and_self,
        if_true] at hstep
      split at hstep <;> obtain rfl := Option.some.inj hstep
      · exact follows_refl h
      · next i _ =>
          refine ⟨fits_removeXstream h i, .inr ⟨.removeXstream i, ?_⟩⟩
          rw [step, perform, removeXstream_inMemory h henv]
          exact congrArg some (reportRemoval_fst _)

/-- A call on the lists is nothing or one operation on the arrays. -/
theorem follows_call (h : Fits abt) (henv : env.Grants)
    (hstep : callStep abt (c, env.toReplies) = some abt') : Follows env abt abt' := by
  by_cases habout : c.about = true
  · obtain hpool | hxstream := Call.counts habout hstep
    · exact follows_poolCounts h hpool
    · exact follows_xstreamCounts h hxstream
  cases c with
  | addPoolFromJson => exact follows_addPoolFromJson h hstep
  | addPoolExternal => exact follows_addPoolExternal h hstep
  | removePoolByIndex => exact follows_removal h (removePoolByIndex_removal hstep)
  | removePoolByName
  | removePoolByHandle => exact follows_removal h (removePoolFound_removal hstep)
  | addXstreamFromJson => exact follows_addXstreamFromJson h henv hstep
  | addXstreamExternal => exact follows_addXstreamExternal h henv hstep
  | removeXstreamByIndex
  | removeXstreamByName
  | removeXstreamByHandle => exact follows_removeXstream h henv hstep
  | _ => exact absurd rfl habout

end

/-! ## Initialization -/

/-- What the initialization of the lists is answered. -/
def InitEnv.replies (env : InitEnv) : InitReplies where
  abtInitialized := env.abtInitialized
  pool i := (env.pool i).toReplies
  xstream i := (env.xstream i).toReplies
  mainPools := env.mainPools
  self := env.self
  selfPools := env.selfPools

section

variable (env : InitEnv)

@[simp] theorem InitEnv.replies_abtInitialized :
    env.replies.abtInitialized = env.abtInitialized := rfl

@[simp] theorem InitEnv.replies_pool (i : Nat) : env.replies.pool i = (env.pool i).toReplies := rfl

@[simp] theorem InitEnv.replies_xstream (i : Nat) :
    env.replies.xstream i = (env.xstream i).toReplies := rfl

@[simp] theorem InitEnv.replies_mainPools : env.replies.mainPools = env.mainPools := rfl

@[simp] theorem InitEnv.replies_self : env.replies.self = env.self := rfl

@[simp] theorem InitEnv.replies_selfPools : env.replies.selfPools = env.selfPools := rfl

end

/-- Argobots starts and answers every question about a scheduler. -/
structure InitEnv.Grants (env : InitEnv) : Prop where
  abtInit : env.abtInit = true
  xstream : ∀ i, (env.xstream i).Grants

/-- `n` more pools and `m` more xstreams in the same memory. -/
structure Filled (abt : MargoAbt) (n m : Nat) (abt' : MargoAbt) : Prop where
  pools : abt'.pools.length = abt.pools.length + n
  poolsCap : abt'.poolsCap = abt.poolsCap
  xstreams : abt'.xstreams.length = abt.xstreams.length + m
  xstreamsCap : abt'.xstreamsCap = abt.xstreamsCap

section

variable {abt abt' : MargoAbt} {env : InitEnv}

theorem Filled.trans {abt'' : MargoAbt} {n m n' m' : Nat} (h : Filled abt n m abt')
    (h' : Filled abt' n' m' abt'') : Filled abt (n + n') (m + m') abt'' where
  pools := by rw [h'.pools, h.pools, Nat.add_assoc]
  poolsCap := h'.poolsCap.trans h.poolsCap
  xstreams := by rw [h'.xstreams, h.xstreams, Nat.add_assoc]
  xstreamsCap := h'.xstreamsCap.trans h.xstreamsCap

theorem SameRoom.filled (h : SameRoom abt abt') : Filled abt 0 0 abt' :=
  ⟨h.pools, h.poolsCap, congrArg List.length h.xstreams, h.xstreamsCap⟩

theorem filled_appendPool (abt : MargoAbt) (p : Pool) : Filled abt 1 0 (Abt.appendPool abt p) :=
  ⟨List.length_append, rfl, rfl, rfl⟩

theorem filled_appendXstream (abt : MargoAbt) (x : Xstream) :
    Filled abt 0 1 (Abt.appendXstream abt x) :=
  ⟨rfl, rfl, List.length_append, rfl⟩

theorem initPools_filled {r : InitReplies} {js : List Json}
    (h : Abt.initPools r abt js = some abt') : Filled abt js.length 0 abt' := by
  induction js generalizing abt with
  | nil =>
      obtain rfl := Option.some.inj h
      exact ⟨rfl, rfl, rfl, rfl⟩
  | cons j js ih =>
      rw [Abt.initPools] at h
      split at h
      · cases h
      · next p _ =>
          rw [List.length_cons, Nat.add_comm]
          exact (filled_appendPool abt p).trans (ih h)

theorem initXstream_filled {r : InitReplies} {j : Json}
    (h : Abt.initXstream r j abt = some abt') : Filled abt 0 1 abt' := by
  have hsame := xstreamInitFromJson_sameRoom (r.xstream abt.xstreams.length) j abt
  rw [Abt.initXstream] at h
  generalize Abt.xstreamInitFromJson (r.xstream abt.xstreams.length) j abt = result at *
  obtain ⟨abt₁, x⟩ := result
  cases x with
  | none => cases h
  | some x =>
      obtain rfl := Option.some.inj h
      exact hsame.filled.trans (filled_appendXstream abt₁ x)

theorem initXstreams_filled {r : InitReplies} {js : List Json}
    (h : Abt.initXstreams r abt js = some abt') : Filled abt 0 js.length abt' := by
  induction js generalizing abt with
  | nil =>
      obtain rfl := Option.some.inj h
      exact ⟨rfl, rfl, rfl, rfl⟩
  | cons j js ih =>
      rw [Abt.initXstreams] at h
      split at h
      · cases h
      · next abt₁ hone =>
          rw [List.length_cons, Nat.add_comm]
          exact (initXstream_filled hone).trans (ih h)

/-- The step fails, or ends with the lists in memory. -/
def Ends (x : Mem (Arrays × Bool)) (result : Option MargoAbt) : Prop :=
  ∃ a, x = .ok (result.elim (a, false) (inMemory ·, true))

theorem Ends.orElseFail {x : Mem (Arrays × Bool)} {result : Option MargoAbt}
    (h : Ends x result) (next : Arrays → Mem (Option Arrays)) :
    orElseFail x next = result.elim (.ok none) fun abt => next (inMemory abt) := by
  obtain ⟨a, rfl⟩ := h
  cases result with
  | none => rfl
  | some abt => rfl

theorem appendPool_ends {init : PoolSlot → Mem (PoolSlot × Bool)} {p : Option Pool}
    (hroom : abt.pools.length < abt.poolsCap) (hinit : init 0 = .ok (poolResult p)) :
    Ends (appendPool init (inMemory abt)) (p.map (Abt.appendPool abt)) := by
  refine ⟨inMemory abt, ?_⟩
  rw [appendPool_inMemory hroom hinit]
  cases p with
  | none => rfl
  | some p => rfl

theorem appendXstream_ends {init : Arrays → XstreamSlot → Mem (Arrays × XstreamSlot × Bool)}
    {r : MargoAbt × Option Xstream} (hsame : SameRoom abt r.1)
    (hroom : abt.xstreams.length < abt.xstreamsCap)
    (hinit : init (inMemory abt) 0 = .ok (xstreamResult r)) :
    Ends (appendXstream init (inMemory abt)) (r.2.map (Abt.appendXstream r.1)) := by
  refine ⟨inMemory r.1, ?_⟩
  rw [appendXstream_inMemory hsame hroom hinit]
  obtain ⟨abt', x⟩ := r
  cases x with
  | none => rfl
  | some x => rfl

theorem initPools_inMemory (env : InitEnv) {js : List Json}
    (hroom : abt.pools.length + js.length ≤ abt.poolsCap) :
    initPools env (inMemory abt) js = .ok ((Abt.initPools env.replies abt js).map inMemory) := by
  induction js generalizing abt with
  | nil => rfl
  | cons j js ih =>
      rw [List.length_cons] at hroom
      have hone : abt.pools.length < abt.poolsCap := by omega
      have hends := appendPool_ends hone
        (poolInitFromJson_inMemory (env.pool abt.pools.length) j abt)
      rw [initPools, Abt.initPools, len_pools_inMemory, hends.orElseFail, env.replies_pool]
      cases Abt.poolInitFromJson (env.pool abt.pools.length).toReplies j abt with
      | none => rfl
      | some p =>
          refine ih ?_
          rw [(filled_appendPool abt p).pools, (filled_appendPool abt p).poolsCap]
          omega

theorem initXstream_ends (henv : env.Grants) (hroom : abt.xstreams.length < abt.xstreamsCap)
    (j : Json) :
    Ends (initXstream env j (inMemory abt)) (Abt.initXstream env.replies j abt) := by
  have hends := appendXstream_ends
    (xstreamInitFromJson_sameRoom (env.xstream abt.xstreams.length).toReplies j abt) hroom
    (xstreamInitFromJson_inMemory (henv.xstream abt.xstreams.length) j abt)
  rw [initXstream, Abt.initXstream, len_xstreams_inMemory, env.replies_xstream]
  generalize Abt.xstreamInitFromJson (env.xstream abt.xstreams.length).toReplies j abt = r at *
  obtain ⟨abt₁, x⟩ := r
  cases x with
  | none => exact hends
  | some x => exact hends

theorem initXstreams_inMemory (henv : env.Grants) {js : List Json}
    (hroom : abt.xstreams.length + js.length ≤ abt.xstreamsCap) :
    initXstreams env (inMemory abt) js =
      .ok ((Abt.initXstreams env.replies abt js).map inMemory) := by
  induction js generalizing abt with
  | nil => rfl
  | cons j js ih =>
      rw [List.length_cons] at hroom
      have hone : abt.xstreams.length < abt.xstreamsCap := by omega
      rw [initXstreams, Abt.initXstreams, (initXstream_ends henv hone j).orElseFail]
      cases hresult : Abt.initXstream env.replies j abt with
      | none => rfl
      | some abt₁ =>
          have hfilled := initXstream_filled hresult
          refine ih ?_
          rw [hfilled.xstreams, hfilled.xstreamsCap]
          omega

theorem checkPrimary_inMemory (env : InitEnv) (es : Xstream) (abt : MargoAbt) :
    checkPrimary env (xstreamSlot es) (inMemory abt) =
      (Abt.checkPrimary env.replies es abt).map inMemory := by
  rw [checkPrimary, Abt.checkPrimary, findPoolByName_inMemory, findPoolByHandle_inMemory]
  change (if !env.mainPools then _ else _) = Option.map inMemory (if !env.mainPools then _ else _)
  split
  · rfl
  · cases Abt.findPoolByName abt (some "__primary__") with
    | none => rfl
    | some i =>
        change (if Abt.findPoolByHandle abt ((mainPools es.xstream).headD .poolNull) = some i
          then _ else _) = _
        dsimp only
        split <;> rfl

/-- The primary pool has the position that is looked up before it is added. -/
theorem initPrimaryPool_some {r : InitReplies} {i : Nat}
    (h : Abt.initPrimaryPool r abt = some (abt', i)) :
    i = (Abt.findPoolByName abt (some "__primary__")).getD abt.pools.length ∧
      i < abt'.pools.length ∧ ∃ n ≤ 1, Filled abt n 0 abt' := by
  unfold Abt.initPrimaryPool at h
  cases hfind : Abt.findPoolByName abt (some "__primary__") with
  | some k =>
      rw [hfind] at h
      obtain ⟨rfl, rfl⟩ := Prod.mk.inj (Option.some.inj h)
      exact ⟨rfl, (List.findIdx?_eq_some_iff_getElem.mp hfind).1, 0, Nat.zero_le 1,
        (SameRoom.refl abt).filled⟩
  | none =>
      rw [hfind] at h
      obtain ⟨p, -, heq⟩ := Option.map_eq_some_iff.mp h
      obtain ⟨rfl, rfl⟩ := Prod.mk.inj heq
      refine ⟨rfl, ?_, 1, Nat.le_refl 1, filled_appendPool abt p⟩
      rw [(filled_appendPool abt p).pools]
      exact Nat.lt_succ_self _

theorem initPrimaryPool_ends (env : InitEnv) (hroom : abt.pools.length < abt.poolsCap) :
    Ends (initPrimaryPool env (inMemory abt))
      ((Abt.initPrimaryPool env.replies abt).map Prod.fst) := by
  rw [initPrimaryPool, Abt.initPrimaryPool, findPoolByName_inMemory, len_pools_inMemory]
  cases Abt.findPoolByName abt (some "__primary__") with
  | some i => exact ⟨inMemory abt, rfl⟩
  | none =>
      dsimp only
      rw [Option.map_map]
      exact appendPool_ends hroom
        (poolInitFromJson_inMemory (env.pool abt.pools.length) _ abt)

theorem initPrimary_inMemory (henv : env.Grants) (hpool : abt.pools.length < abt.poolsCap)
    (hxstream : abt.xstreams.length < abt.xstreamsCap) :
    initPrimary env (inMemory abt) = .ok ((Abt.initPrimary env.replies abt).map inMemory) := by
  rw [initPrimary, Abt.initPrimary, findPoolByName_inMemory, len_pools_inMemory,
    (initPrimaryPool_ends env hpool).orElseFail]
  cases hprimary : Abt.initPrimaryPool env.replies abt with
  | none => rfl
  | some result =>
      obtain ⟨abt₁, i⟩ := result
      obtain ⟨hi, hlt, n, -, hfilled⟩ := initPrimaryPool_some hprimary
      rw [← hi]
      change orElseFail (initXstream env _ { inMemory abt₁ with
        pools := (inMemory abt₁).pools.modify i _ }) _ = _
      rw [modifyPool_inMemory abt₁ (f := fun p => { p with margoFreeFlag := false })
        (fun _ => rfl) hlt]
      generalize hunset : ({ abt₁ with
        pools := abt₁.pools.modify i fun p => { p with margoFreeFlag := false } } : MargoAbt) = abt₂
      have hroom : abt₂.xstreams.length < abt₂.xstreamsCap := by
        subst hunset
        rwa [hfilled.xstreams, hfilled.xstreamsCap]
      rw [(initXstream_ends henv hroom _).orElseFail]
      dsimp only
      rw [hunset]
      cases Abt.initXstream env.replies _ abt₂ with
      | none => rfl
      | some abt₃ => rfl

/-- An external xstream with a name is initialized or refused. -/
theorem xstreamInitExternal_ne_none (name : String) (handle : XstreamHandle) (abt : MargoAbt) :
    Abt.xstreamInitExternal (some name) handle abt ≠ none := by
  unfold Abt.xstreamInitExternal
  split
  · split
    · nofun
    · nofun
  · nofun

theorem initPrimaryExternal_inMemory (henv : env.Grants)
    (hpool : abt.pools.length < abt.poolsCap) (hxstream : abt.xstreams.length < abt.xstreamsCap) :
    initPrimaryExternal env (inMemory abt) =
      .ok ((Abt.initPrimaryExternal env.replies abt).map inMemory) := by
  have hends := appendPool_ends hpool
    (poolInitExternal_inMemory (some "__primary__") (env.selfPools.headD .poolNull) abt)
  rw [initPrimaryExternal, hends.orElseFail, Abt.initPrimaryExternal, env.replies_self,
    env.replies_selfPools]
  dsimp only [Option.map_some, Option.elim_some]
  generalize hadded : Abt.appendPool abt (Abt.poolInitExternal (some "__primary__")
    (env.selfPools.headD .poolNull) abt) = abt₁
  have hroom : abt₁.xstreams.length < abt₁.xstreamsCap := by
    rw [← hadded]
    exact hxstream
  have hinit := xstreamInitExternal_inMemory (henv.xstream abt₁.xstreams.length)
    (some "__primary__") (.obj env.self env.selfPools) abt₁
  cases hresult : Abt.xstreamInitExternal (some "__primary__") (.obj env.self env.selfPools)
      abt₁ with
  | none => exact absurd hresult (xstreamInitExternal_ne_none "__primary__" _ abt₁)
  | some r =>
      rw [hresult] at hinit
      have hends := appendXstream_ends (xstreamInitExternal_sameRoom hresult) hroom hinit
      rw [len_xstreams_inMemory, hends.orElseFail]
      obtain ⟨abt₂, x⟩ := r
      cases x with
      | none => rfl
      | some x => rfl

theorem initPrimary_filled {r : InitReplies} (h : Abt.initPrimary r abt = some abt') :
    ∃ n ≤ 1, Filled abt n 1 abt' := by
  rw [Abt.initPrimary] at h
  split at h
  · cases h
  · next abt₁ i hprimary =>
      obtain ⟨-, -, n, hn, hfilled⟩ := initPrimaryPool_some hprimary
      have hsame : SameRoom abt₁ { abt₁ with
          pools := abt₁.pools.modify i fun p => { p with margoFreeFlag := false } } :=
        ⟨List.length_modify _ abt₁.pools i, rfl, rfl, rfl⟩
      exact ⟨n, hn, hfilled.trans (hsame.filled.trans (initXstream_filled h))⟩

theorem initPrimaryExternal_filled {r : InitReplies}
    (h : Abt.initPrimaryExternal r abt = some abt') : Filled abt 1 1 abt' := by
  unfold Abt.initPrimaryExternal at h
  extract_lets abt₀ at h
  split at h
  · next abt₁ x hinit =>
      obtain rfl := Option.some.inj h
      exact (filled_appendPool abt _).trans
        ((xstreamInitExternal_sameRoom hinit).filled.trans (filled_appendXstream abt₁ x))
  · cases h

/-- What an initialization leaves fits. -/
theorem abtInitFromJson_fits {r : InitReplies} {jabt : Json}
    (h : Abt.abtInitFromJson r jabt = some abt) : Fits abt := by
  obtain ⟨abt₁, abt₂, hpools, hxstreams, hend⟩ := abtInitFromJson_stages h
  have hfilled := (initPools_filled hpools).trans (initXstreams_filled hxstreams)
  have hlast : ∃ n ≤ 1, ∃ m ≤ 1, Filled abt₂ n m abt := by
    obtain ⟨rfl, -⟩ | ⟨-, hprimary⟩ := hend
    · exact ⟨0, Nat.zero_le 1, 0, Nat.zero_le 1, (SameRoom.refl abt).filled⟩
    · split at hprimary
      · exact ⟨1, Nat.le_refl 1, 1, Nat.le_refl 1, initPrimaryExternal_filled hprimary⟩
      · obtain ⟨n, hn, hfilled⟩ := initPrimary_filled hprimary
        exact ⟨n, hn, 1, Nat.le_refl 1, hfilled⟩
  obtain ⟨n, hn, m, hm, hlast⟩ := hlast
  obtain ⟨hp, hpc, hx, hxc⟩ := hfilled.trans hlast
  simp only [List.length_nil, Nat.zero_add, Nat.add_zero] at hp hpc hx hxc
  constructor <;> omega

/-- The last xstream called `__primary__`. -/
theorem findLast_inMemory (abt : MargoAbt) :
    ((inMemory abt).xstreams.entries.reverse.find? fun x => x.name == some "__primary__") =
      (abt.xstreams.reverse.find? fun x => x.name == "__primary__").map xstreamSlot := by
  rw [inMemory, SlotArray.entries_image, ← List.map_reverse, List.find?_map]
  rfl

theorem abtInitFromJson_inMemory (henv : env.Grants) (jabt : Json) :
    abtInitFromJson env jabt = .ok ((Abt.abtInitFromJson env.replies jabt).map inMemory) := by
  have hcalloc : (⟨.calloc ((jabt.get "pools").items.length + 3),
      .calloc ((jabt.get "xstreams").items.length + 1)⟩ : Arrays) =
      inMemory ⟨[], (jabt.get "pools").items.length + 3, [],
        (jabt.get "xstreams").items.length + 1⟩ := by
    rw [SlotArray.calloc_eq, SlotArray.calloc_eq]
    rfl
  rw [abtInitFromJson, Abt.abtInitFromJson, hcalloc, henv.abtInit, Bool.not_true, Bool.and_false,
    initPools_inMemory env (by exact Nat.zero_add _ ▸ Nat.le_add_right _ 3)]
  cases hpools : Abt.initPools env.replies ⟨[], (jabt.get "pools").items.length + 3, [],
      (jabt.get "xstreams").items.length + 1⟩ (jabt.get "pools").items with
  | none => rfl
  | some abt₁ =>
      obtain ⟨hp, hpc, hx, hxc⟩ := initPools_filled hpools
      simp only [List.length_nil, Nat.zero_add, Nat.add_zero] at hp hx hpc hxc
      change (initXstreams env (inMemory abt₁) (jabt.get "xstreams").items >>= _) = _
      rw [initXstreams_inMemory henv (by omega)]
      change _ = Except.ok (Option.map inMemory
        (Abt.initXstreams env.replies abt₁ (jabt.get "xstreams").items >>= _))
      cases hxstreams : Abt.initXstreams env.replies abt₁ (jabt.get "xstreams").items with
      | none => rfl
      | some abt₂ =>
          obtain ⟨hp', hpc', hx', hxc'⟩ := initXstreams_filled hxstreams
          dsimp only [Option.map_some, bind, Except.bind, Option.bind]
          rw [findXstreamByName_inMemory, findLast_inMemory]
          cases Abt.findXstreamByName abt₂ (some "__primary__") with
          | some i =>
              dsimp only
              cases abt₂.xstreams.reverse.find? fun x => x.name == "__primary__" with
              | none => rfl
              | some es => exact congrArg Except.ok (checkPrimary_inMemory env es abt₂)
          | none =>
              dsimp only
              rw [env.replies_abtInitialized]
              split
              · exact initPrimaryExternal_inMemory henv (by omega) (by omega)
              · exact initPrimary_inMemory henv (by omega) (by omega)

/-! ## Runs -/

/-- One call with what Argobots and the memory answer. -/
def memoryStep (abt : MargoAbt) (x : Call × Env) : Option MargoAbt :=
  callStep abt (x.1, x.2.toReplies)

/-- Every question about a scheduler is answered during the call. -/
def Answered (_ : MargoAbt) (x : Call × Env) (_ : MargoAbt) : Prop := x.2.Grants

/-- A run of calls is a run of operations, each of which has the answers of its call. -/
theorem run_inMemory {xs : List (Call × Env)} (hrun : Run memoryStep Answered abt xs abt')
    (h : Fits abt) : Fits abt' ∧ ∃ ops : List (Op × Env),
      (ops.map Prod.snd).Sublist (xs.map Prod.snd) ∧
        Run step Any (inMemory abt) ops (inMemory abt') := by
  induction hrun with
  | nil abt => exact ⟨h, [], .slnil, .nil _⟩
  | @cons _ x _ _ _ hstep henv _ ih =>
      obtain ⟨hfits, hfollows⟩ := follows_call h henv hstep
      obtain ⟨hfits', ops, hsub, hops⟩ := ih hfits
      obtain rfl | ⟨op, hop⟩ := hfollows
      · exact ⟨hfits', ops, hsub.cons x.2, hops⟩
      · exact ⟨hfits', (op, x.2) :: ops, hsub.cons_cons x.2, .cons hop trivial hops⟩

/-- An initialization of the lists is one of the arrays, and every run of calls from it on is
a run of operations on the arrays. -/
theorem lists_agree (henv : env.Grants) (jabt : Json) :
    abtInitFromJson env jabt = .ok ((Abt.abtInitFromJson env.replies jabt).map inMemory) ∧
      ∀ abt₀ xs abt, Abt.abtInitFromJson env.replies jabt = some abt₀ →
        Run memoryStep Answered abt₀ xs abt → ∃ ops : List (Op × Env),
          (ops.map Prod.snd).Sublist (xs.map Prod.snd) ∧
            Run step Any (inMemory abt₀) ops (inMemory abt) := by
  refine ⟨abtInitFromJson_inMemory henv jabt, fun abt₀ xs abt hinit hrun => ?_⟩
  exact (run_inMemory hrun (abtInitFromJson_fits hinit)).2

end

end Margo.Abt.Arrays
