import Margo.Exchange.Provenance
import Margo.Lib.Runs

/-!
# Runs of an exchange

Every operation of every run, from end to end: what was forwarded is what the handler gets,
what the handler responds is what the waiting side gets, and both sides account for the
operation under the same key, whose parent is the RPC that forwarded it.
-/

namespace Margo.Exchange

open Lib.Bytes Lib.Runs Serialization
open Rpc (ProviderId muxId)

variable {π α β : Type} [DecidableEq π] {codes : ErrorCodes} {procs : HgId → HandleData α β}
  {s s' : State π α β} {t : Nat} {op : Operation π α β}

omit [DecidableEq π] in
theorem inv_start : Inv codes procs (start : State π α β) where
  sent t op hop := by cases hop
  served t ht := by cases ht
  once := List.nodup_nil
  keyed u hu := by cases hu
  handles i h t hh := by cases hh
  latest t op h t' hop := by cases hop

theorem inv_run (hprocs : ∀ id providerId, procs (muxId id providerId) = procs id)
    (hin : ∀ id cb, (procs id).inProcCb = some cb → Undoes cb)
    (hout : ∀ id cb, (procs id).outProcCb = some cb → Undoes cb) {as : List (Action π α β)}
    (hrun : Run (step codes procs) Any start as s) : Inv codes procs s :=
  hrun.invariant (fun hi _ hstep => hi.step hprocs hin hout hstep) inv_start

/-! ## The calls behind an operation -/

/-- The enumerators of Mercury. -/
def mercuryCodes : ErrorCodes where
  overflow := 13
  noMatch := 2
  checksumError := 23
  permission := 1
  noEntry := 2
  otherError := 25
  invalidArg := 11
  canceled := 21
  timeout := 20
  permission_ne := by decide
  noEntry_ne := by decide
  otherError_ne := by decide
  invalidArg_ne := by decide
  canceled_ne := by decide
  timeout_ne := by decide

/-- Two processes: a forward of the first one to the second, whose handler forwards to a
provider of the first that does not exist, and then responds. -/
def forwardTwice : List (Action Bool (BitVec 64) (BitVec 64)) :=
  [.register false 0x10000 ⟨false, false⟩, .register true 0x10005 ⟨true, false⟩,
    .create false true 0x10000, .spawn false, .forward 0 0 5 77 true true,
    .deliver 0 ⟨hgSuccess, true, true, false⟩, .start 1, .create true false 0x10005,
    .forward 1 1 6 78 false true, .register false 0x10006 ⟨false, false⟩,
    .deliver 1 ⟨hgSuccess, true, true, true⟩, .arrive 1, .wait 1 false, .respond 0 99 true,
    .arrive 0, .wait 0 true]

/-- Every RPC takes and gives a number. -/
def wordProcs (_ : HgId) : HandleData (BitVec 64) (BitVec 64) := ⟨some wordCb, some wordCb⟩

theorem undoes_of_eq {cb : ProcCb (BitVec 64)} (h : some wordCb = some cb) : Undoes cb := by
  cases h
  exact undoes_wordCb

/-- The parent that an operation has in a callpath, and the keys under which the monitors of
both sides account for it. -/
structure Attributed (codes : ErrorCodes) (s : State π α β) (t : Nat) (op : Operation π α β) :
    Prop where
  parentId : ∀ checksum,
    checkParentIdInInput codes.toCodes (verdict codes checksum) op.request =
      (hgSuccess, some op.parentRpcId)
  forwardKey : op.forwardKey = (op.id, op.parentRpcId)
  handlerKey : ∀ k, op.handlerKey = some k → k = op.forwardKey
  program : op.context = .program → op.parentRpcId = muxId 0 defaultProviderId
  chosen : ∀ id, op.context = .chosen id →
    op.parentRpcId = if id = 0 then muxId 0 defaultProviderId else id
  rpc : ∀ t', op.context = .rpc t' →
    t' < t ∧ t' ∈ s.servings ∧ ∃ op', s.operations[t']? = some op' ∧ op'.target = op.origin ∧
      op.parentRpcId = if op'.id = 0 then muxId 0 defaultProviderId else op'.id

theorem margoGetCurrentRpcId_set (id : HgId) :
    margoGetCurrentRpcId (margoSetCurrentRpcId id) = margoSetCurrentRpcId id := by
  have hdefault : muxId 0 defaultProviderId ≠ 0 := by decide
  rw [margoGetCurrentRpcId, margoSetCurrentRpcId, if_neg]
  split
  · exact hdefault
  · next hid => exact hid

/-- Both sides agree on the callpath of every operation, and its parent is the RPC in whose
handler it was forwarded, an earlier one that was sent to the process of the forward. -/
theorem callpaths_agree (hprocs : ∀ id providerId, procs (muxId id providerId) = procs id)
    (hin : ∀ id cb, (procs id).inProcCb = some cb → Undoes cb)
    (hout : ∀ id cb, (procs id).outProcCb = some cb → Undoes cb) {as : List (Action π α β)}
    (hrun : Run (step codes procs) Any start as s) (hop : s.operations[t]? = some op) :
    Attributed codes s t op := by
  have hsent := (inv_run hprocs hin hout hrun).sent t op hop
  have hparent := hsent.parent
  constructor
  · exact hsent.parentId hin
  · exact hsent.forwardKey
  · exact hsent.handlerKey
  · intro hcontext
    rw [hparent, hcontext]
    rfl
  · intro id hcontext
    rw [hparent, hcontext, State.keyOf, margoGetCurrentRpcId_set]
    rfl
  · intro t' hcontext
    obtain ⟨hserved, op', hop', htarget⟩ := hsent.caller t' hcontext
    refine ⟨?_, hserved, op', hop', htarget, ?_⟩
    · have hbelow := hsent.below
      rw [hcontext] at hbelow
      exact hbelow
    · rw [hparent, hcontext, State.keyOf, hop', margoGetCurrentRpcId_set]
      rfl

/-- The second operation is one of the first. -/
theorem callpaths_agree_twice : ∃ s op op',
    Run (step mercuryCodes wordProcs) Any start forwardTwice s ∧
      s.operations[0]? = some op ∧ s.operations[1]? = some op' ∧
      op.handlerKey = some (0x10005, 0xFFFF) ∧ op'.context = .rpc 0 ∧
      Attributed mercuryCodes s 0 op ∧ Attributed mercuryCodes s 1 op' := by
  have hexec : (exec (step mercuryCodes wordProcs) Any start forwardTwice).map
      (fun s => s.operations.map fun op => (op.handlerKey, op.context)) =
        some [(some (0x10005, 0xFFFF), .program), (none, .rpc 0)] := rfl
  obtain ⟨s, hrun, hs⟩ := run_of_exec_map hexec
  obtain ⟨op, ops, hops, hop, hrest⟩ := List.map_eq_cons_iff.mp hs
  obtain ⟨op', ops', rfl, hop', -⟩ := List.map_eq_cons_iff.mp hrest
  have h₀ : s.operations[0]? = some op := by rw [hops]; rfl
  have h₁ : s.operations[1]? = some op' := by rw [hops]; rfl
  refine ⟨s, op, op', hrun, h₀, h₁, congrArg Prod.fst hop, congrArg Prod.snd hop', ?_, ?_⟩
  · exact callpaths_agree (fun _ _ => rfl) (fun _ _ => undoes_of_eq) (fun _ _ => undoes_of_eq)
      hrun h₀
  · exact callpaths_agree (fun _ _ => rfl) (fun _ _ => undoes_of_eq) (fun _ _ => undoes_of_eq)
      hrun h₁

end Margo.Exchange
