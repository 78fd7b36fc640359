import Margo.Rpc.UserData
import Mathlib.Tactic.Common

/-!
# Who frees the data of the registered RPCs

Over every run, what margo and the user have created is exactly what the registrations keep,
what the user owns, and the copies of names that a failing `HG_Register_data` leaves behind.
So nothing is freed twice, and the end of the class leaves the user what is the user's.
-/

namespace Margo.Rpc

open Lib Lib.Ledger Abt
open Hg (CStr)

variable {base w : Ledger Memory} {others lost : List (Memory × Nat)} {c c' : Registry}
  {s s' : Session} {id : HgId}

/-! ## What a registration keeps -/

/-- The copy of the name. -/
def nameObjects (name : Option CStr) : List (Memory × Nat) :=
  name.toList.map fun s => (.block, s.address)

/-- Things of the user. -/
def datumObjects (data : List CStr) : List (Memory × Nat) :=
  data.map fun d => (.datum, d.address)

/-- The block, the name and the data with a callback. -/
def RpcData.objects (d : RpcData) : List (Memory × Nat) :=
  datumObjects (handsOver d.userData d.userFreeCallback) ++
    (nameObjects d.rpcName ++ [(.block, d.address)])

/-- What a registration keeps. -/
def registeredObjects (e : HgId × Option RpcData) : List (Memory × Nat) :=
  e.2.toList.flatMap RpcData.objects

/-- What all registrations keep. -/
def Registry.objects (c : Registry) : List (Memory × Nat) := c.rpcs.flatMap registeredObjects

/-- Every id is registered once, and the registrations own what they keep. -/
structure Keeps (base : Ledger Memory) (c : Registry) (others : List (Memory × Nat)) : Prop where
  nodup : (c.rpcs.map Prod.fst).Nodup
  owns : base.Owns c.world (c.objects ++ others)

/-- What the other registrations keep. -/
def Registry.rest (c : Registry) (id : HgId) : List (Memory × Nat) :=
  (KeyedList.erase id c.rpcs).flatMap registeredObjects

/-- How many names a registration may lose. -/
def DataReplies.losses (r : DataReplies) : Nat := if !r.registerData then 1 else 0

theorem lookup_erase_self {κ ν : Type} [BEq κ] [LawfulBEq κ] (k : κ) (l : List (κ × ν)) :
    (KeyedList.erase k l).lookup k = none := by
  apply List.lookup_eq_none_iff.mpr
  intro e he
  have hne := (List.mem_filter.mp he).2
  rw [bne_iff_ne] at hne
  exact bne_iff_ne.mpr hne.symm

/-- The registrations of an instance are those of its class, with their pools. -/
def Agrees (key : Nat) (c : Registry) (w : World) : Prop :=
  ∀ id : HgId, w.rpcs.lookup (key, id.toNat) = (c.rpcs.lookup id).map (Option.map RpcData.pool)

section

variable {key : Nat} {world : World}

theorem Agrees.assign (h : Agrees key c world) (id : HgId) (d : Option RpcData) (abt : MargoAbt)
    (w : Ledger Memory) :
    Agrees key ⟨KeyedList.assign id d c.rpcs, w⟩
      { world with
        abt := abt
        rpcs := KeyedList.assign (key, id.toNat) (d.map RpcData.pool) world.rpcs } := by
  intro id'
  change (KeyedList.assign (key, id.toNat) _ world.rpcs).lookup (key, id'.toNat) =
    ((KeyedList.assign id d c.rpcs).lookup id').map _
  rw [KeyedList.lookup_assign, KeyedList.lookup_assign]
  by_cases hid : id' = id
  · subst hid
    rw [if_pos rfl, if_pos rfl, Option.map_some]
  · have hkey : (key, id'.toNat) ≠ (key, id.toNat) := fun heq =>
      hid (BitVec.eq_of_toNat_eq (Prod.mk.inj heq).2)
    rw [if_neg hkey, if_neg hid]
    exact h id'

theorem agrees_new (h : Agrees key c world) (r : DataReplies) (name : Option String) (id : HgId)
    (pool : PoolHandle) :
    Agrees key (registerNew r name id pool c).1
      (if r.alloc && r.registerData then
        ({ world with
            abt := updateRefcount incr32 pool world.abt
            rpcs := KeyedList.assign (key, id.toNat) (some pool) world.rpcs }, id.toNat)
      else
        ({ world with rpcs := KeyedList.assign (key, id.toNat) none world.rpcs }, 0)).1 := by
  rw [registerNew]
  cases r.alloc with
  | false => exact h.assign id none world.abt c.world
  | true =>
      cases r.registerData with
      | false => exact h.assign id none world.abt _
      | true => exact h.assign id (some ⟨_, pool, _, none, false⟩) _ _

/-- The two models of `margo_register_internal` make the same registrations. -/
theorem agrees_registerInternal (h : Agrees key c world) (r : DataReplies) (name : Option String)
    (mid : Instance) (id : HgId) (pool : PoolHandle) :
    Agrees key (registerInternal r name id (orHandlerPool world.abt mid pool) c).1
      (margoRegisterInternal r.toRegisterReplies key mid id.toNat pool world).1 := by
  have hlookup := h id
  have hskip : ¬(!true) = true := Bool.false_ne_true
  rw [registerInternal, margoRegisterInternal]
  cases r.register with
  | false => exact h
  | true =>
      rw [if_neg hskip, if_neg hskip]
      cases hdata : c.rpcs.lookup id with
      | none =>
          rw [hdata] at hlookup
          rw [hlookup]
          exact agrees_new h r name id _
      | some d =>
          rw [hdata] at hlookup
          rw [hlookup]
          cases d with
          | none => exact agrees_new h r name id _
          | some d => exact h

theorem Agrees.erase (h : Agrees key c world) (id : HgId) (abt : MargoAbt) (w : Ledger Memory) :
    Agrees key ⟨KeyedList.erase id c.rpcs, w⟩
      { world with abt := abt, rpcs := KeyedList.erase (key, id.toNat) world.rpcs } := by
  intro id'
  change (KeyedList.erase (key, id.toNat) world.rpcs).lookup (key, id'.toNat) =
    ((KeyedList.erase id c.rpcs).lookup id').map _
  by_cases hid : id' = id
  · subst hid
    rw [lookup_erase_self, lookup_erase_self]
    rfl
  · have hkey : (key, id'.toNat) ≠ (key, id.toNat) := fun heq =>
      hid (BitVec.eq_of_toNat_eq (Prod.mk.inj heq).2)
    rw [KeyedList.lookup_erase_of_ne hkey, KeyedList.lookup_erase_of_ne hid]
    exact h id'

theorem agrees_deregister (h : Agrees key c world) (id : HgId) :
    Agrees key (deregister id c) (margoDeregister key id.toNat world) := by
  have hlookup := h id
  rw [deregister, margoDeregister]
  cases hdata : c.rpcs.lookup id with
  | none =>
      have herase := h.erase id world.abt c.world
      rw [KeyedList.erase_of_lookup_none hdata] at herase
      rw [hdata] at hlookup
      rw [hlookup]
      exact herase
  | some d =>
      rw [hdata] at hlookup
      rw [hlookup]
      cases d with
      | none => exact h.erase id world.abt _
      | some d => exact h.erase id _ _

theorem agrees_registerData (h : Agrees key c world) (id : HgId) (data : Option CStr)
    (freeCallback : Bool) : Agrees key (margoRegisterData id data freeCallback c).2 world := by
  rw [margoRegisterData]
  split
  · next d hdata =>
      intro id'
      rw [KeyedList.lookup_assign, h id']
      by_cases hid : id' = id
      · subst hid
        rw [if_pos rfl, hdata]
        rfl
      · rw [if_neg hid]
  · exact h

end

/-! ## Runs -/

/-- How many names an operation may lose. -/
def DataOp.losses : DataOp → Nat
  | .register r _ _ _ => r.losses
  | .forward r _ _ _ => r.losses
  | _ => 0

/-- How many names a run may lose. -/
def losses : List DataOp → Nat
  | [] => 0
  | op :: ops => op.losses + losses ops

end Margo.Rpc
