import Mathlib.Data.BitVec
import Mathlib.Data.List.Basic

/-!
# RPC ids and the providers they carry

The id of an RPC is a hash of its name above the 16 bits of a provider id. `demux_id`
and `mux_id` take the two apart and put them together again, `gen_id` makes the id under
which a provider registers a name, and every forward of a handle replaces the provider in
the id that the last forward left there.

## Implementation notes

The types of the code keep their widths, and a constant of the type `int` is converted to
the type of the other operand. The hash of a name is an argument, as is what Mercury and
the allocator answer during a forward. Everything that happens between the reset of the
handle and its forward is one answer, since it touches no id.
-/

namespace Margo.Rpc

/-- `hg_id_t`. -/
abbrev HgId := BitVec 64

/-- `uint16_t`. -/
abbrev ProviderId := BitVec 16

/-- `__MARGO_PROVIDER_ID_SIZE`: a quarter of the bytes of an `hg_id_t`. -/
def providerIdSize : Nat := 8 / 4

/-- `MARGO_MAX_PROVIDER_ID`, an `int`. -/
def maxProviderId : BitVec 32 := (1 <<< (8 * providerIdSize)) - 1

/-- `demux_id`: the base id and the provider id. -/
def demuxId (id : HgId) : HgId × ProviderId :=
  let lowBits : BitVec 32 := (1 <<< (providerIdSize * 8)) - 1
  let providerId := 0 + (id &&& lowBits.signExtend 64).setWidth 16
  let baseId := (id >>> (providerIdSize * 8)) <<< (providerIdSize * 8)
  (baseId ||| maxProviderId.signExtend 64, providerId)

/-- `mux_id`. -/
def muxId (baseId : HgId) (providerId : ProviderId) : HgId :=
  ((baseId >>> (providerIdSize * 8)) <<< (providerIdSize * 8)) ||| providerId.setWidth 64

/-- `HG_VERSION_MAJOR` and `HG_VERSION_MINOR`. -/
structure HgVersion where
  major : Nat
  minor : Nat
  deriving DecidableEq, Repr

/-- `gen_id`, for the hash of a name. -/
def genId (version : HgVersion) (hashval : BitVec 32) (providerId : ProviderId) : HgId :=
  if version.major > 2 ∨ version.major = 2 ∧ version.minor ≥ 3 then
    (hashval.setWidth 64 <<< 32) ||| providerId.setWidth 64
  else
    (hashval <<< (providerIdSize * 8)).setWidth 64 ||| providerId.setWidth 64

/-! ## Bits of an id -/

section

variable {b b' id id' : HgId} {p q : ProviderId}

theorem getLsbD_maxProviderId (i : Nat) :
    (maxProviderId.signExtend 64).getLsbD i = decide (i < 16) := by
  have hmask : maxProviderId.signExtend 64 = BitVec.ofNat 64 65535 := by decide
  rw [hmask]
  by_cases hi : i < 64
  · revert i
    decide
  · rw [BitVec.getLsbD_of_ge _ _ (Nat.not_lt.mp hi)]
    exact (decide_eq_false (by omega)).symm

/-- The lower 48 bits of a number are moved up and down again: the bits from 16 on stay. -/
theorem getLsbD_shifted (b : HgId) (i : Nat) :
    ((b >>> (providerIdSize * 8)) <<< (providerIdSize * 8)).getLsbD i =
      (decide (16 ≤ i) && b.getLsbD i) := by
  rw [providerIdSize, BitVec.getLsbD_shiftLeft, BitVec.getLsbD_ushiftRight]
  by_cases hi : 16 ≤ i
  · have hback : 16 + (i - 16) = i := by omega
    by_cases h64 : i < 64
    · simp [hi, h64, hback, Nat.not_lt.mpr hi]
    · have hout : b.getLsbD i = false := BitVec.getLsbD_of_ge _ _ (Nat.not_lt.mp h64)
      simp [hout, h64]
  · simp [hi, Nat.not_le.mp hi]

theorem getLsbD_muxId (b : HgId) (p : ProviderId) (i : Nat) :
    (muxId b p).getLsbD i = if i < 16 then p.getLsbD i else b.getLsbD i := by
  rw [muxId, BitVec.getLsbD_or, getLsbD_shifted, BitVec.getLsbD_setWidth]
  by_cases hi : i < 16
  · have h64 : i < 64 := by omega
    simp [hi, h64]
  · have hout : p.getLsbD i = false := BitVec.getLsbD_of_ge _ _ (Nat.not_lt.mp hi)
    rw [hout, if_neg hi, Bool.and_false, Bool.or_false, decide_eq_true (Nat.not_lt.mp hi),
      Bool.true_and]

theorem getLsbD_baseId (id : HgId) (i : Nat) :
    (demuxId id).1.getLsbD i = (decide (i < 16) || id.getLsbD i) := by
  rw [demuxId, BitVec.getLsbD_or, getLsbD_shifted, getLsbD_maxProviderId]
  by_cases hi : i < 16
  · simp [hi]
  · simp [hi, Nat.not_lt.mp hi]

theorem getLsbD_providerId (id : HgId) (i : Nat) :
    (demuxId id).2.getLsbD i = (decide (i < 16) && id.getLsbD i) := by
  have hmask : ((1 <<< (providerIdSize * 8)) - 1 : BitVec 32) = maxProviderId := rfl
  dsimp only [demuxId]
  rw [hmask, zero_add, BitVec.getLsbD_setWidth, BitVec.getLsbD_and,
    getLsbD_maxProviderId]
  by_cases hi : i < 16
  · rw [decide_eq_true hi, Bool.true_and, Bool.true_and, Bool.and_true]
  · rw [decide_eq_false hi, Bool.false_and, Bool.false_and]

/-! ## The algebra of ids -/

/-- Taking an id apart loses nothing. -/
theorem muxId_demuxId (id : HgId) : muxId (demuxId id).1 (demuxId id).2 = id := by
  apply BitVec.eq_of_getLsbD_eq
  intro i _
  rw [getLsbD_muxId, getLsbD_baseId, getLsbD_providerId]
  by_cases hi : i < 16
  · simp [hi]
  · simp [hi]

theorem demuxId_injective (h : demuxId id = demuxId id') : id = id' := by
  calc
    id = muxId (demuxId id).1 (demuxId id).2 := (muxId_demuxId id).symm
    _ = muxId (demuxId id').1 (demuxId id').2 := by rw [h]
    _ = id' := muxId_demuxId id'

theorem providerId_muxId (b : HgId) (p : ProviderId) : (demuxId (muxId b p)).2 = p := by
  apply BitVec.eq_of_getLsbD_eq
  intro i hi
  rw [getLsbD_providerId, getLsbD_muxId, if_pos hi, decide_eq_true hi, Bool.true_and]

/-- The base of an id depends on the upper 48 bits alone. -/
theorem baseId_muxId (h : b.extractLsb' 16 48 = b'.extractLsb' 16 48) (p q : ProviderId) :
    (demuxId (muxId b p)).1 = (demuxId (muxId b' q)).1 := by
  apply BitVec.eq_of_getLsbD_eq
  intro i h64
  simp only [getLsbD_baseId, getLsbD_muxId]
  by_cases hi : i < 16
  · simp [hi]
  · have hbit := congrArg (fun x => x.getLsbD (i - 16)) h
    have hlt : i - 16 < 48 := by omega
    have hback : 16 + (i - 16) = i := by omega
    simpa [hi, hlt, hback] using hbit

/-- The provider that was put in last counts. -/
theorem muxId_muxId (b : HgId) (p q : ProviderId) : muxId (muxId b p) q = muxId b q := by
  apply BitVec.eq_of_getLsbD_eq
  intro i _
  simp only [getLsbD_muxId]
  by_cases hi : i < 16
  · simp [hi]
  · simp [hi]

/-- Both branches of `gen_id` put the provider below the hash. -/
theorem muxId_genId (version : HgVersion) (hashval : BitVec 32) (p q : ProviderId) :
    muxId (genId version hashval q) p = genId version hashval p := by
  have hor : ∀ upper : HgId, (∀ i < 16, upper.getLsbD i = false) →
      muxId (upper ||| q.setWidth 64) p = upper ||| p.setWidth 64 := by
    intro upper hupper
    apply BitVec.eq_of_getLsbD_eq
    intro i h64
    rw [getLsbD_muxId, BitVec.getLsbD_or, BitVec.getLsbD_or, BitVec.getLsbD_setWidth,
      BitVec.getLsbD_setWidth, decide_eq_true h64]
    by_cases hi : i < 16
    · rw [if_pos hi, hupper i hi, Bool.false_or, Bool.true_and]
    · have hout : ∀ r : ProviderId, r.getLsbD i = false := fun r =>
        BitVec.getLsbD_of_ge _ _ (Nat.not_lt.mp hi)
      rw [if_neg hi, hout, hout]
  unfold genId
  split
  · apply hor
    intro i hi
    have h32 : i < 32 := by omega
    simp [h32]
  · apply hor
    intro i hi
    simp [providerIdSize, hi]

end

/-! ## Forwards of a handle -/

/-- What Mercury and the allocator answer during a forward. -/
structure ForwardReplies where
  /-- The handle carries its data, and an instance with it. -/
  handleData : Bool
  /-- `HG_Registered` succeeds. -/
  registered : Bool
  /-- `HG_Registered_disabled_response` succeeds. -/
  disabledResponse : Bool
  /-- `HG_Register` succeeds. -/
  register : Bool
  /-- The data of the RPC are there, or they are allocated and registered. -/
  registerData : Bool
  /-- `HG_Registered_disable_response` succeeds. -/
  disableResponse : Bool
  /-- `HG_Reset` succeeds. -/
  reset : Bool
  /-- The eventual and the timer of the request are created. -/
  prepared : Bool
  deriving DecidableEq, Repr

/-- Mercury and the allocator do what they are asked for. -/
def ForwardReplies.granted : ForwardReplies where
  handleData := true
  registered := true
  disabledResponse := true
  register := true
  registerData := true
  disableResponse := true
  reset := true
  prepared := true

/-- A handle of a client: the id in its information, and the ids that are registered. -/
structure Client where
  id : HgId
  registered : List HgId
  deriving DecidableEq, Repr

/-- `margo_register_internal`, with the id it returns. -/
def Client.registerInternal (c : Client) (r : ForwardReplies) (id : HgId) : Client × HgId :=
  if r.register then
    ({ c with registered := id :: c.registered }, if r.registerData then id else 0)
  else (c, 0)

/-- The id that includes the provider is registered, unless it is already. -/
def Client.registerServerId (c : Client) (r : ForwardReplies) (serverId : HgId) :
    Client × Bool :=
  if !r.registered then (c, false)
  else if serverId ∈ c.registered then (c, true)
  else if !r.disabledResponse then (c, false)
  else
    let (c, id) := c.registerInternal r serverId
    if id = 0 then (c, false) else (c, r.disableResponse)

/-- `margo_provider_iforward_internal`, with the id in the handle that it passes to
`HG_Forward`. -/
def providerIforwardInternal (r : ForwardReplies) (providerId : ProviderId) (c : Client) :
    Client × Option HgId :=
  if !r.handleData then (c, none)
  else
    let clientId := c.id
    let serverId := muxId clientId providerId
    match c.registerServerId r serverId with
    | (c, false) => (c, none)
    | (c, true) =>
        if !r.reset then (c, none)
        else
          let c := { c with id := serverId }
          if !r.prepared then (c, none) else (c, some c.id)

/-- The providers to which a handle is forwarded one after the other, each with the id
that is passed to Mercury. -/
def targets (c : Client) : List (ProviderId × ForwardReplies) → List (ProviderId × HgId)
  | [] => []
  | (providerId, r) :: rest =>
      let (c, target) := providerIforwardInternal r providerId c
      target.toList.map (fun id => (providerId, id)) ++ targets c rest

theorem registerServerId_id (c : Client) (r : ForwardReplies) (serverId : HgId) :
    (c.registerServerId r serverId).1.id = c.id := by
  rw [Client.registerServerId, Client.registerInternal]
  split_ifs <;> first | rfl | (dsimp only; split_ifs <;> rfl)

/-- A forward leaves the id of the handle as it is or replaces the provider in it, and
Mercury is given the id with the new provider. -/
theorem providerIforwardInternal_cases (r : ForwardReplies) (p : ProviderId) (c : Client) :
    ((providerIforwardInternal r p c).1.id = c.id ∨
      (providerIforwardInternal r p c).1.id = muxId c.id p) ∧
    ∀ id, (providerIforwardInternal r p c).2 = some id → id = muxId c.id p := by
  have hid := registerServerId_id c r (muxId c.id p)
  by_cases hdata : r.handleData = true
  · simp only [providerIforwardInternal, hdata, Bool.not_true, Bool.false_eq_true, if_false]
    cases hregister : c.registerServerId r (muxId c.id p) with
    | mk after registered =>
        rw [hregister] at hid
        cases registered with
        | false => exact ⟨.inl hid, fun id h => by cases h⟩
        | true =>
            cases r.reset with
            | false => exact ⟨.inl hid, fun id h => by cases h⟩
            | true =>
                refine ⟨.inr ?_, ?_⟩
                · cases r.prepared <;> rfl
                · intro id h
                  cases hprepared : r.prepared with
                  | false => simp [hprepared] at h
                  | true => simpa [hprepared, eq_comm] using h
  · simp [providerIforwardInternal, hdata]

/-- However often a handle of a registered name is forwarded, every forward is sent to the
id under which its provider registers that name. -/
theorem targets_genId (version : HgVersion) (hashval : BitVec 32)
    (calls : List (ProviderId × ForwardReplies)) (c : Client)
    (hid : ∃ q, c.id = genId version hashval q) :
    ∀ e ∈ targets c calls, e.2 = genId version hashval e.1 := by
  induction calls generalizing c with
  | nil => exact fun e he => absurd he List.not_mem_nil
  | cons call rest ih =>
      obtain ⟨p, r⟩ := call
      obtain ⟨q, hq⟩ := hid
      obtain ⟨hafter, htarget⟩ := providerIforwardInternal_cases r p c
      have hmux : muxId c.id p = genId version hashval p := by rw [hq, muxId_genId]
      intro e he
      rw [targets] at he
      rcases List.mem_append.mp he with he | he
      · obtain ⟨id, hmem, rfl⟩ := List.mem_map.mp he
        exact (htarget id (Option.mem_toList.mp hmem)).trans hmux
      · apply ih _ _ e he
        rcases hafter with hkept | hmoved
        · exact ⟨q, hkept.trans hq⟩
        · exact ⟨p, hmoved.trans hmux⟩

/-- A forward that is granted everything passes the new id to Mercury. Only the id 0 has to be
registered before, since `margo_register_internal` tells its failure by 0. -/
theorem providerIforwardInternal_granted (p : ProviderId) (c : Client)
    (hid : muxId c.id p ≠ 0 ∨ 0 ∈ c.registered) :
    ∃ registered, c.registered ⊆ registered ∧
      providerIforwardInternal .granted p c =
        (⟨muxId c.id p, registered⟩, some (muxId c.id p)) := by
  have hforward {after : Client}
      (hserver : c.registerServerId .granted (muxId c.id p) = (after, true)) :
      providerIforwardInternal .granted p c =
        (⟨muxId c.id p, after.registered⟩, some (muxId c.id p)) := by
    simp only [providerIforwardInternal, hserver]
    rfl
  by_cases hregistered : muxId c.id p ∈ c.registered
  · have hserver : c.registerServerId .granted (muxId c.id p) = (c, true) :=
      if_pos hregistered
    exact ⟨c.registered, List.Subset.refl _, hforward hserver⟩
  · have hne : muxId c.id p ≠ 0 := by
      intro hzero
      rw [hzero] at hid hregistered
      exact hid.elim (fun hne => hne rfl) hregistered
    have hserver : c.registerServerId .granted (muxId c.id p) =
        (⟨c.id, muxId c.id p :: c.registered⟩, true) :=
      (if_neg hregistered).trans (if_neg hne)
    exact ⟨_, List.subset_cons_self _ _, hforward hserver⟩

/-- When everything is granted, there is one target for each forward. -/
theorem targets_granted (version : HgVersion) (hashval : BitVec 32) (providers : List ProviderId)
    (c : Client) (hid : ∃ q, c.id = genId version hashval q)
    (hproviders : ∀ p ∈ providers, genId version hashval p ≠ 0 ∨ 0 ∈ c.registered) :
    targets c (providers.map (·, .granted)) =
      providers.map fun p => (p, genId version hashval p) := by
  induction providers generalizing c with
  | nil => rfl
  | cons p rest ih =>
      obtain ⟨q, hq⟩ := hid
      have hmux : muxId c.id p = genId version hashval p := by rw [hq, muxId_genId]
      obtain ⟨registered, hsub, hforward⟩ := providerIforwardInternal_granted p c
        (hmux.symm ▸ hproviders p List.mem_cons_self)
      rw [List.map_cons, List.map_cons, targets, hforward, hmux]
      have hrest : ∀ r ∈ rest, genId version hashval r ≠ 0 ∨ 0 ∈ registered := fun r hr =>
        (hproviders r (List.mem_cons_of_mem p hr)).imp_right fun hzero => hsub hzero
      exact congrArg _ (ih ⟨genId version hashval p, registered⟩ ⟨p, rfl⟩ hrest)

/-- The algebra of ids, and what it means for the forwards of a handle; `hashJen` is the
hash of a name. -/
theorem id_algebra (version : HgVersion) (hashJen : String → BitVec 32) :
    (∀ id, muxId (demuxId id).1 (demuxId id).2 = id) ∧
    (∀ b p, (demuxId (muxId b p)).2 = p) ∧
    (∀ b b' p p', b.extractLsb' 16 48 = b'.extractLsb' 16 48 →
      (demuxId (muxId b p)).1 = (demuxId (muxId b' p')).1) ∧
    (∀ b p q, muxId (muxId b p) q = muxId b q) ∧
    (∀ name p q,
      muxId (genId version (hashJen name) q) p = genId version (hashJen name) p) ∧
    (∀ name q registered calls,
      ∀ e ∈ targets ⟨genId version (hashJen name) q, registered⟩ calls,
        e.2 = genId version (hashJen name) e.1) ∧
    (∀ name q registered (providers : List ProviderId),
      (∀ p ∈ providers, genId version (hashJen name) p ≠ 0 ∨ 0 ∈ registered) →
      targets ⟨genId version (hashJen name) q, registered⟩ (providers.map (·, .granted)) =
        providers.map fun p => (p, genId version (hashJen name) p)) ∧
    ∀ id id', id ≠ id' → demuxId id ≠ demuxId id' := by
  refine ⟨muxId_demuxId, providerId_muxId, ?_, muxId_muxId, ?_, ?_, ?_, ?_⟩
  · exact fun b b' p p' h => baseId_muxId h p p'
  · exact fun name p q => muxId_genId version (hashJen name) p q
  · exact fun name q registered calls =>
      targets_genId version (hashJen name) calls _ ⟨q, rfl⟩
  · exact fun name q registered providers h =>
      targets_granted version (hashJen name) providers _ ⟨q, rfl⟩ h
  · exact fun id id' hne h => hne (demuxId_injective h)

end Margo.Rpc
