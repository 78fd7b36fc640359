import Mathlib.Data.List.Nodup
import Mathlib.Logic.Function.Basic
import Margo.Bulk.Pool

/-!
# Creating bulk pools and poolsets

`margo_bulk_pool_create` and `margo_bulk_poolset_create` with every call that
may fail, and what their error paths undo. The structure that `malloc` returns
has arbitrary contents, and a read of a field that is not written yet is noted.

## Implementation notes

The environment resolves the calls of the C library, Mercury and Argobots. An
allocation is its address, zero where it failed. What a failing
`margo_bulk_create` leaves in the array is overwritten with `HG_BULK_NULL`, as
`calloc` left the entries that follow, so the array is told by the list of the
handles created so far.
-/

namespace Margo.Bulk

open Lib

/-- `hg_return_t`. -/
inductive HgReturn
  | success
  | invalidArg
  | nomemError
  | otherError
  /-- Another code of Mercury. -/
  | code (n : Nat)
  deriving DecidableEq, Repr

/-- The fields of `struct margo_bulk_pool`. -/
inductive Field
  | mid | buf | bulks | count | size | numFree | flag | mutex | cond
  deriving DecidableEq, Repr

/-- The results of the calls of one creation. -/
structure Env where
  malloc : Nat
  /-- What the memory of the structure contains when `malloc` returns it. -/
  stale : Field → Nat
  /-- What the memory contains that the stale `bulks` points to. -/
  staleBulks : Nat → Handle
  /-- `posix_memalign` with an alignment and a size. -/
  memalign : Nat → Nat → Option Nat
  calloc : Nat → Nat
  /-- `margo_bulk_create` for the entry with some index: one segment with its
  address, its size and the flag. -/
  bulkCreate : Nat → Nat → Nat → Nat → HgReturn × Handle
  bulkCreate_ne_null : ∀ i ptr size flag,
    (bulkCreate i ptr size flag).1 = .success → (bulkCreate i ptr size flag).2 ≠ null
  mutexCreate : Option Nat
  condCreate : Option Nat

inductive Resource
  | block (address : Nat)
  | bulk (b : Handle)
  | mutex
  deriving DecidableEq, Repr

/-- What a creation does to the resources. -/
inductive Event
  | acquire (r : Resource)
  | release (r : Resource)
  | readUnwritten (f : Field)
  deriving DecidableEq, Repr

/-- The structure in memory, and what its `bulks` points to. -/
structure Record where
  value : Field → Nat
  written : Field → Bool
  array : Nat → Handle

/-- A structure that `malloc` just returned. -/
def Record.fresh (env : Env) : Record := ⟨env.stale, fun _ => false, env.staleBulks⟩

def Record.set (r : Record) (f : Field) (v : Nat) : Record :=
  { r with value := Function.update r.value f v, written := Function.update r.written f true }

/-- A read of a field is noted if nobody has written it. -/
def Record.read (r : Record) (f : Field) : List Event :=
  if r.written f then [] else [.readUnwritten f]

/-- A block, unless its address is zero. -/
def blockAt (address : Nat) : List Resource := if address ≠ 0 then [.block address] else []

theorem blockAt_of_ne {address : Nat} (h : address ≠ 0) : blockAt address = [.block address] :=
  if_pos h

/-! ## The error path of a pool -/

/-- The loop at `err`, with the number of entries left and the index. -/
def Record.freeHandles (r : Record) : Nat → Nat → List Event
  | 0, _ => r.read .count
  | n + 1, i =>
      r.read .count ++ r.read .bulks ++
        if r.array i ≠ null then
          r.read .bulks ++ .release (.bulk (r.array i)) :: r.freeHandles n (i + 1)
        else
          []

/-- The label `err` for a structure at some address. -/
def Record.undo (r : Record) (address : Nat) : List Event :=
  r.read .bulks ++
    (if r.value .bulks ≠ 0 then
      r.freeHandles (r.value .count) 0 ++ r.read .bulks ++ [.release (.block (r.value .bulks))]
    else
      []) ++
    r.read .buf ++
    (if r.value .buf ≠ 0 then r.read .buf ++ [.release (.block (r.value .buf))] else []) ++
    [.release (.block address)]

/-- How a creation ends: the code, what is stored in `*pool`, and what was done. -/
structure Result where
  code : HgReturn
  pool : Option Pool
  events : List Event
  deriving DecidableEq, Repr

/-- `goto err` with a structure at some address. -/
def Record.err (r : Record) (address : Nat) (code : HgReturn) (events : List Event) : Result :=
  ⟨code, none, events ++ r.undo address⟩

/-! ## The creation of a pool -/

/-- The loop over the bulk handles, with the number of entries left and the
index: the handles created, and the code of the call it stopped at. -/
def createHandles (env : Env) (buf size flag : Nat) : Nat → Nat → HgReturn × List Handle
  | 0, _ => (.success, [])
  | n + 1, i =>
      match env.bulkCreate i (buf + SizeT.mul i size) size flag with
      | (.success, b) =>
          let (hret, bs) := createHandles env buf size flag n (i + 1)
          (hret, b :: bs)
      | (hret, _) => (hret, [])

/-- The structure once the buffer is there. -/
def Record.fill (r : Record) (mid buf count size flag bulks : Nat) : Record :=
  ((((((r.set .buf buf).set .mid mid).set .count count).set .size size).set .numFree count).set
    .flag flag).set .bulks bulks

/-- The creation of the mutex and of the condition. -/
def createSync (env : Env) (r : Record) (bulks : List Handle) (events : List Event) : Result :=
  match env.mutexCreate with
  | none => r.err env.malloc .otherError events
  | some mutex =>
      let r := r.set .mutex mutex
      match env.condCreate with
      | none =>
          r.err env.malloc .otherError
            (events ++ [.acquire .mutex] ++ r.read .mutex ++ [.release .mutex])
      | some cond =>
          let r := r.set .cond cond
          ⟨.success, some ⟨r.value .buf, bulks, r.value .count, r.value .size, r.value .numFree,
            r.value .flag⟩, events ++ [.acquire .mutex]⟩

/-- The creation of the array and of the handles. -/
def createBulks (env : Env) (mid buf count size flag : Nat) (events : List Event) : Result :=
  let r := (Record.fresh env).fill mid buf count size flag (env.calloc count)
  if env.calloc count = 0 then
    r.err env.malloc .nomemError events
  else
    let (hret, bulks) := createHandles env buf size flag count 0
    let r := { r with array := fun i => bulks.getD i null }
    let events := events ++ (Resource.block (env.calloc count) :: bulks.map .bulk).map .acquire
    if hret ≠ .success then r.err env.malloc hret events else createSync env r bulks events

/-- `margo_bulk_pool_create`. -/
def margoBulkPoolCreate (env : Env) (mid count size flag : Nat) : Result :=
  if count ≠ 0 ∧ size > (2 ^ 64 - 1) / count then
    ⟨.invalidArg, none, []⟩
  else if env.malloc = 0 then
    ⟨.nomemError, none, []⟩
  else
    match env.memalign 4096 (SizeT.mul size count) with
    | none => (Record.fresh env).err env.malloc .nomemError
        [.acquire (.block env.malloc)]
    | some buf =>
        createBulks env mid buf count size flag
          (.acquire (.block env.malloc) :: (blockAt buf).map .acquire)

/-! ## What an error path undoes -/

/-- The resources acquired, in order. -/
def acquired (es : List Event) : List Resource :=
  es.filterMap fun | .acquire r => some r | _ => none

/-- The resources released, in order. -/
def released (es : List Event) : List Resource :=
  es.filterMap fun | .release r => some r | _ => none

/-- A creation failed and released what it had acquired, each thing once, and
read no field before it wrote it. -/
structure Undone (res : Result) : Prop where
  code_ne : res.code ≠ .success
  pool_eq : res.pool = none
  balanced : (released res.events).Perm (acquired res.events)
  clean : ∀ f, .readUnwritten f ∉ res.events

@[simp] theorem acquired_append (es es' : List Event) :
    acquired (es ++ es') = acquired es ++ acquired es' := List.filterMap_append

@[simp] theorem released_append (es es' : List Event) :
    released (es ++ es') = released es ++ released es' := List.filterMap_append

@[simp] theorem acquired_map_acquire (rs : List Resource) : acquired (rs.map .acquire) = rs := by
  rw [acquired, List.filterMap_map]
  exact List.filterMap_some

@[simp] theorem released_map_acquire (rs : List Resource) : released (rs.map .acquire) = [] := by
  rw [released, List.filterMap_map]
  exact List.filterMap_none rs

@[simp] theorem acquired_map_release (rs : List Resource) : acquired (rs.map .release) = [] := by
  rw [acquired, List.filterMap_map]
  exact List.filterMap_none rs

@[simp] theorem released_map_release (rs : List Resource) : released (rs.map .release) = rs := by
  rw [released, List.filterMap_map]
  exact List.filterMap_some

/-- The handles created before the loop stops are not null, and are as many as
the entries if it does not stop early. -/
theorem createHandles_spec (env : Env) (buf size flag n i : Nat) :
    null ∉ (createHandles env buf size flag n i).2 ∧
      (createHandles env buf size flag n i).2.length ≤ n := by
  induction n generalizing i with
  | zero => exact ⟨List.not_mem_nil, Nat.le_refl 0⟩
  | succ n ih =>
      rw [createHandles]
      split
      · next b hb =>
          have hne : b ≠ null := by
            have h := env.bulkCreate_ne_null i (buf + SizeT.mul i size) size flag
            rw [hb] at h
            exact h rfl
          exact ⟨List.not_mem_cons_of_ne_of_not_mem hne.symm (ih (i + 1)).1,
            Nat.succ_le_succ (ih (i + 1)).2⟩
      · exact ⟨List.not_mem_nil, Nat.zero_le _⟩

theorem Record.read_of_written {r : Record} {f : Field} (h : r.written f = true) :
    r.read f = [] := if_pos h

/-- The loop frees the handles that were created and stops at the first null
entry or at the end of the array. -/
theorem Record.freeHandles_eq {r : Record} (hbulks : r.written .bulks = true)
    (hcount : r.written .count = true) {bs : List Handle} (hne : null ∉ bs) {n i : Nat}
    (hn : bs.length ≤ n) (harray : ∀ j, r.array (i + j) = bs.getD j null) :
    r.freeHandles n i = (bs.map .bulk).map .release := by
  induction n generalizing bs i with
  | zero =>
      rw [List.length_eq_zero_iff.mp (Nat.le_zero.mp hn), freeHandles, read_of_written hcount]
      rfl
  | succ n ih =>
      have hfirst : r.array i = bs.getD 0 null := harray 0
      rw [freeHandles, read_of_written hcount, read_of_written hbulks, hfirst]
      cases bs with
      | nil => rfl
      | cons b bs =>
          obtain ⟨hb, hrest⟩ := not_or.mp (mt List.mem_cons.mpr hne)
          have hrec : r.freeHandles n (i + 1) = (bs.map .bulk).map .release := by
            refine ih hrest (Nat.le_of_succ_le_succ hn) fun j => ?_
            rw [Nat.add_assoc, Nat.add_comm 1 j, harray (j + 1), List.getD_cons_succ]
          rw [List.getD_cons_zero, if_pos (Ne.symm hb), hrec]
          rfl

/-- The resources that a structure with an array and a buffer stands for. -/
def owned (address buf bulks : Nat) (bs : List Handle) : List Resource :=
  bs.map .bulk ++ blockAt bulks ++ blockAt buf ++ [.block address]

theorem owned_perm {bulks : Nat} (h : bulks ≠ 0) (address buf : Nat) (bs : List Handle) :
    (owned address buf bulks bs).Perm
      (owned address buf 0 [] ++ (.block bulks :: bs.map .bulk)) := by
  have hempty : owned address buf 0 [] = blockAt buf ++ [.block address] := rfl
  have hnew : (bs.map Resource.bulk ++ blockAt bulks).Perm (.block bulks :: bs.map .bulk) := by
    rw [blockAt_of_ne h]
    exact List.perm_append_singleton _ _
  rw [hempty, owned, List.append_assoc]
  exact List.perm_append_comm.trans (hnew.append_left _)

/-- A structure whose array and buffer are written. -/
structure Record.Written (r : Record) (buf bulks : Nat) (bs : List Handle) : Prop where
  written_bulks : r.written .bulks = true
  written_count : r.written .count = true
  written_buf : r.written .buf = true
  bulks_eq : r.value .bulks = bulks
  buf_eq : r.value .buf = buf
  ne_null : null ∉ bs
  length_le : bs.length ≤ r.value .count
  array_eq : bulks ≠ 0 → r.array = fun i => bs.getD i null
  eq_nil : bulks = 0 → bs = []

/-- Once the fields are written, the error path releases what they stand for. -/
theorem Record.Written.undo {r : Record} {buf bulks : Nat} {bs : List Handle}
    (hr : r.Written buf bulks bs) (address : Nat) :
    r.undo address = (owned address buf bulks bs).map .release := by
  have hbuf : (if buf ≠ 0 then [Event.release (.block buf)] else []) =
      (blockAt buf).map .release := by
    unfold blockAt
    split <;> rfl
  rw [Record.undo, read_of_written hr.written_bulks, read_of_written hr.written_buf, hr.bulks_eq,
    hr.buf_eq, List.nil_append, List.nil_append, hbuf, owned, List.map_append, List.map_append]
  by_cases h : bulks = 0
  · rw [hr.eq_nil h, if_neg (not_not.mpr h), h]
    rfl
  · have hloop : r.freeHandles (r.value .count) 0 = (bs.map .bulk).map .release := by
      refine freeHandles_eq hr.written_bulks hr.written_count hr.ne_null hr.length_le fun j => ?_
      rw [hr.array_eq h, Nat.zero_add]
    rw [if_pos h, hloop, List.append_nil, List.append_nil, blockAt_of_ne h, List.map_append]
    rfl

/-- An error path that releases what was acquired undoes the creation. -/
theorem Record.Written.undone_err {r : Record} {address buf bulks : Nat} {bs : List Handle}
    (hr : r.Written buf bulks bs) {es : List Event} {code : HgReturn} (hcode : code ≠ .success)
    (hes : (released es ++ owned address buf bulks bs).Perm (acquired es))
    (hclean : ∀ f, .readUnwritten f ∉ es) : Undone (r.err address code es) where
  code_ne := hcode
  pool_eq := rfl
  balanced := by
    rw [Record.err, hr.undo]
    simpa using hes
  clean f hf := by
    rw [Record.err, hr.undo] at hf
    obtain hf | hf := List.mem_append.mp hf
    · exact hclean f hf
    · obtain ⟨_, _, h⟩ := List.mem_map.mp hf
      cases h

/-! ## The failures of a creation -/

/-- The buffer is not allocated, after the structure was. -/
def MemalignFails (env : Env) (count size : Nat) : Prop :=
  ¬(count ≠ 0 ∧ size > (2 ^ 64 - 1) / count) ∧ env.malloc ≠ 0 ∧
    env.memalign 4096 (SizeT.mul size count) = none

/-- With the buffer, the fields that the error path reads are written. -/
theorem written_fill (env : Env) (mid buf count size flag bulks : Nat) {array : Nat → Handle}
    {bs : List Handle} (hne : null ∉ bs) (hlength : bs.length ≤ count)
    (harray : bulks ≠ 0 → array = fun i => bs.getD i null) (hnil : bulks = 0 → bs = []) :
    ({ (Record.fresh env).fill mid buf count size flag bulks with array := array } :
      Record).Written buf bulks bs where
  written_bulks := rfl
  written_count := rfl
  written_buf := rfl
  bulks_eq := rfl
  buf_eq := rfl
  ne_null := hne
  length_le := hlength
  array_eq := harray
  eq_nil := hnil

theorem Record.Written.set_mutex {r : Record} {buf bulks : Nat} {bs : List Handle}
    (hr : r.Written buf bulks bs) (mutex : Nat) : (r.set .mutex mutex).Written buf bulks bs :=
  { hr with }

theorem Record.Written.undone_createSync {env : Env} {r : Record} {buf bulks : Nat}
    {bs : List Handle} (hr : r.Written buf bulks bs) {es : List Event}
    (hes : (released es ++ owned env.malloc buf bulks bs).Perm (acquired es))
    (hclean : ∀ f, .readUnwritten f ∉ es) (hfail : (createSync env r bs es).code ≠ .success) :
    Undone (createSync env r bs es) := by
  unfold createSync at hfail ⊢
  cases hmutex : env.mutexCreate with
  | none => exact hr.undone_err nofun hes hclean
  | some mutex =>
      cases hcond : env.condCreate with
      | none =>
          have hread : (r.set .mutex mutex).read .mutex = [] := rfl
          simp only [hread]
          refine (hr.set_mutex mutex).undone_err nofun ?_ ?_
          · have hreleased : released (es ++ [.acquire .mutex] ++ [] ++ [.release .mutex]) =
                released es ++ [.mutex] := by
              rw [released_append, released_append, released_append]
              simp [released]
            have hacquired : acquired (es ++ [.acquire .mutex] ++ [] ++ [.release .mutex]) =
                acquired es ++ [.mutex] := by
              rw [acquired_append, acquired_append, acquired_append]
              simp [acquired]
            rw [hreleased, hacquired, List.append_assoc]
            exact (List.perm_append_comm.append_left _).trans
              (List.append_assoc .. ▸ hes.append_right _)
          · simpa using hclean
      | some cond => simp [hmutex, hcond] at hfail

theorem undone_createBulks {env : Env} {mid buf count size flag : Nat} {es : List Event}
    (hes : (released es ++ owned env.malloc buf 0 []).Perm (acquired es))
    (hclean : ∀ f, .readUnwritten f ∉ es)
    (hfail : (createBulks env mid buf count size flag es).code ≠ .success) :
    Undone (createBulks env mid buf count size flag es) := by
  unfold createBulks at hfail ⊢
  by_cases hcalloc : env.calloc count = 0
  · simp only [hcalloc, ↓reduceIte]
    exact (written_fill env mid buf count size flag 0 List.not_mem_nil (Nat.zero_le _)
      (absurd rfl) fun _ => rfl).undone_err nofun hes hclean
  · simp only [if_neg hcalloc] at hfail ⊢
    obtain ⟨hne, hlength⟩ := createHandles_spec env buf size flag count 0
    generalize createHandles env buf size flag count 0 = result at hne hlength hfail ⊢
    obtain ⟨hret, bs⟩ := result
    have hr := written_fill env mid buf count size flag (env.calloc count) hne hlength
      (fun _ => rfl) (absurd · hcalloc)
    have hes' : (released
          (es ++ (Resource.block (env.calloc count) :: bs.map .bulk).map .acquire) ++
        owned env.malloc buf (env.calloc count) bs).Perm
        (acquired (es ++ (Resource.block (env.calloc count) :: bs.map .bulk).map .acquire)) := by
      rw [released_append, acquired_append, released_map_acquire, acquired_map_acquire,
        List.append_nil]
      calc
        (released es ++ owned env.malloc buf (env.calloc count) bs).Perm
            (released es ++ (owned env.malloc buf 0 [] ++
              (.block (env.calloc count) :: bs.map .bulk))) :=
          (owned_perm hcalloc _ _ _).append_left _
        _ |>.Perm (acquired es ++ (.block (env.calloc count) :: bs.map .bulk)) := by
          rw [← List.append_assoc]
          exact hes.append_right _
    have hclean' : ∀ f, .readUnwritten f ∉
        es ++ (Resource.block (env.calloc count) :: bs.map .bulk).map .acquire := by
      intro f
      simpa using hclean f
    by_cases hsuccess : hret = .success
    · simp only [hsuccess, ne_eq, not_true_eq_false, ↓reduceIte] at hfail ⊢
      exact hr.undone_createSync hes' hclean' hfail
    · simp only [ne_eq, hsuccess, not_false_eq_true, ↓reduceIte] at hfail ⊢
      exact hr.undone_err hsuccess hes' hclean'

/-- A creation that fails undoes what was done, unless it was the allocation of
the buffer that failed. -/
theorem create_undone_iff {env : Env} {mid count size flag : Nat}
    (hfail : (margoBulkPoolCreate env mid count size flag).code ≠ .success) :
    Undone (margoBulkPoolCreate env mid count size flag) ↔ ¬MemalignFails env count size := by
  unfold MemalignFails
  unfold margoBulkPoolCreate at hfail ⊢
  by_cases hguard : count ≠ 0 ∧ size > (2 ^ 64 - 1) / count
  · rw [if_pos hguard]
    refine iff_of_true ⟨nofun, rfl, List.Perm.refl _, fun _ => List.not_mem_nil⟩ ?_
    exact fun h => h.1 hguard
  rw [if_neg hguard] at hfail ⊢
  by_cases hmalloc : env.malloc = 0
  · rw [if_pos hmalloc]
    refine iff_of_true ⟨nofun, rfl, List.Perm.refl _, fun _ => List.not_mem_nil⟩ ?_
    exact fun h => h.2.1 hmalloc
  rw [if_neg hmalloc] at hfail ⊢
  cases hmemalign : env.memalign 4096 (SizeT.mul size count) with
  | none =>
      -- The error path starts with a read of `bulks`.
      refine iff_of_false (fun h => h.clean .bulks ?_) (not_not.mpr ⟨hguard, hmalloc, rfl⟩)
      simp [Record.err, Record.undo, Record.read, Record.fresh]
  | some buf =>
      rw [hmemalign] at hfail
      refine iff_of_true (undone_createBulks ?_ ?_ hfail) (fun h => Option.some_ne_none _ h.2.2)
      · have hevents : (.acquire (.block env.malloc) :: (blockAt buf).map .acquire : List Event) =
            (.block env.malloc :: blockAt buf).map .acquire := rfl
        rw [hevents, released_map_acquire, acquired_map_acquire]
        exact List.perm_append_singleton _ _
      · simp

/-! ## The pool that is created -/

/-- The loop that does not stop early creates one handle for each segment. -/
theorem createHandles_success {env : Env} {buf size flag n i : Nat} {bs : List Handle}
    (h : createHandles env buf size flag n i = (.success, bs)) :
    bs.length = n ∧ ∀ j b, bs[j]? = some b →
      env.bulkCreate (i + j) (buf + SizeT.mul (i + j) size) size flag = (.success, b) := by
  induction n generalizing i bs with
  | zero =>
      obtain rfl : [] = bs := (Prod.ext_iff.mp h).2
      exact ⟨rfl, nofun⟩
  | succ n ih =>
      rw [createHandles] at h
      split at h
      · next b hb =>
          obtain ⟨hret, bs', hrec⟩ : ∃ hret bs',
              createHandles env buf size flag n (i + 1) = (hret, bs') := ⟨_, _, rfl⟩
          rw [hrec] at h
          obtain ⟨rfl, rfl⟩ := Prod.mk.injEq .. ▸ h
          obtain ⟨hlength, hrest⟩ := ih hrec
          refine ⟨congrArg Nat.succ hlength, fun j b' hj => ?_⟩
          cases j with
          | zero => exact Option.some.inj hj ▸ hb
          | succ j => exact Nat.add_right_comm i 1 j ▸ hrest j b' hj
      · next hne _ => exact (hne (Prod.ext_iff.mp h).1).elim

theorem createSync_success {env : Env} {r : Record} {bs : List Handle} {es : List Event}
    (h : (createSync env r bs es).code = .success) :
    (createSync env r bs es).pool = some ⟨r.value .buf, bs, r.value .count, r.value .size,
      r.value .numFree, r.value .flag⟩ := by
  unfold createSync at h ⊢
  cases hmutex : env.mutexCreate with
  | none => simp [hmutex, Record.err] at h
  | some mutex =>
      cases hcond : env.condCreate with
      | none => simp [hmutex, hcond, Record.err] at h
      | some cond => rfl

/-- A creation that succeeds gives a pool with all its entries free, one for
each segment of its buffer. -/
theorem create_success {env : Env} {mid count size flag : Nat}
    (h : (margoBulkPoolCreate env mid count size flag).code = .success) :
    ∃ buf bs, (margoBulkPoolCreate env mid count size flag).pool =
        some (Pool.created buf size flag bs) ∧
      size * count < 2 ^ 64 ∧ createHandles env buf size flag count 0 = (.success, bs) := by
  unfold margoBulkPoolCreate at h ⊢
  by_cases hguard : count ≠ 0 ∧ size > (2 ^ 64 - 1) / count
  · rw [if_pos hguard] at h
    cases h
  rw [if_neg hguard] at h ⊢
  by_cases hmalloc : env.malloc = 0
  · rw [if_pos hmalloc] at h
    cases h
  rw [if_neg hmalloc] at h ⊢
  have hfits : size * count < 2 ^ 64 := by
    by_cases hcount : count = 0
    · simp [hcount]
    · have hle : size ≤ (2 ^ 64 - 1) / count := Nat.le_of_not_lt fun hlt => hguard ⟨hcount, hlt⟩
      have := (Nat.le_div_iff_mul_le (Nat.pos_of_ne_zero hcount)).mp hle
      omega
  cases hmemalign : env.memalign 4096 (SizeT.mul size count) with
  | none =>
      rw [hmemalign] at h
      cases h
  | some buf =>
      rw [hmemalign] at h
      dsimp only at h ⊢
      unfold createBulks at h ⊢
      by_cases hcalloc : env.calloc count = 0
      · rw [if_pos hcalloc] at h
        cases h
      simp only [if_neg hcalloc] at h ⊢
      cases hloop : createHandles env buf size flag count 0 with
      | mk hret bs =>
          rw [hloop] at h
          by_cases hsuccess : hret = .success
          · simp only [hsuccess, ne_eq, not_true_eq_false, ↓reduceIte] at h ⊢
            refine ⟨buf, bs, ?_, hfits, hsuccess ▸ hloop⟩
            have hlength : bs.length = count := (createHandles_success (hsuccess ▸ hloop)).1
            rw [createSync_success h, ← hlength]
            rfl
          · simp only [ne_eq, hsuccess, not_false_eq_true, ↓reduceIte] at h
            exact absurd h hsuccess

/-- What is documented of `margo_bulk_create`: each handle is new, and stands for
the segment it was created for. -/
structure Documented (hg : Mercury) (env : Env) : Prop where
  distinct : ∀ i j ptr ptr' size flag b, env.bulkCreate i ptr size flag = (.success, b) →
    env.bulkCreate j ptr' size flag = (.success, b) → i = j
  getSize : ∀ i ptr size flag b, env.bulkCreate i ptr size flag = (.success, b) →
    hg.getSize b = size
  access : ∀ i ptr size flag b, env.bulkCreate i ptr size flag = (.success, b) →
    hg.access b 0 size flag = some (ptr, size)

/-- The handles of a pool that was created are registered for its segments. -/
theorem create_registered {hg : Mercury} {env : Env} (hdoc : Documented hg env)
    {mid count size flag : Nat} (hcount : count < 2 ^ 64)
    (h : (margoBulkPoolCreate env mid count size flag).code = .success) :
    ∃ buf bs, (margoBulkPoolCreate env mid count size flag).pool =
        some (Pool.created buf size flag bs) ∧
      bs.length = count ∧ Registered hg buf size flag bs := by
  obtain ⟨buf, bs, hpool, hfits, hloop⟩ := create_success h
  obtain ⟨hlength, hcreate⟩ := createHandles_success hloop
  simp only [Nat.zero_add] at hcreate
  have hne : null ∉ bs := by
    have hspec := createHandles_spec env buf size flag count 0
    rw [hloop] at hspec
    exact hspec.1
  refine ⟨buf, bs, hpool, hlength, ?_, hne, hlength ▸ hfits, hlength ▸ hcount, ?_, ?_⟩
  · refine List.nodup_iff_getElem?_ne_getElem?.mpr fun i j hij hj heq => ?_
    obtain ⟨b, hb⟩ : ∃ b, bs[j]? = some b := ⟨_, List.getElem?_eq_getElem hj⟩
    exact Nat.ne_of_lt hij
      (hdoc.distinct _ _ _ _ _ _ _ (hcreate i b (heq.trans hb)) (hcreate j b hb))
  · intro b hb
    obtain ⟨i, hi⟩ := List.mem_iff_getElem?.mp hb
    exact hdoc.getSize _ _ _ _ _ (hcreate i b hi)
  · intro i b hi
    have hlt : i < count := hlength ▸ (List.getElem?_eq_some_iff.mp hi).1
    have hmul : SizeT.mul i size = i * size := by
      have hle : i * size ≤ size * count := by
        rw [Nat.mul_comm size]
        exact Nat.mul_le_mul_right size (Nat.le_of_lt hlt)
      exact SizeT.mul_of_lt (by omega)
    rw [← hmul]
    exact hdoc.access _ _ _ _ _ (hcreate i b hi)

/-! ## Poolsets -/

/-- `struct margo_bulk_poolset`. -/
structure Poolset where
  pools : List Pool
  npools : Nat
  nbufs : Nat
  firstSize : Nat
  sizeMultiple : Nat
  deriving DecidableEq, Repr

/-- The results of the calls of the creation of a poolset. -/
structure SetEnv where
  /-- The structure, from `calloc`. -/
  callocSet : Nat
  /-- The array of the pools, from `calloc`. -/
  callocPools : Nat
  /-- The creation of the pool with some index. -/
  create : Nat → Env

/-- How the creation of a poolset ends, and which pools it destroyed. -/
structure SetResult where
  code : HgReturn
  poolset : Option Poolset
  destroyed : List Pool
  /-- What was done to the structure and its array. -/
  events : List Event
  deriving DecidableEq, Repr

/-- The loop over the pools, with the number of pools left, the index and the
size: the pools created, and the code of the creation it stopped at. -/
def createPools (env : SetEnv) (mid nbufs sizeMultiple flag : Nat) :
    Nat → Nat → Nat → HgReturn × List Pool
  | 0, _, _ => (.success, [])
  | n + 1, i, size =>
      let result := margoBulkPoolCreate (env.create i) mid nbufs size flag
      if result.code ≠ .success then
        (result.code, [])
      else
        let (hret, ps) := createPools env mid nbufs sizeMultiple flag n (i + 1)
          (SizeT.mul size sizeMultiple)
        (hret, result.pool.toList ++ ps)

/-- `margo_bulk_poolset_create`, whose arguments have passed its assertion. The
pools with an index below that of the creation that failed are destroyed. -/
def margoBulkPoolsetCreate (env : SetEnv) (mid npools nbufs firstSize sizeMultiple flag : Nat) :
    SetResult :=
  let s := Resource.block env.callocSet
  let pools := Resource.block env.callocPools
  if env.callocSet = 0 then
    ⟨.nomemError, none, [], []⟩
  else if env.callocPools = 0 then
    ⟨.nomemError, none, [], [.acquire s, .release s]⟩
  else
    let (hret, ps) := createPools env mid nbufs sizeMultiple flag npools 0 firstSize
    if hret ≠ .success then
      ⟨hret, none, ps, [.acquire s, .acquire pools, .release pools, .release s]⟩
    else
      ⟨.success, some ⟨ps, npools, nbufs, firstSize, sizeMultiple⟩, [],
        [.acquire s, .acquire pools]⟩

/-- The size of the buffers of the pool with some index. -/
def sizeAt (firstSize sizeMultiple : Nat) : Nat → Nat
  | 0 => firstSize
  | i + 1 => SizeT.mul (sizeAt firstSize sizeMultiple i) sizeMultiple

/-- The creation of the pool with some index. -/
def SetEnv.result (env : SetEnv) (mid nbufs firstSize sizeMultiple flag i : Nat) : Result :=
  margoBulkPoolCreate (env.create i) mid nbufs (sizeAt firstSize sizeMultiple i) flag

variable {env : SetEnv} {mid npools nbufs firstSize sizeMultiple flag : Nat}

/-- The pools created are those with the first indices, up to the end or to the
first creation that fails. -/
theorem createPools_spec (n i : Nat) {hret : HgReturn} {ps : List Pool}
    (h : createPools env mid nbufs sizeMultiple flag n i (sizeAt firstSize sizeMultiple i) =
      (hret, ps)) :
    (∀ j, j < ps.length →
      (env.result mid nbufs firstSize sizeMultiple flag (i + j)).code = .success ∧
        (env.result mid nbufs firstSize sizeMultiple flag (i + j)).pool = ps[j]?) ∧
      (hret = .success → ps.length = n) ∧
      (hret ≠ .success → ps.length < n ∧
        (env.result mid nbufs firstSize sizeMultiple flag (i + ps.length)).code = hret) := by
  induction n generalizing i ps with
  | zero =>
      obtain ⟨rfl, rfl⟩ := Prod.mk.injEq .. ▸ h
      exact ⟨nofun, fun _ => rfl, fun h => absurd rfl h⟩
  | succ n ih =>
      have hresult : margoBulkPoolCreate (env.create i) mid nbufs
          (sizeAt firstSize sizeMultiple i) flag =
          env.result mid nbufs firstSize sizeMultiple flag i := rfl
      rw [createPools, hresult] at h
      by_cases hcode : (env.result mid nbufs firstSize sizeMultiple flag i).code = .success
      · obtain ⟨buf, bs, hpool, -, -⟩ := create_success hcode
        obtain ⟨hret', ps', hrec⟩ : ∃ hret' ps', createPools env mid nbufs sizeMultiple flag n
            (i + 1) (sizeAt firstSize sizeMultiple (i + 1)) = (hret', ps') := ⟨_, _, rfl⟩
        have hsize : SizeT.mul (sizeAt firstSize sizeMultiple i) sizeMultiple =
            sizeAt firstSize sizeMultiple (i + 1) := rfl
        rw [← hresult] at h
        simp only [hresult, hcode, ne_eq, not_true_eq_false, ↓reduceIte, hsize, hrec] at h
        obtain ⟨rfl, rfl⟩ := Prod.mk.injEq .. ▸ h
        obtain ⟨hpools, hall, hstop⟩ := ih (i + 1) hrec
        have hpool' : (env.result mid nbufs firstSize sizeMultiple flag i).pool.toList =
            [Pool.created buf (sizeAt firstSize sizeMultiple i) flag bs] := by
          rw [SetEnv.result, hpool]
          rfl
        rw [hpool', List.singleton_append, List.length_cons]
        refine ⟨fun j hj => ?_, fun h => congrArg Nat.succ (hall h), fun h => ?_⟩
        · cases j with
          | zero => exact ⟨hcode, hpool⟩
          | succ j => exact Nat.add_right_comm i 1 j ▸ hpools j (Nat.lt_of_succ_lt_succ hj)
        · obtain ⟨hlt, hcode'⟩ := hstop h
          exact ⟨Nat.succ_lt_succ hlt, Nat.add_right_comm i 1 ps'.length ▸ hcode'⟩
      · rw [if_pos hcode] at h
        obtain ⟨rfl, rfl⟩ := Prod.mk.injEq .. ▸ h
        exact ⟨nofun, fun h => absurd h hcode, fun _ => ⟨Nat.succ_pos n, rfl⟩⟩

/-- The creation of a poolset stops at the pool with some index: it has allocated
nothing to put pools into, or the creation of that pool is the first to fail. -/
def StopsAt (env : SetEnv) (mid npools nbufs firstSize sizeMultiple flag i : Nat) : Prop :=
  ((env.callocSet = 0 ∨ env.callocPools = 0) ∧ i = 0) ∨
    (i < npools ∧ (env.result mid nbufs firstSize sizeMultiple flag i).code ≠ .success ∧
      ∀ j < i, (env.result mid nbufs firstSize sizeMultiple flag j).code = .success)

/-- The creation of a poolset failed and destroyed the pools with a lower index. -/
structure SetUndone (env : SetEnv) (mid nbufs firstSize sizeMultiple flag i : Nat)
    (res : SetResult) : Prop where
  code_ne : res.code ≠ .success
  poolset_eq : res.poolset = none
  balanced : (released res.events).Perm (acquired res.events)
  destroyed : res.destroyed.map some =
    (List.range i).map fun j => (env.result mid nbufs firstSize sizeMultiple flag j).pool

theorem poolsetCreate_undone
    (hfail : (margoBulkPoolsetCreate env mid npools nbufs firstSize sizeMultiple flag).code ≠
      .success) :
    ∃ i, StopsAt env mid npools nbufs firstSize sizeMultiple flag i ∧
      SetUndone env mid nbufs firstSize sizeMultiple flag i
        (margoBulkPoolsetCreate env mid npools nbufs firstSize sizeMultiple flag) := by
  unfold margoBulkPoolsetCreate at hfail ⊢
  by_cases hset : env.callocSet = 0
  · simp only [if_pos hset]
    exact ⟨0, .inl ⟨.inl hset, rfl⟩, nofun, rfl, List.Perm.refl _, rfl⟩
  by_cases hpools : env.callocPools = 0
  · simp only [if_neg hset, if_pos hpools]
    exact ⟨0, .inl ⟨.inr hpools, rfl⟩, nofun, rfl, List.Perm.refl _, rfl⟩
  simp only [if_neg hset, if_neg hpools] at hfail ⊢
  obtain ⟨hret, ps, hloop⟩ : ∃ hret ps, createPools env mid nbufs sizeMultiple flag npools 0
      (sizeAt firstSize sizeMultiple 0) = (hret, ps) := ⟨_, _, rfl⟩
  have hsize : sizeAt firstSize sizeMultiple 0 = firstSize := rfl
  obtain ⟨hcreated, -, hstop⟩ := createPools_spec npools 0 hloop
  simp only [Nat.zero_add] at hcreated hstop
  rw [hsize] at hloop
  simp only [hloop] at hfail ⊢
  by_cases hcode : hret = .success
  · simp [hcode] at hfail
  · obtain ⟨hlt, hlast⟩ := hstop hcode
    simp only [ne_eq, hcode, not_false_eq_true, ↓reduceIte]
    refine ⟨ps.length, .inr ⟨hlt, hlast ▸ hcode, fun j hj => (hcreated j hj).1⟩, hcode, rfl,
      List.Perm.swap _ _ _, ?_⟩
    refine List.ext_getElem (by simp) fun j hj _ => ?_
    have hj : j < ps.length := by simpa using hj
    simp [(hcreated j hj).2]

/-- The creation of a pool that fails undoes what was done exactly if it is not
the allocation of the buffer that failed; the creation of a poolset that fails
destroys the pools it created. -/
theorem failed_creations_undone (env : Env) (env' : SetEnv) (mid count size flag : Nat)
    (npools nbufs firstSize sizeMultiple : Nat) :
    ((margoBulkPoolCreate env mid count size flag).code ≠ .success →
      (Undone (margoBulkPoolCreate env mid count size flag) ↔ ¬MemalignFails env count size)) ∧
    ((margoBulkPoolsetCreate env' mid npools nbufs firstSize sizeMultiple flag).code ≠ .success →
      ∃ i, StopsAt env' mid npools nbufs firstSize sizeMultiple flag i ∧
        SetUndone env' mid nbufs firstSize sizeMultiple flag i
          (margoBulkPoolsetCreate env' mid npools nbufs firstSize sizeMultiple flag)) :=
  ⟨create_undone_iff, poolsetCreate_undone⟩

/-- Everything succeeds but the creation of the handle with some index. -/
def Env.refusing (k : Nat) : Env where
  malloc := 64
  stale _ := 0
  staleBulks _ := null
  memalign _ _ := some 4096
  calloc _ := 128
  bulkCreate i _ _ _ := if i = k then (.nomemError, null) else (.success, i + 1)
  bulkCreate_ne_null i _ _ _ := by
    split
    · nofun
    · exact fun _ => Nat.succ_ne_zero i
  mutexCreate := some 1
  condCreate := some 2

/-- The pools of a set whose second pool cannot be created. -/
def SetEnv.refusing : SetEnv := ⟨32, 48, fun i => .refusing (4 - 2 * i)⟩

/-- The third of four handles is refused, and so the second of two pools. -/
theorem failed_creations_undone_refusing :
    Undone (margoBulkPoolCreate (.refusing 2) 0 4 8 0) ∧
      ∃ i, StopsAt .refusing 0 2 4 8 2 0 i ∧
        SetUndone .refusing 0 4 8 2 0 i (margoBulkPoolsetCreate .refusing 0 2 4 8 2 0) := by
  obtain ⟨hpool, hset⟩ := failed_creations_undone (.refusing 2) .refusing 0 4 8 0 2 4 8 2
  refine ⟨(hpool (by decide)).mpr ?_, hset (by decide)⟩
  exact fun h => Option.some_ne_none _ h.2.2

/-- The buffer cannot be allocated, and the structure has arbitrary contents. -/
def Env.exhausted : Env := { Env.refusing 0 with memalign := fun _ _ => none, stale := fun _ => 7 }

/-- Without a buffer, the error path reads fields that nobody has written. -/
theorem not_failed_creations_undone :
    ¬∀ (env : Env) (mid count size flag : Nat),
      (margoBulkPoolCreate env mid count size flag).code ≠ .success →
        Undone (margoBulkPoolCreate env mid count size flag) := by
  intro h
  have hfail : (margoBulkPoolCreate .exhausted 0 1 8 0).code ≠ .success := by decide
  exact (create_undone_iff hfail).mp (h .exhausted 0 1 8 0 hfail) ⟨by decide, by decide, rfl⟩

end Margo.Bulk
