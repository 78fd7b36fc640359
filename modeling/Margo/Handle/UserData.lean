import Margo.Handle.Conservation
import Mathlib.Data.List.Flatten
import Mathlib.Data.List.Nodup

/-!
# The user data of the handles

`margo_set_data` attaches a pointer and a free callback to the data of a handle. Three
functions end the life of what is attached: the next `margo_set_data`, the recycling of a
cached handle, and Mercury when it destroys a handle. A cached handle keeps its data from
one use to the next, with its fields set to zero.

## Implementation notes

The calls of one client follow each other, each on the shared state of the handle cache: a
call is a run of the program of a thread that is alone. A use of a handle has one reference.
The user fields of the data of a handle stand beside the model of the cache. A data pointer
is `none` if it is null. The arena of the handle data gives out zeroed objects.
-/

namespace Margo.Handle.User

open Function Lib.Runs
open scoped List

variable {δ Φ : Type}

/-- The fields `user_data` and `user_free_callback` of `struct margo_handle_data`. -/
structure UserData (δ Φ : Type) where
  userData : Option δ
  userFreeCallback : Option Φ
  deriving DecidableEq, Repr

/-- The fields in zeroed memory. -/
def UserData.zero : UserData δ Φ := ⟨none, none⟩

/-- `if (user_free_callback) user_free_callback(user_data)`: the call, if there is one. -/
def UserData.runFree (user : UserData δ Φ) : List (Φ × Option δ) :=
  user.userFreeCallback.toList.map fun callback => (callback, user.userData)

/-- The handles, with their user data and the calls of free callbacks so far. -/
structure Instance (δ Φ : Type) where
  shared : Shared
  user : Nat → UserData δ Φ
  calls : List (Φ × Option δ)

/-- What Mercury answers during a call of `margo_create`. -/
structure Answers where
  reset : Bool
  create : Bool
  /-- The information on the handle and its registered data are there. -/
  registered : Bool
  setData : Bool
  deriving DecidableEq, Repr

/-! ## Creating handles -/

/-- `__margo_handle_cache_get`. -/
def handleCacheGet (m : Shared) (reset : Bool) : Option Nat × Shared :=
  match m.freeHandleList with
  | [] => (none, m)
  | el :: rest =>
      if reset then (some (m.handle el), { m with freeHandleList := rest })
      -- the element is put back where it was
      else (none, m)

/-- `__margo_internal_set_handle_data`, as it ends a call of `margo_create`. -/
def internalSetHandleData (mid : Instance δ Φ) (handle : Nat) (answers : Answers) :
    Option Nat × Instance δ Φ :=
  if answers.registered then
    match mid.shared.data handle with
    | some _ => (some handle, { mid with shared := mid.shared.setHandleData handle })
    | none =>
        if answers.setData then
          (some handle, { mid with
            shared := mid.shared.setHandleData handle
            user := update mid.user handle .zero })
        else (none, mid)
  else
    (none, { mid with
      shared := { mid.shared with
        lost := mid.shared.lost ++
          (mid.shared.data handle).toList.flatMap (·.cacheEl.toList) } })

/-- The part of `margo_create` without a cached handle: `HG_Create` and the data. -/
def createNew (mid : Instance δ Φ) (answers : Answers) : Option Nat × Instance δ Φ :=
  if answers.create then
    let handle := mid.shared.nextHandle
    let shared := { mid.shared with
      refCount := update mid.shared.refCount handle 1
      data := update mid.shared.data handle none
      nextHandle := handle + 1 }
    internalSetHandleData { mid with shared := shared } handle answers
  else (none, mid)

/-- `margo_create`: the handle, if it succeeds, and the handles afterwards. -/
def margoCreate (mid : Instance δ Φ) (answers : Answers) : Option Nat × Instance δ Φ :=
  match handleCacheGet mid.shared answers.reset with
  | (some handle, m) => internalSetHandleData { mid with shared := m } handle answers
  | (none, m) => createNew { mid with shared := m } answers

/-! ## User data -/

/-- `margo_get_data`. -/
def margoGetData (mid : Instance δ Φ) (handle : Nat) : Option δ :=
  match mid.shared.data handle with
  | none => none
  | some _ => (mid.user handle).userData

/-- `margo_set_data`: whether it returns `HG_SUCCESS`, and the handles afterwards. -/
def margoSetData (mid : Instance δ Φ) (handle : Nat) (data : Option δ)
    (freeCallback : Option Φ) : Bool × Instance δ Φ :=
  match mid.shared.data handle with
  | none => (false, mid)
  | some _ =>
      (true, { mid with
        user := update mid.user handle ⟨data, freeCallback⟩
        calls := mid.calls ++ (mid.user handle).runFree })

/-! ## Destroying handles -/

/-- `HG_Destroy`: `__margo_handle_data_free` runs with the last reference. -/
def hgDestroy (mid : Instance δ Φ) (handle : Nat) : Instance δ Φ :=
  let shared := mid.shared.drop handle
  if shared.refCount handle = 0 then
    match mid.shared.data handle with
    | none => { mid with shared := shared }
    | some _ =>
        { shared := shared
          user := update mid.user handle .zero
          calls := mid.calls ++ (mid.user handle).runFree }
  else { mid with shared := shared }

/-- `__margo_handle_cache_put`: whether the handle is one of the cache, and the handles
afterwards. -/
def handleCachePut (mid : Instance δ Φ) (handle : Nat) : Bool × Instance δ Φ :=
  match mid.shared.data handle with
  | some ⟨_, some el, arena⟩ =>
      (true,
        { shared := { mid.shared with
            data := update mid.shared.data handle (some ⟨false, some el, arena⟩)
            freeHandleList := el :: mid.shared.freeHandleList }
          user := update mid.user handle .zero
          calls := mid.calls ++ (mid.user handle).runFree })
  | _ => (false, mid)

/-- `margo_destroy`: whether it returns `HG_SUCCESS`, and the handles afterwards. -/
def margoDestroy (mid : Instance δ Φ) (handle : Nat) : Bool × Instance δ Φ :=
  if mid.shared.refCount handle ≠ 1 then (true, hgDestroy mid handle)
  else
    match mid.shared.data handle with
    | some ⟨true, _, _⟩ =>
        let (put, mid') := handleCachePut mid handle
        if put then (true, mid') else (true, hgDestroy mid' handle)
    -- the instance of the handle is not known
    | some ⟨false, _, _⟩ | none => (false, mid)

/-! ## A client -/

/-- A client with the handles that it has. -/
structure Client (δ Φ : Type) where
  mid : Instance δ Φ
  handles : List Nat
  /-- What the last call of `margo_set_data` on this use of a handle was given. No function
  reads it. -/
  given : Nat → UserData δ Φ

/-- The calls of a client, on its own handles. -/
inductive ClientCall (δ Φ : Type)
  | create (answers : Answers)
  | setData (handle : Nat) (data : Option δ) (freeCallback : Option Φ)
  | getData (handle : Nat)
  | destroy (handle : Nat)
  deriving DecidableEq, Repr

/-- One call. -/
def step (s : Client δ Φ) : ClientCall δ Φ → Option (Client δ Φ)
  | .create answers =>
      match margoCreate s.mid answers with
      | (some handle, mid) =>
          some ⟨mid, handle :: s.handles, update s.given handle .zero⟩
      | (none, mid) => some { s with mid := mid }
  | .setData handle data freeCallback =>
      if handle ∈ s.handles then
        match margoSetData s.mid handle data freeCallback with
        | (true, mid) =>
            some { s with mid := mid, given := update s.given handle ⟨data, freeCallback⟩ }
        | (false, mid) => some { s with mid := mid }
      else none
  | .getData handle => if handle ∈ s.handles then some s else none
  | .destroy handle =>
      if handle ∈ s.handles then
        match margoDestroy s.mid handle with
        | (true, mid) => some { s with mid := mid, handles := s.handles.erase handle }
        | (false, mid) => some { s with mid := mid }
      else none

/-- A client of an initialized cache. -/
def start (m : Shared) : Client δ Φ := ⟨⟨m, fun _ => .zero, []⟩, [], fun _ => .zero⟩

/-- The pair with a callback that a call gives to `margo_set_data`. -/
def ClientCall.pair : ClientCall δ Φ → List (Φ × Option δ)
  | .setData _ data freeCallback => UserData.runFree ⟨data, freeCallback⟩
  | _ => []

/-- The pairs with a callback that a client has given away. -/
def pairs (as : List (ClientCall δ Φ)) : List (Φ × Option δ) := as.flatMap ClientCall.pair

/-! ## A call is a run of a thread -/

section

variable {m m' : Shared} {t t' : Thread} {c : Choice}

/-- A step of a thread that is alone. -/
theorem step_alone (h : program m t c = some (m', [t'])) :
    Handle.step ⟨m, [t]⟩ (0, c) = some ⟨m', [t']⟩ := by
  simp [Lib.ThreadPool.step, h]

theorem run_alone {as : List Move} {s : Handles} (h : program m t c = some (m', [t']))
    (hrun : Run Handle.step Any ⟨m', [t']⟩ as s) :
    Run Handle.step Any ⟨m, [t]⟩ ((0, c) :: as) s :=
  Run.cons (step_alone h) trivial hrun

variable {mid : Instance δ Φ} {handle : Nat} {answers : Answers}

/-- The thread that a call of `margo_create` leaves behind. -/
def created : Option Nat → Thread
  | some handle => .holder handle
  | none => .client

theorem internalSetHandleData_run (mid : Instance δ Φ) (handle : Nat) (answers : Answers) :
    ∃ as, Run Handle.step Any ⟨mid.shared, [.setData handle]⟩ as
      ⟨(internalSetHandleData mid handle answers).2.shared,
        [created (internalSetHandleData mid handle answers).1]⟩ := by
  unfold internalSetHandleData
  split
  · split
    · exact ⟨_, run_alone (c := .ok) rfl (Run.nil _)⟩
    · next hdata =>
        split
        · exact ⟨_, run_alone (c := .ok) rfl (Run.nil _)⟩
        · refine ⟨_, run_alone (c := .noSetData) ?_ (Run.nil _)⟩
          simp [program, hdata, created]
  · exact ⟨_, run_alone (c := .fail) rfl (Run.nil _)⟩

theorem createNew_run (mid : Instance δ Φ) (answers : Answers) :
    ∃ as, Run Handle.step Any ⟨mid.shared, [.hgCreate]⟩ as
      ⟨(createNew mid answers).2.shared, [created (createNew mid answers).1]⟩ := by
  unfold createNew
  split
  · obtain ⟨as, hrun⟩ := internalSetHandleData_run
      { mid with shared := { mid.shared with
          refCount := update mid.shared.refCount mid.shared.nextHandle 1
          data := update mid.shared.data mid.shared.nextHandle none
          nextHandle := mid.shared.nextHandle + 1 } } mid.shared.nextHandle answers
    exact ⟨_, run_alone (c := .ok) rfl hrun⟩
  · exact ⟨_, run_alone (c := .fail) rfl (Run.nil _)⟩

/-- `margo_create` is what a thread of the handle cache does from one call to the next. -/
theorem margoCreate_run (mid : Instance δ Φ) (answers : Answers) :
    ∃ as, Run Handle.step Any ⟨mid.shared, [.client]⟩ as
      ⟨(margoCreate mid answers).2.shared, [created (margoCreate mid answers).1]⟩ := by
  obtain ⟨as, hnew⟩ := createNew_run mid answers
  unfold margoCreate handleCacheGet
  cases hlist : mid.shared.freeHandleList with
  | nil =>
      have hget : program mid.shared .cacheGet .ok = some (mid.shared, [.hgCreate]) := by
        simp only [program, hlist]
      exact ⟨_, run_alone (c := .create) rfl (run_alone hget hnew)⟩
  | cons el rest =>
      have hget : program mid.shared .cacheGet .ok =
          some ({ mid.shared with freeHandleList := rest }, [.reset el]) := by
        simp only [program, hlist]
      cases hreset : answers.reset with
      | true =>
          obtain ⟨as, hset⟩ := internalSetHandleData_run
            { mid with shared := { mid.shared with freeHandleList := rest } }
            (mid.shared.handle el) answers
          exact ⟨_, run_alone (c := .create) rfl (run_alone hget
            (run_alone (c := .ok) rfl hset))⟩
      | false =>
          have hback : program { mid.shared with freeHandleList := rest } (.putBack el) .ok =
              some (mid.shared, [.hgCreate]) := by
            simp only [program, ← hlist]
          exact ⟨_, run_alone (c := .create) rfl (run_alone hget
            (run_alone (c := .fail) rfl (run_alone hback hnew)))⟩

theorem shared_hgDestroy (mid : Instance δ Φ) (handle : Nat) :
    (hgDestroy mid handle).shared = mid.shared.drop handle := by
  unfold hgDestroy
  simp only
  split
  · cases mid.shared.data handle <;> rfl
  · rfl

/-- `margo_destroy` is what the thread of a handle does from one call to the next. -/
theorem margoDestroy_run (mid : Instance δ Φ) (handle : Nat) :
    ∃ as, Run Handle.step Any ⟨mid.shared, [.holder handle]⟩ as
      ⟨(margoDestroy mid handle).2.shared,
        [if (margoDestroy mid handle).1 then .client else .holder handle]⟩ := by
  unfold margoDestroy
  by_cases hone : mid.shared.refCount handle = 1
  · have hget : program mid.shared (.refGet handle) .ok =
        some (mid.shared, [.cachePut handle]) := by
      simp only [program, if_pos hone]
    rw [if_neg (not_not.mpr hone)]
    cases hdata : mid.shared.data handle with
    | none =>
        have hput : program mid.shared (.cachePut handle) .ok =
            some (mid.shared, [.holder handle]) := by
          simp only [program, hdata]
        exact ⟨_, run_alone (c := .destroy) rfl (run_alone hget (run_alone hput (Run.nil _)))⟩
    | some d =>
        obtain ⟨known, cacheEl, arena⟩ := d
        cases known with
        | false =>
            have hput : program mid.shared (.cachePut handle) .ok =
                some (mid.shared, [.holder handle]) := by
              simp only [program, hdata]
            exact ⟨_, run_alone (c := .destroy) rfl (run_alone hget
              (run_alone hput (Run.nil _)))⟩
        | true =>
            cases cacheEl with
            | none =>
                have hput : program mid.shared (.cachePut handle) .ok =
                    some (mid.shared, [.hgDestroy handle]) := by
                  simp only [program, hdata]
                simp only [handleCachePut, hdata, Bool.false_eq_true, if_false, shared_hgDestroy]
                exact ⟨_, run_alone (c := .destroy) rfl (run_alone hget (run_alone hput
                  (run_alone (c := .ok) rfl (Run.nil _))))⟩
            | some el =>
                have hput : program mid.shared (.cachePut handle) .ok =
                    some ({ mid.shared with
                      data := update mid.shared.data handle (some ⟨false, some el, arena⟩) },
                      [.push el]) := by
                  simp only [program, hdata]
                simp only [handleCachePut, hdata]
                exact ⟨_, run_alone (c := .destroy) rfl (run_alone hget (run_alone hput
                  (run_alone (c := .ok) rfl (Run.nil _))))⟩
  · have hget : program mid.shared (.refGet handle) .ok =
        some (mid.shared, [.hgDestroy handle]) := by
      simp only [program, if_neg hone]
    rw [if_pos hone]
    simp only [shared_hgDestroy]
    exact ⟨_, run_alone (c := .destroy) rfl (run_alone hget
      (run_alone (c := .ok) rfl (Run.nil _)))⟩

end

/-! ## The uses of the handles -/

/-- What is given away and not yet freed, use by use. -/
def Client.held (s : Client δ Φ) : List (Φ × Option δ) :=
  s.handles.flatMap fun handle => (s.given handle).runFree

/-- The handles of the elements in the free list. -/
def freeHandles (m : Shared) : List Nat := m.freeHandleList.map m.handle

/-- What holds between two calls of a client. -/
structure Sound (s : Client δ Φ) : Prop where
  nodup : (freeHandles s.mid.shared ++ s.handles).Nodup
  lt : ∀ handle ∈ freeHandles s.mid.shared ++ s.handles, handle < s.mid.shared.nextHandle
  refCount : ∀ handle ∈ freeHandles s.mid.shared ++ s.handles, s.mid.shared.refCount handle = 1
  free : ∀ el ∈ s.mid.shared.freeHandleList,
    ∃ d, s.mid.shared.data (s.mid.shared.handle el) = some d ∧ d.cacheEl = some el
  used : ∀ handle ∈ s.handles, ∃ d, s.mid.shared.data handle = some d ∧ d.mid = true ∧
    ∀ el, d.cacheEl = some el → s.mid.shared.handle el = handle
  given : ∀ handle ∈ s.handles, s.mid.user handle = s.given handle
  unused : ∀ handle ∉ s.handles, s.mid.user handle = .zero

/-- A cache as it was initialized. -/
theorem sound_start {succeeds : Nat → Bool} {size : Nat} {m : Shared}
    (hinit : handleCacheInit succeeds size = some m) : Sound (start m : Client δ Φ) := by
  have hlinked : Linked size m [] :=
    (linked_init hinit (fun _ => rfl) (fun _ => rfl) fun _ => rfl).1
  have hcount : ∀ el, m.freeHandleList.count el = if el < size then 1 else 0 := by
    intro el
    split
    · next hlt => simpa [users, owners, creators, refs] using hlinked.elements el hlt
    · next hge => exact (hlinked.free el (Nat.not_lt.mp hge)).1
  have hlt : ∀ el ∈ m.freeHandleList, el < size := by
    intro el hel
    by_contra hge
    have hzero := hcount el
    rw [if_neg hge] at hzero
    exact List.count_eq_zero.mp hzero hel
  have hdata : ∀ el ∈ m.freeHandleList,
      ∃ d, m.data (m.handle el) = some d ∧ d.cacheEl = some el := by
    intro el hel
    obtain ⟨d, hd, hcacheEl, -⟩ := (hlinked.element el (hlt el hel)).data
    exact ⟨d, hd, hcacheEl⟩
  have hnodup : m.freeHandleList.Nodup := by
    rw [List.nodup_iff_count_le_one]
    intro el
    rw [hcount]
    split <;> omega
  have hinj : (freeHandles m).Nodup := by
    apply hnodup.map_on
    intro el hel el' hel' heq
    obtain ⟨d, hd, hcacheEl⟩ := hdata el hel
    obtain ⟨d', hd', hcacheEl'⟩ := hdata el' hel'
    rw [heq, hd'] at hd
    obtain rfl := Option.some.inj hd
    exact Option.some.inj (hcacheEl.symm.trans hcacheEl')
  refine ⟨?_, ?_, ?_, hdata, by simp [start], by simp [start], fun _ _ => rfl⟩
  · simpa [start] using hinj
  · intro handle hhandle
    obtain ⟨el, hel, rfl⟩ : ∃ el ∈ m.freeHandleList, m.handle el = handle := by
      simpa [start, freeHandles] using hhandle
    exact (hlinked.element el (hlt el hel)).lt
  · intro handle hhandle
    obtain ⟨el, hel, rfl⟩ : ∃ el ∈ m.freeHandleList, m.handle el = handle := by
      simpa [start, freeHandles] using hhandle
    exact (hlinked.element el (hlt el hel)).refCount

/-- A list of values by key, with the value of one key taken out. -/
theorem flatMap_erase {β : Type} {l : List Nat} {n : Nat} (hmem : n ∈ l) (f : Nat → List β) :
    l.flatMap f ~ f n ++ (l.erase n).flatMap f := by
  simpa using (List.perm_cons_erase hmem).flatMap_right f

/-- The values of other keys do not matter. -/
theorem flatMap_update {l : List Nat} {n : Nat} (hnot : n ∉ l) (given : Nat → UserData δ Φ)
    (user : UserData δ Φ) :
    (l.flatMap fun handle => (update given n user handle).runFree) =
      l.flatMap fun handle => (given handle).runFree := by
  apply List.flatMap_congr
  intro handle hhandle
  rw [update_of_ne (ne_of_mem_of_not_mem hhandle hnot)]

section

variable {s : Client δ Φ} {handle : Nat}

/-- A handle that nobody has: its data, if there is any, has no user data. -/
structure Unused (s : Client δ Φ) (handle : Nat) : Prop where
  not_mem : handle ∉ freeHandles s.mid.shared ++ s.handles
  lt : handle < s.mid.shared.nextHandle
  refCount : s.mid.shared.refCount handle = 1
  data : ∀ d ∈ s.mid.shared.data handle, ∀ el, d.cacheEl = some el →
    s.mid.shared.handle el = handle

/-- The last part of `margo_create`. -/
theorem Sound.internalSetHandleData (h : Sound s) (hunused : Unused s handle)
    (answers : Answers) :
    (User.internalSetHandleData s.mid handle answers).2.calls = s.mid.calls ∧
      ((User.internalSetHandleData s.mid handle answers).1 = none ∧
          Sound { s with mid := (User.internalSetHandleData s.mid handle answers).2 } ∨
        (User.internalSetHandleData s.mid handle answers).1 = some handle ∧
          Sound ⟨(User.internalSetHandleData s.mid handle answers).2, handle :: s.handles,
            update s.given handle .zero⟩) := by
  obtain ⟨hfree, hhandles⟩ := not_or.mp (mt List.mem_append.mpr hunused.not_mem)
  have hzero : update s.mid.user handle .zero = s.mid.user :=
    update_eq_self_iff.mpr (h.unused handle hhandles).symm
  -- Whether the data were there or not, the user fields are zero.
  have hset : Sound ⟨⟨s.mid.shared.setHandleData handle, s.mid.user, s.mid.calls⟩,
      handle :: s.handles, update s.given handle .zero⟩ := by
    refine ⟨?_, ?_, ?_, ?_, ?_, ?_, ?_⟩
    · exact List.perm_middle.nodup_iff.mpr (List.nodup_cons.mpr ⟨hunused.not_mem, h.nodup⟩)
    · intro n hn
      rcases List.mem_cons.mp (List.perm_middle.mem_iff.mp hn) with rfl | hn
      · exact hunused.lt
      · exact h.lt n hn
    · intro n hn
      rcases List.mem_cons.mp (List.perm_middle.mem_iff.mp hn) with rfl | hn
      · exact hunused.refCount
      · exact h.refCount n hn
    · intro el hel
      have hne : s.mid.shared.handle el ≠ handle :=
        ne_of_mem_of_not_mem (List.mem_map_of_mem hel) hfree
      obtain ⟨d, hd, hcacheEl⟩ := h.free el hel
      exact ⟨d, (update_of_ne hne ..).trans hd, hcacheEl⟩
    · intro n hn
      rcases List.mem_cons.mp hn with rfl | hn
      · refine ⟨_, update_self .., rfl, ?_⟩
        intro el hel
        cases hdata : s.mid.shared.data n with
        | none => simp [hdata] at hel
        | some d =>
            rw [hdata] at hel
            exact hunused.data d hdata el hel
      · obtain ⟨d, hd, hmid⟩ := h.used n hn
        exact ⟨d, (update_of_ne (ne_of_mem_of_not_mem hn hhandles) ..).trans hd, hmid⟩
    · intro n hn
      rcases List.mem_cons.mp hn with rfl | hn
      · exact (h.unused n hhandles).trans (update_self n UserData.zero s.given).symm
      · exact (h.given n hn).trans (update_of_ne (ne_of_mem_of_not_mem hn hhandles) ..).symm
    · exact fun n hn => h.unused n fun hmem => hn (List.mem_cons_of_mem handle hmem)
  unfold User.internalSetHandleData
  split
  · split
    · exact ⟨rfl, .inr ⟨rfl, hset⟩⟩
    · split
      · rw [hzero]
        exact ⟨rfl, .inr ⟨rfl, hset⟩⟩
      · exact ⟨rfl, .inl ⟨rfl, h⟩⟩
  · exact ⟨rfl, .inl ⟨rfl, ⟨h.nodup, h.lt, h.refCount, h.free, h.used, h.given, h.unused⟩⟩⟩

/-- What a call of `margo_create` may do: it calls no free callback, and the handle that it
returns, if any, was nobody's and has no user data. -/
def Creates (s : Client δ Φ) (result : Option Nat × Instance δ Φ) : Prop :=
  result.2.calls = s.mid.calls ∧
    (result.1 = none ∧ Sound { s with mid := result.2 } ∨
      ∃ handle ∉ s.handles, result.1 = some handle ∧
        Sound ⟨result.2, handle :: s.handles, update s.given handle .zero⟩)

theorem Sound.creates (h : Sound s) (hunused : Unused s handle) (answers : Answers) :
    Creates s (User.internalSetHandleData s.mid handle answers) := by
  have hnot : handle ∉ s.handles := fun hmem =>
    hunused.not_mem (List.mem_append_right _ hmem)
  obtain ⟨hcalls, hnone | hsome⟩ := h.internalSetHandleData hunused answers
  · exact ⟨hcalls, .inl hnone⟩
  · exact ⟨hcalls, .inr ⟨handle, hnot, hsome⟩⟩

theorem Sound.createNew (h : Sound s) (answers : Answers) :
    Creates s (User.createNew s.mid answers) := by
  unfold User.createNew
  split
  · have hlt : ∀ n ∈ freeHandles s.mid.shared ++ s.handles, n ≠ s.mid.shared.nextHandle :=
      fun n hn => Nat.ne_of_lt (h.lt n hn)
    set shared := { s.mid.shared with
      refCount := update s.mid.shared.refCount s.mid.shared.nextHandle 1
      data := update s.mid.shared.data s.mid.shared.nextHandle none
      nextHandle := s.mid.shared.nextHandle + 1 } with hshared
    have hsound : Sound { s with mid := { s.mid with shared := shared } } := by
      refine ⟨h.nodup, ?_, ?_, ?_, ?_, h.given, h.unused⟩
      · exact fun n hn => Nat.lt_succ_of_lt (h.lt n hn)
      · exact fun n hn => (update_of_ne (hlt n hn) ..).trans (h.refCount n hn)
      · intro el hel
        obtain ⟨d, hd, hcacheEl⟩ := h.free el hel
        have hne := hlt _ (List.mem_append_left _ (List.mem_map_of_mem hel))
        exact ⟨d, (update_of_ne hne ..).trans hd, hcacheEl⟩
      · intro n hn
        obtain ⟨d, hd, hmid⟩ := h.used n hn
        exact ⟨d, (update_of_ne (hlt n (List.mem_append_right _ hn)) ..).trans hd, hmid⟩
    have hunused : Unused { s with mid := { s.mid with shared := shared } }
        s.mid.shared.nextHandle := by
      refine ⟨fun hmem => hlt _ hmem rfl, Nat.lt_succ_self _, update_self .., ?_⟩
      intro d hd
      rw [hshared] at hd
      simp at hd
    exact hsound.creates hunused answers
  · exact ⟨rfl, .inl ⟨rfl, h⟩⟩

theorem Sound.create (h : Sound s) (answers : Answers) :
    Creates s (margoCreate s.mid answers) := by
  have hnew := h.createNew answers
  unfold margoCreate handleCacheGet
  cases hlist : s.mid.shared.freeHandleList with
  | nil => exact hnew
  | cons el rest =>
      cases hreset : answers.reset with
      | false => exact hnew
      | true =>
          have hnodup := h.nodup
          have hlt := h.lt
          have hrefCount := h.refCount
          rw [freeHandles, hlist, List.map_cons, List.cons_append] at hnodup hlt hrefCount
          obtain ⟨hnot, hnodup⟩ := List.nodup_cons.mp hnodup
          have hsound : Sound { s with mid := { s.mid with
              shared := { s.mid.shared with freeHandleList := rest } } } := by
            refine ⟨hnodup, ?_, ?_, ?_, h.used, h.given, h.unused⟩
            · exact fun n hn => hlt n (List.mem_cons_of_mem _ hn)
            · exact fun n hn => hrefCount n (List.mem_cons_of_mem _ hn)
            · exact fun el' hel' => h.free el' (hlist ▸ List.mem_cons_of_mem el hel')
          have hunused : Unused { s with mid := { s.mid with
              shared := { s.mid.shared with freeHandleList := rest } } }
              (s.mid.shared.handle el) := by
            refine ⟨hnot, hlt _ List.mem_cons_self, hrefCount _ List.mem_cons_self, ?_⟩
            obtain ⟨d, hd, hcacheEl⟩ := h.free el (hlist ▸ List.mem_cons_self)
            intro d' hd' el' hel'
            obtain rfl : d = d' := Option.some.inj (hd.symm.trans hd')
            rw [Option.some.inj (hel'.symm.trans hcacheEl)]
          exact hsound.creates hunused answers

/-- A call of `margo_set_data` is accepted, and calls the callback of the pair before. -/
theorem Sound.setData (h : Sound s) (hhandle : handle ∈ s.handles) (data : Option δ)
    (freeCallback : Option Φ) :
    ∃ mid, margoSetData s.mid handle data freeCallback = (true, mid) ∧
      mid.calls = s.mid.calls ++ (s.given handle).runFree ∧
      Sound ⟨mid, s.handles, update s.given handle ⟨data, freeCallback⟩⟩ := by
  obtain ⟨d, hd, -⟩ := h.used handle hhandle
  rw [margoSetData, hd, h.given handle hhandle]
  refine ⟨_, rfl, rfl, h.nodup, h.lt, h.refCount, h.free, h.used, ?_, ?_⟩
  · intro n hn
    by_cases hne : n = handle
    · simp [hne]
    · simp [hne, h.given n hn]
  · intro n hn
    have hne : n ≠ handle := fun heq => hn (heq ▸ hhandle)
    exact (update_of_ne hne ..).trans (h.unused n hn)

/-- The handle is taken from those of the client. -/
theorem ends (m : Shared) (hhandle : handle ∈ s.handles) :
    freeHandles m ++ s.handles ~ handle :: (freeHandles m ++ s.handles.erase handle) := by
  apply List.Perm.trans _ List.perm_middle
  exact (List.perm_cons_erase hhandle).append_left _

/-- The user data of the handles that the client is left with. -/
theorem Sound.rest (h : Sound s) (herase : handle ∉ s.handles.erase handle) :
    (∀ n ∈ s.handles.erase handle, update s.mid.user handle .zero n = s.given n) ∧
      ∀ n ∉ s.handles.erase handle, update s.mid.user handle .zero n = .zero := by
  constructor
  · intro n hn
    have hne : n ≠ handle := ne_of_mem_of_not_mem hn herase
    exact (update_of_ne hne ..).trans (h.given n (List.mem_of_mem_erase hn))
  · intro n hn
    by_cases hne : n = handle
    · rw [hne, update_self]
    · rw [update_of_ne hne]
      exact h.unused n fun hmem => hn ((List.mem_erase_of_ne hne).mpr hmem)

/-- A call of `margo_destroy` ends the use of the handle, and calls the callback of the last
pair. -/
theorem Sound.destroy (h : Sound s) (hhandle : handle ∈ s.handles) :
    ∃ mid, margoDestroy s.mid handle = (true, mid) ∧
      mid.calls = s.mid.calls ++ (s.given handle).runFree ∧
      Sound ⟨mid, s.handles.erase handle, s.given⟩ := by
  have hperm := ends s.mid.shared hhandle
  obtain ⟨hnot, hnodup⟩ := List.nodup_cons.mp (hperm.nodup_iff.mp h.nodup)
  obtain ⟨hfree, herase⟩ := not_or.mp (mt List.mem_append.mpr hnot)
  obtain ⟨hgiven, hunused⟩ := h.rest herase
  have hone : s.mid.shared.refCount handle = 1 :=
    h.refCount handle (List.mem_append_right _ hhandle)
  obtain ⟨⟨known, cacheEl, arena⟩, hd, hmid, hback⟩ := h.used handle hhandle
  obtain rfl : known = true := hmid
  rw [margoDestroy, if_neg (not_not.mpr hone), hd, ← h.given handle hhandle]
  cases cacheEl with
  | some el =>
      have hel : s.mid.shared.handle el = handle := hback el rfl
      simp only [handleCachePut, hd, if_true]
      refine ⟨_, rfl, rfl, ?_, ?_, ?_, ?_, ?_, hgiven, hunused⟩
      · simp only [freeHandles, List.map_cons, hel, List.cons_append]
        exact List.nodup_cons.mpr ⟨hnot, hnodup⟩
      · simp only [freeHandles, List.map_cons, hel, List.cons_append]
        exact fun n hn => h.lt n (hperm.mem_iff.mpr hn)
      · simp only [freeHandles, List.map_cons, hel, List.cons_append]
        exact fun n hn => h.refCount n (hperm.mem_iff.mpr hn)
      · intro el' hel'
        rcases List.mem_cons.mp hel' with rfl | hel'
        · exact ⟨⟨false, some el', arena⟩, by simp only [hel, update_self], rfl⟩
        · obtain ⟨d, hd', hcacheEl⟩ := h.free el' hel'
          have hne : s.mid.shared.handle el' ≠ handle :=
            ne_of_mem_of_not_mem (List.mem_map_of_mem hel') hfree
          exact ⟨d, (update_of_ne hne ..).trans hd', hcacheEl⟩
      · intro n hn
        obtain ⟨d, hd', hmid'⟩ := h.used n (List.mem_of_mem_erase hn)
        exact ⟨d, (update_of_ne (ne_of_mem_of_not_mem hn herase) ..).trans hd', hmid'⟩
  | none =>
      have hzero : (s.mid.shared.drop handle).refCount handle = 0 := by
        simp [Shared.drop, Shared.dataFree, hone]
      have hdrop : s.mid.shared.drop handle =
          Shared.dataFree { s.mid.shared with
            refCount := update s.mid.shared.refCount handle 0 } handle := by
        simp [Shared.drop, hone]
      have hsub : ∀ n ∈ freeHandles s.mid.shared ++ s.handles.erase handle,
          n ∈ freeHandles s.mid.shared ++ s.handles := fun n hn =>
        hperm.mem_iff.mpr (List.mem_cons_of_mem handle hn)
      simp only [handleCachePut, hd, Bool.false_eq_true, if_false, hgDestroy, hzero, if_true]
      rw [hdrop]
      refine ⟨_, rfl, rfl, hnodup, ?_, ?_, ?_, ?_, hgiven, hunused⟩
      · exact fun n hn => h.lt n (hsub n hn)
      · intro n hn
        have hne : n ≠ handle := ne_of_mem_of_not_mem hn hnot
        exact (update_of_ne hne ..).trans (h.refCount n (hsub n hn))
      · intro el hel
        obtain ⟨d, hd', hcacheEl⟩ := h.free el hel
        have hne : s.mid.shared.handle el ≠ handle :=
          ne_of_mem_of_not_mem (List.mem_map_of_mem hel) hfree
        exact ⟨d, (update_of_ne hne ..).trans hd', hcacheEl⟩
      · intro n hn
        obtain ⟨d, hd', hmid'⟩ := h.used n (List.mem_of_mem_erase hn)
        exact ⟨d, (update_of_ne (ne_of_mem_of_not_mem hn herase) ..).trans hd', hmid'⟩

/-! ## Every call -/

/-- What a call does to the user data, with the pair that was set last in each use. -/
def CallLaw (s : Client δ Φ) (a : ClientCall δ Φ) (s' : Client δ Φ) : Prop :=
  match a with
  | .create answers =>
      s'.mid.calls = s.mid.calls ∧
        ((margoCreate s.mid answers).1 = none ∧ s'.handles = s.handles ∧ s'.given = s.given ∨
          ∃ handle ∉ s.handles, (margoCreate s.mid answers).1 = some handle ∧
            s'.handles = handle :: s.handles ∧ s'.given = update s.given handle .zero ∧
            margoGetData s'.mid handle = none)
  | .setData handle data freeCallback =>
      (margoSetData s.mid handle data freeCallback).1 = true ∧
        s'.mid.calls = s.mid.calls ++ (s.given handle).runFree ∧
        s'.handles = s.handles ∧ s'.given = update s.given handle ⟨data, freeCallback⟩
  | .getData handle => s' = s ∧ margoGetData s.mid handle = (s.given handle).userData
  | .destroy handle =>
      (margoDestroy s.mid handle).1 = true ∧
        s'.mid.calls = s.mid.calls ++ (s.given handle).runFree ∧
        s'.handles = s.handles.erase handle ∧ s'.given = s.given

theorem Sound.getData (h : Sound s) (hhandle : handle ∈ s.handles) :
    margoGetData s.mid handle = (s.given handle).userData := by
  obtain ⟨d, hd, -⟩ := h.used handle hhandle
  rw [margoGetData, hd, h.given handle hhandle]

theorem Sound.nodup_handles (h : Sound s) : s.handles.Nodup := (List.nodup_append.mp h.nodup).2.1

/-- A new use of a handle holds nothing. -/
theorem held_create (hnot : handle ∉ s.handles) (mid : Instance δ Φ) :
    Client.held ⟨mid, handle :: s.handles, update s.given handle .zero⟩ = s.held := by
  simp only [Client.held, List.flatMap_cons, update_self, flatMap_update hnot]
  rfl

/-- A pair takes the place of the one before. -/
theorem held_setData (hnodup : s.handles.Nodup) (hhandle : handle ∈ s.handles)
    (mid : Instance δ Φ) (user : UserData δ Φ) :
    s.held ++ user.runFree ~ (s.given handle).runFree ++
      Client.held ⟨mid, s.handles, update s.given handle user⟩ := by
  have hbefore := flatMap_erase hhandle fun n => (s.given n).runFree
  have hafter := flatMap_erase hhandle fun n => (update s.given handle user n).runFree
  rw [update_self, flatMap_update hnodup.not_mem_erase] at hafter
  calc s.held ++ user.runFree
    _ ~ (s.given handle).runFree ++
        ((s.handles.erase handle).flatMap fun n => (s.given n).runFree) ++ user.runFree :=
      hbefore.append_right _
    _ ~ (s.given handle).runFree ++ (user.runFree ++
        (s.handles.erase handle).flatMap fun n => (s.given n).runFree) := by
      rw [List.append_assoc]
      exact List.perm_append_comm.append_left _
    _ ~ (s.given handle).runFree ++
        s.handles.flatMap fun n => (update s.given handle user n).runFree :=
      hafter.symm.append_left _

/-- The last pair of a use is not held after it. -/
theorem held_destroy (hhandle : handle ∈ s.handles) (mid : Instance δ Φ) :
    s.held ~ (s.given handle).runFree ++
      Client.held ⟨mid, s.handles.erase handle, s.given⟩ :=
  flatMap_erase hhandle fun n => (s.given n).runFree

/-- What a call does, and how the calls made and the pairs held go on with it. -/
theorem Sound.step (h : Sound s) {a : ClientCall δ Φ} {s' : Client δ Φ}
    (hstep : User.step s a = some s') :
    CallLaw s a s' ∧ Sound s' ∧
      s.mid.calls ++ s.held ++ a.pair ~ s'.mid.calls ++ s'.held := by
  cases a with
  | create answers =>
      have hcreate := h.create answers
      simp only [User.step] at hstep
      cases hresult : margoCreate s.mid answers with
      | mk result mid =>
          rw [hresult] at hcreate hstep
          have hcalls : mid.calls = s.mid.calls := hcreate.1
          obtain ⟨hnone, hsound⟩ | ⟨handle, hnot, hsome, hsound⟩ := hcreate.2
          · obtain rfl : result = none := hnone
            obtain rfl := Option.some.inj hstep
            refine ⟨⟨hcalls, .inl ⟨by rw [hresult], rfl, rfl⟩⟩, hsound, ?_⟩
            apply List.Perm.of_eq
            simp only [hcalls, ClientCall.pair, List.append_nil]
            rfl
          · obtain rfl : result = some handle := hsome
            obtain rfl := Option.some.inj hstep
            refine ⟨⟨hcalls, .inr ⟨handle, hnot, by rw [hresult], rfl, rfl, ?_⟩⟩, hsound, ?_⟩
            · rw [hsound.getData List.mem_cons_self]
              simp [UserData.zero]
            · apply List.Perm.of_eq
              simp only [hcalls, held_create hnot, ClientCall.pair, List.append_nil]
  | setData handle data freeCallback =>
      simp only [User.step] at hstep
      split at hstep
      · next hhandle =>
          obtain ⟨mid, hset, hcalls, hsound⟩ := h.setData hhandle data freeCallback
          rw [hset] at hstep
          obtain rfl := Option.some.inj hstep
          refine ⟨⟨by rw [hset], hcalls, rfl, rfl⟩, hsound, ?_⟩
          simp only [ClientCall.pair, hcalls, List.append_assoc]
          exact (held_setData h.nodup_handles hhandle mid _).append_left _
      · cases hstep
  | getData handle =>
      simp only [User.step] at hstep
      split at hstep
      · next hhandle =>
          obtain rfl := Option.some.inj hstep
          refine ⟨⟨rfl, h.getData hhandle⟩, h, ?_⟩
          exact List.Perm.of_eq (List.append_nil _)
      · cases hstep
  | destroy handle =>
      simp only [User.step] at hstep
      split at hstep
      · next hhandle =>
          obtain ⟨mid, hdestroy, hcalls, hsound⟩ := h.destroy hhandle
          rw [hdestroy] at hstep
          obtain rfl := Option.some.inj hstep
          refine ⟨⟨by rw [hdestroy], hcalls, rfl, rfl⟩, hsound, ?_⟩
          simp only [ClientCall.pair, List.append_nil, hcalls, List.append_assoc]
          exact (held_destroy hhandle mid).append_left _
      · cases hstep

/-- What holds after a run of calls. -/
theorem Sound.run (h : Sound s) {as : List (ClientCall δ Φ)} {s' : Client δ Φ}
    (hrun : Run User.step Any s as s') :
    Sound s' ∧ s.mid.calls ++ s.held ++ pairs as ~ s'.mid.calls ++ s'.held := by
  induction hrun with
  | nil s => exact ⟨h, List.Perm.of_eq (List.append_nil _)⟩
  | @cons s a s' as s'' hstep _ _ ih =>
      obtain ⟨-, hsound, hperm⟩ := h.step hstep
      obtain ⟨hsound', hperm'⟩ := ih hsound
      refine ⟨hsound', ?_⟩
      rw [pairs, List.flatMap_cons, ← List.append_assoc]
      exact (hperm.append_right _).trans hperm'

end

/-- Of the pairs given to `margo_set_data`, each has been freed once or is held by the use of a
handle that it was given in; it is freed by the next call on that use, or by the end of the
use, and a new use of a handle holds nothing. -/
theorem user_data_freed_once {succeeds : Nat → Bool} {size : Nat} {m : Shared}
    (hinit : handleCacheInit succeeds size = some m) {as : List (ClientCall δ Φ)}
    {s : Client δ Φ} (hrun : Run step Any (start m) as s) :
    pairs as ~ s.mid.calls ++ s.held ∧ s.handles.Nodup ∧
      ∀ a s', step s a = some s' → CallLaw s a s' := by
  obtain ⟨hsound, hperm⟩ := (sound_start hinit).run hrun
  exact ⟨hperm, hsound.nodup_handles, fun a s' hstep => (hsound.step hstep).1⟩

/-- A cached handle is used twice, with data in both uses and a second pair in the first. -/
def reused : List (ClientCall Nat Nat) :=
  [.create ⟨true, true, true, true⟩, .setData 0 (some 7) (some 1), .setData 0 (some 8) (some 2),
    .destroy 0, .create ⟨true, true, true, true⟩, .setData 0 (some 9) (some 3)]

theorem user_data_freed_once_reused :
    ∃ s : Client Nat Nat, Run step Any (start (noHandles.addElement 0)) reused s ∧
      s.mid.calls = [(1, some 7), (2, some 8)] ∧ pairs reused ~ s.mid.calls ++ s.held := by
  have hinit : handleCacheInit (fun _ => true) 1 = some (noHandles.addElement 0) := rfl
  have hexec : (exec step Any (start (noHandles.addElement 0)) reused).map
      (fun s => s.mid.calls) = some [(1, some 7), (2, some 8)] := by decide
  obtain ⟨s, hrun, hcalls⟩ := run_of_exec_map hexec
  exact ⟨s, hrun, hcalls, (user_data_freed_once hinit hrun).1⟩

end Margo.Handle.User
