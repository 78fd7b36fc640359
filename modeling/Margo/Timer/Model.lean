import Margo.Timer.Queue
import Mathlib.Data.List.Perm.Subperm

/-!
# Timers and their sections

The fields of the timers of one instance and of its timer list, and what the
functions of `margo-timer.c` do to them inside of the mutex of the list.

## Implementation notes

The fields of the timers are functions of the timer. `none` as a whole result is
a run into a null pointer, a failed assertion of a list macro or a loop that
exceeds its bound, which is the number of timers. The clock readings and the
timeout in seconds are arguments. The timers that `__margo_check_timers` fires
are returned in order; a timer with a pool is then a submitted ULT, the callback
of one without a pool has been called.
-/

namespace Margo.Timer

open Function Lib.Links

universe u

/-- The fields of `margo_timer` and of `margo_timer_list`. -/
structure Timers (τ κ : Type u) where
  /-- The timers that exist. -/
  created : List τ
  links : Links τ
  expiration : τ → κ
  /-- `pool != ABT_POOL_NULL`. -/
  hasPool : τ → Bool
  numPending : τ → Nat
  canceled : τ → Bool
  queueHead : Option τ
  /-- `num_pending` of the list. -/
  listPending : Nat
  /-- `destroy_requested` of the list. -/
  destroyRequested : Bool

variable {τ κ : Type u} [DecidableEq τ] [LinearOrder κ]

/-- `margo_timer_create_with_pool` with a new address for the timer. -/
def margoTimerCreateWithPool [Zero κ] (timers : Timers τ κ) (timer : τ) (pool : Bool) :
    Timers τ κ × Int :=
  if timers.destroyRequested then (timers, -1)
  else
    ({ timers with
      created := timer :: timers.created
      links := timers.links.clear timer
      expiration := update timers.expiration timer 0
      hasPool := update timers.hasPool timer pool
      numPending := update timers.numPending timer 0
      canceled := update timers.canceled timer false }, 0)

/-- `margo_timer_start`. -/
def margoTimerStart [Add κ] (timers : Timers τ κ) (timer : τ) (now timeout : κ) :
    Option (Timers τ κ × Int) :=
  if timers.links.Linked timer ∨ timers.canceled timer ∨ timers.destroyRequested then
    some (timers, -1)
  else do
    let expiration := update timers.expiration timer (now + timeout)
    let (links, queueHead) ← timerQueue expiration timers.created.length timers.links
      timers.queueHead timer
    return ({ timers with expiration, links, queueHead }, 0)

/-- Store into `expiration`. -/
def Timers.setExpiration (timers : Timers τ κ) (timer : τ) (expiration : κ) : Timers τ κ :=
  { timers with expiration := update timers.expiration timer expiration }

/-- `__margo_timer_queue` on the list of the instance. -/
def Timers.enqueue (timers : Timers τ κ) (timer : τ) : Option (Timers τ κ) := do
  let (links, queueHead) ← timerQueue timers.expiration timers.created.length timers.links
    timers.queueHead timer
  return { timers with links, queueHead }

/-- Delete a timer from the list if it has links. -/
def Timers.unlink (timers : Timers τ κ) (timer : τ) : Option (Timers τ κ) :=
  if timers.links.Linked timer then do
    let (links, queueHead) ← dlDelete timers.links timers.queueHead timer
    return { timers with links, queueHead }
  else some timers

/-- `timer->prev = timer->next = NULL`. -/
def Timers.clear (timers : Timers τ κ) (timer : τ) : Timers τ κ :=
  { timers with links := timers.links.clear timer }

/-- Store into `canceled`. -/
def Timers.setCanceled (timers : Timers τ κ) (timer : τ) (value : Bool) : Timers τ κ :=
  { timers with canceled := update timers.canceled timer value }

/-- The loop of `margo_timer_cancel_many` in the mutex of the list. -/
def cancelEach : List τ → Timers τ κ → Option (Timers τ κ)
  | [], timers => some timers
  | timer :: rest, timers => do
      let timers ← (timers.setCanceled timer true).unlink timer
      cancelEach rest (timers.clear timer)

/-- The timer action: a ULT is counted and submitted if there is a pool. -/
def Timers.fire (timers : Timers τ κ) (timer : τ) : Timers τ κ :=
  if timers.hasPool timer then
    { timers with
      numPending := update timers.numPending timer (timers.numPending timer + 1)
      listPending := timers.listPending + 1 }
  else timers

/-- The loop of `__margo_check_timers`. -/
def checkLoop (now : κ) : Nat → Timers τ κ → Option (Timers τ κ × List τ)
  | 0, timers => if timers.queueHead = none then some (timers, []) else none
  | bound + 1, timers =>
      match timers.queueHead with
      | none => some (timers, [])
      | some cur =>
          if timers.expiration cur < now then do
            let (links, queueHead) ← dlDelete timers.links timers.queueHead cur
            let timers := (({ timers with links, queueHead } : Timers τ κ).clear cur).fire cur
            let (timers, fired) ← checkLoop now bound timers
            return (timers, cur :: fired)
          else some (timers, [])

/-- `__margo_check_timers`. -/
def checkTimers (timers : Timers τ κ) (now : κ) : Option (Timers τ κ × List τ) :=
  checkLoop now timers.created.length timers

/-- `__margo_timer_get_next_expiration`: the result and the time that is left. -/
def getNextExpiration [Sub κ] (timers : Timers τ κ) (now : κ) : Int × Option κ :=
  match timers.queueHead with
  | some head => (0, some (timers.expiration head - now))
  | none => (-1, none)

/-! ## What the sections do to the queue -/

/-- The list of the instance holds these timers. -/
structure Listed (timers : Timers τ κ) (us : List τ) (stale : τ → Prop) : Prop where
  queue : IsQueue timers.links timers.queueHead us stale
  created : ∀ t ∈ us, t ∈ timers.created

/-- The list of the instance holds these timers, sorted by expiration. -/
structure QueueOf (timers : Timers τ κ) (us : List τ) (stale : τ → Prop) : Prop
    extends Listed timers us stale where
  sorted : SortedBy timers.expiration us

section

variable {timers : Timers τ κ} {us : List τ} {t : τ} {stale : τ → Prop}

omit [DecidableEq τ] [LinearOrder κ] in
theorem Listed.length_le (h : Listed timers us stale) : us.length ≤ timers.created.length :=
  (h.queue.hold.1.subperm h.created).length_le

omit [DecidableEq τ] in
/-- Only the order of the timers in the queue matters. -/
theorem SortedBy.congr {expiration expiration' : τ → κ} (h : SortedBy expiration us)
    (hsame : ∀ u ∈ us, expiration' u = expiration u) : SortedBy expiration' us := by
  apply List.Pairwise.imp_of_mem _ h
  intro a b ha hb hab
  rwa [hsame a ha, hsame b hb]

omit [DecidableEq τ] [LinearOrder κ] in
theorem Listed.mono {stale' : τ → Prop} (h : Listed timers us stale)
    (hstale : ∀ a ∉ us, stale a → stale' a) : Listed timers us stale' :=
  ⟨h.queue.mono hstale, h.created⟩

/-- The test of `margo_timer_start`, its store and its section, one after the other. -/
theorem margoTimerStart_eq [Add κ] (timers : Timers τ κ) (t : τ) (now timeout : κ) :
    margoTimerStart timers t now timeout =
      if timers.links.Linked t ∨ timers.canceled t ∨ timers.destroyRequested then
        some (timers, -1)
      else ((timers.setExpiration t (now + timeout)).enqueue t).map (·, 0) := by
  unfold margoTimerStart
  split
  · rfl
  · simp only [Timers.enqueue, Timers.setExpiration, Option.bind_eq_bind, Option.map_bind]
    rfl

/-- `margo_timer_start` of a timer that is in the queue. -/
theorem margoTimerStart_queued [Add κ] (h : QueueOf timers us stale) (ht : t ∈ us)
    (now timeout : κ) :
    margoTimerStart timers t now timeout = some (timers, -1) :=
  if_pos (.inl (.inl (DList.prev_ne_none h.queue.hold ht)))

/-- The section of `margo_timer_start`, for a timer that is not in the queue. -/
theorem enqueue_spec (h : Listed timers us stale) (ht : t ∉ us) (hstale : ¬stale t)
    (hcreated : t ∈ timers.created) :
    ∃ links xs ys, us = xs ++ ys ∧
      timers.enqueue t = some { timers with links, queueHead := (xs ++ t :: ys).head? } ∧
      Listed { timers with links, queueHead := (xs ++ t :: ys).head? } (xs ++ t :: ys) stale ∧
      (∀ el ∈ xs.getLast?, timers.expiration el < timers.expiration t) ∧
      ∀ y ∈ ys, timers.expiration t ≤ timers.expiration y := by
  obtain ⟨links, xs, ys, rfl, hqueue, hisQueue, hbefore, hbehind⟩ :=
    timerQueue_insert h.queue timers.expiration ht hstale h.length_le
  refine ⟨links, xs, ys, rfl, ?_, ⟨hisQueue, fun u hu => ?_⟩, hbefore, hbehind⟩
  · rw [Timers.enqueue, hqueue]
    rfl
  · obtain rfl | hu := List.mem_cons.mp (List.perm_middle.subset hu)
    · exact hcreated
    · exact h.created u hu

/-- `margo_timer_start` of a timer that is not in the queue. -/
theorem margoTimerStart_spec [Add κ] (h : QueueOf timers us stale) (ht : t ∉ us)
    (hstale : ¬stale t) (hcreated : t ∈ timers.created) (hcanceled : timers.canceled t = false)
    (hdestroy : timers.destroyRequested = false) (now timeout : κ) :
    ∃ links us', let timers' : Timers τ κ := { timers with
          expiration := update timers.expiration t (now + timeout)
          links := links
          queueHead := us'.head? }
      margoTimerStart timers t now timeout = some (timers', 0) ∧ QueueOf timers' us' stale ∧
        us'.Perm (t :: us) := by
  have hsorted : SortedBy (update timers.expiration t (now + timeout)) us :=
    h.sorted.congr fun u hu => update_of_ne (ne_of_mem_of_not_mem hu ht) ..
  have hset : Listed (timers.setExpiration t (now + timeout)) us stale := ⟨h.queue, h.created⟩
  obtain ⟨links, xs, ys, rfl, henqueue, hlisted, hbefore, hbehind⟩ :=
    enqueue_spec hset ht hstale hcreated
  refine ⟨links, xs ++ t :: ys, ?_, ⟨hlisted, ?_⟩, List.perm_middle⟩
  · have hnot : ¬(timers.links.Linked t ∨ timers.canceled t ∨ timers.destroyRequested) := by
      rw [h.queue.linked_iff hstale, hcanceled, hdestroy]
      simpa using ht
    rw [margoTimerStart_eq, if_neg hnot, henqueue]
    rfl
  · exact sortedBy_insert hsorted hbefore hbehind

omit [LinearOrder κ] in
/-- A timer in the queue is deleted. -/
theorem unlink_mem (h : Listed timers us stale) (ht : t ∈ us) :
    ∃ links, let timers' : Timers τ κ := { timers with
          links := links
          queueHead := (us.erase t).head? }
      timers.unlink t = some timers' ∧ Listed timers' (us.erase t) fun a => a = t ∨ stale a := by
  obtain ⟨xs, ys, rfl⟩ := List.append_of_mem ht
  have hnodup := List.nodup_append.mp h.queue.hold.1
  have hnot : t ∉ xs := fun hmem => hnodup.2.2 t hmem t List.mem_cons_self rfl
  have herase : (xs ++ t :: ys).erase t = xs ++ ys := by
    rw [List.erase_append_right _ hnot, List.erase_cons_head]
  have hsub : (xs ++ ys).Sublist (xs ++ t :: ys) := (List.sublist_cons_self t ys).append_left xs
  obtain ⟨links, hdelete, hqueue⟩ := h.queue.delete
  rw [herase]
  refine ⟨links, ?_, hqueue, fun u hu => h.created u (hsub.subset hu)⟩
  have hlinked : timers.links.Linked t := .inl (DList.prev_ne_none h.queue.hold ht)
  rw [Timers.unlink, if_pos hlinked, hdelete]
  rfl

omit [LinearOrder κ] in
/-- A timer without links stays out of the queue. -/
theorem unlink_not_mem (h : Listed timers us stale) (ht : t ∉ us) (hstale : ¬stale t) :
    timers.unlink t = some timers :=
  if_neg (mt (h.queue.linked_iff hstale).mp ht)

omit [LinearOrder κ] in
theorem Listed.clear (h : Listed timers us stale) (ht : t ∉ us) :
    Listed (timers.clear t) us fun a => a ≠ t ∧ stale a :=
  ⟨h.queue.clear ht, h.created⟩

omit [LinearOrder κ] in
/-- One timer is canceled in the mutex of the list. -/
theorem cancel_one (h : Listed timers us stale) (hstale : ¬stale t) :
    ∃ timers' links queueHead, (timers.setCanceled t true).unlink t = some timers' ∧
      timers'.clear t = { timers with
        links, queueHead, canceled := update timers.canceled t true } ∧
      Listed (timers'.clear t) (us.filter (· != t)) stale := by
  have hset : Listed (timers.setCanceled t true) us stale := ⟨h.queue, h.created⟩
  by_cases ht : t ∈ us
  · obtain ⟨links, hunlink, hqueue⟩ := unlink_mem hset ht
    rw [h.queue.hold.1.erase_eq_filter] at hunlink hqueue
    have hnot : t ∉ us.filter (· != t) := by simp
    refine ⟨_, links.clear t, _, hunlink, rfl, (hqueue.clear hnot).mono ?_⟩
    exact fun b _ hb => hb.2.resolve_left hb.1
  · refine ⟨_, timers.links.clear t, timers.queueHead, unlink_not_mem hset ht hstale, rfl, ?_⟩
    have hfilter : us.filter (· != t) = us :=
      List.filter_eq_self.mpr fun u hu => by simpa using ne_of_mem_of_not_mem hu ht
    rw [hfilter]
    exact (hset.clear ht).mono fun b _ hb => hb.2

omit [LinearOrder κ] in
/-- The loop of `margo_timer_cancel_many`. -/
theorem cancelEach_spec (ts : List τ) (h : Listed timers us stale) (hstale : ∀ t ∈ ts, ¬stale t) :
    ∃ links queueHead, let timers' : Timers τ κ := { timers with
          links := links
          queueHead := queueHead
          canceled := fun u => if u ∈ ts then true else timers.canceled u }
      cancelEach ts timers = some timers' ∧
        Listed timers' (us.filter (· ∉ ts)) stale := by
  induction ts generalizing timers us with
  | nil =>
      refine ⟨timers.links, timers.queueHead, ?_, ?_⟩
      · simp only [cancelEach, List.not_mem_nil, if_false]
      · have hfilter : us.filter (· ∉ ([] : List τ)) = us := by simp
        rw [hfilter]
        exact ⟨h.queue, h.created⟩
  | cons t ts ih =>
      obtain ⟨timers', links, queueHead, hunlink, hclear, hqueue⟩ :=
        cancel_one h (hstale t List.mem_cons_self)
      obtain ⟨links', queueHead', hrest, hqueue'⟩ :=
        ih hqueue fun u hu => hstale u (List.mem_cons_of_mem t hu)
      have hcanceled : (fun u => if u ∈ t :: ts then true else timers.canceled u) =
          fun u => if u ∈ ts then true else update timers.canceled t true u := by
        funext u
        by_cases hu : u = t
        · simp [hu]
        · simp [hu]
      have hfilter : us.filter (· ∉ t :: ts) = (us.filter (· != t)).filter (· ∉ ts) := by
        rw [List.filter_filter]
        apply List.filter_congr
        intro u _
        by_cases hu : u = t
        · simp [hu]
        · simp [hu]
      refine ⟨links', queueHead', ?_, ?_⟩
      · rw [cancelEach, hunlink, Option.bind_eq_bind, Option.bind_some, hrest, hclear, hcanceled]
      · rw [hfilter, hcanceled]
        rw [hclear] at hqueue'
        exact hqueue'

/-- The timers after some of them were fired: a ULT is counted for each one with
a pool, and only the links changed otherwise. -/
structure Fired (timers : Timers τ κ) (fired : List τ) (timers' : Timers τ κ) : Prop where
  created : timers'.created = timers.created
  expiration : timers'.expiration = timers.expiration
  hasPool : timers'.hasPool = timers.hasPool
  canceled : timers'.canceled = timers.canceled
  destroyRequested : timers'.destroyRequested = timers.destroyRequested
  numPending : ∀ t,
    timers'.numPending t = timers.numPending t + (fired.filter timers.hasPool).count t
  listPending : timers'.listPending = timers.listPending + (fired.filter timers.hasPool).length

omit [LinearOrder κ] in
theorem fired_nil (timers : Timers τ κ) : Fired timers [] timers :=
  ⟨rfl, rfl, rfl, rfl, rfl, fun _ => rfl, rfl⟩

omit [LinearOrder κ] in
/-- One more timer is fired first. -/
theorem Fired.cons {timers' : Timers τ κ} {fired : List τ} {links : Links τ} {queueHead : Option τ}
    (h : Fired (({ timers with links, queueHead } : Timers τ κ).fire t) fired timers') :
    Fired timers (t :: fired) timers' := by
  cases hpool : timers.hasPool t with
  | false =>
      have hfire : ({ timers with links, queueHead } : Timers τ κ).fire t =
          { timers with links, queueHead } := by
        simp [Timers.fire, hpool]
      rw [hfire] at h
      refine ⟨h.created, h.expiration, h.hasPool, h.canceled, h.destroyRequested, ?_, ?_⟩
      · intro u
        rw [h.numPending, List.filter_cons_of_neg (by simp [hpool])]
      · rw [h.listPending, List.filter_cons_of_neg (by simp [hpool])]
  | true =>
      have hfire : ({ timers with links, queueHead } : Timers τ κ).fire t =
          { timers with
            links := links
            queueHead := queueHead
            numPending := update timers.numPending t (timers.numPending t + 1)
            listPending := timers.listPending + 1 } := by
        simp [Timers.fire, hpool]
      rw [hfire] at h
      refine ⟨h.created, h.expiration, h.hasPool, h.canceled, h.destroyRequested, ?_, ?_⟩
      · intro u
        rw [h.numPending, List.filter_cons_of_pos hpool, List.count_cons]
        by_cases heq : u = t
        · subst heq
          simp
          omega
        · simp [heq, Ne.symm heq]
      · rw [h.listPending, List.filter_cons_of_pos hpool, List.length_cons]
        exact Nat.add_right_comm ..

omit [LinearOrder κ] in
/-- A timer action leaves the list and the expirations alone. -/
theorem fire_eq (timers : Timers τ κ) (t : τ) :
    ∃ numPending listPending, timers.fire t = { timers with numPending, listPending } := by
  unfold Timers.fire
  split
  · exact ⟨_, _, rfl⟩
  · exact ⟨_, _, rfl⟩

/-- The head of the queue is taken out and fired. -/
theorem fire_head (h : QueueOf timers (t :: us) stale) :
    ∃ links, dlDelete timers.links timers.queueHead t = some (links, us.head?) ∧
      QueueOf ((({ timers with links, queueHead := us.head? } : Timers τ κ).clear t).fire t) us
        stale ∧
      ((({ timers with links, queueHead := us.head? } : Timers τ κ).clear t).fire t).expiration =
        timers.expiration := by
  have hqueue : IsQueue timers.links timers.queueHead ([] ++ t :: us) stale := h.queue
  obtain ⟨links, hdelete, hdeleted⟩ := hqueue.delete
  have hcleared : IsQueue (links.clear t) us.head? us stale :=
    (hdeleted.clear hqueue.not_mem).mono fun a _ ha => ha.2.resolve_left ha.1
  obtain ⟨numPending, listPending, hfire⟩ :=
    fire_eq (({ timers with links, queueHead := us.head? } : Timers τ κ).clear t) t
  refine ⟨links, hdelete, ?_, ?_⟩
  · rw [hfire]
    refine ⟨⟨hcleared, fun u hu => ?_⟩, (List.pairwise_cons.mp h.sorted).2⟩
    exact h.created u (List.mem_cons_of_mem t hu)
  · rw [hfire]
    rfl

/-- `__margo_check_timers` fires the expired timers of the queue in order and leaves
the others. -/
theorem checkLoop_spec {bound : Nat} (now : κ) (h : QueueOf timers us stale)
    (hbound : us.length ≤ bound) :
    ∃ timers', checkLoop now bound timers =
        some (timers', us.takeWhile (timers.expiration · < now)) ∧
      QueueOf timers' (us.dropWhile (timers.expiration · < now)) stale ∧
      Fired timers (us.takeWhile (timers.expiration · < now)) timers' := by
  induction us generalizing timers bound with
  | nil =>
      have hhead : timers.queueHead = none := h.queue.head
      refine ⟨timers, ?_, h, fired_nil timers⟩
      cases bound with
      | zero => exact if_pos hhead
      | succ bound => simp only [checkLoop, hhead, List.takeWhile_nil]
  | cons t us ih =>
      obtain ⟨bound, rfl⟩ : ∃ b, bound = b + 1 := ⟨bound - 1, by simp at hbound; omega⟩
      have hhead : timers.queueHead = some t := h.queue.head
      rw [checkLoop, hhead]
      by_cases hexpired : timers.expiration t < now
      · obtain ⟨links, hdelete, hqueue, hexpiration⟩ := fire_head h
        obtain ⟨timers', hloop, hrest, hfired⟩ := ih hqueue (Nat.le_of_succ_le_succ hbound)
        rw [hexpiration] at hloop hrest hfired
        refine ⟨timers', ?_, ?_, ?_⟩
        · rw [hhead] at hdelete
          rw [List.takeWhile_cons_of_pos (by simpa using hexpired)]
          simp only [if_pos hexpired, hdelete, hloop, Option.bind_eq_bind, Option.bind_some]
          rfl
        · rw [List.dropWhile_cons_of_pos (by simpa using hexpired)]
          exact hrest
        · rw [List.takeWhile_cons_of_pos (by simpa using hexpired)]
          exact Fired.cons hfired
      · refine ⟨timers, ?_, ?_, ?_⟩
        · simp [hexpired]
        · rw [List.dropWhile_cons_of_neg (by simpa using hexpired)]
          exact h
        · rw [List.takeWhile_cons_of_neg (by simpa using hexpired)]
          exact fired_nil timers

end

end Margo.Timer
