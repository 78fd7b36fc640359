import Margo.Lib.ThreadPool
import Margo.Timer.Model

/-!
# The timer functions as concurrent threads

The threads that use the timers of one instance: the progress thread in
`__margo_check_timers`, the timer ULTs, callers of `margo_timer_start`,
`margo_timer_cancel`, `margo_timer_cancel_many` and `margo_timer_destroy`, and the
final `__margo_timer_list_free`.

## Implementation notes

The sections of the mutex of a timer, the stores outside of a mutex, the tests
of `canceled`, the test of `margo_timer_start`, the callbacks, the signals and
the calls of `free` are one step each. The mutex of the list is a flag: the
functions that fire timers take the mutexes of the timers while they hold it, so
their sections are several steps; a section of another function is one step that
needs the flag to be clear. A wait on a condition variable is a step that needs
the awaited condition, which covers every wakeup. The memory of a freed timer
keeps its contents; a use of it is recorded. The fields
`destroyed`, `freed`, `listFreed`, `quiet`, `late`, `used` and `listUsed` are not
read by any step.
-/

namespace Margo.Timer

open Function Lib.ThreadPool Lib.Runs

universe u

/-- The timers of an instance, and what has happened to them so far. -/
structure Shared (τ κ : Type u) where
  timers : Timers τ κ
  /-- The mutex of the list is held by a function that fires timers. -/
  listLocked : Bool
  listFreed : Bool
  /-- `destroy_requested` of the timers. -/
  requested : τ → Bool
  /-- `margo_timer_destroy` was called. -/
  destroyed : τ → Bool
  /-- How often a timer was freed. -/
  freed : τ → Nat
  /-- A cancel of the timer has returned since its last start. -/
  quiet : τ → Bool
  /-- The callbacks that were called while their timer was quiet. -/
  late : List τ
  /-- The freed timers that were read or written. -/
  used : List τ
  /-- A timer ULT has read or written the freed list. -/
  listUsed : Bool

/-- The function that fires timers: `__margo_check_timers` with its clock reading, or
`__margo_timer_list_free`. -/
inductive Firing (κ : Type u)
  | check (now : κ)
  | free
  deriving DecidableEq, Repr

/-- The program points, named after what the thread does next. -/
inductive Thread (τ κ : Type u)
  /-- The progress thread outside of `__margo_check_timers`. -/
  | progress
  /-- A caller outside of any call. -/
  | caller
  /-- At the loop test of a function that fires timers. -/
  | loop (f : Firing κ)
  /-- The timer was taken out of the queue; at the mutex section that counts a ULT. -/
  | count (f : Firing κ) (timer : τ)
  /-- The ULT was counted; at its creation. -/
  | submit (f : Firing κ) (timer : τ)
  /-- The timer has no pool and was taken out of the queue; at the call of its callback. -/
  | call (f : Firing κ) (timer : τ)
  /-- The callback of a timer without a pool is running. -/
  | called (f : Firing κ) (timer : τ)
  /-- `__margo_timer_list_free` waits for the ULTs. -/
  | freeWait
  /-- `__margo_timer_list_free` at its call of `free`. -/
  | listCleanup
  /-- A ULT at its test of `canceled`. -/
  | ult (timer : τ)
  /-- A ULT at the call of its callback. -/
  | callback (timer : τ)
  /-- The callback is running. -/
  | running (timer : τ)
  /-- A ULT at its section of the mutex of the timer. -/
  | decrement (timer : τ)
  /-- A ULT at the signal, with its `need_destroy`. -/
  | signal (timer : τ) (needDestroy : Bool)
  /-- A ULT at the call of `free`. -/
  | cleanup (timer : τ)
  /-- A ULT at its section of the mutex of the list. -/
  | listDecrement
  /-- A ULT at the signal of the list. -/
  | listSignal
  /-- `margo_timer_start` at its store into `expiration`. -/
  | startStore (timer : τ) (expiration : κ)
  /-- `margo_timer_start` at its section of the mutex of the list. -/
  | startQueue (timer : τ)
  /-- `margo_timer_cancel` at its section of the mutex of the list. -/
  | cancelSection (timer : τ)
  /-- `margo_timer_cancel` where it sets the links to null. -/
  | cancelClear (timer : τ)
  /-- `margo_timer_cancel` at its wait. -/
  | cancelWait (timer : τ)
  /-- `margo_timer_cancel` where it resets `canceled`. -/
  | cancelReset (timer : τ)
  /-- `margo_timer_cancel_many` at the wait for the first of the remaining timers. -/
  | manyWait (timers rest : List τ)
  /-- `margo_timer_cancel_many` where it resets `canceled` of one timer. -/
  | manyReset (timers : List τ) (timer : τ) (rest : List τ)
  /-- `margo_timer_destroy` at the call of `free`. -/
  | destroyFree (timer : τ)
  deriving DecidableEq, Repr

/-- What a caller does next, or that a thread goes on. -/
inductive Choice (τ κ : Type u)
  | go
  | check (now : κ)
  | start (timer : τ) (now timeout : κ)
  | cancel (timer : τ)
  | cancelMany (timers : List τ)
  | destroy (timer : τ)
  | listFree
  deriving DecidableEq, Repr

variable {τ κ : Type u} [DecidableEq τ] [LinearOrder κ]

/-- Timers are read or written. -/
def Shared.use (m : Shared τ κ) (ts : List τ) : Shared τ κ :=
  { m with used := m.used ++ ts.filter (0 < m.freed ·) }

/-- The callback of a timer is called. -/
def Shared.invoke (m : Shared τ κ) (timer : τ) : Shared τ κ :=
  { m.use [timer] with late := m.late ++ if m.quiet timer then [timer] else [] }

/-- What `DL_DELETE` reads or writes. -/
def Timers.around (timers : Timers τ κ) (timer : τ) : List τ :=
  timer :: if timers.links.Linked timer then
    (timers.links.prev timer).toList ++ (timers.links.next timer).toList ++ timers.queueHead.toList
  else []

/-- What the walk of `__margo_timer_queue` from `cur` on reads or writes. -/
def walkAround (expiration : τ → κ) (links : Links τ) (timer head : τ) :
    Nat → τ → List τ
  | 0, _ => []
  | bound + 1, cur =>
      match links.prev cur with
      | none => []
      | some cur =>
          cur :: if expiration cur < expiration timer then (links.next cur).toList
            else if cur = head then [] else walkAround expiration links timer head bound cur

/-- What `__margo_timer_queue` reads or writes. -/
def Timers.walked (timers : Timers τ κ) (timer : τ) : List τ :=
  timer :: match timers.queueHead with
    | none => []
    | some head =>
        head :: walkAround timers.expiration timers.links timer head timers.created.length head

/-- The loop test of the function holds for the head of the queue. -/
def Firing.fires (timers : Timers τ κ) (head : τ) : Firing κ → Bool
  | .check now => timers.expiration head < now
  | .free => true

/-- The loop is left. -/
def leaveLoop (m : Shared τ κ) : Firing κ → Shared τ κ × List (Thread τ κ)
  | .check _ => ({ m with listLocked := false }, [.progress])
  | .free =>
      if m.timers.listPending = 0 then (m, [.listCleanup])
      else ({ m with listLocked := false }, [.freeWait])

/-- One iteration of the loop, up to the test for a pool. -/
def loopStep (m : Shared τ κ) (f : Firing κ) : Option (Shared τ κ × List (Thread τ κ)) :=
  match m.timers.queueHead with
  | none => some (leaveLoop m f)
  | some cur =>
      if f.fires m.timers cur then
        (m.timers.unlink cur).map fun timers =>
          ({ m.use (m.timers.around cur) with timers := timers.clear cur },
            [if m.timers.hasPool cur then .count f cur else .call f cur])
      else some (leaveLoop (m.use [cur]) f)

/-- The end of a call of `margo_timer_cancel_many` for one timer. -/
def manyNext (m : Shared τ κ) (timers rest : List τ) : Shared τ κ × List (Thread τ κ) :=
  if rest = [] then
    ({ m with quiet := fun t => if t ∈ timers then true else m.quiet t }, [.caller])
  else (m, [.manyWait timers rest])

/-- What a thread does. -/
def program [Add κ] (m : Shared τ κ) : Thread τ κ → Choice τ κ →
    Option (Shared τ κ × List (Thread τ κ))
  | .progress, .check now =>
      if m.listLocked then none else some ({ m with listLocked := true }, [.loop (.check now)])
  | .caller, .start timer now timeout =>
      let refused := m.timers.links.Linked timer ∨ m.timers.canceled timer ∨
        m.timers.destroyRequested
      some ({ m.use [timer] with quiet := update m.quiet timer false },
        [if refused then .caller else .startStore timer (now + timeout)])
  | .caller, .cancel timer =>
      some ({ m.use [timer] with timers := m.timers.setCanceled timer true },
        [.cancelSection timer])
  | .caller, .cancelMany timers =>
      if timers = [] then some (m, [.caller])
      else if m.listLocked then none
      else
        (cancelEach timers m.timers).map fun timers' =>
          ({ m.use timers with timers := timers' }, [.manyWait timers timers])
  | .caller, .destroy timer =>
      let canDestroy := ¬m.timers.links.Linked timer ∧ m.timers.numPending timer = 0
      some ({ m.use [timer] with
        requested := update m.requested timer (¬canDestroy)
        destroyed := update m.destroyed timer true },
        [if canDestroy then .destroyFree timer else .caller])
  | .caller, .listFree =>
      if m.listLocked then none
      else
        some ({ m with
          listLocked := true
          timers := { m.timers with destroyRequested := true } }, [.loop .free])
  | .loop f, .go => loopStep m f
  | .count f timer, .go =>
      let numPending := update m.timers.numPending timer (m.timers.numPending timer + 1)
      some ({ m.use [timer] with timers := { m.timers with numPending } }, [.submit f timer])
  | .submit f timer, .go =>
      some ({ m.use [timer] with
        timers := { m.timers with listPending := m.timers.listPending + 1 } },
        [.loop f, .ult timer])
  | .call f timer, .go => some (m.invoke timer, [.called f timer])
  | .called f _, .go => some (m, [.loop f])
  | .freeWait, .go =>
      if m.listLocked ∨ m.timers.listPending ≠ 0 then none
      else some ({ m with listLocked := true }, [.listCleanup])
  | .listCleanup, .go => some ({ m with listFreed := true }, [])
  | .ult timer, .go =>
      some (m.use [timer], [if m.timers.canceled timer then .decrement timer else .callback timer])
  | .callback timer, .go => some (m.invoke timer, [.running timer])
  | .running timer, .go => some (m, [.decrement timer])
  | .decrement timer, .go =>
      let numPending := update m.timers.numPending timer (m.timers.numPending timer - 1)
      let noMorePending := numPending timer = 0
      some ({ m.use [timer] with timers := { m.timers with numPending } },
        [if noMorePending then .signal timer (m.requested timer) else .listDecrement])
  | .signal timer needDestroy, .go =>
      some (m.use [timer], [if needDestroy then .cleanup timer else .listDecrement])
  | .cleanup timer, .go =>
      some ({ m with freed := update m.freed timer (m.freed timer + 1) }, [.listDecrement])
  | .listDecrement, .go =>
      if m.listLocked then none
      else
        some ({ m with
          listUsed := m.listUsed || m.listFreed
          timers := { m.timers with listPending := m.timers.listPending - 1 } },
          if m.timers.listPending - 1 = 0 then [.listSignal] else [])
  | .listSignal, .go => some ({ m with listUsed := m.listUsed || m.listFreed }, [])
  | .startStore timer expiration, .go =>
      some ({ m.use [timer] with timers := m.timers.setExpiration timer expiration },
        [.startQueue timer])
  | .startQueue timer, .go =>
      if m.listLocked then none
      else
        (m.timers.enqueue timer).map fun timers =>
          ({ m.use (m.timers.walked timer) with timers }, [.caller])
  | .cancelSection timer, .go =>
      if m.listLocked then none
      else
        (m.timers.unlink timer).map fun timers =>
          ({ m.use (m.timers.around timer) with timers }, [.cancelClear timer])
  | .cancelClear timer, .go =>
      some ({ m.use [timer] with timers := m.timers.clear timer }, [.cancelWait timer])
  | .cancelWait timer, .go =>
      if m.timers.numPending timer = 0 then some (m.use [timer], [.cancelReset timer]) else none
  | .cancelReset timer, .go =>
      some ({ m.use [timer] with
        timers := m.timers.setCanceled timer false
        quiet := update m.quiet timer true }, [.caller])
  | .manyWait timers (timer :: rest), .go =>
      if m.timers.numPending timer = 0 then
        some (m.use [timer], [.manyReset timers timer rest])
      else none
  | .manyReset timers timer rest, .go =>
      some (manyNext { m.use [timer] with timers := m.timers.setCanceled timer false } timers rest)
  | .destroyFree timer, .go =>
      some ({ m with freed := update m.freed timer (m.freed timer + 1) }, [.caller])
  | _, _ => none

abbrev Threads (τ κ : Type u) := Config (Shared τ κ) (Thread τ κ)

/-- Which thread goes on, and with which choice. -/
abbrev Move (τ κ : Type u) := Nat × Choice τ κ

/-- One of the threads goes on. -/
abbrev threadStep [Add κ] : Threads τ κ → Move τ κ → Option (Threads τ κ) :=
  Lib.ThreadPool.step program

/-- Timers that were never started, and threads outside of any call. -/
def startup (created : List τ) (expiration : τ → κ) (hasPool : τ → Bool) (callers : Nat) :
    Threads τ κ where
  shared :=
    { timers :=
        { created
          links := ⟨fun _ => none, fun _ => none⟩
          expiration
          hasPool
          numPending := fun _ => 0
          canceled := fun _ => false
          queueHead := none
          listPending := 0
          destroyRequested := false }
      listLocked := false
      listFreed := false
      requested := fun _ => false
      destroyed := fun _ => false
      freed := fun _ => 0
      quiet := fun _ => false
      late := []
      used := []
      listUsed := false }
  threads := .progress :: List.replicate callers .caller

omit [DecidableEq τ] [LinearOrder κ] in
theorem mem_startup {created : List τ} {expiration : τ → κ} {hasPool : τ → Bool} {callers : Nat}
    {thread : Thread τ κ} (h : thread ∈ (startup created expiration hasPool callers).threads) :
    thread = .progress ∨ thread = .caller :=
  (List.mem_cons.mp h).imp_right List.eq_of_mem_replicate

/-! ## What callers promise, and what goes wrong -/

/-- A cancel of the timer is in progress. -/
def Thread.cancels (timer : τ) : Thread τ κ → Bool
  | .cancelSection t | .cancelClear t | .cancelWait t | .cancelReset t => timer = t
  | .manyWait ts _ | .manyReset ts _ _ => timer ∈ ts
  | _ => false

/-- A start of the timer has passed its test. -/
def Thread.starts (timer : τ) : Thread τ κ → Bool
  | .startStore t _ | .startQueue t => timer = t
  | _ => false

/-- No start of a timer during a cancel of it and no cancel during a start, no
destruction during one of the two, one destruction of a timer, and no call about it
afterwards; one destruction of the list. -/
def Promised (s : Threads τ κ) (a : Move τ κ) : Prop :=
  match a.2 with
  | .start t _ _ =>
      t ∈ s.shared.timers.created ∧ s.shared.destroyed t = false ∧
        ∀ thread ∈ s.threads, thread.cancels t = false
  | .cancel t => s.shared.destroyed t = false ∧ ∀ thread ∈ s.threads, thread.starts t = false
  | .cancelMany ts =>
      ∀ t ∈ ts, s.shared.destroyed t = false ∧ ∀ thread ∈ s.threads, thread.starts t = false
  | .destroy t =>
      s.shared.destroyed t = false ∧
        ∀ thread ∈ s.threads, thread.cancels t = false ∧ thread.starts t = false
  | .listFree => s.shared.timers.destroyRequested = false
  | .go | .check _ => True

instance (s : Threads τ κ) (a : Move τ κ) : Decidable (Promised s a) :=
  match a with
  | (_, .start t _ _) =>
      inferInstanceAs (Decidable (t ∈ s.shared.timers.created ∧ s.shared.destroyed t = false ∧
        ∀ thread ∈ s.threads, thread.cancels t = false))
  | (_, .cancel t) =>
      inferInstanceAs (Decidable (s.shared.destroyed t = false ∧
        ∀ thread ∈ s.threads, thread.starts t = false))
  | (_, .cancelMany ts) =>
      inferInstanceAs (Decidable (∀ t ∈ ts, s.shared.destroyed t = false ∧
        ∀ thread ∈ s.threads, thread.starts t = false))
  | (_, .destroy t) =>
      inferInstanceAs (Decidable (s.shared.destroyed t = false ∧
        ∀ thread ∈ s.threads, thread.cancels t = false ∧ thread.starts t = false))
  | (_, .listFree) => inferInstanceAs (Decidable (s.shared.timers.destroyRequested = false))
  | (_, .go) | (_, .check _) => inferInstanceAs (Decidable True)

/-- The timer was taken out of the queue by `margo_timer_cancel`, which has not yet set
its links to null. -/
def HalfCanceled (s : Threads τ κ) (t : τ) : Prop :=
  s.shared.timers.links.Linked t ∧ .cancelClear t ∈ s.threads

instance (s : Threads τ κ) (t : τ) : Decidable (HalfCanceled s t) :=
  inferInstanceAs (Decidable (_ ∧ _))

/-- No section of a cancel finds a half canceled timer. -/
def CancelsApart (s : Threads τ κ) (a : Move τ κ) : Prop :=
  match s.threads[a.1]?, a.2 with
  | some (.cancelSection t), .go => ¬HalfCanceled s t
  | some .caller, .cancelMany ts => ∀ t ∈ ts, ¬HalfCanceled s t
  | _, _ => True

instance (s : Threads τ κ) (a : Move τ κ) : Decidable (CancelsApart s a) := by
  unfold CancelsApart
  split <;> infer_instance

/-- No section of `margo_timer_start` finds its timer in the queue. -/
def StartsApart (s : Threads τ κ) (a : Move τ κ) : Prop :=
  match s.threads[a.1]?, a.2 with
  | some (.startQueue t), .go => ¬s.shared.timers.links.Linked t
  | _, _ => True

instance (s : Threads τ κ) (a : Move τ κ) : Decidable (StartsApart s a) := by
  unfold StartsApart
  split <;> infer_instance

/-- The sections of overlapping calls keep apart. -/
def Orderly (s : Threads τ κ) (a : Move τ κ) : Prop :=
  CancelsApart s a ∧ StartsApart s a

instance (s : Threads τ κ) (a : Move τ κ) : Decidable (Orderly s a) :=
  inferInstanceAs (Decidable (_ ∧ _))

end Margo.Timer
