import Margo.Timer.Threads

/-!
# What a step of the threads can do

The steps of the threads told by the list of the queued timers: every orderly step
of `program` that keeps the promises of the callers is one of the cases of `Does`,
and the links stay those of a queue.

## Implementation notes

The links and the head of the queue after a step are left open in `Does`: the
list of the queued timers says what they are. The queue need not be sorted, since
overlapping starts of a timer store its expiration again when it is queued.
-/

namespace Margo.Timer

open Function Lib.Links Lib.ThreadPool Lib.Runs

universe u

variable {τ κ : Type u} [DecidableEq τ] [LinearOrder κ]

/-- Everything that a step of a thread can do when the timers `us` are queued. -/
inductive Does (us : List τ) (m : Shared τ κ) :
    Thread τ κ → Choice τ κ → List τ → Shared τ κ → List (Thread τ κ) → Prop
  | check (now : κ) (hunlocked : m.listLocked = false) :
      Does us m .progress (.check now) us { m with listLocked := true } [.loop (.check now)]
  | startRefused (timer : τ) (now timeout : κ) :
      Does us m .caller (.start timer now timeout) us
        { m.use [timer] with quiet := update m.quiet timer false } [.caller]
  | start (timer : τ) (now timeout expiration : κ) :
      Does us m .caller (.start timer now timeout) us
        { m.use [timer] with quiet := update m.quiet timer false } [.startStore timer expiration]
  | startStore (timer : τ) (expiration : κ) :
      Does us m (.startStore timer expiration) .go us
        { m.use [timer] with timers := m.timers.setExpiration timer expiration }
        [.startQueue timer]
  | startQueue (timer : τ) (us' used : List τ) (links : Links τ) (queueHead : Option τ)
      (hunlocked : m.listLocked = false) (hused : ∀ u ∈ used, u = timer ∨ u ∈ us)
      (hstarted : ∀ u ∈ us', u = timer ∨ u ∈ us) (hkept : ∀ u ∈ us, u ∈ us') :
      Does us m (.startQueue timer) .go us'
        { m.use used with timers := { m.timers with links, queueHead } } [.caller]
  | cancel (timer : τ) :
      Does us m .caller (.cancel timer) us
        { m.use [timer] with timers := m.timers.setCanceled timer true } [.cancelSection timer]
  | cancelNone : Does us m .caller (.cancelMany []) us m [.caller]
  | cancelMany (timers : List τ) (links : Links τ) (queueHead : Option τ) (hne : timers ≠ [])
      (hunlocked : m.listLocked = false) :
      Does us m .caller (.cancelMany timers) (us.filter (· ∉ timers))
        { m.use timers with
          timers := { m.timers with
            links, queueHead
            canceled := fun u => if u ∈ timers then true else m.timers.canceled u } }
        [.manyWait timers timers]
  | destroyNow (timer : τ) (hqueued : timer ∉ us) (hpending : m.timers.numPending timer = 0) :
      Does us m .caller (.destroy timer) us
        { m.use [timer] with
          requested := update m.requested timer false
          destroyed := update m.destroyed timer true } [.destroyFree timer]
  | destroyLater (timer : τ) (howed : timer ∈ us ∨ m.timers.numPending timer ≠ 0) :
      Does us m .caller (.destroy timer) us
        { m.use [timer] with
          requested := update m.requested timer true
          destroyed := update m.destroyed timer true } [.caller]
  | listFree (hunlocked : m.listLocked = false) :
      Does us m .caller .listFree us
        { m with
          listLocked := true
          timers := { m.timers with destroyRequested := true } } [.loop .free]
  | leaveCheck (now : κ) (used : List τ) (hused : ∀ u ∈ used, u ∈ us) :
      Does us m (.loop (.check now)) .go us { m.use used with listLocked := false } [.progress]
  | leaveFree (hempty : us = []) (hnone : m.timers.listPending = 0) :
      Does us m (.loop .free) .go us m [.listCleanup]
  | leaveWait (hempty : us = []) :
      Does us m (.loop .free) .go us { m with listLocked := false } [.freeWait]
  | takeCount (f : Firing κ) (timer : τ) (us' used : List τ) (links : Links τ)
      (queueHead : Option τ) (hus : us = timer :: us') (hused : ∀ u ∈ used, u ∈ us)
      (hpool : m.timers.hasPool timer = true) :
      Does us m (.loop f) .go us'
        { m.use used with timers := { m.timers with links, queueHead } } [.count f timer]
  | takeCall (f : Firing κ) (timer : τ) (us' used : List τ) (links : Links τ)
      (queueHead : Option τ) (hus : us = timer :: us') (hused : ∀ u ∈ used, u ∈ us)
      (hpool : m.timers.hasPool timer = false) :
      Does us m (.loop f) .go us'
        { m.use used with timers := { m.timers with links, queueHead } } [.call f timer]
  | count (f : Firing κ) (timer : τ) :
      Does us m (.count f timer) .go us
        { m.use [timer] with
          timers := { m.timers with
            numPending := update m.timers.numPending timer (m.timers.numPending timer + 1) } }
        [.submit f timer]
  | submit (f : Firing κ) (timer : τ) :
      Does us m (.submit f timer) .go us
        { m.use [timer] with
          timers := { m.timers with listPending := m.timers.listPending + 1 } }
        [.loop f, .ult timer]
  | call (f : Firing κ) (timer : τ) :
      Does us m (.call f timer) .go us (m.invoke timer) [.called f timer]
  | called (f : Firing κ) (timer : τ) : Does us m (.called f timer) .go us m [.loop f]
  | freeWait (hunlocked : m.listLocked = false) (hnone : m.timers.listPending = 0) :
      Does us m .freeWait .go us { m with listLocked := true } [.listCleanup]
  | listCleanup : Does us m .listCleanup .go us { m with listFreed := true } []
  | ultCanceled (timer : τ) (hcanceled : m.timers.canceled timer = true) :
      Does us m (.ult timer) .go us (m.use [timer]) [.decrement timer]
  | ult (timer : τ) (hcanceled : m.timers.canceled timer = false) :
      Does us m (.ult timer) .go us (m.use [timer]) [.callback timer]
  | callback (timer : τ) : Does us m (.callback timer) .go us (m.invoke timer) [.running timer]
  | running (timer : τ) : Does us m (.running timer) .go us m [.decrement timer]
  | decrementLast (timer : τ) (hlast : m.timers.numPending timer - 1 = 0) :
      Does us m (.decrement timer) .go us
        { m.use [timer] with
          timers := { m.timers with
            numPending := update m.timers.numPending timer (m.timers.numPending timer - 1) } }
        [.signal timer (m.requested timer)]
  | decrement (timer : τ) (hmore : m.timers.numPending timer - 1 ≠ 0) :
      Does us m (.decrement timer) .go us
        { m.use [timer] with
          timers := { m.timers with
            numPending := update m.timers.numPending timer (m.timers.numPending timer - 1) } }
        [.listDecrement]
  | signalDestroy (timer : τ) :
      Does us m (.signal timer true) .go us (m.use [timer]) [.cleanup timer]
  | signal (timer : τ) :
      Does us m (.signal timer false) .go us (m.use [timer]) [.listDecrement]
  | cleanup (timer : τ) :
      Does us m (.cleanup timer) .go us
        { m with freed := update m.freed timer (m.freed timer + 1) } [.listDecrement]
  | listDecrementLast (hunlocked : m.listLocked = false) (hlast : m.timers.listPending - 1 = 0) :
      Does us m .listDecrement .go us
        { m with
          listUsed := m.listUsed || m.listFreed
          timers := { m.timers with listPending := m.timers.listPending - 1 } } [.listSignal]
  | listDecrement (hunlocked : m.listLocked = false) (hmore : m.timers.listPending - 1 ≠ 0) :
      Does us m .listDecrement .go us
        { m with
          listUsed := m.listUsed || m.listFreed
          timers := { m.timers with listPending := m.timers.listPending - 1 } } []
  | listSignal :
      Does us m .listSignal .go us { m with listUsed := m.listUsed || m.listFreed } []
  | cancelSection (timer : τ) (used : List τ) (links : Links τ) (queueHead : Option τ)
      (hunlocked : m.listLocked = false) (hused : ∀ u ∈ used, u = timer ∨ u ∈ us) :
      Does us m (.cancelSection timer) .go (us.filter (· != timer))
        { m.use used with timers := { m.timers with links, queueHead } } [.cancelClear timer]
  | cancelClear (timer : τ) (links : Links τ) :
      Does us m (.cancelClear timer) .go us
        { m.use [timer] with timers := { m.timers with links } } [.cancelWait timer]
  | cancelWait (timer : τ) (hnone : m.timers.numPending timer = 0) :
      Does us m (.cancelWait timer) .go us (m.use [timer]) [.cancelReset timer]
  | cancelReset (timer : τ) :
      Does us m (.cancelReset timer) .go us
        { m.use [timer] with
          timers := m.timers.setCanceled timer false
          quiet := update m.quiet timer true } [.caller]
  | manyWait (timers : List τ) (timer : τ) (rest : List τ) (hnone : m.timers.numPending timer = 0) :
      Does us m (.manyWait timers (timer :: rest)) .go us (m.use [timer])
        [.manyReset timers timer rest]
  | manyLast (timers : List τ) (timer : τ) :
      Does us m (.manyReset timers timer []) .go us
        { m.use [timer] with
          timers := m.timers.setCanceled timer false
          quiet := fun t => if t ∈ timers then true else m.quiet t } [.caller]
  | manyNext (timers : List τ) (timer : τ) (rest : List τ) (hne : rest ≠ []) :
      Does us m (.manyReset timers timer rest) .go us
        { m.use [timer] with timers := m.timers.setCanceled timer false }
        [.manyWait timers rest]
  | destroyFree (timer : τ) :
      Does us m (.destroyFree timer) .go us
        { m with freed := update m.freed timer (m.freed timer + 1) } [.caller]

/-- The timers `us` are queued. A timer with links left over was deleted by
`margo_timer_cancel`, which has not yet set them to null. -/
structure Queued (s : Threads τ κ) (us : List τ) : Prop where
  queue : Listed s.shared.timers us fun t => .cancelClear t ∈ s.threads
  deleted : ∀ t, .cancelClear t ∈ s.threads → t ∉ us
  /-- A timer that is being started was created, and no cancel of it is in progress. -/
  started : ∀ t, ∀ x ∈ s.threads, x.starts t →
    t ∈ s.shared.timers.created ∧ ∀ y ∈ s.threads, y.cancels t = false

section

variable {timers timers' : Timers τ κ} {us : List τ} {t : τ} {stale stale' : τ → Prop}

omit [DecidableEq τ] [LinearOrder κ] in
/-- The queue is told by the links, the head and what was created. -/
theorem Listed.congr (h : Listed timers us stale) (hlinks : timers'.links = timers.links)
    (hhead : timers'.queueHead = timers.queueHead)
    (hcreated : timers'.created = timers.created) (hstale : ∀ a, stale a → stale' a) :
    Listed timers' us stale' := by
  refine Listed.mono ⟨?_, ?_⟩ fun a _ => hstale a
  · rw [hlinks, hhead]
    exact h.queue
  · rw [hcreated]
    exact h.created

omit [DecidableEq τ] [LinearOrder κ] in
/-- Only timers with links are half canceled. -/
theorem Listed.linked (h : Listed timers us stale) :
    Listed timers us fun t => timers.links.Linked t ∧ stale t := by
  refine ⟨⟨h.queue.hold, h.queue.head, ?_⟩, h.created⟩
  intro t ht hnot
  by_cases hlinked : timers.links.Linked t
  · exact h.queue.others t ht fun hstale => hnot ⟨hlinked, hstale⟩
  · rwa [Links.Linked, not_or, not_ne_iff, not_ne_iff] at hlinked

omit [DecidableEq τ] [LinearOrder κ] in
/-- The links of a timer of the queue lead to timers of the queue. -/
theorem Listed.neighbors (h : Listed timers us stale) (ht : t ∈ us) :
    (∀ u ∈ timers.links.prev t, u ∈ us) ∧ ∀ u ∈ timers.links.next t, u ∈ us := by
  obtain ⟨xs, ys, rfl⟩ := List.append_of_mem ht
  obtain ⟨hprev, hnext⟩ := Seg.links h.queue.hold.2
  rw [hprev, hnext, Option.or_none]
  constructor
  · intro u hu
    rw [List.getLast?_append_cons, List.getLast?_cons] at hu
    obtain hu | ⟨-, hu⟩ := Option.or_eq_some_iff.mp hu
    · exact List.mem_append_left _ (List.mem_of_getLast? hu)
    · cases hys : ys.getLast? with
      | none =>
          rw [hys] at hu
          obtain rfl : t = u := Option.some.inj hu
          exact ht
      | some last =>
          rw [hys] at hu
          obtain rfl : last = u := Option.some.inj hu
          exact List.mem_append_right xs (List.mem_cons_of_mem t (List.mem_of_getLast? hys))
  · exact fun u hu => List.mem_append_right xs (List.mem_cons_of_mem t (List.mem_of_head? hu))

omit [DecidableEq τ] [LinearOrder κ] in
/-- `DL_DELETE` reads and writes timers of the queue. -/
theorem Listed.around (h : Listed timers us stale) (hmem : timers.links.Linked t → t ∈ us) :
    ∀ u ∈ timers.around t, u = t ∨ u ∈ us := by
  intro u hu
  rw [Timers.around, List.mem_cons] at hu
  refine hu.imp_right fun hu => ?_
  split at hu
  · next hlinked =>
      obtain ⟨hprev, hnext⟩ := h.neighbors (hmem hlinked)
      rw [List.mem_append, List.mem_append, Option.mem_toList, Option.mem_toList,
        Option.mem_toList, h.queue.head] at hu
      obtain (hu | hu) | hu := hu
      · exact hprev u hu
      · exact hnext u hu
      · exact List.mem_of_head? hu
  · exact absurd hu List.not_mem_nil

/-- The walk of `__margo_timer_queue` stays in the queue. -/
theorem Listed.walkAround (h : Listed timers us stale) {head cur : τ} {bound : Nat}
    (hcur : cur ∈ us) :
    ∀ u ∈ walkAround timers.expiration timers.links t head bound cur, u ∈ us := by
  induction bound generalizing cur with
  | zero => exact fun u hu => absurd hu List.not_mem_nil
  | succ bound ih =>
      intro u hu
      rw [Timer.walkAround] at hu
      split at hu
      · exact absurd hu List.not_mem_nil
      · next before hprev =>
          have hbefore : before ∈ us := (h.neighbors hcur).1 before hprev
          obtain rfl | hu := List.mem_cons.mp hu
          · exact hbefore
          · split at hu
            · exact (h.neighbors hbefore).2 u (Option.mem_toList.mp hu)
            · split at hu
              · exact absurd hu List.not_mem_nil
              · exact ih hbefore u hu

/-- `__margo_timer_queue` reads and writes its timer and timers of the queue. -/
theorem Listed.walked (h : Listed timers us stale) : ∀ u ∈ timers.walked t, u = t ∨ u ∈ us := by
  intro u hu
  rw [Timers.walked, List.mem_cons] at hu
  refine hu.imp_right fun hu => ?_
  split at hu
  · exact absurd hu List.not_mem_nil
  · next head hhead =>
      have hmem : head ∈ us := List.mem_of_head? (h.queue.head ▸ hhead)
      obtain rfl | hu := List.mem_cons.mp hu
      · exact hmem
      · exact h.walkAround hmem u hu

omit [LinearOrder κ] in
/-- The section of `margo_timer_cancel`, for a timer whose links are not left over. -/
theorem unlink_queue (h : Listed timers us stale) (hnot : ¬stale t)
    (hunlink : timers.unlink t = some timers') :
    ∃ links queueHead, timers' = { timers with links, queueHead } ∧
      Listed timers' (us.filter (· != t)) fun a => a = t ∨ stale a := by
  by_cases ht : t ∈ us
  · obtain ⟨links, hunlink', hqueue⟩ := unlink_mem h ht
    rw [hunlink] at hunlink'
    obtain rfl := Option.some.inj hunlink'
    refine ⟨links, _, rfl, ?_⟩
    rw [← h.queue.hold.1.erase_eq_filter]
    exact hqueue
  · rw [unlink_not_mem h ht hnot] at hunlink
    obtain rfl := Option.some.inj hunlink
    have hfilter : us.filter (· != t) = us :=
      List.filter_eq_self.mpr fun u hu => by simpa using ne_of_mem_of_not_mem hu ht
    refine ⟨_, _, rfl, ?_⟩
    rw [hfilter]
    exact h.mono fun a _ ha => .inr ha

omit [LinearOrder κ] in
/-- The head of the queue is taken out. -/
theorem take_queue {us' : List τ} (h : Listed timers (t :: us') stale)
    (hunlink : timers.unlink t = some timers') :
    ∃ links queueHead, timers'.clear t = { timers with links, queueHead } ∧
      Listed (timers'.clear t) us' stale := by
  obtain ⟨links, hunlink', hqueue⟩ := unlink_mem h List.mem_cons_self
  rw [hunlink] at hunlink'
  obtain rfl := Option.some.inj hunlink'
  rw [List.erase_cons_head] at hqueue ⊢
  have hnot : t ∉ us' := (List.nodup_cons.mp h.queue.hold.1).1
  exact ⟨_, _, rfl, (hqueue.clear hnot).mono fun a _ ha => ha.2.resolve_left ha.1⟩

end

/-! ## Every step -/

section

variable {us : List τ} {m m' : Shared τ κ} {others ts : List (Thread τ κ)} {t : τ}
  {thread : Thread τ κ} {choice : Choice τ κ}

/-- A loop test, and the timer that is taken out of the queue if it holds. -/
theorem does_of_loopStep {f : Firing κ} {stale : τ → Prop} (h : Listed m.timers us stale)
    (hstep : loopStep m f = some (m', ts)) :
    ∃ us', Listed m'.timers us' stale ∧ Does us m (.loop f) .go us' m' ts := by
  rw [loopStep] at hstep
  cases us with
  | nil =>
      have hhead : m.timers.queueHead = none := h.queue.head
      rw [hhead] at hstep
      cases f with
      | check now =>
          cases hstep
          have hleave : Does [] m (.loop (.check now)) .go [] { m.use [] with listLocked := false }
              [.progress] := .leaveCheck now [] fun u hu => hu
          rw [Shared.use, List.filter_nil, List.append_nil] at hleave
          exact ⟨[], h, hleave⟩
      | free =>
          simp only [leaveLoop] at hstep
          split at hstep
          · next hnone =>
              cases hstep
              exact ⟨[], h, .leaveFree rfl hnone⟩
          · cases hstep
            exact ⟨[], h, .leaveWait rfl⟩
  | cons cur us =>
      have hhead : m.timers.queueHead = some cur := h.queue.head
      simp only [hhead] at hstep
      split at hstep
      · obtain ⟨timers, hunlink, htaken⟩ := Option.map_eq_some_iff.mp hstep
        obtain ⟨links, queueHead, hclear, hqueue⟩ := take_queue h hunlink
        cases htaken
        rw [hclear] at hqueue ⊢
        have hused : ∀ u ∈ m.timers.around cur, u ∈ cur :: us := fun u hu =>
          (h.around (fun _ => List.mem_cons_self) u hu).elim
            (fun heq => heq ▸ List.mem_cons_self) id
        refine ⟨us, hqueue, ?_⟩
        cases hpool : m.timers.hasPool cur with
        | true => exact .takeCount f cur us _ links queueHead rfl hused hpool
        | false => exact .takeCall f cur us _ links queueHead rfl hused hpool
      · next hfires =>
          cases f with
          | check now =>
              cases hstep
              refine ⟨cur :: us, h, .leaveCheck now [cur] ?_⟩
              exact fun u hu => List.mem_singleton.mp hu ▸ List.mem_cons_self
          | free => exact absurd rfl hfires

omit [LinearOrder κ] in
/-- Only a start puts a timer into the queue. -/
theorem Does.queued {us' : List τ} (h : Does us m thread choice us' m' ts) (ht : t ∈ us') :
    t ∈ us ∨ thread = .startQueue t := by
  cases h with
  | startQueue timer _ _ _ _ _ _ hstarted =>
      obtain rfl | hmem := hstarted t ht
      · exact .inr rfl
      · exact .inl hmem
  | cancelMany | cancelSection => exact .inl (List.mem_of_mem_filter ht)
  | takeCount _ _ _ _ _ _ hus | takeCall _ _ _ _ _ _ hus =>
      exact .inl (hus ▸ List.mem_cons_of_mem _ ht)
  | _ => exact .inl ht

omit [LinearOrder κ] in
/-- A start begins with its test. -/
theorem Does.starts {us' : List τ} (h : Does us m thread choice us' m' ts) :
    ∀ x ∈ ts, x.starts t → thread.starts t ∨ ∃ now timeout, choice = .start t now timeout := by
  cases h with
  | start => simp +contextual [Thread.starts]
  | _ => simp [Thread.starts]

omit [LinearOrder κ] in
/-- A cancel goes on, or it begins. -/
theorem Does.canceling {us' : List τ} (h : Does us m thread choice us' m' ts) :
    ∀ x ∈ ts, x.cancels t → thread.cancels t ∨ choice = .cancel t ∨
      ∃ timers, choice = .cancelMany timers ∧ t ∈ timers := by
  cases h with
  | cancel | cancelMany => simp +contextual [Thread.cancels]
  | _ => simp +contextual [Thread.cancels]

omit [LinearOrder κ] in
theorem Does.created {us' : List τ} (h : Does us m thread choice us' m' ts) :
    m'.timers.created = m.timers.created := by
  cases h <;> rfl

omit [LinearOrder κ] in
/-- Only callers and the progress thread choose. -/
theorem Does.chooses {us' : List τ} (h : Does us m thread choice us' m' ts) :
    choice = .go ∨ thread = .caller ∨ thread = .progress := by
  cases h with
  | check => exact .inr (.inr rfl)
  | startRefused | start | cancel | cancelNone | cancelMany | destroyNow | destroyLater
  | listFree =>
      exact .inr (.inl rfl)
  | _ => exact .inl rfl

omit [LinearOrder κ] in
/-- A cancel that is about to set the links to null has taken the timer out. -/
theorem Does.deleted {us' : List τ} (h : Does us m thread choice us' m' ts)
    (ht : .cancelClear t ∈ ts) : t ∉ us' := by
  cases h with
  | cancelSection timer =>
      obtain rfl : t = timer := by simpa using ht
      simp
  | _ => simp at ht

/-- A call that a caller makes. -/
theorem does_of_call [Add κ] {s : Threads τ κ} {i : Nat} (hqueued : Queued s us)
    (hpromised : Promised s (i, choice)) (horderly : Orderly s (i, choice))
    (hcaller : s.threads[i]? = some .caller)
    (hprogram : program s.shared .caller choice = some (m', ts)) :
    ∃ us', Listed m'.timers us' (fun t => .cancelClear t ∈ s.threads) ∧
      Does us s.shared .caller choice us' m' ts := by
  cases choice with
  | go | check => cases hprogram
  | start t now timeout =>
      cases hprogram
      refine ⟨us, hqueued.queue.congr rfl rfl rfl fun _ ht => ht, ?_⟩
      split
      · exact .startRefused t now timeout
      · exact .start t now timeout _
  | cancel t =>
      cases hprogram
      exact ⟨us, hqueued.queue.congr rfl rfl rfl fun _ ht => ht, .cancel t⟩
  | cancelMany timers =>
      simp only [program] at hprogram
      split at hprogram
      · next hnil =>
          cases hnil
          cases hprogram
          exact ⟨us, hqueued.queue, .cancelNone⟩
      · next hne =>
          split at hprogram
          · cases hprogram
          · next hunlocked =>
              obtain ⟨timers', hcancel, hmany⟩ := Option.map_eq_some_iff.mp hprogram
              have hnot : ∀ t ∈ timers, ¬HalfCanceled s t := by
                simpa only [CancelsApart, hcaller] using horderly.1
              obtain ⟨links, queueHead, hcancel', hqueue⟩ :=
                cancelEach_spec timers hqueued.queue.linked hnot
              rw [hcancel] at hcancel'
              obtain rfl := Option.some.inj hcancel'
              cases hmany
              exact ⟨_, hqueue.mono fun t _ ht => ht.2, .cancelMany timers links queueHead hne
                (Bool.eq_false_iff.mpr hunlocked)⟩
  | destroy t =>
      have hnot : .cancelClear t ∉ s.threads := fun hmem => by
        simpa [Thread.cancels] using (hpromised.2 _ hmem).1
      have hlinked : s.shared.timers.links.Linked t ↔ t ∈ us := hqueued.queue.queue.linked_iff hnot
      rw [program] at hprogram
      by_cases hcan : ¬s.shared.timers.links.Linked t ∧ s.shared.timers.numPending t = 0
      · simp only [hcan, not_true_eq_false, decide_false, not_false_eq_true, and_self,
          if_true] at hprogram
        cases hprogram
        exact ⟨us, hqueued.queue.congr rfl rfl rfl fun _ ht => ht,
          .destroyNow t (mt hlinked.mpr hcan.1) hcan.2⟩
      · simp only [hcan, not_false_eq_true, decide_true, if_false] at hprogram
        cases hprogram
        have howed : t ∈ us ∨ s.shared.timers.numPending t ≠ 0 := by
          rw [← hlinked]
          tauto
        exact ⟨us, hqueued.queue.congr rfl rfl rfl fun _ ht => ht, .destroyLater t howed⟩
  | listFree =>
      simp only [program] at hprogram
      split at hprogram
      · cases hprogram
      · next hunlocked =>
          cases hprogram
          exact ⟨us, hqueued.queue.congr rfl rfl rfl fun _ ht => ht,
            .listFree (Bool.eq_false_iff.mpr hunlocked)⟩

/-- Only callers and the progress thread choose. -/
theorem program_go [Add κ] {r : Shared τ κ × List (Thread τ κ)}
    (h : program m thread choice = some r) :
    choice = .go ∨ thread = .caller ∨ ∃ now, thread = .progress ∧ choice = .check now := by
  revert h
  fun_cases program m thread choice
  all_goals simp

/-- A step of a thread that leaves the queue alone. -/
theorem does_of_go [Add κ] (us : List τ) (hprogram : program m thread .go = some (m', ts))
    (hloop : ∀ f, thread ≠ .loop f) (hqueue : ∀ t, thread ≠ .startQueue t)
    (hsection : ∀ t, thread ≠ .cancelSection t) (hclear : ∀ t, thread ≠ .cancelClear t) :
    Does us m thread .go us m' ts ∧ m'.timers.links = m.timers.links ∧
      m'.timers.queueHead = m.timers.queueHead := by
  cases thread with
  | progress | caller => cases hprogram
  | loop f => exact absurd rfl (hloop f)
  | startQueue t => exact absurd rfl (hqueue t)
  | cancelSection t => exact absurd rfl (hsection t)
  | cancelClear t => exact absurd rfl (hclear t)
  | count f t =>
      cases hprogram
      exact ⟨.count f t, rfl, rfl⟩
  | submit f t =>
      cases hprogram
      exact ⟨.submit f t, rfl, rfl⟩
  | call f t =>
      cases hprogram
      exact ⟨.call f t, rfl, rfl⟩
  | called f t =>
      cases hprogram
      exact ⟨.called f t, rfl, rfl⟩
  | freeWait =>
      simp only [program] at hprogram
      split at hprogram
      · cases hprogram
      · next hready =>
          obtain ⟨hunlocked, hnone⟩ := not_or.mp hready
          cases hprogram
          exact ⟨.freeWait (Bool.eq_false_iff.mpr hunlocked) (not_not.mp hnone), rfl, rfl⟩
  | listCleanup =>
      cases hprogram
      exact ⟨.listCleanup, rfl, rfl⟩
  | ult t =>
      cases hprogram
      refine ⟨?_, rfl, rfl⟩
      cases hcanceled : m.timers.canceled t with
      | true => exact .ultCanceled t hcanceled
      | false => exact .ult t hcanceled
  | callback t =>
      cases hprogram
      exact ⟨.callback t, rfl, rfl⟩
  | running t =>
      cases hprogram
      exact ⟨.running t, rfl, rfl⟩
  | decrement t =>
      cases hprogram
      refine ⟨?_, rfl, rfl⟩
      rw [update_self]
      split
      · next hlast => exact .decrementLast t hlast
      · next hmore => exact .decrement t hmore
  | signal t needDestroy =>
      cases hprogram
      refine ⟨?_, rfl, rfl⟩
      cases needDestroy with
      | true => exact .signalDestroy t
      | false => exact .signal t
  | cleanup t =>
      cases hprogram
      exact ⟨.cleanup t, rfl, rfl⟩
  | listDecrement =>
      simp only [program] at hprogram
      split at hprogram
      · cases hprogram
      · next hunlocked =>
          cases hprogram
          refine ⟨?_, rfl, rfl⟩
          split
          · next hlast => exact .listDecrementLast (Bool.eq_false_iff.mpr hunlocked) hlast
          · next hmore => exact .listDecrement (Bool.eq_false_iff.mpr hunlocked) hmore
  | listSignal =>
      cases hprogram
      exact ⟨.listSignal, rfl, rfl⟩
  | startStore t expiration =>
      cases hprogram
      exact ⟨.startStore t expiration, rfl, rfl⟩
  | cancelWait t =>
      simp only [program] at hprogram
      split at hprogram
      · next hnone =>
          cases hprogram
          exact ⟨.cancelWait t hnone, rfl, rfl⟩
      · cases hprogram
  | cancelReset t =>
      cases hprogram
      exact ⟨.cancelReset t, rfl, rfl⟩
  | manyWait timers rest =>
      cases rest with
      | nil => cases hprogram
      | cons t rest =>
          simp only [program] at hprogram
          split at hprogram
          · next hnone =>
              cases hprogram
              exact ⟨.manyWait timers t rest hnone, rfl, rfl⟩
          · cases hprogram
  | manyReset timers t rest =>
      simp only [program, Option.some.injEq] at hprogram
      by_cases hnil : rest = []
      · simp only [Margo.Timer.manyNext, hnil, if_true] at hprogram
        cases hprogram
        cases hnil
        exact ⟨.manyLast timers t, rfl, rfl⟩
      · simp only [Margo.Timer.manyNext, hnil, if_false] at hprogram
        cases hprogram
        exact ⟨.manyNext timers t rest hnil, rfl, rfl⟩
  | destroyFree t =>
      cases hprogram
      exact ⟨.destroyFree t, rfl, rfl⟩

/-- The section of `margo_timer_start`, for a timer that is not in the queue. -/
theorem does_of_startQueue [Add κ] {s : Threads τ κ} (hqueued : Queued s us)
    (hmem : .startQueue t ∈ s.threads) (hnot : ¬s.shared.timers.links.Linked t)
    (hprogram : program s.shared (.startQueue t) .go = some (m', ts)) :
    ∃ us', Listed m'.timers us' (fun t => .cancelClear t ∈ s.threads) ∧
      Does us s.shared (.startQueue t) .go us' m' ts := by
  obtain ⟨hcreated, hcancels⟩ := hqueued.started t _ hmem (decide_eq_true rfl)
  have hstale : .cancelClear t ∉ s.threads := fun hclear => by
    simpa [Thread.cancels] using hcancels _ hclear
  have ht : t ∉ us := mt (hqueued.queue.queue.linked_iff hstale).mpr hnot
  simp only [program] at hprogram
  split at hprogram
  · cases hprogram
  · next hunlocked =>
      obtain ⟨timers, henqueue, hqueue⟩ := Option.map_eq_some_iff.mp hprogram
      obtain ⟨links, xs, ys, hus, henqueue', hlisted, -, -⟩ :=
        enqueue_spec hqueued.queue ht hstale hcreated
      rw [henqueue] at henqueue'
      obtain rfl := Option.some.inj henqueue'
      cases hqueue
      have hperm : (xs ++ t :: ys).Perm (t :: us) := hus ▸ List.perm_middle
      refine ⟨xs ++ t :: ys, hlisted, .startQueue t _ _ links _ (Bool.eq_false_iff.mpr hunlocked)
        hqueued.queue.walked ?_ ?_⟩
      · exact fun u hu => List.mem_cons.mp (hperm.subset hu)
      · exact fun u hu => hperm.symm.subset (List.mem_cons_of_mem t hu)

/-- The section of `margo_timer_cancel`, for a timer that is not half canceled. -/
theorem does_of_section [Add κ] {s : Threads τ κ} (hqueued : Queued s us) (hnot : ¬HalfCanceled s t)
    (hprogram : program s.shared (.cancelSection t) .go = some (m', ts)) :
    Listed m'.timers (us.filter (· != t)) (fun a => a = t ∨ .cancelClear a ∈ s.threads) ∧
      Does us s.shared (.cancelSection t) .go (us.filter (· != t)) m' ts ∧
      ts = [.cancelClear t] := by
  simp only [program] at hprogram
  split at hprogram
  · cases hprogram
  · next hunlocked =>
      obtain ⟨timers, hunlink, hsection⟩ := Option.map_eq_some_iff.mp hprogram
      obtain ⟨links, queueHead, rfl, hqueue⟩ := unlink_queue hqueued.queue.linked hnot hunlink
      cases hsection
      refine ⟨hqueue.mono fun a _ ha => ha.imp_right And.right, ?_, rfl⟩
      refine .cancelSection t _ links queueHead (Bool.eq_false_iff.mpr hunlocked) ?_
      exact hqueued.queue.linked.around (hqueued.queue.linked.queue.linked_iff hnot).mp

omit [LinearOrder κ] in
/-- No cancel of a timer is in progress at a start of it. -/
theorem Promised.start {s : Threads τ κ} {a : Move τ κ} {now timeout : κ} (h : Promised s a)
    (ha : a.2 = .start t now timeout) :
    t ∈ s.shared.timers.created ∧ s.shared.destroyed t = false ∧
      ∀ x ∈ s.threads, x.cancels t = false := by
  rwa [Promised, ha] at h

omit [LinearOrder κ] in
/-- No start of a timer is in progress at a cancel of it. -/
theorem Promised.cancel {s : Threads τ κ} {a : Move τ κ} (h : Promised s a)
    (ha : a.2 = .cancel t ∨ ∃ timers, a.2 = .cancelMany timers ∧ t ∈ timers) :
    s.shared.destroyed t = false ∧ ∀ x ∈ s.threads, x.starts t = false := by
  obtain ha | ⟨timers, ha, ht⟩ := ha
  · rwa [Promised, ha] at h
  · rw [Promised, ha] at h
    exact h t ht

omit [LinearOrder κ] in
/-- Starts and cancels of one timer do not overlap. -/
theorem Does.started {s : Threads τ κ} {i : Nat} {us' : List τ}
    (h : Does us s.shared thread choice us' m' ts) (hpromised : Promised s (i, choice))
    (hqueued : Queued s us) (hperm : s.threads.Perm (thread :: others)) :
    ∀ x ∈ ts ++ others, x.starts t →
      t ∈ m'.timers.created ∧ ∀ y ∈ ts ++ others, y.cancels t = false := by
  have hthread : thread ∈ s.threads := hperm.mem_iff.mpr List.mem_cons_self
  have hothers : ∀ {x}, x ∈ others → x ∈ s.threads := fun hx =>
    hperm.mem_iff.mpr (List.mem_cons_of_mem thread hx)
  intro x hx hstarts
  have hbefore : t ∈ s.shared.timers.created ∧ ∀ y ∈ s.threads, y.cancels t = false := by
    obtain hx | hx := List.mem_append.mp hx
    · obtain hstarts | ⟨now, timeout, hchoice⟩ := h.starts x hx hstarts
      · exact hqueued.started t thread hthread hstarts
      · exact (hpromised.start hchoice).imp_right And.right
    · exact hqueued.started t x (hothers hx) hstarts
  refine ⟨h.created ▸ hbefore.1, fun y hy => ?_⟩
  obtain hy | hy := List.mem_append.mp hy
  · by_contra hcancels
    obtain hcancels | hchoice := h.canceling y hy (Bool.not_eq_false _ ▸ hcancels)
    · rw [hbefore.2 thread hthread] at hcancels
      cases hcancels
    · have hnone := (hpromised.cancel hchoice).2
      obtain hx | hx := List.mem_append.mp hx
      · obtain hstarts | ⟨now, timeout, hstart⟩ := h.starts x hx hstarts
        · rw [hnone thread hthread] at hstarts
          cases hstarts
        · obtain hchoice | ⟨timers, hchoice, -⟩ := hchoice
          all_goals cases hstart.symm.trans hchoice
      · rw [hnone x (hothers hx)] at hstarts
        cases hstarts
  · exact hbefore.2 y (hothers hy)

/-- Every step is one of `Does`, and the links stay those of a queue. -/
theorem does_of_step [Add κ] {s s' : Threads τ κ} {a : Move τ κ} (hqueued : Queued s us)
    (hpromised : Promised s a) (horderly : Orderly s a) (hstep : threadStep s a = some s') :
    ∃ us' thread ts others, s.threads[a.1]? = some thread ∧ Queued s' us' ∧
      Does us s.shared thread a.2 us' s'.shared ts ∧
      s.threads.Perm (thread :: others) ∧ s'.threads.Perm (ts ++ others) := by
  obtain ⟨thread, ts, hthread, hprogram, hperm, hperm'⟩ := step_cases hstep
  obtain ⟨i, choice⟩ := a
  have hmem : thread ∈ s.threads := List.mem_of_getElem? hthread
  suffices ∃ us', Listed s'.shared.timers us'
      (fun t => .cancelClear t ∈ ts ++ Lib.ThreadPool.others s i) ∧
      Does us s.shared thread choice us' s'.shared ts by
    obtain ⟨us', hqueue, hdoes⟩ := this
    refine ⟨us', thread, ts, _, hthread, ⟨?_, ?_, ?_⟩, hdoes, hperm, hperm'⟩
    · exact hqueue.mono fun t _ ht => hperm'.mem_iff.mpr ht
    · intro t ht hus'
      obtain hts | hothers := List.mem_append.mp (hperm'.mem_iff.mp ht)
      · exact hdoes.deleted hts hus'
      · have hbefore : .cancelClear t ∈ s.threads :=
          hperm.mem_iff.mpr (List.mem_cons_of_mem thread hothers)
        obtain hus | rfl := hdoes.queued hus'
        · exact hqueued.deleted t hbefore hus
        · have hcancels := (hqueued.started t _ hmem (decide_eq_true rfl)).2 _ hbefore
          simp [Thread.cancels] at hcancels
    · intro t x hx hstarts
      have hstarted := hdoes.started hpromised hqueued hperm x (hperm'.mem_iff.mp hx) hstarts
      exact hstarted.imp_right fun hnone y hy => hnone y (hperm'.mem_iff.mp hy)
  obtain ⟨m', threads'⟩ := s'
  -- A step ends a half cancel only of the timer that it is about.
  have hkeep : ∀ t, thread ≠ .cancelClear t → .cancelClear t ∈ s.threads →
      .cancelClear t ∈ ts ++ Lib.ThreadPool.others s i := fun t hne ht =>
    List.mem_append_right ts ((List.mem_cons.mp (hperm.mem_iff.mp ht)).resolve_left hne.symm)
  obtain rfl | rfl | ⟨now, rfl, rfl⟩ := program_go hprogram
  · by_cases hloop : ∃ f, thread = .loop f
    · obtain ⟨f, rfl⟩ := hloop
      obtain ⟨us', hqueue, hdoes⟩ := does_of_loopStep hqueued.queue hprogram
      exact ⟨us', hqueue.mono fun t _ => hkeep t (by simp), hdoes⟩
    by_cases hstart : ∃ t, thread = .startQueue t
    · obtain ⟨t, rfl⟩ := hstart
      have hnot : ¬s.shared.timers.links.Linked t := by
        simpa only [StartsApart, hthread] using horderly.2
      obtain ⟨us', hqueue, hdoes⟩ := does_of_startQueue hqueued hmem hnot hprogram
      exact ⟨us', hqueue.mono fun t _ => hkeep t (by simp), hdoes⟩
    by_cases hsection : ∃ t, thread = .cancelSection t
    · obtain ⟨t, rfl⟩ := hsection
      have hnot : ¬HalfCanceled s t := by simpa only [CancelsApart, hthread] using horderly.1
      obtain ⟨hqueue, hdoes, hts⟩ := does_of_section hqueued hnot hprogram
      refine ⟨_, hqueue.mono fun a _ ha => ?_, hdoes⟩
      obtain rfl | ha := ha
      · exact List.mem_append_left _ (hts ▸ List.mem_singleton_self _)
      · exact hkeep a (by simp) ha
    by_cases hclear : ∃ t, thread = .cancelClear t
    · obtain ⟨t, rfl⟩ := hclear
      cases hprogram
      refine ⟨us, ?_, .cancelClear t _⟩
      exact (hqueued.queue.clear (hqueued.deleted t hmem)).mono fun a _ ha =>
        hkeep a (by simpa using ha.1.symm) ha.2
    obtain ⟨hdoes, hlinks, hhead⟩ := does_of_go us hprogram (not_exists.mp hloop)
      (not_exists.mp hstart) (not_exists.mp hsection) (not_exists.mp hclear)
    refine ⟨us, ?_, hdoes⟩
    exact hqueued.queue.congr hlinks hhead hdoes.created fun t => hkeep t (not_exists.mp hclear t)
  · obtain ⟨us', hqueue, hdoes⟩ := does_of_call hqueued hpromised horderly hthread hprogram
    exact ⟨us', hqueue.mono fun t _ => hkeep t (by simp), hdoes⟩
  · simp only [program] at hprogram
    split at hprogram
    · cases hprogram
    · next hunlocked =>
        cases hprogram
        exact ⟨us, hqueued.queue.congr rfl rfl rfl fun t => hkeep t (by simp),
          .check now (Bool.eq_false_iff.mpr hunlocked)⟩

omit [DecidableEq τ] [LinearOrder κ] in
/-- No thread is in a call at the beginning. -/
theorem startup_none {created : List τ} {expiration : τ → κ} {hasPool : τ → Bool} {callers : Nat}
    (p : Thread τ κ → Bool) (hprogress : p .progress = false) (hcaller : p .caller = false) :
    ∀ x ∈ (startup created expiration hasPool callers).threads, p x = false := by
  intro x hx
  obtain rfl | rfl := mem_startup hx
  · exact hprogress
  · exact hcaller

omit [LinearOrder κ] in
theorem queued_startup (created : List τ) (expiration : τ → κ) (hasPool : τ → Bool)
    (callers : Nat) : Queued (startup created expiration hasPool callers) [] where
  queue := ⟨isQueue_nil fun _ => ⟨rfl, rfl⟩, fun _ ht => absurd ht List.not_mem_nil⟩
  deleted _ _ := List.not_mem_nil
  started t x hx hstarts := by
    rw [startup_none (Thread.starts t) rfl rfl x hx] at hstarts
    cases hstarts

end

end Margo.Timer
