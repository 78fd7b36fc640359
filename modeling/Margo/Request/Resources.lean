import Margo.Request.Model

/-!
# Resources of an operation

Every eventual, timer and arena object of an operation goes through its life
once, on every path. The three routines were edited separately: the forward
and the response free the eventual at `finish` whether or not it had been
created, the bulk transfer never does.
-/

namespace Margo.Request

/-- The life of a timer. -/
inductive TimerState
  | absent
  | idle
  | queued
  deriving DecidableEq, Repr

/-- What an operation holds. -/
structure Held where
  eventual : Bool
  timer : TimerState
  request : Bool
  deriving DecidableEq, Repr

/-- An operation that holds nothing. -/
def Held.nothing : Held := ⟨false, .absent, false⟩

/-- The effect of an event, `none` when it is out of order: something freed
that does not exist, or created twice, or a queued timer destroyed. -/
def Held.step (h : Held) : Event → Option Held
  | .eventualCreate => if h.eventual then none else some { h with eventual := true }
  | .eventualFree => if h.eventual then some { h with eventual := false } else none
  | .timerCreate => if h.timer = .absent then some { h with timer := .idle } else none
  | .timerStart => if h.timer = .idle then some { h with timer := .queued } else none
  | .timerExpire => if h.timer = .queued then some { h with timer := .idle } else none
  | .timerCancel => if h.timer = .absent then none else some { h with timer := .idle }
  | .timerDestroy => if h.timer = .idle then some { h with timer := .absent } else none
  | .arenaGet => if h.request then none else some { h with request := true }
  | .arenaRelease => if h.request then some { h with request := false } else none

/-- The effect of a sequence of events. -/
def Held.replay (h : Held) (log : List Event) : Option Held := log.foldlM Held.step h

/-- Everything created is freed exactly once, and nothing else is freed. -/
def Settled (log : List Event) : Prop := Held.nothing.replay log = some Held.nothing

instance (log : List Event) : Decidable (Settled log) :=
  inferInstanceAs (Decidable (_ = _))

/-- The resources of an operation are settled when its issuing call returns an
error, and after the completion and the wait when it returns `HG_SUCCESS`. -/
def Accounted (type : RequestType) (mode : Mode) (o : Replies) (timeoutMs : Rat)
    (expires : Bool) : Prop :=
  let x := issue type mode o timeoutMs
  if x.hret = .success then Settled (x.log ++ completionLog mode timeoutMs expires)
  else Settled x.log

instance (type : RequestType) (mode : Mode) (o : Replies) (timeoutMs : Rat)
    (expires : Bool) : Decidable (Accounted type mode o timeoutMs expires) :=
  inferInstanceAs (Decidable (ite _ _ _))

/-- Nothing fails before the forward creates its eventual. -/
def Replies.forwardPrepared (o : Replies) : Prop :=
  o.registered = .success ∧
    (o.isRegistered = true ∨
      (o.disabledResponse = .success ∧ o.registerInternal = true ∧
        o.disableResponse = .success)) ∧
    o.reset = .success

/-- Nothing fails after the eventual is created. -/
def Replies.submitted (o : Replies) (timeoutMs : Rat) : Prop :=
  (0 < timeoutMs → o.timerCreate = .success ∧ o.timerStart = .success) ∧
    o.operation = .success

/-- What decides whether the clean-up of an operation of the eventual kind is
right. -/
def Replies.cleans (o : Replies) (timeoutMs : Rat) : RequestType → Prop
  | .forward => o.forwardPrepared ∧ o.eventualCreate = true
  | .response => o.eventualCreate = true
  | .bulk => o.eventualCreate = false ∨ o.submitted timeoutMs

@[simp] theorem replay_nil (h : Held) : h.replay [] = some h := rfl

@[simp] theorem replay_cons (h : Held) (e : Event) (log : List Event) :
    h.replay (e :: log) = (h.step e).bind (·.replay log) := List.foldlM_cons

theorem replay_append (h : Held) (log log' : List Event) :
    h.replay (log ++ log') = (h.replay log).bind (·.replay log') := List.foldlM_append

/-- The events leave the operation with what it held before. -/
def Clean (h : Held) (log : List Event) : Prop := h.replay log = some h

theorem Clean.append {h : Held} {log log' : List Event} (hlog : Clean h log) :
    Clean h (log ++ log') ↔ Clean h log' := by
  rw [Clean, Clean, replay_append, hlog, Option.bind_some]

/-- An operation that holds an arena object only. -/
def Held.requested : Held := ⟨false, .absent, true⟩

/-- Between the two ends of the life of an arena object, the events are clean. -/
theorem settled_arena (log : List Event) :
    Settled (.arenaGet :: log ++ [.arenaRelease]) ↔ Clean .requested log := by
  have hget : Held.nothing.step .arenaGet = some .requested := rfl
  rw [Settled, List.cons_append, replay_cons, hget, Option.bind_some, replay_append, Clean]
  cases hlog : Held.requested.replay log with
  | none => simp
  | some h =>
      obtain ⟨ev, timer, request⟩ := h
      cases request <;> simp [Held.step, Held.nothing, Held.requested]

/-- The routine of an operation. -/
def internal : RequestType → Replies → Rat → RequestKind → Attempt
  | .forward => providerIforwardInternal
  | .response => irespondInternal
  | .bulk => bulkItransferInternal

/-- The events of the completion that do not concern the arena. -/
def completionCore (kind : RequestKind) (timeoutMs : Rat) (expires : Bool) : List Event :=
  (if 0 < timeoutMs ∧ expires then [.timerExpire] else []) ++
    (if 0 < timeoutMs then [.timerCancel, .timerDestroy] else []) ++
    if kind = .eventual then [.eventualFree] else []

/-- An attempt that failed is clean, or one that succeeded and its completion. -/
def CleanAttempt (h : Held) (kind : RequestKind) (timeoutMs : Rat) (expires : Bool)
    (x : Attempt) : Prop :=
  if x.hret = .success then Clean h (x.log ++ completionCore kind timeoutMs expires)
  else Clean h x.log

theorem issue_eq (type : RequestType) (mode : Mode) (o : Replies) (timeoutMs : Rat) :
    issue type mode o timeoutMs =
      if mode = .blocking then internal type o timeoutMs mode.kind
      else withArena o (internal type o timeoutMs mode.kind) := by
  cases type <;> cases mode <;> rfl

theorem completionLog_eq (mode : Mode) (timeoutMs : Rat) (expires : Bool) :
    completionLog mode timeoutMs expires =
      completionCore mode.kind timeoutMs expires ++
        if mode = .blocking then [] else [.arenaRelease] := by
  cases mode <;> simp [completionLog, completionCore, margoCbLog, Mode.kind]

theorem accounted_blocking (type : RequestType) (o : Replies) (timeoutMs : Rat)
    (expires : Bool) :
    Accounted type .blocking o timeoutMs expires ↔
      CleanAttempt .nothing .eventual timeoutMs expires
        (internal type o timeoutMs .eventual) := by
  simp only [Accounted, issue_eq, completionLog_eq, if_true, List.append_nil, Mode.kind]
  rfl

/-- From the arena, an operation is accounted for exactly when no object could
be had or the routine and its completion are clean. -/
theorem accounted_arena {mode : Mode} (hmode : mode ≠ .blocking) (type : RequestType)
    (o : Replies) (timeoutMs : Rat) (expires : Bool) :
    Accounted type mode o timeoutMs expires ↔
      o.arenaGet = false ∨
        CleanAttempt .requested mode.kind timeoutMs expires
          (internal type o timeoutMs mode.kind) := by
  simp only [Accounted, issue_eq, completionLog_eq, if_neg hmode, CleanAttempt]
  generalize internal type o timeoutMs mode.kind = x
  cases hget : o.arenaGet with
  | false => simp [withArena, hget, Settled]
  | true =>
      by_cases hret : x.hret = .success
      · simp only [withArena, hget, hret, if_true]
        rw [← List.append_assoc, List.cons_append, settled_arena]
        simp
      · simp only [withArena, hget, hret, if_true, if_false, settled_arena]
        simp

@[simp] theorem andThen_success (log : List Event) (y : Attempt) :
    Attempt.andThen ⟨.success, log⟩ y = ⟨y.hret, log ++ y.log⟩ := if_pos rfl

theorem andThen_error {x : Attempt} (y : Attempt) (h : x.hret ≠ .success) :
    x.andThen y = x := if_neg h

/-- The part the three routines share, after the eventual. -/
def submission (o : Replies) (timeoutMs : Rat) : Attempt :=
  (armTimer o timeoutMs).andThen (submit o timeoutMs)

/-- A submission arms the timer of its timeout and succeeds, or fails and leaves
no timer behind. -/
theorem submission_cases (o : Replies) (timeoutMs : Rat) :
    (o.submitted timeoutMs ∧ submission o timeoutMs =
        ⟨.success, if 0 < timeoutMs then [.timerCreate, .timerStart] else []⟩) ∨
      (¬ o.submitted timeoutMs ∧ (submission o timeoutMs).hret ≠ .success ∧
        ∀ h : Held, h.timer = .absent → Clean h (submission o timeoutMs).log) := by
  have hclean : ∀ h : Held, h.timer = .absent →
      Clean h [.timerCreate, .timerDestroy] ∧
        Clean h [.timerCreate, .timerStart, .timerCancel, .timerDestroy] := by
    rintro ⟨ev, timer, request⟩ rfl
    exact ⟨rfl, rfl⟩
  by_cases ht : 0 < timeoutMs
  · by_cases hcreate : o.timerCreate = .success
    · by_cases hstart : o.timerStart = .success
      · have harm : armTimer o timeoutMs = ⟨.success, [.timerCreate, .timerStart]⟩ := by
          simp [armTimer, ht, hcreate, hstart]
        by_cases hop : o.operation = .success
        · left
          simp [submission, harm, submit, Replies.submitted, call, ht, hcreate, hstart, hop]
        · right
          have hsubmit : submit o timeoutMs = ⟨o.operation, [.timerCancel, .timerDestroy]⟩ := by
            simp [submit, hop, ht]
          rw [submission, harm, hsubmit, andThen_success]
          exact ⟨fun hall => hop hall.2, hop, fun h hh => (hclean h hh).2⟩
      · right
        have harm : armTimer o timeoutMs = ⟨o.timerStart, [.timerCreate, .timerDestroy]⟩ := by
          simp [armTimer, ht, hcreate, hstart]
        rw [submission, harm, andThen_error _ hstart]
        exact ⟨fun hall => hstart (hall.1 ht).2, hstart, fun h hh => (hclean h hh).1⟩
    · right
      have harm : armTimer o timeoutMs = ⟨o.timerCreate, []⟩ := by
        simp [armTimer, ht, hcreate]
      rw [submission, harm, andThen_error _ hcreate]
      exact ⟨fun hall => hcreate (hall.1 ht).1, hcreate, fun h _ => rfl⟩
  · have hsubmission : submission o timeoutMs = ⟨o.operation, []⟩ := by
      simp [submission, armTimer, submit, call, ht]
    rw [hsubmission]
    by_cases hop : o.operation = .success
    · left
      simp [Replies.submitted, ht, hop]
    · right
      exact ⟨fun hall => hop hall.2, hop, fun h _ => rfl⟩

/-- An armed timer is cleaned up by the completion, expired or not. -/
theorem clean_armed {h : Held} (hh : h.timer = .absent) (timeoutMs : Rat) (expires : Bool) :
    Clean h ((if 0 < timeoutMs then [.timerCreate, .timerStart] else []) ++
      ((if 0 < timeoutMs ∧ expires then [.timerExpire] else []) ++
        (if 0 < timeoutMs then [.timerCancel, .timerDestroy] else []))) := by
  obtain ⟨ev, timer, request⟩ := h
  obtain rfl : timer = .absent := hh
  by_cases ht : 0 < timeoutMs
  · cases expires <;> simp only [ht, Bool.false_eq_true, and_false, and_true, if_true, if_false] <;>
      rfl
  · simp [ht, Clean]

/-- What comes before the eventual of a forward. -/
def forwardOpening (o : Replies) : Attempt :=
  (call o.registered).andThen <| (registerServerId o).andThen (call o.reset)

theorem andThen_assoc (x y z : Attempt) :
    (x.andThen y).andThen z = x.andThen (y.andThen z) := by
  by_cases hx : x.hret = .success
  · by_cases hy : y.hret = .success <;> simp [Attempt.andThen, hx, hy]
  · rw [andThen_error y hx, andThen_error z hx, andThen_error _ hx]

theorem providerIforwardInternal_eq (o : Replies) (timeoutMs : Rat) (kind : RequestKind) :
    providerIforwardInternal o timeoutMs kind =
      freeEventualOnError kind
        ((forwardOpening o).andThen (bulkItransferInternal o timeoutMs kind)) := by
  rw [forwardOpening, andThen_assoc, andThen_assoc]
  rfl

/-- The response is the bulk transfer with the eventual freed on error. -/
theorem irespondInternal_eq (o : Replies) (timeoutMs : Rat) (kind : RequestKind) :
    irespondInternal o timeoutMs kind =
      freeEventualOnError kind (bulkItransferInternal o timeoutMs kind) := rfl

theorem andThen_quiet {x y : Attempt} (hx : x.log = []) (hy : y.log = []) :
    (x.andThen y).log = [] ∧
      ((x.andThen y).hret = .success ↔ x.hret = .success ∧ y.hret = .success) := by
  by_cases h : x.hret = .success <;> simp [Attempt.andThen, h, hx, hy]

theorem registerServerId_quiet (o : Replies) :
    (registerServerId o).log = [] ∧
      ((registerServerId o).hret = .success ↔ o.isRegistered = true ∨
        (o.disabledResponse = .success ∧ o.registerInternal = true ∧
          o.disableResponse = .success)) := by
  cases hreg : o.isRegistered with
  | true => simp [registerServerId, hreg, call]
  | false =>
      have hinner := andThen_quiet
        (x := call (if o.registerInternal then .success else .otherError))
        (y := call o.disableResponse) rfl rfl
      have houter := andThen_quiet (x := call o.disabledResponse) rfl hinner.1
      rw [registerServerId, hreg]
      simp only [Bool.false_eq_true, if_false, false_or]
      refine ⟨houter.1, houter.2.trans ?_⟩
      rw [hinner.2]
      cases o.registerInternal <;> simp [call]

/-- The opening of a forward fails without a trace, or everything is prepared. -/
theorem forwardOpening_cases (o : Replies) :
    (o.forwardPrepared ∧ forwardOpening o = ⟨.success, []⟩) ∨
      (¬ o.forwardPrepared ∧ ∃ e, e ≠ .success ∧ forwardOpening o = ⟨e, []⟩) := by
  obtain ⟨hlog, hret⟩ := registerServerId_quiet o
  have hinner := andThen_quiet hlog (y := call o.reset) rfl
  have houter := andThen_quiet (x := call o.registered) rfl hinner.1
  have hiff : (forwardOpening o).hret = .success ↔ o.forwardPrepared := by
    rw [forwardOpening, houter.2, hinner.2, hret]
    rfl
  have heta : forwardOpening o = ⟨(forwardOpening o).hret, []⟩ := by
    rw [Attempt.mk.injEq]
    exact ⟨rfl, houter.1⟩
  by_cases h : (forwardOpening o).hret = .success
  · exact Or.inl ⟨hiff.mp h, heta.trans (by rw [h])⟩
  · exact Or.inr ⟨fun hp => h (hiff.mpr hp), _, h, heta⟩

theorem bulkItransferInternal_callback (o : Replies) (timeoutMs : Rat) :
    bulkItransferInternal o timeoutMs .callback = submission o timeoutMs :=
  andThen_success [] _

theorem bulkItransferInternal_eventual (o : Replies) (timeoutMs : Rat) :
    bulkItransferInternal o timeoutMs .eventual =
      if o.eventualCreate then
        ⟨(submission o timeoutMs).hret, .eventualCreate :: (submission o timeoutMs).log⟩
      else ⟨.nomemError, []⟩ := by
  cases hcreate : o.eventualCreate <;>
    simp [bulkItransferInternal, createEventual, hcreate, Attempt.andThen, submission]

/-- With a completion callback there is no eventual, and a submission cleans up. -/
theorem clean_submission {h : Held} (hh : h.timer = .absent) (o : Replies) (timeoutMs : Rat)
    (expires : Bool) :
    CleanAttempt h .callback timeoutMs expires (submission o timeoutMs) := by
  obtain ⟨-, hx⟩ | ⟨-, hret, hclean⟩ := submission_cases o timeoutMs
  · simpa [CleanAttempt, hx, completionCore] using clean_armed hh timeoutMs expires
  · rw [CleanAttempt, if_neg hret]
    exact hclean h hh

theorem clean_callback {h : Held} (hh : h.timer = .absent) (type : RequestType) (o : Replies)
    (timeoutMs : Rat) (expires : Bool) :
    CleanAttempt h .callback timeoutMs expires (internal type o timeoutMs .callback) := by
  have hsubmission := clean_submission hh o timeoutMs expires
  have hfinish : ∀ x, freeEventualOnError .callback x = x := by
    intro x
    simp [freeEventualOnError]
  cases type with
  | bulk =>
      rw [internal, bulkItransferInternal_callback]
      exact hsubmission
  | response =>
      rw [internal, irespondInternal_eq, hfinish, bulkItransferInternal_callback]
      exact hsubmission
  | forward =>
      rw [internal, providerIforwardInternal_eq, hfinish, bulkItransferInternal_callback]
      obtain ⟨-, hopen⟩ | ⟨-, e, he, hopen⟩ := forwardOpening_cases o
      · rw [hopen, andThen_success]
        exact hsubmission
      · rw [hopen, andThen_error _ he, CleanAttempt, if_neg he]
        rfl

section EventualKind

variable {h : Held} (hev : h.eventual = false) (hh : h.timer = .absent)

include hev in
/-- Freeing an eventual that was never created is out of order. -/
theorem not_clean_free : ¬ Clean h [.eventualFree] := by
  simp [Clean, Held.step, hev]

include hev in
theorem replay_create (log : List Event) :
    h.replay (.eventualCreate :: log) = Held.replay { h with eventual := true } log := by
  simp [Held.step, hev]

include hev in
/-- An eventual created and not freed is left behind. -/
theorem not_clean_create {log : List Event} (hlog : Clean { h with eventual := true } log) :
    ¬ Clean h (.eventualCreate :: log) := by
  rw [Clean, replay_create hev, hlog]
  intro heq
  have := congrArg (Option.map Held.eventual) heq
  simp [hev] at this

include hev in
theorem clean_create_free {log : List Event} (hlog : Clean { h with eventual := true } log) :
    Clean h (.eventualCreate :: log ++ [.eventualFree]) := by
  rw [Clean, List.cons_append, replay_create hev, replay_append, hlog]
  cases h
  simp_all [Held.step]

include hev hh in
/-- With the eventual created, an operation that Mercury accepted is clean once
it has completed and has been waited for. -/
theorem clean_accepted (timeoutMs : Rat) (expires : Bool) :
    Clean h (.eventualCreate :: (if 0 < timeoutMs then [.timerCreate, .timerStart] else []) ++
      completionCore .eventual timeoutMs expires) := by
  have harmed := clean_armed (h := { h with eventual := true }) hh timeoutMs expires
  have hall := clean_create_free hev harmed
  simpa [completionCore] using hall

include hev hh in
theorem clean_bulk_iff (o : Replies) (timeoutMs : Rat) (expires : Bool) :
    CleanAttempt h .eventual timeoutMs expires (bulkItransferInternal o timeoutMs .eventual) ↔
      o.eventualCreate = false ∨ o.submitted timeoutMs := by
  rw [CleanAttempt, bulkItransferInternal_eventual]
  cases hcreate : o.eventualCreate with
  | false => simp [Clean]
  | true =>
      obtain ⟨hsub, heq⟩ | ⟨hsub, hret, hclean⟩ := submission_cases o timeoutMs
      · simpa [hsub, heq] using clean_accepted hev hh timeoutMs expires
      · simpa [hsub, hret] using not_clean_create hev (hclean { h with eventual := true } hh)

include hev hh in
/-- Freeing the eventual on every error is right exactly if it was created. -/
theorem clean_respond_iff (o : Replies) (timeoutMs : Rat) (expires : Bool) :
    CleanAttempt h .eventual timeoutMs expires (irespondInternal o timeoutMs .eventual) ↔
      o.eventualCreate = true := by
  rw [CleanAttempt, irespondInternal_eq, bulkItransferInternal_eventual]
  cases hcreate : o.eventualCreate with
  | false => simpa [freeEventualOnError] using not_clean_free hev
  | true =>
      obtain ⟨hsub, heq⟩ | ⟨hsub, hret, hclean⟩ := submission_cases o timeoutMs
      · simpa [freeEventualOnError, heq] using clean_accepted hev hh timeoutMs expires
      · simpa [freeEventualOnError, hret] using
          clean_create_free hev (hclean { h with eventual := true } hh)

include hev hh in
theorem clean_forward_iff (o : Replies) (timeoutMs : Rat) (expires : Bool) :
    CleanAttempt h .eventual timeoutMs expires
        (providerIforwardInternal o timeoutMs .eventual) ↔
      o.forwardPrepared ∧ o.eventualCreate = true := by
  rw [providerIforwardInternal_eq]
  obtain ⟨hprep, hopen⟩ | ⟨hprep, e, he, hopen⟩ := forwardOpening_cases o
  · rw [hopen, andThen_success]
    simpa [hprep, irespondInternal_eq] using clean_respond_iff hev hh o timeoutMs expires
  · rw [hopen, andThen_error _ he]
    simpa [CleanAttempt, freeEventualOnError, he, hprep] using not_clean_free hev

include hev hh in
theorem clean_eventual_iff (type : RequestType) (o : Replies) (timeoutMs : Rat)
    (expires : Bool) :
    CleanAttempt h .eventual timeoutMs expires (internal type o timeoutMs .eventual) ↔
      o.cleans timeoutMs type := by
  cases type with
  | forward => exact clean_forward_iff hev hh o timeoutMs expires
  | response => exact clean_respond_iff hev hh o timeoutMs expires
  | bulk => exact clean_bulk_iff hev hh o timeoutMs expires

end EventualKind

/-- The resources of an operation are accounted for exactly when there is no
eventual to clean up, because the operation has a callback or got no request,
or the clean-up of its routine is right: for a forward and a response nothing
fails before the eventual exists, for a bulk transfer nothing fails after. -/
theorem accounted_iff (type : RequestType) (mode : Mode) (o : Replies) (timeoutMs : Rat)
    (expires : Bool) :
    Accounted type mode o timeoutMs expires ↔
      mode = .callback ∨ (mode = .eventual ∧ o.arenaGet = false) ∨ o.cleans timeoutMs type := by
  cases mode with
  | blocking =>
      rw [accounted_blocking, clean_eventual_iff rfl rfl]
      simp
  | eventual =>
      rw [accounted_arena (by decide), Mode.kind, clean_eventual_iff rfl rfl]
      simp
  | callback =>
      rw [accounted_arena (by decide)]
      exact iff_of_true (Or.inr (clean_callback rfl type o timeoutMs expires)) (Or.inl rfl)

/-- The replies of a run in which nothing fails. -/
def Replies.allSucceed : Replies :=
  ⟨true, .success, true, .success, true, .success, .success, true, .success, .success, .success⟩

/-- `HG_Bulk_transfer` fails and the eventual of the request is not freed. -/
theorem bulk_eventual_leaked :
    ¬ ∀ (type : RequestType) (mode : Mode) (o : Replies) (timeoutMs : Rat) (expires : Bool),
      Accounted type mode o timeoutMs expires := by
  intro hall
  have hbulk := hall .bulk .eventual { Replies.allSucceed with operation := .otherError } 0 false
  exact absurd hbulk (by decide)

end Margo.Request
