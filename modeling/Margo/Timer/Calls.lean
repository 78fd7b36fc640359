import Margo.Lib.Runs
import Margo.Timer.Model

/-!
# The timer functions, one call at a time

The calls of the timer functions on one instance that do not overlap: between
the start and the end of a call to cancel timers, which waits for ULTs, only
timer ULTs run.

## Implementation notes

The steps of a call to cancel timers are its section and the end of each of its
waits; the other calls and the execution of a timer ULT are one step each. What
a call returns is appended to the replies, a callback that is called to the
calls. Timers are not destroyed here.
-/

namespace Margo.Timer

open Function Lib.Runs

universe u

/-- What a call returns, and the time until the next expiration. -/
inductive Reply (κ : Type u)
  | code (ret : Int)
  | next (ret : Int) (timeLeft : Option κ)
  deriving DecidableEq, Repr

/-- The timers of an instance, the submitted ULTs, and the timers for which the
call in progress still has to wait. -/
structure State (τ κ : Type u) where
  timers : Timers τ κ
  ults : List τ
  waiting : List τ
  calls : List τ
  replies : List (Reply κ)

inductive Label (τ κ : Type u)
  | create (timer : τ) (pool : Bool)
  | start (timer : τ) (now timeout : κ)
  | cancel (timer : τ)
  | cancelMany (timers : List τ)
  | check (now : κ)
  | next (now : κ)
  | ult (timer : τ)
  | awake
  deriving DecidableEq, Repr

variable {τ κ : Type u} [DecidableEq τ] [LinearOrder κ] [Zero κ] [Add κ] [Sub κ]

/-- `timer_ult`. -/
def timerUlt (timers : Timers τ κ) (timer : τ) : Timers τ κ × List τ :=
  let calls := if timers.canceled timer then [] else [timer]
  ({ timers with
    numPending := update timers.numPending timer (timers.numPending timer - 1)
    listPending := timers.listPending - 1 }, calls)

/-- Calls do not overlap, and they are about timers that exist. -/
def Allowed (s : State τ κ) : Label τ κ → Prop
  | .create timer _ => s.waiting = [] ∧ timer ∉ s.timers.created
  | .start timer _ _ => s.waiting = [] ∧ timer ∈ s.timers.created
  | .cancel timer => s.waiting = [] ∧ timer ∈ s.timers.created
  | .cancelMany timers => s.waiting = [] ∧ ∀ timer ∈ timers, timer ∈ s.timers.created
  | .check _ | .next _ => s.waiting = []
  | .ult timer => timer ∈ s.ults
  | .awake => ∃ timer ∈ s.waiting.head?, s.timers.numPending timer = 0

instance (s : State τ κ) (l : Label τ κ) : Decidable (Allowed s l) :=
  match l with
  | .create timer _ => inferInstanceAs (Decidable (s.waiting = [] ∧ timer ∉ s.timers.created))
  | .start timer _ _ => inferInstanceAs (Decidable (s.waiting = [] ∧ timer ∈ s.timers.created))
  | .cancel timer => inferInstanceAs (Decidable (s.waiting = [] ∧ timer ∈ s.timers.created))
  | .cancelMany timers =>
      inferInstanceAs (Decidable (s.waiting = [] ∧ ∀ timer ∈ timers, timer ∈ s.timers.created))
  | .check _ | .next _ => inferInstanceAs (Decidable (s.waiting = []))
  | .ult timer => inferInstanceAs (Decidable (timer ∈ s.ults))
  | .awake =>
      inferInstanceAs (Decidable (∃ timer ∈ s.waiting.head?, s.timers.numPending timer = 0))

/-- The call returns. -/
def State.reply (s : State τ κ) (reply : Reply κ) : State τ κ :=
  { s with replies := s.replies ++ [reply] }

/-- What a step does if it is allowed. -/
def act (s : State τ κ) : Label τ κ → Option (State τ κ)
  | .create timer pool =>
      let (timers, ret) := margoTimerCreateWithPool s.timers timer pool
      some (State.reply { s with timers } (.code ret))
  | .start timer now timeout =>
      (margoTimerStart s.timers timer now timeout).map fun (timers, ret) =>
        State.reply { s with timers } (.code ret)
  | .cancel timer =>
      ((s.timers.setCanceled timer true).unlink timer).map fun timers =>
        { s with timers := timers.clear timer, waiting := [timer] }
  | .cancelMany [] => some (s.reply (.code 0))
  | .cancelMany timers =>
      (cancelEach timers s.timers).map fun timers' =>
        { s with timers := timers', waiting := timers }
  | .check now =>
      (checkTimers s.timers now).map fun (timers, fired) =>
        { s with
          timers
          ults := s.ults ++ fired.filter s.timers.hasPool
          calls := s.calls ++ fired.filter (!s.timers.hasPool ·) }
  | .next now =>
      let (ret, timeLeft) := getNextExpiration s.timers now
      some (s.reply (.next ret timeLeft))
  | .ult timer =>
      let (timers, calls) := timerUlt s.timers timer
      some { s with timers, ults := s.ults.erase timer, calls := s.calls ++ calls }
  | .awake =>
      match s.waiting with
      | [] => none
      | timer :: rest =>
          let s := { s with timers := s.timers.setCanceled timer false, waiting := rest }
          some (if rest = [] then s.reply (.code 0) else s)

def step (s : State τ κ) (l : Label τ κ) : Option (State τ κ) :=
  if Allowed s l then act s l else none

/-- An instance without timers. -/
def noTimers : Timers τ κ where
  created := []
  links := ⟨fun _ => none, fun _ => none⟩
  expiration := fun _ => 0
  hasPool := fun _ => false
  numPending := fun _ => 0
  canceled := fun _ => false
  queueHead := none
  listPending := 0
  destroyRequested := false

def initial : State τ κ := ⟨noTimers, [], [], [], []⟩

end Margo.Timer
