import Mathlib.Data.Rat.Defs

/-!
# Issuing and completing an operation

The three routines that issue a forward, a response and a bulk transfer, the
wrappers that call them with a request on the stack or from the arena,
`margo_cb` and `margo_wait`. Each is a function of the results of the calls it
makes and gives its own result and the events that concern an eventual, a
timer or an arena object, in the order of the source.

## Implementation notes

`Attempt.andThen` is the error test that follows every call of the routines:
on an error control goes to the label `finish`. The handle is one that carries
its handle data, so the early returns of the routines are not taken. A
`double` timeout is only compared with zero; it is a rational number here.
-/

namespace Margo.Request

/-- The values of `hg_return_t` that the code names, and any other. -/
inductive HgReturn
  | success
  | timeout
  | canceled
  | nomemError
  | otherError
  | checksumError
  | code (n : Int)
  deriving DecidableEq, Repr

/-- `margo_request_type`. -/
inductive RequestType
  | forward
  | response
  | bulk
  deriving DecidableEq, Repr

/-- `margo_request_kind`. -/
inductive RequestKind
  | eventual
  | callback
  deriving DecidableEq, Repr

/-- Where the request lives and how its completion is reported. -/
inductive Mode
  /-- On the stack of a blocking call. -/
  | blocking
  /-- From the arena, handed to the user for `margo_wait`. -/
  | eventual
  /-- From the arena, with a completion callback. -/
  | callback
  deriving DecidableEq, Repr

/-- The kind of the request: the zeroed memory says `MARGO_REQ_EVENTUAL`. -/
def Mode.kind : Mode → RequestKind
  | .blocking | .eventual => .eventual
  | .callback => .callback

/-- What happens to an eventual, a timer or an arena object. -/
inductive Event
  | eventualCreate
  | eventualFree
  | timerCreate
  | timerStart
  | timerExpire
  | timerCancel
  | timerDestroy
  | arenaGet
  | arenaRelease
  deriving DecidableEq, Repr

/-- The results of the calls an issuing routine makes. -/
structure Replies where
  arenaGet : Bool
  /-- `HG_Registered` and the boolean it stores. -/
  registered : HgReturn
  isRegistered : Bool
  disabledResponse : HgReturn
  /-- `margo_register_internal` returned a nonzero id. -/
  registerInternal : Bool
  disableResponse : HgReturn
  reset : HgReturn
  eventualCreate : Bool
  timerCreate : HgReturn
  timerStart : HgReturn
  /-- `HG_Forward`, `HG_Respond` or `HG_Bulk_transfer`. -/
  operation : HgReturn
  deriving DecidableEq, Repr

/-- A result and the events on the way to it. -/
structure Attempt where
  hret : HgReturn
  log : List Event
  deriving DecidableEq, Repr

/-- Go on with `next`, or go to `finish` on an error. -/
def Attempt.andThen (x next : Attempt) : Attempt :=
  if x.hret = .success then ⟨next.hret, x.log ++ next.log⟩ else x

/-- A call that touches none of the resources. -/
def call (hret : HgReturn) : Attempt := ⟨hret, []⟩

/-- Register the id that includes the provider id, unless Mercury knows it. -/
def registerServerId (o : Replies) : Attempt :=
  if o.isRegistered then call .success
  else
    (call o.disabledResponse).andThen <|
      (call (if o.registerInternal then .success else .otherError)).andThen <|
        call o.disableResponse

/-- `MARGO_EVENTUAL_CREATE`, for requests of that kind. -/
def createEventual (o : Replies) (kind : RequestKind) : Attempt :=
  if kind = .eventual then
    if o.eventualCreate then ⟨.success, [.eventualCreate]⟩ else ⟨.nomemError, []⟩
  else call .success

/-- Create and start the timer of an operation with a positive timeout. -/
def armTimer (o : Replies) (timeoutMs : Rat) : Attempt :=
  if 0 < timeoutMs then
    if o.timerCreate = .success then
      if o.timerStart = .success then ⟨.success, [.timerCreate, .timerStart]⟩
      else ⟨o.timerStart, [.timerCreate, .timerDestroy]⟩
    else ⟨o.timerCreate, []⟩
  else call .success

/-- Hand the operation to Mercury; on failure remove the timer if there is one. -/
def submit (o : Replies) (timeoutMs : Rat) : Attempt :=
  if o.operation ≠ .success ∧ 0 < timeoutMs then
    ⟨o.operation, [.timerCancel, .timerDestroy]⟩
  else call o.operation

/-- The label `finish` of the forward and the response. -/
def freeEventualOnError (kind : RequestKind) (x : Attempt) : Attempt :=
  if x.hret ≠ .success ∧ kind = .eventual then ⟨x.hret, x.log ++ [.eventualFree]⟩ else x

/-- `margo_provider_iforward_internal`. -/
def providerIforwardInternal (o : Replies) (timeoutMs : Rat) (kind : RequestKind) :
    Attempt :=
  freeEventualOnError kind <|
    (call o.registered).andThen <|
      (registerServerId o).andThen <|
        (call o.reset).andThen <|
          (createEventual o kind).andThen <|
            (armTimer o timeoutMs).andThen (submit o timeoutMs)

/-- `margo_irespond_internal`. -/
def irespondInternal (o : Replies) (timeoutMs : Rat) (kind : RequestKind) : Attempt :=
  freeEventualOnError kind <|
    (createEventual o kind).andThen <|
      (armTimer o timeoutMs).andThen (submit o timeoutMs)

/-- `margo_bulk_itransfer_internal`, whose `finish` frees nothing. -/
def bulkItransferInternal (o : Replies) (timeoutMs : Rat) (kind : RequestKind) : Attempt :=
  (createEventual o kind).andThen <|
    (armTimer o timeoutMs).andThen (submit o timeoutMs)

/-- A wrapper that takes its request from the arena and returns it on error. -/
def withArena (o : Replies) (x : Attempt) : Attempt :=
  if o.arenaGet then
    if x.hret = .success then ⟨x.hret, .arenaGet :: x.log⟩
    else ⟨x.hret, .arenaGet :: x.log ++ [.arenaRelease]⟩
  else ⟨.nomemError, []⟩

/-- `margo_provider_forward_timed`, up to its wait. -/
def providerForwardTimed (o : Replies) (timeoutMs : Rat) : Attempt :=
  providerIforwardInternal o timeoutMs .eventual

/-- `margo_provider_iforward_timed`. -/
def providerIforwardTimed (o : Replies) (timeoutMs : Rat) : Attempt :=
  withArena o (providerIforwardInternal o timeoutMs .eventual)

/-- `margo_provider_cforward_timed`. -/
def providerCforwardTimed (o : Replies) (timeoutMs : Rat) : Attempt :=
  withArena o (providerIforwardInternal o timeoutMs .callback)

/-- `margo_respond_timed`, up to its wait; `margo_respond` is the case of a zero
timeout. -/
def respondTimed (o : Replies) (timeoutMs : Rat) : Attempt :=
  irespondInternal o timeoutMs .eventual

/-- `margo_irespond_timed`; `margo_irespond` is the case of a zero timeout. -/
def irespondTimed (o : Replies) (timeoutMs : Rat) : Attempt :=
  withArena o (irespondInternal o timeoutMs .eventual)

/-- `margo_crespond_timed`; `margo_crespond` is the case of a zero timeout. -/
def crespondTimed (o : Replies) (timeoutMs : Rat) : Attempt :=
  withArena o (irespondInternal o timeoutMs .callback)

/-- `margo_bulk_transfer_timed`, up to its wait. -/
def bulkTransferTimed (o : Replies) (timeoutMs : Rat) : Attempt :=
  bulkItransferInternal o timeoutMs .eventual

/-- `margo_bulk_itransfer_timed`. -/
def bulkItransferTimed (o : Replies) (timeoutMs : Rat) : Attempt :=
  withArena o (bulkItransferInternal o timeoutMs .eventual)

/-- `margo_bulk_ctransfer_timed`. -/
def bulkCtransferTimed (o : Replies) (timeoutMs : Rat) : Attempt :=
  withArena o (bulkItransferInternal o timeoutMs .callback)

/-- The issuing call of an operation in a mode. -/
def issue : RequestType → Mode → Replies → Rat → Attempt
  | .forward, .blocking => providerForwardTimed
  | .forward, .eventual => providerIforwardTimed
  | .forward, .callback => providerCforwardTimed
  | .response, .blocking => respondTimed
  | .response, .eventual => irespondTimed
  | .response, .callback => crespondTimed
  | .bulk, .blocking => bulkTransferTimed
  | .bulk, .eventual => bulkItransferTimed
  | .bulk, .callback => bulkCtransferTimed

/-- What `margo_cb` reports, to the callback or through the eventual: a canceled
operation with a timer has timed out. -/
def margoCb (ret : HgReturn) (timer : Bool) : HgReturn :=
  if ret = .canceled ∧ timer then .timeout else ret

/-- The events of `margo_cb`. -/
def margoCbLog (kind : RequestKind) (timer : Bool) : List Event :=
  (if timer then [.timerCancel, .timerDestroy] else []) ++
    if kind = .callback then [.arenaRelease] else []

/-- The response of a target as `check_error_in_output` finds it. -/
structure Output where
  /-- `HG_Registered_disabled_response` and the boolean it stores. -/
  query : HgReturn
  disabled : Bool
  /-- `HG_Get_output` and the header it decodes. -/
  getOutput : HgReturn
  hgRet : HgReturn
  deriving DecidableEq, Repr

/-- `check_error_in_output`. -/
def checkErrorInOutput (out : Output) : HgReturn :=
  if out.query ≠ .success then out.query
  else if out.disabled then .success
  else if out.getOutput ≠ .success ∧ out.getOutput ≠ .checksumError then out.getOutput
  else if out.getOutput = .checksumError then out.hgRet
  else out.hgRet

/-- `margo_wait_internal` once the eventual is set to `hret`. -/
def waitInternal (type : RequestType) (hret : HgReturn) (out : Output) : HgReturn :=
  if hret ≠ .success then hret
  else if type = .forward then checkErrorInOutput out
  else .success

/-- The events between a successful issue and the end of the operation: the
timer may expire, `margo_cb` runs, and a request of the eventual kind is waited
for, in `margo_wait` if it was handed out. -/
def completionLog (mode : Mode) (timeoutMs : Rat) (expires : Bool) : List Event :=
  (if 0 < timeoutMs ∧ expires then [.timerExpire] else []) ++
    margoCbLog mode.kind (0 < timeoutMs) ++
    match mode with
    | .blocking => [.eventualFree]
    | .eventual => [.eventualFree, .arenaRelease]
    | .callback => []

end Margo.Request
