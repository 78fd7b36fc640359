import Margo.Rpc.Ids
import Margo.Serialization.Model

/-!
# Forwards, handlers and responses

Processes that forward RPCs to each other and to themselves. A forward puts the id of the RPC
in whose ULT it is made in front of the input; at the target the request is refused or a ULT
is created that runs the handler; whoever waits for the forward looks at the header of the
response, and the output is read from the handle.

## Implementation notes

Mercury is given by the steps that it allows. It delivers a request once, it takes one
response to a request, and the response completes the operation from which the request came,
unless that was completed with an error before. An operation is the position of its request
among all that were sent. Which errors Mercury and Argobots report where they may is in the
labels of the steps, and a step is a section of one thread without a point at which another
one could interfere. The procedures of an RPC depend on its id.

A handle is created once and not destroyed, and all requests are eventual ones. What is
recorded of an operation for the sake of the theorems only is marked as such.
-/

namespace Margo.Exchange

open Lib.Bytes Serialization
open Rpc (ProviderId muxId)

/-- The enumerators that appear in the code, and that they are errors. -/
structure ErrorCodes extends Codes where
  permission : HgReturn
  noEntry : HgReturn
  otherError : HgReturn
  invalidArg : HgReturn
  canceled : HgReturn
  timeout : HgReturn
  permission_ne : permission ≠ hgSuccess
  noEntry_ne : noEntry ≠ hgSuccess
  canceled_ne : canceled ≠ hgSuccess
  otherError_ne : otherError ≠ hgSuccess
  invalidArg_ne : invalidArg ≠ hgSuccess
  timeout_ne : timeout ≠ hgSuccess

/-- `MARGO_DEFAULT_PROVIDER_ID`. -/
def defaultProviderId : ProviderId := 0xFFFF

/-- An id that is registered: with a handler or `_handler_for_NULL`, and whether responses are
disabled. -/
structure Registration where
  handler : Bool
  disabled : Bool
  deriving DecidableEq, Repr

/-- Where the current RPC id of a ULT comes from; for the theorems. -/
inductive Context
  | program
  | rpc (operation : Nat)
  | chosen (id : HgId)
  deriving DecidableEq, Repr

/-- A ULT: its process, the value of `current_rpc_id_key`, and the operation whose handler it
runs, if it does and has started. -/
structure Ult (π : Type) where
  proc : π
  currentRpcId : HgId
  serving : Option Nat
  started : Bool
  context : Context

/-- A handle, and the operation that was forwarded with it last. -/
structure Handle (π : Type) where
  proc : π
  addr : π
  id : HgId
  operation : Option Nat

/-- A response: the data of a handler or the error with which a request is refused. -/
inductive Reply (β : Type)
  | data (outStruct : β) (message : List Byte)
  | error (hgRet : HgReturn) (message : List Byte)

/-- The bytes of a response. -/
def Reply.message {β : Type} : Reply β → List Byte
  | .data _ message => message
  | .error _ message => message

/-- What `margo_wait` returned, the operation at whose response it looked, if it did, and
whether there was one; for the theorems. -/
structure Waited where
  looked : Option Nat
  found : Bool
  hret : HgReturn

/-- A request that was sent, and what became of it. The input, the context, the parent id and
the keys under which the monitors of the two processes find their statistics are recorded for
the theorems. -/
structure Operation (π α β : Type) where
  origin : π
  target : π
  handle : Nat
  id : HgId
  request : List Byte
  noResponse : Bool
  timer : Bool
  delivered : Bool
  reply : Option (Reply β)
  completion : Option HgReturn
  waited : Option Waited
  inStruct : α
  context : Context
  parentRpcId : HgId
  forwardKey : HgId × HgId
  handlerKey : Option (HgId × HgId)

/-- All processes, with the ids they have registered and whether they are finalizing. -/
structure State (π α β : Type) where
  registered : π → HgId → Option Registration
  finalizing : π → Bool
  ults : List (Ult π)
  handles : List (Handle π)
  operations : List (Operation π α β)

/-! ## The current RPC id -/

/-- `margo_set_current_rpc_id`: the value of the key. -/
def margoSetCurrentRpcId (id : HgId) : HgId :=
  if id = 0 then muxId 0 defaultProviderId else id

/-- `margo_get_current_rpc_id`. -/
def margoGetCurrentRpcId (key : HgId) : HgId :=
  if key = 0 then muxId 0 defaultProviderId else key

variable {π α β : Type} [DecidableEq π]

/-- One id of one process is registered, or deregistered. -/
def State.register (s : State π α β) (p : π) (id : HgId) (reg : Option Registration) :
    State π α β :=
  { s with registered := fun q i => if q = p ∧ i = id then reg else s.registered q i }

/-- What is known of an operation changes. -/
def State.setOperation (s : State π α β) (t : Nat) (op : Operation π α β) : State π α β :=
  { s with operations := s.operations.set t op }

/-- A ULT sets its current RPC id. -/
def State.setKey (s : State π α β) (i : Nat) (u : Ult π) (id : HgId) (context : Context) :
    State π α β :=
  { s with
    ults := s.ults.set i ⟨u.proc, margoSetCurrentRpcId id, u.serving, true, context⟩ }

/-! ## The forward -/

/-- The handle has an operation that is not completed. -/
def State.inUse (s : State π α β) (h : Handle π) : Bool :=
  match h.operation.bind (s.operations[·]?) with
  | none => false
  | some op => op.completion.isNone

/-- The id that includes the provider is registered, unless it is already, with the flag of
the id of the handle. -/
def registerServerId (s : State π α β) (h : Handle π) (serverId : HgId) :
    Option (State π α β × Registration) :=
  match s.registered h.proc serverId with
  | some reg => some (s, reg)
  | none =>
      match s.registered h.proc h.id with
      | none => none
      | some reg =>
          let reg : Registration := ⟨false, reg.disabled⟩
          some (s.register h.proc serverId (some reg), reg)

/-- `margo_provider_iforward_internal`, where Mercury accepts the request or not. -/
def iforward (codes : ErrorCodes) (procs : HgId → HandleData α β) (s : State π α β) (u : Ult π)
    (i : Nat) (h : Handle π) (providerId : ProviderId) (inStruct : α) (timer accepted : Bool) :
    State π α β :=
  let serverId := muxId h.id providerId
  match registerServerId s h serverId with
  | none => s
  | some (s, reg) =>
      if s.inUse h then s
      else
        -- `HG_Reset` drops the response of the last operation
        let h' : Handle π := { h with id := serverId, operation := none }
        let parentRpcId := margoGetCurrentRpcId u.currentRpcId
        let (hret, request) :=
          forwardMessage codes.toCodes (procs h.id) parentRpcId inStruct
        if hret = hgSuccess ∧ accepted then
          { s with
            handles := s.handles.set i { h' with operation := some s.operations.length }
            operations := s.operations ++ [{
              origin := h.proc, target := h.addr, handle := i, id := serverId
              request := request, noResponse := reg.disabled, timer := timer
              delivered := false, reply := none, completion := none, waited := none
              inStruct := inStruct, context := u.context, parentRpcId := parentRpcId
              forwardKey := (serverId, parentRpcId), handlerKey := none }] }
        else { s with handles := s.handles.set i h' }

/-! ## The handler -/

/-- What may go wrong when a request comes in. -/
structure HandlerReplies where
  /-- What `__margo_internal_set_handle_data` returns. -/
  setHandleData : HgReturn
  /-- `ABT_thread_create` succeeds. -/
  thread : Bool
  /-- `HG_Respond` accepts a response. -/
  respond : Bool
  /-- The checksum is found to be wrong, as the header alone is read. -/
  checksum : Bool

/-- What a comparison of checksums after reading a header says. -/
def verdict (codes : ErrorCodes) (checksum : Bool) : HgReturn :=
  if checksum then codes.checksumError else hgSuccess

/-- `__margo_respond_with_error`. -/
def respondWithError (codes : ErrorCodes) (reg : Registration) (accepted : Bool) (hgRet : HgReturn)
    (op : Operation π α β) : Operation π α β :=
  if reg.disabled then op
  else
    let (hret, message) := errorMessage codes.toCodes hgRet
    if hret = hgSuccess ∧ accepted ∧ !op.noResponse then
      { op with reply := some (.error hgRet message) }
    else op

/-- The callback of an id: `_handler_for_NULL`, or the one of `DEFINE_MARGO_RPC_HANDLER`, with
the ULT that it creates. -/
def rpcHandler (codes : ErrorCodes) (reg : Registration) (finalizing : Bool) (r : HandlerReplies)
    (t : Nat) (op : Operation π α β) : Operation π α β × Option (Ult π) :=
  if !reg.handler then (respondWithError codes reg r.respond codes.noEntry op, none)
  else if r.setHandleData ≠ hgSuccess then
    (respondWithError codes reg r.respond r.setHandleData op, none)
  else if finalizing then (respondWithError codes reg r.respond codes.permission op, none)
  else
    let (_, parentId) := checkParentIdInInput codes.toCodes (verdict codes r.checksum) op.request
    let op := { op with handlerKey := some (op.id, parentId.getD 0) }
    if r.thread then (op, some ⟨op.target, 0, some t, false, .program⟩)
    else (respondWithError codes reg r.respond codes.otherError op, none)

/-! ## The result -/

/-- The bytes of the response that a handle holds. -/
def State.output (s : State π α β) (h : Handle π) : Option (List Byte) :=
  match h.operation.bind (s.operations[·]?) with
  | none => none
  | some op =>
      if op.completion = some hgSuccess ∧ !op.noResponse then op.reply.map Reply.message else none

/-- `margo_cb`: the result that is stored in the request. -/
def margoCb (codes : ErrorCodes) (ret : HgReturn) (timer : Bool) : HgReturn :=
  if ret = codes.canceled ∧ timer then codes.timeout else ret

/-- `check_error_in_output` on a handle. -/
def checkErrorIn (codes : ErrorCodes) (s : State π α β) (h : Handle π) (checksum : Bool) : Waited :=
  match s.registered h.proc h.id with
  | none => ⟨none, false, codes.noEntry⟩
  | some reg =>
      if reg.disabled then ⟨none, false, hgSuccess⟩
      else
        match s.output h with
        | none => ⟨h.operation, false, codes.invalidArg⟩
        | some message =>
            ⟨h.operation, true, checkErrorInOutput codes.toCodes hgSuccess false
              (verdict codes checksum) message⟩

/-- `margo_wait_internal`, once the request is completed. -/
def waitInternal (codes : ErrorCodes) (s : State π α β) (h : Handle π) (completion : HgReturn)
    (checksum : Bool) : Waited :=
  if completion ≠ hgSuccess then ⟨none, false, completion⟩ else checkErrorIn codes s h checksum

/-! ## Steps -/

/-- A step of a process or of Mercury. -/
inductive Action (π α β : Type)
  | register (p : π) (id : HgId) (reg : Registration)
  | deregister (p : π) (id : HgId)
  | disableResponse (p : π) (id : HgId) (disabled : Bool)
  | finalize (p : π)
  | spawn (p : π)
  | setCurrentRpcId (u : Nat) (id : HgId)
  | create (p addr : π) (id : HgId)
  | forward (u i : Nat) (providerId : ProviderId) (inStruct : α) (timer accepted : Bool)
  | deliver (t : Nat) (r : HandlerReplies)
  | start (u : Nat)
  | respond (t : Nat) (outStruct : β) (accepted : Bool)
  | arrive (t : Nat)
  | sent (t : Nat)
  | fail (t : Nat) (ret : HgReturn)
  | wait (t : Nat) (checksum : Bool)

/-- A ULT can run. -/
def Ult.running (u : Ult π) : Bool := u.serving.isNone || u.started

/-- The state after a step, if it is possible. -/
def step (codes : ErrorCodes) (procs : HgId → HandleData α β) (s : State π α β) :
    Action π α β → Option (State π α β)
  | .register p id reg => some (s.register p id (some reg))
  | .deregister p id => some (s.register p id none)
  | .disableResponse p id disabled => do
      let reg ← s.registered p id
      return s.register p id (some { reg with disabled := disabled })
  | .finalize p => some { s with finalizing := fun q => q = p || s.finalizing q }
  | .spawn p => some { s with ults := s.ults ++ [⟨p, 0, none, true, .program⟩] }
  | .setCurrentRpcId u id => do
      let ult ← s.ults[u]?
      if ult.running then return s.setKey u ult id (.chosen id) else none
  | .create p addr id => do
      let _ ← s.registered p id
      return { s with handles := s.handles ++ [⟨p, addr, id, none⟩] }
  | .forward u i providerId inStruct timer accepted => do
      let ult ← s.ults[u]?
      let h ← s.handles[i]?
      if ult.running ∧ ult.proc = h.proc then
        return iforward codes procs s ult i h providerId inStruct timer accepted
      else none
  | .deliver t r => do
      let op ← s.operations[t]?
      if op.delivered then none
      else
        let op := { op with delivered := true }
        match s.registered op.target op.id with
        | none => return s.setOperation t op
        | some reg =>
            let (op, ult) := rpcHandler codes reg (s.finalizing op.target) r t op
            return { s.setOperation t op with ults := s.ults ++ ult.toList }
  | .start u => do
      let ult ← s.ults[u]?
      let t ← ult.serving
      let op ← s.operations[t]?
      if ult.started then none else return s.setKey u ult op.id (.rpc t)
  | .respond t outStruct accepted => do
      let op ← s.operations[t]?
      if s.ults.any (fun u => u.serving = some t && u.started) then
        let (hret, message) := irespondMessage codes.toCodes (procs op.id) outStruct
        if hret = hgSuccess ∧ accepted ∧ !op.noResponse ∧ op.reply.isNone then
          return s.setOperation t { op with reply := some (.data outStruct message) }
        else return s
      else none
  | .arrive t => do
      let op ← s.operations[t]?
      if op.completion.isNone ∧ op.reply.isSome then
        return s.setOperation t { op with completion := some (margoCb codes hgSuccess op.timer) }
      else none
  | .sent t => do
      let op ← s.operations[t]?
      if op.completion.isNone ∧ op.noResponse then
        return s.setOperation t { op with completion := some (margoCb codes hgSuccess op.timer) }
      else none
  | .fail t ret => do
      let op ← s.operations[t]?
      if op.completion.isNone ∧ ret ≠ hgSuccess then
        return s.setOperation t { op with completion := some (margoCb codes ret op.timer) }
      else none
  | .wait t checksum => do
      let op ← s.operations[t]?
      let completion ← op.completion
      let h ← s.handles[op.handle]?
      if op.waited.isNone then
        return s.setOperation t
          { op with waited := some (waitInternal codes s h completion checksum) }
      else none

/-- Nothing is registered and nothing was sent. -/
def start : State π α β := ⟨fun _ _ => none, fun _ => false, [], [], []⟩

end Margo.Exchange
