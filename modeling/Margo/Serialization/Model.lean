import Margo.Lib.Bytes

/-!
# Serialization of requests and responses

`margo_forward_proc` and `margo_respond_proc` put a header in front of every
request and every response; the functions of `margo-core.c` encode messages
with them, read messages completely, or read the header alone.

## Implementation notes

While encoding, the buffer of a serializer holds the bytes written so far,
while decoding the bytes not yet read. Mercury's reports on a message it could
decode are arguments: it compares checksums after the procedure has returned.
Every procedure reports the operations with which it called the user's one.
Monitoring is left out, and with it the handle and the request of the argument
structures, which nothing else reads.
-/

namespace Margo.Serialization

open Lib.Bytes

/-- `hg_return_t`, the value of the enumerator. -/
abbrev HgReturn := BitVec 32

/-- `hg_id_t`. -/
abbrev HgId := BitVec 64

/-- `HG_SUCCESS`. -/
def hgSuccess : HgReturn := 0

/-- The enumerators that Mercury and the readers return besides `HG_SUCCESS`. -/
structure Codes where
  overflow : HgReturn
  noMatch : HgReturn
  checksumError : HgReturn

/-- `hg_proc_op_t`. -/
inductive ProcOp
  | encode
  | decode
  | free
  deriving DecidableEq, Repr

/-- `hg_proc_t`: the operation and the buffer. -/
structure Proc where
  op : ProcOp
  buf : List Byte
  deriving DecidableEq, Repr

/-- `hg_proc_memcpy`: the result, the serializer and the data afterwards. -/
def hgProcMemcpy (codes : Codes) (proc : Proc) (data : List Byte) :
    HgReturn × Proc × List Byte :=
  match proc.op with
  | .encode => (hgSuccess, { proc with buf := proc.buf ++ data }, data)
  | .decode =>
      if data.length ≤ proc.buf.length then
        (hgSuccess, { proc with buf := proc.buf.drop data.length }, proc.buf.take data.length)
      else (codes.overflow, proc, data)
  | .free => (hgSuccess, proc, data)

/-- `hg_proc_cb_t`, for arguments that point to an `α` or are null. -/
abbrev ProcCb (α : Type*) := Proc → Option α → HgReturn × Proc × Option α

/-- `margo_forward_proc_args` and `margo_respond_proc_args`: a header of `w`
bits, and the data and the procedure of the user. -/
structure ProcArgs (w : Nat) (α : Type*) where
  userArgs : Option α
  userCb : Option (ProcCb α)
  header : BitVec w

/-- What a procedure leaves behind, and the operations with which it called the
user's one. -/
structure Outcome (w : Nat) (α : Type*) where
  hret : HgReturn
  proc : Proc
  args : ProcArgs w α
  calls : List ProcOp

section

variable {w : Nat} {α : Type*}

/-- Copy the header, then call the user's procedure if there is one and the
header does not end the message. -/
def headerProc (ends : BitVec w → Bool) (codes : Codes) (proc : Proc) (sargs : ProcArgs w α) :
    Outcome w α :=
  match hgProcMemcpy codes proc (ofWord sargs.header) with
  | (hret, proc, data) =>
      let sargs := { sargs with header := toWord w data }
      if hret ≠ hgSuccess ∨ ends sargs.header then ⟨hret, proc, sargs, []⟩
      else
        match sargs.userCb with
        | none => ⟨hret, proc, sargs, []⟩
        | some userCb =>
            match userCb proc sargs.userArgs with
            | (hret, proc', userArgs) => ⟨hret, proc', { sargs with userArgs }, [proc.op]⟩

/-- `margo_forward_proc`. -/
def margoForwardProc : Codes → Proc → ProcArgs 64 α → Outcome 64 α :=
  headerProc fun _ => false

/-- `margo_respond_proc`: the data follow only if the header is `HG_SUCCESS`. -/
def margoRespondProc : Codes → Proc → ProcArgs 32 α → Outcome 32 α :=
  headerProc fun hgRet => hgRet ≠ hgSuccess

/-- `HG_Forward` and `HG_Respond`, as far as the message is concerned: what the
procedure returns, and the bytes it wrote. -/
def hgEncode (proc : Proc → ProcArgs w α → Outcome w α) (args : ProcArgs w α) :
    HgReturn × List Byte :=
  let out := proc ⟨.encode, []⟩ args
  (out.hret, out.proc.buf)

/-- `HG_Get_input` and `HG_Get_output`: run the procedure over the message, then
report its error, or what the comparison of the checksums says. -/
def hgGet (proc : Proc → ProcArgs w α → Outcome w α) (verdict : HgReturn) (msg : List Byte)
    (args : ProcArgs w α) : Outcome w α :=
  let out := proc ⟨.decode, msg⟩ args
  { out with hret := if out.hret ≠ hgSuccess then out.hret else verdict }

/-- `HG_Free_input` and `HG_Free_output`. -/
def hgFree (proc : Proc → ProcArgs w α → Outcome w α) (args : ProcArgs w α) : Outcome w α :=
  proc ⟨.free, []⟩ args

end

/-! ## Messages -/

section

variable {α β : Type*}

/-- The fields of `struct margo_handle_data` that the serialization uses. -/
structure HandleData (α β : Type*) where
  inProcCb : Option (ProcCb α)
  outProcCb : Option (ProcCb β)

/-- The request of `margo_provider_iforward_internal`. -/
def forwardMessage (codes : Codes) (data : HandleData α β) (parentRpcId : HgId) (inStruct : α) :
    HgReturn × List Byte :=
  hgEncode (margoForwardProc codes) ⟨some inStruct, data.inProcCb, parentRpcId⟩

/-- The response of `margo_irespond_internal`. -/
def irespondMessage (codes : Codes) (data : HandleData α β) (outStruct : β) :
    HgReturn × List Byte :=
  hgEncode (margoRespondProc codes) ⟨some outStruct, data.outProcCb, hgSuccess⟩

/-- The response of `__margo_respond_with_error`, if responses are enabled. -/
def errorMessage (codes : Codes) (hgRet : HgReturn) : HgReturn × List Byte :=
  hgEncode (margoRespondProc codes) (⟨none, none, hgRet⟩ : ProcArgs 32 Empty)

/-- `check_parent_id_in_input`: the result and what it stores. -/
def checkParentIdInInput (codes : Codes) (verdict : HgReturn) (msg : List Byte) :
    HgReturn × Option HgId :=
  let out := hgGet (margoForwardProc codes) verdict msg
    (⟨none, none, 0⟩ : ProcArgs 64 Empty)
  if out.hret ≠ hgSuccess ∧ out.hret ≠ codes.checksumError then (out.hret, none)
  else (hgSuccess, some out.args.header)

/-- `check_error_in_output`; `query` is what `HG_Registered_disabled_response`
returns. -/
def checkErrorInOutput (codes : Codes) (query : HgReturn) (disabled : Bool) (verdict : HgReturn)
    (msg : List Byte) : HgReturn :=
  if query ≠ hgSuccess then query
  else if disabled then hgSuccess
  else
    let out := hgGet (margoRespondProc codes) verdict msg
      (⟨none, none, hgSuccess⟩ : ProcArgs 32 Empty)
    if out.hret ≠ hgSuccess ∧ out.hret ≠ codes.checksumError then out.hret
    else out.args.header

/-- What a complete read returns, the structure of the caller afterwards, and
the operations with which the user's procedure was called. -/
structure Read (α : Type*) where
  hret : HgReturn
  dest : Option α
  calls : List ProcOp
  deriving DecidableEq, Repr

/-- `margo_get_input`. -/
def margoGetInput (codes : Codes) (handleData : Option (HandleData α β)) (verdict : HgReturn)
    (msg : List Byte) (inStruct : Option α) : Read α :=
  match handleData with
  | none => ⟨codes.noMatch, inStruct, []⟩
  | some data =>
      let out := hgGet (margoForwardProc codes) verdict msg ⟨inStruct, data.inProcCb, 0⟩
      ⟨out.hret, out.args.userArgs, out.calls⟩

/-- `margo_free_input`. -/
def margoFreeInput (codes : Codes) (handleData : Option (HandleData α β)) (inStruct : Option α) :
    Read α :=
  match handleData with
  | none => ⟨codes.noMatch, inStruct, []⟩
  | some data =>
      let out := hgFree (margoForwardProc codes) ⟨inStruct, data.inProcCb, 0⟩
      ⟨out.hret, out.args.userArgs, out.calls⟩

/-- `margo_get_output`: a response that carries an error is freed at once. -/
def margoGetOutput (codes : Codes) (handleData : Option (HandleData α β)) (verdict : HgReturn)
    (msg : List Byte) (outStruct : Option β) : Read β :=
  match handleData with
  | none => ⟨codes.noMatch, outStruct, []⟩
  | some data =>
      let out := hgGet (margoRespondProc codes) verdict msg
        ⟨outStruct, data.outProcCb, hgSuccess⟩
      if out.hret ≠ hgSuccess then ⟨out.hret, out.args.userArgs, out.calls⟩
      else if out.args.header ≠ hgSuccess then
        let freed := hgFree (margoRespondProc codes) out.args
        ⟨out.args.header, freed.args.userArgs, out.calls ++ freed.calls⟩
      else ⟨hgSuccess, out.args.userArgs, out.calls⟩

/-- `margo_free_output`. -/
def margoFreeOutput (codes : Codes) (handleData : Option (HandleData α β))
    (outStruct : Option β) : Read β :=
  match handleData with
  | none => ⟨codes.noMatch, outStruct, []⟩
  | some data =>
      let out := hgFree (margoRespondProc codes) ⟨outStruct, data.outProcCb, hgSuccess⟩
      ⟨out.hret, out.args.userArgs, out.calls⟩

end

end Margo.Serialization
