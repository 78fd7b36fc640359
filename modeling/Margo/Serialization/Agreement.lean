import Margo.Serialization.Model

/-!
# Writers and readers of headers agree

Two formats, three writers and four readers: the request, written with its
parent id, and the response, written with its data or with an error code. Both
formats are read completely, by the owner of the user's procedure, or only as
far as the header goes.

## Implementation notes

Everything follows from what `headerProc` does in each of its three modes. The
user's procedure is arbitrary; all that is asked of it is that decoding takes
back what encoding wrote. A message is written when the user's data are.
-/

namespace Margo.Serialization

open Lib.Bytes

/-- Whatever the procedure has encoded, it decodes, in front of any other bytes
and over any previous content of the structure. -/
def Undoes {α : Type*} (cb : ProcCb α) : Prop :=
  ∀ buf v proc' arg', cb ⟨.encode, buf⟩ (some v) = (hgSuccess, proc', arg') →
    ∃ bytes, proc'.buf = buf ++ bytes ∧
      ∀ dest rest, cb ⟨.decode, bytes ++ rest⟩ (some dest) =
        (hgSuccess, ⟨.decode, rest⟩, some v)

/-! ## The three modes -/

section

variable {w : Nat} {α : Type*} (hw : 8 ∣ w) (ends : BitVec w → Bool) (codes : Codes)
  (buf : List Byte) (userArgs : Option α) (userCb : Option (ProcCb α)) (header : BitVec w)

include hw

/-- Encoding writes the header; the user's data come after it, unless it ends
the message. -/
theorem headerProc_encode :
    headerProc ends codes ⟨.encode, buf⟩ ⟨userArgs, userCb, header⟩ =
      if ends header then ⟨hgSuccess, ⟨.encode, buf ++ ofWord header⟩,
        ⟨userArgs, userCb, header⟩, []⟩
      else
        match userCb with
        | none => ⟨hgSuccess, ⟨.encode, buf ++ ofWord header⟩, ⟨userArgs, userCb, header⟩, []⟩
        | some cb =>
            ⟨(cb ⟨.encode, buf ++ ofWord header⟩ userArgs).1,
              (cb ⟨.encode, buf ++ ofWord header⟩ userArgs).2.1,
              ⟨(cb ⟨.encode, buf ++ ofWord header⟩ userArgs).2.2, userCb, header⟩, [.encode]⟩ := by
  cases userCb with
  | none => simp [headerProc, hgProcMemcpy, toWord_ofWord hw]
  | some cb => simp [headerProc, hgProcMemcpy, toWord_ofWord hw]

/-- Decoding a message that starts with a header gives this header, and calls the
user's procedure on the rest, unless the header ends the message. -/
theorem headerProc_decode (old : BitVec w) :
    headerProc ends codes ⟨.decode, ofWord header ++ buf⟩ ⟨userArgs, userCb, old⟩ =
      if ends header then ⟨hgSuccess, ⟨.decode, buf⟩, ⟨userArgs, userCb, header⟩, []⟩
      else
        match userCb with
        | none => ⟨hgSuccess, ⟨.decode, buf⟩, ⟨userArgs, userCb, header⟩, []⟩
        | some cb =>
            ⟨(cb ⟨.decode, buf⟩ userArgs).1, (cb ⟨.decode, buf⟩ userArgs).2.1,
              ⟨(cb ⟨.decode, buf⟩ userArgs).2.2, userCb, header⟩, [.decode]⟩ := by
  cases userCb with
  | none => simp [headerProc, hgProcMemcpy, toWord_ofWord hw]
  | some cb => simp [headerProc, hgProcMemcpy, toWord_ofWord hw]

/-- Freeing touches neither the header nor, if the header ends the message, the
user's data. -/
theorem headerProc_free_of_ends (h : ends header = true) :
    headerProc ends codes ⟨.free, buf⟩ ⟨userArgs, userCb, header⟩ =
      ⟨hgSuccess, ⟨.free, buf⟩, ⟨userArgs, userCb, header⟩, []⟩ := by
  simp only [headerProc, hgProcMemcpy, toWord_ofWord hw, h, or_true, if_true]

/-- Any other header is followed by one call of the user's procedure. -/
theorem headerProc_free_calls {cb : ProcCb α} (h : ends header = false) :
    (headerProc ends codes ⟨.free, buf⟩ ⟨userArgs, some cb, header⟩).calls = [.free] := by
  simp [headerProc, hgProcMemcpy, toWord_ofWord hw, h]

end

theorem dvd_id : 8 ∣ 64 := by decide

theorem dvd_return : 8 ∣ 32 := by decide

/-! ## Requests -/

section

variable {α β : Type*} {codes : Codes} {data : HandleData α β} {verdict : HgReturn}
  {parentRpcId : HgId} {msg : List Byte}

/-- A request is written if the user's data are. -/
theorem forwardMessage_ok (v : α) :
    (forwardMessage codes data parentRpcId v).1 = hgSuccess ↔
      ∀ cb, data.inProcCb = some cb →
        (cb ⟨.encode, ofWord parentRpcId⟩ (some v)).1 = hgSuccess := by
  simp only [forwardMessage, hgEncode, margoForwardProc, headerProc_encode dvd_id,
    Bool.false_eq_true, if_false, List.nil_append]
  cases data.inProcCb with
  | none => simp
  | some cb => simp

/-- A request starts with its header, whatever the user's procedure does. -/
theorem forwardMessage_eq {v : α}
    (h : forwardMessage codes data parentRpcId v = (hgSuccess, msg))
    (hcb : ∀ cb, data.inProcCb = some cb → Undoes cb) :
    ∃ bytes, msg = ofWord parentRpcId ++ bytes ∧
      ∀ cb, data.inProcCb = some cb → ∀ dest rest,
        cb ⟨.decode, bytes ++ rest⟩ (some dest) = (hgSuccess, ⟨.decode, rest⟩, some v) := by
  simp only [forwardMessage, hgEncode, margoForwardProc,
    headerProc_encode dvd_id, Bool.false_eq_true, if_false, List.nil_append] at h
  cases hin : data.inProcCb with
  | none =>
      rw [hin] at h
      exact ⟨[], by simpa using (congrArg Prod.snd h).symm, by simp⟩
  | some cb =>
      simp only [hin, Prod.mk.injEq] at h
      obtain ⟨bytes, hbytes, hdecode⟩ := hcb cb hin (ofWord parentRpcId) v _ _ (Prod.ext h.1 rfl)
      refine ⟨bytes, h.2.symm.trans hbytes, ?_⟩
      rintro cb' hcb'
      obtain rfl := Option.some.inj hcb'
      exact hdecode

/-- The header of a request is read without the user's procedure, whether or not
the checksum then fails. -/
theorem checkParentIdInInput_eq {bytes : List Byte}
    (hverdict : verdict = hgSuccess ∨ verdict = codes.checksumError) :
    checkParentIdInInput codes verdict (ofWord parentRpcId ++ bytes) =
      (hgSuccess, some parentRpcId) := by
  have hok : ¬(verdict ≠ hgSuccess ∧ verdict ≠ codes.checksumError) := by tauto
  simp only [checkParentIdInInput, hgGet, margoForwardProc, headerProc_decode dvd_id,
    Bool.false_eq_true, if_false, ne_eq, not_true_eq_false]
  rw [if_neg hok]

theorem margoGetInput_eq {cb : ProcCb α} {bytes : List Byte} {v dest : α}
    (hin : data.inProcCb = some cb)
    (hdecode : cb ⟨.decode, bytes ++ []⟩ (some dest) = (hgSuccess, ⟨.decode, []⟩, some v)) :
    margoGetInput codes (some data) hgSuccess (ofWord parentRpcId ++ bytes) (some dest) =
      ⟨hgSuccess, some v, [.decode]⟩ := by
  rw [List.append_nil] at hdecode
  simp only [margoGetInput, hgGet, margoForwardProc, headerProc_decode dvd_id, hin,
    Bool.false_eq_true, if_false, hdecode, ne_eq, not_true_eq_false]

/-! ## Responses -/

/-- A response is written if the user's data are. -/
theorem irespondMessage_ok (v : β) :
    (irespondMessage codes data v).1 = hgSuccess ↔
      ∀ cb, data.outProcCb = some cb →
        (cb ⟨.encode, ofWord hgSuccess⟩ (some v)).1 = hgSuccess := by
  simp only [irespondMessage, hgEncode, margoRespondProc, headerProc_encode dvd_return, ne_eq,
    not_true_eq_false, decide_false, Bool.false_eq_true, if_false, List.nil_append]
  cases data.outProcCb with
  | none => simp
  | some cb => simp

/-- A response with data starts with `HG_SUCCESS`. -/
theorem irespondMessage_eq {v : β} (h : irespondMessage codes data v = (hgSuccess, msg))
    (hcb : ∀ cb, data.outProcCb = some cb → Undoes cb) :
    ∃ bytes, msg = ofWord hgSuccess ++ bytes ∧
      ∀ cb, data.outProcCb = some cb → ∀ dest rest,
        cb ⟨.decode, bytes ++ rest⟩ (some dest) = (hgSuccess, ⟨.decode, rest⟩, some v) := by
  simp only [irespondMessage, hgEncode, margoRespondProc, headerProc_encode dvd_return, ne_eq,
    not_true_eq_false, decide_false, Bool.false_eq_true, if_false, List.nil_append] at h
  cases hout : data.outProcCb with
  | none =>
      rw [hout] at h
      exact ⟨[], by simpa using (congrArg Prod.snd h).symm, by simp⟩
  | some cb =>
      simp only [hout, Prod.mk.injEq] at h
      obtain ⟨bytes, hbytes, hdecode⟩ := hcb cb hout (ofWord hgSuccess) v _ _ (Prod.ext h.1 rfl)
      refine ⟨bytes, h.2.symm.trans hbytes, ?_⟩
      rintro cb' hcb'
      obtain rfl := Option.some.inj hcb'
      exact hdecode

/-- A response with an error is its header. -/
theorem errorMessage_eq {hgRet : HgReturn} (hne : hgRet ≠ hgSuccess) :
    errorMessage codes hgRet = (hgSuccess, ofWord hgRet ++ []) := by
  simp only [errorMessage, hgEncode, margoRespondProc, headerProc_encode dvd_return, hne, ne_eq,
    not_false_eq_true, decide_true, if_true, List.nil_append, List.append_nil]

/-- The header of a response is read without the user's procedure, whether or not
the checksum then fails. -/
theorem checkErrorInOutput_eq {hgRet : HgReturn} {bytes : List Byte}
    (hverdict : verdict = hgSuccess ∨ verdict = codes.checksumError) :
    checkErrorInOutput codes hgSuccess false verdict (ofWord hgRet ++ bytes) = hgRet := by
  have hok : ¬(verdict ≠ hgSuccess ∧ verdict ≠ codes.checksumError) := by tauto
  simp only [checkErrorInOutput, hgGet, margoRespondProc, headerProc_decode dvd_return, ne_eq,
    not_true_eq_false, Bool.false_eq_true, if_false]
  by_cases hret : hgRet = hgSuccess
  · simp only [hret, not_true_eq_false, decide_false, Bool.false_eq_true, if_false]
    rw [if_neg hok]
  · simp only [hret, not_false_eq_true, decide_true, if_true, not_true_eq_false, if_false]
    rw [if_neg hok]

theorem margoGetOutput_eq {cb : ProcCb β} {bytes : List Byte} {v dest : β}
    (hout : data.outProcCb = some cb)
    (hdecode : cb ⟨.decode, bytes ++ []⟩ (some dest) = (hgSuccess, ⟨.decode, []⟩, some v)) :
    margoGetOutput codes (some data) hgSuccess (ofWord hgSuccess ++ bytes) (some dest) =
      ⟨hgSuccess, some v, [.decode]⟩ := by
  rw [List.append_nil] at hdecode
  simp only [margoGetOutput, hgGet, margoRespondProc, headerProc_decode dvd_return, hout, ne_eq,
    not_true_eq_false, decide_false, Bool.false_eq_true, if_false, hdecode]

/-- An error is reported, and neither decoding nor freeing reaches the user's
procedure. -/
theorem margoGetOutput_error {hgRet : HgReturn} (hne : hgRet ≠ hgSuccess) {bytes : List Byte}
    (dest : Option β) :
    margoGetOutput codes (some data) hgSuccess (ofWord hgRet ++ bytes) dest =
      ⟨hgRet, dest, []⟩ := by
  simp only [margoGetOutput, hgGet, hgFree, margoRespondProc, headerProc_decode dvd_return,
    ne_eq, hne, not_false_eq_true, decide_true, if_true, not_true_eq_false, if_false,
    headerProc_free_of_ends dvd_return, List.append_nil]

/-- Headers agree. A request is written if the user's data are, and it is read, by its
header alone and completely, as the parent id and the data it was written with; the
same holds of a response and its code and data. What was read completely is freed by
one call of the user's procedure. A response with an error is always written, and it
reaches the user's procedure in no reader. -/
theorem headers_agree (hin : ∀ cb, data.inProcCb = some cb → Undoes cb)
    (hout : ∀ cb, data.outProcCb = some cb → Undoes cb)
    (hverdict : verdict = hgSuccess ∨ verdict = codes.checksumError) :
    (∀ parentRpcId v,
      ((forwardMessage codes data parentRpcId v).1 = hgSuccess ↔
        ∀ cb, data.inProcCb = some cb →
          (cb ⟨.encode, ofWord parentRpcId⟩ (some v)).1 = hgSuccess) ∧
      ∀ msg, forwardMessage codes data parentRpcId v = (hgSuccess, msg) →
        checkParentIdInInput codes verdict msg = (hgSuccess, some parentRpcId) ∧
        (data.inProcCb.isSome → ∀ dest,
          margoGetInput codes (some data) hgSuccess msg (some dest) =
            ⟨hgSuccess, some v, [.decode]⟩ ∧
          (margoFreeInput codes (some data) (some v)).calls = [.free])) ∧
    (∀ v,
      ((irespondMessage codes data v).1 = hgSuccess ↔
        ∀ cb, data.outProcCb = some cb →
          (cb ⟨.encode, ofWord hgSuccess⟩ (some v)).1 = hgSuccess) ∧
      ∀ msg, irespondMessage codes data v = (hgSuccess, msg) →
        checkErrorInOutput codes hgSuccess false verdict msg = hgSuccess ∧
        (data.outProcCb.isSome → ∀ dest,
          margoGetOutput codes (some data) hgSuccess msg (some dest) =
            ⟨hgSuccess, some v, [.decode]⟩ ∧
          (margoFreeOutput codes (some data) (some v)).calls = [.free])) ∧
    ∀ hgRet, hgRet ≠ hgSuccess → ∃ msg, errorMessage codes hgRet = (hgSuccess, msg) ∧
      checkErrorInOutput codes hgSuccess false verdict msg = hgRet ∧
      ∀ dest, margoGetOutput codes (some data) hgSuccess msg dest = ⟨hgRet, dest, []⟩ := by
  refine ⟨?_, ?_, ?_⟩
  · refine fun parentRpcId v => ⟨forwardMessage_ok v, ?_⟩
    intro msg hmsg
    obtain ⟨bytes, rfl, hdecode⟩ := forwardMessage_eq hmsg hin
    refine ⟨checkParentIdInInput_eq hverdict, ?_⟩
    intro hsome dest
    obtain ⟨cb, hcb⟩ := Option.isSome_iff_exists.mp hsome
    refine ⟨margoGetInput_eq hcb (hdecode cb hcb dest []), ?_⟩
    rw [margoFreeInput, hgFree, hcb]
    exact headerProc_free_calls dvd_id _ _ _ _ _ rfl
  · refine fun v => ⟨irespondMessage_ok v, ?_⟩
    intro msg hmsg
    obtain ⟨bytes, rfl, hdecode⟩ := irespondMessage_eq hmsg hout
    refine ⟨checkErrorInOutput_eq hverdict, ?_⟩
    intro hsome dest
    obtain ⟨cb, hcb⟩ := Option.isSome_iff_exists.mp hsome
    refine ⟨margoGetOutput_eq hcb (hdecode cb hcb dest []), ?_⟩
    rw [margoFreeOutput, hgFree, hcb]
    exact headerProc_free_calls dvd_return _ _ _ _ _ (by simp)
  · intro hgRet hne
    exact ⟨_, errorMessage_eq hne, checkErrorInOutput_eq hverdict, margoGetOutput_error hne⟩

/-- The procedure of a 64-bit number. -/
def wordCb (proc : Proc) : Option (BitVec 64) → HgReturn × Proc × Option (BitVec 64)
  | none => (hgSuccess, proc, none)
  | some x =>
      match hgProcMemcpy ⟨13, 0, 23⟩ proc (ofWord x) with
      | (hret, proc, bs) => (hret, proc, some (toWord 64 bs))

theorem undoes_wordCb : Undoes wordCb := by
  intro buf v proc' arg' h
  simp only [wordCb, hgProcMemcpy, Prod.mk.injEq] at h
  refine ⟨ofWord v, by rw [← h.2.1], ?_⟩
  intro dest rest
  have hlen : (ofWord dest).length ≤ (ofWord v ++ rest).length := by simp
  simp only [wordCb, hgProcMemcpy, if_pos hlen, take_ofWord, drop_ofWord, toWord_ofWord dvd_id]

/-- Numbers in both directions, with a checksum that fails on partial reads. -/
theorem headers_agree_words :
    let data : HandleData (BitVec 64) (BitVec 64) := ⟨some wordCb, some wordCb⟩
    checkParentIdInInput ⟨13, 0, 23⟩ 23 (forwardMessage ⟨13, 0, 23⟩ data 7 1000).2 =
        (hgSuccess, some 7) ∧
      margoGetOutput ⟨13, 0, 23⟩ (some data) hgSuccess (irespondMessage ⟨13, 0, 23⟩ data 42).2
        (some 0) = ⟨hgSuccess, some 42, [.decode]⟩ := by
  intro data
  have hin : ∀ cb, data.inProcCb = some cb → Undoes cb := by
    rintro cb ⟨⟩
    exact undoes_wordCb
  have hout : ∀ cb, data.outProcCb = some cb → Undoes cb := by
    rintro cb ⟨⟩
    exact undoes_wordCb
  let codes : Codes := ⟨13, 0, 23⟩
  have hchecksum : (23 : HgReturn) = hgSuccess ∨ (23 : HgReturn) = codes.checksumError := .inr rfl
  obtain ⟨hrequests, hresponses, -⟩ := headers_agree hin hout hchecksum
  have hwritten : (irespondMessage codes data 42).1 = hgSuccess := by
    apply (hresponses 42).1.mpr
    rintro cb ⟨⟩
    rfl
  constructor
  · exact ((hrequests 7 1000).2 _ rfl).1
  · exact (((hresponses 42).2 _ (Prod.ext hwritten rfl)).2 rfl 0).1

end

end Margo.Serialization
