import PicoCan.Calls.JsonRead
import PicoCan.Can.RoundTrip
import PicoCan.Can.Verdict

/-!
# Every text message gets its own object

The loop of the WebSocket thread sends what the response buffer holds after a text message,
whatever the return value. The printers write objects of `Json.objectText`, which the reader of
such texts reads back; a bound on every number keeps each of them inside the buffer. And no
function reads the buffer, so nothing of what it held is left.
-/

namespace PicoCan.Can

open Calls Json

/-! ## The objects -/

def errorObject (code message : String) (err : Int) : Object :=
  [("type", .string (lit "error")), ("ok", .bool false), ("code", .string (lit code)),
    ("err", .number err), ("message", .string (lit message))]

def statusObject (s : Status) : Object :=
  [("type", .string (lit "can.status")), ("ok", .bool true), ("bus", .number 0),
    ("ready", .bool s.ready), ("state", .string (lit (canStateName s.state))),
    ("bitrate", .number s.bitrate.toNat), ("mode", .string (lit (canModeName s.mode))),
    ("txErr", .number s.txErr.toNat), ("rxErr", .number s.rxErr.toNat),
    ("txQueueUsed", .number s.txQueueUsed), ("txQueueFree", .number s.txQueueFree),
    ("rxQueueUsed", .number s.rxQueueUsed), ("rxQueueFree", .number s.rxQueueFree)]

def txReplyObject (msg : CanJsonMessage) (us : UInt64) : Object :=
  [("type", .string (lit "can.tx")), ("ok", .bool true), ("bus", .number msg.bus.toInt),
    ("id", .number msg.id.toInt), ("ext", .bool msg.ext), ("rtr", .bool msg.rtr),
    ("dlc", .number msg.dlc.toInt), ("data", .numbers (msg.data.map Int32.toInt)),
    ("queued", .bool true), ("ts", .number us.toInt64.toInt)]

theorem errorText_eq (code message : String) (err : Int) :
    errorText code message err = objectText (errorObject code message err) := by
  simp only [errorText, objectText, errorObject, List.map_cons, List.map_nil, memberText, text,
    commaList, List.flatMap_cons, List.flatMap_nil, Bool.false_eq_true, if_false]
  generalize lit code = code
  generalize lit message = message
  simp only [List.append_assoc, List.append_nil, lit_append_append, lit_append,
    String.reduceAppend]

theorem statusText_eq (s : Status) : statusText s = objectText (statusObject s) := by
  have zero : decInt 0 = lit "0" := by decide
  unfold statusText
  simp only [objectText, statusObject, List.map_cons, List.map_nil, memberText, text, commaList,
    List.flatMap_cons, List.flatMap_nil, if_true, zero, decInt_nat, jsonBool]
  generalize lit (canStateName s.state) = state
  generalize lit (canModeName s.mode) = mode
  simp only [List.append_assoc, List.append_nil, lit_append_append, lit_append,
    String.reduceAppend]

theorem txText_eq (msg : CanJsonMessage) (us : UInt64) :
    txText msg us = objectText (txReplyObject msg us) := by
  simp only [txText, txHeadText, txTailText, clockText, elementsText_zero, objectText,
    txReplyObject, List.map_cons, List.map_nil, memberText, text, commaList, List.flatMap_cons,
    List.flatMap_nil, List.map_map, Function.comp_def, List.append_assoc, List.append_nil,
    lit_append_append, lit_append, String.reduceAppend, if_true, jsonBool]

/-! ## Complete replies -/

/-- A whole object of a documented type, with its terminator inside the buffer. -/
structure Complete (text : Bytes) : Prop where
  short : text.length < wsResponseMax
  terminated : 0 ∉ text
  reads : ∃ object, readObject text = some object ∧
    ∃ type ∈ ["error", "can.status", "can.tx"], object.lookup "type" = some (.string (lit type))

theorem Complete.of_object {object : Object} (type : String)
    (short : (objectText object).length < wsResponseMax)
    (plain : ∀ member ∈ object, PlainName member.1 ∧ member.2.Plain)
    (documented : type ∈ ["error", "can.status", "can.tx"])
    (typed : object.lookup "type" = some (.string (lit type))) : Complete (objectText object) := by
  exact ⟨short, (printable_objectText plain).not_zero, object, readObject_objectText plain, type,
    documented, typed⟩

theorem replyOf_text {text : Bytes} (short : text.length < wsResponseMax) :
    (replyOf text).2 = text :=
  List.take_of_length_le (Nat.le_of_lt_succ short)

/-- A value of the C type `int`. -/
def IsInt (n : Int) : Prop := -2 ^ 31 ≤ n ∧ n < 2 ^ 31

instance (n : Int) : Decidable (IsInt n) := inferInstanceAs (Decidable (_ ∧ _))

theorem IsInt.length {n : Int} (int : IsInt n) : (decInt n).length ≤ 11 := by
  have low := int.1
  have high := int.2
  exact decInt_length_le (by decide) (by omega)

/-- A text that an error object can quote as it is. -/
def PlainText (limit : Nat) (text : String) : Prop :=
  (lit text).all isPlain ∧ (lit text).length ≤ limit

instance (limit : Nat) (text : String) : Decidable (PlainText limit text) :=
  inferInstanceAs (Decidable (_ ∧ _))

section
variable {code message : String} (plain : PlainText 40 code ∧ PlainText 80 message) {err : Int}
  (int : IsInt err)
include plain

include int in
theorem errorText_short : (errorText code message err).length < wsResponseMax := by
  have codeLength := plain.1.2
  have messageLength := plain.2.2
  have number := int.length
  have max : wsResponseMax = 512 := rfl
  have head : (lit "\x7b\"type\":\"error\",\"ok\":false,\"code\":\"").length = 35 := by decide
  have err : (lit "\",\"err\":").length = 8 := by decide
  have text : (lit ",\"message\":\"").length = 12 := by decide
  have tail : (lit "\"\x7d").length = 2 := by decide
  simp only [errorText, List.length_append]
  omega

theorem errorObject_plain :
    ∀ member ∈ errorObject code message err, PlainName member.1 ∧ member.2.Plain := by
  have names : ∀ name ∈ ["type", "ok", "code", "err", "message"], PlainName name := by
    decide +kernel
  refine plain_of names fun value within => ?_
  have error : (lit "error").all isPlain := by decide
  simp only [errorObject, List.map_cons, List.map_nil, List.mem_cons, List.not_mem_nil,
    or_false] at within
  rcases within with rfl | rfl | rfl | rfl | rfl
  · exact error
  · trivial
  · exact plain.1.1
  · trivial
  · exact plain.2.1

include int

theorem wsReply_complete (response : Bytes) :
    Complete (wsReply response wsResponseMax code message err).2 := by
  have short := errorText_short plain int
  rw [wsReply_eq, replyOf_text short]
  rw [errorText_eq] at short ⊢
  exact .of_object "error" short (errorObject_plain plain) (by decide) rfl

theorem wsReply_reads (response : Bytes) :
    readObject (wsReply response wsResponseMax code message err).2 =
      some (errorObject code message err) := by
  rw [wsReply_eq, replyOf_text (errorText_short plain int), errorText_eq,
    readObject_objectText (errorObject_plain plain)]

end

/-- A status with counters of their C types. -/
theorem statusText_complete {s : Status} (txUsed : s.txQueueUsed < 2 ^ 32)
    (txFree : s.txQueueFree < 2 ^ 32) (rxUsed : s.rxQueueUsed < 2 ^ 32)
    (rxFree : s.rxQueueFree < 2 ^ 32) : Complete (replyOf (statusText s)).2 := by
  have state : PlainText 13 (canStateName s.state) := by
    cases s.state <;> decide
  have mode : PlainText 11 (canModeName s.mode) := by
    unfold canModeName
    split
    · decide
    · split <;> decide
  have short : (statusText s).length < wsResponseMax := by
    have ready := jsonBool_length_le s.ready
    have stateLength := state.2
    have modeLength := mode.2
    have bitrate : (dec s.bitrate.toNat).length ≤ 10 :=
      dec_length_le (by decide) (by have := s.bitrate.toNat_lt; omega)
    have txErr : (dec s.txErr.toNat).length ≤ 3 :=
      dec_length_le (by decide) (by have := s.txErr.toNat_lt; omega)
    have rxErr : (dec s.rxErr.toNat).length ≤ 3 :=
      dec_length_le (by decide) (by have := s.rxErr.toNat_lt; omega)
    have counters : (dec s.txQueueUsed).length ≤ 10 ∧ (dec s.txQueueFree).length ≤ 10 ∧
        (dec s.rxQueueUsed).length ≤ 10 ∧ (dec s.rxQueueFree).length ≤ 10 :=
      ⟨dec_length_le (by decide) (by omega), dec_length_le (by decide) (by omega),
        dec_length_le (by decide) (by omega), dec_length_le (by decide) (by omega)⟩
    have max : wsResponseMax = 512 := rfl
    unfold statusText
    generalize lit (canStateName s.state) = state at *
    generalize lit (canModeName s.mode) = mode at *
    simp only [List.length_append]
    simp only [lit, List.length_map]
    simp
    omega
  rw [replyOf_text short]
  rw [statusText_eq] at short ⊢
  refine .of_object "can.status" short ?_ (by decide) rfl
  have names : ∀ name ∈ ["type", "ok", "bus", "ready", "state", "bitrate", "mode", "txErr", "rxErr",
      "txQueueUsed", "txQueueFree", "rxQueueUsed", "rxQueueFree"], PlainName name := by
    decide +kernel
  refine plain_of names fun value within => ?_
  have status : (lit "can.status").all isPlain := by decide
  simp only [statusObject, List.map_cons, List.map_nil, List.mem_cons, List.not_mem_nil,
    or_false] at within
  rcases within with rfl | rfl | rfl | rfl | rfl | rfl | rfl | rfl | rfl | rfl | rfl | rfl | rfl <;>
    first | exact status | exact state.1 | exact mode.1 | trivial

theorem txReplyObject_plain (msg : CanJsonMessage) (us : UInt64) :
    ∀ member ∈ txReplyObject msg us, PlainName member.1 ∧ member.2.Plain := by
  have names : ∀ name ∈ ["type", "ok", "bus", "id", "ext", "rtr", "dlc", "data", "queued", "ts"],
      PlainName name := by
    decide +kernel
  refine plain_of names fun value within => ?_
  have tx : (lit "can.tx").all isPlain := by decide
  simp only [txReplyObject, List.map_cons, List.map_nil, List.mem_cons, List.not_mem_nil,
    or_false] at within
  rcases within with rfl | rfl | rfl | rfl | rfl | rfl | rfl | rfl | rfl | rfl <;>
    first | exact tx | trivial

theorem txText_complete (msg : CanJsonMessage) (us : UInt64) : Complete (txText msg us) := by
  have short : (txText msg us).length < wsResponseMax := txText_length_lt msg us
  rw [txText_eq] at short ⊢
  exact .of_object "can.tx" short (txReplyObject_plain msg us) (by decide) rfl

/-! ## Every exit writes one -/

/-- The codes are values of their C types. -/
structure Codes.Typed (codes : Codes) : Prop where
  stop : IsInt codes.stop
  setMode : ∀ mode, IsInt (codes.setMode mode)
  setBitrate : ∀ bitrate, IsInt (codes.setBitrate bitrate)
  start : ∀ site, IsInt (codes.start site)
  reading : IsInt codes.reading.ret
  put : ∀ frame, IsInt (codes.put frame)
  numUsed : ∀ queue, codes.numUsed queue < 2 ^ 32
  numFree : ∀ queue, codes.numFree queue < 2 ^ 32

theorem canModeFromName_int (name : Option Bytes) (mode : CanMode) :
    IsInt (canModeFromName name mode).1 := by
  have zero : IsInt 0 := by decide
  cases name with
  | none => exact zero
  | some name =>
      unfold canModeFromName
      simp only
      split
      · exact zero
      · split
        · exact zero
        · split
          · exact zero
          · exact (by decide : IsInt (-eInval))

/-- The errors of the validator are plain texts with numbers that fit. -/
theorem validatorErrors_plain : ∀ e ∈ validatorErrors,
    (PlainText 40 e.1 ∧ PlainText 80 e.2.1) ∧ IsInt e.2.2 := by
  decide +kernel

/-- The validator writes an object, or leaves everything as it is. -/
theorem validateCanJson_complete (msg : CanJsonMessage) (fields : CanJsonField → Bool)
    (response : Bytes) (invalid : (validateCanJson msg fields response wsResponseMax).1 ≠ 0) :
    Complete (validateCanJson msg fields response wsResponseMax).2 := by
  rcases validateCanJson_checks msg fields with passed | ⟨code, message, err, listed, refused⟩
  · rw [passed] at invalid
    exact absurd rfl invalid
  · obtain ⟨plain, int⟩ := validatorErrors_plain _ listed
    rw [refused]
    exact wsReply_complete plain int response

section
variable {codes : Codes} (typed : codes.Typed) (response : Bytes) (s : Variables × List CanCall)
include typed

theorem canBridgeFormatStatus_complete :
    (canBridgeFormatStatus response wsResponseMax).wp (Spec.of (Prog.logged (answers codes)))
      (fun reply _ => Complete reply.2) s := by
  refine (Prog.wp_ite _ _ _ _ _ _).mpr ⟨fun _ => ?_, fun _ => ?_⟩
  · exact wsReply_complete (by decide +kernel) typed.reading response
  · have complete := statusText_complete (s := ⟨s.1.canReady, codes.reading.state,
      s.1.currentBitrate, s.1.currentMode, codes.reading.txErr, codes.reading.rxErr,
      codes.numUsed .tx, codes.numFree .tx, codes.numUsed .rx, codes.numFree .rx⟩)
      (typed.numUsed .tx) (typed.numFree .tx) (typed.numUsed .rx) (typed.numFree .rx)
    rwa [← snprintk_eq response] at complete

theorem applyCanConfig_int (mode : CanMode) (bitrate : UInt32) :
    (applyCanConfig mode bitrate).wp (Spec.of (Prog.logged (answers codes)))
      (fun ret _ => IsInt ret) s := by
  refine (Prog.wp_ite _ _ _ _ _ _).mpr ⟨fun _ => typed.stop, fun _ => ?_⟩
  refine (Prog.wp_ite _ _ _ _ _ _).mpr ⟨fun _ => typed.setMode mode, fun _ => ?_⟩
  refine (Prog.wp_ite _ _ _ _ _ _).mpr ⟨fun _ => typed.setBitrate bitrate, fun _ => ?_⟩
  exact (Prog.wp_ite _ _ _ _ _ _).mpr ⟨fun _ => typed.start .apply, fun _ => typed.start .apply⟩

theorem configure_complete (mode : CanMode) (bitrate : UInt32) :
    (configure mode bitrate response).wp (Spec.of (Prog.logged (answers codes)))
      (fun reply _ => Complete reply.2) s := by
  refine (Prog.wp_bind _ (applyCanConfig _ _) _ _ _).mpr
    (Prog.wp_mono (Spec.of_mono _) (fun ret t int => ?_) (applyCanConfig_int typed _ mode bitrate))
  refine (Prog.wp_ite _ _ _ _ _ _).mpr ⟨fun _ => ?_, fun _ => ?_⟩
  · refine (Prog.wp_bind _ recoverCanConfig _ _ _).mpr
      (recoverCanConfig_logged codes _ _ fun ready calls _ => ?_)
    exact wsReply_complete (by decide +kernel) int response
  · exact canBridgeFormatStatus_complete typed response _

theorem handleCanConfigSet_complete (msg : CanJsonMessage) (fields : CanJsonField → Bool) :
    (handleCanConfigSet msg fields response wsResponseMax).wp
      (Spec.of (Prog.logged (answers codes))) (fun reply _ => Complete reply.2) s := by
  refine (Prog.wp_ite _ _ _ _ _ _).mpr ⟨fun _ => ?_, fun _ => ?_⟩
  · exact wsReply_complete (by decide +kernel) (by decide) response
  refine (Prog.wp_ite _ _ _ _ _ _).mpr ⟨fun bad => ?_, fun _ => ?_⟩
  · refine wsReply_complete (by decide +kernel) ?_ response
    split
    · exact canModeFromName_int _ _
    · exact (by decide : IsInt 0)
  · exact configure_complete typed response _ _ _

theorem handleCanTx_complete (msg : CanJsonMessage) (fields : CanJsonField → Bool) :
    (handleCanTx msg fields response wsResponseMax).wp
      (Spec.of (Prog.logged (answers codes))) (fun reply _ => Complete reply.2) s := by
  refine (Prog.wp_ite _ _ _ _ _ _).mpr
    ⟨fun invalid => validateCanJson_complete msg fields response invalid, fun _ => ?_⟩
  refine (Prog.wp_ite _ _ _ _ _ _).mpr ⟨fun _ => ?_, fun _ => ?_⟩
  · exact wsReply_complete (by decide +kernel) (typed.put _) _
  · rw [formatCanTxResponse_eq _ (show ∀ us, (txText msg us).length < wsResponseMax from
      txText_length_lt msg)]
    exact txText_complete msg codes.us

end

/-! ## Nothing is left of what the buffer held -/

theorem canBridgeFormatStatus_fresh (response : Bytes) :
    canBridgeFormatStatus response wsResponseMax = canBridgeFormatStatus [] wsResponseMax := by
  unfold canBridgeFormatStatus
  simp only [wsReply_eq, snprintk_eq]

theorem handleCanConfigSet_fresh (msg : CanJsonMessage) (fields : CanJsonField → Bool)
    (response : Bytes) : handleCanConfigSet msg fields response wsResponseMax =
      handleCanConfigSet msg fields [] wsResponseMax := by
  unfold handleCanConfigSet
  rw [canBridgeFormatStatus_fresh response]
  simp only [wsReply_eq]

theorem handleCanTx_fresh (msg : CanJsonMessage) (fields : CanJsonField → Bool)
    (response : Bytes) :
    handleCanTx msg fields response wsResponseMax = handleCanTx msg fields [] wsResponseMax := by
  have fits : ∀ us, (txText msg us).length < wsResponseMax := txText_length_lt msg
  unfold handleCanTx
  rcases validateCanJson_checks msg fields with passed | ⟨code, message, err, -, refused⟩
  · rw [passed, passed]
    simp only [wsReply_eq, formatCanTxResponse_eq _ fits]
    rw [if_neg (not_not_intro rfl), if_neg (not_not_intro rfl)]
  · rw [refused, refused, wsReply_eq, wsReply_eq]

theorem canBridgeHandleWsText_fresh (payload response : Bytes) :
    canBridgeHandleWsText payload response wsResponseMax =
      canBridgeHandleWsText payload [] wsResponseMax := by
  unfold canBridgeHandleWsText
  simp only [wsReply_eq, canBridgeFormatStatus_fresh response,
    handleCanConfigSet_fresh _ _ response, handleCanTx_fresh _ _ response]

/-- Whatever the parser, the driver and the queues answer, and whatever the buffer held, a text
message leaves one complete object of its own in the response buffer. -/
theorem reply_complete {codes : Codes} (typed : codes.Typed) (v : Variables)
    (payload response : Bytes) :
    Complete (handled codes v (canBridgeHandleWsText payload response wsResponseMax)).reply.2 ∧
      ∀ stale, handled codes v (canBridgeHandleWsText payload stale wsResponseMax) =
        handled codes v (canBridgeHandleWsText payload response wsResponseMax) := by
  refine ⟨?_, fun stale => ?_⟩
  · refine handled_of_wp (P := fun h => Complete h.reply.2) ?_
    refine (Prog.wp_ite _ _ _ _ _ _).mpr ⟨fun _ => ?_, fun _ => ?_⟩
    · exact wsReply_complete (by decide +kernel) (by decide) response
    refine (Prog.wp_ite _ _ _ _ _ _).mpr ⟨fun _ => ?_, fun _ => ?_⟩
    · exact wsReply_complete (by decide +kernel) (by decide) response
    simp only [perform, Prog.perform_bind, Prog.wp_call, Spec.of, Prog.logged, answers]
    cases codes.parse payload with
    | error e =>
        have low := e.lt
        exact wsReply_complete (by decide +kernel)
          ⟨by unfold Errno.ret; omega, by unfold Errno.ret; omega⟩ response
    | fields fields msg =>
        refine (Prog.wp_ite _ _ _ _ _ _).mpr ⟨fun _ => ?_, fun _ => ?_⟩
        · refine (Prog.wp_ite _ _ _ _ _ _).mpr ⟨fun _ => ?_, fun _ => ?_⟩
          · exact canBridgeFormatStatus_complete typed response _
          refine (Prog.wp_ite _ _ _ _ _ _).mpr ⟨fun _ => ?_, fun _ => ?_⟩
          · exact handleCanConfigSet_complete typed response _ msg fields
          refine (Prog.wp_ite _ _ _ _ _ _).mpr ⟨fun _ => ?_, fun _ => ?_⟩
          · exact wsReply_complete (by decide +kernel) (by decide) response
          · exact handleCanTx_complete typed response _ msg fields
        · exact handleCanTx_complete typed response _ msg fields
  · rw [canBridgeHandleWsText_fresh, canBridgeHandleWsText_fresh payload response]

/-- Over the last received frame. -/
theorem reply_complete_sample :
    Complete (handled { parse := parseSample } initialised
      (canBridgeHandleWsText (lit "tx") (rxText dataFrame 0) wsResponseMax)).reply.2 := by
  have zero : IsInt 0 := by decide
  exact (reply_complete ⟨zero, fun _ => zero, fun _ => zero, fun _ => zero, zero, fun _ => zero,
    fun _ => (by decide : 0 < 2 ^ 32), fun _ => (by decide : 8 < 2 ^ 32)⟩ initialised _ _).1

end PicoCan.Can
