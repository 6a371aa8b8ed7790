import PicoCan.Calls.Json
import PicoCan.Can.System
import PicoCan.Can.Format

/-!
# What a client receives it can send

A `can.rx` object with its type changed to `can.tx` is a transmit request for the same
frame. Two printers and a validator have to agree on it; they do for every data frame and
for remote frames without length, while the printer of `can.rx` gives a remote frame with
a length an array that the validator refuses.
-/

namespace PicoCan.Can

open Calls Json

/-! ## Requests as objects -/

def CanJsonField.name : CanJsonField → String
  | .type => "type"
  | .bus => "bus"
  | .id => "id"
  | .ext => "ext"
  | .rtr => "rtr"
  | .dlc => "dlc"
  | .data => "data"
  | .bitrate => "bitrate"
  | .mode => "mode"

/-- The message `json_obj_parse` fills in for an object, by the table `can_json_descr`. -/
def decodeMessage (object : Object) : Option CanJsonMessage := do
  let field := fun f : CanJsonField => object.lookup f.name
  let type ← stringField (field .type)
  let bus ← int32Field (field .bus)
  let id ← int32Field (field .id)
  let ext ← boolField (field .ext)
  let rtr ← boolField (field .rtr)
  let dlc ← int32Field (field .dlc)
  let data ← int32ArrayField (field .data)
  let bitrate ← int32Field (field .bitrate)
  let mode ← stringField (field .mode)
  if fits : data.length ≤ canMaxDlc then
    return { type, bus, id, ext, rtr, dlc, data, bitrate, mode, dataLen_le := fits }
  else none

/-- What the JSON library promises for the text of an object all of whose described
members have the described types: the fields present, and the message. Members the table
does not describe are skipped. -/
def ParsesObject (parse : Bytes → ParseResult) (object : Object) : Prop :=
  ∀ msg, decodeMessage object = some msg →
    parse (objectText object) = .fields (fun f => (object.lookup f.name).isSome) msg

/-! ## A received frame as a request -/

/-- The text of a `can.rx` object with its type changed to `can.tx`. -/
def asTx (text : Bytes) : Bytes :=
  lit "\x7b\"type\":\"can.tx\"" ++ text.drop (lit "\x7b\"type\":\"can.rx\"").length

/-- The same as an object. -/
def txObject (frame : CanFrame) (us : UInt64) : Object :=
  [("type", .string (lit "can.tx")), ("bus", .number 0), ("id", .number frame.id.toNat),
    ("ext", .bool frame.ide), ("rtr", .bool frame.rtr), ("dlc", .number frame.dlc.toNat),
    ("data", .numbers (frame.bytes.map fun byte => (byte.toNat : Int))),
    ("ts", .number us.toInt64.toInt)]

theorem elementsText_succ (i : Nat) (numbers : List Bytes) :
    elementsText (i + 1) numbers = numbers.flatMap fun number => lit "," ++ number := by
  induction numbers generalizing i with
  | nil => rfl
  | cons number rest ih =>
      rw [elementsText, elementText, if_neg (Nat.succ_ne_zero i), ih, List.flatMap_cons]

theorem elementsText_zero (numbers : List Bytes) : elementsText 0 numbers = commaList numbers := by
  cases numbers with
  | nil => rfl
  | cons number rest =>
      rw [elementsText, elementText, if_pos rfl, elementsText_succ, commaList, List.nil_append]

theorem asTx_rxText (frame : CanFrame) (us : UInt64) :
    asTx (rxText frame us) = objectText (txObject frame us) := by
  have begins : lit "\x7b\"type\":\"can.rx\",\"bus\":0,\"id\":" =
      lit "\x7b\"type\":\"can.rx\"" ++ lit ",\"bus\":0,\"id\":" := by decide
  have zero : decInt 0 = lit "0" := by decide
  simp only [asTx, rxText, rxHeadText, rxTailText, clockText, begins, List.append_assoc,
    List.drop_left, elementsText_zero]
  simp only [objectText, txObject, List.map_cons, List.map_nil, memberText, text, commaList,
    List.flatMap_cons, List.flatMap_nil, List.map_map, Function.comp_def, decInt_nat, zero,
    jsonBool, List.append_assoc, List.append_nil, lit_append_append, lit_append,
    String.reduceAppend]

/-! ## The request is the frame -/

/-- A frame that `can_send` can be given: at most eight bytes, the identifier in range. -/
def CanFrame.Classical (frame : CanFrame) : Prop :=
  frame.dlc.toNat ≤ 8 ∧
    (frame.id.toNat : Int) ≤ if frame.ide then canExtIdMask else canStdIdMask

/-- The message a received frame makes as a request. -/
def rxMessage (frame : CanFrame) : CanJsonMessage where
  type := some (lit "can.tx")
  id := Int32.ofNat frame.id.toNat
  ext := frame.ide
  rtr := frame.rtr
  dlc := Int32.ofNat frame.dlc.toNat
  data := frame.bytes.map fun byte => Int32.ofNat byte.toNat
  dataLen_le := by rw [List.length_map]; exact frame.bytes_length_le

theorem CanFrame.Classical.id_lt {frame : CanFrame} (classical : frame.Classical) :
    frame.id.toNat < 2 ^ 31 := by
  have range := classical.2
  split at range
  · unfold canExtIdMask at range
    omega
  · unfold canStdIdMask at range
    omega

theorem decodeMessage_txObject {frame : CanFrame} (classical : frame.Classical) (us : UInt64) :
    decodeMessage (txObject frame us) = some (rxMessage frame) := by
  have id := int32Field_nat classical.id_lt
  have dlc : int32Field (some (.number frame.dlc.toNat)) = some (Int32.ofNat frame.dlc.toNat) :=
    int32Field_nat (Nat.lt_of_le_of_lt classical.1 (by decide))
  have fits : frame.bytes.length ≤ canMaxDlc := frame.bytes_length_le
  have zero : int32Field (some (.number 0)) = some 0 := int32Field_nat (n := 0) (by decide)
  have absent : int32Field none = some 0 := rfl
  simp [decodeMessage, txObject, CanJsonField.name, List.lookup_cons, List.lookup_nil, stringField,
    boolField, id, dlc, zero, absent, int32ArrayField_bytes, fits, rxMessage]

theorem toInt_ofNat {n : Nat} (small : n < 2 ^ 31) : (Int32.ofNat n).toInt = n :=
  Int32.toInt_ofNat_of_lt small

/-- The validator accepts every classical frame but a remote frame with a length. -/
theorem validateCanJson_rxMessage {frame : CanFrame} (classical : frame.Classical)
    (us : UInt64) (response : Bytes) (responseLen : Nat) :
    validateCanJson (rxMessage frame)
        (fun f => ((txObject frame us).lookup f.name).isSome) response responseLen =
      if frame.rtr = true ∧ 0 < frame.dlc.toNat then
        wsReply response responseLen "rtr_has_data" "RTR frames must not include data bytes"
          (-eInval)
      else (0, response) := by
  have dlcLe := classical.1
  have idLe := classical.2
  have bus : (rxMessage frame).bus.toInt = 0 := rfl
  have dlc : (rxMessage frame).dlc.toInt = frame.dlc.toNat :=
    toInt_ofNat (Nat.lt_of_le_of_lt dlcLe (by decide))
  have id : (rxMessage frame).id.toInt = frame.id.toNat := toInt_ofNat classical.id_lt
  have count : (rxMessage frame).data.length = frame.dlc.toNat := by
    simp only [rxMessage, CanFrame.bytes, List.length_map, List.length_take, Vector.length_toList]
    omega
  have size : (rxMessage frame).dlc.toUInt32.toNat = frame.dlc.toNat := by
    simp only [rxMessage, Int32.toUInt32_ofNat', UInt32.toNat_ofNat']
    omega
  have idOk : ¬ ((rxMessage frame).id.toInt < 0 ∨
      (¬ (rxMessage frame).ext = true ∧ (rxMessage frame).id.toInt > canStdIdMask) ∨
      ((rxMessage frame).ext = true ∧ (rxMessage frame).id.toInt > canExtIdMask)) := by
    rw [id, show (rxMessage frame).ext = frame.ide from rfl]
    cases ide : frame.ide <;> simp only [ide] at idLe <;> simp at idLe ⊢ <;> omega
  have bytesOk : ((rxMessage frame).data.any fun byte => byte.toInt < 0 ∨ byte.toInt > 0xff) =
      false := by
    rw [List.any_eq_false]
    intro byte member
    obtain ⟨b, -, rfl⟩ := List.mem_map.mp member
    have small := b.toNat_lt
    rw [toInt_ofNat (Nat.lt_trans small (by decide))]
    simp
    omega
  have found : ((txObject frame us).lookup CanJsonField.data.name).isSome = true := rfl
  simp only [validateCanJson, found]
  rw [if_neg (not_not_intro ⟨rfl, rfl, rfl⟩), if_neg (by rw [bus]; decide),
    if_neg (by rw [dlc]; unfold canMaxDlc; omega), if_neg idOk, if_neg (by simp),
    if_neg (by rw [count, size]; simp), bytesOk, count]
  simp [show (rxMessage frame).rtr = frame.rtr from rfl]

theorem frameOfMessage_rxMessage (frame : CanFrame) :
    (frameOfMessage (rxMessage frame)).id = frame.id ∧
      (frameOfMessage (rxMessage frame)).ide = frame.ide ∧
      (frameOfMessage (rxMessage frame)).rtr = frame.rtr ∧
      (frameOfMessage (rxMessage frame)).dlc = frame.dlc ∧
      (frameOfMessage (rxMessage frame)).bytes = frame.bytes := by
  have flags : ∀ ext rtr : Bool,
      (((if ext then canFrameIde else 0) ||| (if rtr then canFrameRtr else 0)) &&& canFrameIde != 0)
        = ext ∧
      (((if ext then canFrameIde else 0) ||| (if rtr then canFrameRtr else 0)) &&& canFrameRtr != 0)
        = rtr := by decide
  have dlc : (frameOfMessage (rxMessage frame)).dlc = frame.dlc := by
    simp [frameOfMessage, rxMessage]
  refine ⟨?_, (flags frame.ide frame.rtr).1, (flags frame.ide frame.rtr).2, dlc, ?_⟩
  · simp [frameOfMessage, rxMessage]
  · rw [CanFrame.bytes, dlc]
    refine List.ext_getElem ?_ fun i hi hi' => ?_
    · simp [CanFrame.bytes]
    · simp [frameOfMessage, rxMessage, List.getElem?_eq_getElem hi']

/-! ## The round trip -/

/-- Frames that say the same on the bus. -/
structure SameFrame (sent frame : CanFrame) : Prop where
  id : sent.id = frame.id
  ide : sent.ide = frame.ide
  rtr : sent.rtr = frame.rtr
  dlc : sent.dlc = frame.dlc
  data : frame.rtr = false → sent.bytes = frame.bytes

/-- The object printed for a received frame, made a request, enqueues that frame. -/
def RoundTrips (parse : Bytes → ParseResult) (frame : CanFrame) (us : UInt64) : Prop :=
  ∀ (b : Bridge) (q : Fifo CanFrame canRxQueueLen) (stale response : Bytes),
    b.rxQueue.get = some (frame, q) → b.canReady = true →
    b.txQueue.items.length < canTxQueueLen →
    ∃ text reply b',
      (canBridgeFormatNextRx stale wsResponseMax).attempt (fun c => exec parse .ws c { us }) b =
        some ((0, text), { b with rxQueue := q }) ∧
      (canBridgeHandleWsText (asTx text) response wsResponseMax).attempt
          (fun c => exec parse .ws c { us }) { b with rxQueue := q } = some (reply, b') ∧
      ∃ sent, b'.accepted = b.accepted ++ [sent] ∧ SameFrame sent frame

section Runs

variable {parse : Bytes → ParseResult} {frame : CanFrame} {us : UInt64}

/-- The printer takes the frame and prints its object. -/
theorem canBridgeFormatNextRx_attempt (classical : frame.Classical) {b : Bridge}
    {q : Fifo CanFrame canRxQueueLen} (get : b.rxQueue.get = some (frame, q)) (stale : Bytes) :
    (canBridgeFormatNextRx stale wsResponseMax).attempt (fun c => exec parse .ws c { us }) b =
      some ((0, rxText frame us), { b with rxQueue := q }) := by
  have printed := formatRxFrame_eq stale classical.1 (rxText_length_lt frame)
  simp only [canBridgeFormatNextRx, perform, Prog.perform_bind, Prog.attempt_call, exec, get,
    Option.bind_some]
  rw [show wsResponseMax = 512 from rfl, printed]
  rfl

theorem asTx_length_lt (frame : CanFrame) (us : UInt64) :
    (asTx (rxText frame us)).length < canWsJsonMax := by
  have text := rxText_length_le frame us
  have head : (lit "\x7b\"type\":\"can.tx\"").length = 16 := by decide
  have max : canWsJsonMax = 256 := rfl
  rw [asTx, List.length_append, List.length_drop]
  omega

/-- The request reaches the `can.tx` branch with the frame's message. -/
theorem canBridgeHandleWsText_attempt (classical : frame.Classical)
    (parses : ParsesObject parse (txObject frame us)) {b : Bridge} (ready : b.canReady = true)
    (response : Bytes) :
    (canBridgeHandleWsText (asTx (rxText frame us)) response wsResponseMax).attempt
        (fun c => exec parse .ws c { us }) b =
      (handleCanTx (rxMessage frame) (fun f => ((txObject frame us).lookup f.name).isSome)
        response wsResponseMax).attempt (fun c => exec parse .ws c { us }) b := by
  have parsed := parses _ (decodeMessage_txObject classical us)
  rw [← asTx_rxText] at parsed
  have short := Nat.not_le.mpr (asTx_length_lt frame us)
  have type : (rxMessage frame).type = some (lit "can.tx") := rfl
  have isStatus : ¬ ((rxMessage frame).type = some (lit "can.status") ∨
      (rxMessage frame).type = some (lit "can.config.get")) := by rw [type]; decide
  have isConfig : ¬ (rxMessage frame).type = some (lit "can.config.set") := by rw [type]; decide
  simp only [canBridgeHandleWsText, perform, Prog.perform_bind, Prog.attempt_call, exec, ready,
    Option.bind_some]
  rw [if_neg (not_not_intro trivial), if_neg short]
  simp only [Prog.attempt_call, exec, parsed, Option.bind_some]
  have typed : ((txObject frame us).lookup CanJsonField.type.name).isSome = true := rfl
  rw [if_pos typed, if_neg isStatus, if_neg isConfig, if_neg (not_not_intro type)]

variable (parse us) in
/-- A lengthy remote frame is refused, and nothing is enqueued. -/
theorem handleCanTx_refuses (classical : frame.Classical) (rtr : frame.rtr = true)
    (lengthy : 0 < frame.dlc.toNat) (b : Bridge) (response : Bytes) :
    ∃ reply, (handleCanTx (rxMessage frame) (fun f => ((txObject frame us).lookup f.name).isSome)
        response wsResponseMax).attempt (fun c => exec parse .ws c { us }) b = some (reply, b) := by
  rw [handleCanTx, validateCanJson_rxMessage classical, if_pos ⟨rtr, lengthy⟩]
  rcases refused : wsReply response wsResponseMax "rtr_has_data"
    "RTR frames must not include data bytes" (-eInval) with ⟨ret, text⟩
  have nonzero : ret ≠ 0 := by
    obtain rfl := congrArg Prod.fst refused
    have begins := (errorText_begins "rtr_has_data" "RTR frames must not include data bytes"
      (-eInval)).length_le
    have head : 0 < (errorHead ++ lit "rtr_has_data").length := by decide
    simp only [wsReply, snprintk, printAt]
    omega
  simp only
  rw [if_pos nonzero]
  exact ⟨_, rfl⟩

variable (parse us) in
/-- Every other frame is enqueued. -/
theorem handleCanTx_enqueues (classical : frame.Classical)
    (short : ¬ (frame.rtr = true ∧ 0 < frame.dlc.toNat)) {b : Bridge}
    (room : b.txQueue.items.length < canTxQueueLen) (response : Bytes) :
    ∃ reply b', (handleCanTx (rxMessage frame)
        (fun f => ((txObject frame us).lookup f.name).isSome) response wsResponseMax).attempt
          (fun c => exec parse .ws c { us }) b = some (reply, b') ∧
      b'.accepted = b.accepted ++ [frameOfMessage (rxMessage frame)] := by
  rw [handleCanTx, validateCanJson_rxMessage classical, if_neg short]
  obtain ⟨queue, put, -⟩ := Fifo.put_of_room (a := frameOfMessage (rxMessage frame)) room
  simp only
  rw [if_neg (not_not_intro rfl)]
  simp only [perform, Prog.perform_bind, Prog.attempt_call, exec, put, Option.bind_some]
  rw [if_neg (Int.lt_irrefl 0), show wsResponseMax = 512 from rfl,
    formatCanTxResponse_eq response (txText_length_lt (rxMessage frame))]
  exact ⟨_, _, rfl, rfl⟩

end Runs

/-- A ready bridge with one frame in its RX queue. -/
def Bridge.holding (frame : CanFrame) : Bridge :=
  { Bridge.powerOn with canReady := true, rxQueue := ⟨[frame], Nat.le_add_left 1 7⟩ }

theorem lengthy_remote_lost {parse : Bytes → ParseResult} {frame : CanFrame} {us : UInt64}
    (classical : frame.Classical) (parses : ParsesObject parse (txObject frame us))
    (rtr : frame.rtr = true) (lengthy : 0 < frame.dlc.toNat) : ¬ RoundTrips parse frame us := by
  intro trips
  obtain ⟨text, reply, b', printed, handled, sent, accepted, -⟩ :=
    trips (.holding frame) .empty [] [] rfl rfl (Nat.zero_lt_succ 7)
  rw [canBridgeFormatNextRx_attempt classical (b := .holding frame) (q := .empty) rfl] at printed
  obtain rfl : rxText frame us = text := by simpa using printed
  rw [canBridgeHandleWsText_attempt classical parses rfl] at handled
  obtain ⟨_, refused⟩ := handleCanTx_refuses parse us classical rtr lengthy
    { Bridge.holding frame with rxQueue := .empty } []
  rw [refused] at handled
  simp only [Option.some.injEq, Prod.mk.injEq] at handled
  rw [← handled.2] at accepted
  exact absurd accepted (by simp)

/-- Over every classical frame: what is printed for it, made a request, enqueues it exactly
if it is not a remote frame with a length. -/
theorem rx_tx_round_trip {parse : Bytes → ParseResult} {frame : CanFrame} {us : UInt64}
    (classical : frame.Classical) (parses : ParsesObject parse (txObject frame us)) :
    RoundTrips parse frame us ↔ ¬ (frame.rtr = true ∧ 0 < frame.dlc.toNat) := by
  refine ⟨fun trips remote => lengthy_remote_lost classical parses remote.1 remote.2 trips, ?_⟩
  intro short b q stale response get ready room
  obtain ⟨reply, b', handled, accepted⟩ := handleCanTx_enqueues parse us
    classical short (b := { b with rxQueue := q }) room response
  refine ⟨_, reply, b', canBridgeFormatNextRx_attempt classical get stale, ?_, _, accepted, ?_⟩
  · rw [canBridgeHandleWsText_attempt classical parses (by exact ready)]
    exact handled
  · obtain ⟨id, ide, rtr, dlc, data⟩ := frameOfMessage_rxMessage frame
    exact ⟨id, ide, rtr, dlc, fun _ => data⟩

/-- A JSON library that knows the request for one frame. -/
def parseFrame (frame : CanFrame) (json : Bytes) : ParseResult :=
  if json = objectText (txObject frame 0) then
    .fields (fun f => ((txObject frame 0).lookup f.name).isSome) (rxMessage frame)
  else .error errnoInval

theorem parseFrame_parses {frame : CanFrame} (classical : frame.Classical) :
    ParsesObject (parseFrame frame) (txObject frame 0) := by
  intro msg decoded
  rw [decodeMessage_txObject classical] at decoded
  obtain rfl := Option.some.inj decoded
  exact if_pos rfl

def dataFrame : CanFrame := { id := 0x123, dlc := 1, data := #v[7, 0, 0, 0, 0, 0, 0, 0] }

theorem rx_tx_round_trip_dataFrame : RoundTrips (parseFrame dataFrame) dataFrame 0 := by
  have classical : dataFrame.Classical := ⟨by decide, by decide⟩
  exact (rx_tx_round_trip classical (parseFrame_parses classical)).mpr (by decide)

def remoteFrame : CanFrame := { id := 0x123, dlc := 2, flags := canFrameRtr }

/-- A received remote frame with a length cannot be sent back. -/
theorem remote_refused :
    ¬ ∀ parse frame us, frame.Classical → ParsesObject parse (txObject frame us) →
      RoundTrips parse frame us := by
  intro holds
  have classical : remoteFrame.Classical := ⟨by decide, by decide⟩
  have parses := parseFrame_parses classical
  exact lengthy_remote_lost classical parses (by decide) (by decide) (holds _ _ _ classical parses)

end PicoCan.Can
