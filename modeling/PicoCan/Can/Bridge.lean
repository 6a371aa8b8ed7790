import PicoCan.Can.Driver

/-!
# `can_bridge.c`

The functions of the bridge, one definition each, under the source's names. A
function that writes the caller's response buffer takes what the buffer holds
and returns its C return value with what the buffer holds afterwards.
-/

namespace PicoCan.Can

open Calls

def canTxTimeoutMs : Nat := 100
def canWsJsonMax : Nat := 256

/-- The size of the response buffer of the WebSocket thread. -/
def wsResponseMax : Nat := 512

def configCanDefaultBitrate : UInt32 := 500000

/-- Return value, and what the response buffer holds. -/
abbrev Reply := Int × Bytes

/-- `snprintk` at the start of the response buffer. -/
def snprintk (response : Bytes) (responseLen : Nat) (text : Bytes) : Reply :=
  printAt response 0 responseLen text

/-- `response_len - offset` on the target, where `size_t` has 32 bits and the
difference of two sizes wraps around. -/
def sizeSub (responseLen offset : Nat) : Nat :=
  if offset ≤ responseLen then responseLen - offset
  else 2 ^ 32 - (offset - responseLen)

/-- One `snprintk(&response[offset], response_len - offset, ..)` of the frame
printers with the check that follows it: the new offset, or the buffer at the
point where the function gives up with `-ENOMEM`. -/
def printStep (responseLen offset : Nat) (response text : Bytes) :
    Except Bytes (Nat × Bytes) :=
  let room := sizeSub responseLen offset
  let (ret, response) := printAt response offset room text
  if ret < 0 ∨ ret ≥ room then .error response
  else .ok (offset + ret.toNat, response)

def jsonBool (b : Bool) : Bytes := if b then lit "true" else lit "false"

/-- The text of an error object. -/
def errorText (code message : String) (err : Int) : Bytes :=
  lit "\x7b\"type\":\"error\",\"ok\":false,\"code\":\"" ++ lit code ++
    lit "\",\"err\":" ++ decInt err ++ lit ",\"message\":\"" ++ lit message ++ lit "\"\x7d"

def wsReply (response : Bytes) (responseLen : Nat) (code message : String) (err : Int) :
    Reply :=
  snprintk response responseLen (errorText code message err)

def canStateName : CanState → String
  | .errorActive => "error-active"
  | .errorWarning => "error-warning"
  | .errorPassive => "error-passive"
  | .busOff => "bus-off"
  | .stopped => "stopped"
  | .other => "unknown"

def canModeName (mode : CanMode) : String :=
  if mode &&& canModeLoopback != 0 then "loopback"
  else if mode &&& canModeListenonly != 0 then "listen-only"
  else "normal"

/-- Return value, and what `*mode` holds afterwards. -/
def canModeFromName (name : Option Bytes) (mode : CanMode) : Int × CanMode :=
  match name with
  | none => (0, canModeNormal)
  | some name =>
      if name = lit "normal" then (0, canModeNormal)
      else if name = lit "loopback" then (0, canModeLoopback)
      else if name = lit "listen-only" then (0, canModeListenonly)
      else (-eInval, mode)

/-- What a status object reports. -/
structure Status where
  ready : Bool
  state : CanState
  bitrate : UInt32
  mode : CanMode
  txErr : UInt8
  rxErr : UInt8
  txQueueUsed : Nat
  txQueueFree : Nat
  rxQueueUsed : Nat
  rxQueueFree : Nat

/-- The text of a status object. -/
def statusText (s : Status) : Bytes :=
  lit "\x7b\"type\":\"can.status\",\"ok\":true,\"bus\":0,\"ready\":" ++ jsonBool s.ready ++
    lit ",\"state\":\"" ++ lit (canStateName s.state) ++
    lit "\",\"bitrate\":" ++ dec s.bitrate.toNat ++
    lit ",\"mode\":\"" ++ lit (canModeName s.mode) ++
    lit "\",\"txErr\":" ++ dec s.txErr.toNat ++ lit ",\"rxErr\":" ++ dec s.rxErr.toNat ++
    lit ",\"txQueueUsed\":" ++ dec s.txQueueUsed ++
    lit ",\"txQueueFree\":" ++ dec s.txQueueFree ++
    lit ",\"rxQueueUsed\":" ++ dec s.rxQueueUsed ++
    lit ",\"rxQueueFree\":" ++ dec s.rxQueueFree ++ lit "\x7d"

def canBridgeFormatStatus (response : Bytes) (responseLen : Nat) : CanProg Reply := do
  perform .mutexLock
  let reading ← perform .canGetState
  perform .mutexUnlock
  if reading.ret < 0 then
    return wsReply response responseLen "can_status_failed"
      "Could not read CAN controller status" reading.ret
  else
    let ready ← perform .canReadyGet
    let bitrate ← perform .currentBitrateGet
    let mode ← perform .currentModeGet
    let txQueueUsed ← perform (.numUsedGet .tx)
    let txQueueFree ← perform (.numFreeGet .tx)
    let rxQueueUsed ← perform (.numUsedGet .rx)
    let rxQueueFree ← perform (.numFreeGet .rx)
    return snprintk response responseLen (statusText {
      ready, state := reading.state, bitrate, mode, txErr := reading.txErr
      rxErr := reading.rxErr, txQueueUsed, txQueueFree, rxQueueUsed, rxQueueFree })

/-! ## Receiving -/

def canRxCallback (frame : CanFrame) : CanProg Unit := do
  let streaming ← perform .rxStreamingGet
  if streaming then
    -- a full queue is only logged
    let _ ← perform (.rxPut frame)
  return ()

def canBridgeSetRxStreaming (enabled : Bool) : CanProg Unit := do
  if enabled then
    perform .rxPurge
    perform (.rxStreamingSet true)
  else
    perform (.rxStreamingSet false)
    perform .rxPurge

/-- `frame.data[i]`; past the array the answer is whatever lies there. -/
def frameData (frame : CanFrame) (i : Nat) : CanProg UInt8 :=
  if h : i < 8 then .ret frame.data[i] else perform (.readPast i)

/-- One array element behind its comma. -/
def elementText (i : Nat) (number : Bytes) : Bytes :=
  (if i = 0 then [] else lit ",") ++ number

/-- The text of a `can.rx` object up to its data array. -/
def rxHeadText (frame : CanFrame) : Bytes :=
  lit "\x7b\"type\":\"can.rx\",\"bus\":0,\"id\":" ++ dec frame.id.toNat ++
    lit ",\"ext\":" ++ jsonBool frame.ide ++ lit ",\"rtr\":" ++ jsonBool frame.rtr ++
    lit ",\"dlc\":" ++ dec frame.dlc.toNat ++ lit ",\"data\":["

/-- The microsecond clock as `%lld` prints it. -/
def clockText (us : UInt64) : Bytes := decInt us.toInt64.toInt

def rxTailText (us : UInt64) : Bytes := lit "],\"ts\":" ++ clockText us ++ lit "\x7d"

/-- The data loop of `can_bridge_format_next_rx` from index `i` on, with `left`
rounds to go. -/
def rxDataLoop (frame : CanFrame) (responseLen : Nat) :
    (left i offset : Nat) → Bytes → CanProg (Except Bytes (Nat × Bytes))
  | 0, _, offset, response => .ret (.ok (offset, response))
  | left + 1, i, offset, response => do
      let byte ← frameData frame i
      match printStep responseLen offset response (elementText i (dec byte.toNat)) with
      | .error response => return .error response
      | .ok (offset, response) => rxDataLoop frame responseLen left (i + 1) offset response

/-- `can_bridge_format_next_rx` behind its `k_msgq_get`. -/
def formatRxFrame (frame : CanFrame) (response : Bytes) (responseLen : Nat) :
    CanProg Reply := do
  match printStep responseLen 0 response (rxHeadText frame) with
  | .error response => return (-eNoMem, response)
  | .ok (offset, response) =>
    match ← rxDataLoop frame responseLen frame.dlc.toNat 0 offset response with
    | .error response => return (-eNoMem, response)
    | .ok (offset, response) =>
      let us ← perform .uptimeUs
      match printStep responseLen offset response (rxTailText us) with
      | .error response => return (-eNoMem, response)
      | .ok (_, response) => return (0, response)

def canBridgeFormatNextRx (response : Bytes) (responseLen : Nat) : CanProg Reply := do
  match ← perform .rxGet with
  | none => return (-eAgain, response)
  | some frame => formatRxFrame frame response responseLen

/-! ## Transmitting -/

/-- `can_send` with a NULL callback: hand the frame over, then wait for the bus. -/
def canSend (frame : CanFrame) (timeoutMs : Nat) : CanProg Int := do
  match ← perform (.canSendSubmit frame timeoutMs) with
  | some ret => return ret
  | none => perform .canSendWait

/-- One round of the worker's endless loop. -/
def canTxThread : CanProg Unit := do
  let frame ← perform .txGet
  perform .mutexLock
  let _ ← canSend frame canTxTimeoutMs
  perform .mutexUnlock

/-- The text of a `can.tx` object up to its data array. -/
def txHeadText (msg : CanJsonMessage) : Bytes :=
  lit "\x7b\"type\":\"can.tx\",\"ok\":true,\"bus\":" ++ decInt msg.bus.toInt ++
    lit ",\"id\":" ++ decInt msg.id.toInt ++ lit ",\"ext\":" ++ jsonBool msg.ext ++
    lit ",\"rtr\":" ++ jsonBool msg.rtr ++ lit ",\"dlc\":" ++ decInt msg.dlc.toInt ++
    lit ",\"data\":["

def txTailText (us : UInt64) : Bytes :=
  lit "],\"queued\":true,\"ts\":" ++ clockText us ++ lit "\x7d"

/-- The data loop of `format_can_tx_response` from index `i` on. -/
def txDataLoop (responseLen : Nat) :
    List Int32 → (i offset : Nat) → Bytes → Except Bytes (Nat × Bytes)
  | [], _, offset, response => .ok (offset, response)
  | byte :: rest, i, offset, response =>
      match printStep responseLen offset response (elementText i (decInt byte.toInt)) with
      | .error response => .error response
      | .ok (offset, response) => txDataLoop responseLen rest (i + 1) offset response

def formatCanTxResponse (msg : CanJsonMessage) (response : Bytes) (responseLen : Nat) :
    CanProg Reply := do
  match printStep responseLen 0 response (txHeadText msg) with
  | .error response => return (-eNoMem, response)
  | .ok (offset, response) =>
    match txDataLoop responseLen msg.data 0 offset response with
    | .error response => return (-eNoMem, response)
    | .ok (offset, response) =>
      let us ← perform .uptimeUs
      match printStep responseLen offset response (txTailText us) with
      | .error response => return (-eNoMem, response)
      | .ok (_, response) => return (0, response)

/-- Zero with the buffer untouched, or the length of the error object. -/
def validateCanJson (msg : CanJsonMessage) (fields : CanJsonField → Bool)
    (response : Bytes) (responseLen : Nat) : Reply :=
  let hasData := fields .data
  if ¬ (fields .bus ∧ fields .id ∧ fields .dlc) then
    wsReply response responseLen "missing_field" "CAN JSON must include bus, id and dlc"
      (-eInval)
  else if msg.bus.toInt ≠ 0 then
    wsReply response responseLen "unsupported_bus" "Only CAN bus 0 is available" (-eNoDev)
  else if msg.dlc.toInt < 0 ∨ msg.dlc.toInt > canMaxDlc then
    wsReply response responseLen "invalid_dlc" "CAN dlc must be between 0 and 8" (-eInval)
  else if msg.id.toInt < 0 ∨ (¬ msg.ext ∧ msg.id.toInt > canStdIdMask) ∨
      (msg.ext ∧ msg.id.toInt > canExtIdMask) then
    wsReply response responseLen "invalid_id" "CAN id is outside the selected frame format"
      (-eInval)
  else if ¬ msg.rtr ∧ msg.dlc.toInt > 0 ∧ ¬ hasData then
    wsReply response responseLen "missing_data" "Data frames with dlc > 0 must include data"
      (-eInval)
  else if ¬ msg.rtr ∧ msg.data.length ≠ msg.dlc.toUInt32.toNat then
    wsReply response responseLen "data_length_mismatch" "data length must match dlc" (-eInval)
  else if msg.rtr ∧ hasData ∧ msg.data.length > 0 then
    wsReply response responseLen "rtr_has_data" "RTR frames must not include data bytes"
      (-eInval)
  else if msg.data.any fun byte => byte.toInt < 0 ∨ byte.toInt > 0xff then
    wsReply response responseLen "invalid_data" "CAN data bytes must be between 0 and 255"
      (-eInval)
  else (0, response)

/-- The frame a validated message asks for. -/
def frameOfMessage (msg : CanJsonMessage) : CanFrame where
  id := msg.id.toUInt32
  dlc := msg.dlc.toUInt32.toUInt8
  flags := (if msg.ext then canFrameIde else 0) ||| (if msg.rtr then canFrameRtr else 0)
  data := Vector.ofFn fun i => (msg.data[i.val]?.map fun byte => byte.toUInt32.toUInt8).getD 0

/-! ## Configuring -/

/-- The locked section of `handle_can_config_set` up to its label `out`: the
value of `ret` there. -/
def applyCanConfig (mode : CanMode) (bitrate : UInt32) : CanProg Int := do
  let ret ← perform .canStop
  if ret < 0 ∧ ret ≠ -eAlready then
    return ret
  else
    let ret ← perform (.canSetMode mode)
    if ret < 0 then
      return ret
    else
      let ret ← perform (.canSetBitrate bitrate)
      if ret < 0 then
        return ret
      else
        let ret ← perform (.canStart .apply)
        if ret < 0 ∧ ret ≠ -eAlready then
          return ret
        else
          perform (.currentModeSet mode)
          perform (.currentBitrateSet bitrate)
          perform (.canReadySet true)
          return ret

/-- The error exit behind `out`: take the lock again and restart the controller. -/
def recoverCanConfig : CanProg Unit := do
  perform .mutexLock
  let ret ← perform (.canStart .recovery)
  if ret = 0 ∨ ret = -eAlready then
    perform (.canReadySet true)
  perform .mutexUnlock

def handleCanConfigSet (msg : CanJsonMessage) (fields : CanJsonField → Bool)
    (response : Bytes) (responseLen : Nat) : CanProg Reply := do
  let currentBitrate ← perform .currentBitrateGet
  let currentMode ← perform .currentModeGet
  if fields .bitrate ∧ msg.bitrate.toInt ≤ 0 then
    return wsReply response responseLen "invalid_bitrate" "CAN bitrate must be positive"
      (-eInval)
  else
    let bitrate := if fields .bitrate then msg.bitrate.toUInt32 else currentBitrate
    let named := if fields .mode then canModeFromName msg.mode currentMode else (0, currentMode)
    if named.1 < 0 then
      return wsReply response responseLen "invalid_mode"
        "CAN mode must be normal, loopback or listen-only" named.1
    else
      perform (.canReadySet false)
      perform .mutexLock
      let ret ← applyCanConfig named.2 bitrate
      perform .mutexUnlock
      if ret < 0 then
        recoverCanConfig
        return wsReply response responseLen "can_config_failed"
          "Could not apply CAN configuration" ret
      else
        canBridgeFormatStatus response responseLen

/-- The `can.tx` branch of `can_bridge_handle_ws_text`. -/
def handleCanTx (msg : CanJsonMessage) (fields : CanJsonField → Bool)
    (response : Bytes) (responseLen : Nat) : CanProg Reply := do
  let (ret, response) := validateCanJson msg fields response responseLen
  if ret ≠ 0 then
    return (ret, response)
  else
    let ret ← perform (.txPut (frameOfMessage msg))
    if ret < 0 then
      return (ret, (wsReply response responseLen "can_tx_failed"
        "CAN TX software queue is full" ret).2)
    else
      formatCanTxResponse msg response responseLen

def canBridgeHandleWsText (payload : Bytes) (response : Bytes) (responseLen : Nat) :
    CanProg Reply := do
  let ready ← perform .canReadyGet
  if ¬ ready then
    return wsReply response responseLen "can_not_ready" "CAN controller is not ready"
      (-eNoDev)
  else if payload.length ≥ canWsJsonMax then
    return wsReply response responseLen "payload_too_large"
      "WebSocket JSON payload is too large" (-eMsgSize)
  else
    match ← perform (.jsonObjParse payload) with
    | .error e =>
      return wsReply response responseLen "invalid_json" "Could not parse CAN JSON payload"
        e.ret
    | .fields fields msg =>
      if fields .type then
        if msg.type = some (lit "can.status") ∨ msg.type = some (lit "can.config.get") then
          canBridgeFormatStatus response responseLen
        else if msg.type = some (lit "can.config.set") then
          handleCanConfigSet msg fields response responseLen
        else if msg.type ≠ some (lit "can.tx") then
          return wsReply response responseLen "unsupported_type"
            "Unsupported WebSocket message type" (-eNotSup)
        else
          handleCanTx msg fields response responseLen
      else
        handleCanTx msg fields response responseLen

/-! ## Start-up -/

def catchAll : CanFilter where
  id := 0
  mask := 0
  flags := 0

def canBridgeInit : CanProg Int := do
  let deviceReady ← perform .deviceIsReady
  if ¬ deviceReady then
    return -eNoDev
  else
    let mode ← perform .currentModeGet
    let ret ← perform (.canSetMode mode)
    if ret < 0 then
      return ret
    else
      let ret ← perform (.canStart .init)
      if ret < 0 ∧ ret ≠ -eAlready then
        return ret
      else
        let filterId ← perform (.canAddRxFilter catchAll)
        if filterId < 0 then
          return filterId
        else
          perform (.canReadySet true)
          perform .txThreadCreate
          return 0

end PicoCan.Can
