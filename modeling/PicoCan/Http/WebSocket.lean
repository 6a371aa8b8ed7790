import PicoCan.Http.Accept
import PicoCan.Http.Transfer

/-!
# The WebSocket side of `http_server.c`

The session loop with the functions it calls, the thread around it, and the upgrade
that starts one. The loop is cut into passes. A pass ends where the source goes back to
one of its two loop heads: it forwards one received CAN frame, or finds that none is
there and handles one frame of the client. The inner loop forwards until there is
none, so passes one after another do what the nested loops do.
-/

namespace PicoCan.Http

open Calls
open PicoCan.Can (eBusy eNoMem eMsgSize wsResponseMax canBridgeFormatNextRx
  canBridgeHandleWsText canBridgeSetRxStreaming)

def wsOpcodeContinuation : UInt8 := 0x0
def wsOpcodeText : UInt8 := 0x1
def wsOpcodeClose : UInt8 := 0x8
def wsOpcodePing : UInt8 := 0x9
def wsOpcodePong : UInt8 := 0xa

/-! ## Frames on the wire -/

/-- `sys_put_be16`. -/
def putBe16 (n : Nat) : Bytes := [(n / 256).toUInt8, n.toUInt8]

/-- `sys_get_be16`. -/
def getBe16 (buf : Bytes) : Nat := (buf.getD 0 0).toNat * 256 + (buf.getD 1 0).toNat

/-- The header of a frame the server sends. -/
def frameHeader (opcode : UInt8) (payloadLen : Nat) : Bytes :=
  if payloadLen ≤ 125 then [0x80 ||| opcode, payloadLen.toUInt8]
  else [0x80 ||| opcode, 126] ++ putBe16 payloadLen

def sendWebsocketFrame (fd : Fd) (opcode : UInt8) (payload : Bytes) : HttpProg Int := do
  if payload.length > 0xffff then
    return -eMsgSize
  else
    let ret ← sendAll fd (frameHeader opcode payload.length)
    if ret < 0 then
      return ret
    else if payload.length > 0 then
      sendAll fd payload
    else
      return 0

/-- The second loop of `ws_recv_exact`. A round that goes on receives at least one byte,
so `len` is enough fuel. -/
def recvLoop (fd : Fd) (len : Nat) : (fuel : Nat) → Bytes → HttpProg (Except Int Bytes)
  | 0, buf => return .ok buf
  | fuel + 1, buf =>
      if buf.length < len then do
        match ← perform (.recv fd buf.length (len - buf.length)) with
        | .error e => return .error e.ret
        | .ok ⟨[], _⟩ => return .error (-eConnReset)
        | .ok chunk => recvLoop fd len fuel (buf ++ chunk.val)
      else
        return .ok buf

/-- The bytes in the buffer, or the error, and the client afterwards. -/
def wsRecvExact (client : WebsocketClient) (len : Nat) :
    HttpProg (Except Int Bytes × WebsocketClient) := do
  let copied := (client.pending.drop client.pendingPos).take len
  let client := { client with pendingPos := client.pendingPos + copied.length }
  let buf ← recvLoop client.fd len len copied
  return (buf, client)

/-! ## A frame of the client -/

/-- What a pass makes of the bytes of the client: a receive failed, the frame is refused,
or it is complete. -/
inductive FrameRead
  | failed
  | refused
  | frame (opcode : UInt8) (payload : Bytes)
deriving DecidableEq

/-- `payload[i] ^= mask[i % 4]`. -/
def unmask (mask payload : Bytes) : Bytes :=
  payload.mapIdx fun i byte => byte ^^^ mask.getD (i % 4) 0

/-- From the length check to the end of the payload. -/
def readPayload (client : WebsocketClient) (opcode : UInt8) (masked : Bool)
    (payloadLen : Nat) : HttpProg (FrameRead × WebsocketClient) := do
  if ¬ masked ∨ payloadLen > wsMaxPayload then
    let _ ← sendWebsocketFrame client.fd wsOpcodeClose []
    return (.refused, client)
  else
    match ← wsRecvExact client 4 with
    | (.error _, client) => return (.failed, client)
    | (.ok mask, client) =>
      match ← wsRecvExact client payloadLen with
      | (.error _, client) => return (.failed, client)
      | (.ok payload, client) => return (.frame opcode (unmask mask payload), client)

/-- From the frame header to the end of the payload. -/
def readFrame (client : WebsocketClient) : HttpProg (FrameRead × WebsocketClient) := do
  match ← wsRecvExact client 2 with
  | (.error _, client) => return (.failed, client)
  | (.ok header, client) =>
    let opcode := header.getD 0 0 &&& 0x0f
    let masked := header.getD 1 0 &&& 0x80 != 0
    let payloadLen := header.getD 1 0 &&& 0x7f
    if payloadLen = 126 then
      match ← wsRecvExact client 2 with
      | (.error _, client) => return (.failed, client)
      | (.ok ext, client) => readPayload client opcode masked (getBe16 ext)
    else if payloadLen = 127 then
      let _ ← sendWebsocketFrame client.fd wsOpcodeClose []
      return (.refused, client)
    else
      readPayload client opcode masked payloadLen.toNat

/-- What happens to a complete frame: what the response buffer then holds, or nothing
when the loop returns. -/
def dispatch (fd : Fd) (opcode : UInt8) (payload response : Bytes) :
    HttpProg (Option Bytes) := do
  if opcode = wsOpcodeClose then
    let _ ← sendWebsocketFrame fd wsOpcodeClose payload
    return none
  else if opcode = wsOpcodePing then
    let _ ← sendWebsocketFrame fd wsOpcodePong payload
    return some response
  else if opcode ≠ wsOpcodeText ∧ opcode ≠ wsOpcodeContinuation then
    let _ ← sendWebsocketFrame fd wsOpcodeClose []
    return none
  else
    let reply ← bridge (canBridgeHandleWsText payload response wsResponseMax)
    let ret ← sendWebsocketFrame fd wsOpcodeText reply.2
    if ret < 0 then
      return none
    else
      return some reply.2

/-! ## The loop -/

/-- How a pass ends: the frame it dispatched, the client, and what the response buffer
holds for the next pass, or nothing when the loop returns. -/
structure Pass where
  frame : Option (UInt8 × Bytes)
  client : WebsocketClient
  next : Option Bytes

/-- Receive and handle one frame of the client. -/
def clientPass (client : WebsocketClient) (response : Bytes) : HttpProg Pass := do
  match ← readFrame client with
  | (.failed, client) | (.refused, client) => return ⟨none, client, none⟩
  | (.frame opcode payload, client) =>
    let next ← dispatch client.fd opcode payload response
    return ⟨some (opcode, payload), client, next⟩

def pollTimeoutMs : Nat := 100

/-- One pass of `websocket_echo_loop`. -/
def echoPass (client : WebsocketClient) (response : Bytes) : HttpProg Pass := do
  let rx ← bridge (canBridgeFormatNextRx response wsResponseMax)
  if rx.1 = 0 then
    let ret ← sendWebsocketFrame client.fd wsOpcodeText rx.2
    if ret < 0 then
      return ⟨none, client, none⟩
    else
      return ⟨none, client, some rx.2⟩
  else if client.pendingPos ≥ client.pending.length then
    match ← perform (.poll client.fd pollTimeoutMs) with
    | .error _ => return ⟨none, client, none⟩
    | .ok ready =>
      if ready = 0 then
        return ⟨none, client, some rx.2⟩
      else
        clientPass client rx.2
  else
    clientPass client rx.2

/-- The frames dispatched and the client at the end; nothing when the loop has not
returned after `fuel` passes. -/
def websocketEchoLoop : (fuel : Nat) → WebsocketClient → Bytes →
    HttpProg (Option (List (UInt8 × Bytes) × WebsocketClient))
  | 0, _, _ => return none
  | fuel + 1, client, response => do
      let pass ← echoPass client response
      match pass.next with
      | none => return some (pass.frame.toList, pass.client)
      | some response =>
        match ← websocketEchoLoop fuel pass.client response with
        | none => return none
        | some (frames, client) => return some (pass.frame.toList ++ frames, client)

/-- `websocket_thread` behind the loop. -/
def websocketLeave (fd : Fd) : HttpProg Unit := do
  let _ ← perform (.close fd)
  bridge (canBridgeSetRxStreaming false)
  perform .wsActiveClear

/-! ## The upgrade -/

/-- The response to an upgrade. -/
def upgradeText (accept : Bytes) : Bytes :=
  lit ("HTTP/1.1 101 Switching Protocols\r\nUpgrade: websocket\r\nConnection: Upgrade\r\n" ++
    "Sec-WebSocket-Accept: ") ++ accept ++ lit "\r\n\r\n"

def acceptMax : Nat := 32
def responseBufMax : Nat := 192

def handleWebsocket (clientFd : Fd) (request pending : Bytes) : HttpProg Int := do
  let claimed ← perform .wsActiveCas
  if ¬ claimed then
    return -eBusy
  else
    match buildWebsocketAccept request acceptMax with
    | .error ret =>
      perform .wsActiveClear
      return ret
    | .ok accept =>
      let text := upgradeText accept
      if text.length ≥ responseBufMax then
        perform .wsActiveClear
        return -eNoMem
      else
        let ret ← sendAll clientFd text
        if ret < 0 then
          perform .wsActiveClear
          return ret
        else
          perform (.wsClientSet { fd := clientFd, pending := pending.take httpRequestMax })
          bridge (canBridgeSetRxStreaming true)
          perform .wsThreadCreate
          return 0

end PicoCan.Http
