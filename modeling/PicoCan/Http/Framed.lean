import PicoCan.Calls.Frames
import PicoCan.Http.Smooth

/-!
# The session loop over whole frames

The loop of `websocket_echo_loop` once more, with `send_websocket_frame` as one of its
calls: what it passes to that function, and with what result, then shows in its runs.
Carrying the calls out gives back the loop of the source. The bridge answers from a state
of its own, so that it is the same bridge whatever is sent and received in between.
-/

namespace PicoCan.Http

open Calls
open PicoCan.Can (CanCall CanProg wsResponseMax canBridgeFormatNextRx canBridgeHandleWsText)

/-- The calls of the loop. -/
inductive SessionCall
  | call (c : HttpCall)
  | frame (fd : Fd) (opcode : UInt8) (payload : Bytes)

abbrev SessionCall.Answer : SessionCall → Type
  | .call c => c.Answer
  | .frame _ _ _ => Int

abbrev SessionProg := Prog SessionCall.Answer

namespace Framed

/-- How the calls of the loop are carried out. -/
def carryOut : (c : SessionCall) → HttpProg c.Answer
  | .call c => perform c
  | .frame fd opcode payload => sendWebsocketFrame fd opcode payload

/-- A function that sends no frame. -/
def calls {α : Type} (p : HttpProg α) : SessionProg α := p.lift .call fun _ r => r

def frame (fd : Fd) (opcode : UInt8) (payload : Bytes) : SessionProg Int :=
  .call (SessionCall.frame fd opcode payload) .ret

/-! ## The loop -/

def readPayload (client : WebsocketClient) (opcode : UInt8) (masked : Bool) (payloadLen : Nat) :
    SessionProg (FrameRead × WebsocketClient) := do
  if ¬ masked ∨ payloadLen > wsMaxPayload then
    let _ ← frame client.fd wsOpcodeClose []
    return (.refused, client)
  else
    match ← calls (wsRecvExact client 4) with
    | (.error _, client) => return (.failed, client)
    | (.ok mask, client) =>
      match ← calls (wsRecvExact client payloadLen) with
      | (.error _, client) => return (.failed, client)
      | (.ok payload, client) => return (.frame opcode (unmask mask payload), client)

def readFrame (client : WebsocketClient) : SessionProg (FrameRead × WebsocketClient) := do
  match ← calls (wsRecvExact client 2) with
  | (.error _, client) => return (.failed, client)
  | (.ok header, client) =>
    let opcode := header.getD 0 0 &&& 0x0f
    let masked := header.getD 1 0 &&& 0x80 != 0
    let payloadLen := header.getD 1 0 &&& 0x7f
    if payloadLen = 126 then
      match ← calls (wsRecvExact client 2) with
      | (.error _, client) => return (.failed, client)
      | (.ok ext, client) => readPayload client opcode masked (getBe16 ext)
    else if payloadLen = 127 then
      let _ ← frame client.fd wsOpcodeClose []
      return (.refused, client)
    else
      readPayload client opcode masked payloadLen.toNat

def dispatch (fd : Fd) (opcode : UInt8) (payload response : Bytes) :
    SessionProg (Option Bytes) := do
  if opcode = wsOpcodeClose then
    let _ ← frame fd wsOpcodeClose payload
    return none
  else if opcode = wsOpcodePing then
    let _ ← frame fd wsOpcodePong payload
    return some response
  else if opcode ≠ wsOpcodeText ∧ opcode ≠ wsOpcodeContinuation then
    let _ ← frame fd wsOpcodeClose []
    return none
  else
    let reply ← calls (bridge (canBridgeHandleWsText payload response wsResponseMax))
    let ret ← frame fd wsOpcodeText reply.2
    if ret < 0 then
      return none
    else
      return some reply.2

def clientPass (client : WebsocketClient) (response : Bytes) : SessionProg Pass := do
  match ← readFrame client with
  | (.failed, client) | (.refused, client) => return ⟨none, client, none⟩
  | (.frame opcode payload, client) =>
    let next ← dispatch client.fd opcode payload response
    return ⟨some (opcode, payload), client, next⟩

def echoPass (client : WebsocketClient) (response : Bytes) : SessionProg Pass := do
  let rx ← calls (bridge (canBridgeFormatNextRx response wsResponseMax))
  if rx.1 = 0 then
    let ret ← frame client.fd wsOpcodeText rx.2
    if ret < 0 then
      return ⟨none, client, none⟩
    else
      return ⟨none, client, some rx.2⟩
  else if client.pendingPos ≥ client.pending.length then
    match ← calls (perform (.poll client.fd pollTimeoutMs)) with
    | .error _ => return ⟨none, client, none⟩
    | .ok ready =>
      if ready = 0 then
        return ⟨none, client, some rx.2⟩
      else
        clientPass client rx.2
  else
    clientPass client rx.2

def websocketEchoLoop : (fuel : Nat) → WebsocketClient → Bytes →
    SessionProg (Option (List (UInt8 × Bytes) × WebsocketClient))
  | 0, _, _ => return none
  | fuel + 1, client, response => do
      let pass ← echoPass client response
      match pass.next with
      | none => return some (pass.frame.toList, pass.client)
      | some response =>
        match ← websocketEchoLoop fuel pass.client response with
        | none => return none
        | some (frames, client) => return some (pass.frame.toList ++ frames, client)

/-! ## It is the loop of the source -/

theorem calls_carriedOut {α : Type} (p : HttpProg α) : (calls p).interpret carryOut = p :=
  Prog.interpret_lift carryOut (fun _ => rfl) p

theorem frame_carriedOut (fd : Fd) (opcode : UInt8) (payload : Bytes) :
    (frame fd opcode payload).interpret carryOut = sendWebsocketFrame fd opcode payload := by
  show (sendWebsocketFrame fd opcode payload).bind .ret = _
  induction sendWebsocketFrame fd opcode payload with
  | ret a => rfl
  | call c k ih => exact congrArg (Prog.call c) (funext ih)

/-- Sequencing with a function that sends no frame. -/
theorem calls_bind {α β : Type} (p : HttpProg α) {f : α → SessionProg β} {g : α → HttpProg β}
    (same : ∀ a, (f a).interpret carryOut = g a) :
    (calls p >>= f).interpret carryOut = p >>= g := by
  rw [Prog.interpret_bind, calls_carriedOut]
  exact congrArg (p >>= ·) (funext same)

theorem frame_bind {β : Type} (fd : Fd) (opcode : UInt8) (payload : Bytes)
    {f : Int → SessionProg β} {g : Int → HttpProg β}
    (same : ∀ ret, (f ret).interpret carryOut = g ret) :
    (frame fd opcode payload >>= f).interpret carryOut =
      sendWebsocketFrame fd opcode payload >>= g := by
  rw [Prog.interpret_bind, frame_carriedOut]
  exact congrArg (sendWebsocketFrame fd opcode payload >>= ·) (funext same)

theorem ite_carriedOut {α : Type} {b : Prop} [Decidable b] {p q : SessionProg α}
    {p' q' : HttpProg α} (yes : p.interpret carryOut = p') (no : q.interpret carryOut = q') :
    (if b then p else q).interpret carryOut = if b then p' else q' := by
  split
  · exact yes
  · exact no

theorem readPayload_carriedOut (client : WebsocketClient) (opcode : UInt8) (masked : Bool)
    (payloadLen : Nat) :
    (readPayload client opcode masked payloadLen).interpret carryOut =
      Http.readPayload client opcode masked payloadLen := by
  refine ite_carriedOut (frame_bind _ _ _ fun _ => rfl) ?_
  refine calls_bind _ fun mask => ?_
  rcases mask with ⟨failed | mask, client⟩
  · rfl
  refine calls_bind _ fun payload => ?_
  rcases payload with ⟨failed | payload, client⟩
  · rfl
  · rfl

theorem readFrame_carriedOut (client : WebsocketClient) :
    (readFrame client).interpret carryOut = Http.readFrame client := by
  refine calls_bind _ fun header => ?_
  rcases header with ⟨failed | header, client⟩
  · rfl
  refine ite_carriedOut (calls_bind _ fun ext => ?_)
    (ite_carriedOut (frame_bind _ _ _ fun _ => rfl) (readPayload_carriedOut _ _ _ _))
  rcases ext with ⟨failed | ext, client⟩
  · rfl
  · exact readPayload_carriedOut _ _ _ _

theorem dispatch_carriedOut (fd : Fd) (opcode : UInt8) (payload response : Bytes) :
    (dispatch fd opcode payload response).interpret carryOut =
      Http.dispatch fd opcode payload response := by
  refine ite_carriedOut (frame_bind _ _ _ fun _ => rfl) ?_
  refine ite_carriedOut (frame_bind _ _ _ fun _ => rfl) ?_
  refine ite_carriedOut (frame_bind _ _ _ fun _ => rfl) ?_
  refine calls_bind _ fun reply => frame_bind _ _ _ fun ret => ite_carriedOut rfl rfl

theorem clientPass_carriedOut (client : WebsocketClient) (response : Bytes) :
    (clientPass client response).interpret carryOut = Http.clientPass client response := by
  refine (Prog.interpret_bind carryOut (readFrame client) _).trans ?_
  rw [readFrame_carriedOut]
  refine congrArg (Http.readFrame client >>= ·) (funext fun read => ?_)
  rcases read with ⟨_ | _ | ⟨opcode, payload⟩, client⟩
  · rfl
  · rfl
  · refine (Prog.interpret_bind carryOut (dispatch _ _ _ _) _).trans ?_
    rw [dispatch_carriedOut]
    rfl

theorem echoPass_carriedOut (client : WebsocketClient) (response : Bytes) :
    (echoPass client response).interpret carryOut = Http.echoPass client response := by
  refine calls_bind _ fun rx => ?_
  refine ite_carriedOut (frame_bind _ _ _ fun ret => ite_carriedOut rfl rfl) ?_
  refine ite_carriedOut ?_ (clientPass_carriedOut _ _)
  refine calls_bind _ fun answer => ?_
  rcases answer with failed | ready
  · rfl
  · exact ite_carriedOut rfl (clientPass_carriedOut _ _)

/-- The loop of the source is this loop with its calls carried out. -/
theorem websocketEchoLoop_carriedOut (fuel : Nat) (client : WebsocketClient) (response : Bytes) :
    (websocketEchoLoop fuel client response).interpret carryOut =
      Http.websocketEchoLoop fuel client response := by
  induction fuel generalizing client response with
  | zero => rfl
  | succ fuel ih =>
      refine (Prog.interpret_bind carryOut (echoPass client response) _).trans ?_
      rw [echoPass_carriedOut]
      refine congrArg (Http.echoPass client response >>= ·) (funext fun pass => ?_)
      rcases pass with ⟨frame, client, _ | response⟩
      · rfl
      · refine (Prog.interpret_bind carryOut (websocketEchoLoop fuel client response) _).trans ?_
        rw [ih]
        refine congrArg (Http.websocketEchoLoop fuel client response >>= ·) (funext fun rest => ?_)
        rcases rest with _ | ⟨frames, client⟩
        · rfl
        · rfl

end Framed

end PicoCan.Http
