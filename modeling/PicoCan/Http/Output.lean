import PicoCan.Can.Replies
import PicoCan.Http.Exchange

/-!
# What the session loop puts on the connection

Every site of the loop that sends a frame returns when the send failed, except one: the
answer to a PING is sent without a look at the result. As long as the answers to PINGs are
delivered, a frame that could not be sent is the last one, and the connection carries
complete frames and at most one broken one at the end.
-/

namespace PicoCan.Http

open Calls Frames
open PicoCan.Can (Fits wsResponseMax canBridgeFormatNextRx canBridgeHandleWsText
  canBridgeHandleWsText_fits formatRxFrame_fits)

/-! ## What the loop receives and prints -/

theorem recvLoop_bound (fd : Fd) {len : Nat} (fuel : Nat) {buf : Bytes} (fits : buf.length ≤ len) :
    (recvLoop fd len fuel buf).Returns
      fun result => ∀ buf, result = .ok buf → buf.length ≤ len := by
  induction fuel generalizing buf with
  | zero => rintro _ ⟨rfl⟩; exact fits
  | succ fuel ih =>
      refine .ite (fun _ answer => ?_) fun _ => ?_
      · rcases answer with e | ⟨_ | ⟨b, more⟩, chunk⟩
        · rintro _ ⟨⟩
        · rintro _ ⟨⟩
        · refine ih ?_
          show (buf ++ b :: more).length ≤ len
          rw [List.length_append]
          omega
      · rintro _ ⟨rfl⟩
        exact fits

theorem wsRecvExact_bound (client : WebsocketClient) (len : Nat) :
    (wsRecvExact client len).Returns fun result =>
      ∀ buf, result.1 = .ok buf → buf.length ≤ len :=
  (recvLoop_bound client.fd len (List.length_take_le _ _)).bind fun _ bound => bound

theorem canBridgeFormatNextRx_fits (response : Bytes) :
    (canBridgeFormatNextRx response wsResponseMax).Returns fun rx =>
      rx.1 = 0 → rx.2.length < wsResponseMax := by
  intro next
  cases next with
  | none =>
      intro ok
      have : (-Can.eAgain : Int) = 0 := ok
      exact absurd this (by decide)
  | some frame =>
      have pos : 0 < wsResponseMax := by decide
      simp only [Prog.bind]
      refine Prog.Returns.mono ?_ (formatRxFrame_fits pos frame response)
      exact fun rx fits _ => fits

/-! ## The sites that send -/

/-- A frame is sent while nothing is broken; it is one of three kinds and not too long.
A failure breaks the output, but the failure of a PONG is not noticed. -/
def outputSpec : Spec SessionCall.Answer Bool
  | .frame _ opcode payload, post, broken =>
      broken = false ∧ opcode ∈ [wsOpcodeText, wsOpcodeClose, wsOpcodePong] ∧
        payload.length ≤ wsResponseMax ∧
        ∀ ret : Int, post ret (decide (ret < 0 ∧ opcode ≠ wsOpcodePong))
  | .call c, post, broken => NoSend c ∧ ∀ r, post r broken

theorem outputSpec_mono : outputSpec.Mono := by
  intro c post post' weaker broken h
  cases c with
  | call c => exact ⟨h.1, fun r => weaker _ _ (h.2 r)⟩
  | frame fd opcode payload =>
      obtain ⟨intact, known, short, after⟩ := h
      exact ⟨intact, known, short, fun ret => weaker _ _ (after ret)⟩

theorem calls_wp {α : Type} {p : HttpProg α} (only : p.Only NoSend) {A : α → Prop}
    (returns : p.Returns A) {Q : α → Bool → Prop} {broken : Bool} (after : ∀ a, A a → Q a broken) :
    (Framed.calls p).wp outputSpec Q broken := by
  induction p with
  | ret a => exact after a returns
  | call c k ih => exact ⟨only.1, fun r => ih r (only.2 r) (returns r)⟩

theorem wsRecvExact_wp (client : WebsocketClient) (len : Nat)
    {Q : Except Int Bytes × WebsocketClient → Bool → Prop} {broken : Bool}
    (after : ∀ result, (∀ buf, result.1 = .ok buf → buf.length ≤ len) → Q result broken) :
    (Framed.calls (wsRecvExact client len)).wp outputSpec Q broken :=
  calls_wp (wsRecvExact_only fun _ _ _ => trivial) (wsRecvExact_bound client len) after

theorem bridge_wp {α : Type} {p : Can.CanProg α} {A : α → Prop} (returns : p.Returns A)
    {Q : α → Bool → Prop} {broken : Bool} (after : ∀ a, A a → Q a broken) :
    (Framed.calls (bridge p)).wp outputSpec Q broken :=
  calls_wp (bridge_only p.only_true fun _ _ => trivial) returns.lift after

/-- A complete frame has been read without anything broken. -/
def ReadWhole (read : FrameRead × WebsocketClient) (broken : Bool) : Prop :=
  ∀ opcode payload, read.1 = .frame opcode payload →
    broken = false ∧ payload.length ≤ wsMaxPayload

theorem readPayload_output (client : WebsocketClient) (opcode : UInt8) (masked : Bool)
    (payloadLen : Nat) :
    (Framed.readPayload client opcode masked payloadLen).wp outputSpec ReadWhole false := by
  refine (Prog.wp_ite _ _ _ _ _ _).mpr ⟨fun _ => ?_, fun fits => ?_⟩
  · refine ⟨rfl, by decide, Nat.zero_le _, fun ret => ?_⟩
    rintro _ _ ⟨⟩
  · refine (Prog.wp_bind _ (Framed.calls _) _ _ _).mpr ?_
    refine wsRecvExact_wp client 4 fun mask _ => ?_
    rcases mask with ⟨failed | mask, client⟩
    · rintro _ _ ⟨⟩
    refine (Prog.wp_bind _ (Framed.calls _) _ _ _).mpr ?_
    refine wsRecvExact_wp client payloadLen fun payload bound => ?_
    rcases payload with ⟨failed | payload, client⟩
    · rintro _ _ ⟨⟩
    · rintro _ _ ⟨rfl, rfl⟩
      refine ⟨rfl, ?_⟩
      have received := bound payload rfl
      have room : ¬ payloadLen > wsMaxPayload := fun long => fits (.inr long)
      rw [unmask, List.length_mapIdx]
      omega

theorem readFrame_output (client : WebsocketClient) :
    (Framed.readFrame client).wp outputSpec ReadWhole false := by
  refine (Prog.wp_bind _ (Framed.calls _) _ _ _).mpr ?_
  refine wsRecvExact_wp client 2 fun header _ => ?_
  rcases header with ⟨failed | header, client⟩
  · rintro _ _ ⟨⟩
  refine (Prog.wp_ite _ _ _ _ _ _).mpr ⟨fun _ => ?_, fun _ =>
    (Prog.wp_ite _ _ _ _ _ _).mpr ⟨fun _ => ?_, fun _ => readPayload_output _ _ _ _⟩⟩
  · refine (Prog.wp_bind _ (Framed.calls _) _ _ _).mpr ?_
    refine wsRecvExact_wp _ 2 fun ext _ => ?_
    rcases ext with ⟨failed | ext, client⟩
    · rintro _ _ ⟨⟩
    · exact readPayload_output _ _ _ _
  · refine ⟨rfl, by decide, Nat.zero_le _, fun ret => ?_⟩
    rintro _ _ ⟨⟩

/-- The pass goes on only with nothing broken. -/
def GoesOn (next : Option Bytes) (broken : Bool) : Prop := next ≠ none → broken = false

theorem dispatch_output (fd : Fd) (opcode : UInt8) {payload : Bytes}
    (fits : payload.length ≤ wsMaxPayload) (response : Bytes) :
    (Framed.dispatch fd opcode payload response).wp outputSpec GoesOn false := by
  have short : payload.length ≤ wsResponseMax := Nat.le_trans fits (by decide)
  refine (Prog.wp_ite _ _ _ _ _ _).mpr ⟨fun _ => ?_, fun _ => ?_⟩
  · exact ⟨rfl, by decide, short, fun ret on => absurd rfl on⟩
  refine (Prog.wp_ite _ _ _ _ _ _).mpr ⟨fun _ => ?_, fun _ => ?_⟩
  · -- the result of this send is not looked at
    exact ⟨rfl, by decide, short, fun ret _ => decide_eq_false fun bad => bad.2 rfl⟩
  refine (Prog.wp_ite _ _ _ _ _ _).mpr ⟨fun _ => ?_, fun _ => ?_⟩
  · exact ⟨rfl, by decide, Nat.zero_le _, fun ret on => absurd rfl on⟩
  refine (Prog.wp_bind _ (Framed.calls _) _ _ _).mpr ?_
  have fit := (canBridgeHandleWsText_fits (show 0 < wsResponseMax by decide) payload response)
  refine bridge_wp fit fun reply within => ?_
  refine ⟨rfl, by decide, Nat.le_of_lt within, fun ret => ?_⟩
  refine (Prog.wp_ite _ _ _ _ _ _).mpr ⟨fun _ on => absurd rfl on, fun ok _ => ?_⟩
  exact decide_eq_false fun bad => ok bad.1

theorem clientPass_output (client : WebsocketClient) (response : Bytes) :
    (Framed.clientPass client response).wp outputSpec
      (fun pass broken => GoesOn pass.next broken) false := by
  refine (Prog.wp_bind _ (Framed.readFrame client) _ _ _).mpr ?_
  refine Prog.wp_mono outputSpec_mono ?_ (readFrame_output client)
  rintro ⟨_ | _ | ⟨opcode, payload⟩, client⟩ broken whole
  · exact fun on => absurd rfl on
  · exact fun on => absurd rfl on
  · obtain ⟨rfl, fits⟩ := whole opcode payload rfl
    refine (Prog.wp_bind _ (Framed.dispatch _ _ _ _) _ _ _).mpr ?_
    exact Prog.wp_mono outputSpec_mono (fun _ _ on => on) (dispatch_output _ _ fits _)

theorem echoPass_output (client : WebsocketClient) (response : Bytes) :
    (Framed.echoPass client response).wp outputSpec
      (fun pass broken => GoesOn pass.next broken) false := by
  refine (Prog.wp_bind _ (Framed.calls _) _ _ _).mpr ?_
  refine bridge_wp (canBridgeFormatNextRx_fits response) fun rx fits => ?_
  refine (Prog.wp_ite _ _ _ _ _ _).mpr ⟨fun printed => ?_, fun _ => ?_⟩
  · refine ⟨rfl, by decide, Nat.le_of_lt (fits printed), fun ret => ?_⟩
    refine (Prog.wp_ite _ _ _ _ _ _).mpr ⟨fun _ on => absurd rfl on, fun ok _ => ?_⟩
    exact decide_eq_false fun bad => ok bad.1
  refine (Prog.wp_ite _ _ _ _ _ _).mpr ⟨fun _ => ?_, fun _ => clientPass_output _ _⟩
  refine (Prog.wp_bind _ (Framed.calls _) _ _ _).mpr ?_
  refine calls_wp (p := perform (.poll _ _)) ⟨trivial, fun _ => trivial⟩ (Prog.returns_true _)
    fun answer _ => ?_
  rcases answer with failed | ready
  · exact fun on => absurd rfl on
  · exact (Prog.wp_ite _ _ _ _ _ _).mpr ⟨fun _ _ => rfl, fun _ => clientPass_output _ _⟩

theorem websocketEchoLoop_output (fuel : Nat) (client : WebsocketClient) (response : Bytes) :
    (Framed.websocketEchoLoop fuel client response).wp outputSpec (fun _ _ => True) false := by
  induction fuel generalizing client response with
  | zero => trivial
  | succ fuel ih =>
      refine (Prog.wp_bind _ (Framed.echoPass client response) _ _ _).mpr ?_
      refine Prog.wp_mono outputSpec_mono ?_ (echoPass_output client response)
      rintro ⟨frame, client, _ | response⟩ broken on
      · trivial
      · obtain rfl := on (Option.some_ne_none _)
        refine (Prog.wp_bind _ (Framed.websocketEchoLoop _ _ _) _ _ _).mpr ?_
        refine Prog.wp_mono outputSpec_mono ?_ (ih client response)
        rintro (_ | ⟨frames, client⟩) _ -
        · trivial
        · trivial

/-! ## What the output looks like -/

/-- The frame went out as a whole. -/
def Emitted.Whole (e : Emitted) : Prop := 0 ≤ e.ret ∧ e.put = frameBytes e.frame

/-- Only the last frame may be broken. -/
def Streams (log : List Emitted) : Bool → Prop
  | false => ∀ e ∈ log, e.Whole
  | true => ∃ done last, log = done ++ [last] ∧ (∀ e ∈ done, e.Whole) ∧
      last.put <+: frameBytes last.frame

/-- All sends of the answers to PINGs went well. -/
def PongsDelivered (log : List Emitted) : Prop :=
  ∀ e ∈ log, e.frame.1 = wsOpcodePong → ∀ fate ∈ e.fates, fate.Fine

instance (log : List Emitted) : Decidable (PongsDelivered log) :=
  inferInstanceAs (Decidable (∀ e ∈ log, _ → ∀ fate ∈ e.fates, _))

/-- The connection carries the log, and a failed send ends the output. -/
structure EndsOutput (sent : Bytes) (log : List Emitted) (sent' : Bytes) : Prop where
  carried : sent' = sent ++ log.flatMap (·.put)
  begins : log.flatMap (·.put) <+: log.flatMap (frameBytes ·.frame)
  ends : ∀ before e after, log = before ++ e :: after → e.ret < 0 → ∀ later ∈ after, later.put = []

theorem flatMap_whole {log : List Emitted} (whole : ∀ e ∈ log, e.Whole) :
    log.flatMap (·.put) = log.flatMap (frameBytes ·.frame) := by
  induction log with
  | nil => rfl
  | cons e log ih =>
      rw [List.flatMap_cons, List.flatMap_cons, (whole e List.mem_cons_self).2,
        ih fun e he => whole e (List.mem_cons_of_mem _ he)]

theorem Streams.endsOutput {sent sent' : Bytes} {log : List Emitted} {broken : Bool}
    (streams : Streams log broken) (carried : sent' = sent ++ log.flatMap (·.put)) :
    EndsOutput sent log sent' := by
  cases broken with
  | false =>
      refine ⟨carried, ?_, fun before e after split failed => ?_⟩
      · exact flatMap_whole streams ▸ List.prefix_rfl
      · have ok := (streams e (split ▸ by simp)).1
        omega
  | true =>
      obtain ⟨done, last, rfl, whole, begins⟩ := streams
      refine ⟨carried, ?_, fun before e after split failed => ?_⟩
      · rw [List.flatMap_append, List.flatMap_append, flatMap_whole whole]
        simpa using begins
      · cases after with
        | nil => exact fun _ member => absurd member List.not_mem_nil
        | cons next after =>
            -- only the last frame may have failed
            have early := congrArg List.dropLast split
            rw [List.dropLast_concat, List.dropLast_append_of_ne_nil (List.cons_ne_nil _ _),
              List.dropLast_cons_cons] at early
            have ok := (whole e (early ▸ by simp)).1
            omega

/-- The log of a run from `s` on: the connection carries it, and it is as `broken` says, as
long as no send of an answer to a PING went wrong. -/
def OutputOf {σ : Type} (s : Exchange σ) (broken : Bool) (s' : Exchange σ) : Prop :=
  s'.world.sent = s.world.sent ++ s'.log.flatMap (·.put) ∧
    (PongsDelivered s'.log → Streams s'.log broken)

theorem outputOf_step {σ : Type} (env : BridgeEnv σ) (s : Exchange σ) (c : SessionCall)
    (post : c.Answer → Bool → Prop) (broken : Bool) (t : Exchange σ)
    (spec : outputSpec c post broken) (output : OutputOf s broken t) :
    ∃ broken', post (Exchange.serve env c t).1 broken' ∧
      OutputOf s broken' (Exchange.serve env c t).2 := by
  obtain ⟨carried, streams⟩ := output
  cases c with
  | call c =>
      refine ⟨broken, spec.2 _, ?_⟩
      by_cases other : NoCan c
      · rw [Exchange.serve_call env other]
        exact ⟨(serve_sent spec.1 t.world).trans carried, streams⟩
      · cases c with
        | can => exact ⟨carried, streams⟩
        | _ => exact absurd trivial other
  | frame fd opcode payload =>
      obtain ⟨rfl, known, short, after⟩ := spec
      obtain ⟨put, sent, begins, whole⟩ := sendWebsocketFrame_puts fd opcode payload t.world
      have delivers :=
        sendWebsocketFrame_delivers fd opcode (Nat.le_trans short (by decide)) t.world
      have log : (Exchange.serve env (.frame fd opcode payload) t).2.log = t.log ++ [{
          frame := (opcode, payload)
          fates := spent t.world (runIn (sendWebsocketFrame fd opcode payload) t.world).2
          ret := (runIn (sendWebsocketFrame fd opcode payload) t.world).1
          put }] := by
        simp only [Exchange.serve, sent, List.drop_left]
      refine ⟨decide ((runIn (sendWebsocketFrame fd opcode payload) t.world).1 < 0 ∧
        opcode ≠ wsOpcodePong), after _, ?_, fun delivered => ?_⟩
      · rw [log, List.flatMap_append, List.flatMap_singleton, ← List.append_assoc, ← carried]
        exact sent
      · rw [log] at delivered ⊢
        have before := streams fun e he => delivered e (List.mem_append_left _ he)
        by_cases failed : (runIn (sendWebsocketFrame fd opcode payload) t.world).1 < 0 ∧
            opcode ≠ wsOpcodePong
        · rw [decide_eq_true failed]
          exact ⟨t.log, _, rfl, before, begins⟩
        · rw [decide_eq_false failed]
          have ok : 0 ≤ (runIn (sendWebsocketFrame fd opcode payload) t.world).1 := by
            by_cases answers : opcode = wsOpcodePong
            · exact Int.le_of_eq
                (delivers (delivered _ (List.mem_append_right _ List.mem_cons_self) answers)).symm
            · exact Int.not_lt.mp fun negative => failed ⟨negative, answers⟩
          intro e member
          rcases List.mem_append.mp member with earlier | now
          · exact before e earlier
          · rw [List.mem_singleton.mp now]
            exact ⟨ok, whole ok⟩

/-- The end of a session: the exchange after the loop, or after `fuel` of its passes. -/
def session {σ : Type} (env : BridgeEnv σ) (fuel : Nat) (client : WebsocketClient)
    (response : Bytes) (w : World) (bus : σ) : Exchange σ :=
  (Exchange.run env (Framed.websocketEchoLoop fuel client response) { world := w, bus }).2

/-- A session is a run of the loop of the source. -/
theorem session_run {σ : Type} (env : BridgeEnv σ) (fuel : Nat) (client : WebsocketClient)
    (response : Bytes) (w : World) (bus : σ) :
    ((websocketEchoLoop fuel client response).run (serveAt env) (w, bus)).2 =
      ((session env fuel client response w bus).world,
        (session env fuel client response w bus).bus) :=
  congrArg Prod.snd (websocketEchoLoop_run env fuel client response { world := w, bus })

/-- As long as the answers to PINGs are delivered, a failed send ends the output: in every
run, the connection carries a prefix of the frames that were passed to
`send_websocket_frame`, and nothing after one that could not be sent. -/
theorem failed_send_ends {σ : Type} (env : BridgeEnv σ) (fuel : Nat) (client : WebsocketClient)
    (response : Bytes) (w : World) (bus : σ)
    (delivered : PongsDelivered (session env fuel client response w bus).log) :
    ((websocketEchoLoop fuel client response).run (serveAt env) (w, bus)).2 =
      ((session env fuel client response w bus).world,
        (session env fuel client response w bus).bus) ∧
    EndsOutput w.sent (session env fuel client response w bus).log
      (session env fuel client response w bus).world.sent := by
  refine ⟨session_run env fuel client response w bus, ?_⟩
  have start : OutputOf { world := w, bus } false { world := w, bus } :=
    ⟨(List.append_nil _).symm, fun _ _ member => absurd member List.not_mem_nil⟩
  obtain ⟨broken, -, carried, streams⟩ := Prog.wp_run (outputOf_step env { world := w, bus })
    (websocketEchoLoop_output fuel client response) start
  exact (streams delivered).endsOutput carried

/-- Nothing happens on the bus. -/
def quietBridge : BridgeEnv Unit := fun c _ => (quiet c, ())

/-- A client that sent two PINGs behind its request, a text that is no JSON, and a PING. -/
def textBetween : WebsocketClient where
  fd := 3
  pending := clientFrame [0, 0, 0, 0] (ping, []) ++ clientFrame [1, 2, 3, 4] (ping, [7]) ++
    clientFrame [1, 2, 3, 4] (text, lit "hello") ++ clientFrame [0, 0, 0, 0] (ping, [])

/-- The first answer goes out in two pieces, the second as a whole; of the reply to the text
three bytes follow the header, then its send fails. -/
def replyBreaks : World where
  fates kind := if kind = .send then
    [{ count := some 1 }, {}, {}, {}, {}, { count := some 3 }, { fail := some Can.errnoIo }] else []
  disk := Disk.blank

theorem failed_send_ends_replyBreaks :
    (session quietBridge 5 textBetween [] replyBreaks ()).log.map
      (fun e => (e.frame.1, e.ret, e.put)) = [(pong, 0, [0x8a, 0]), (pong, 0, [0x8a, 1, 7]),
        (text, -5, [0x81, 104] ++ lit "\x7b\"t")] ∧
    EndsOutput [] (session quietBridge 5 textBetween [] replyBreaks ()).log
      (session quietBridge 5 textBetween [] replyBreaks ()).world.sent := by
  have delivered : PongsDelivered (session quietBridge 5 textBetween [] replyBreaks ()).log := by
    decide +kernel
  exact ⟨by decide +kernel,
    (failed_send_ends quietBridge 5 textBetween [] replyBreaks () delivered).2⟩

/-- A client that sent two empty PINGs behind its request. -/
def twoPings : WebsocketClient where
  fd := 3
  pending := clientFrame [0, 0, 0, 0] (ping, []) ++ clientFrame [0, 0, 0, 0] (ping, [])

/-- One byte of an answer to a PING goes out; then its send fails. -/
def firstPongBreaks : World where
  fates kind := if kind = .send then [{ count := some 1 }, { fail := some Can.errnoIo }] else []
  disk := Disk.blank

/-- The answer to the next PING follows the broken one. -/
theorem broken_pong_followed :
    ¬ ∀ (client : WebsocketClient) (w : World),
      EndsOutput w.sent (session quietBridge 3 client [] w ()).log
        (session quietBridge 3 client [] w ()).world.sent := by
  intro ends
  have outcome : (session quietBridge 3 twoPings [] firstPongBreaks ()).log.map
      (fun e => (e.ret, e.put)) = [(-5, [0x8a]), (0, [0x8a, 0])] := by decide +kernel
  obtain ⟨broken, rest, split, first, others⟩ := List.map_eq_cons_iff.mp outcome
  obtain ⟨next, after, rfl, second, -⟩ := List.map_eq_cons_iff.mp others
  simp only [Prod.mk.injEq] at first second
  have failed : broken.ret < 0 := by
    rw [first.1]
    decide
  have silent := (ends twoPings firstPongBreaks).ends [] broken _ split failed next
    List.mem_cons_self
  rw [second.2] at silent
  exact List.cons_ne_nil _ _ silent

end PicoCan.Http
