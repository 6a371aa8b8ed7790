import PicoCan.Http.Legal

/-!
# PINGs and PONGs between the texts of a session

A PING between two texts changes nothing but that it is answered. A PONG ends the session:
the loop takes it for an opcode it does not know.
-/

namespace PicoCan.Http

open Calls Frames
open PicoCan.Can (wsResponseMax canBridgeFormatNextRx canBridgeHandleWsText
  formatRxFrame formatRxFrame_returns)

variable {σ : Type}

/-! ## A session by what it does -/

/-- Traffic that comes to an end and arrives only with calls of the bridge: where the RX
queue is found empty, it stays so until then. Every frame in it is one the bus can carry. -/
structure Traffic (env : BridgeEnv σ) (left : σ → Nat) : Prop extends Drains env left where
  rests : ∀ bus, (env .rxGet bus).1 = none → (env .rxGet bus).2 = bus
  valid : ∀ bus frame, (env .rxGet bus).1 = some frame → frame.dlc.toNat ≤ 15

/-- What the loop prints of the RX queue. -/
abbrev nextRx (env : BridgeEnv σ) (response : Bytes) (bus : σ) : (Int × Bytes) × σ :=
  (canBridgeFormatNextRx response wsResponseMax).run env bus

/-- When nothing is printed, nothing happened. -/
theorem Traffic.silent {env : BridgeEnv σ} {left : σ → Nat} (traffic : Traffic env left)
    {response : Bytes} {bus : σ} (none : (nextRx env response bus).1.1 ≠ 0) :
    (nextRx env response bus).1.2 = response ∧ (nextRx env response bus).2 = bus := by
  unfold nextRx canBridgeFormatNextRx at none ⊢
  simp only [Can.perform, Prog.perform_bind, Prog.run_call] at none ⊢
  cases next : (env .rxGet bus).1 with
  | none => exact ⟨rfl, traffic.rests bus next⟩
  | some frame =>
      rw [next] at none
      simp only at none
      have returns := formatRxFrame_returns (traffic.valid bus frame next) response
      generalize formatRxFrame frame response wsResponseMax = p at none returns
      have printed := returns.run env (env .rxGet bus).2
      exact absurd printed.1 none

/-- The bytes of a client, the response buffer and the bridge: the frames a session sends and
those it dispatches, until it returns. -/
inductive Plays (env : BridgeEnv σ) : Bytes → Bytes → σ → List Frame → List Frame → Prop
  | forward {stream response : Bytes} {bus : σ} {out frames : List Frame}
      (ok : (nextRx env response bus).1.1 = 0)
      (rest : Plays env stream (nextRx env response bus).1.2 (nextRx env response bus).2 out
        frames) :
      Plays env stream response bus ((wsOpcodeText, (nextRx env response bus).1.2) :: out) frames
  | next {stream response : Bytes} {bus : σ} {out frames : List Frame}
      (none : (nextRx env response bus).1.1 ≠ 0) {read : Received} {behind : Bytes}
      (decodes : decodeClient wsMaxPayload stream = (read, behind)) {response' : Bytes}
      (on : (turn env read response bus).next = some response')
      (rest : Plays env behind response' (turn env read response bus).bus out frames) :
      Plays env stream response bus ((turn env read response bus).sent ++ out)
        ((turn env read response bus).frame.toList ++ frames)
  | last {stream response : Bytes} {bus : σ} (none : (nextRx env response bus).1.1 ≠ 0)
      {read : Received} {behind : Bytes}
      (decodes : decodeClient wsMaxPayload stream = (read, behind))
      (ends : (turn env read response bus).next = .none) :
      Plays env stream response bus (turn env read response bus).sent
        (turn env read response bus).frame.toList

/-- A loop that has returned. -/
theorem loop_plays {env : BridgeEnv σ} {left : σ → Nat} (traffic : Traffic env left) (fuel : Nat)
    (client : WebsocketClient) (response : Bytes) {s : Exchange σ} (smooth : s.world.Smooth)
    {frames : List Frame} {client' : WebsocketClient}
    (returned : (Exchange.run env (Framed.websocketEchoLoop fuel client response) s).1 =
      some (frames, client')) :
    ∃ out bus,
      Did s (Exchange.run env (Framed.websocketEchoLoop fuel client response) s).2 bus out ∧
      Plays env (unread client s.world) response s.bus out frames := by
  induction fuel generalizing client response s frames with
  | zero => cases returned
  | succ fuel ih =>
      have passed := echoPass_passed env (smooth .send) client response
      rcases pass : Exchange.run env (Framed.echoPass client response) s with ⟨result, s'⟩
      rw [pass] at passed
      have goes_on {frame : Option Frame} {client₁ : WebsocketClient} {response' : Bytes} {bus : σ}
          {sent : List Frame} (did : Did s s' bus sent)
          (pass : Exchange.run env (Framed.echoPass client response) s =
            (⟨frame, client₁, some response'⟩, s')) :
          ∃ out later bus', frames = frame.toList ++ later ∧
            Did s (Exchange.run env (Framed.websocketEchoLoop (fuel + 1) client response) s).2 bus'
              (sent ++ out) ∧
            Plays env (unread client₁ s'.world) response' bus out later := by
        rw [loop_goes_on env pass] at returned ⊢
        obtain ⟨⟨later, client₂⟩, ran, eq⟩ := Option.map_eq_some_iff.mp returned
        obtain ⟨all, rfl⟩ : frame.toList ++ later = frames ∧ client₂ = client' := Prod.mk.inj eq
        obtain ⟨out, bus', did', plays⟩ := ih client₁ response' (smooth.later did.later) ran
        rw [did.bus] at plays
        exact ⟨out, later, bus', all.symm, did.trans did', plays⟩
      cases passed with
      | forwarded ok did rest =>
          obtain ⟨out, later, bus, rfl, did', plays⟩ := goes_on did pass
          rw [rest] at plays
          exact ⟨_, bus, did', .forward ok plays⟩
      | waited none did rest fewer =>
          obtain ⟨out, later, bus, rfl, did', plays⟩ := goes_on did pass
          obtain ⟨same, still⟩ := traffic.silent none
          rw [rest] at plays
          rw [same, still] at plays
          exact ⟨out, bus, did', plays⟩
      | failed failing did => exact absurd smooth failing
      | @read client₁ _ none rest did =>
          obtain ⟨same, still⟩ := traffic.silent none
          rw [same, still] at pass did
          rcases decodes : decodeClient wsMaxPayload (unread client s.world) with ⟨read, behind⟩
          rw [decodes] at pass did rest
          cases next : (turn env read response s.bus).next with
          | none =>
              rw [next] at pass
              rw [loop_ends env pass] at returned ⊢
              cases returned
              exact ⟨_, _, did, .last none decodes next⟩
          | some response' =>
              rw [next] at pass
              obtain ⟨out, later, bus, rfl, did', plays⟩ := goes_on did pass
              rw [rest] at plays
              exact ⟨_, bus, did', .next none decodes next plays⟩

/-! ## Scripts -/

/-- A well-formed masked frame of a client: a text, or a PING or PONG of at most 125 bytes. -/
structure ClientFrame where
  mask : Bytes
  frame : Frame
  four : mask.length = 4
  kind : frame.1 = text ∨ frame.1 = ping ∨ frame.1 = pong
  short : frame.1 ≠ text → frame.2.length ≤ 125

/-- The CLOSE at the end, as a client sends it. -/
structure ClosingFrame where
  mask : Bytes
  payload : Bytes
  four : mask.length = 4
  short : payload.length ≤ 125

/-- The frames, the CLOSE and whatever follows, as bytes. -/
def script (frames : List ClientFrame) (closing : ClosingFrame) (behind : Bytes) : Bytes :=
  frames.flatMap (fun f => clientFrame f.mask f.frame) ++
    (clientFrame closing.mask (close, closing.payload) ++ behind)

/-- Without the PINGs and PONGs. -/
def texts (frames : List ClientFrame) : List ClientFrame := frames.filter fun f => f.frame.1 = text

/-- The answers the PINGs call for. -/
def pongs (frames : List ClientFrame) : List Frame :=
  (frames.filter fun f => f.frame.1 = ping).map fun f => (pong, f.frame.2)

/-- The frames that `can_bridge_handle_ws_text` is called with. -/
def handled (frames : List Frame) : List Frame :=
  frames.filter fun f => f.1 = text ∨ f.1 = continuation

/-- One session handles the texts of another one and sends what that one sends, and besides
the given PONGs. -/
structure Alike (answers out frames out' frames' : List Frame) : Prop where
  texts : handled frames = handled frames'
  replies : out.filter (·.1 ≠ pong) = out'
  pongs : out.filter (·.1 = pong) = answers

/-- The session without PINGs and PONGs ends here as one that a PONG or an oversized text has
ended: the next text is oversized, or there is none and the CLOSE is empty. -/
def EndsAlike (closing : ClosingFrame) : List ClientFrame → Prop
  | [] => closing.payload = []
  | f :: _ => wsMaxPayload < f.frame.2.length

/-- No PING or PONG gets in the way of a text: behind the first frame that ends the session, a
PONG or an oversized text, there is nothing to answer. -/
def Undisturbed (closing : ClosingFrame) : List ClientFrame → Prop
  | [] => True
  | f :: rest =>
      if f.frame.1 = ping then Undisturbed closing rest
      else if f.frame.1 = pong then pongs rest = [] ∧ EndsAlike closing (texts rest)
      else if f.frame.2.length ≤ wsMaxPayload then Undisturbed closing rest
      else pongs rest = []

instance decidableEndsAlike (closing : ClosingFrame) : DecidablePred (EndsAlike closing)
  | [] => inferInstanceAs (Decidable (closing.payload = []))
  | f :: _ => inferInstanceAs (Decidable (wsMaxPayload < f.frame.2.length))

instance decidableUndisturbed (closing : ClosingFrame) : DecidablePred (Undisturbed closing)
  | [] => isTrue trivial
  | f :: rest =>
      have := decidableUndisturbed closing rest
      inferInstanceAs (Decidable (if f.frame.1 = ping then Undisturbed closing rest
        else if f.frame.1 = pong then pongs rest = [] ∧ EndsAlike closing (texts rest)
        else if f.frame.2.length ≤ wsMaxPayload then Undisturbed closing rest
        else pongs rest = []))

theorem script_cons (f : ClientFrame) (frames : List ClientFrame) (closing : ClosingFrame)
    (behind : Bytes) : script (f :: frames) closing behind =
      clientFrame f.mask f.frame ++ script frames closing behind := by
  unfold script
  rw [List.flatMap_cons, List.append_assoc]

theorem decodeClient_script {f : ClientFrame} (fits : f.frame.2.length ≤ wsMaxPayload)
    (frames : List ClientFrame) (closing : ClosingFrame) (behind : Bytes) :
    decodeClient wsMaxPayload (script (f :: frames) closing behind) =
      (.frame f.frame, script frames closing behind) := by
  have opcode : f.frame.1.toNat < 16 := by
    rcases f.kind with eq | eq | eq
    · rw [eq]
      decide
    · rw [eq]
      decide
    · rw [eq]
      decide
  rw [script_cons]
  exact decodeClient_clientFrame (by decide) f.four opcode fits _

theorem decodeClient_script_long {f : ClientFrame} (long : wsMaxPayload < f.frame.2.length)
    (frames : List ClientFrame) (closing : ClosingFrame) (behind : Bytes) :
    (decodeClient wsMaxPayload (script (f :: frames) closing behind)).1 = .refused := by
  rw [script_cons]
  exact decodeClient_long long _

theorem decodeClient_script_nil (closing : ClosingFrame) (behind : Bytes) :
    decodeClient wsMaxPayload (script [] closing behind) =
      (.frame (close, closing.payload), behind) :=
  decodeClient_clientFrame (by decide) closing.four (show close.toNat < 16 by decide)
    (Nat.le_trans closing.short (by decide)) behind

/-! ## Two sessions -/

theorem Plays.forwards {env : BridgeEnv σ} {stream response : Bytes} {bus : σ}
    {out frames : List Frame} (ok : (nextRx env response bus).1.1 = 0)
    (plays : Plays env stream response bus out frames) :
    ∃ out', out = (wsOpcodeText, (nextRx env response bus).1.2) :: out' ∧
      Plays env stream (nextRx env response bus).1.2 (nextRx env response bus).2 out' frames := by
  cases plays with
  | forward _ rest => exact ⟨_, rfl, rest⟩
  | next none => exact absurd ok none
  | last none => exact absurd ok none

theorem Plays.reads {env : BridgeEnv σ} {stream response : Bytes} {bus : σ}
    {out frames : List Frame} (none : (nextRx env response bus).1.1 ≠ 0) {read : Received}
    {behind : Bytes} (decodes : decodeClient wsMaxPayload stream = (read, behind))
    (plays : Plays env stream response bus out frames) :
    (∃ response' out' frames', (turn env read response bus).next = some response' ∧
      out = (turn env read response bus).sent ++ out' ∧
      frames = (turn env read response bus).frame.toList ++ frames' ∧
      Plays env behind response' (turn env read response bus).bus out' frames') ∨
    ((turn env read response bus).next = .none ∧ out = (turn env read response bus).sent ∧
      frames = (turn env read response bus).frame.toList) := by
  cases plays with
  | forward ok => exact absurd ok none
  | next _ decodes' on rest =>
      obtain ⟨rfl, rfl⟩ := Prod.mk.inj (decodes.symm.trans decodes')
      exact .inl ⟨_, _, _, on, rfl, rfl, rest⟩
  | last _ decodes' ends =>
      obtain ⟨rfl, rfl⟩ := Prod.mk.inj (decodes.symm.trans decodes')
      exact .inr ⟨ends, rfl, rfl⟩

/-- Frames that wait are forwarded before the stream is read, whatever it holds. -/
theorem Plays.waits {env : BridgeEnv σ} {stream response : Bytes} {bus : σ}
    {out frames : List Frame} (plays : Plays env stream response bus out frames) :
    ∃ sent response' bus', (∀ f ∈ sent, f.1 = text) ∧ (nextRx env response' bus').1.1 ≠ 0 ∧
      ∀ {stream' : Bytes} {out' frames' : List Frame}, Plays env stream' response bus out' frames' →
        ∃ later, out' = sent ++ later ∧ Plays env stream' response' bus' later frames' := by
  have nothing : ∀ f ∈ ([] : List Frame), f.1 = text := fun f member => by cases member
  induction plays with
  | @forward _ response bus _ _ ok _ ih =>
      obtain ⟨sent, response', bus', texts, none, strip⟩ := ih
      refine ⟨(wsOpcodeText, (nextRx env response bus).1.2) :: sent, response', bus',
        List.forall_mem_cons.mpr ⟨rfl, texts⟩, none, fun plays => ?_⟩
      obtain ⟨_, rfl, forwarded⟩ := plays.forwards ok
      obtain ⟨later, rfl, waiting⟩ := strip forwarded
      exact ⟨later, rfl, waiting⟩
  | next none => exact ⟨[], _, _, nothing, none, fun plays => ⟨_, rfl, plays⟩⟩
  | last none => exact ⟨[], _, _, nothing, none, fun plays => ⟨_, rfl, plays⟩⟩

theorem alike_sent {f : Frame} (other : f.1 ≠ pong) {answers out frames out' frames' : List Frame} :
    Alike answers (f :: out) frames (f :: out') frames' ↔
      Alike answers out frames out' frames' := by
  constructor
  · rintro ⟨texts, replies, answered⟩
    exact ⟨texts, by simpa [other] using replies, by simpa [other] using answered⟩
  · rintro ⟨texts, replies, answered⟩
    exact ⟨texts, by simpa [other] using replies, by simpa [other] using answered⟩

theorem alike_forwarded {sent : List Frame} (texts : ∀ f ∈ sent, f.1 = text)
    {answers out frames out' frames' : List Frame} :
    Alike answers (sent ++ out) frames (sent ++ out') frames' ↔
      Alike answers out frames out' frames' := by
  induction sent with
  | nil => exact Iff.rfl
  | cons f sent ih =>
      obtain ⟨isText, others⟩ := List.forall_mem_cons.mp texts
      have other : f.1 ≠ pong := by
        rw [isText]
        decide
      exact (alike_sent other).trans (ih others)

theorem alike_dispatched (f : Frame) {answers out frames out' frames' : List Frame} :
    Alike answers out (f :: frames) out' (f :: frames') ↔
      Alike answers out frames out' frames' := by
  have same : handled (f :: frames) = handled (f :: frames') ↔
      handled frames = handled frames' := by
    unfold handled
    rw [List.filter_cons, List.filter_cons]
    split
    · exact ⟨fun eq => (List.cons.inj eq).2, fun eq => congrArg _ eq⟩
    · exact Iff.rfl
  exact ⟨fun alike => ⟨same.mp alike.texts, alike.replies, alike.pongs⟩,
    fun alike => ⟨same.mpr alike.texts, alike.replies, alike.pongs⟩⟩

theorem alike_ping {f : Frame} (isPing : f.1 = ping)
    {answers out frames out' frames' : List Frame} :
    Alike ((pong, f.2) :: answers) ((pong, f.2) :: out) (f :: frames) out' frames' ↔
      Alike answers out frames out' frames' := by
  have silent : handled (f :: frames) = handled frames := by
    simp [handled, isPing, ping, text, continuation]
  constructor
  · rintro ⟨texts, replies, answered⟩
    exact ⟨silent.symm.trans texts, by simpa using replies, by simpa using answered⟩
  · rintro ⟨texts, replies, answered⟩
    exact ⟨silent.trans texts, by simpa using replies, by simpa using answered⟩

theorem turn_ping (env : BridgeEnv σ) {f : Frame} (isPing : f.1 = ping) (response : Bytes)
    (bus : σ) : turn env (.frame f) response bus = ⟨some f, some response, bus, [(pong, f.2)]⟩ := by
  have notClose : ¬ f.1 = wsOpcodeClose := by
    rw [isPing]
    decide
  have is : f.1 = wsOpcodePing := isPing
  show answerTo env f response bus = _
  rw [answerTo, if_neg notClose, if_pos is]
  rfl

theorem turn_pong (env : BridgeEnv σ) {f : Frame} (isPong : f.1 = pong) (response : Bytes)
    (bus : σ) : turn env (.frame f) response bus = ⟨some f, none, bus, [(close, [])]⟩ := by
  have notClose : ¬ f.1 = wsOpcodeClose := by
    rw [isPong]
    decide
  have notPing : ¬ f.1 = wsOpcodePing := by
    rw [isPong]
    decide
  have unknown : f.1 ≠ wsOpcodeText ∧ f.1 ≠ wsOpcodeContinuation := by
    rw [isPong]
    decide
  show answerTo env f response bus = _
  rw [answerTo, if_neg notClose, if_neg notPing, if_pos unknown]
  rfl

theorem turn_text (env : BridgeEnv σ) {f : Frame} (isText : f.1 = text) (response : Bytes)
    (bus : σ) :
    let reply := (canBridgeHandleWsText f.2 response wsResponseMax).run env bus
    turn env (.frame f) response bus =
      ⟨some f, some reply.1.2, reply.2, [(text, reply.1.2)]⟩ := by
  intro reply
  have notClose : ¬ f.1 = wsOpcodeClose := by
    rw [isText]
    decide
  have notPing : ¬ f.1 = wsOpcodePing := by
    rw [isText]
    decide
  have known : ¬ (f.1 ≠ wsOpcodeText ∧ f.1 ≠ wsOpcodeContinuation) := fun bad => bad.1 isText
  show answerTo env f response bus = _
  rw [answerTo, if_neg notClose, if_neg notPing, if_neg known]
  rfl

/-! ## What each frame does to a session -/

section Steps

variable {env : BridgeEnv σ} {response : Bytes} {bus : σ} {closing : ClosingFrame} {behind : Bytes}
  {f : ClientFrame} {frames : List ClientFrame} {out dispatched : List Frame}
  (none : (nextRx env response bus).1.1 ≠ 0)
include none

theorem Plays.on_close (plays : Plays env (script [] closing behind) response bus out dispatched) :
    out = [(close, closing.payload)] ∧ dispatched = [(close, closing.payload)] := by
  rcases plays.reads none (decodeClient_script_nil closing behind) with ⟨_, _, _, on, -⟩ | ⟨-, ends⟩
  · cases on
  · exact ends

theorem Plays.on_text (isText : f.frame.1 = text) (fits : f.frame.2.length ≤ wsMaxPayload)
    (plays : Plays env (script (f :: frames) closing behind) response bus out dispatched) :
    let reply := (canBridgeHandleWsText f.frame.2 response wsResponseMax).run env bus
    ∃ out' dispatched', out = (text, reply.1.2) :: out' ∧ dispatched = f.frame :: dispatched' ∧
      Plays env (script frames closing behind) reply.1.2 reply.2 out' dispatched' := by
  intro reply
  have turned := turn_text env isText response bus
  rcases plays.reads none (decodeClient_script fits frames closing behind) with
    ⟨response', out', later, on, rfl, rfl, rest⟩ | ⟨ends, -⟩
  · rw [turned] at on rest ⊢
    obtain rfl := Option.some.inj on
    exact ⟨out', later, rfl, rfl, rest⟩
  · rw [turned] at ends
    cases ends

theorem Plays.on_oversized (long : wsMaxPayload < f.frame.2.length)
    (plays : Plays env (script (f :: frames) closing behind) response bus out dispatched) :
    out = [(close, [])] ∧ dispatched = [] := by
  have refused := decodeClient_script_long long frames closing behind
  rcases decodes : decodeClient wsMaxPayload (script (f :: frames) closing behind) with ⟨read, _⟩
  rw [decodes] at refused
  obtain rfl : read = .refused := refused
  rcases plays.reads none decodes with ⟨_, _, _, on, -⟩ | ⟨-, ends⟩
  · cases on
  · exact ends

theorem Plays.on_ping (isPing : f.frame.1 = ping) (fits : f.frame.2.length ≤ wsMaxPayload)
    (plays : Plays env (script (f :: frames) closing behind) response bus out dispatched) :
    ∃ out' dispatched', out = (pong, f.frame.2) :: out' ∧ dispatched = f.frame :: dispatched' ∧
      Plays env (script frames closing behind) response bus out' dispatched' := by
  have turned := turn_ping env isPing response bus
  rcases plays.reads none (decodeClient_script fits frames closing behind) with
    ⟨response', out', later, on, rfl, rfl, rest⟩ | ⟨ends, -⟩
  · rw [turned] at on rest ⊢
    obtain rfl := Option.some.inj on
    exact ⟨out', later, rfl, rfl, rest⟩
  · rw [turned] at ends
    cases ends

theorem Plays.on_pong (isPong : f.frame.1 = pong) (fits : f.frame.2.length ≤ wsMaxPayload)
    (plays : Plays env (script (f :: frames) closing behind) response bus out dispatched) :
    out = [(close, [])] ∧ dispatched = [f.frame] := by
  have turned := turn_pong env isPong response bus
  rcases plays.reads none (decodeClient_script fits frames closing behind) with
    ⟨_, _, _, on, -⟩ | ⟨-, rfl, rfl⟩
  · rw [turned] at on
    cases on
  · rw [turned]
    exact ⟨rfl, rfl⟩

end Steps

/-- Where the other session reads on, a session that was ended is like it in no other case
than these. -/
theorem plays_ended {env : BridgeEnv σ} {response : Bytes} {bus : σ}
    (none : (nextRx env response bus).1.1 ≠ 0) (frames : List ClientFrame)
    (only : ∀ f ∈ frames, f.frame.1 = text) (closing : ClosingFrame) (behind : Bytes)
    {out dispatched : List Frame}
    (plays : Plays env (script frames closing behind) response bus out dispatched) :
    handled dispatched = [] ∧ out = [(close, [])] ↔ EndsAlike closing frames := by
  cases frames with
  | nil =>
      obtain ⟨rfl, rfl⟩ := plays.on_close none
      refine ⟨fun ends => ?_, fun empty => ⟨rfl, ?_⟩⟩
      · have : [(close, closing.payload)] = [(close, ([] : Bytes))] := ends.2
        exact (Prod.mk.inj (List.cons.inj this).1).2
      · have : closing.payload = [] := empty
        rw [this]
  | cons f rest =>
      have isText := only f List.mem_cons_self
      show _ ↔ wsMaxPayload < f.frame.2.length
      by_cases fits : f.frame.2.length ≤ wsMaxPayload
      · obtain ⟨_, later, rfl, rfl, -⟩ := plays.on_text none isText fits
        refine iff_of_false (fun ended => ?_) (Nat.not_lt.mpr fits)
        have silent := ended.1
        simp [handled, isText] at silent
      · have long : wsMaxPayload < f.frame.2.length := Nat.lt_of_not_le fits
        obtain ⟨rfl, rfl⟩ := plays.on_oversized none long
        exact iff_of_true ⟨rfl, rfl⟩ long

theorem texts_cons (f : ClientFrame) (rest : List ClientFrame) :
    texts (f :: rest) = if f.frame.1 = text then f :: texts rest else texts rest := by
  simp [texts, List.filter_cons]

theorem pongs_cons (f : ClientFrame) (rest : List ClientFrame) :
    pongs (f :: rest) =
      if f.frame.1 = ping then (pong, f.frame.2) :: pongs rest else pongs rest := by
  by_cases isPing : f.frame.1 = ping
  · simp [pongs, isPing]
  · simp [pongs, isPing]

/-- What waits does not tell two sessions apart. -/
theorem alike_waiting {env : BridgeEnv σ} {stream stream' response : Bytes} {bus : σ}
    {answers out dispatched out' dispatched' : List Frame} {P : Prop}
    (plays : Plays env stream response bus out dispatched)
    (plays' : Plays env stream' response bus out' dispatched')
    (waiting : ∀ {response bus out out'}, (nextRx env response bus).1.1 ≠ 0 →
      Plays env stream response bus out dispatched →
        Plays env stream' response bus out' dispatched' →
        (Alike answers out dispatched out' dispatched' ↔ P)) :
    Alike answers out dispatched out' dispatched' ↔ P := by
  obtain ⟨sent, response, bus, texts, none, strip⟩ := plays.waits
  obtain ⟨out, rfl, rest⟩ := strip plays
  obtain ⟨out', rfl, rest'⟩ := strip plays'
  exact (alike_forwarded texts).trans (waiting none rest rest')

/-- The session of a client and the session without its PINGs and PONGs. -/
theorem plays_alike {env : BridgeEnv σ} (closing : ClosingFrame) (behind : Bytes)
    (frames : List ClientFrame) {response : Bytes} {bus : σ}
    {out dispatched out' dispatched' : List Frame}
    (plays : Plays env (script frames closing behind) response bus out dispatched)
    (plays' : Plays env (script (texts frames) closing behind) response bus out' dispatched') :
    Alike (pongs frames) out dispatched out' dispatched' ↔ Undisturbed closing frames := by
  -- on the script: both sessions forward the same before they read
  induction frames generalizing response bus out dispatched out' dispatched' with
  | nil =>
      refine alike_waiting plays plays' fun none plays plays' => ?_
      obtain ⟨rfl, rfl⟩ := plays.on_close none
      obtain ⟨rfl, rfl⟩ := plays'.on_close none
      exact iff_of_true ⟨rfl, rfl, rfl⟩ trivial
  | cons f frames ih =>
      refine alike_waiting plays plays' fun none plays plays' => ?_
      rw [pongs_cons, Undisturbed]
      rw [texts_cons] at plays'
      rcases f.kind with isText | isPing | isPong
      · have notPing : ¬ f.frame.1 = ping := by
          rw [isText]
          decide
        have notPong : ¬ f.frame.1 = pong := by
          rw [isText]
          decide
        rw [if_neg notPing, if_neg notPing, if_neg notPong]
        rw [if_pos isText] at plays'
        by_cases fits : f.frame.2.length ≤ wsMaxPayload
        · obtain ⟨_, _, rfl, rfl, rest⟩ := plays.on_text none isText fits
          obtain ⟨_, _, rfl, rfl, rest'⟩ := plays'.on_text none isText fits
          rw [if_pos fits, ← ih rest rest']
          exact (alike_sent (show text ≠ pong by decide)).trans (alike_dispatched f.frame)
        · -- both sessions end at an oversized text, and the PINGs behind it stay unanswered
          obtain ⟨rfl, rfl⟩ := plays.on_oversized none (Nat.lt_of_not_le fits)
          obtain ⟨rfl, rfl⟩ := plays'.on_oversized none (Nat.lt_of_not_le fits)
          rw [if_neg fits]
          exact ⟨fun alike => alike.pongs.symm, fun unasked => ⟨rfl, rfl, unasked.symm⟩⟩
      · have notText : ¬ f.frame.1 = text := by
          rw [isPing]
          decide
        have fits : f.frame.2.length ≤ wsMaxPayload := Nat.le_trans (f.short notText) (by decide)
        rw [if_neg notText] at plays'
        obtain ⟨_, _, rfl, rfl, rest⟩ := plays.on_ping none isPing fits
        rw [if_pos isPing, if_pos isPing, ← ih rest plays']
        exact alike_ping isPing
      · have notText : ¬ f.frame.1 = text := by
          rw [isPong]
          decide
        have notPing : ¬ f.frame.1 = ping := by
          rw [isPong]
          decide
        have fits : f.frame.2.length ≤ wsMaxPayload := Nat.le_trans (f.short notText) (by decide)
        rw [if_neg notText] at plays'
        obtain ⟨rfl, rfl⟩ := plays.on_pong none isPong fits
        rw [if_neg notPing, if_neg notPing, if_pos isPong]
        -- the other session goes on with the texts behind the PONG
        have others := plays_ended none (texts frames)
          (fun g member => of_decide_eq_true (List.mem_filter.mp member).2) closing behind plays'
        have silent : handled [f.frame] = [] := by
          simp [handled, isPong, pong, text, continuation]
        rw [← others]
        constructor
        · intro alike
          exact ⟨alike.pongs.symm, alike.texts.symm.trans silent, alike.replies.symm⟩
        · rintro ⟨unasked, ended, rfl⟩
          exact ⟨silent.trans ended.symm, rfl, unasked.symm⟩

/-! ## The two runs -/

/-- The frames that are passed to `send_websocket_frame` in the first `fuel` passes. -/
def output (env : BridgeEnv σ) (fuel : Nat) (client : WebsocketClient) (response : Bytes)
    (w : World) (bus : σ) : List Frame :=
  (session env fuel client response w bus).log.map (·.frame)

/-- A session that is given enough passes returns, and plays its stream. -/
theorem session_plays {env : BridgeEnv σ} {left : σ → Nat} (traffic : Traffic env left)
    {w : World} (smooth : w.Smooth) (client : WebsocketClient) (response : Bytes) (bus : σ)
    {fuel : Nat} (enough : work left client { world := w, bus } < fuel) :
    ∃ dispatched client',
      ((websocketEchoLoop fuel client response).run (serveAt env) (w, bus)).1 =
        some (dispatched, client') ∧
      Plays env (unread client w) response bus (output env fuel client response w bus)
        dispatched := by
  have ran : ((websocketEchoLoop fuel client response).run (serveAt env) (w, bus)).1 = _ :=
    congrArg Prod.fst (websocketEchoLoop_run env fuel client response { world := w, bus })
  have returns := loop_returns traffic.toDrains fuel client response (s := { world := w, bus })
    (smooth .send) enough
  obtain ⟨⟨dispatched, client'⟩, returned⟩ := Option.ne_none_iff_exists'.mp returns
  obtain ⟨out, bus', did, plays⟩ := loop_plays traffic fuel client response smooth returned
  refine ⟨dispatched, client', ran.trans returned, ?_⟩
  have log : output env fuel client response w bus = [] ++ out := did.log
  rw [log]
  exact plays

/-- A session with PINGs and PONGs handles the texts that the session without them handles
and answers them the same, and answers besides each PING with its PONG, exactly if they get
in the way of no text: no PONG was sent, or nothing that needs an answer follows it. -/
theorem controls_transparent {env : BridgeEnv σ} {left : σ → Nat} (traffic : Traffic env left)
    {w w' : World} (smooth : w.Smooth) (smooth' : w'.Smooth) {client client' : WebsocketClient}
    (response : Bytes) (bus : σ) (frames : List ClientFrame) (closing : ClosingFrame)
    (behind : Bytes) (sent : unread client w = script frames closing behind)
    (sent' : unread client' w' = script (texts frames) closing behind) {fuel fuel' : Nat}
    (enough : work left client { world := w, bus } < fuel)
    (enough' : work left client' { world := w', bus } < fuel') :
    ∃ dispatched c dispatched' c',
      ((websocketEchoLoop fuel client response).run (serveAt env) (w, bus)).1 =
        some (dispatched, c) ∧
      ((websocketEchoLoop fuel' client' response).run (serveAt env) (w', bus)).1 =
        some (dispatched', c') ∧
      (Alike (pongs frames) (output env fuel client response w bus) dispatched
          (output env fuel' client' response w' bus) dispatched' ↔
        Undisturbed closing frames) := by
  obtain ⟨dispatched, c, returned, plays⟩ := session_plays traffic smooth client response bus enough
  obtain ⟨dispatched', c', returned', plays'⟩ :=
    session_plays traffic smooth' client' response bus enough'
  rw [sent] at plays
  rw [sent'] at plays'
  exact ⟨dispatched, c, dispatched', c', returned, returned',
    plays_alike closing behind frames plays plays'⟩

def oneText : ClientFrame where
  mask := [1, 2, 3, 4]
  frame := (text, [97])
  four := rfl
  kind := .inl rfl
  short bad := absurd rfl bad

def onePing : ClientFrame where
  mask := [5, 6, 7, 8]
  frame := (ping, [7])
  four := rfl
  kind := .inr (.inl rfl)
  short _ := by decide

def onePong : ClientFrame where
  mask := [5, 6, 7, 8]
  frame := (pong, [])
  four := rfl
  kind := .inr (.inr rfl)
  short _ := by decide

def emptyClose : ClosingFrame where
  mask := [0, 0, 0, 0]
  payload := []
  four := rfl
  short := by decide

/-- A client that sent these frames behind its request. -/
def scripted (frames : List ClientFrame) : WebsocketClient where
  fd := 3
  pending := script frames emptyClose []

theorem controls_transparent_ping :
    ∃ dispatched c dispatched' c',
      ((websocketEchoLoop 50 (scripted [onePing, oneText]) []).run (serveAt quietBridge)
        ({ disk := Disk.blank }, ())).1 = some (dispatched, c) ∧
      ((websocketEchoLoop 50 (scripted [oneText]) []).run (serveAt quietBridge)
        ({ disk := Disk.blank }, ())).1 = some (dispatched', c') ∧
      Alike [(pong, [7])]
        (output quietBridge 50 (scripted [onePing, oneText]) [] { disk := Disk.blank } ())
          dispatched
        (output quietBridge 50 (scripted [oneText]) [] { disk := Disk.blank } ()) dispatched' := by
  have traffic : Traffic quietBridge fun _ => 0 := {
    kept := fun _ _ => Nat.le_refl _
    taken := fun _ _ some => absurd some (by intro none; cases none)
    rests := fun _ _ => rfl
    valid := fun _ _ some => absurd some (by intro none; cases none) }
  have smooth : World.Smooth { disk := Disk.blank } :=
    fun _ _ member => absurd member List.not_mem_nil
  have enough : work (fun _ : Unit => 0) (scripted [onePing, oneText])
      { world := { disk := Disk.blank }, bus := () } < 50 := by decide +kernel
  have enough' : work (fun _ : Unit => 0) (scripted [oneText])
      { world := { disk := Disk.blank }, bus := () } < 50 := by decide +kernel
  obtain ⟨dispatched, c, dispatched', c', returned, returned', alike⟩ :=
    controls_transparent traffic smooth smooth [] () [onePing, oneText] emptyClose []
      (by decide +kernel) (by decide +kernel) enough enough'
  exact ⟨dispatched, c, dispatched', c', returned, returned', alike.mpr (by decide)⟩

/-- A PONG ends the session before the text behind it. -/
theorem pong_ends_session :
    ¬ ∀ (frames : List ClientFrame) (dispatched dispatched' : List Frame) (c c' : WebsocketClient),
      ((websocketEchoLoop 50 (scripted frames) []).run (serveAt quietBridge)
        ({ disk := Disk.blank }, ())).1 = some (dispatched, c) →
      ((websocketEchoLoop 50 (scripted (texts frames)) []).run (serveAt quietBridge)
        ({ disk := Disk.blank }, ())).1 = some (dispatched', c') →
      Alike (pongs frames) (output quietBridge 50 (scripted frames) [] { disk := Disk.blank } ())
        dispatched (output quietBridge 50 (scripted (texts frames)) [] { disk := Disk.blank } ())
        dispatched' := by
  intro transparent
  have cut : ((websocketEchoLoop 50 (scripted [onePong, oneText]) []).run (serveAt quietBridge)
      ({ disk := Disk.blank }, ())).1.map (·.1) = some [(pong, [])] := by decide +kernel
  have whole : ((websocketEchoLoop 50 (scripted (texts [onePong, oneText])) []).run
      (serveAt quietBridge) ({ disk := Disk.blank }, ())).1.map (·.1) =
        some [(text, [97]), (close, [])] := by decide +kernel
  obtain ⟨⟨dispatched, c⟩, ran, rfl⟩ := Option.map_eq_some_iff.mp cut
  obtain ⟨⟨dispatched', c'⟩, ran', same⟩ := Option.map_eq_some_iff.mp whole
  have handled_same := (transparent _ _ _ _ _ ran ran').texts
  obtain rfl : dispatched' = [(text, [97]), (close, [])] := same
  exact absurd handled_same (by decide)

end PicoCan.Http
