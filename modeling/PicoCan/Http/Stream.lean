import PicoCan.Http.Decode
import PicoCan.Http.Request

/-!
# A session from the upgrade to its end

The bytes a client sends behind its request are one stream to the session, wherever they
were when the session began. When the traffic on the bus comes to an end, the loop returns.
-/

namespace PicoCan.Http

open Calls Frames
open PicoCan.Can (CanProg wsResponseMax canBridgeFormatNextRx)

variable {σ : Type}

/-! ## Traffic that comes to an end -/

/-- `left` bounds the frames still to come: no call adds to it, and a frame taken out of the
RX queue is gone. -/
structure Drains (env : BridgeEnv σ) (left : σ → Nat) : Prop where
  kept : ∀ c bus, left (env c bus).2 ≤ left bus
  taken : ∀ bus frame, (env .rxGet bus).1 = some frame → left (env .rxGet bus).2 < left bus

variable {env : BridgeEnv σ} {left : σ → Nat}

theorem Drains.run (drains : Drains env left) {α : Type} (p : CanProg α) (bus : σ) :
    left (p.run env bus).2 ≤ left bus := by
  have only : p.Only fun _ => True := p.only_true
  refine only.run_keeps (I := fun s => left s ≤ left bus) ?_ (Nat.le_refl _)
  intro c s _ before
  exact Nat.le_trans (drains.kept c s) before

/-- A frame that was printed was taken out of the queue. -/
theorem Drains.printed (drains : Drains env left) (response : Bytes) (bus : σ)
    (ok : ((canBridgeFormatNextRx response wsResponseMax).run env bus).1.1 = 0) :
    left ((canBridgeFormatNextRx response wsResponseMax).run env bus).2 < left bus := by
  unfold canBridgeFormatNextRx at ok ⊢
  simp only [Can.perform, Prog.perform_bind, Prog.run_call] at ok ⊢
  cases next : (env .rxGet bus).1 with
  | none =>
      rw [next] at ok
      have : (-Can.eAgain : Int) = 0 := ok
      exact absurd this (by decide)
  | some frame => exact Nat.lt_of_le_of_lt (drains.run _ _) (drains.taken bus frame next)

theorem Drains.turn (drains : Drains env left) (received : Received) (response : Bytes) (bus : σ) :
    left (turn env received response bus).bus ≤ left bus := by
  cases received with
  | truncated => exact Nat.le_refl _
  | refused => exact Nat.le_refl _
  | frame f =>
      have at_turn {t : Turn σ} (is : answerTo env f response bus = t)
          (kept : left t.bus ≤ left bus) :
          left (answerTo env f response bus).bus ≤ left bus := is ▸ kept
      by_cases isClose : f.1 = wsOpcodeClose
      · exact at_turn (if_pos isClose) (Nat.le_refl _)
      by_cases isPing : f.1 = wsOpcodePing
      · exact at_turn ((if_neg isClose).trans (if_pos isPing)) (Nat.le_refl _)
      by_cases other : f.1 ≠ wsOpcodeText ∧ f.1 ≠ wsOpcodeContinuation
      · exact at_turn ((if_neg isClose).trans ((if_neg isPing).trans (if_pos other)))
          (Nat.le_refl _)
      · exact at_turn ((if_neg isClose).trans ((if_neg isPing).trans (if_neg other)))
          (drains.run _ _)

/-- The work left: frames of the bus, polls that time out, bytes of the client. -/
def work (left : σ → Nat) (client : WebsocketClient) (s : Exchange σ) : Nat :=
  left s.bus + (s.world.fates .poll).length + (unread client s.world).length

/-- Where the loop goes on, a frame was taken off the stream. -/
theorem shorter_of_next {stream response response' : Bytes} {bus : σ}
    (next : (turn env (decodeClient wsMaxPayload stream).1 response bus).next = some response') :
    (decodeClient wsMaxPayload stream).2.length < stream.length := by
  rcases read : decodeClient wsMaxPayload stream with ⟨front, rest⟩
  rw [read] at next
  cases front with
  | truncated => cases next
  | refused => cases next
  | frame f => exact decodeClient_shorter read

/-- The loop returns once that work is done. -/
theorem loop_returns (drains : Drains env left) (fuel : Nat) (client : WebsocketClient)
    (response : Bytes) {s : Exchange σ} (sends : s.world.FineAt .send)
    (enough : work left client s < fuel) :
    (Exchange.run env (Framed.websocketEchoLoop fuel client response) s).1 ≠ none := by
  induction fuel generalizing client response s with
  | zero => omega
  | succ fuel ih =>
      unfold work at enough
      have passed := echoPass_passed env sends client response
      have least := drains.run (canBridgeFormatNextRx response wsResponseMax) s.bus
      have printed := drains.printed response s.bus
      generalize (canBridgeFormatNextRx response wsResponseMax).run env s.bus = rx
        at passed least printed
      rcases pass : Exchange.run env (Framed.echoPass client response) s with ⟨result, s'⟩
      rw [pass] at passed
      have goes_on {frame : Option Frame} {client' : WebsocketClient} {response' : Bytes} {bus : σ}
          {sent : List Frame} (did : Did s s' bus sent)
          (less :
            left bus + (s'.world.fates .poll).length + (unread client' s'.world).length < fuel)
          (pass : Exchange.run env (Framed.echoPass client response) s =
            (⟨frame, client', some response'⟩, s')) :
          (Exchange.run env (Framed.websocketEchoLoop (fuel + 1) client response) s).1 ≠ none := by
        rw [loop_goes_on env pass]
        intro unfinished
        refine ih client' response' (sends.later did.later) ?_
          (Option.map_eq_none_iff.mp unfinished)
        rw [work, did.bus]
        exact less
      cases passed with
      | forwarded ok did rest =>
          have less := printed ok
          have polls := (did.later .poll).length_le
          exact goes_on did (by rw [rest]; omega) pass
      | waited none did rest fewer => exact goes_on did (by rw [rest]; omega) pass
      | failed failing did =>
          rw [loop_ends env pass]
          exact Option.some_ne_none _
      | @read client' _ none rest did =>
          cases next : (turn env (decodeClient wsMaxPayload (unread client s.world)).1 rx.1.2
              rx.2).next with
          | none =>
              rw [next] at pass
              rw [loop_ends env pass]
              exact Option.some_ne_none _
          | some response' =>
              rw [next] at pass
              have polls := (did.later .poll).length_le
              have turned := drains.turn (decodeClient wsMaxPayload (unread client s.world)).1
                rx.1.2 rx.2
              have shorter := shorter_of_next next
              exact goes_on did (by rw [rest]; omega) pass

/-! ## The whole session -/

/-- The frames the first `fuel` passes of a session dispatch. -/
def dispatched (env : BridgeEnv σ) : (fuel : Nat) → WebsocketClient → Bytes → World × σ → List Frame
  | 0, _, _, _ => []
  | fuel + 1, client, response, s =>
      let ran := (echoPass client response).run (serveAt env) s
      ran.1.frame.toList ++
        match ran.1.next with
        | none => []
        | some response => dispatched env fuel ran.1.client response ran.2

/-- They begin the frames of the stream. -/
theorem dispatched_begin (env : BridgeEnv σ) (fuel : Nat) (client : WebsocketClient)
    (response : Bytes) {s : Exchange σ} (sends : s.world.FineAt .send) :
    dispatched env fuel client response (s.world, s.bus) <+:
      (decoded (unread client s.world)).frames := by
  induction fuel generalizing client response s with
  | zero => exact List.nil_prefix
  | succ fuel ih =>
      rw [dispatched, echoPass_run env client response s]
      have passed := echoPass_passed env sends client response
      generalize (canBridgeFormatNextRx response wsResponseMax).run env s.bus = rx at passed
      generalize Exchange.run env (Framed.echoPass client response) s = result at passed ⊢
      cases passed with
      | forwarded ok did rest =>
          rw [← rest]
          exact ih client rx.1.2 (sends.later did.later)
      | waited none did rest fewer =>
          rw [← rest]
          exact ih client rx.1.2 (sends.later did.later)
      | failed failing did => exact List.nil_prefix
      | @read client' _ none rest did =>
          have decodes : decoded (unread client s.world) = _ := decodeStream_eq ..
          rcases read : decodeClient wsMaxPayload (unread client s.world) with ⟨front, behind⟩
          rw [read] at rest did decodes
          cases front with
          | truncated => exact List.nil_prefix
          | refused => exact List.nil_prefix
          | frame f =>
              simp only [turn, answerTo_frame]
              have next := answerTo_next env f rx.1.2 rx.2
              by_cases ends : EndsSession f.1
              · rw [next.mpr ends, decodes]
                simp only [if_pos ends]
                exact List.prefix_rfl
              · obtain ⟨response', goes_on⟩ := Option.ne_none_iff_exists'.mp (mt next.mp ends)
                rw [goes_on, decodes]
                simp only [if_neg ends]
                have later := ih client' response' (sends.later did.later)
                rw [rest] at later
                exact (List.prefix_append_right_inj [f]).mpr later

/-- A receive stores within the 256 bytes of the payload buffer. -/
def WithinPayload (c : HttpCall) : Prop :=
  match c with
  | .recv _ offset len => offset + len ≤ wsMaxPayload
  | _ => True

theorem websocketEchoLoop_within (fuel : Nat) (client : WebsocketClient) (response : Bytes) :
    (websocketEchoLoop fuel client response).Only WithinPayload := by
  induction fuel generalizing client response with
  | zero => trivial
  | succ fuel ih =>
      have pass : (echoPass client response).Only WithinPayload :=
        echoPass_only (fun _ _ => trivial) (fun _ _ _ within => within) (fun _ _ => trivial) trivial
          (fun _ _ => trivial) client response
      refine pass.bind fun pass => ?_
      rcases pass with ⟨frame, client, _ | response⟩
      · trivial
      · refine (ih client response).bind fun rest => ?_
        rcases rest with _ | ⟨frames, client⟩
        · trivial
        · trivial

/-- A session decodes what the client sends behind the first blank line, in whatever pieces
it arrives, before the session or during it. The passes dispatch the frames of the stream one
after another; when the loop returns, it has dispatched all of them and read no byte behind
them, and it returns when the traffic on the bus ends. It stores no payload byte outside its
buffer. -/
theorem session_decodes (env : BridgeEnv σ) {w : World} (smooth : w.Smooth) (indexHtml : Bytes)
    (rounds : Nat) (fd : Fd)
    (upgraded : (runIn (handleClient indexHtml rounds fd) w).2.threads ≠ w.threads) :
    let start := (runIn (handleClient indexHtml rounds fd) w).2
    ∃ headerEnd, findHeaderEnd w.inbound = some headerEnd ∧
      ∀ (fuel : Nat) (response : Bytes) (bus : σ),
        let stream := decoded (w.inbound.drop (headerEnd + 4))
        let ran := (websocketEchoLoop fuel start.wsClient response).run (serveAt env) (start, bus)
        (∀ frames client, ran.1 = some (frames, client) →
          frames = stream.frames ∧ unread client ran.2.1 = stream.rest) ∧
        dispatched env fuel start.wsClient response (start, bus) <+: stream.frames ∧
        (∀ left, Drains env left → work left start.wsClient { world := start, bus } < fuel →
          ran.1 ≠ none) ∧
        (websocketEchoLoop fuel start.wsClient response).Only WithinPayload ∧
        ∀ f ∈ stream.frames, f.2.length ≤ wsMaxPayload := by
  intro start
  obtain ⟨headerEnd, pending, found, handed, stream⟩ :=
    handleClient_hands_over smooth indexHtml rounds fd upgraded
  refine ⟨headerEnd, found, fun fuel response bus => ?_⟩
  have all : unread start.wsClient start = w.inbound.drop (headerEnd + 4) := by
    show start.wsClient.pending.drop start.wsClient.pendingPos ++ start.inbound = _
    rw [show start.wsClient = { fd, pending } from handed]
    exact stream
  have smooth' : start.Smooth := smooth.later (run_later _ w)
  let s : Exchange σ := { world := start, bus }
  obtain ⟨out, serves⟩ := loop_serves env fuel start.wsClient response (s := s) (smooth' .send)
  have ran : (websocketEchoLoop fuel start.wsClient response).run (serveAt env) (start, bus) = _ :=
    websocketEchoLoop_run env fuel start.wsClient response s
  rw [show unread start.wsClient s.world = _ from all] at serves
  simp only [ran]
  refine ⟨fun frames client returned => ?_, ?_, fun left drains enough => ?_,
    websocketEchoLoop_within _ _ _, decodeLoop_fits _ _ _ _⟩
  · obtain ⟨dispatched, rest, -⟩ := serves.returned smooth' frames client returned
    exact ⟨dispatched, rest⟩
  · have ahead := dispatched_begin env fuel start.wsClient response (s := s) (smooth' .send)
    rwa [show unread start.wsClient s.world = _ from all] at ahead
  · exact loop_returns drains fuel start.wsClient response (smooth' .send) enough

/-- A PING and a CLOSE behind the request; the first receive ends within the PING. -/
def pingAndClose : World where
  fates kind := if kind = .recv then [{ count := some (upgradeRequest.length + 3) }] else []
  inbound := upgradeRequest ++ clientFrame [1, 2, 3, 4] (ping, [7]) ++
    clientFrame [0, 0, 0, 0] (close, [])
  disk := Disk.blank

theorem session_decodes_pingAndClose :
    ∃ client, ((websocketEchoLoop 20 (runIn (handleClient [] 0 3) pingAndClose).2.wsClient []).run
      (serveAt quietBridge) ((runIn (handleClient [] 0 3) pingAndClose).2, ())).1 =
        some ([(ping, [7]), (close, [])], client) := by
  have smooth : pingAndClose.Smooth := by
    intro kind fate member
    by_cases recv : kind = .recv
    · have only : fate ∈ [{ count := some (upgradeRequest.length + 3) }] := by
        simpa [pingAndClose, recv] using member
      rw [List.mem_singleton.mp only]
      exact ⟨rfl, by decide⟩
    · simp [pingAndClose, recv] at member
  have upgraded : (runIn (handleClient [] 0 3) pingAndClose).2.threads ≠ pingAndClose.threads := by
    decide +kernel
  have drains : Drains quietBridge fun _ => 0 :=
    ⟨fun _ _ => Nat.le_refl _, fun _ _ some => absurd some (by intro none; cases none)⟩
  obtain ⟨headerEnd, found, decodes⟩ := session_decodes quietBridge smooth [] 0 3 upgraded
  have at_blank : findHeaderEnd pingAndClose.inbound = some (upgradeRequest.length - 4) := by
    decide +kernel
  obtain rfl : upgradeRequest.length - 4 = headerEnd :=
    Option.some.inj (at_blank.symm.trans found)
  obtain ⟨dispatches, -, returns, -⟩ := decodes 20 [] ()
  have enough : work (fun _ : Unit => 0) (runIn (handleClient [] 0 3) pingAndClose).2.wsClient
      { world := (runIn (handleClient [] 0 3) pingAndClose).2, bus := () } < 20 := by decide +kernel
  obtain ⟨⟨frames, client⟩, returned⟩ :=
    Option.ne_none_iff_exists'.mp (returns _ drains enough)
  have frames_eq : (decoded (pingAndClose.inbound.drop (upgradeRequest.length - 4 + 4))).frames =
      [(ping, [7]), (close, [])] := by decide +kernel
  exact ⟨client, by rw [returned, (dispatches _ _ returned).1, frames_eq]⟩

end PicoCan.Http
