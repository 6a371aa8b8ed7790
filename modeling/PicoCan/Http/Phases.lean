import PicoCan.Http.Sessions

/-!
# The handover of a connection, call by call

Where a connection stands between `accept` and `close`, as seen by each thread that
works for it, and that the code of both threads keeps to it whatever it is answered:
`handle_client` closes its descriptor once or hands it over, and what it hands over the
session thread closes before it gives `ws_active` back.
-/

namespace PicoCan.Http

open Calls

/-- The HTTP thread's part. It answers; it has claimed `ws_active`, filled `ws_client` and
switched streaming on; it is done with its descriptor, which it closed or handed over. -/
inductive HttpPhase
  | serving | claimed | published | enabled | over
deriving DecidableEq

/-- The WebSocket thread's part. Its session runs; it has closed the descriptor, switched
streaming off, purged the queue; it has given `ws_active` back, or there is no session. -/
inductive WsPhase
  | running | closed | stopped | purged | over
deriving DecidableEq

/-- The HTTP thread holds `ws_active`. -/
def HttpPhase.holds : HttpPhase → Prop
  | .claimed | .published | .enabled => True
  | .serving | .over => False

/-- The calls of the HTTP thread with a connection on `fd`. -/
def servingSpec (fd : Fd) : Spec HttpCall.Answer HttpPhase := fun c post v =>
  match c with
  | .fs _ | .recv _ _ _ | .send _ _ => (v = .serving ∨ v = .claimed) ∧ ∀ r, post r v
  | .close fd' => v = .serving ∧ fd' = fd ∧ ∀ r, post r .over
  | .wsActiveCas => v = .serving ∧ post true .claimed ∧ post false .serving
  | .wsActiveClear => v = .claimed ∧ post () .serving
  | .wsClientSet client => v = .claimed ∧ client.fd = fd ∧ post () .published
  | .can .rxPurge => v = .published ∧ post () .published
  | .can (.rxStreamingSet true) => v = .published ∧ post () .enabled
  | .wsThreadCreate => v = .enabled ∧ post () .over
  | _ => False

/-- The calls of the WebSocket thread with a session on `fd`. -/
def sessionSpec (fd : Fd) : Spec HttpCall.Answer WsPhase := fun c post v =>
  match c with
  | .close fd' => v = .running ∧ fd' = fd ∧ ∀ r, post r .closed
  | .can (.rxStreamingSet false) => v = .closed ∧ post () .stopped
  | .can .rxPurge => v = .stopped ∧ post () .purged
  | .wsActiveClear => v = .purged ∧ post () .over
  | .can .rxGet => v = .running ∧ ∀ frame : Option Can.CanFrame, post frame .running
  | .can c => NotRx c ∧ v = .running ∧ ∀ r, post r .running
  | .recv _ _ _ | .send _ _ | .poll _ _ => v = .running ∧ ∀ r, post r .running
  | _ => False

theorem servingSpec_mono (fd : Fd) : (servingSpec fd).Mono := by
  intro c post post' weaker v h
  match c with
  | .wsActiveCas => exact ⟨h.1, weaker _ _ h.2.1, weaker _ _ h.2.2⟩
  | .close _ => exact ⟨h.1, h.2.1, fun r => weaker _ _ (h.2.2 r)⟩
  | .wsClientSet _ => exact ⟨h.1, h.2.1, weaker _ _ h.2.2⟩
  | .wsActiveClear | .can .rxPurge | .can (.rxStreamingSet true) | .wsThreadCreate =>
      exact ⟨h.1, weaker _ _ h.2⟩
  | .fs _ | .recv _ _ _ | .send _ _ => exact ⟨h.1, fun r => weaker _ _ (h.2 r)⟩
  | .poll _ _ => exact h

/-! ## The HTTP thread -/

/-- The calls that move no phase of the HTTP thread. -/
def Still (c : HttpCall) : Prop :=
  match c with
  | .fs _ | .recv _ _ _ | .send _ _ => True
  | _ => False

theorem servingSpec_still {fd : Fd} {v : HttpPhase} (open' : v = .serving ∨ v = .claimed)
    (c : HttpCall) (post : c.Answer → HttpPhase → Prop) (still : Still c)
    (after : ∀ r, post r v) : servingSpec fd c post v := by
  cases c <;> first | exact still.elim | exact ⟨open', after⟩

/-- `p` is done with the descriptor when it returns. -/
def Settles {α : Type} (fd : Fd) (p : HttpProg α) : Prop :=
  p.wp (servingSpec fd) (fun _ v => v = .over) .serving

/-- The same of a program that says whether it is done. -/
def SettlesIfDone (fd : Fd) (p : HttpProg Bool) : Prop :=
  p.wp (servingSpec fd) (fun done v => done = true → v = .over) .serving

section Settles

variable {α β : Type} {fd : Fd}

theorem Settles.ifDone {p : HttpProg Bool} (settles : Settles fd p) : SettlesIfDone fd p := by
  refine Prog.wp_mono (servingSpec_mono fd) (fun done v ended => ?_) settles
  exact fun _ => ended

theorem SettlesIfDone.ite {b : Prop} [Decidable b] {p q : HttpProg Bool}
    (yes : SettlesIfDone fd p) (no : SettlesIfDone fd q) :
    SettlesIfDone fd (if b then p else q) :=
  (Prog.wp_ite _ _ _ _ _ _).mpr ⟨fun _ => yes, fun _ => no⟩

theorem SettlesIfDone.after {p : HttpProg β} {f : β → HttpProg Bool} (before : p.Only Still)
    (rest : ∀ b, SettlesIfDone fd (f b)) : SettlesIfDone fd (p >>= f) :=
  (Prog.wp_bind _ _ _ _ _).mpr (before.wp (servingSpec_still (.inl rfl)) rest)

theorem Settles.ite {b : Prop} [Decidable b] {p q : HttpProg α} (yes : Settles fd p)
    (no : Settles fd q) : Settles fd (if b then p else q) :=
  (Prog.wp_ite _ _ _ _ _ _).mpr ⟨fun _ => yes, fun _ => no⟩

/-- What comes before does not touch the descriptor. -/
theorem Settles.after {p : HttpProg β} {f : β → HttpProg α} (before : p.Only Still)
    (rest : ∀ b, Settles fd (f b)) : Settles fd (p >>= f) :=
  (Prog.wp_bind _ _ _ _ _).mpr (before.wp (servingSpec_still (.inl rfl)) rest)

theorem Settles.bind {p : HttpProg β} (settles : Settles fd p) (a : α) :
    Settles fd (p >>= fun _ => .ret a) :=
  (Prog.wp_bind _ _ _ _ _).mpr (Prog.wp_mono (servingSpec_mono fd) (fun _ _ done => done) settles)

theorem settles_close (a : α) : Settles fd (perform (.close fd) >>= fun _ => .ret a) :=
  ⟨rfl, rfl, fun _ => rfl⟩

theorem refuse_settles (status body : String) : Settles fd (refuse fd status body) := by
  unfold refuse
  exact .after (sendTextResponse_only (fun _ => trivial) _ _ _) fun _ => settles_close ()

theorem answer_settles (text : String) : Settles fd (answer fd text) := by
  unfold answer
  exact .after (sendAll_only (fun _ => trivial) _) fun _ => settles_close ()

theorem uploadRoute_settles (request : Bytes) (headerEnd : Nat) :
    Settles fd (uploadRoute fd request headerEnd) := by
  unfold uploadRoute
  split
  · exact refuse_settles _ _
  split
  · exact refuse_settles _ _
  refine .ite (refuse_settles _ _) (.ite (refuse_settles _ _) ?_)
  refine .after (storageWriteUserIndexStream_only (fun _ => trivial)
    (fun _ n => requestBodyRead_only (fun _ _ _ => trivial) n) _ _) fun _ => ?_
  exact .ite (refuse_settles _ _) (refuse_settles _ _)

theorem statusRoute_settles : Settles fd (statusRoute fd) := by
  refine .after (storageFormatStatusJson_only (fun _ _ => trivial) _ _) fun body => ?_
  refine .ite (settles_close ()) (.ite (settles_close ()) ?_)
  exact .after (sendBoth_only (fun _ => trivial) _ _) fun _ => settles_close ()

theorem indexRoute_settles (indexHtml : Bytes) : Settles fd (indexRoute indexHtml fd) :=
  .ite (settles_close ()) (.after (sendBoth_only (fun _ => trivial) _ _) fun _ => settles_close ())

end Settles

/-- The user page's route is done with the descriptor unless its copy loop runs out of
fuel. -/
theorem userPageRoute_settles (fuel : Nat) (fd : Fd) :
    SettlesIfDone fd (userPageRoute fuel fd) := by
  refine .after (storageUserIndexSize_only (fun _ _ => trivial) _) fun size => ?_
  refine .ite ((answer_settles _).bind true).ifDone ?_
  refine .ite ((refuse_settles _ _).bind true).ifDone ?_
  refine .ite (settles_close true).ifDone ?_
  refine .after (sendAll_only (fun _ => trivial) _) fun ret => .ite (settles_close true).ifDone ?_
  refine .after (storageStreamUserIndex_only (fun _ _ => trivial)
    (fun _ => sendAll_only (fun _ => trivial) _) _) fun ret => ?_
  cases ret with
  | none => exact fun h => nomatch h
  | some ret => exact (settles_close true).ifDone

theorem buildWebsocketAccept_error {request : Bytes} {acceptLen : Nat} {ret : Int}
    (failed : buildWebsocketAccept request acceptLen = .error ret) : ret < 0 := by
  unfold buildWebsocketAccept at failed
  split at failed
  · cases failed
    decide
  · simp only at failed
    split at failed
    · cases failed
      decide
    · unfold base64EncodeSmall at failed
      split at failed <;> cases failed
      decide

/-- A failed upgrade leaves the connection to `handle_client`, a successful one does not. -/
theorem handleWebsocket_settles (fd : Fd) (request pending : Bytes) :
    (handleWebsocket fd request pending).wp (servingSpec fd)
      (fun ret v => v = if ret < 0 then .serving else .over) .serving := by
  refine ⟨rfl, ?_, rfl⟩
  cases accepted : buildWebsocketAccept request acceptMax with
  | error ret => exact ⟨rfl, (if_pos (buildWebsocketAccept_error accepted)).symm⟩
  | ok accept => ?_
  show (if (upgradeText accept).length ≥ responseBufMax then _ else _ : HttpProg Int).wp _ _ _
  refine (Prog.wp_ite _ _ _ _ _ _).mpr ⟨fun _ => ⟨rfl, rfl⟩, fun _ => ?_⟩
  refine (Prog.wp_bind _ (sendAll _ _) _ _ _).mpr ?_
  refine (sendAll_only (P := Still) (fun _ => trivial) _).wp (servingSpec_still (.inr rfl))
    fun ret => ?_
  refine (Prog.wp_ite _ _ _ _ _ _).mpr ⟨fun failed => ⟨rfl, (if_pos failed).symm⟩, fun _ => ?_⟩
  exact ⟨rfl, rfl, rfl, rfl, rfl, rfl⟩

theorem upgradeRoute_settles (fd : Fd) (request : Bytes) (headerEnd : Nat) :
    Settles fd (upgradeRoute fd request headerEnd) := by
  refine (Prog.wp_bind _ (handleWebsocket _ _ _) _ _ _).mpr ?_
  refine Prog.wp_mono (servingSpec_mono fd) ?_ (handleWebsocket_settles _ _ _)
  rintro ret _ rfl
  refine (Prog.wp_ite _ _ _ _ _ _).mpr ⟨fun failed => ?_, fun ok => if_neg ok⟩
  rw [if_pos failed]
  exact settles_close ()

/-- Every path through `handle_client` ends with the descriptor closed or handed over. -/
theorem handleClient_settles (indexHtml : Bytes) (fuel : Nat) (fd : Fd) :
    SettlesIfDone fd (handleClient indexHtml fuel fd) := by
  refine .after (recvRequest_only (P := Still) (fun _ _ _ => trivial) _ _) fun received => ?_
  match received with
  | .gone => exact (settles_close true).ifDone
  | .received _ none => exact ((answer_settles _).bind true).ifDone
  | .received request (some headerEnd) =>
      refine .ite ((upgradeRoute_settles _ _ _).bind true).ifDone ?_
      refine .ite ((uploadRoute_settles _ _).bind true).ifDone ?_
      refine .ite ((answer_settles _).bind true).ifDone ?_
      refine .ite (statusRoute_settles.bind true).ifDone ?_
      refine .ite (userPageRoute_settles fuel fd) ?_
      exact .ite ((answer_settles _).bind true).ifDone ((indexRoute_settles _).bind true).ifDone

/-! ## The WebSocket thread -/

section SameClient

variable {fd : Fd}

theorem wsRecvExact_returns {client : WebsocketClient} (same : client.fd = fd) (len : Nat) :
    (wsRecvExact client len).Returns fun result => result.2.fd = fd :=
  (Prog.returns_true (recvLoop client.fd len len _)).bind fun _ _ => same

theorem readPayload_returns {client : WebsocketClient} (same : client.fd = fd) (opcode : UInt8)
    (masked : Bool) (payloadLen : Nat) :
    (readPayload client opcode masked payloadLen).Returns fun result => result.2.fd = fd := by
  refine .ite (fun _ => ?_) fun _ => (wsRecvExact_returns same 4).bind fun mask same => ?_
  · exact (Prog.returns_true (sendWebsocketFrame _ _ _)).bind fun _ _ => same
  match mask with
  | (.error _, client) => exact same
  | (.ok mask, client) =>
      refine (wsRecvExact_returns same payloadLen).bind fun payload same => ?_
      match payload with
      | (.error _, client) | (.ok _, client) => exact same

theorem readFrame_returns {client : WebsocketClient} (same : client.fd = fd) :
    (readFrame client).Returns fun result => result.2.fd = fd := by
  refine (wsRecvExact_returns same 2).bind fun header same => ?_
  match header with
  | (.error _, client) => exact same
  | (.ok header, client) =>
      refine .ite (fun _ => (wsRecvExact_returns same 2).bind fun ext same => ?_) fun _ =>
        .ite (fun _ => ?_) fun _ => readPayload_returns same _ _ _
      · match ext with
        | (.error _, client) => exact same
        | (.ok _, client) => exact readPayload_returns same _ _ _
      · exact (Prog.returns_true (sendWebsocketFrame _ _ _)).bind fun _ _ => same

theorem clientPass_returns {client : WebsocketClient} (same : client.fd = fd) (response : Bytes) :
    (clientPass client response).Returns fun pass => pass.client.fd = fd := by
  refine (readFrame_returns same).bind fun read same => ?_
  match read with
  | (.failed, client) | (.refused, client) => exact same
  | (.frame opcode payload, client) =>
      exact (Prog.returns_true (dispatch _ _ _ _)).bind fun _ _ => same

/-- The loop stays on the descriptor it was given. -/
theorem echoPass_returns {client : WebsocketClient} (same : client.fd = fd) (response : Bytes) :
    (echoPass client response).Returns fun pass => pass.client.fd = fd := by
  refine (Prog.returns_true (bridge _)).bind fun rx _ => ?_
  refine .ite (fun _ => ?_) fun _ => .ite (fun _ => ?_) fun _ => clientPass_returns same _
  · exact (Prog.returns_true (sendWebsocketFrame _ _ _)).bind fun _ _ =>
      .ite (fun _ => same) fun _ => same
  · refine (Prog.returns_true (perform (.poll _ _))).bind fun ready _ => ?_
    match ready with
    | .error _ => exact same
    | .ok ready => exact .ite (fun _ => same) fun _ => clientPass_returns same _

end SameClient

/-- A pass leaves the phase of its session alone. -/
theorem echoPass_runs (client : WebsocketClient) (response : Bytes) :
    (echoPass client response).wp (sessionSpec client.fd)
      (fun pass v => pass.client.fd = client.fd ∧ v = .running) .running := by
  have only : (echoPass client response).Only fun c =>
      ∀ post : c.Answer → WsPhase → Prop, (∀ r, post r .running) →
        sessionSpec client.fd c post .running := by
    refine echoPass_only (fun _ _ _ after => ⟨rfl, after⟩) (fun _ _ _ _ _ after => ⟨rfl, after⟩)
      (fun c other post after => ?_) (fun _ after => ⟨rfl, after⟩)
      (fun _ _ _ after => ⟨rfl, after⟩) _ _
    cases c <;> first | exact other.elim | exact ⟨trivial, rfl, after⟩
  exact only.wp_returns (fun c post skips after => skips post after) (echoPass_returns rfl _)
    fun pass same => ⟨same, rfl⟩

theorem websocketLeave_runs (fd : Fd) :
    (websocketLeave fd).wp (sessionSpec fd) (fun _ v => v = .over) .running :=
  ⟨rfl, rfl, fun _ => ⟨rfl, rfl, rfl, rfl⟩⟩

end PicoCan.Http
