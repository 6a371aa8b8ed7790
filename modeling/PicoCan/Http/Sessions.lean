import PicoCan.Calls.Runs
import PicoCan.Can.Format
import PicoCan.Http.World

/-!
# Sessions

The HTTP thread, the WebSocket thread and the CAN receive callback over the RX queue,
its flag and `ws_active`. A step is one call of a thread or one whole invocation of the
callback; every answer of the sockets, the file system and the rest of the bridge is a
choice of the environment.

A history records what the receive side saw. What a session takes out of the queue is
carried by one invariant about the stage the handover of the session has reached: while
no thread streams, the queue is empty; from the write of the flag until the purge, the
frames taken and the frames queued are those kept since that write.
-/

namespace PicoCan.Http

open Calls
open PicoCan.Can (CanFrame CanCall CanProg canRxQueueLen canRxCallback formatRxFrame rxHeadText
  wsResponseMax)

/-! ## The shared state -/

/-- How far the handover of a session has come: `ws_active` taken, streaming switched
on, the thread created, streaming switched off, the queue purged. -/
inductive Stage
  | idle | claimed | enabled | streaming | disabled | purged
deriving DecidableEq

/-- What the history records: the two writes of the flag, an invocation of the callback
with whether the queue was full, and a frame taken out of the queue. -/
inductive Mark
  | set (session : Nat)
  | clear (session : Nat)
  | arrived (frame : CanFrame) (full : Bool)
  | taken (session : Nat) (frame : CanFrame)

/-- The state the threads share. `session` counts the successful claims of `ws_active`;
`stage` and `history`, newest first, only record. -/
structure Shared where
  rxQueue : Fifo CanFrame canRxQueueLen := .empty
  rxStreaming : Bool := false
  wsActive : Bool := false
  wsClient : WebsocketClient := { fd := 0, pending := [] }
  session : Nat := 0
  stage : Stage := .idle
  history : List Mark := []

inductive Thread
  | http
  | driver
  | ws (session : Nat)
deriving DecidableEq

/-- The session a thread works for. -/
def Thread.sessionIn (t : Thread) (s : Shared) : Nat :=
  match t with
  | .http | .driver => s.session
  | .ws session => session

/-- The stage after a call that takes part in the handover. -/
def Stage.after (stage : Stage) (t : Thread) (c : HttpCall) : Stage :=
  match stage, t, c with
  | .idle, .http, .wsActiveCas => .claimed
  | .claimed, .http, .wsActiveClear => .idle
  | .claimed, .http, .can (.rxStreamingSet true) => .enabled
  | .enabled, .http, .wsThreadCreate => .streaming
  | .streaming, .ws _, .can (.rxStreamingSet false) => .disabled
  | .disabled, .ws _, .can .rxPurge => .purged
  | .purged, .ws _, .wsActiveClear => .idle
  | stage, _, _ => stage

/-- What the environment answers to the calls it decides. -/
abbrev Oracle : Type := (c : HttpCall) → c.Answer

/-- One call of a thread. -/
def exec (t : Thread) (oracle : Oracle) : (c : HttpCall) → Shared → c.Answer × Shared
  | .can (.rxPut frame), s =>
      match s.rxQueue.put frame with
      | none => (-Can.eNoMsg, s)
      | some q => ((0 : Int), { s with rxQueue := q })
  | .can .rxGet, s =>
      match s.rxQueue.get with
      | none => (none, s)
      | some (frame, q) => (some frame,
          { s with rxQueue := q, history := .taken (t.sessionIn s) frame :: s.history })
  | .can .rxPurge, s =>
      ((), { s with rxQueue := .empty, stage := s.stage.after t (.can .rxPurge) })
  | .can .rxStreamingGet, s => (s.rxStreaming, s)
  | .can (.rxStreamingSet enabled), s =>
      ((), { s with
        rxStreaming := enabled
        stage := s.stage.after t (.can (.rxStreamingSet enabled))
        history := (if enabled then .set (t.sessionIn s) else .clear (t.sessionIn s)) ::
          s.history })
  | .wsActiveCas, s =>
      if s.wsActive then (false, s)
      else (true, { s with
        wsActive := true, session := s.session + 1, stage := s.stage.after t .wsActiveCas })
  | .wsActiveClear, s =>
      ((), { s with wsActive := false, stage := s.stage.after t .wsActiveClear })
  | .wsClientSet client, s => ((), { s with wsClient := client })
  | .wsThreadCreate, s => ((), { s with stage := s.stage.after t .wsThreadCreate })
  | c, s => (oracle c, s)

/-- The driver runs the callback above the threads, in one go. -/
def Shared.arrive (oracle : Oracle) (frame : CanFrame) (s : Shared) : Shared :=
  let full := s.rxQueue.items.length = canRxQueueLen
  let after := ((bridge (canRxCallback frame)).run (exec .driver oracle) s).2
  { after with history := .arrived frame full :: after.history }

/-! ## The machine -/

/-- The code of the WebSocket thread: a pass of its loop, or what is behind the loop. -/
inductive SessionCode
  | loop (rest : HttpProg Pass)
  | leaving (rest : HttpProg Unit)

structure SessionThread where
  session : Nat
  code : SessionCode

/-- The threads over the shared state. A thread that is not there does not run. -/
structure System where
  shared : Shared := {}
  http : Option (HttpProg Bool) := none
  ws : Option SessionThread := none

/-- The labels: a connection is accepted, a call of a thread, the callback. A thread
starts with whatever its stack holds where the response buffer is. -/
inductive Event
  | accept (fuel : Nat) (fd : Fd)
  | http (oracle : Oracle) (stack : Bytes)
  | ws (oracle : Oracle)
  | arrive (oracle : Oracle) (frame : CanFrame)

def HttpCall.createsThread : HttpCall → Bool
  | .wsThreadCreate => true
  | _ => false

/-- The WebSocket thread when it is created. -/
def newThread (s : Shared) (stack : Bytes) : SessionThread :=
  ⟨s.session, .loop (echoPass s.wsClient stack)⟩

def step (indexHtml : Bytes) (s : System) : Event → Option System
  | .accept fuel fd =>
      match s.http with
      | some _ => none
      | none => some { s with http := some (handleClient indexHtml fuel fd) }
  | .http oracle stack =>
      match s.http with
      | none => none
      | some (.ret _) => some { s with http := none }
      | some (.call c k) =>
          let (r, shared) := exec .http oracle c s.shared
          some { shared, http := some (k r), ws :=
            if c.createsThread then some (newThread shared stack) else s.ws }
  | .ws oracle =>
      match s.ws with
      | none => none
      | some ⟨session, .loop (.ret pass)⟩ =>
          match pass.next with
          | some response =>
              some { s with ws := some ⟨session, .loop (echoPass pass.client response)⟩ }
          | none => some { s with ws := some ⟨session, .leaving (websocketLeave pass.client.fd)⟩ }
      | some ⟨session, .loop (.call c k)⟩ =>
          let (r, shared) := exec (.ws session) oracle c s.shared
          some { s with shared, ws := some ⟨session, .loop (k r)⟩ }
      | some ⟨_, .leaving (.ret _)⟩ => some { s with ws := none }
      | some ⟨session, .leaving (.call c k)⟩ =>
          let (r, shared) := exec (.ws session) oracle c s.shared
          some { s with shared, ws := some ⟨session, .leaving (k r)⟩ }
  | .arrive oracle frame => some { s with shared := s.shared.arrive oracle frame }

/-- The machine, started with no connection and no session. -/
def sessions (indexHtml : Bytes) : Machine System Event where
  Start s := s = {}
  step := step indexHtml

/-- Everything a step can do. -/
inductive Moved (indexHtml : Bytes) (s : System) : Event → System → Prop
  | accept {fuel : Nat} {fd : Fd} (idle : s.http = none) :
      Moved indexHtml s (.accept fuel fd)
        { s with http := some (handleClient indexHtml fuel fd) }
  | done {oracle : Oracle} {stack : Bytes} {b : Bool} (busy : s.http = some (.ret b)) :
      Moved indexHtml s (.http oracle stack) { s with http := none }
  | httpCall {oracle : Oracle} {stack : Bytes} {c : HttpCall} {k : c.Answer → HttpProg Bool}
      (busy : s.http = some (.call c k)) (other : c.createsThread = false) :
      Moved indexHtml s (.http oracle stack)
        { s with shared := (exec .http oracle c s.shared).2
                 http := some (k (exec .http oracle c s.shared).1) }
  | create {oracle : Oracle} {stack : Bytes} {k : Unit → HttpProg Bool}
      (busy : s.http = some (.call .wsThreadCreate k)) :
      Moved indexHtml s (.http oracle stack)
        { shared := (exec .http oracle .wsThreadCreate s.shared).2
          http := some (k ())
          ws := some (newThread (exec .http oracle .wsThreadCreate s.shared).2 stack) }
  | again {oracle : Oracle} {session : Nat} {pass : Pass} {response : Bytes}
      (busy : s.ws = some ⟨session, .loop (.ret pass)⟩) (next : pass.next = some response) :
      Moved indexHtml s (.ws oracle)
        { s with ws := some ⟨session, .loop (echoPass pass.client response)⟩ }
  | leave {oracle : Oracle} {session : Nat} {pass : Pass}
      (busy : s.ws = some ⟨session, .loop (.ret pass)⟩) (next : pass.next = none) :
      Moved indexHtml s (.ws oracle)
        { s with ws := some ⟨session, .leaving (websocketLeave pass.client.fd)⟩ }
  | loopCall {oracle : Oracle} {session : Nat} {c : HttpCall} {k : c.Answer → HttpProg Pass}
      (busy : s.ws = some ⟨session, .loop (.call c k)⟩) :
      Moved indexHtml s (.ws oracle)
        { s with shared := (exec (.ws session) oracle c s.shared).2
                 ws := some ⟨session, .loop (k (exec (.ws session) oracle c s.shared).1)⟩ }
  | leaveCall {oracle : Oracle} {session : Nat} {c : HttpCall} {k : c.Answer → HttpProg Unit}
      (busy : s.ws = some ⟨session, .leaving (.call c k)⟩) :
      Moved indexHtml s (.ws oracle)
        { s with shared := (exec (.ws session) oracle c s.shared).2
                 ws := some ⟨session, .leaving (k (exec (.ws session) oracle c s.shared).1)⟩ }
  | gone {oracle : Oracle} {session : Nat} (busy : s.ws = some ⟨session, .leaving (.ret ())⟩) :
      Moved indexHtml s (.ws oracle) { s with ws := none }
  | arrive {oracle : Oracle} {frame : CanFrame} :
      Moved indexHtml s (.arrive oracle frame) { s with shared := s.shared.arrive oracle frame }

theorem step_moved {indexHtml : Bytes} {s t : System} {e : Event}
    (hstep : step indexHtml s e = some t) : Moved indexHtml s e t := by
  cases e with
  | accept fuel fd =>
      simp only [step] at hstep
      split at hstep
      · cases hstep
      · next idle => cases hstep; exact .accept idle
  | http oracle stack =>
      simp only [step] at hstep
      split at hstep
      · cases hstep
      · next busy => cases hstep; exact .done busy
      · next c k busy =>
          cases hstep
          cases creates : c.createsThread with
          | false => exact .httpCall busy creates
          | true =>
              cases c with
              | wsThreadCreate => exact .create busy
              | _ => cases creates
  | ws oracle =>
      simp only [step] at hstep
      split at hstep
      · cases hstep
      · next busy =>
          split at hstep
          · next next => cases hstep; exact .again busy next
          · next next => cases hstep; exact .leave busy next
      · next busy => cases hstep; exact .loopCall busy
      · next busy => cases hstep; exact .gone busy
      · next busy => cases hstep; exact .leaveCall busy
  | arrive oracle frame => cases hstep; exact .arrive

/-! ## What the history says -/

/-- Whether the flag stands as session `k` has set it. -/
def openIn (k : Nat) : List Mark → Bool
  | [] => false
  | .set session :: older => session = k || openIn k older
  | .clear session :: older => session ≠ k && openIn k older
  | _ :: older => openIn k older

/-- The frames delivered to the callback between the two writes of the flag by session
`k`, oldest first, each with whether it found the queue full. -/
def windowOf (k : Nat) : List Mark → List (CanFrame × Bool)
  | [] => []
  | .arrived frame full :: older =>
      if openIn k older then windowOf k older ++ [(frame, full)] else windowOf k older
  | _ :: older => windowOf k older

/-- Those that did not find the queue full. -/
def keptIn (k : Nat) (history : List Mark) : List CanFrame :=
  ((windowOf k history).filter fun arrival => !arrival.2).map Prod.fst

/-- The frames session `k` has taken out of the queue, oldest first. -/
def takenIn (k : Nat) : List Mark → List CanFrame
  | [] => []
  | .taken session frame :: older =>
      if session = k then takenIn k older ++ [frame] else takenIn k older
  | _ :: older => takenIn k older

section History

variable {k session : Nat} {frame : CanFrame} {full : Bool} {older : List Mark}

@[simp] theorem keptIn_nil : keptIn k [] = [] := rfl

@[simp] theorem keptIn_set : keptIn k (.set session :: older) = keptIn k older := rfl

@[simp] theorem keptIn_clear : keptIn k (.clear session :: older) = keptIn k older := rfl

@[simp] theorem keptIn_taken : keptIn k (.taken session frame :: older) = keptIn k older := rfl

@[simp] theorem keptIn_arrived : keptIn k (.arrived frame full :: older) =
    if openIn k older && !full then keptIn k older ++ [frame] else keptIn k older := by
  cases opened : openIn k older <;> cases full <;> simp [keptIn, windowOf, opened]

end History

/-! ## The invariant -/

/-- The link between the stage, the shared variables and the history. -/
structure Inv (s : Shared) : Prop where
  flag : s.rxStreaming = true ↔ s.stage = .enabled ∨ s.stage = .streaming
  active : s.wsActive = true ↔ s.stage ≠ .idle
  stale : s.stage = .idle ∨ s.stage = .claimed ∨ s.stage = .purged → s.rxQueue.items = []
  live : s.stage = .enabled ∨ s.stage = .streaming ∨ s.stage = .disabled →
    takenIn s.session s.history ++ s.rxQueue.items = keptIn s.session s.history
  opened : ∀ k, openIn k s.history = (s.rxStreaming && k = s.session)
  taken : ∀ k, takenIn k s.history <+: keptIn k s.history
  fresh : ∀ k, s.session < k ∨ (k = s.session ∧ s.stage = .claimed) →
    takenIn k s.history = [] ∧ keptIn k s.history = []

/-- The callback keeps the invariant at every stage. -/
theorem Inv.arrive {s : Shared} (inv : Inv s) (oracle : Oracle) (frame : CanFrame) :
    Inv (s.arrive oracle frame) := by
  cases streaming : s.rxStreaming with
  | false =>
      have same : s.arrive oracle frame = { s with
          history := .arrived frame (s.rxQueue.items.length = canRxQueueLen) :: s.history } := by
        simp [Shared.arrive, canRxCallback, Can.perform, bridge, Prog.lift, exec, streaming]
      -- outside every window the frame is kept by no session
      have closed : ∀ k, openIn k s.history = false := fun k => by
        rw [inv.opened k, streaming, Bool.false_and]
      rw [same]
      exact {
        flag := inv.flag, active := inv.active, stale := inv.stale
        live := fun h => by simpa [takenIn, closed] using inv.live h
        opened := inv.opened
        taken := fun k => by simpa [takenIn, closed] using inv.taken k
        fresh := fun k h => by simpa [takenIn, closed] using inv.fresh k h }
  | true =>
      have stage := inv.flag.mp streaming
      have live := inv.live (by rcases stage with h | h <;> simp [h])
      have notClaimed : s.stage ≠ .claimed := by rcases stage with h | h <;> simp [h]
      have opened : ∀ k, openIn k s.history = decide (k = s.session) := fun k => by
        rw [inv.opened k, streaming, Bool.true_and]
      cases put : s.rxQueue.put frame with
      | none =>
          -- a full queue drops the frame, and the history says so
          have full := Fifo.put_eq_none.mp put
          have same : s.arrive oracle frame =
              { s with history := .arrived frame true :: s.history } := by
            simp [Shared.arrive, canRxCallback, Can.perform, bridge, Prog.lift, exec, streaming,
              put, full]
          rw [same]
          exact {
            flag := inv.flag, active := inv.active, stale := inv.stale
            live := fun h => by simpa [takenIn] using live
            opened := inv.opened
            taken := fun k => by simpa [takenIn] using inv.taken k
            fresh := fun k h => by simpa [takenIn] using inv.fresh k h }
      | some q =>
          have items := Fifo.put_items put
          have room : ¬ s.rxQueue.items.length = canRxQueueLen := fun full => by
            rw [Fifo.put_eq_none.mpr full] at put
            cases put
          have same : s.arrive oracle frame =
              { s with rxQueue := q, history := .arrived frame false :: s.history } := by
            simp [Shared.arrive, canRxCallback, Can.perform, bridge, Prog.lift, exec, streaming,
              put, room]
          rw [same]
          refine {
            flag := inv.flag, active := inv.active
            stale := fun h => ?_
            live := fun _ => ?_
            opened := inv.opened
            taken := fun k => ?_
            fresh := fun k h => ?_ }
          · rcases stage with now | now <;> rw [now] at h <;> simp at h
          · simp only [takenIn, keptIn_arrived, opened, items, decide_true, Bool.not_false,
              Bool.and_true, if_true]
            rw [← live, List.append_assoc]
          · simp only [takenIn, keptIn_arrived]
            split
            · exact (inv.taken k).trans (List.prefix_append _ _)
            · exact inv.taken k
          · have other : k ≠ s.session := by
              rcases h with later | ⟨-, now⟩
              · exact Nat.ne_of_gt later
              · exact absurd now notClaimed
            simpa [takenIn, opened, other] using inv.fresh k h

/-! ## The two threads -/

/-- The stages in which the HTTP thread has a session in hand; the others are `idle` to
it. -/
def Stage.http : Stage → Stage
  | .claimed => .claimed
  | .enabled => .enabled
  | _ => .idle

/-- The stages in which the WebSocket thread has a session in hand. -/
def Stage.ws : Stage → Stage
  | .streaming => .streaming
  | .disabled => .disabled
  | .purged => .purged
  | _ => .idle

/-- The calls of the HTTP thread and the stage it sees: `ws_client` and the receive side
are touched only by a thread that has claimed `ws_active`. -/
def httpSpec : Spec HttpCall.Answer Stage := fun c post v =>
  match c with
  | .wsActiveCas => v = .idle ∧ post true .claimed ∧ post false .idle
  | .wsActiveClear => v = .claimed ∧ post () .idle
  | .wsClientSet _ => v = .claimed ∧ post () .claimed
  | .can .rxPurge => v = .claimed ∧ post () .claimed
  | .can (.rxStreamingSet true) => v = .claimed ∧ post () .enabled
  | .wsThreadCreate => v = .enabled ∧ post () .idle
  | .fs _ | .recv _ _ _ | .send _ _ | .close _ => ∀ r, post r v
  | _ => False

/-- The calls of the WebSocket thread and the stage it sees. -/
def wsSpec : Spec HttpCall.Answer Stage := fun c post v =>
  match c with
  | .can .rxGet => v = .streaming ∧ ∀ frame : Option CanFrame, post frame .streaming
  | .can (.rxStreamingSet false) => v = .streaming ∧ post () .disabled
  | .can .rxPurge => v = .disabled ∧ post () .purged
  | .wsActiveClear => v = .purged ∧ post () .idle
  | .can c => NotRx c ∧ ∀ r, post r v
  | .recv _ _ _ | .send _ _ | .poll _ _ | .close _ => ∀ r, post r v
  | _ => False

/-- The calls of the HTTP thread that have nothing to do with a session. -/
def Neutral (c : HttpCall) : Prop :=
  match c with
  | .fs _ | .recv _ _ _ | .send _ _ | .close _ => True
  | _ => False

theorem httpSpec_neutral {v : Stage} (c : HttpCall) (post : c.Answer → Stage → Prop)
    (neutral : Neutral c) (after : ∀ r, post r v) : httpSpec c post v := by
  cases c <;> first | exact neutral.elim | exact after

theorem httpSpec_mono : httpSpec.Mono := by
  intro c post post' weaker v h
  match c with
  | .wsActiveCas => exact ⟨h.1, weaker _ _ h.2.1, weaker _ _ h.2.2⟩
  | .wsActiveClear | .wsClientSet _ | .can .rxPurge | .can (.rxStreamingSet true)
  | .wsThreadCreate => exact ⟨h.1, weaker _ _ h.2⟩
  | .fs _ | .recv _ _ _ | .send _ _ | .close _ => exact fun r => weaker _ _ (h r)
  | .poll _ _ => exact h

theorem handleWebsocket_wp (fd : Fd) (request pending : Bytes) :
    (handleWebsocket fd request pending).wp httpSpec (fun _ v => v = .idle) .idle := by
  refine ⟨rfl, ?_, rfl⟩
  cases accepted : buildWebsocketAccept request acceptMax with
  | error ret => exact ⟨rfl, rfl⟩
  | ok accept => ?_
  show (if (upgradeText accept).length ≥ responseBufMax then _ else _ : HttpProg Int).wp _ _ _
  refine (Prog.wp_ite _ _ _ _ _ _).mpr ⟨fun _ => ⟨rfl, rfl⟩, fun _ => ?_⟩
  refine (Prog.wp_bind _ (sendAll _ _) _ _ _).mpr ?_
  refine (sendAll_only (P := Neutral) (fun _ => trivial) _).wp httpSpec_neutral fun ret => ?_
  refine (Prog.wp_ite _ _ _ _ _ _).mpr ⟨fun _ => ⟨rfl, rfl⟩, fun _ => ?_⟩
  exact ⟨rfl, rfl, rfl, rfl, rfl⟩

/-- The HTTP thread has no session in hand when it is done with a connection. -/
theorem handleClient_wp (indexHtml : Bytes) (fuel : Nat) (fd : Fd) :
    (handleClient indexHtml fuel fd).wp httpSpec (fun _ v => v = .idle) .idle := by
  have neutral : ∀ {α : Type} {p : HttpProg α}, p.Only Neutral →
      p.wp httpSpec (fun _ v => v = .idle) .idle := fun only =>
        only.wp httpSpec_neutral fun _ => rfl
  refine (Prog.wp_bind _ (recvRequest _ _ _) _ _ _).mpr ?_
  refine (recvRequest_only (P := Neutral) (fun _ _ _ => trivial) _ _).wp httpSpec_neutral
    fun received => ?_
  match received with
  | .gone => exact fun _ => rfl
  | .received _ none =>
      exact neutral
        ((answer_only (fun _ _ => trivial) (fun _ => trivial) _ _).bind fun _ => trivial)
  | .received request (some headerEnd) =>
      refine (Prog.wp_ite _ _ _ _ _ _).mpr ⟨fun _ => ?_, fun _ => ?_⟩
      · refine (Prog.wp_bind _ (upgradeRoute _ _ _) _ _ _).mpr ?_
        refine (Prog.wp_bind _ (handleWebsocket _ _ _) _ _ _).mpr ?_
        refine Prog.wp_mono httpSpec_mono ?_ (handleWebsocket_wp _ _ _)
        rintro ret _ rfl
        refine (Prog.wp_ite _ _ _ _ _ _).mpr ⟨fun _ _ => rfl, fun _ => rfl⟩
      · exact neutral (pageRoutes_only (fun _ _ => trivial) (fun _ => trivial) (fun _ => trivial)
          (fun _ _ _ => trivial) _ _ _ _ _ _)

/-- A pass of the loop stays within the stage in which its session streams. -/
theorem echoPass_wp (client : WebsocketClient) (response : Bytes) :
    (echoPass client response).wp wsSpec (fun _ v => v = .streaming) .streaming := by
  -- every call of a pass may answer anything and leaves the stage alone
  have only : (echoPass client response).Only fun c =>
      ∀ post : c.Answer → Stage → Prop, (∀ r, post r .streaming) → wsSpec c post .streaming := by
    refine echoPass_only (fun _ _ _ after => after) (fun _ _ _ _ _ after => after)
      (fun c other post after => ?_) (fun _ after => ⟨rfl, after⟩) (fun _ _ _ after => after) _ _
    cases c <;> first | exact other.elim | exact ⟨trivial, after⟩
  exact only.wp (fun c post skips after => skips post after) fun _ => rfl

theorem websocketLeave_wp (fd : Fd) :
    (websocketLeave fd).wp wsSpec (fun _ v => v = .idle) .streaming :=
  fun _ => ⟨rfl, rfl, rfl, rfl⟩

/-! ## One call -/

@[simp] theorem Stage.http_claimed {stage : Stage} : stage.http = .claimed ↔ stage = .claimed := by
  cases stage <;> simp [Stage.http]

@[simp] theorem Stage.http_enabled {stage : Stage} : stage.http = .enabled ↔ stage = .enabled := by
  cases stage <;> simp [Stage.http]

@[simp] theorem Stage.ws_streaming {stage : Stage} :
    stage.ws = .streaming ↔ stage = .streaming := by
  cases stage <;> simp [Stage.ws]

@[simp] theorem Stage.ws_disabled {stage : Stage} : stage.ws = .disabled ↔ stage = .disabled := by
  cases stage <;> simp [Stage.ws]

@[simp] theorem Stage.ws_purged {stage : Stage} : stage.ws = .purged ↔ stage = .purged := by
  cases stage <;> simp [Stage.ws]

/-- A call of the HTTP thread keeps the invariant and does to the stage the thread sees
what its spec says. The WebSocket thread sees only the creation of a thread. -/
theorem Inv.httpCall {s : Shared} (inv : Inv s) (oracle : Oracle) {c : HttpCall}
    {post : c.Answer → Stage → Prop} (spec : httpSpec c post s.stage.http) :
    Inv (exec .http oracle c s).2 ∧
      post (exec .http oracle c s).1 (exec .http oracle c s).2.stage.http ∧
      (c.createsThread = false → (exec .http oracle c s).2.stage.ws = s.stage.ws ∧
        (s.stage.ws ≠ .idle → (exec .http oracle c s).2.session = s.session)) := by
  obtain ⟨queue, flag, active, client, session, stage, history⟩ := s
  match c with
  | .fs _ | .recv _ _ _ | .send _ _ | .close _ => exact ⟨inv, spec _, fun _ => ⟨rfl, fun _ => rfl⟩⟩
  | .wsClientSet _ =>
      obtain ⟨claimed, after⟩ := spec
      exact ⟨⟨inv.flag, inv.active, inv.stale, inv.live, inv.opened, inv.taken, inv.fresh⟩,
        claimed ▸ after, fun _ => ⟨rfl, fun _ => rfl⟩⟩
  | .can .rxPurge =>
      obtain ⟨claimed, after⟩ := spec
      obtain rfl := Stage.http_claimed.mp claimed
      simp only [exec, Stage.after]
      exact ⟨⟨inv.flag, inv.active, fun _ => rfl, fun h => by simp at h, inv.opened, inv.taken,
        inv.fresh⟩, after, by simp⟩
  | .can (.rxStreamingSet true) =>
      obtain ⟨claimed, after⟩ := spec
      obtain rfl := Stage.http_claimed.mp claimed
      simp only [exec, Stage.after, Thread.sessionIn]
      -- the session begins with an empty queue and an empty history of its own
      have empty : queue.items = [] := inv.stale (.inr (.inl rfl))
      obtain ⟨noneTaken, noneKept⟩ := inv.fresh session (.inr ⟨rfl, rfl⟩)
      have closed : flag = false := by simpa using inv.flag
      refine ⟨⟨by simp, inv.active.trans (by simp), fun h => by simp at h, fun _ => ?_,
        fun k => ?_, inv.taken, fun k h => ?_⟩, after, by simp [Stage.ws]⟩
      · show takenIn session history ++ queue.items = keptIn session history
        rw [noneTaken, noneKept, empty, List.append_nil]
      · have before : openIn k history = (flag && k = session) := inv.opened k
        rw [closed, Bool.false_and] at before
        simp [openIn, before, eq_comm]
      · exact inv.fresh k (h.imp_right fun now => nomatch now.2)
  | .wsActiveCas =>
      obtain ⟨idle, won, lost⟩ := spec
      cases active with
      | true => exact ⟨inv, idle ▸ lost, fun _ => ⟨rfl, fun _ => rfl⟩⟩
      | false =>
          -- the claim succeeds only when no session is left
          have free : stage = .idle := by simpa using inv.active
          subst free
          simp only [exec, Stage.after]
          have closed : flag = false := by simpa using inv.flag
          refine ⟨⟨inv.flag.trans (by simp), by simp, fun _ => inv.stale (.inl rfl),
            fun h => by simp at h, fun k => ?_, inv.taken, fun k h => inv.fresh k (.inl ?_)⟩,
            won, by simp [Stage.ws]⟩
          · have before : openIn k history = (flag && k = session) := inv.opened k
            rw [closed, Bool.false_and] at before
            simp [before, closed]
          · rcases h with later | ⟨now, -⟩
            · exact Nat.lt_of_succ_lt later
            · exact now ▸ Nat.lt_succ_self session
  | .wsActiveClear =>
      obtain ⟨claimed, after⟩ := spec
      obtain rfl := Stage.http_claimed.mp claimed
      simp only [exec, Stage.after]
      exact ⟨⟨inv.flag.trans (by simp), by simp, fun _ => inv.stale (.inr (.inl rfl)),
        fun h => by simp at h, inv.opened, inv.taken,
        fun k h => inv.fresh k (h.imp_right fun now => nomatch now.2)⟩, after, by simp [Stage.ws]⟩
  | .wsThreadCreate =>
      obtain ⟨enabled, after⟩ := spec
      obtain rfl := Stage.http_enabled.mp enabled
      simp only [exec, Stage.after]
      exact ⟨⟨inv.flag.trans (by simp), inv.active.trans (by simp), fun h => by simp at h,
        fun _ => inv.live (.inl rfl), inv.opened, inv.taken,
        fun k h => inv.fresh k (h.imp_right fun now => nomatch now.2)⟩, after,
        by simp [HttpCall.createsThread]⟩

/-- The same of a call of the WebSocket thread, for the session it was created for. -/
theorem Inv.wsCall {s : Shared} (inv : Inv s) {session : Nat}
    (mine : s.stage.ws ≠ .idle → session = s.session) (oracle : Oracle) {c : HttpCall}
    {post : c.Answer → Stage → Prop} (spec : wsSpec c post s.stage.ws) :
    Inv (exec (.ws session) oracle c s).2 ∧
      post (exec (.ws session) oracle c s).1 (exec (.ws session) oracle c s).2.stage.ws ∧
      (exec (.ws session) oracle c s).2.stage.http = s.stage.http ∧
      (exec (.ws session) oracle c s).2.session = s.session ∧
      ((exec (.ws session) oracle c s).2.stage.ws ≠ .idle → s.stage.ws ≠ .idle) := by
  obtain ⟨queue, flag, active, client, current, stage, history⟩ := s
  cases c with
  | can c =>
    cases c with
    | rxGet =>
      obtain ⟨streaming, after⟩ := spec
      obtain rfl := Stage.ws_streaming.mp streaming
      obtain rfl : session = current := mine (by simp [Stage.ws])
      cases get : queue.get with
      | none => simp only [exec, get]; exact ⟨inv, after none, by simp⟩
      | some pair =>
          obtain ⟨frame, q⟩ := pair
          simp only [exec, get, Thread.sessionIn]
          -- the first frame kept and not yet taken leaves the queue
          have items := Fifo.get_items get
          have live : takenIn session history ++ queue.items = keptIn session history :=
            inv.live (.inr (.inl rfl))
          refine ⟨⟨inv.flag, inv.active, fun h => by simp at h, fun _ => ?_, inv.opened,
            fun k => ?_, fun k h => ?_⟩, after (some frame), by simp⟩
          · simp [takenIn, ← live, items]
          · by_cases own : session = k
            · subst own
              simp only [takenIn, keptIn_taken, if_true]
              exact ⟨q.items, by rw [List.append_assoc, ← live, items]; rfl⟩
            · simpa [takenIn, own] using inv.taken k
          · have later : session < k := h.elim id fun now => nomatch now.2
            simpa [takenIn, Nat.ne_of_lt later] using inv.fresh k h
    | rxStreamingSet enabled =>
      cases enabled with
      | true => exact spec.1.elim
      | false =>
          obtain ⟨streaming, after⟩ := spec
          obtain rfl := Stage.ws_streaming.mp streaming
          obtain rfl : session = current := mine (by simp [Stage.ws])
          simp only [exec, Stage.after, Thread.sessionIn]
          refine ⟨⟨by simp, inv.active.trans (by simp), fun h => by simp at h,
            fun _ => inv.live (.inr (.inl rfl)), fun k => ?_, inv.taken,
            fun k h => inv.fresh k (h.imp_right fun now => nomatch now.2)⟩, after,
            by simp [Stage.http, Stage.ws]⟩
          -- only the window of this session closes
          have before : openIn k history = (flag && k = session) := inv.opened k
          by_cases own : session = k
          · simp [openIn, own]
          · simp [openIn, own, before, Ne.symm own]
    | rxPurge =>
      obtain ⟨disabled, after⟩ := spec
      obtain rfl := Stage.ws_disabled.mp disabled
      simp only [exec, Stage.after]
      exact ⟨⟨inv.flag.trans (by simp), inv.active.trans (by simp), fun _ => rfl,
        fun h => by simp at h, inv.opened, inv.taken,
        fun k h => inv.fresh k (h.imp_right fun now => nomatch now.2)⟩, after,
        by simp [Stage.http, Stage.ws]⟩
    | rxPut | rxStreamingGet => exact spec.1.elim
    | _ => exact ⟨inv, spec.2 _, rfl, rfl, id⟩
  | wsActiveClear =>
      obtain ⟨purged, after⟩ := spec
      obtain rfl := Stage.ws_purged.mp purged
      simp only [exec, Stage.after]
      exact ⟨⟨inv.flag.trans (by simp), by simp, fun _ => inv.stale (.inr (.inr rfl)),
        fun h => by simp at h, inv.opened, inv.taken,
        fun k h => inv.fresh k (h.imp_right fun now => nomatch now.2)⟩, after,
        by simp [Stage.http, Stage.ws]⟩
  | recv | send | poll | close => exact ⟨inv, spec _, rfl, rfl, id⟩
  | fs | wsActiveCas | wsClientSet | wsThreadCreate => exact spec.elim

/-! ## Every run -/

/-- What holds of the machine: the rest of each thread's code keeps to its spec, and a
thread with a session in hand works for the current session. -/
structure SystemInv (s : System) : Prop where
  shared : Inv s.shared
  http : match s.http with
    | none => s.shared.stage.http = .idle
    | some rest => rest.wp httpSpec (fun _ v => v = .idle) s.shared.stage.http
  ws : match s.ws with
    | none => s.shared.stage.ws = .idle
    | some ⟨_, .loop rest⟩ => rest.wp wsSpec (fun _ v => v = .streaming) s.shared.stage.ws
    | some ⟨_, .leaving rest⟩ => rest.wp wsSpec (fun _ v => v = .idle) s.shared.stage.ws
  current : ∀ session code, s.ws = some ⟨session, code⟩ → s.shared.stage.ws ≠ .idle →
    session = s.shared.session

theorem arrive_frame (oracle : Oracle) (frame : CanFrame) (s : Shared) :
    (s.arrive oracle frame).stage = s.stage ∧ (s.arrive oracle frame).session = s.session := by
  obtain ⟨queue, flag, active, client, session, stage, history⟩ := s
  cases flag with
  | false => exact ⟨rfl, rfl⟩
  | true =>
      cases put : queue.put frame <;>
        simp [Shared.arrive, canRxCallback, Can.perform, bridge, Prog.lift, exec, put]

theorem SystemInv.step {indexHtml : Bytes} {s t : System} {e : Event} (inv : SystemInv s)
    (moved : Moved indexHtml s e t) : SystemInv t := by
  obtain ⟨shared, http, ws, current⟩ := inv
  cases moved with
  | accept idle =>
      simp only [idle] at http
      exact ⟨shared, by rw [http]; exact handleClient_wp _ _ _, ws, current⟩
  | done busy =>
      simp only [busy] at http
      exact ⟨shared, http, ws, current⟩
  | httpCall busy other =>
      rename_i oracle _ c k
      simp only [busy] at http
      obtain ⟨kept, after, seen⟩ := shared.httpCall oracle http
      obtain ⟨same, session⟩ := seen other
      refine ⟨kept, after, ?_, fun session' code running mine => ?_⟩
      · simpa only [same] using ws
      · rw [same] at mine
        rw [session mine]
        exact current session' code running mine
  | create busy =>
      rename_i oracle stack k
      simp only [busy] at http
      obtain ⟨kept, after, -⟩ := shared.httpCall oracle http
      -- a session begins where its first pass does
      have enabled : s.shared.stage = .enabled := Stage.http_enabled.mp http.1
      refine ⟨kept, after, ?_, ?_⟩
      · show (echoPass _ stack).wp wsSpec _ (Stage.ws (s.shared.stage.after .http .wsThreadCreate))
        rw [enabled]
        exact echoPass_wp _ _
      · rintro _ _ ⟨rfl⟩ -
        rfl
  | again busy next =>
      simp only [busy, Prog.wp_ret] at ws
      refine ⟨shared, http, by rw [ws]; exact echoPass_wp _ _, ?_⟩
      rintro _ _ ⟨rfl⟩ mine
      exact current _ _ busy mine
  | leave busy next =>
      simp only [busy, Prog.wp_ret] at ws
      refine ⟨shared, http, by rw [ws]; exact websocketLeave_wp _, ?_⟩
      rintro _ _ ⟨rfl⟩ mine
      exact current _ _ busy mine
  | loopCall busy | leaveCall busy =>
      rename_i oracle session c k
      simp only [busy] at ws
      obtain ⟨kept, after, same, unchanged, before⟩ := shared.wsCall (current _ _ busy) oracle ws
      refine ⟨kept, by simpa only [same] using http, after, ?_⟩
      rintro _ _ ⟨rfl⟩ mine
      rw [unchanged]
      exact current _ _ busy (before mine)
  | gone busy =>
      simp only [busy, Prog.wp_ret] at ws
      exact ⟨shared, http, ws, fun _ _ running => by cases running⟩
  | arrive =>
      rename_i oracle frame
      obtain ⟨stage, session⟩ := arrive_frame oracle frame s.shared
      refine ⟨shared.arrive oracle frame, ?_, ?_, ?_⟩
      · simpa only [stage] using http
      · simpa only [stage] using ws
      · simpa only [stage, session] using current

theorem systemInv_reach {indexHtml : Bytes} {s : System}
    (reach : (sessions indexHtml).Reach Machine.anyStep s) : SystemInv s := by
  refine reach.invariant (I := SystemInv) ?_ fun _ _ _ inv _ hstep => inv.step (step_moved hstep)
  rintro _ rfl
  exact {
    shared := {
      flag := by simp
      active := by simp
      stale := fun _ => rfl
      live := fun h => by simp at h
      opened := fun _ => rfl
      taken := fun _ => List.prefix_rfl
      fresh := fun _ _ => ⟨rfl, rfl⟩ }
    http := rfl
    ws := rfl
    current := fun _ _ h => nomatch h }

/-- In every run, what a session takes out of the queue is, from the first on and in
order, what the callback has put there since the session set the flag and before it
cleared it; and every frame the bus can carry that is taken is printed. -/
theorem sessions_isolated {indexHtml : Bytes} {s : System}
    (reach : (sessions indexHtml).Reach Machine.anyStep s) (k : Nat) :
    takenIn k s.shared.history <+: keptIn k s.shared.history ∧
      ∀ (frame : CanFrame) (response : Bytes), frame.dlc.toNat ≤ 15 →
        (formatRxFrame frame response wsResponseMax).Returns fun reply =>
          reply.1 = 0 ∧ rxHeadText frame <+: reply.2 :=
  ⟨(systemInv_reach reach).shared.taken k, fun _ response dlc =>
    Can.formatRxFrame_returns dlc response⟩

/-- Every call meets a world in which the client has just sent an upgrade request. -/
def upgradeOracle : Oracle := fun c =>
  (World.serve c { inbound := upgradeRequest, disk := Disk.blank }).1

/-- A frame arrives before the session; another once its thread is there, which takes it. -/
def upgradeRun : List Event :=
  [.arrive upgradeOracle { id := 9 }, .accept 0 3] ++
    List.replicate 7 (.http upgradeOracle []) ++
    [.arrive upgradeOracle { id := 5 }, .ws upgradeOracle]

theorem sessions_isolated_upgrade : ∃ s, (sessions []).runs {} upgradeRun = some s ∧
    takenIn 1 s.shared.history = [{ id := 5 }] ∧
    takenIn 1 s.shared.history <+: keptIn 1 s.shared.history := by
  have took : ((sessions []).runs {} upgradeRun).map (fun s => takenIn 1 s.shared.history) =
      some [{ id := 5 }] := by decide +kernel
  obtain ⟨s, run, taken⟩ := Option.map_eq_some_iff.mp took
  have start : (sessions []).Reach Machine.anyStep {} := .start rfl
  exact ⟨s, run, taken, (sessions_isolated (start.runs run) 1).1⟩

end PicoCan.Http
