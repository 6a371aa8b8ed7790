import PicoCan.Device.Machine
import PicoCan.Http.Exclusive

/-!
# The device as the observed sessions

The machine of the sessions answers every call into the bridge that is not about the RX
queue from an oracle, and so follows the device step by step, with the answers that the
bridge gives there. What is proved of the sessions for every oracle holds of the device.
-/

namespace PicoCan.Device

open Calls Machine
open PicoCan.Can (Bridge CanCall CanFrame Outcome ParseResult)
open PicoCan.Http (Descriptors Fd HttpCall Ledger NotRx Observed Oracle Party SessionThread)

/-! ## One call -/

/-- The shared state of the sessions shows what the device has, and the ledger's table the
descriptors that are open. -/
structure Shows (s : Shared) (h : Http.Shared) (d : Descriptors) : Prop where
  queue : h.rxQueue = s.bridge.rxQueue
  streaming : h.rxStreaming = s.bridge.rxStreaming
  active : h.wsActive = s.wsActive
  client : h.wsClient = s.wsClient
  fds : ∀ fd, (d.table fd).isSome = s.openFds fd

/-- The call closes the descriptor. -/
def closes (c : HttpCall) (fd : Fd) : Bool :=
  match c with
  | .close closed => fd = closed
  | _ => false

theorem ledger_table (party : Party) (n : Nat) (c : HttpCall) (h : Http.Shared) (l : Ledger)
    (fd : Fd) : ((l.call party n c h).fds.table fd).isSome =
      (!closes c fd && (l.fds.table fd).isSome) := by
  have closed : ∀ f, ((l.fds.close party f).table fd).isSome =
      (!decide (fd = f) && (l.fds.table fd).isSome) := by
    intro f
    unfold Descriptors.close
    split
    · next notOpen =>
        by_cases same : fd = f
        · subst same; simp [notOpen]
        · simp [same]
    · by_cases same : fd = f <;> simp [same]
  unfold Ledger.call
  split
  · exact closed _
  · split <;> rfl
  · unfold Ledger.release
    split <;> rfl
  · rfl
  · rfl
  · next notClose _ _ _ _ =>
      have other : closes c fd = false := by
        cases c with
        | close f => exact (notClose f rfl).elim
        | _ => rfl
      rw [other, Bool.not_false, Bool.true_and]

section Call

variable {parse : Bytes → ParseResult} {s s' : Shared} {h : Http.Shared} {d : Descriptors}

/-- A call that is not about the RX queue leaves it and its flag alone. -/
theorem canExec_notRx {t : Can.Thread} {c : CanCall} (other : NotRx c) {o : Outcome}
    {b b' : Bridge} {r : c.Answer} (hexec : Can.exec parse t c o b = some (r, b')) :
    b'.rxQueue = b.rxQueue ∧ b'.rxStreaming = b.rxStreaming := by
  cases c <;> simp only [Can.exec] at hexec
  case rxPut | rxGet | rxPurge | rxStreamingGet | rxStreamingSet => exact other.elim
  case numUsedGet q | numFreeGet q => cases q <;> cases hexec <;> exact ⟨rfl, rfl⟩
  case canGetState | canAddRxFilter | canSendWait | mutexLock | mutexUnlock | txPut | txGet =>
    split at hexec <;> cases hexec <;> exact ⟨rfl, rfl⟩
  all_goals cases hexec; exact ⟨rfl, rfl⟩

/-- The oracle that answers one call with `r`. -/
theorem oracle_answers (oracle : Oracle) (c : HttpCall) (r : c.Answer) :
    ∃ oracle' : Oracle, oracle' c = r := by
  classical
  exact ⟨fun c' => if same : c' = c then same ▸ r else oracle c', dif_pos rfl⟩

/-- The sessions can make the call as the device does. -/
theorem Shows.exec (shows : Shows s h d) (t : Http.Thread) {o : Outcome} {oracle : Oracle}
    {c : HttpCall} {r : c.Answer} (hexec : exec parse o oracle c s = some (r, s')) :
    ∃ oracle', (Http.exec t oracle' c h).1 = r ∧
      ∀ d' : Descriptors, (∀ fd, (d'.table fd).isSome =
        (!closes c fd && (d.table fd).isSome)) → Shows s' (Http.exec t oracle' c h).2 d' := by
  obtain ⟨queue, streaming, active, client, fds⟩ := shows
  cases c with
  | can c =>
      obtain ⟨⟨r, b⟩, bridged, made⟩ := Option.map_eq_some_iff.mp hexec
      cases made
      have opened : ∀ d' : Descriptors, (∀ fd, (d'.table fd).isSome =
          (!closes (.can c) fd && (d.table fd).isSome)) →
          ∀ fd, (d'.table fd).isSome = s.openFds fd := fun d' same fd => (same fd).trans (fds fd)
      by_cases other : NotRx c
      · -- a call the sessions leave to the oracle
        obtain ⟨sameQueue, sameFlag⟩ := canExec_notRx other bridged
        obtain ⟨oracle', answers⟩ := oracle_answers oracle (.can c) r
        have made : Http.exec t oracle' (.can c) h = (r, h) := by
          cases c <;> first | exact other.elim | exact congrArg (·, h) answers
        refine ⟨oracle', by rw [made], fun d' same => ?_⟩
        rw [made]
        exact ⟨queue.trans sameQueue.symm, streaming.trans sameFlag.symm, active, client,
          opened d' same⟩
      · refine ⟨oracle, ?_⟩
        cases c <;> first | exact absurd trivial other | simp only [Can.exec] at bridged
        case rxPut frame =>
          split at bridged
          · next put =>
              cases bridged
              have made : Http.exec t oracle (.can (.rxPut frame)) h = (-Can.eNoMsg, h) := by
                simp only [Http.exec, queue, put]
              rw [made]
              exact ⟨rfl, fun d' same => ⟨queue, streaming, active, client, opened d' same⟩⟩
          · next q put =>
              cases bridged
              have made : Http.exec t oracle (.can (.rxPut frame)) h =
                  ((0 : Int), { h with rxQueue := q }) := by
                simp only [Http.exec, queue, put]
              rw [made]
              exact ⟨rfl, fun d' same => ⟨rfl, streaming, active, client, opened d' same⟩⟩
        case rxGet =>
          split at bridged
          · next get =>
              cases bridged
              have made : Http.exec t oracle (.can .rxGet) h = (none, h) := by
                simp only [Http.exec, queue, get]
              rw [made]
              exact ⟨rfl, fun d' same => ⟨queue, streaming, active, client, opened d' same⟩⟩
          · next frame q get =>
              cases bridged
              have made : Http.exec t oracle (.can .rxGet) h = (some frame, { h with
                  rxQueue := q, history := .taken (t.sessionIn h) frame :: h.history }) := by
                simp only [Http.exec, queue, get]
              rw [made]
              exact ⟨rfl, fun d' same => ⟨rfl, streaming, active, client, opened d' same⟩⟩
        case rxPurge =>
          cases bridged
          exact ⟨rfl, fun d' same => ⟨rfl, streaming, active, client, opened d' same⟩⟩
        case rxStreamingGet =>
          cases bridged
          exact ⟨streaming, fun d' same => ⟨queue, streaming, active, client, opened d' same⟩⟩
        case rxStreamingSet =>
          cases bridged
          exact ⟨rfl, fun d' same => ⟨queue, rfl, active, client, opened d' same⟩⟩
  | close f =>
      cases hexec
      refine ⟨oracle, rfl, fun d' same => ⟨queue, streaming, active, client, fun fd => ?_⟩⟩
      rw [same fd, fds fd]
      by_cases here : fd = f <;> simp [closes, here]
  | wsActiveCas =>
      simp only [Device.exec] at hexec
      cases held : s.wsActive with
      | true =>
          rw [held, if_pos rfl] at hexec
          cases hexec
          have made : Http.exec t oracle .wsActiveCas h = (false, h) := by
            simp only [Http.exec, active, held, if_true]
          exact ⟨oracle, made ▸ rfl, fun d' same => made ▸ ⟨queue, streaming, active, client,
            fun fd => (same fd).trans (fds fd)⟩⟩
      | false =>
          rw [held] at hexec
          cases hexec
          have made : Http.exec t oracle .wsActiveCas h = (true, { h with
              wsActive := true, session := h.session + 1
              stage := h.stage.after t .wsActiveCas }) := by
            simp only [Http.exec, active, held, Bool.false_eq_true, if_false]
          exact ⟨oracle, made ▸ rfl, fun d' same => made ▸ ⟨queue, streaming, rfl, client,
            fun fd => (same fd).trans (fds fd)⟩⟩
  | wsActiveClear =>
      cases hexec
      exact ⟨oracle, rfl, fun d' same => ⟨queue, streaming, rfl, client,
        fun fd => (same fd).trans (fds fd)⟩⟩
  | wsClientSet client' =>
      cases hexec
      exact ⟨oracle, rfl, fun d' same => ⟨queue, streaming, active, rfl,
        fun fd => (same fd).trans (fds fd)⟩⟩
  | fs | recv | send | poll | wsThreadCreate =>
      cases hexec
      exact ⟨oracle, rfl, fun d' same => ⟨queue, streaming, active, client,
        fun fd => (same fd).trans (fds fd)⟩⟩

/-- The driver's callback in the sessions is the one in the device. -/
theorem Shows.arrive (shows : Shows s h d) {frame : CanFrame}
    (accepted : s.bridge.rxFilter.any (·.accepts frame) = true) (oracle : Oracle) :
    Shows { s with bridge := { s.bridge with rxQueue := s.bridge.offered frame } }
      (h.arrive oracle frame) d := by
  obtain ⟨queue, streaming, active, client, fds⟩ := shows
  have arrived : h.arrive oracle frame = { h with
      rxQueue := s.bridge.offered frame
      history := .arrived frame (h.rxQueue.items.length = Can.canRxQueueLen) :: h.history } := by
    cases flag : s.bridge.rxStreaming with
    | false =>
        simp [Http.Shared.arrive, Can.canRxCallback, Can.perform, Http.bridge, Prog.lift,
          Http.exec, Bridge.offered, streaming, flag, ← queue]
    | true =>
        cases put : h.rxQueue.put frame <;>
          simp [Http.Shared.arrive, Can.canRxCallback, Can.perform, Http.bridge, Prog.lift,
            Http.exec, Bridge.offered, streaming, flag, accepted, put, ← queue]
  rw [arrived]
  exact ⟨rfl, streaming, active, client, fds⟩

end Call

/-! ## One step -/

/-- The observed sessions show the device: the shared state, the open descriptors, and the
code of both server threads. -/
structure Follows (s : State) (o : Observed) : Prop where
  shared : Shows s.shared o.system.shared o.ledger.fds
  http : o.system.http = s.http
  ws : o.system.ws.map SessionThread.code = s.ws
  worker : s.worker.Only NotRx

theorem canTxThread_notRx : Can.canTxThread.Only NotRx := by
  refine ⟨trivial, fun frame => ⟨trivial, fun _ => ⟨trivial, fun sent => ?_⟩⟩⟩
  cases sent with
  | none => exact ⟨trivial, fun _ => ⟨trivial, fun _ => trivial⟩⟩
  | some ret => exact ⟨trivial, fun _ => trivial⟩

/-- The sessions take no part in the step. -/
theorem Follows.idle {s t : State} {o : Observed} (follows : Follows s o)
    (queue : t.shared.bridge.rxQueue = s.shared.bridge.rxQueue)
    (streaming : t.shared.bridge.rxStreaming = s.shared.bridge.rxStreaming)
    (active : t.shared.wsActive = s.shared.wsActive)
    (client : t.shared.wsClient = s.shared.wsClient)
    (fds : t.shared.openFds = s.shared.openFds) (http : t.http = s.http) (ws : t.ws = s.ws)
    (worker : t.worker.Only NotRx) : Follows t o where
  shared := ⟨queue ▸ follows.shared.queue, streaming ▸ follows.shared.streaming,
    active ▸ follows.shared.active, client ▸ follows.shared.client, fds ▸ follows.shared.fds⟩
  http := http ▸ follows.http
  ws := ws ▸ follows.ws
  worker := worker

section Step

variable {parse : Bytes → ParseResult} {indexHtml : Bytes} {s t : State} {o o' : Observed}

/-- The thread whose code the device has runs for some session. -/
theorem Follows.session (follows : Follows s o) {code : Http.SessionCode}
    (busy : s.ws = some code) : ∃ session, o.system.ws = some ⟨session, code⟩ := by
  have same := follows.ws
  rw [busy] at same
  obtain ⟨⟨session, code'⟩, running, rfl⟩ := Option.map_eq_some_iff.mp same
  exact ⟨session, running⟩

theorem observe_step {e : Http.Event} {system : Http.System} (admitted : o.admits e = true)
    (moved : Http.step indexHtml o.system e = some system) :
    (Http.observed indexHtml).step o e = some ⟨system, o.ledger.note o.system e⟩ := by
  show (if o.admits e then _ else _) = _
  rw [if_pos admitted, moved]
  rfl

/-- Every call meets a world with a blank disk and nothing to receive. -/
def blankOracle : Oracle := fun c => (Http.World.serve c { disk := Http.Disk.blank }).1

theorem follows_step {e : Event} (follows : Follows s o) (moved : Moved parse indexHtml s e t) :
    ∃ o', (Http.observed indexHtml).Steps anyStep o o' ∧ Follows t o' := by
  have stays : Follows t o → ∃ o', (Http.observed indexHtml).Steps anyStep o o' ∧ Follows t o' :=
    fun follows => ⟨o, .refl, follows⟩
  have shared := follows.shared
  cases moved with
  | accept idle unused =>
      rename_i fuel fd
      have notOpen : o.ledger.fds.table fd = none := by
        simpa [unused] using shared.fds fd
      have step : Http.step indexHtml o.system (.accept fuel fd) =
          some { o.system with http := some (Http.handleClient indexHtml fuel fd) } := by
        simp only [Http.step, follows.http, idle]
      refine ⟨_, .one trivial (observe_step (by simp [Observed.admits, notOpen]) step),
        ⟨shared.queue, shared.streaming, shared.active, shared.client, fun f => ?_⟩, rfl,
        follows.ws, follows.worker⟩
      by_cases same : f = fd
      · simp [Ledger.note, Descriptors.accept, same]
      · simpa [Ledger.note, Descriptors.accept, same] using shared.fds f
  | done busy =>
      rename_i oracle stack
      have running := follows.http.trans busy
      have step : Http.step indexHtml o.system (.http oracle stack) =
          some { o.system with http := none } := by
        simp only [Http.step, running]
      refine ⟨_, .one trivial (observe_step ?_ step), ⟨?_, rfl, follows.ws, follows.worker⟩⟩
      · simp [Observed.admits, Http.System.stuck, running]
      · simpa only [Ledger.note, running] using shared
  | httpCall busy other hexec =>
      rename_i oracle stack c k r shared'
      have running := follows.http.trans busy
      obtain ⟨oracle', answers, after⟩ := shared.exec .http hexec
      have step : Http.step indexHtml o.system (.http oracle' stack) = some
          { o.system with shared := (Http.exec .http oracle' c o.system.shared).2
                          http := some (k r) } := by
        simp only [Http.step, running, other, answers]
        rfl
      refine ⟨_, .one trivial (observe_step ?_ step), ⟨?_, rfl, follows.ws, follows.worker⟩⟩
      · simp [Observed.admits, Http.System.stuck, running]
      · simp only [Ledger.note, running]
        exact after _ (ledger_table _ _ _ _ _)
  | create busy =>
      rename_i outcome oracle stack k
      have running := follows.http.trans busy
      have step : Http.step indexHtml o.system (.http oracle stack) = some
          { shared := (Http.exec .http oracle .wsThreadCreate o.system.shared).2
            http := some (k ())
            ws := some (Http.newThread
              (Http.exec .http oracle .wsThreadCreate o.system.shared).2 stack) } := by
        simp only [Http.step, running, HttpCall.createsThread, if_true]
      refine ⟨_, .one trivial (observe_step ?_ step), ⟨?_, rfl, ?_, follows.worker⟩⟩
      · simp [Observed.admits, Http.System.stuck, running]
      · simp only [Ledger.note, running]
        refine ⟨shared.queue, shared.streaming, shared.active, shared.client, fun fd => ?_⟩
        rw [ledger_table]
        exact shared.fds fd
      · show some (Http.SessionCode.loop (Http.echoPass o.system.shared.wsClient stack)) = _
        rw [shared.client]
  | again busy next =>
      rename_i outcome oracle pass response
      obtain ⟨session, running⟩ := follows.session busy
      have step : Http.step indexHtml o.system (.ws oracle) = some { o.system with
          ws := some ⟨session, .loop (Http.echoPass pass.client response)⟩ } := by
        simp only [Http.step, running, next]
      refine ⟨_, .one trivial (observe_step rfl step), ⟨?_, follows.http, rfl, follows.worker⟩⟩
      simpa only [Ledger.note, running] using shared
  | leave busy next =>
      rename_i outcome oracle pass
      obtain ⟨session, running⟩ := follows.session busy
      have step : Http.step indexHtml o.system (.ws oracle) = some { o.system with
          ws := some ⟨session, .leaving (Http.websocketLeave pass.client.fd)⟩ } := by
        simp only [Http.step, running, next]
      refine ⟨_, .one trivial (observe_step rfl step), ⟨?_, follows.http, rfl, follows.worker⟩⟩
      simpa only [Ledger.note, running] using shared
  | loopCall busy hexec =>
      rename_i outcome oracle c k r shared'
      obtain ⟨session, running⟩ := follows.session busy
      obtain ⟨oracle', answers, after⟩ := shared.exec (.ws session) hexec
      have step : Http.step indexHtml o.system (.ws oracle') = some { o.system with
          shared := (Http.exec (.ws session) oracle' c o.system.shared).2
          ws := some ⟨session, .loop (k r)⟩ } := by
        simp only [Http.step, running, answers]
      refine ⟨_, .one trivial (observe_step rfl step), ⟨?_, follows.http, rfl, follows.worker⟩⟩
      simp only [Ledger.note, running]
      exact after _ (ledger_table _ _ _ _ _)
  | leaveCall busy hexec =>
      rename_i outcome oracle c k r shared'
      obtain ⟨session, running⟩ := follows.session busy
      obtain ⟨oracle', answers, after⟩ := shared.exec (.ws session) hexec
      have step : Http.step indexHtml o.system (.ws oracle') = some { o.system with
          shared := (Http.exec (.ws session) oracle' c o.system.shared).2
          ws := some ⟨session, .leaving (k r)⟩ } := by
        simp only [Http.step, running, answers]
      refine ⟨_, .one trivial (observe_step rfl step), ⟨?_, follows.http, rfl, follows.worker⟩⟩
      simp only [Ledger.note, running]
      exact after _ (ledger_table _ _ _ _ _)
  | gone busy =>
      rename_i outcome oracle
      obtain ⟨session, running⟩ := follows.session busy
      have step : Http.step indexHtml o.system (.ws oracle) =
          some { o.system with ws := none } := by
        simp only [Http.step, running]
      refine ⟨_, .one trivial (observe_step rfl step), ⟨?_, follows.http, rfl, follows.worker⟩⟩
      simpa only [Ledger.note, running] using shared
  | workerCall busy hexec =>
      have only := follows.worker
      rw [busy] at only
      obtain ⟨queue, streaming⟩ := canExec_notRx only.1 hexec
      exact stays (follows.idle queue streaming rfl rfl rfl rfl rfl (only.2 _))
  | round busy => exact stays (follows.idle rfl rfl rfl rfl rfl rfl rfl canTxThread_notRx)
  | bus sending => exact stays (follows.idle rfl rfl rfl rfl rfl rfl rfl follows.worker)
  | frame =>
      rename_i frame
      cases accepted : s.shared.bridge.rxFilter.any (·.accepts frame) with
      | false =>
          -- the driver's filter keeps the frame away from the callback
          refine stays (follows.idle ?_ rfl rfl rfl rfl rfl rfl follows.worker)
          show s.shared.bridge.offered frame = s.shared.bridge.rxQueue
          simp [Bridge.offered, accepted]
      | true =>
          have step : Http.step indexHtml o.system (.arrive blankOracle frame) =
              some { o.system with shared := o.system.shared.arrive blankOracle frame } := rfl
          exact ⟨_, .one trivial (observe_step rfl step),
            ⟨shared.arrive accepted blankOracle, follows.http, follows.ws, follows.worker⟩⟩

end Step

/-- What the device does, the observed sessions can do as well. -/
theorem device_follows (parse : Bytes → ParseResult) (indexHtml : Bytes) (init : Bridge → Prop)
    (clean : ∀ b, init b → b.rxQueue = .empty ∧ b.rxStreaming = false) :
    Simulates (device parse indexHtml init) anyStep (Http.observed indexHtml) anyStep Follows := by
  constructor
  · rintro _ ⟨b, started, rfl⟩
    obtain ⟨queue, streaming⟩ := clean b started
    exact ⟨{}, rfl, ⟨queue.symm, streaming.symm, rfl, rfl, fun _ => rfl⟩, rfl, rfl,
      canTxThread_notRx⟩
  · intro s e t o _ _ follows _ hstep
    exact follows_step follows (step_moved parse hstep)

end PicoCan.Device
