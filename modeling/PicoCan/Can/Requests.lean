import PicoCan.Can.Format
import PicoCan.Can.Threads

/-!
# What a request does

`Did` lists everything one job of the WebSocket thread can do to its part of
the bridge, together with the reply it leaves: one constructor for each exit of
the code. `did_contract` proves the list complete, from the code, by weakest
preconditions; the claims about runs are then case analyses of `Did`.

`Applied` and `Recovered` do the same for the two critical sections of
`handle_can_config_set`.
-/

namespace PicoCan.Can

open Calls

/-! ## Requests and replies -/

/-- What a text message asks for, before the bridge looks at its own state. -/
inductive Request
  | tooLarge
  | badJson (e : Errno)
  | unsupported
  | status
  | configSet (msg : CanJsonMessage) (fields : CanJsonField → Bool)
  | tx (msg : CanJsonMessage) (fields : CanJsonField → Bool)

def requestOf (parse : Bytes → ParseResult) (payload : Bytes) : Request :=
  if payload.length ≥ canWsJsonMax then .tooLarge
  else
    match parse payload with
    | .error e => .badJson e
    | .fields fields msg =>
        if fields .type then
          if msg.type = some (lit "can.status") ∨ msg.type = some (lit "can.config.get") then
            .status
          else if msg.type = some (lit "can.config.set") then .configSet msg fields
          else if msg.type ≠ some (lit "can.tx") then .unsupported
          else .tx msg fields
        else .tx msg fields

/-- The configuration a request asks for: fields it does not give keep their
value. `none` if the bitrate is not positive or the mode is not supported. -/
def configTarget (msg : CanJsonMessage) (fields : CanJsonField → Bool) (mode : CanMode)
    (bitrate : UInt32) : Option (CanMode × UInt32) :=
  let named := if fields .mode then canModeFromName msg.mode mode else (0, mode)
  if fields .bitrate ∧ msg.bitrate.toInt ≤ 0 then none
  else if named.1 < 0 then none
  else some (named.2, if fields .bitrate then msg.bitrate.toUInt32 else bitrate)

/-- A text printed into the response buffer of the WebSocket loop. -/
def replyOf (text : Bytes) : Reply := (text.length, text.take 511)

theorem snprintk_eq (response text : Bytes) :
    snprintk response wsResponseMax text = replyOf text := by
  simp [snprintk, printAt, wsResponseMax, replyOf]

theorem wsReply_eq (response : Bytes) (code message : String) (err : Int) :
    wsReply response wsResponseMax code message err = replyOf (errorText code message err) :=
  snprintk_eq response _

theorem replyOf_begins {start text : Bytes} (begins : start <+: text)
    (fits : start.length ≤ 511) : start <+: (replyOf text).2 :=
  List.prefix_take_iff.mpr ⟨begins, fits⟩

/-- Answers with codes that are no prefix of each other differ. -/
theorem errorReply_ne {code code' message message' : String} {err err' : Int}
    (short : (errorHead ++ lit code).length ≤ 511)
    (short' : (errorHead ++ lit code').length ≤ 511)
    (differ : ¬ (errorHead ++ lit code <+: errorHead ++ lit code' ∨
      errorHead ++ lit code' <+: errorHead ++ lit code)) :
    replyOf (errorText code message err) ≠ replyOf (errorText code' message' err') := by
  intro same
  have first := replyOf_begins (errorText_begins code message err) short
  have second := replyOf_begins (errorText_begins code' message' err') short'
  rw [← same] at second
  exact differ (List.prefix_or_prefix_of_prefix first second)

/-- A status object is no error object. -/
theorem statusReply_ne {s : Status} {code message : String} {err : Int} :
    replyOf (statusText s) ≠ replyOf (errorText code message err) := by
  intro same
  have first := replyOf_begins (statusText_begins s) (by decide)
  have second := replyOf_begins
    ((List.prefix_append _ _).trans (errorText_begins code message err)) (by decide)
  rw [← same] at second
  exact absurd (List.prefix_or_prefix_of_prefix first second) (by decide)

/-- The two answers of `can_bridge_format_status`. -/
inductive StatusReply (v : WsView) : Reply → Prop
  | status (s : Status) (ready : s.ready = v.canReady) (mode : s.mode = v.currentMode)
      (bitrate : s.bitrate = v.currentBitrate) : StatusReply v (replyOf (statusText s))
  | failed (err : Int) (neg : err < 0) : StatusReply v
      (replyOf (errorText "can_status_failed" "Could not read CAN controller status" err))

/-! ## The critical sections of `handle_can_config_set` -/

/-- The controller after a `can_stop` that left it stopped. -/
structure Halted (before after : Controller) : Prop where
  stopped : after.started = false
  mode : after.mode = before.mode
  bitrate : after.bitrate = before.bitrate
  gap : before.started = true → after.gap = true
  same : before.started = false → after = before

/-- The view after the section's `can_stop`, with the given controller. -/
def WsView.counted (v : WsView) (ctrl : Controller) : WsView :=
  { v with ctrl := ctrl, stopCalls := v.stopCalls + 1 }

/-- The view after the section has recorded a new configuration. -/
def WsView.committed (v : WsView) (mode : CanMode) (bitrate : UInt32) (ctrl : Controller) :
    WsView :=
  { v.counted ctrl with currentMode := mode, currentBitrate := bitrate, canReady := true }

section Sections

variable (ok : WsView → CanCall → Outcome → Prop)

/-- What the section between `k_mutex_lock` and `out` can do: return value and
view at `out`. -/
inductive Applied (mode : CanMode) (bitrate : UInt32) (v : WsView) : Int → WsView → Prop
  -- `can_stop` failed, or answered "already" on a running controller
  | untouched (ret : Int) (neg : ret < 0) (running : v.ctrl.started = true) :
      Applied mode bitrate v ret (v.counted v.ctrl)
  | modeRejected (ret : Int) (neg : ret < 0) (c : Controller) (halted : Halted v.ctrl c) :
      Applied mode bitrate v ret (v.counted c)
  | bitrateRejected (ret : Int) (neg : ret < 0) (c : Controller) (halted : Halted v.ctrl c) :
      Applied mode bitrate v ret (v.counted { c with mode := mode })
  | startFailed (ret : Int) (neg : ret < 0) (c : Controller) (halted : Halted v.ctrl c) :
      Applied mode bitrate v ret (v.counted { c with mode := mode, bitrate := bitrate })
  | started (c : Controller) (halted : Halted v.ctrl c) :
      Applied mode bitrate v 0 (v.committed mode bitrate
        { c with started := true, mode := mode, bitrate := bitrate, gap := false })
  -- `can_start` answered "already" on a stopped controller
  | pretended (c : Controller) (halted : Halted v.ctrl c) (o : Outcome)
      (admitted : ok (v.counted { c with mode := mode, bitrate := bitrate })
        (.canStart .apply) o) (e : Errno) (failed : o.fail = some e)
      (already : e.ret = -eAlready) :
      Applied mode bitrate v (-eAlready) (v.committed mode bitrate
        { c with mode := mode, bitrate := bitrate })

/-- What the error exit can do: the view when it is done. -/
inductive Recovered (v : WsView) : WsView → Prop
  | running (started : v.ctrl.started = true) : Recovered v { v with canReady := true }
  | restarted (stopped : v.ctrl.started = false) (o : Outcome)
      (admitted : ok { v with held := true } (.canStart .recovery) o)
      (success : o.fail = none) :
      Recovered v { v with
        ctrl := { v.ctrl with started := true, gap := false }, canReady := true }
  | pretended (stopped : v.ctrl.started = false) (o : Outcome)
      (admitted : ok { v with held := true } (.canStart .recovery) o) (e : Errno)
      (failed : o.fail = some e) (already : e.ret = -eAlready) :
      Recovered v { v with ctrl := { v.ctrl with gap := false }, canReady := true }
  | failed (stopped : v.ctrl.started = false) (o : Outcome)
      (admitted : ok { v with held := true } (.canStart .recovery) o) (e : Errno)
      (failed : o.fail = some e) (other : e.ret ≠ -eAlready) :
      Recovered v { v with ctrl := { v.ctrl with gap := false } }

end Sections

/-! ## Everything a job can do -/

/-- One constructor for each exit of a job: the view before, the reply, the view
afterwards. -/
inductive Did (parse : Bytes → ParseResult) (ok : WsView → CanCall → Outcome → Prop) :
    Job → WsView → Reply → WsView → Prop
  | nextRx {v : WsView} {reply : Reply} : Did parse ok .nextRx v reply v
  | setRxStreaming {v : WsView} {enabled : Bool} {reply : Reply} :
      Did parse ok (.setRxStreaming enabled) v reply v
  | notReady {payload : Bytes} {v : WsView} (off : v.canReady = false) :
      Did parse ok (.text payload) v
        (replyOf (errorText "can_not_ready" "CAN controller is not ready" (-eNoDev))) v
  | tooLarge {payload : Bytes} {v : WsView} (on : v.canReady = true)
      (asked : requestOf parse payload = .tooLarge) :
      Did parse ok (.text payload) v (replyOf (errorText "payload_too_large"
        "WebSocket JSON payload is too large" (-eMsgSize))) v
  | badJson {payload : Bytes} {v : WsView} {e : Errno} (on : v.canReady = true)
      (asked : requestOf parse payload = .badJson e) :
      Did parse ok (.text payload) v (replyOf (errorText "invalid_json"
        "Could not parse CAN JSON payload" e.ret)) v
  | unsupported {payload : Bytes} {v : WsView} (on : v.canReady = true)
      (asked : requestOf parse payload = .unsupported) :
      Did parse ok (.text payload) v (replyOf (errorText "unsupported_type"
        "Unsupported WebSocket message type" (-eNotSup))) v
  | status {payload : Bytes} {v : WsView} {reply : Reply} (on : v.canReady = true)
      (asked : requestOf parse payload = .status) (answer : StatusReply v reply) :
      Did parse ok (.text payload) v reply v
  | badConfig {payload : Bytes} {v : WsView} {msg : CanJsonMessage}
      {fields : CanJsonField → Bool} {code message : String} {err : Int}
      (on : v.canReady = true) (asked : requestOf parse payload = .configSet msg fields)
      (invalid : configTarget msg fields v.currentMode v.currentBitrate = none)
      (text : (code, message) = ("invalid_bitrate", "CAN bitrate must be positive") ∨
        (code, message) = ("invalid_mode",
          "CAN mode must be normal, loopback or listen-only")) :
      Did parse ok (.text payload) v (replyOf (errorText code message err)) v
  | configured {payload : Bytes} {v v₁ : WsView} {msg : CanJsonMessage}
      {fields : CanJsonField → Bool} {mode : CanMode} {bitrate : UInt32} {ret : Int}
      {reply : Reply} (on : v.canReady = true)
      (asked : requestOf parse payload = .configSet msg fields)
      (target : configTarget msg fields v.currentMode v.currentBitrate = some (mode, bitrate))
      (applied : Applied ok mode bitrate { v with canReady := false, held := true } ret v₁)
      (success : 0 ≤ ret) (answer : StatusReply { v₁ with held := false } reply) :
      Did parse ok (.text payload) v reply { v₁ with held := false }
  | configFailed {payload : Bytes} {v v₁ v₂ : WsView} {msg : CanJsonMessage}
      {fields : CanJsonField → Bool} {mode : CanMode} {bitrate : UInt32} {ret : Int}
      (on : v.canReady = true) (asked : requestOf parse payload = .configSet msg fields)
      (target : configTarget msg fields v.currentMode v.currentBitrate = some (mode, bitrate))
      (applied : Applied ok mode bitrate { v with canReady := false, held := true } ret v₁)
      (failure : ret < 0) (recovered : Recovered ok { v₁ with held := false } v₂) :
      Did parse ok (.text payload) v (replyOf (errorText "can_config_failed"
        "Could not apply CAN configuration" ret)) v₂
  | txRejected {payload response : Bytes} {v : WsView} {msg : CanJsonMessage}
      {fields : CanJsonField → Bool} (on : v.canReady = true)
      (asked : requestOf parse payload = .tx msg fields)
      (invalid : (validateCanJson msg fields response wsResponseMax).1 ≠ 0) :
      Did parse ok (.text payload) v (validateCanJson msg fields response wsResponseMax) v
  | txFull {payload response : Bytes} {v : WsView} {msg : CanJsonMessage}
      {fields : CanJsonField → Bool} (on : v.canReady = true)
      (asked : requestOf parse payload = .tx msg fields)
      (valid : (validateCanJson msg fields response wsResponseMax).1 = 0) :
      Did parse ok (.text payload) v (-eNoMsg, (replyOf (errorText "can_tx_failed"
        "CAN TX software queue is full" (-eNoMsg))).2) v
  | txQueued {payload response : Bytes} {v : WsView} {msg : CanJsonMessage}
      {fields : CanJsonField → Bool} {us : UInt64} (on : v.canReady = true)
      (asked : requestOf parse payload = .tx msg fields)
      (valid : (validateCanJson msg fields response wsResponseMax).1 = 0) :
      Did parse ok (.text payload) v (0, txText msg us)
        { v with accepted := v.accepted ++ [frameOfMessage msg] }

section Contract

variable {parse : Bytes → ParseResult} {ok : WsView → CanCall → Outcome → Prop}

theorem WsView.Quiet.free {v : WsView} (quiet : v.Quiet) {c : CanCall} :
    v.held = false → v.ctrl.gap = true → c = .mutexLock := by
  intro _ gap
  rw [quiet.2] at gap
  cases gap

/-- A thread that holds the lock may make any call. -/
theorem under_lock {held : Bool} (locked : held = true) {p q : Prop} : held = false → p → q := by
  intro free
  rw [locked] at free
  cases free

theorem WsView.release {v : WsView} (free : v.held = false) : { v with held := false } = v := by
  cases v
  cases free
  rfl

theorem canBridgeFormatStatus_wp {v : WsView} (quiet : v.Quiet) (response : Bytes)
    {Q : Reply → WsView → Prop} (post : ∀ reply, StatusReply v reply → Q reply v) :
    (canBridgeFormatStatus response wsResponseMax).wp (wsSpec parse ok) Q v := by
  refine ⟨quiet.free, quiet.1, under_lock rfl, rfl, fun reading => ⟨under_lock rfl, rfl, ?_⟩⟩
  rw [show ({ v with held := false } : WsView) = v from WsView.release quiet.1]
  refine (Prog.wp_ite _ _ _ _ _ _).mpr ⟨fun neg => ?_, fun _ => ?_⟩
  · rw [wsReply_eq]
    exact post _ (.failed _ neg)
  · refine ⟨quiet.free, quiet.free, quiet.free, quiet.free, fun txUsed => ⟨quiet.free,
      fun txFree => ⟨quiet.free, fun rxUsed => ⟨quiet.free, fun rxFree => ?_⟩⟩⟩⟩
    have reply := post _ (.status ⟨v.canReady, reading.state, v.currentBitrate, v.currentMode,
      reading.txErr, reading.rxErr, txUsed, txFree, rxUsed, rxFree⟩ rfl rfl rfl)
    rw [← snprintk_eq response] at reply
    exact reply

/-- The locked section: every exit is one of `Applied`. -/
theorem applyCanConfig_wp {v : WsView} (held : v.held = true) (mode : CanMode)
    (bitrate : UInt32) {Q : Int → WsView → Prop}
    (post : ∀ ret v', Applied ok mode bitrate v ret v' → Q ret v') :
    (applyCanConfig mode bitrate).wp (wsSpec parse ok) Q v := by
  refine ⟨under_lock held, held, fun o _ => ?_⟩
  -- after `can_stop` the controller is stopped, or the section cannot succeed
  have stopped : ((v.ctrl.stop o).1 < 0 ∧ v.ctrl.started = true ∧ (v.ctrl.stop o).2 = v.ctrl) ∨
      (¬ ((v.ctrl.stop o).1 < 0 ∧ (v.ctrl.stop o).1 ≠ -eAlready) ∧
        Halted v.ctrl (v.ctrl.stop o).2) := by
    rcases v.ctrl.stop_cases o with ⟨off, eq⟩ | ⟨running, e, -, eq⟩ | ⟨running, -, eq⟩
    · rw [eq]
      exact .inr ⟨fun h => h.2 rfl, off, rfl, rfl, by simp [off], fun _ => rfl⟩
    · rw [eq]
      exact .inl ⟨e.ret_neg, running, rfl⟩
    · rw [eq]
      exact .inr ⟨by simp, rfl, rfl, rfl, fun _ => rfl, by simp [running]⟩
  generalize (v.ctrl.stop o).1 = ret, (v.ctrl.stop o).2 = c at stopped ⊢
  refine (Prog.wp_ite _ _ _ _ _ _).mpr ⟨fun failed => ?_, fun passed => ?_⟩
  · rcases stopped with ⟨neg, running, rfl⟩ | ⟨passed, -⟩
    · exact post _ _ (.untouched ret neg running)
    · exact absurd failed passed
  -- a mode that was accepted shows that the controller is stopped
  have halted : c.started = false → Halted v.ctrl c := fun off => by
    rcases stopped with ⟨-, running, rfl⟩ | ⟨-, halted⟩
    · rw [running] at off; cases off
    · exact halted
  refine ⟨under_lock held, held, fun o _ => (Prog.wp_ite _ _ _ _ _ _).mpr
    ⟨fun neg => ?_, fun pos => ?_⟩⟩
  · rw [Controller.setMode_refused neg]
    rcases stopped with ⟨-, running, rfl⟩ | ⟨-, halted⟩
    · exact post _ _ (.untouched _ neg running)
    · exact post _ _ (.modeRejected _ neg c halted)
  obtain ⟨off, modeSet⟩ := Controller.setMode_done pos
  rw [modeSet]
  refine ⟨under_lock held, held, fun o _ => (Prog.wp_ite _ _ _ _ _ _).mpr
    ⟨fun neg => ?_, fun pos => ?_⟩⟩
  · rw [Controller.setBitrate_refused neg]
    exact post _ _ (.bitrateRejected _ neg c (halted off))
  obtain ⟨-, bitrateSet⟩ := Controller.setBitrate_done pos
  rw [bitrateSet]
  refine ⟨under_lock held, held, fun o admitted => (Prog.wp_ite _ _ _ _ _ _).mpr
    ⟨fun failed => ?_, fun passed => ?_⟩⟩
  all_goals
    rcases Controller.start_cases .apply o { c with mode := mode, bitrate := bitrate } with
      ⟨running, -⟩ | ⟨-, e, why, eq⟩ | ⟨-, -, eq⟩
    · rw [show c.started = true from running] at off; cases off
  · have same : (c.gap && decide (StartSite.apply ≠ .recovery)) = c.gap := by simp
    rw [eq, same]
    exact post _ _ (.startFailed e.ret e.ret_neg c (halted off))
  · rw [eq] at failed
    exact absurd failed.1 (Int.lt_irrefl 0)
  · have same : (c.gap && decide (StartSite.apply ≠ .recovery)) = c.gap := by simp
    rw [eq] at passed
    have already : e.ret = -eAlready :=
      Decidable.byContradiction fun other => passed ⟨e.ret_neg, other⟩
    rw [eq, same, already]
    exact ⟨under_lock held, under_lock held, under_lock held,
      post _ _ (.pretended c (halted off) o admitted e why already)⟩
  · rw [eq]
    exact ⟨under_lock held, under_lock held, under_lock held, post _ _ (.started c (halted off))⟩

theorem Recovered.held {v v' : WsView} (recovered : Recovered ok v v') : v'.held = v.held := by
  cases recovered <;> rfl

/-- The error exit: every way through it is one of `Recovered`. -/
theorem recoverCanConfig_wp {v : WsView} (free : v.held = false) {Q : Unit → WsView → Prop}
    (post : ∀ v', Recovered ok v v' → Q () v') :
    recoverCanConfig.wp (wsSpec parse ok) Q v := by
  -- the lock is given back at the end
  have exits : ∀ v', Recovered ok v v' → Q () { v' with held := false } := fun v' recovered => by
    rw [WsView.release (recovered.held.trans free)]
    exact post v' recovered
  refine ⟨fun _ _ => rfl, free, under_lock rfl, rfl, fun o admitted => ?_⟩
  rcases v.ctrl.start_cases .recovery o with
    ⟨running, eq⟩ | ⟨off, e, failed, eq⟩ | ⟨off, success, eq⟩
  · have exit := exits _ (.running running)
    refine (Prog.wp_ite _ _ _ _ _ _).mpr ⟨fun _ => ?_, fun other => ?_⟩
    · rw [eq]
      exact ⟨under_lock rfl, under_lock rfl, rfl, exit⟩
    · rw [eq] at other
      exact absurd (.inr rfl) other
  · have gap : (v.ctrl.gap && decide (StartSite.recovery ≠ .recovery)) = false := by simp
    rw [eq, gap]
    refine (Prog.wp_ite _ _ _ _ _ _).mpr ⟨fun passed => ?_, fun other => ?_⟩
    · have already : e.ret = -eAlready :=
        passed.resolve_left (Int.ne_of_lt e.ret_neg)
      have exit := exits _ (.pretended off o admitted e failed already)
      exact ⟨under_lock rfl, under_lock rfl, rfl, exit⟩
    · have exit := exits _ (.failed off o admitted e failed fun already => other (.inr already))
      exact ⟨under_lock rfl, rfl, exit⟩
  · have exit := exits _ (.restarted off o admitted success)
    refine (Prog.wp_ite _ _ _ _ _ _).mpr ⟨fun _ => ?_, fun other => ?_⟩
    · rw [eq]
      exact ⟨under_lock rfl, under_lock rfl, rfl, exit⟩
    · rw [eq] at other
      exact absurd (.inl rfl) other

theorem Applied.held {mode : CanMode} {bitrate : UInt32} {v v' : WsView} {ret : Int}
    (applied : Applied ok mode bitrate v ret v') : v'.held = v.held := by
  cases applied <;> rfl

/-- Success of the section means a running controller. -/
theorem Applied.success_quiet {mode : CanMode} {bitrate : UInt32} {v v' : WsView} {ret : Int}
    (applied : Applied ok mode bitrate v ret v') (success : 0 ≤ ret) :
    v'.ctrl.gap = false := by
  cases applied with
  | started c halted => rfl
  | pretended => exact absurd success (by decide)
  | untouched _ neg | modeRejected _ neg | bitrateRejected _ neg | startFailed _ neg =>
      exact absurd success (Int.not_le.mpr neg)

/-- A failed section leaves the controller alone or stopped. -/
theorem Applied.failure_running {mode : CanMode} {bitrate : UInt32} {v v' : WsView} {ret : Int}
    (applied : Applied ok mode bitrate v ret v') (failure : ret < 0)
    (running : v'.ctrl.started = true) : v'.ctrl = v.ctrl := by
  cases applied with
  | untouched => rfl
  | modeRejected _ _ c halted | bitrateRejected _ _ c halted | startFailed _ _ c halted
  | pretended c halted =>
      have off := halted.stopped
      rw [show c.started = true from running] at off
      cases off
  | started => exact absurd failure (by decide)

theorem handleCanConfigSet_wp {v : WsView} (quiet : v.Quiet) (on : v.canReady = true)
    {payload : Bytes} {msg : CanJsonMessage} {fields : CanJsonField → Bool}
    (asked : requestOf parse payload = .configSet msg fields) (response : Bytes) :
    (handleCanConfigSet msg fields response wsResponseMax).wp (wsSpec parse ok)
      (fun reply v' => v'.Quiet ∧ Did parse ok (.text payload) v reply v') v := by
  refine ⟨quiet.free, quiet.free, (Prog.wp_ite _ _ _ _ _ _).mpr ⟨fun bad => ?_, fun good => ?_⟩⟩
  · rw [wsReply_eq]
    exact ⟨quiet, .badConfig on asked (if_pos bad) (.inl rfl)⟩
  refine (Prog.wp_ite _ _ _ _ _ _).mpr ⟨fun bad => ?_, fun known => ?_⟩
  · have invalid : configTarget msg fields v.currentMode v.currentBitrate = none :=
      (if_neg good).trans (if_pos bad)
    rw [wsReply_eq]
    exact ⟨quiet, .badConfig on asked invalid (.inr rfl)⟩
  have target : configTarget msg fields v.currentMode v.currentBitrate = some _ :=
    (if_neg good).trans (if_neg known)
  refine ⟨quiet.free, quiet.free, quiet.1, (Prog.wp_bind _ (applyCanConfig _ _) _ _ _).mpr
    (applyCanConfig_wp rfl _ _ fun ret v₁ applied => ?_)⟩
  refine ⟨under_lock applied.held, applied.held, (Prog.wp_ite _ _ _ _ _ _).mpr
    ⟨fun failure => ?_, fun success => ?_⟩⟩
  · refine (Prog.wp_bind _ recoverCanConfig _ _ _).mpr
      (recoverCanConfig_wp rfl fun v₂ recovered => ?_)
    have settled : v₂.Quiet := by
      refine ⟨recovered.held, ?_⟩
      cases recovered with
      | running started =>
          have same := applied.failure_running failure started
          exact (congrArg Controller.gap same).trans quiet.2
      | restarted | pretended | failed => rfl
    rw [wsReply_eq]
    exact ⟨settled, .configFailed on asked target applied failure recovered⟩
  · have settled : ({ v₁ with held := false } : WsView).Quiet :=
      ⟨rfl, applied.success_quiet (Int.not_lt.mp success)⟩
    exact canBridgeFormatStatus_wp settled response fun reply answer =>
      ⟨settled, .configured on asked target applied (Int.not_lt.mp success) answer⟩

theorem handleCanTx_wp {v : WsView} (quiet : v.Quiet) (on : v.canReady = true)
    {payload : Bytes} {msg : CanJsonMessage} {fields : CanJsonField → Bool}
    (asked : requestOf parse payload = .tx msg fields) (response : Bytes) :
    (handleCanTx msg fields response wsResponseMax).wp (wsSpec parse ok)
      (fun reply v' => v'.Quiet ∧ Did parse ok (.text payload) v reply v') v := by
  generalize checked : validateCanJson msg fields response wsResponseMax = reply
  obtain ⟨ret, response'⟩ := reply
  simp only [handleCanTx, checked]
  refine (Prog.wp_ite _ _ _ _ _ _).mpr ⟨fun invalid => ?_, fun zero => ?_⟩
  · have exit : Did parse ok (.text payload) v
        (validateCanJson msg fields response wsResponseMax) v :=
      .txRejected on asked (by rw [checked]; exact invalid)
    rw [checked] at exit
    exact ⟨quiet, exit⟩
  have valid : (validateCanJson msg fields response wsResponseMax).1 = 0 := by
    rw [checked]
    exact Decidable.not_not.mp zero
  refine ⟨quiet.free, fun put v' outcome => (Prog.wp_ite _ _ _ _ _ _).mpr
    ⟨fun neg => ?_, fun pos => ?_⟩⟩
  · rcases outcome with ⟨rfl, -⟩ | ⟨rfl, rfl⟩
    · exact absurd neg (Int.lt_irrefl 0)
    · rw [wsReply_eq]
      exact ⟨quiet, .txFull on asked valid⟩
  · have printed : formatCanTxResponse msg response' wsResponseMax = _ :=
      formatCanTxResponse_eq response' fun us => txText_length_lt msg us
    rw [printed]
    rcases outcome with ⟨-, rfl⟩ | ⟨rfl, -⟩
    · exact ⟨quiet.free, fun us => ⟨quiet, .txQueued on asked valid⟩⟩
    · exact absurd (show -eNoMsg < 0 by decide) pos

theorem canBridgeHandleWsText_wp {v : WsView} (quiet : v.Quiet) (payload response : Bytes) :
    (canBridgeHandleWsText payload response wsResponseMax).wp (wsSpec parse ok)
      (fun reply v' => v'.Quiet ∧ Did parse ok (.text payload) v reply v') v := by
  refine ⟨quiet.free, (Prog.wp_ite _ _ _ _ _ _).mpr ⟨fun off => ?_, fun ready => ?_⟩⟩
  · rw [wsReply_eq]
    exact ⟨quiet, .notReady (Bool.eq_false_iff.mpr off)⟩
  have on : v.canReady = true := Decidable.not_not.mp ready
  refine (Prog.wp_ite _ _ _ _ _ _).mpr ⟨fun long => ?_, fun short => ?_⟩
  · rw [wsReply_eq]
    exact ⟨quiet, .tooLarge on (if_pos long)⟩
  refine ⟨quiet.free, fun answer parsed => ?_⟩
  cases answer with
  | error e =>
      have asked : requestOf parse payload = .badJson e := by
        simp only [requestOf, if_neg short, parsed]
      rw [wsReply_eq]
      exact ⟨quiet, .badJson on asked⟩
  | fields fields msg =>
      have asked : requestOf parse payload =
          if fields .type then
            if msg.type = some (lit "can.status") ∨ msg.type = some (lit "can.config.get") then
              .status
            else if msg.type = some (lit "can.config.set") then .configSet msg fields
            else if msg.type ≠ some (lit "can.tx") then .unsupported
            else .tx msg fields
          else .tx msg fields := by
        simp only [requestOf, if_neg short, parsed]
      refine (Prog.wp_ite _ _ _ _ _ _).mpr ⟨fun typed => ?_, fun untyped => ?_⟩
      · rw [if_pos typed] at asked
        refine (Prog.wp_ite _ _ _ _ _ _).mpr ⟨fun status => ?_, fun other => ?_⟩
        · rw [if_pos status] at asked
          exact canBridgeFormatStatus_wp quiet response fun reply answer =>
            ⟨quiet, .status on asked answer⟩
        rw [if_neg other] at asked
        refine (Prog.wp_ite _ _ _ _ _ _).mpr ⟨fun config => ?_, fun other => ?_⟩
        · rw [if_pos config] at asked
          exact handleCanConfigSet_wp quiet on asked response
        rw [if_neg other] at asked
        refine (Prog.wp_ite _ _ _ _ _ _).mpr ⟨fun other => ?_, fun tx => ?_⟩
        · rw [if_pos other] at asked
          rw [wsReply_eq]
          exact ⟨quiet, .unsupported on asked⟩
        · rw [if_neg tx] at asked
          exact handleCanTx_wp quiet on asked response
      · rw [if_neg untyped] at asked
        exact handleCanTx_wp quiet on asked response

/-! ## Jobs that only touch the receive side -/

/-- The calls a frame printer makes. -/
def PrintCall (c : CanCall) : Prop :=
  match c with
  | .uptimeUs | .readPast _ => True
  | _ => False

/-- The calls that leave the WebSocket thread's view alone. -/
def RxSide (c : CanCall) : Prop :=
  match c with
  | .rxGet | .rxPurge | .rxStreamingSet _ | .uptimeUs | .readPast _ => True
  | _ => False

theorem frameData_only (frame : CanFrame) (i : Nat) : (frameData frame i).Only PrintCall := by
  unfold frameData
  split
  · trivial
  · exact ⟨trivial, fun _ => trivial⟩

theorem rxDataLoop_only (frame : CanFrame) (responseLen left i offset : Nat)
    (response : Bytes) :
    (rxDataLoop frame responseLen left i offset response).Only PrintCall := by
  induction left generalizing i offset response with
  | zero => trivial
  | succ left ih =>
      refine Prog.Only.bind (frameData_only frame i) fun byte => ?_
      split
      · trivial
      · exact ih _ _ _

theorem formatRxFrame_only (frame : CanFrame) (response : Bytes) (responseLen : Nat) :
    (formatRxFrame frame response responseLen).Only PrintCall := by
  simp only [formatRxFrame, perform, Prog.perform_bind, Prog.pure_eq]
  split
  · trivial
  refine Prog.Only.bind (rxDataLoop_only _ _ _ _ _ _) fun printed => ?_
  split
  · trivial
  refine ⟨trivial, fun us => ?_⟩
  simp only
  split <;> trivial

theorem canBridgeFormatNextRx_only (response : Bytes) (responseLen : Nat) :
    (canBridgeFormatNextRx response responseLen).Only RxSide := by
  refine ⟨trivial, fun next => ?_⟩
  cases next with
  | none => trivial
  | some frame =>
      refine (formatRxFrame_only frame response responseLen).mono fun c print => ?_
      cases c <;> trivial

theorem canBridgeSetRxStreaming_only (enabled : Bool) :
    (canBridgeSetRxStreaming enabled).Only RxSide := by
  cases enabled <;> exact ⟨trivial, fun _ => ⟨trivial, fun _ => trivial⟩⟩

theorem wsSpec_skips {v : WsView} (quiet : v.Quiet) (c : CanCall)
    (post : c.Answer → WsView → Prop) (rx : RxSide c) (after : ∀ r, post r v) :
    wsSpec parse ok c post v := by
  refine ⟨quiet.free, ?_⟩
  cases c <;> first | exact rx.elim | exact after | exact after _

/-- The contract every job meets, from any state outside the critical sections. -/
theorem did_serve (job : Job) (response : Bytes) {v : WsView} (quiet : v.Quiet) :
    (job.program response).wp (wsSpec parse ok)
      (fun reply v' => v'.Quiet ∧ Did parse ok job v reply v') v := by
  cases job with
  | text payload => exact canBridgeHandleWsText_wp quiet payload response
  | nextRx =>
      exact (canBridgeFormatNextRx_only _ _).wp (wsSpec_skips quiet) fun _ => ⟨quiet, .nextRx⟩
  | setRxStreaming enabled =>
      refine (canBridgeSetRxStreaming_only enabled |>.bind fun _ => ?_).wp (wsSpec_skips quiet)
        fun _ => ⟨quiet, .setRxStreaming⟩
      trivial

/-- What holds of the view between jobs is any property that `Did` keeps. -/
theorem did_contract {Idle : WsView → Prop}
    (back : ∀ job v reply v', Idle v → Did parse ok job v reply v' → Idle v') :
    WsContract parse ok Idle (Did parse ok) where
  serve job response _ quiet := did_serve job response quiet
  back := back

end Contract

/-! ## Every run -/

/-- No restriction on the driver. -/
def anyOutcome (_ : WsView) (_ : CanCall) (_ : Outcome) : Prop := True

theorem wsOk_anyOutcome (s : State) (e : Event) : WsOk anyOutcome s e := by
  unfold WsOk
  split <;> trivial

theorem InitDone.view {parse : Bytes → ParseResult} {b : Bridge} (init : InitDone parse b) :
    b.wsView.Quiet ∧ b.workerView = ⟨false, none⟩ := by
  obtain ⟨started, rfl⟩ := init.eq
  exact ⟨⟨rfl, rfl⟩, rfl⟩

/-- In every run that starts with a successful init, every job does what `Did`
says and both threads keep to their specs. -/
theorem did_reach {parse : Bytes → ParseResult} {admits : State → Event → Prop} {s : State}
    (reach : (machine parse (InitDone parse)).Reach admits s) :
    WsInv parse anyOutcome (fun _ => True) (Did parse anyOutcome) s ∧ WorkerInv s ∧
      LogInv (fun _ => True) (Did parse anyOutcome) s :=
  (did_contract fun _ _ _ _ _ _ => trivial).reach (fun s e _ => wsOk_anyOutcome s e)
    (fun _ init => ⟨init.view.1, trivial⟩) (fun _ init => init.view.2) reach

/-! ## Sample requests -/

def loopbackRequest : Bytes :=
  lit "\x7b\"type\":\"can.config.set\",\"mode\":\"loopback\",\"bitrate\":1\x7d"

def txRequest : Bytes :=
  lit "\x7b\"type\":\"can.tx\",\"bus\":0,\"id\":1,\"dlc\":0\x7d"

def statusRequest : Bytes := lit "\x7b\"type\":\"can.status\"\x7d"

/-- What the JSON library makes of the sample requests. -/
def parseSample (payload : Bytes) : ParseResult :=
  if payload = txRequest then
    .fields (fun field => field = .type ∨ field = .bus ∨ field = .id ∨ field = .dlc)
      { type := some (lit "can.tx"), id := 1 }
  else if payload = statusRequest then
    .fields (fun field => field = .type) { type := some (lit "can.status") }
  else if payload = loopbackRequest then
    .fields (fun field => field = .type ∨ field = .mode ∨ field = .bitrate)
      { type := some (lit "can.config.set"), mode := some (lit "loopback"), bitrate := 1 }
  else .error errnoInval

/-- A JSON library that is given a text with these fields, and refuses any other. -/
def parseText (text : Bytes) (present : List CanJsonField) (msg : CanJsonMessage)
    (payload : Bytes) : ParseResult :=
  if payload = text then .fields (fun field => field ∈ present) msg else .error errnoInval

theorem parseText_text (text : Bytes) (present : List CanJsonField) (msg : CanJsonMessage) :
    parseText text present msg text = .fields (fun field => field ∈ present) msg := if_pos rfl

end PicoCan.Can
