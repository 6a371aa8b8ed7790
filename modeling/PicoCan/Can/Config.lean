import PicoCan.Can.Progress

/-!
# Reconfiguring the controller

`can.config.set` stops the controller, sets mode and bitrate and starts it
again; when a step fails the error exit only starts it. Two questions are
settled here over all runs: whether the recorded configuration is the one the
controller has, and whether a failed reconfiguration can be repaired by the
next one.

Neither holds of every run. The error exit starts the controller with whatever
mode and bitrate were already set, and when its start fails `can_ready` stays
clear and refuses every later request. And a request that finds the lock with a
worker whose frame the bus keeps is not answered at all. Each result is therefore
proved for the runs that avoid exactly that, with a run that does not.
-/

namespace PicoCan.Can

open Calls

variable {parse : Bytes → ParseResult}

/-! ## The recorded configuration -/

/-- Mode and bitrate of the controller are the recorded ones. -/
def WsView.Recorded (v : WsView) : Prop :=
  v.ctrl.mode = v.currentMode ∧ v.ctrl.bitrate = v.currentBitrate

/-- What a status object claims when it says ready: a running controller in the
recorded configuration. -/
def WsView.Truthful (v : WsView) : Prop :=
  v.canReady = true → v.ctrl.started = true ∧ v.Recorded

/-- The answer to a configuration request whose section failed. -/
def ConfigFailed (reply : Reply) : Prop :=
  ∃ err, reply = replyOf
    (errorText "can_config_failed" "Could not apply CAN configuration" err)

/-- Between requests the status is truthful, and a request that was answered
`can_config_failed` and left the bridge ready has not touched the configuration. -/
def ConfigTruthful (s : State) : Prop :=
  (s.ws = none → s.bridge.wsView.Truthful) ∧
  ∀ x ∈ s.log, ConfigFailed x.reply → x.after.canReady = true →
    x.after.ctrl.started = true ∧ x.after.ctrl.mode = x.before.ctrl.mode ∧
      x.after.ctrl.bitrate = x.before.ctrl.bitrate

/-- The driver outcomes that keep the configuration truthful. The error exit's
`can_start` on a stopped controller may succeed only if mode and bitrate are
still the recorded ones, and otherwise must fail openly with `can_ready` clear;
the section's own `can_start` may not answer "already" on a stopped controller
whose mode and bitrate it has just changed. -/
def KeepsConfig (v : WsView) (c : CanCall) (o : Outcome) : Prop :=
  match c with
  | .canStart .recovery => v.ctrl.started = false →
      match o.fail with
      | none => v.Recorded
      | some e => e.ret ≠ -eAlready ∧ v.canReady = false
  | .canStart .apply => v.ctrl.started = false →
      ∀ e, o.fail = some e → e.ret = -eAlready → v.Recorded
  | _ => True

/-- A failed section has not changed what is recorded. -/
theorem Applied.recorded {mode : CanMode} {bitrate : UInt32} {v v' : WsView} {ret : Int}
    (applied : Applied KeepsConfig mode bitrate v ret v') (failure : ret < 0) :
    v'.currentMode = v.currentMode ∧ v'.currentBitrate = v.currentBitrate := by
  cases applied with
  | untouched | modeRejected | bitrateRejected | startFailed => exact ⟨rfl, rfl⟩
  | started => exact absurd failure (by decide)
  | pretended c halted o admitted e failed already =>
      exact admitted halted.stopped e failed already

theorem Recovered.recorded {ok : WsView → CanCall → Outcome → Prop} {v v' : WsView}
    (recovered : Recovered ok v v') :
    v'.currentMode = v.currentMode ∧ v'.currentBitrate = v.currentBitrate := by
  cases recovered <;> exact ⟨rfl, rfl⟩

/-- A failed section behind which the bridge is ready again has a running
controller in the recorded configuration. -/
theorem Applied.failure_truthful {mode : CanMode} {bitrate : UInt32} {v v₁ v₂ : WsView}
    {ret : Int} (applied : Applied KeepsConfig mode bitrate v ret v₁) (failure : ret < 0)
    (recovered : Recovered KeepsConfig { v₁ with held := false } v₂) (before : v.Recorded) :
    v₂.Truthful := by
  intro ready
  cases recovered with
  | running started =>
      have same := applied.failure_running failure started
      obtain ⟨mode, bitrate⟩ := applied.recorded failure
      refine ⟨started, ?_, ?_⟩
      · exact (congrArg Controller.mode same).trans (before.1.trans mode.symm)
      · exact (congrArg Controller.bitrate same).trans (before.2.trans bitrate.symm)
  | restarted stopped o admitted success =>
      have recorded := admitted stopped
      rw [success] at recorded
      exact ⟨rfl, recorded⟩
  | pretended stopped o admitted e failed already =>
      have openly := admitted stopped
      rw [failed] at openly
      exact absurd already openly.1
  | failed stopped o admitted e failed =>
      have openly := admitted stopped
      rw [failed] at openly
      exact absurd ready (by rw [show v₁.canReady = false from openly.2]; decide)

theorem StatusReply.not_configFailed {v : WsView} {reply : Reply} (status : StatusReply v reply) :
    ¬ ConfigFailed reply := by
  rintro ⟨err, same⟩
  cases status with
  | status s => exact statusReply_ne same
  | failed code => exact errorReply_ne (by decide) (by decide) (by decide) same

/-- One job keeps the configuration truthful. -/
theorem did_truthful {job : Job} {v v' : WsView} {reply : Reply} (before : v.Truthful)
    (did : Did parse KeepsConfig job v reply v') : v'.Truthful := by
  cases did with
  | configured on _ _ applied success =>
      cases applied with
      | started => exact fun _ => ⟨rfl, rfl, rfl⟩
      | pretended => exact absurd success (by decide)
      | untouched _ neg | modeRejected _ neg | bitrateRejected _ neg | startFailed _ neg =>
          exact absurd success (Int.not_le.mpr neg)
  | configFailed on _ _ applied failure recovered =>
      exact applied.failure_truthful failure recovered (before on).2
  | nextRx | setRxStreaming | notReady | tooLarge | badJson | unsupported | status
  | badConfig | txRejected | txFull | txQueued => exact before

/-- A request that fails and leaves the bridge ready keeps the configuration. -/
theorem did_configFailed {job : Job} {v v' : WsView} {reply : Reply} (before : v.Truthful)
    (did : Did parse KeepsConfig job v reply v') (answer : ConfigFailed reply)
    (ready : v'.canReady = true) :
    v'.ctrl.started = true ∧ v'.ctrl.mode = v.ctrl.mode ∧ v'.ctrl.bitrate = v.ctrl.bitrate := by
  have after := did_truthful before did ready
  cases did with
  | configured _ _ _ _ _ status => exact absurd answer status.not_configFailed
  | configFailed on _ _ applied failure recovered =>
      obtain ⟨-, mode, bitrate⟩ := before on
      obtain ⟨mode₁, bitrate₁⟩ := applied.recorded failure
      obtain ⟨mode₂, bitrate₂⟩ := recovered.recorded
      refine ⟨after.1, ?_, ?_⟩
      · exact after.2.1.trans (mode₂.trans (mode₁.trans mode.symm))
      · exact after.2.2.trans (bitrate₂.trans (bitrate₁.trans bitrate.symm))
  | nextRx | setRxStreaming | notReady | tooLarge | badJson | unsupported | status
  | badConfig | txRejected | txFull | txQueued => exact ⟨after.1, rfl, rfl⟩

/-- The bridge after a successful init with the controller running. -/
def RunningInit (parse : Bytes → ParseResult) (b : Bridge) : Prop :=
  InitDone parse b ∧ b.ctrl.started = true

/-- Over every run whose driver outcomes meet `KeepsConfig`, the status tells the
truth and a failed request leaves the configuration as it was. -/
theorem config_truthful {s : State}
    (reach : (machine parse (RunningInit parse)).Reach (WsOk KeepsConfig) s) :
    ConfigTruthful s := by
  have contract : WsContract parse KeepsConfig WsView.Truthful (Did parse KeepsConfig) :=
    did_contract fun _ _ _ _ before did => did_truthful before did
  obtain ⟨ws, -, log⟩ := contract.reach (fun _ _ admitted => admitted)
    (fun b init => ⟨init.1.view.1, fun _ => by
      obtain ⟨started, rfl⟩ := init.1.eq
      exact ⟨init.2, rfl, rfl⟩⟩)
    (fun b init => init.1.view.2) reach
  refine ⟨fun idle => ?_, fun x hx => ?_⟩
  · simp only [WsInv, idle] at ws
    exact ws.2
  · obtain ⟨before, did⟩ := log x hx
    exact did_configFailed before did

/-- The request, with a driver that refuses the bitrate. -/
def refusedBitrate : List Event :=
  .request (.text loopbackRequest) [] :: List.replicate 8 (.ws {}) ++
    [.ws { fail := some errnoInval }] ++ List.replicate 6 (.ws {})

/-- After a refused bitrate the controller runs in the new mode and the status
reports the old one. -/
theorem config_lost :
    ¬ ∀ parse s, (machine parse (RunningInit parse)).Reach Machine.anyStep s →
      ConfigTruthful s := by
  intro holds
  have start : (machine parseSample (RunningInit parseSample)).Reach Machine.anyStep _ :=
    machine_start _ ⟨initDone_initialised _, rfl⟩
  have truthful := holds parseSample _ (start.runs
    (show (machine _ _).runs _ refusedBitrate = some _ from rfl))
  have recorded := (truthful.1 rfl rfl).2.1
  exact absurd recorded (by decide)

/-- The request, with a driver that refuses the mode. -/
def refusedMode : List Event :=
  .request (.text loopbackRequest) [] :: List.replicate 7 (.ws {}) ++
    [.ws { fail := some errnoInval }] ++ List.replicate 6 (.ws {})

theorem config_truthful_refusedMode : ∃ s, (machine parseSample
      (RunningInit parseSample)).runs { bridge := Bridge.initialised true } refusedMode = some s ∧
    s.bridge.canReady = true ∧ ConfigTruthful s := by
  have start : (machine parseSample (RunningInit parseSample)).Reach (WsOk KeepsConfig)
      { bridge := Bridge.initialised true } :=
    machine_start _ ⟨initDone_initialised _, rfl⟩
  have along : (machine parseSample (RunningInit parseSample)).Along (WsOk KeepsConfig)
      { bridge := Bridge.initialised true } refusedMode :=
    -- only the restart is constrained: the old configuration is still in place
    ⟨trivial, trivial, trivial, trivial, trivial, trivial, trivial, trivial, trivial, trivial,
      trivial, fun _ => ⟨rfl, rfl⟩, trivial, trivial, trivial, trivial⟩
  obtain ⟨s, run, reach⟩ := start.along along
  refine ⟨s, run, ?_, config_truthful reach⟩
  cases run
  rfl

/-! ## Repairing a failed request -/

/-- The bridge refused a request because `can_ready` is clear. -/
def NotReady (reply : Reply) : Prop :=
  reply = replyOf (errorText "can_not_ready" "CAN controller is not ready" (-eNoDev))

/-- Between requests the bridge is ready, so the next one is not turned away; a status or
configuration request under way can go on towards its reply, of which it is finitely many steps
short; every status request was answered by `can_bridge_format_status`, and every well-formed
configuration request got as far as the driver. -/
structure NoLockout (parse : Bytes → ParseResult) (s : State) : Prop where
  ready : s.ws = none → s.bridge.canReady = true
  advances : Handling parse s → FirmwareAdvances parse s ∧
    Acc (fun t s : State => ∃ e, Advances s t e) s
  answered : ∀ x ∈ s.log, ∀ payload, x.job = .text payload →
    (requestOf parse payload = .status → StatusReply x.before.wsView x.reply) ∧
    ∀ msg fields, requestOf parse payload = .configSet msg fields →
      configTarget msg fields x.before.currentMode x.before.currentBitrate ≠ none →
      ¬ NotReady x.reply ∧ x.before.stopCalls < x.after.stopCalls

/-- The error exit's `can_start` restarts the controller, or answers "already",
unless the bridge is ready anyway. -/
def Restarts (v : WsView) (c : CanCall) (o : Outcome) : Prop :=
  match c with
  | .canStart .recovery => v.ctrl.started = false → v.canReady = false →
      ∀ e, o.fail = some e → e.ret = -eAlready
  | _ => True

/-- The same of a step, which must not leave the WebSocket thread waiting for a lock that the
worker holds while the bus keeps its frame. -/
def StaysRepairable (parse : Bytes → ParseResult) (s : State) (e : Event) : Prop :=
  WsOk Restarts s e ∧ ∀ t, step parse s e = some t → ¬ BusHeld t

variable {ok : WsView → CanCall → Outcome → Prop}

theorem Applied.counts {mode : CanMode} {bitrate : UInt32} {v v' : WsView} {ret : Int}
    (applied : Applied ok mode bitrate v ret v') : v'.stopCalls = v.stopCalls + 1 := by
  cases applied <;> rfl

theorem Recovered.counts {v v' : WsView} (recovered : Recovered ok v v') :
    v'.stopCalls = v.stopCalls := by
  cases recovered <;> rfl

theorem Applied.success_ready {mode : CanMode} {bitrate : UInt32} {v v' : WsView} {ret : Int}
    (applied : Applied ok mode bitrate v ret v') (success : 0 ≤ ret) : v'.canReady = true := by
  cases applied with
  | started | pretended => rfl
  | untouched _ neg | modeRejected _ neg | bitrateRejected _ neg | startFailed _ neg =>
      exact absurd success (Int.not_le.mpr neg)

/-- The error exit leaves the bridge ready. -/
theorem Recovered.ready {v v' : WsView} (recovered : Recovered Restarts v v') :
    v'.canReady = true := by
  cases recovered with
  | running | restarted | pretended => rfl
  | failed stopped o admitted e failed other =>
      cases ready : v.canReady with
      | true => rfl
      | false => exact absurd (admitted stopped ready e failed) other

/-- One job leaves the bridge ready. -/
theorem did_ready {job : Job} {v v' : WsView} {reply : Reply} (before : v.canReady = true)
    (did : Did parse Restarts job v reply v') : v'.canReady = true := by
  cases did with
  | configured _ _ _ applied success => exact applied.success_ready success
  | configFailed _ _ _ _ _ recovered => exact recovered.ready
  | notReady off => rw [off] at before; cases before
  | nextRx | setRxStreaming | tooLarge | badJson | unsupported | status | badConfig
  | txRejected | txFull | txQueued => exact before

/-- A ready bridge answers a status request. -/
theorem did_status {payload : Bytes} {v v' : WsView} {reply : Reply}
    (before : v.canReady = true) (did : Did parse ok (.text payload) v reply v')
    (request : requestOf parse payload = .status) : StatusReply v reply := by
  cases did with
  | status _ _ answer => exact answer
  | notReady off => rw [off] at before; cases before
  | tooLarge _ asked | badJson _ asked | unsupported _ asked | badConfig _ asked
  | configured _ asked | configFailed _ asked | txRejected _ asked | txFull _ asked
  | txQueued _ asked => rw [request] at asked; cases asked

/-- A ready bridge takes a well-formed configuration request to the driver. -/
theorem did_reaches {payload : Bytes} {v v' : WsView} {reply : Reply} {msg : CanJsonMessage}
    {fields : CanJsonField → Bool} (before : v.canReady = true)
    (did : Did parse ok (.text payload) v reply v')
    (request : requestOf parse payload = .configSet msg fields)
    (wellFormed : configTarget msg fields v.currentMode v.currentBitrate ≠ none) :
    ¬ NotReady reply ∧ v.stopCalls < v'.stopCalls := by
  cases did with
  | configured _ _ _ applied _ answer =>
      refine ⟨fun refused => ?_, ?_⟩
      · cases answer with
        | status => exact statusReply_ne refused
        | failed => exact errorReply_ne (by decide) (by decide) (by decide) refused
      · have counted : _ = v.stopCalls + 1 := applied.counts
        exact counted ▸ Nat.lt_succ_self _
  | configFailed _ _ _ applied _ recovered =>
      refine ⟨errorReply_ne (by decide) (by decide) (by decide), ?_⟩
      have counted : _ = v.stopCalls + 1 := recovered.counts.trans applied.counts
      exact counted ▸ Nat.lt_succ_self _
  | badConfig _ asked invalid =>
      rw [request] at asked
      cases asked
      exact absurd invalid wellFormed
  | notReady off => rw [off] at before; cases before
  | tooLarge _ asked | badJson _ asked | unsupported _ asked | status _ asked
  | txRejected _ asked | txFull _ asked | txQueued _ asked => rw [request] at asked; cases asked

/-- In a run none of whose steps ends with the bus holding the lock, it never does. -/
theorem busHeld_avoided {init : Bridge → Prop} {s : State}
    (reach : (machine parse init).Reach (StaysRepairable parse) s) : ¬ BusHeld s := by
  cases reach with
  | start h =>
      obtain ⟨b, -, rfl⟩ := h
      rintro ⟨⟨_, _, _, busy⟩, -⟩
      cases busy
  | next _ admitted hstep => exact admitted.2 s hstep

/-- Over every run in which the error exit always restarts the controller and the bus does not
keep the lock from a request, no failed request locks out the next one. -/
theorem reconfiguration_repairable {s : State}
    (reach : (machine parse (InitDone parse)).Reach (StaysRepairable parse) s) :
    NoLockout parse s := by
  have contract : WsContract parse Restarts (·.canReady = true) (Did parse Restarts) :=
    did_contract fun _ _ _ _ before did => did_ready before did
  obtain ⟨ws, -, log⟩ := contract.reach (fun _ _ admitted => admitted.1)
    (fun b init => ⟨init.view.1, by obtain ⟨started, rfl⟩ := init.eq; rfl⟩)
    (fun b init => init.view.2) reach
  refine ⟨fun idle => ?_, fun handling => ?_, fun x hx payload isText => ?_⟩
  · simp only [WsInv, idle] at ws
    exact ws.2
  · have free := busHeld_avoided reach
    exact ⟨firmware_advances (did_reach reach) (lockOwned_reach reach) handling free,
      advances_wf.apply s⟩
  · obtain ⟨before, did⟩ := log x hx
    rw [isText] at did
    exact ⟨did_status before did, fun _ _ request wellFormed =>
      did_reaches before did request wellFormed⟩

/-- The request twice; the driver refuses the bitrate and then the restart. -/
def refusedRestart : List Event :=
  .request (.text loopbackRequest) [] :: List.replicate 8 (.ws {}) ++
    [.ws { fail := some errnoInval }, .ws {}, .ws {},
      .ws { fail := some errnoIo }, .ws {}, .ws {},
      .request (.text loopbackRequest) [], .ws {}, .ws {}]

/-- After a refused restart the second request is turned away. -/
theorem locked_out :
    ¬ ∀ parse s, (machine parse (InitDone parse)).Reach Machine.anyStep s →
      NoLockout parse s := by
  intro holds
  have start : (machine parseSample (InitDone parseSample)).Reach Machine.anyStep _ :=
    machine_start _ (initDone_initialised _)
  have repaired := holds parseSample _ (start.runs
    (show (machine _ _).runs _ refusedRestart = some _ from rfl))
  have second := repaired.answered _ (List.mem_cons_of_mem _ List.mem_cons_self) loopbackRequest
    rfl
  exact (second.2 _ _ rfl (by decide)).1 rfl

/-- While the worker waits for its first frame, the bus holds nothing. -/
theorem stays_repairable {init : Bridge → Prop} {labels : List Event} {s : State}
    (top : s.worker = canTxThread) (others : ∀ o, .worker o ∉ labels)
    (along : (machine parse init).Along (WsOk Restarts) s labels) :
    (machine parse init).Along (StaysRepairable parse) s labels := by
  induction labels generalizing s with
  | nil => trivial
  | cons e rest ih =>
      obtain ⟨admitted, later⟩ := along
      cases hstep : (machine parse init).step s e with
      | none =>
          rw [hstep] at later
          exact later.elim
      | some t =>
          rw [hstep] at later
          have still : t.worker = canTxThread := by
            cases step_moved parse hstep with
            | workerCall | round => exact absurd List.mem_cons_self (others _)
            | request | wsCall | reply | bus | frame => exact top
          refine ⟨⟨admitted, fun u same => ?_⟩, ?_⟩
          · obtain rfl : t = u := Option.some.inj (hstep.symm.trans same)
            rintro ⟨-, -, ⟨k, sending⟩, -⟩
            exact nomatch sending.symm.trans still
          · rw [hstep]
            exact ih still (fun o within => others o (List.mem_cons_of_mem e within)) later

theorem reconfiguration_repairable_refusedBitrate : ∃ s, (machine parseSample
      (InitDone parseSample)).runs { bridge := Bridge.initialised true } refusedBitrate = some s ∧
    s.bridge.currentMode = canModeNormal ∧ NoLockout parseSample s := by
  have start : (machine parseSample (InitDone parseSample)).Reach (StaysRepairable parseSample)
      { bridge := Bridge.initialised true } := machine_start _ (initDone_initialised _)
  have along : (machine parseSample (InitDone parseSample)).Along (WsOk Restarts)
      { bridge := Bridge.initialised true } refusedBitrate := by
    refine ⟨trivial, trivial, trivial, trivial, trivial, trivial, trivial, trivial, trivial,
      trivial, trivial, trivial, ?_, trivial, trivial, trivial, trivial⟩
    -- the restart does not fail
    exact fun _ _ _ failed => nomatch failed
  have others : ∀ o, .worker o ∉ refusedBitrate := by
    intro o within
    simp [refusedBitrate] at within
  obtain ⟨s, run, reach⟩ := start.along (stays_repairable rfl others along)
  refine ⟨s, run, ?_, reconfiguration_repairable reach⟩
  cases run
  rfl

end PicoCan.Can
