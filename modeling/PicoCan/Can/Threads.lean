import PicoCan.Can.System

/-!
# What each thread knows

`WsView` is the part of the bridge only the WebSocket thread changes, and
`wsSpec` says call by call how. `WorkerView` and `workerSpec` do the same for
the TX worker. Both specs also demand what a call may rely on: the lock is
taken only by a thread that does not hold it and released only by its holder,
and controller calls are made under the lock.

`WsContract.reach` is the rule the rest of the development uses: a contract
proved for every job by its weakest precondition holds in every interleaving.
-/

namespace PicoCan.Can

open Calls

/-! ## The WebSocket thread -/

/-- The WebSocket thread's part of the bridge. -/
structure WsView where
  held : Bool
  ctrl : Controller
  canReady : Bool
  currentMode : CanMode
  currentBitrate : UInt32
  accepted : List CanFrame
  stopCalls : Nat

def Bridge.wsView (b : Bridge) : WsView where
  held := b.lock = some .ws
  ctrl := b.ctrl
  canReady := b.canReady
  currentMode := b.currentMode
  currentBitrate := b.currentBitrate
  accepted := b.accepted
  stopCalls := b.stopCalls

section WsSpec

variable (parse : Bytes → ParseResult)

/-- The calls of the WebSocket thread on its view; `ok` restricts the outcomes of
the driver calls that are considered. Once the thread has stopped the
controller and released the lock, the only call it may make is to take the lock
again. -/
def wsSpec (ok : WsView → CanCall → Outcome → Prop) :
    Spec CanCall.Answer WsView := fun c post v =>
  (v.held = false → v.ctrl.gap = true → c = .mutexLock) ∧ match c with
  | .canSetMode mode => v.held = true ∧ ∀ o, ok v (.canSetMode mode) o →
      post (v.ctrl.setMode mode o).1 { v with ctrl := (v.ctrl.setMode mode o).2 }
  | .canSetBitrate bitrate => v.held = true ∧ ∀ o, ok v (.canSetBitrate bitrate) o →
      post (v.ctrl.setBitrate bitrate o).1 { v with ctrl := (v.ctrl.setBitrate bitrate o).2 }
  | .canStart site => v.held = true ∧ ∀ o, ok v (.canStart site) o →
      post (v.ctrl.start site o).1 { v with ctrl := (v.ctrl.start site o).2 }
  | .canStop => v.held = true ∧ ∀ o, ok v .canStop o →
      post (v.ctrl.stop o).1
        { v with ctrl := (v.ctrl.stop o).2, stopCalls := v.stopCalls + 1 }
  | .canGetState => v.held = true ∧ ∀ reading, post reading v
  | .mutexLock => v.held = false ∧ post () { v with held := true }
  | .mutexUnlock => v.held = true ∧ post () { v with held := false }
  | .canReadyGet => post v.canReady v
  | .canReadySet ready => post () { v with canReady := ready }
  | .currentModeGet => post v.currentMode v
  | .currentModeSet mode => post () { v with currentMode := mode }
  | .currentBitrateGet => post v.currentBitrate v
  | .currentBitrateSet bitrate => post () { v with currentBitrate := bitrate }
  | .txPut frame => ∀ (ret : Int) v',
      (ret = 0 ∧ v' = { v with accepted := v.accepted ++ [frame] }) ∨
        (ret = -eNoMsg ∧ v' = v) → post ret v'
  | .rxGet => ∀ frame, post frame v
  | .rxPurge => post () v
  | .rxStreamingSet _ => post () v
  | .numUsedGet _ | .numFreeGet _ => ∀ n : Nat, post n v
  | .uptimeUs => ∀ us, post us v
  | .readPast _ => ∀ byte, post byte v
  | .jsonObjParse json => ∀ answer, parse json = answer → post answer v
  -- calls the WebSocket thread never makes
  | .deviceIsReady | .canAddRxFilter _ | .canSendSubmit _ _ | .canSendWait | .txGet
  | .rxPut _ | .rxStreamingGet | .txThreadCreate => False

/-- The spec says what `exec` does to the view of the calling thread. -/
theorem wsSpec_describes (ok : WsView → CanCall → Outcome → Prop) :
    Describes (exec parse .ws) (fun c o b => ok b.wsView c o) Bridge.wsView
      (wsSpec parse ok) := by
  intro c o b r b' post hok hexec spec
  replace spec := spec.2
  cases c <;> simp only [exec] at hexec
  case numUsedGet q => cases q <;> cases hexec <;> exact spec _
  case numFreeGet q => cases q <;> cases hexec <;> exact spec _
  case canSetMode | canSetBitrate | canStart | canStop => cases hexec; exact spec.2 o hok
  case canGetState => split at hexec <;> cases hexec <;> exact spec.2 _
  case mutexLock =>
    split at hexec
    · next free =>
        cases hexec
        have view : ({ b with lock := some .ws } : Bridge).wsView =
            { b.wsView with held := true } := by simp [Bridge.wsView]
        rw [view]
        exact spec.2
    · cases hexec
  case mutexUnlock =>
    split at hexec
    · cases hexec
      have view : ({ b with lock := none } : Bridge).wsView =
          { b.wsView with held := false } := by simp [Bridge.wsView]
      rw [view]
      exact spec.2
    · cases hexec
  case txPut frame =>
    split at hexec
    · cases hexec; exact spec _ _ (.inr ⟨rfl, rfl⟩)
    · cases hexec; exact spec _ _ (.inl ⟨rfl, rfl⟩)
  case rxGet => split at hexec <;> cases hexec <;> exact spec _
  case uptimeUs | readPast => cases hexec; exact spec _
  case canReadyGet | canReadySet | currentModeGet | currentModeSet | currentBitrateGet
    | currentBitrateSet | rxPurge | rxStreamingSet => cases hexec; exact spec
  case jsonObjParse => cases hexec; exact spec _ rfl
  case deviceIsReady | canAddRxFilter | canSendSubmit | canSendWait | txGet | rxPut
    | rxStreamingGet | txThreadCreate => exact spec.elim

end WsSpec

/-! ## The worker -/

/-- The worker's part of the bridge. -/
structure WorkerView where
  held : Bool
  inHand : Option CanFrame

def Bridge.workerView (b : Bridge) : WorkerView where
  held := b.lock = some .worker
  inHand := b.inHand

/-- The calls of the worker on its view: it passes to `can_send` exactly the
frame it took from the queue, under the lock. -/
def workerSpec : Spec CanCall.Answer WorkerView := fun c post v =>
  match c with
  | .txGet => v.held = false ∧ v.inHand = none ∧ ∀ frame, post frame { v with inHand := some frame }
  | .mutexLock => v.held = false ∧ v.inHand.isSome ∧ post () { v with held := true }
  | .mutexUnlock => v.held = true ∧ v.inHand = none ∧ post () { v with held := false }
  | .canSendSubmit frame _ =>
      v.held = true ∧ v.inHand = some frame ∧ ∀ ret, post ret { v with inHand := none }
  | .canSendWait => v.held = true ∧ v.inHand = none ∧ ∀ ret, post ret v
  | _ => False

theorem workerSpec_describes (parse : Bytes → ParseResult) :
    Describes (exec parse .worker) (fun _ _ _ => True) Bridge.workerView workerSpec := by
  intro c o b r b' post _ hexec spec
  cases c <;> simp only [exec] at hexec
  case txGet =>
    split at hexec
    · cases hexec
    · cases hexec; exact spec.2.2 _
  case mutexLock =>
    split at hexec
    · cases hexec
      have view : ({ b with lock := some .worker } : Bridge).workerView =
          { b.workerView with held := true } := by simp [Bridge.workerView]
      rw [view]
      exact spec.2.2
    · cases hexec
  case mutexUnlock =>
    split at hexec
    · cases hexec
      have view : ({ b with lock := none } : Bridge).workerView =
          { b.workerView with held := false } := by simp [Bridge.workerView]
      rw [view]
      exact spec.2.2
    · cases hexec
  case canSendSubmit => cases hexec; exact spec.2.2 _
  case canSendWait =>
    split at hexec
    · cases hexec; exact spec.2.2 _
    · cases hexec
  all_goals exact spec.elim

/-! ## Neither thread touches the other's part -/

/-- The calls the WebSocket thread makes. -/
def WsCall (c : CanCall) : Prop :=
  match c with
  | .deviceIsReady | .canAddRxFilter _ | .canSendSubmit _ _ | .canSendWait | .txGet
  | .rxPut _ | .rxStreamingGet | .txThreadCreate => False
  | _ => True

/-- The calls the worker makes. -/
def WorkerCall (c : CanCall) : Prop :=
  match c with
  | .txGet | .mutexLock | .mutexUnlock | .canSendSubmit _ _ | .canSendWait => True
  | _ => False

theorem wsSpec_wsCall {parse : Bytes → ParseResult}
    {ok : WsView → CanCall → Outcome → Prop} {c : CanCall} {post : c.Answer → WsView → Prop}
    {v : WsView} (spec : wsSpec parse ok c post v) : WsCall c := by
  cases c <;> first | trivial | exact spec.2

theorem workerSpec_workerCall {c : CanCall} {post : c.Answer → WorkerView → Prop}
    {v : WorkerView} (spec : workerSpec c post v) : WorkerCall c := by
  cases c <;> trivial

theorem worker_leaves (parse : Bytes → ParseResult) :
    Leaves (exec parse .worker) WorkerCall Bridge.wsView := by
  intro c o b r b' hc hexec
  cases c <;> first | exact hc.elim | skip
  all_goals simp only [exec] at hexec
  case canSendSubmit => cases hexec; rfl
  case mutexLock =>
    split at hexec
    · next free => cases hexec; simp [Bridge.wsView, Option.isNone_iff_eq_none.mp free]
    · cases hexec
  case mutexUnlock =>
    split at hexec
    · next mine => cases hexec; simp [Bridge.wsView, mine]
    · cases hexec
  case txGet | canSendWait => split at hexec <;> cases hexec; rfl

theorem ws_leaves (parse : Bytes → ParseResult) :
    Leaves (exec parse .ws) WsCall Bridge.workerView := by
  intro c o b r b' hc hexec
  cases c <;> first | exact hc.elim | skip
  all_goals simp only [exec] at hexec
  case mutexLock =>
    split at hexec
    · next free => cases hexec; simp [Bridge.workerView, Option.isNone_iff_eq_none.mp free]
    · cases hexec
  case mutexUnlock =>
    split at hexec
    · next mine => cases hexec; simp [Bridge.workerView, mine]
    · cases hexec
  case numUsedGet q => cases q <;> cases hexec <;> rfl
  case numFreeGet q => cases q <;> cases hexec <;> rfl
  case canGetState | txPut | rxGet => split at hexec <;> cases hexec <;> rfl
  all_goals cases hexec; rfl

/-! ## The rule -/

/-- The WebSocket thread is out of its critical sections: it does not hold the
lock and has not left the controller stopped. -/
def WsView.Quiet (v : WsView) : Prop := v.held = false ∧ v.ctrl.gap = false

section Rule

variable (parse : Bytes → ParseResult) (ok : WsView → CanCall → Outcome → Prop)
  (Idle : WsView → Prop) (Done : Job → WsView → Reply → WsView → Prop)

/-- What holds of the WebSocket thread: `Idle` between jobs, and during a job
the rest of the code leads to `Done`. -/
def WsInv (s : State) : Prop :=
  match s.ws with
  | none => s.bridge.wsView.Quiet ∧ Idle s.bridge.wsView
  | some sv =>
      Idle sv.before.wsView ∧
      sv.rest.wp (wsSpec parse ok)
        (fun reply v => v.Quiet ∧ Done sv.job sv.before.wsView reply v) s.bridge.wsView

/-- What holds of the worker. -/
def WorkerInv (s : State) : Prop :=
  s.worker.wp workerSpec (fun _ v => v.held = false ∧ v.inHand = none) s.bridge.workerView

/-- Every finished job met its contract. -/
def LogInv (s : State) : Prop :=
  ∀ x ∈ s.log, Idle x.before.wsView ∧ Done x.job x.before.wsView x.reply x.after.wsView

/-- The outcome of a driver call of the WebSocket thread meets `ok`. -/
def WsOk (s : State) (e : Event) : Prop :=
  match e, s.ws with
  | .ws o, some ⟨_, _, .call c _⟩ => ok s.bridge.wsView c o
  | _, _ => True

/-- A contract for the jobs of the WebSocket thread. -/
structure WsContract : Prop where
  serve : ∀ (job : Job) response v, v.Quiet →
    (job.program response).wp (wsSpec parse ok)
      (fun reply v' => v'.Quiet ∧ Done job v reply v') v
  back : ∀ job v reply v', Idle v → Done job v reply v' → Idle v'

end Rule

theorem canTxThread_wp {v : WorkerView} (free : v.held = false) (none : v.inHand = none) :
    canTxThread.wp workerSpec (fun _ v => v.held = false ∧ v.inHand = Option.none) v := by
  refine ⟨free, none, fun frame => ⟨free, rfl, rfl, rfl, fun ret => ?_⟩⟩
  cases ret with
  | none => exact ⟨rfl, rfl, fun _ => ⟨rfl, rfl, rfl, rfl⟩⟩
  | some ret => exact ⟨rfl, rfl, rfl, rfl⟩

section Step

variable {parse : Bytes → ParseResult} {ok : WsView → CanCall → Outcome → Prop}
  {Idle : WsView → Prop} {Done : Job → WsView → Reply → WsView → Prop} {s t : State}

/-- One step keeps both invariants and the log. -/
theorem WsContract.keeps (contract : WsContract parse ok Idle Done) {e : Event}
    (admitted : WsOk ok s e) (moved : Moved parse s e t) (ws : WsInv parse ok Idle Done s)
    (worker : WorkerInv s) (log : LogInv Idle Done s) :
    WsInv parse ok Idle Done t ∧ WorkerInv t ∧ LogInv Idle Done t := by
  cases moved with
  | request idle =>
      simp only [WsInv, idle] at ws
      exact ⟨⟨ws.2, contract.serve _ _ _ ws.1⟩, worker, log⟩
  | wsCall busy hexec =>
      simp only [WsInv, busy] at ws
      simp only [WsOk, busy] at admitted
      have call := wsSpec_wsCall ws.2
      exact ⟨⟨ws.1, (wsSpec_describes parse ok).wp_step admitted hexec ws.2⟩,
        (ws_leaves parse).wp_step call hexec worker, log⟩
  | reply busy =>
      simp only [WsInv, busy, Prog.wp_ret] at ws
      obtain ⟨idle, quiet, done⟩ := ws
      refine ⟨⟨quiet, contract.back _ _ _ _ idle done⟩, worker, fun x hx => ?_⟩
      rcases List.mem_append.mp hx with old | new
      · exact log x old
      · rw [List.mem_singleton.mp new]
        exact ⟨idle, done⟩
  | workerCall busy hexec =>
      simp only [WorkerInv, busy] at worker
      have call := workerSpec_workerCall worker
      have same := worker_leaves parse _ _ _ _ _ call hexec
      refine ⟨?_, (workerSpec_describes parse).wp_step trivial hexec worker, log⟩
      simpa only [WsInv, same] using ws
  | round done =>
      simp only [WorkerInv, done, Prog.wp_ret] at worker
      exact ⟨ws, canTxThread_wp worker.1 worker.2, log⟩
  | bus | frame => exact ⟨ws, worker, log⟩

end Step

/-- The rule: under a contract, both invariants hold in every interleaving and
every finished job has met the contract. -/
theorem WsContract.reach {parse : Bytes → ParseResult}
    {ok : WsView → CanCall → Outcome → Prop} {Idle : WsView → Prop}
    {Done : Job → WsView → Reply → WsView → Prop}
    (contract : WsContract parse ok Idle Done)
    {admits : State → Event → Prop} (implies : ∀ s e, admits s e → WsOk ok s e)
    {init : Bridge → Prop} (start : ∀ b, init b → b.wsView.Quiet ∧ Idle b.wsView)
    (idle : ∀ b, init b → b.workerView = ⟨false, none⟩)
    {s : State} (reach : (machine parse init).Reach admits s) :
    WsInv parse ok Idle Done s ∧ WorkerInv s ∧ LogInv Idle Done s := by
  refine reach.invariant (I := fun s =>
    WsInv parse ok Idle Done s ∧ WorkerInv s ∧ LogInv Idle Done s) ?_ ?_
  · rintro _ ⟨b, hinit, rfl⟩
    refine ⟨start b hinit, ?_, fun x hx => absurd hx List.not_mem_nil⟩
    simp only [WorkerInv, idle b hinit]
    exact canTxThread_wp rfl rfl
  · intro s e t ⟨ws, worker, log⟩ admitted hstep
    exact contract.keeps (implies s e admitted) (step_moved parse hstep) ws worker log

end PicoCan.Can
