import PicoCan.Calls.Runs
import PicoCan.Can.Bridge

/-!
# The bridge at run time

The shared state of `can_bridge.c` (`Bridge`), what each call does to it
(`exec`), and the machine in which two threads run over it: the WebSocket
thread, which handles one job after another, and the TX worker, which loops
over `canTxThread`. A step is one call of one thread, one frame on the bus
reaching the driver, or the bus resolving a frame that is being sent.

`Moved` says once what a step can do; everything about runs is derived from it.
-/

namespace PicoCan.Can

open Calls

/-- The threads that make calls. -/
inductive Thread
  | main | driver | ws | worker
deriving DecidableEq

/-- A frame as it was passed to `can_send`, with the controller's `gap` then. -/
structure SentFrame where
  frame : CanFrame
  gap : Bool
deriving DecidableEq

/-- The shared state. `mailbox` holds a frame that `can_send` has taken over and
the bus has not resolved, `txResult` how the last one ended; `inHand` is the
worker's local `frame` between dequeue and `can_send`. `sent`, `accepted` and
`stopCalls` only record history: the frames passed to `can_send`, the frames
`k_msgq_put` accepted for the TX queue, and the number of `can_stop` calls. -/
structure Bridge where
  ctrl : Controller
  canReady : Bool := false
  currentMode : CanMode := canModeNormal
  currentBitrate : UInt32 := configCanDefaultBitrate
  txQueue : Fifo CanFrame canTxQueueLen := .empty
  rxQueue : Fifo CanFrame canRxQueueLen := .empty
  rxStreaming : Bool := false
  rxFilter : Option CanFilter := none
  lock : Option Thread := none
  mailbox : Option CanFrame := none
  txResult : Int := 0
  inHand : Option CanFrame := none
  sent : List SentFrame := []
  accepted : List CanFrame := []
  stopCalls : Nat := 0

/-- Before `main` runs: the driver has set the default bitrate. -/
def Bridge.powerOn : Bridge where
  ctrl := { started := false, mode := canModeNormal, bitrate := configCanDefaultBitrate }

section Exec

variable (parse : Bytes → ParseResult)

/-- One call of thread `t`: nothing when it has to wait. -/
def exec (t : Thread) : (c : CanCall) → Outcome → Bridge → Option (c.Answer × Bridge)
  | .deviceIsReady, o, b => some (o.deviceReady, b)
  | .canSetMode mode, o, b =>
      some ((b.ctrl.setMode mode o).1, { b with ctrl := (b.ctrl.setMode mode o).2 })
  | .canSetBitrate bitrate, o, b =>
      some ((b.ctrl.setBitrate bitrate o).1, { b with ctrl := (b.ctrl.setBitrate bitrate o).2 })
  | .canStart site, o, b =>
      some ((b.ctrl.start site o).1, { b with ctrl := (b.ctrl.start site o).2 })
  | .canStop, o, b =>
      -- a frame still in the mailbox is aborted
      let aborted := b.mailbox.isSome ∧ (b.ctrl.stop o).1 = 0
      some ((b.ctrl.stop o).1, { b with
        ctrl := (b.ctrl.stop o).2
        mailbox := if aborted then none else b.mailbox
        txResult := if aborted then -eNetDown else b.txResult
        stopCalls := b.stopCalls + 1 })
  | .canGetState, o, b =>
      match o.fail with
      | some e => some (⟨e.ret, .stopped, 0, 0⟩, b)
      | none =>
          some (⟨0, if b.ctrl.started then o.state else .stopped, o.txErr, o.rxErr⟩, b)
  | .canAddRxFilter filter, o, b =>
      match o.fail with
      | some e => some (e.ret, b)
      | none => some (0, { b with rxFilter := some filter })
  | .canSendSubmit frame _, o, b =>
      some (b.ctrl.refusal o, { b with
        mailbox := if (b.ctrl.refusal o).isNone then some frame else b.mailbox
        inHand := none
        sent := b.sent ++ [⟨frame, b.ctrl.gap⟩] })
  | .canSendWait, _, b => if b.mailbox.isNone then some (b.txResult, b) else none
  | .mutexLock, _, b => if b.lock.isNone then some ((), { b with lock := some t }) else none
  | .mutexUnlock, _, b =>
      if b.lock = some t then some ((), { b with lock := none }) else none
  | .canReadyGet, _, b => some (b.canReady, b)
  | .canReadySet ready, _, b => some ((), { b with canReady := ready })
  | .currentModeGet, _, b => some (b.currentMode, b)
  | .currentModeSet mode, _, b => some ((), { b with currentMode := mode })
  | .currentBitrateGet, _, b => some (b.currentBitrate, b)
  | .currentBitrateSet bitrate, _, b => some ((), { b with currentBitrate := bitrate })
  | .txPut frame, _, b =>
      match b.txQueue.put frame with
      | none => some (-eNoMsg, b)
      | some q => some (0, { b with txQueue := q, accepted := b.accepted ++ [frame] })
  | .txGet, _, b =>
      match b.txQueue.get with
      | none => none
      | some (frame, q) => some (frame, { b with txQueue := q, inHand := some frame })
  | .rxPut frame, _, b =>
      match b.rxQueue.put frame with
      | none => some (-eNoMsg, b)
      | some q => some (0, { b with rxQueue := q })
  | .rxGet, _, b =>
      match b.rxQueue.get with
      | none => some (none, b)
      | some (frame, q) => some (some frame, { b with rxQueue := q })
  | .rxPurge, _, b => some ((), { b with rxQueue := .empty })
  | .rxStreamingGet, _, b => some (b.rxStreaming, b)
  | .rxStreamingSet enabled, _, b => some ((), { b with rxStreaming := enabled })
  | .numUsedGet .tx, _, b => some (b.txQueue.numUsed, b)
  | .numUsedGet .rx, _, b => some (b.rxQueue.numUsed, b)
  | .numFreeGet .tx, _, b => some (b.txQueue.numFree, b)
  | .numFreeGet .rx, _, b => some (b.rxQueue.numFree, b)
  | .uptimeUs, o, b => some (o.us, b)
  | .readPast _, o, b => some (o.stray, b)
  | .jsonObjParse json, _, b => some (parse json, b)
  | .txThreadCreate, _, b => some ((), b)

/-- What the WebSocket side does with the bridge, one at a time. -/
inductive Job
  | text (payload : Bytes)
  | nextRx
  | setRxStreaming (enabled : Bool)

/-- The code of a job, with what the response buffer holds when it starts. -/
def Job.program (response : Bytes) : Job → CanProg Reply
  | .text payload => canBridgeHandleWsText payload response wsResponseMax
  | .nextRx => canBridgeFormatNextRx response wsResponseMax
  | .setRxStreaming enabled => do
      canBridgeSetRxStreaming enabled
      return (0, response)

/-- A job under way: the state it started in and the code still to run. -/
structure Serving where
  job : Job
  before : Bridge
  rest : CanProg Reply

/-- A finished job. -/
structure Served where
  job : Job
  before : Bridge
  reply : Reply
  after : Bridge

structure State where
  bridge : Bridge
  ws : Option Serving := none
  worker : CanProg Unit := canTxThread
  log : List Served := []

/-- The labels of the machine. A `request` also names what the response buffer
happens to hold. -/
inductive Event
  | request (job : Job) (response : Bytes)
  | ws (o : Outcome)
  | worker (o : Outcome)
  | bus (result : Int)
  | frame (frame : CanFrame)

/-- The driver sees a frame on the bus: the callback runs if the filter accepts it. -/
def Bridge.deliver (frame : CanFrame) (b : Bridge) : Option Bridge :=
  match b.rxFilter with
  | some filter =>
      if filter.accepts frame then
        ((canRxCallback frame).attempt (fun c => exec parse .driver c {}) b).map Prod.snd
      else some b
  | none => some b

/-- The RX queue after the driver has offered it a frame. -/
def Bridge.offered (frame : CanFrame) (b : Bridge) : Fifo CanFrame canRxQueueLen :=
  if b.rxFilter.any (·.accepts frame) ∧ b.rxStreaming then
    (b.rxQueue.put frame).getD b.rxQueue
  else b.rxQueue

/-- The callback changes the RX queue and nothing else. -/
theorem Bridge.deliver_eq (frame : CanFrame) (b : Bridge) :
    b.deliver parse frame = some { b with rxQueue := b.offered frame } := by
  rcases b with ⟨_, _, _, _, _, rxQueue, streaming, installed, _⟩
  cases installed with
  | none => rfl
  | some filter =>
      cases accepts : filter.accepts frame with
      | false => simp [Bridge.deliver, Bridge.offered, accepts]
      | true =>
          cases streaming with
          | false => simp [Bridge.deliver, Bridge.offered, accepts, canRxCallback, perform, exec]
          | true =>
              cases put : rxQueue.put frame <;>
                simp [Bridge.deliver, Bridge.offered, accepts, canRxCallback, perform, exec, put]

def step (s : State) : Event → Option State
  | .request job response =>
      match s.ws with
      | some _ => none
      | none => some { s with ws := some ⟨job, s.bridge, job.program response⟩ }
  | .ws o =>
      match s.ws with
      | none => none
      | some ⟨job, before, .ret reply⟩ =>
          some { s with ws := none, log := s.log ++ [⟨job, before, reply, s.bridge⟩] }
      | some ⟨job, before, .call c k⟩ =>
          (exec parse .ws c o s.bridge).map fun (r, b) =>
            { s with bridge := b, ws := some ⟨job, before, k r⟩ }
  | .worker o =>
      match s.worker with
      | .ret _ => some { s with worker := canTxThread }
      | .call c k =>
          (exec parse .worker c o s.bridge).map fun (r, b) =>
            { s with bridge := b, worker := k r }
  | .bus result =>
      if s.bridge.mailbox.isSome then
        some { s with bridge := { s.bridge with mailbox := none, txResult := result } }
      else none
  | .frame frame => (s.bridge.deliver parse frame).map fun b => { s with bridge := b }

/-- Everything a step can do. -/
inductive Moved (s : State) : Event → State → Prop
  | request {job : Job} {response : Bytes} (idle : s.ws = none) :
      Moved s (.request job response)
        { s with ws := some ⟨job, s.bridge, job.program response⟩ }
  | wsCall {o : Outcome} {job : Job} {before b : Bridge} {c : CanCall}
      {k : c.Answer → CanProg Reply} {r : c.Answer} (busy : s.ws = some ⟨job, before, .call c k⟩)
      (hexec : exec parse .ws c o s.bridge = some (r, b)) :
      Moved s (.ws o) { s with bridge := b, ws := some ⟨job, before, k r⟩ }
  | reply {o : Outcome} {job : Job} {before : Bridge} {reply : Reply}
      (busy : s.ws = some ⟨job, before, .ret reply⟩) :
      Moved s (.ws o) { s with ws := none, log := s.log ++ [⟨job, before, reply, s.bridge⟩] }
  | workerCall {o : Outcome} {b : Bridge} {c : CanCall} {k : c.Answer → CanProg Unit}
      {r : c.Answer} (busy : s.worker = .call c k)
      (hexec : exec parse .worker c o s.bridge = some (r, b)) :
      Moved s (.worker o) { s with bridge := b, worker := k r }
  | round {o : Outcome} (done : s.worker = .ret ()) :
      Moved s (.worker o) { s with worker := canTxThread }
  | bus {result : Int} (sending : s.bridge.mailbox.isSome = true) :
      Moved s (.bus result)
        { s with bridge := { s.bridge with mailbox := none, txResult := result } }
  | frame {frame : CanFrame} :
      Moved s (.frame frame)
        { s with bridge := { s.bridge with rxQueue := s.bridge.offered frame } }

theorem step_moved {s t : State} {e : Event} (hstep : step parse s e = some t) :
    Moved parse s e t := by
  cases e with
  | request job response =>
      simp only [step] at hstep
      split at hstep
      · cases hstep
      · next idle => cases hstep; exact .request idle
  | ws o =>
      simp only [step] at hstep
      split at hstep
      · cases hstep
      · next busy => cases hstep; exact .reply busy
      · next busy =>
          obtain ⟨⟨r, b⟩, hexec, rfl⟩ := Option.map_eq_some_iff.mp hstep
          exact .wsCall busy hexec
  | worker o =>
      simp only [step] at hstep
      split at hstep
      · next done => cases hstep; exact .round done
      · next busy =>
          obtain ⟨⟨r, b⟩, hexec, rfl⟩ := Option.map_eq_some_iff.mp hstep
          exact .workerCall busy hexec
  | bus result =>
      simp only [step] at hstep
      split at hstep
      · next sending => cases hstep; exact .bus sending
      · cases hstep
  | frame frame =>
      simp only [step, Bridge.deliver_eq, Option.map_some] at hstep
      cases hstep
      exact .frame

/-! ## What happens to the bridge -/

/-- A call of a thread with its answer, the bus resolving a frame, or a frame on the bus. -/
inductive Touch
  | call (t : Thread) (c : CanCall) (answer : c.Answer)
  | bus (result : Int)
  | frame (frame : CanFrame)

/-- A call that is answered. -/
def callTouches (t : Thread) (c : CanCall) (o : Outcome) (b : Bridge) : List Touch :=
  match exec parse t c o b with
  | some (r, _) => [.call t c r]
  | none => []

/-- What a step does to the bridge. -/
def touches (s : State) : Event → List Touch
  | .request _ _ => []
  | .ws o =>
      match s.ws with
      | some ⟨_, _, .call c _⟩ => callTouches parse .ws c o s.bridge
      | _ => []
  | .worker o =>
      match s.worker with
      | .call c _ => callTouches parse .worker c o s.bridge
      | .ret _ => []
  | .bus result => [.bus result]
  | .frame frame => [.frame frame]

/-- The bridge after a successful `can_bridge_init`, with the outcomes its calls
had. Every call of it is made at most once. -/
def InitDone (b : Bridge) : Prop :=
  ∃ o : CanCall → Outcome,
    canBridgeInit.attempt (fun c => exec parse .main c (o c)) Bridge.powerOn = some (0, b)

/-- The machine, started in any state of the bridge that satisfies `init`, with
no job under way and the worker at the top of its loop. -/
def machine (init : Bridge → Prop) : Machine State Event where
  Start s := ∃ b, init b ∧ s = { bridge := b }
  step := step parse

theorem machine_start {init : Bridge → Prop} {ok : State → Event → Prop} {b : Bridge}
    (h : init b) : (machine parse init).Reach ok { bridge := b } := .start ⟨b, h, rfl⟩

/-- The bridge a successful init leaves: the controller in the default
configuration, the catch-all filter installed, everything else as it was at
power-on. The driver's "already" leaves a stopped controller stopped. -/
def Bridge.initialised (started : Bool) : Bridge where
  ctrl := ⟨started, canModeNormal, configCanDefaultBitrate, false⟩
  canReady := true
  rxFilter := some catchAll

theorem InitDone.eq {b : Bridge} (init : InitDone parse b) :
    ∃ started, b = Bridge.initialised started := by
  obtain ⟨o, run⟩ := init
  simp only [canBridgeInit, perform, Prog.perform_bind, Prog.attempt_call, exec,
    Prog.attempt_ite, Prog.pure_eq, Prog.attempt_ret, Option.bind_some] at run
  split at run
  · simp [eNoDev] at run
  rcases Controller.setMode_cases Bridge.powerOn.currentMode
      (o (.canSetMode Bridge.powerOn.currentMode)) Bridge.powerOn.ctrl with
    ⟨ret, neg, set⟩ | ⟨-, set⟩
  · rw [set, if_pos neg] at run
    obtain ⟨rfl, -⟩ := Prod.mk.inj (Option.some.inj run)
    exact absurd neg (by decide)
  rw [set] at run
  split at run
  · next neg => exact absurd neg (Int.lt_irrefl 0)
  split at run
  · next failed =>
      obtain ⟨zero, -⟩ := Prod.mk.inj (Option.some.inj run)
      rw [zero] at failed
      exact absurd failed.1 (by decide)
  cases filtered : (o (.canAddRxFilter catchAll)).fail with
  | some e =>
      simp only [filtered, Option.bind_some, if_pos e.ret_neg] at run
      obtain ⟨zero, -⟩ := Prod.mk.inj (Option.some.inj run)
      exact absurd e.ret_neg (by rw [zero]; decide)
  | none =>
      simp only [filtered, Option.bind_some] at run
      split at run
      · next neg => exact absurd neg (Int.lt_irrefl 0)
      obtain ⟨-, rfl⟩ := Prod.mk.inj (Option.some.inj run)
      rcases Controller.start_cases .init (o (.canStart .init))
          { Bridge.powerOn.ctrl with mode := Bridge.powerOn.currentMode } with
        ⟨running, -⟩ | ⟨-, e, -, start⟩ | ⟨-, -, start⟩
      · cases running
      · rw [start]; exact ⟨false, rfl⟩
      · rw [start]; exact ⟨true, rfl⟩

/-- An init all of whose calls succeed. -/
theorem initDone_initialised : InitDone parse (Bridge.initialised true) := ⟨fun _ => {}, rfl⟩

end Exec

end PicoCan.Can
