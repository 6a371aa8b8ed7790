import PicoCan.Can.Requests

/-!
# The lock between the two threads

`can_lock` orders the worker's `can_send` against reconfiguration. Two things
are asked of it: that the worker never sends while a request has the controller
stopped, and that a request never waits for the bus.

The error exit of `handle_can_config_set` releases the lock with the controller
still stopped and takes it again (`ReopenedWindow`); a worker that gets in
between sends to a stopped controller. And since `can_send` returns only when
the bus is done with the frame, a request may wait for the lock as long as the
bus keeps the frame (`BusHeld`).
-/

namespace PicoCan.Can

open Calls

variable {parse : Bytes → ParseResult} {admits : State → Event → Prop}

/-! ## Who holds the lock -/

/-- Only the two threads ever take the lock. -/
def LockOwned (lock : Option Thread) : Prop :=
  lock = none ∨ lock = some .ws ∨ lock = some .worker

/-- A call either leaves the lock alone, or it is a lock or unlock of the caller. -/
theorem exec_lock {t : Thread} {c : CanCall} {o : Outcome} {b b' : Bridge} {r : c.Answer}
    (hexec : exec parse t c o b = some (r, b')) :
    b'.lock = b.lock ∨ (c = .mutexLock ∧ b.lock = none ∧ b'.lock = some t) ∨
      (c = .mutexUnlock ∧ b.lock = some t ∧ b'.lock = none) := by
  cases c <;> simp only [exec] at hexec
  case mutexLock =>
    split at hexec
    · next free => cases hexec; exact .inr (.inl ⟨rfl, Option.isNone_iff_eq_none.mp free, rfl⟩)
    · cases hexec
  case mutexUnlock =>
    split at hexec
    · next mine => cases hexec; exact .inr (.inr ⟨rfl, mine, rfl⟩)
    · cases hexec
  case numUsedGet q | numFreeGet q => cases q <;> cases hexec <;> exact .inl rfl
  case canGetState | canAddRxFilter | canSendWait | txPut | txGet | rxPut | rxGet =>
    split at hexec <;> cases hexec <;> exact .inl rfl
  all_goals cases hexec; exact .inl rfl

/-- Only `can_send` adds to the frames sent. -/
theorem exec_sent {t : Thread} {c : CanCall} {o : Outcome} {b b' : Bridge} {r : c.Answer}
    (hexec : exec parse t c o b = some (r, b')) :
    b'.sent = b.sent ∨ ∃ frame ms, c = .canSendSubmit frame ms ∧
      b'.sent = b.sent ++ [⟨frame, b.ctrl.gap⟩] := by
  cases c <;> simp only [exec] at hexec
  case canSendSubmit frame ms => cases hexec; exact .inr ⟨frame, ms, rfl, rfl⟩
  case numUsedGet q | numFreeGet q => cases q <;> cases hexec <;> exact .inl rfl
  case canGetState | canAddRxFilter | canSendWait | txPut | txGet | rxPut | rxGet
    | mutexLock | mutexUnlock =>
    split at hexec <;> cases hexec <;> exact .inl rfl
  all_goals cases hexec; exact .inl rfl

/-- Without the lock the WebSocket thread does not touch the controller. -/
theorem exec_ctrl {ok : WsView → CanCall → Outcome → Prop} {c : CanCall} {o : Outcome}
    {b b' : Bridge} {r : c.Answer} {post : c.Answer → WsView → Prop}
    (spec : wsSpec parse ok c post b.wsView) (free : b.lock ≠ some .ws)
    (hexec : exec parse .ws c o b = some (r, b')) : b'.ctrl = b.ctrl := by
  replace spec := spec.2
  have unheld : b.wsView.held ≠ true := by simpa [Bridge.wsView] using free
  cases c <;> simp only [exec] at hexec
  case canSetMode | canSetBitrate | canStart | canStop => exact absurd spec.1 unheld
  case numUsedGet q | numFreeGet q => cases q <;> cases hexec <;> rfl
  case canGetState | canAddRxFilter | canSendWait | txPut | txGet | rxPut | rxGet
    | mutexLock | mutexUnlock =>
    split at hexec <;> cases hexec <;> rfl
  all_goals cases hexec; rfl

theorem lockOwned_reach {s : State}
    (reach : (machine parse (InitDone parse)).Reach admits s) : LockOwned s.bridge.lock := by
  refine reach.invariant (I := fun s => LockOwned s.bridge.lock) ?_ ?_
  · rintro _ ⟨b, init, rfl⟩
    obtain ⟨started, rfl⟩ := init.eq
    exact .inl rfl
  · intro s e t owned _ hstep
    cases step_moved parse hstep with
    | wsCall _ hexec =>
        rcases exec_lock hexec with same | ⟨-, -, taken⟩ | ⟨-, -, freed⟩
        · exact same ▸ owned
        · exact .inr (.inl taken)
        · exact .inl freed
    | workerCall _ hexec =>
        rcases exec_lock hexec with same | ⟨-, -, taken⟩ | ⟨-, -, freed⟩
        · exact same ▸ owned
        · exact .inr (.inr taken)
        · exact .inl freed
    | request | reply | round | bus | frame => exact owned

/-! ## Sending to a stopped controller -/

/-- The WebSocket thread has stopped the controller, released the lock and is
about to take it again. -/
def ReopenedWindow (s : State) : Prop :=
  s.bridge.ctrl.gap = true ∧
    ∃ job before k, s.ws = some ⟨job, before, .call .mutexLock k⟩

/-- The worker does not take the lock in the window of the error exit. -/
def AvoidsWindow (s : State) (e : Event) : Prop :=
  match e, s.worker with
  | .worker _, .call .mutexLock _ => ¬ ReopenedWindow s
  | _, _ => True

/-- No frame was passed to `can_send` between a successful `can_stop` and the
next successful `can_start`. -/
def SentRunning (s : State) : Prop := ∀ x ∈ s.bridge.sent, x.gap = false

/-- A stopped controller behind a free lock is the window of the error exit. -/
theorem reopenedWindow_of_gap {Idle : WsView → Prop}
    {ok : WsView → CanCall → Outcome → Prop} {Done : Job → WsView → Reply → WsView → Prop}
    {s : State} (ws : WsInv parse ok Idle Done s) (free : s.bridge.lock = none)
    (gap : s.bridge.ctrl.gap = true) : ReopenedWindow s := by
  refine ⟨gap, ?_⟩
  have unheld : s.bridge.wsView.held = false := by simp [Bridge.wsView, free]
  cases busy : s.ws with
  | none =>
      simp only [WsInv, busy] at ws
      exact absurd gap (by rw [show s.bridge.ctrl.gap = false from ws.1.2]; decide)
  | some serving =>
      obtain ⟨job, before, rest⟩ := serving
      simp only [WsInv, busy] at ws
      cases rest with
      | ret reply => exact absurd gap (by rw [show s.bridge.ctrl.gap = false from ws.2.1.2]; decide)
      | call c k =>
          have next := ws.2.1 unheld gap
          subst next
          exact ⟨job, before, k, rfl⟩

/-- While the worker holds the lock the controller is not stopped, and no frame
was sent while it was. -/
def WorkerSends (s : State) : Prop :=
  (s.bridge.lock = some .worker → s.bridge.ctrl.gap = false) ∧ SentRunning s

/-- A call of the WebSocket thread. -/
theorem WorkerSends.wsCall {ok : WsView → CanCall → Outcome → Prop} {c : CanCall} {o : Outcome}
    {b b' : Bridge} {r : c.Answer} {post : c.Answer → WsView → Prop}
    (spec : wsSpec parse ok c post b.wsView) (hexec : exec parse .ws c o b = some (r, b'))
    (before : b.lock = some .worker → b.ctrl.gap = false) :
    (b'.lock = some .worker → b'.ctrl.gap = false) ∧ b'.sent = b.sent := by
  refine ⟨fun held => ?_, ?_⟩
  · rcases exec_lock hexec with same | ⟨-, -, taken⟩ | ⟨-, -, freed⟩
    · rw [same] at held
      rw [exec_ctrl spec (by rw [held]; decide) hexec]
      exact before held
    · rw [taken] at held; cases held
    · rw [freed] at held; cases held
  · rcases exec_sent hexec with same | ⟨frame, ms, rfl, -⟩
    · exact same
    · exact spec.2.elim

/-- A call of the worker. -/
theorem WorkerSends.workerCall {c : CanCall} {o : Outcome} {b b' : Bridge} {r : c.Answer}
    {post : c.Answer → WorkerView → Prop} (spec : workerSpec c post b.workerView)
    (hexec : exec parse .worker c o b = some (r, b'))
    (outside : c = .mutexLock → b.lock = none → b.ctrl.gap = false)
    (before : b.lock = some .worker → b.ctrl.gap = false) (sent : ∀ x ∈ b.sent, x.gap = false) :
    (b'.lock = some .worker → b'.ctrl.gap = false) ∧ ∀ x ∈ b'.sent, x.gap = false := by
  have ctrl : b'.ctrl = b.ctrl := congrArg WsView.ctrl
    (worker_leaves parse c o b r b' (workerSpec_workerCall spec) hexec)
  refine ⟨fun held => ?_, ?_⟩
  · rw [ctrl]
    rcases exec_lock hexec with same | ⟨lock, free, -⟩ | ⟨-, -, freed⟩
    · exact before (same ▸ held)
    · exact outside lock free
    · rw [freed] at held; cases held
  · rcases exec_sent hexec with same | ⟨frame, ms, rfl, more⟩
    · rw [same]; exact sent
    · have held : b.lock = some .worker := of_decide_eq_true spec.1
      rw [more]
      intro x hx
      rcases List.mem_append.mp hx with old | new
      · exact sent x old
      · rw [List.mem_singleton.mp new]; exact before held

/-- Over every run in which the worker never takes the lock in the window of the
error exit, it never sends to a stopped controller. -/
theorem sends_running {s : State}
    (reach : (machine parse (InitDone parse)).Reach AvoidsWindow s) : SentRunning s := by
  refine (reach.invariant_of (I := WorkerSends) (fun s before => did_reach before) ?_ ?_).2
  · rintro _ ⟨b, init, rfl⟩
    obtain ⟨started, rfl⟩ := init.eq
    exact ⟨fun _ => rfl, fun x hx => absurd hx List.not_mem_nil⟩
  · intro s e t ⟨ws, worker, _⟩ ⟨before, sent⟩ avoids hstep
    cases step_moved parse hstep with
    | wsCall busy hexec =>
        simp only [WsInv, busy] at ws
        obtain ⟨after, same⟩ := WorkerSends.wsCall ws.2 hexec before
        exact ⟨after, fun x hx => sent x (same ▸ hx)⟩
    | workerCall busy hexec =>
        have outside := fun free gap => reopenedWindow_of_gap ws free gap
        simp only [WorkerInv, busy] at worker
        simp only [AvoidsWindow, busy] at avoids
        refine WorkerSends.workerCall worker hexec ?_ before sent
        rintro rfl free
        exact Bool.eq_false_iff.mpr fun gap => avoids (outside free gap)
    | request | reply | round | bus | frame => exact ⟨before, sent⟩

/-- A queued frame, then a request whose mode the driver refuses; the worker
takes the lock in between. -/
def sendInWindow : List Event :=
  .request (.text txRequest) [] :: List.replicate 5 (.ws {}) ++
    [.worker {}, .request (.text loopbackRequest) []] ++ List.replicate 7 (.ws {}) ++
    [.ws { fail := some errnoInval }, .ws {}, .worker {}, .worker {}]

theorem sent_stopped :
    ¬ ∀ parse s, (machine parse (InitDone parse)).Reach Machine.anyStep s → SentRunning s := by
  intro holds
  have start : (machine parseSample (InitDone parseSample)).Reach Machine.anyStep _ :=
    machine_start _ (initDone_initialised _)
  have running := holds parseSample _ (start.runs
    (show (machine _ _).runs _ sendInWindow = some _ from rfl))
  exact absurd (running _ List.mem_cons_self) (by decide)

/-- The same with the worker coming after the restart. -/
def sendAfterWindow : List Event :=
  .request (.text txRequest) [] :: List.replicate 5 (.ws {}) ++
    [.worker {}, .request (.text loopbackRequest) []] ++ List.replicate 7 (.ws {}) ++
    [.ws { fail := some errnoInval }] ++ List.replicate 5 (.ws {}) ++
    [.worker {}, .worker {}]

theorem sends_running_sendAfterWindow : ∃ s, (machine parseSample
      (InitDone parseSample)).runs { bridge := Bridge.initialised true } sendAfterWindow = some s ∧
    s.bridge.sent.length = 1 ∧ SentRunning s := by
  have start : (machine parseSample (InitDone parseSample)).Reach AvoidsWindow
      { bridge := Bridge.initialised true } := machine_start _ (initDone_initialised _)
  have along : (machine parseSample (InitDone parseSample)).Along AvoidsWindow
      { bridge := Bridge.initialised true } sendAfterWindow := by
    refine ⟨trivial, trivial, trivial, trivial, trivial, trivial, trivial, trivial, trivial,
      trivial, trivial, trivial, trivial, trivial, trivial, trivial, trivial, trivial, trivial,
      trivial, trivial, ?_, trivial, trivial⟩
    -- the controller runs again when the worker takes the lock
    exact fun window => absurd window.1 (by decide)
  obtain ⟨s, run, reach⟩ := start.along along
  refine ⟨s, run, ?_, sends_running reach⟩
  cases run
  rfl

end PicoCan.Can
