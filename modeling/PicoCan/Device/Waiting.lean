import PicoCan.Can.Progress
import PicoCan.Device.Safety

/-!
# Who waits for whom

A call of a server thread waits only for `can_lock`, and the other server thread never holds
it: the HTTP thread does not wait at all, and whatever the session thread waits for, the
worker and the bus bring about without anybody else.
-/

namespace PicoCan.Device

open Calls Machine
open PicoCan.Can (Bridge CanCall CanProg InitDone Outcome ParseResult Reply Serving Thread
  workerSpec)
open PicoCan.Http (HttpCall HttpProg Observed Owned SessionCode)

section Blocked

variable {parse : Bytes → ParseResult}

/-- What a call may have to wait for. -/
theorem canExec_blocked {t : Thread} {c : CanCall} {o : Outcome} {b : Bridge}
    (blocked : Can.exec parse t c o b = none) :
    (c = .mutexLock ∧ b.lock ≠ none) ∨ (c = .mutexUnlock ∧ b.lock ≠ some t) ∨
      c = .canSendWait ∨ c = .txGet := by
  cases c <;> simp only [Can.exec] at blocked
  case mutexLock =>
    refine .inl ⟨rfl, fun free => ?_⟩
    simp [free] at blocked
  case mutexUnlock =>
    refine .inr (.inl ⟨rfl, fun mine => ?_⟩)
    simp [mine] at blocked
  case canSendWait => exact .inr (.inr (.inl rfl))
  case txGet => exact .inr (.inr (.inr rfl))
  case numUsedGet q | numFreeGet q => cases q <;> cases blocked
  case canGetState | canAddRxFilter | txPut | rxPut | rxGet => split at blocked <;> cases blocked
  all_goals cases blocked

theorem exec_blocked {o : Outcome} {oracle : Http.Oracle} {c : HttpCall} {s : Shared}
    (blocked : exec parse o oracle c s = none) :
    ∃ c', c = .can c' ∧ Can.exec parse .ws c' o s.bridge = none := by
  cases c with
  | can c => exact ⟨c, rfl, Option.map_eq_none_iff.mp blocked⟩
  | wsActiveCas =>
      simp only [exec] at blocked
      split at blocked <;> cases blocked
  | _ => cases blocked

/-- Inside a job, only the worker is waited for. -/
theorem At.waits {α : Type} {a : Can.State} {s : Shared} {job : Option (CanProg Reply)}
    (reach : (Can.machine parse (InitDone parse)).Reach anyStep a) (same : a.bridge = s.bridge)
    (hand : a.ws.map Serving.rest = job) {o : Outcome} {oracle : Http.Oracle} {c : HttpCall}
    {k : c.Answer → HttpProg α} (stands : At job (.call c k))
    (blocked : exec parse o oracle c s = none) :
    c = .can .mutexLock ∧ s.bridge.lock = some .worker := by
  obtain ⟨c, rfl, stuck⟩ := exec_blocked blocked
  obtain ⟨a', serving, c', k', next, steps, bridge, -, busy, rest, begins, -⟩ :=
    stands.begins parse (InitDone parse) id hand
  cases begins
  have reach' := reach.steps steps.steps
  obtain ⟨ws, -, -⟩ := Can.did_reach reach'
  simp only [Can.WsInv, busy, rest] at ws
  obtain ⟨-, spec⟩ := ws.2
  have view : a'.bridge.lock = s.bridge.lock := by rw [bridge, same]
  rcases canExec_blocked stuck with ⟨rfl, held⟩ | ⟨rfl, others⟩ | rfl | rfl
  · have unheld : a'.bridge.lock ≠ some .ws := by simpa [Bridge.wsView] using spec.1
    rw [view] at unheld
    refine ⟨rfl, ?_⟩
    rcases Can.lockOwned_reach reach' with free | mine | worker
    · exact absurd (view.symm.trans free) held
    · exact absurd (view.symm.trans mine) unheld
    · exact view.symm.trans worker
  · have mine : a'.bridge.lock = some .ws := by simpa [Bridge.wsView] using spec.1
    exact absurd (view.symm.trans mine) others
  · exact spec.elim
  · exact spec.elim

end Blocked

/-! ## The worker gives the lock back -/

/-- The steps of the worker and of the bus. -/
def background (_ : State) : Event → Prop
  | .worker _ | .bus _ => True
  | _ => False

section Released

variable {parse : Bytes → ParseResult} {indexHtml : Bytes} {init : Bridge → Prop}

/-- The server threads have not moved. -/
structure Beside (s t : State) : Prop where
  http : t.http = s.http
  ws : t.ws = s.ws

variable (parse indexHtml init) in
/-- A worker that holds the lock releases it, with the help of the bus. By induction on the
code it has left. -/
theorem lock_released {s : State}
    (worker : s.worker.wp workerSpec (fun _ v => v.held = false ∧ v.inHand = none)
      s.shared.bridge.workerView) (locked : s.shared.bridge.lock = some .worker) :
    ∃ t, (device parse indexHtml init).Steps background s t ∧ Beside s t ∧
      t.shared.bridge.lock = none := by
  generalize code : s.worker = p at worker
  induction p generalizing s with
  | ret a =>
      have held : s.shared.bridge.workerView.held = true := by simp [Bridge.workerView, locked]
      exact absurd (worker.1.symm.trans held) Bool.false_ne_true
  | call c k ih =>
      have held : s.shared.bridge.workerView.held = true := by simp [Bridge.workerView, locked]
      -- one call of the worker, and the rest of its code
      have go : ∀ {u : State} {r : c.Answer} {b : Bridge}, u.worker = .call c k →
          u.shared.bridge.workerView = s.shared.bridge.workerView →
          Can.exec parse .worker c {} u.shared.bridge = some (r, b) → b.lock = some .worker →
          ∃ t, (device parse indexHtml init).Steps background u t ∧ Beside u t ∧
            t.shared.bridge.lock = none := by
        intro u r b busy view hexec still
        rw [← view] at worker
        have step : (device parse indexHtml init).step u (.worker {}) =
            some { u with shared := { u.shared with bridge := b }, worker := k r } := by
          show step parse indexHtml u (.worker {}) = _
          simp only [step, busy, hexec, Option.map_some]
        obtain ⟨t, steps, beside, free⟩ := ih r
          (s := { u with shared := { u.shared with bridge := b }, worker := k r })
          still rfl ((Can.workerSpec_describes parse).wp_step trivial hexec worker)
        exact ⟨t, (Steps.one trivial step).trans steps, ⟨beside.http, beside.ws⟩, free⟩
      cases c with
      | mutexUnlock =>
          refine ⟨{ s with
            shared := { s.shared with bridge := { s.shared.bridge with lock := none } }
            worker := k () }, .one (e := .worker {}) trivial ?_, ⟨rfl, rfl⟩, rfl⟩
          show step parse indexHtml s (.worker {}) = _
          simp only [step, code, Can.exec, locked, if_true, Option.map_some]
      | canSendSubmit frame ms => exact go code rfl rfl locked
      | canSendWait =>
          cases sending : s.shared.bridge.mailbox with
          | none =>
              have hexec : Can.exec parse .worker .canSendWait {} s.shared.bridge =
                  some (s.shared.bridge.txResult, s.shared.bridge) := by
                simp [Can.exec, sending]
              exact go code rfl hexec locked
          | some frame =>
              -- the bus resolves the frame first
              have step : (device parse indexHtml init).step s (.bus 0) =
                  some { s with shared := { s.shared with
                    bridge := { s.shared.bridge with mailbox := none, txResult := 0 } } } := by
                show step parse indexHtml s (.bus 0) = _
                simp only [step, sending, Option.isSome_some, if_true]
              obtain ⟨t, steps, beside, free⟩ := go (r := (0 : Int))
                (u := { s with shared := { s.shared with
                  bridge := { s.shared.bridge with mailbox := none, txResult := 0 } } })
                code rfl rfl locked
              exact ⟨t, (Steps.one trivial step).trans steps, ⟨beside.http, beside.ws⟩, free⟩
      | txGet | mutexLock => exact absurd (worker.1.symm.trans held) Bool.false_ne_true
      | _ => exact worker.elim

end Released

/-! ## The server threads -/

/-- The next call of the session thread. -/
def SessionCode.calls : SessionCode → Option HttpCall
  | .loop (.call c _) => some c
  | .leaving (.call c _) => some c
  | _ => none

section Served

variable {parse : Bytes → ParseResult} {indexHtml : Bytes} {s : State}

/-- The HTTP thread never waits, whatever the CAN side is doing. The session thread can
always make its next call after some steps of the worker and the bus, and at once unless the
worker holds the lock it wants. -/
structure Served (parse : Bytes → ParseResult) (indexHtml : Bytes) (s : State) : Prop where
  http : ∀ c k, s.http = some (.call c k) → ∀ o oracle, exec parse o oracle c s.shared ≠ none
  waits : ∀ code c o oracle, s.ws = some code → SessionCode.calls code = some c →
    exec parse o oracle c s.shared = none →
      c = .can .mutexLock ∧ s.shared.bridge.lock = some .worker
  ws : ∀ code c, s.ws = some code → SessionCode.calls code = some c →
    ∃ t, (device parse indexHtml (InitDone parse)).Steps background s t ∧ Beside s t ∧
      ∀ o oracle, exec parse o oracle c t.shared ≠ none

theorem device_served
    (reach : (device parse indexHtml (InitDone parse)).Reach anyStep s) :
    Served parse indexHtml s := by
  obtain ⟨o, observed, -, follows⟩ := follows_reach reach
  have owned := Http.owned_reach observed
  obtain ⟨a, reachA, bridged⟩ := bridged_reach reach
  obtain ⟨same, workers, http, ws, apart, httpAt, wsAt, hand⟩ := bridged
  have waits : ∀ code c o oracle, s.ws = some code → SessionCode.calls code = some c →
      exec parse o oracle c s.shared = none →
        c = .can .mutexLock ∧ s.shared.bridge.lock = some .worker := by
    intro code c outcome oracle busy calls blocked
    obtain rfl := httpAt.idle follows owned busy (by rintro rfl; cases calls)
    rw [Option.none_or] at hand
    rw [busy] at wsAt
    match code, calls with
    | .loop (.call _ _), rfl => exact At.waits reachA same hand wsAt blocked
    | .leaving (.call _ _), rfl => exact At.waits reachA same hand wsAt blocked
  refine ⟨fun c k busy outcome oracle blocked => ?_, waits, fun code c busy calls => ?_⟩
  · obtain ⟨c, rfl, stuck⟩ := exec_blocked blocked
    obtain ⟨fd, h, fd', w, books, runs, -⟩ := owned
    rw [follows.http.trans busy] at runs
    rcases servingSpec_own runs with own | same | same
    · exact own
    · cases same
      cases stuck
    · cases same
      cases stuck
  · by_cases now : ∀ o oracle, exec parse o oracle c s.shared ≠ none
    · exact ⟨s, .refl, ⟨rfl, rfl⟩, now⟩
    · simp only [not_forall, not_not] at now
      obtain ⟨outcome, oracle, blocked⟩ := now
      obtain ⟨rfl, locked⟩ := waits code c outcome oracle busy calls blocked
      obtain ⟨-, worker, -⟩ := Can.did_reach reachA
      simp only [Can.WorkerInv, workers, same] at worker
      obtain ⟨t, steps, beside, free⟩ := lock_released parse indexHtml _ worker locked
      refine ⟨t, steps, beside, fun outcome oracle => ?_⟩
      simp [exec, Can.exec, free]

/-- The client sends one text frame after another, masked with zeros. -/
def textOracle (payload : Bytes) : Http.Oracle := fun c =>
  match c with
  | .recv _ _ len =>
      .ok ⟨(if len = 2 then [0x81, 0x80 + payload.length.toUInt8]
        else if len = 4 then [0, 0, 0, 0] else payload).take len, List.length_take_le _ _⟩
  | c => Http.upgradeOracle c

/-- A frame that the bus does not resolve, then a status request. -/
def statusBehindSend : List Event :=
  .accept 0 3 :: List.replicate 8 (.http {} Http.upgradeOracle []) ++
    List.replicate 12 (.ws {} (textOracle Can.txRequest)) ++ List.replicate 3 (.worker {}) ++
    List.replicate 7 (.ws {} (textOracle Can.statusRequest))

/-- The session thread is about to take the lock. -/
def State.wantsLock (s : State) : Bool :=
  match s.ws with
  | some (.loop (.call (.can .mutexLock) _)) => true
  | _ => false

theorem device_served_statusBehindSend : ∃ s, (device Can.parseSample []
      (InitDone Can.parseSample)).runs { shared := { bridge := Bridge.initialised true } }
      statusBehindSend = some s ∧ s.wantsLock = true ∧ s.shared.bridge.mailbox.isSome = true ∧
    Served Can.parseSample [] s := by
  have outcome : ((device Can.parseSample [] (InitDone Can.parseSample)).runs
      { shared := { bridge := Bridge.initialised true } } statusBehindSend).map (fun s =>
        (s.wantsLock, s.shared.bridge.mailbox.isSome)) = some (true, true) := by decide +kernel
  obtain ⟨s, run, facts⟩ := Option.map_eq_some_iff.mp outcome
  obtain ⟨wants, sending⟩ := Prod.mk.inj facts
  exact ⟨s, run, wants, sending, device_served ((device_start Can.parseSample []).runs run)⟩

end Served

end PicoCan.Device
