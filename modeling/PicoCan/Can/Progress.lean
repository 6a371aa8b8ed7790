import PicoCan.Can.Lock

/-!
# Progress of control requests

A status or configuration request waits for nothing but `can_lock`. Whoever
holds the lock gives it back after finitely many calls of its own, unless it is
the worker inside a `can_send` whose frame the bus has not resolved: that is the
one state in which the firmware can do nothing for the request, and it is
reachable.
-/

namespace PicoCan.Can

open Calls

variable {parse : Bytes → ParseResult}

/-- A `can.status`, `can.config.get` or `can.config.set` request is being handled. -/
def Handling (parse : Bytes → ParseResult) (s : State) : Prop :=
  ∃ payload before rest, s.ws = some ⟨.text payload, before, rest⟩ ∧
    (requestOf parse payload = .status ∨
      ∃ msg fields, requestOf parse payload = .configSet msg fields)

/-- The WebSocket thread is about to take the lock. -/
def WantsLock (s : State) : Prop :=
  ∃ job before k, s.ws = some ⟨job, before, .call .mutexLock k⟩

/-- A step of the firmware towards the reply: the WebSocket thread makes a call
or replies, or the worker makes a call while the WebSocket thread waits for the
lock it holds. -/
def Advances (s t : State) : Event → Prop
  | .ws _ => ∃ sv, s.ws = some sv ∧
      (t.ws = none ∨ ∃ rest, t.ws = some { sv with rest := rest } ∧ Prog.Next rest sv.rest)
  | .worker _ => WantsLock s ∧ s.bridge.lock = some .worker ∧ t.ws = s.ws ∧
      Prog.Next t.worker s.worker
  | _ => False

/-- Some step of the firmware itself is enabled that advances towards the reply. -/
def FirmwareAdvances (parse : Bytes → ParseResult) (s : State) : Prop :=
  ∃ e t, step parse s e = some t ∧ Advances s t e

/-- What is left of a request: nothing, or one answer less. -/
inductive Shorter : Option (CanProg Reply) → Option (CanProg Reply) → Prop
  | replied (rest : CanProg Reply) : Shorter none (some rest)
  | next {rest rest' : CanProg Reply} (next : Prog.Next rest rest') :
      Shorter (some rest) (some rest')

theorem shorter_wf : WellFounded Shorter := by
  have atEnd : Acc Shorter none := ⟨_, fun _ shorter => nomatch shorter⟩
  refine ⟨fun rest => ?_⟩
  cases rest with
  | none => exact atEnd
  | some rest =>
      induction rest using Prog.next_wf.induction with
      | _ rest ih =>
          refine ⟨_, fun _ shorter => ?_⟩
          cases shorter with
          | replied => exact atEnd
          | next next => exact ih _ next

/-- A request is replied to after finitely many steps that advance it. -/
theorem advances_wf : WellFounded fun t s : State => ∃ e, Advances s t e := by
  have order := InvImage.wf (fun s : State => (s.ws.map Serving.rest, s.worker))
    (Prod.lex ⟨_, shorter_wf⟩ ⟨_, Prog.next_wf⟩).wf
  refine Subrelation.wf (fun {t s} => ?_) order
  rintro ⟨e, advances⟩
  cases e with
  | request | bus | frame => exact advances.elim
  | ws o =>
      obtain ⟨sv, busy, done | ⟨rest, after, next⟩⟩ := advances
      · refine .left _ _ ?_
        rw [busy, done]
        exact .replied sv.rest
      · refine .left _ _ ?_
        rw [busy, after]
        exact .next next
  | worker o =>
      obtain ⟨-, -, same, next⟩ := advances
      have split : (t.ws.map Serving.rest, t.worker) = (s.ws.map Serving.rest, t.worker) := by
        rw [same]
      show Prod.Lex _ _ (t.ws.map Serving.rest, t.worker) _
      rw [split]
      exact .right _ next

/-- The WebSocket thread waits for the lock, which the worker holds inside a
`can_send` whose frame the bus has not resolved. -/
def BusHeld (s : State) : Prop :=
  WantsLock s ∧ s.bridge.lock = some .worker ∧
    (∃ k, s.worker = .call .canSendWait k) ∧ s.bridge.mailbox.isSome = true

/-- There the firmware can do nothing for the request. -/
theorem BusHeld.stuck {s : State} (held : BusHeld s) : ¬ FirmwareAdvances parse s := by
  obtain ⟨⟨job, before, k, waiting⟩, lock, ⟨k', sending⟩, pending⟩ := held
  rintro ⟨e, t, hstep, advances⟩
  cases e with
  | request | bus | frame => exact advances
  | ws o => simp [step, waiting, exec, lock] at hstep
  | worker o =>
      have full : s.bridge.mailbox ≠ none := Option.isSome_iff_ne_none.mp pending
      simp [step, sending, exec, full] at hstep

/-- Every call of the WebSocket thread but the lock is answered at once. -/
theorem exec_enabled {t : Thread} {c : CanCall} {b : Bridge} (call : WsCall c)
    (notLock : c ≠ .mutexLock) (mine : c = .mutexUnlock → b.lock = some t) :
    ∃ r b', exec parse t c {} b = some (r, b') := by
  cases c <;> simp only [exec]
  case mutexLock => exact absurd rfl notLock
  case mutexUnlock => exact ⟨_, _, if_pos (mine rfl)⟩
  case txPut frame | rxGet => split <;> exact ⟨_, _, rfl⟩
  case numUsedGet q | numFreeGet q => cases q <;> exact ⟨_, _, rfl⟩
  case canSendWait | txGet | canAddRxFilter | rxPut => exact call.elim
  all_goals exact ⟨_, _, rfl⟩

/-- A worker that holds the lock can go on unless the bus holds its frame. -/
theorem worker_enabled (parse : Bytes → ParseResult) {s : State} (worker : WorkerInv s)
    (lock : s.bridge.lock = some .worker) :
    (∃ c k r b, s.worker = .call c k ∧ exec parse .worker c {} s.bridge = some (r, b)) ∨
      ((∃ k, s.worker = .call .canSendWait k) ∧ s.bridge.mailbox.isSome = true) := by
  have held : s.bridge.workerView.held = true := by simp [Bridge.workerView, lock]
  cases running : s.worker with
  | ret =>
      simp only [WorkerInv, running, Prog.wp_ret, held] at worker
      exact absurd worker.1 (by decide)
  | call c k =>
      simp only [WorkerInv, running, Prog.wp_call] at worker
      cases c with
      | txGet => exact absurd worker.1 (by rw [held]; decide)
      | mutexLock => exact absurd worker.1 (by rw [held]; decide)
      | mutexUnlock => exact .inl ⟨_, k, _, _, rfl, if_pos lock⟩
      | canSendSubmit frame ms => exact .inl ⟨_, k, _, _, rfl, rfl⟩
      | canSendWait =>
          cases pending : s.bridge.mailbox with
          | none => exact .inl ⟨_, k, _, _, rfl, by simp only [exec, pending]; rfl⟩
          | some frame => exact .inr ⟨⟨k, rfl⟩, rfl⟩
      | _ => exact worker.elim

/-- A control request that the bus does not hold up can go on. -/
theorem firmware_advances {s : State}
    (known : WsInv parse anyOutcome (fun _ => True) (Did parse anyOutcome) s ∧ WorkerInv s ∧
      LogInv (fun _ => True) (Did parse anyOutcome) s)
    (owned : LockOwned s.bridge.lock) (handling : Handling parse s) (free : ¬ BusHeld s) :
    FirmwareAdvances parse s := by
  obtain ⟨ws, worker, -⟩ := known
  obtain ⟨payload, before, rest, busy, -⟩ := handling
  simp only [WsInv, busy] at ws
  cases rest with
  | ret reply =>
      exact ⟨.ws {}, _, by simp only [step, busy]; rfl, _, busy, .inl rfl⟩
  | call c k =>
      have call := wsSpec_wsCall ws.2
      -- a call the thread can make at once
      have now : (∃ r b, exec parse .ws c {} s.bridge = some (r, b)) →
          FirmwareAdvances parse s := by
        rintro ⟨r, b, hexec⟩
        refine ⟨.ws {}, { s with bridge := b, ws := some ⟨.text payload, before, k r⟩ }, ?_,
          _, busy, .inr ⟨k r, rfl, .answer c k r⟩⟩
        simp only [step, busy, hexec, Option.map_some]
      by_cases locks : c = .mutexLock
      · subst locks
        rcases owned with none | mine | others
        · exact now ⟨(), _, if_pos (Option.isNone_iff_eq_none.mpr none)⟩
        · have held : s.bridge.wsView.held = true := by simp [Bridge.wsView, mine]
          exact absurd ws.2.2.1 (by rw [held]; decide)
        · have waiting : WantsLock s := ⟨_, _, k, busy⟩
          rcases worker_enabled parse worker others with ⟨c, k', r, b, running, hexec⟩ | stuck
          · refine ⟨.worker {}, { s with bridge := b, worker := k' r }, ?_, waiting, others,
              rfl, ?_⟩
            · simp only [step, running, hexec, Option.map_some]
            · rw [running]; exact .answer c k' r
          · exact absurd ⟨waiting, others, stuck⟩ free
      · refine now (exec_enabled call locks ?_)
        rintro rfl
        exact of_decide_eq_true ws.2.2.1

/-- In every reachable state in which a control request is being handled, the
firmware can advance it exactly when the bus does not hold the lock. -/
theorem control_advances {s : State}
    (reach : (machine parse (InitDone parse)).Reach Machine.anyStep s)
    (handling : Handling parse s) : FirmwareAdvances parse s ↔ ¬ BusHeld s := by
  refine ⟨fun advances held => held.stuck advances, fun free => ?_⟩
  exact firmware_advances (did_reach reach) (lockOwned_reach reach) handling free

/-- A frame the bus does not resolve, then a status request. -/
def statusBehindFrame : List Event :=
  .request (.text txRequest) [] :: List.replicate 5 (.ws {}) ++
    [.worker {}, .worker {}, .worker {}, .request (.text statusRequest) [], .ws {}, .ws {}]

theorem status_blocked :
    ¬ ∀ parse s, (machine parse (InitDone parse)).Reach Machine.anyStep s → Handling parse s →
      FirmwareAdvances parse s := by
  intro holds
  have start : (machine parseSample (InitDone parseSample)).Reach Machine.anyStep _ :=
    machine_start _ (initDone_initialised _)
  have advances := holds parseSample _ (start.runs
    (show (machine _ _).runs _ statusBehindFrame = some _ from rfl))
    ⟨statusRequest, _, _, rfl, .inl rfl⟩
  exact BusHeld.stuck ⟨⟨_, _, _, rfl⟩, rfl, ⟨_, rfl⟩, rfl⟩ advances

/-- The same request while the worker is still waiting for the queue. -/
def statusAlone : List Event := [.request (.text statusRequest) [], .ws {}, .ws {}]

theorem control_advances_statusAlone : ∃ s, (machine parseSample
      (InitDone parseSample)).runs { bridge := Bridge.initialised true } statusAlone = some s ∧
    FirmwareAdvances parseSample s := by
  have start : (machine parseSample (InitDone parseSample)).Reach Machine.anyStep
      { bridge := Bridge.initialised true } := machine_start _ (initDone_initialised _)
  have run : (machine parseSample (InitDone parseSample)).runs
      { bridge := Bridge.initialised true } statusAlone = some _ := rfl
  refine ⟨_, run, (control_advances (start.runs run) ⟨statusRequest, _, _, rfl, .inl rfl⟩).mpr ?_⟩
  exact fun held => nomatch held.2.1

end PicoCan.Can
