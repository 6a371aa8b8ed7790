import PicoCan.Can.Gateway
import PicoCan.Device.Bridge

/-!
# What the device guarantees

The device started as `can_bridge_init` leaves the bridge. It refines both halves, and
through them the relay, so what is proved of each of them holds of the device. What no half
can say alone is stated here: what the device has let go of when no session is active, and
that without a session thread nothing behind the HTTP server reaches the CAN side.
-/

namespace PicoCan.Device

open Calls Machine
open PicoCan.Can (Bridge CanFrame InitDone ParseResult SentFrame canRxQueueLen canTxQueueLen
  canTxThread)
open PicoCan.Http (Fd HttpCall Observed Owned SessionCode SystemInv)

section Refinement

variable (parse : Bytes → ParseResult) (indexHtml : Bytes)

theorem initDone_clean (b : Bridge) (init : InitDone parse b) :
    b.rxQueue = .empty ∧ b.rxStreaming = false := by
  obtain ⟨started, rfl⟩ := init.eq
  exact ⟨rfl, rfl⟩

/-- The device's server threads are the sessions of the HTTP server. -/
theorem device_sessions : Simulates (device parse indexHtml (InitDone parse)) anyStep
    (Http.observed indexHtml) anyStep Follows :=
  device_follows parse indexHtml _ (initDone_clean parse)

/-- The calls of the device's threads into the bridge are the jobs of one thread. -/
theorem device_jobs : Simulates (device parse indexHtml (InitDone parse)) anyStep
    (Can.machine parse (InitDone parse)) anyStep Bridged :=
  device_bridged parse indexHtml _ (initDone_clean parse)

/-- An observed run is a run of the sessions. -/
theorem observed_sessions : Simulates (Http.observed indexHtml) anyStep (Http.sessions indexHtml)
    anyStep fun o s => o.system = s := by
  constructor
  · rintro _ rfl
    exact ⟨{}, rfl, rfl⟩
  · rintro o e o' _ _ _ rfl _ hstep
    obtain ⟨-, s, moved, rfl⟩ : _ ∧ ∃ s, Http.step indexHtml o.system e = some s ∧ _ := by
      simpa [Http.observed, Http.observe] using hstep
    exact ⟨s, .one trivial moved, rfl⟩

end Refinement

section Safety

variable {parse : Bytes → ParseResult} {indexHtml : Bytes} {s : State}

theorem follows_reach (reach : (device parse indexHtml (InitDone parse)).Reach anyStep s) :
    ∃ o, (Http.observed indexHtml).Reach anyStep o ∧
      (Http.sessions indexHtml).Reach anyStep o.system ∧ Follows s o := by
  have follows := device_follows parse indexHtml _ (initDone_clean parse)
  obtain ⟨_, reached, o, observed, shown, rfl⟩ :=
    (follows.trans (observed_sessions indexHtml)).reach reach
  exact ⟨o, observed, reached, shown⟩

theorem bridged_reach (reach : (device parse indexHtml (InitDone parse)).Reach anyStep s) :
    ∃ a, (Can.machine parse (InitDone parse)).Reach anyStep a ∧ Bridged s a :=
  (device_bridged parse indexHtml _ (initDone_clean parse)).reach reach

/-- A job that is over leaves neither the mutex taken nor a stop of the controller that no
attempt to start it has followed. -/
theorem quiet_idle {a : Can.State}
    (reach : (Can.machine parse (InitDone parse)).Reach anyStep a) (idle : a.ws = none) :
    a.bridge.lock ≠ some .ws ∧ a.bridge.ctrl.gap = false := by
  obtain ⟨ws, -, -⟩ := Can.did_reach reach
  simp only [Can.WsInv, idle] at ws
  obtain ⟨unheld, tried⟩ := ws.1
  exact ⟨by simpa [Bridge.wsView] using unheld, tried⟩

theorem device_start (parse : Bytes → ParseResult) (indexHtml : Bytes)
    {ok : State → Event → Prop} : (device parse indexHtml (InitDone parse)).Reach ok
      { shared := { bridge := Bridge.initialised true } } :=
  .start ⟨_, Can.initDone_initialised parse, rfl⟩

/-! ## At rest -/

/-- What the device holds on to when no session is active: nothing that a session used, and
without a request no connection either. Whenever a session has stopped the controller, the
`can_start` that is to follow has been made, which the driver may have refused. -/
structure AtRest (s : State) : Prop where
  streaming : s.shared.bridge.rxStreaming = false
  queue : s.shared.bridge.rxQueue.items = []
  thread : ∀ code, s.ws = some code → code = .leaving (.ret ())
  unlocked : s.shared.bridge.lock ≠ some .ws
  startTried : s.shared.bridge.ctrl.gap = false
  closed : s.http = none → ∀ fd, s.shared.openFds fd = false

/-- Without `ws_active`, the HTTP thread is in no job. -/
theorem HttpAt.free {o : Observed} (follows : Follows s o) (owned : Owned o)
    (free : o.system.shared.wsActive = false) {job : Option (Can.CanProg Can.Reply)}
    (stands : HttpAt job s.http) : job = none := by
  cases code : s.http with
  | none =>
      rw [code] at stands
      exact stands
  | some p =>
      rw [code] at stands
      cases stands with
      | between => rfl
      | inside after =>
          obtain ⟨fd, h, fd', w, books, http, ws⟩ := owned
          rw [follows.http.trans code] at http
          have holder := books.held.holder (Handing.holds (c := .can _) trivial http)
          have owner := books.held.flag.symm.trans free
          rw [holder] at owner
          exact nomatch owner

/-- Without a session no frame is let in, and none is left from the last one. -/
theorem unstreamed (reach : (device parse indexHtml (InitDone parse)).Reach anyStep s)
    (free : s.shared.wsActive = false) :
    s.shared.bridge.rxStreaming = false ∧ s.shared.bridge.rxQueue.items = [] := by
  obtain ⟨o, -, reached, follows⟩ := follows_reach reach
  have inv := (Http.systemInv_reach reached).shared
  have shared := follows.shared
  have idle : o.system.shared.stage = .idle := by
    by_contra busy
    exact absurd (inv.active.mpr busy) (by simp [shared.active.trans free])
  refine ⟨?_, ?_⟩
  · by_contra on
    have on : o.system.shared.rxStreaming = true := shared.streaming.trans (by simpa using on)
    exact absurd (inv.flag.mp on) (by simp [idle])
  · rw [← shared.queue]
    exact inv.stale (.inl idle)

/-- Whatever has happened before, whenever no session is active the device is at rest. -/
theorem device_at_rest
    (reach : (device parse indexHtml (InitDone parse)).Reach anyStep s)
    (free : s.shared.wsActive = false) : AtRest s := by
  obtain ⟨o, observed, -, follows⟩ := follows_reach reach
  obtain ⟨a, reachedA, bridged⟩ := bridged_reach reach
  obtain ⟨off, empty⟩ := unstreamed reach free
  have owned := Http.owned_reach observed
  have shared := follows.shared
  have inactive := shared.active.trans free
  obtain ⟨fd, h, fd', w, books, http, ws⟩ := id owned
  have unowned : o.ledger.owner = none := by simpa [inactive] using books.held.flag
  obtain rfl : w = .over := by
    by_contra running
    exact absurd (unowned.symm.trans (books.held.runner running).2) nofun
  have returned : ∀ code, s.ws = some code → code = .leaving (.ret ()) := fun code busy => by
    obtain ⟨session, running⟩ := follows.session busy
    rw [running] at ws
    exact ws.returned
  -- neither thread is in a job
  have alone : a.ws = none := by
    obtain ⟨job, job', -, httpAt, wsAt, hand⟩ := bridged.threads
    obtain rfl := httpAt.free follows owned inactive
    have : job' = none := by
      cases busy : s.ws with
      | none =>
          rw [busy] at wsAt
          exact wsAt
      | some code =>
          rw [busy, returned code busy] at wsAt
          exact At.ret wsAt
    subst this
    exact Option.map_eq_none_iff.mp hand
  obtain ⟨unlocked, tried⟩ := quiet_idle reachedA alone
  rw [bridged.bridge] at unlocked tried
  refine ⟨off, empty, returned, unlocked, tried, fun none fd => ?_⟩
  rw [follows.http.trans none] at http
  cases http
  rw [← shared.fds fd]
  cases isOpen : o.ledger.fds.table fd with
  | none => rfl
  | some n =>
      rcases (books.balanced.table fd n).mp isOpen with ⟨owes, -⟩ | ⟨owes, -⟩ <;>
        exact nomatch owes

/-- The client has gone. -/
def hangUpOracle : Http.Oracle := fun c =>
  match c with
  | .recv _ _ _ => .error ⟨104, by decide, by decide⟩
  | c => Http.upgradeOracle c

/-- A frame with two bytes of data. -/
def twoBytes : CanFrame := { id := 5, dlc := 2, data := #v[0x80, 7, 0, 0, 0, 0, 0, 0] }

/-- A client takes the session, a frame comes in, and the client is gone. -/
def shortSession : List Event :=
  .accept 0 3 :: List.replicate 8 (.http {} Http.upgradeOracle []) ++
    .frame twoBytes :: List.replicate 13 (.ws {} hangUpOracle)

theorem device_at_rest_shortSession : ∃ s, (device Can.parseSample []
      (InitDone Can.parseSample)).runs { shared := { bridge := Bridge.initialised true } }
      shortSession = some s ∧ s.ws.isSome ∧ AtRest s := by
  have outcome : ((device Can.parseSample [] (InitDone Can.parseSample)).runs
      { shared := { bridge := Bridge.initialised true } } shortSession).map (fun s =>
        (s.shared.wsActive, s.ws.isSome)) = some (false, true) := by decide +kernel
  obtain ⟨s, run, facts⟩ := Option.map_eq_some_iff.mp outcome
  obtain ⟨free, alive⟩ := Prod.mk.inj facts
  exact ⟨s, run, alive, device_at_rest ((device_start Can.parseSample []).runs run) free⟩

/-! ## Without a session -/

/-- The HTTP thread is about to create a session thread. -/
def State.creates (s : State) : Bool :=
  match s.http with
  | some (.call .wsThreadCreate _) => true
  | _ => false

def noSession (s : State) : Event → Prop
  | .http _ _ _ => s.creates = false
  | _ => True

instance (s : State) : (e : Event) → Decidable (noSession s e)
  | .http _ _ _ => inferInstanceAs (Decidable (_ = _))
  | .accept _ _ | .ws _ _ | .worker _ | .bus _ | .frame _ => .isTrue trivial

/-- The bridge is still `b`, the RX queue and its flag apart, and the worker waits for its
first frame. -/
structure Untouched (b : Bridge) (s : State) : Prop where
  bridge : ∃ queue flag, s.shared.bridge = { b with rxQueue := queue, rxStreaming := flag }
  worker : s.worker = canTxThread
  ws : s.ws = none

/-- The only calls of the HTTP thread into the bridge are the two that switch the stream on. -/
theorem servingSpec_own {fd : Fd} {h : Http.HttpPhase} {c : HttpCall}
    {post : c.Answer → Http.HttpPhase → Prop} (spec : Http.servingSpec fd c post h) :
    Own c ∨ c = .can .rxPurge ∨ c = .can (.rxStreamingSet true) := by
  match c with
  | .can .rxPurge => exact .inr (.inl rfl)
  | .can (.rxStreamingSet true) => exact .inr (.inr rfl)
  | .fs _ | .recv _ _ _ | .send _ _ | .poll _ _ | .close _ | .wsActiveCas | .wsActiveClear
    | .wsClientSet _ | .wsThreadCreate => exact .inl trivial

theorem untouched_step {b : Bridge} (init : InitDone parse b) {o : Observed} {e : Event}
    {t : State} (follows : Follows s o) (owned : Owned o) (untouched : Untouched b s)
    (admitted : noSession s e) (moved : Moved parse indexHtml s e t) : Untouched b t := by
  obtain ⟨⟨queue, flag, bridge⟩, worker, ws⟩ := untouched
  cases moved with
  | accept | done => exact ⟨⟨queue, flag, bridge⟩, worker, ws⟩
  | httpCall busy other hexec =>
      obtain ⟨fd, h, fd', w, books, http, -⟩ := owned
      rw [follows.http.trans busy] at http
      refine ⟨?_, worker, ws⟩
      rcases servingSpec_own http with own | rfl | rfl
      · exact ⟨queue, flag, (exec_own own hexec).trans bridge⟩
      · cases hexec
        exact ⟨.empty, flag, by rw [bridge]⟩
      · cases hexec
        exact ⟨queue, true, by rw [bridge]⟩
  | create busy => exact absurd admitted (by simp [noSession, State.creates, busy])
  | again busy | leave busy | loopCall busy | leaveCall busy | gone busy =>
      exact absurd (ws.symm.trans busy) (by simp)
  | workerCall busy hexec =>
      -- nothing is in the TX queue
      obtain ⟨started, rfl⟩ := init.eq
      rw [worker] at busy
      cases busy
      rw [bridge] at hexec
      exact nomatch hexec
  | round busy => exact nomatch worker.symm.trans busy
  | bus sending =>
      obtain ⟨started, rfl⟩ := init.eq
      rw [bridge] at sending
      exact nomatch sending
  | frame => exact ⟨⟨_, flag, by rw [bridge]⟩, worker, ws⟩

/-- Requests alone, an upgrade that is not carried through included, neither send a frame nor
change the configuration that the device was started with. -/
theorem device_untouched {b : Bridge} (init : InitDone parse b)
    (reach : (device parse indexHtml (· = b)).Reach noSession s) : Untouched b s := by
  have follows := device_follows parse indexHtml (· = b) fun b' same =>
    initDone_clean parse b' (same ▸ init)
  refine reach.invariant_of (J := fun s => ∃ o, Owned o ∧ Follows s o) (I := Untouched b) ?_ ?_ ?_
  · intro s before
    exact follows.invariant (fun _ => Http.owned_reach) (before.mono fun _ _ _ => trivial)
  · rintro _ ⟨_, rfl, rfl⟩
    exact ⟨⟨_, _, rfl⟩, rfl, rfl⟩
  · intro s e t ⟨o, owned, follows⟩ untouched admitted hstep
    exact untouched_step init follows owned untouched admitted (step_moved parse hstep)

/-- An upgrade up to the creation of its thread, and a frame that is let in. -/
def enabledUpgrade : List Event :=
  .accept 0 3 :: List.replicate 6 (.http {} Http.upgradeOracle []) ++ [.frame twoBytes]

theorem device_untouched_enabledUpgrade : ∃ s, (device Can.parseSample []
      (· = Bridge.initialised true)).runs { shared := { bridge := Bridge.initialised true } }
      enabledUpgrade = some s ∧ s.shared.bridge.rxStreaming = true ∧
      Untouched (Bridge.initialised true) s := by
  have along : (device Can.parseSample [] (· = Bridge.initialised true)).Along noSession
      { shared := { bridge := Bridge.initialised true } } enabledUpgrade := by decide +kernel
  have start : (device Can.parseSample [] (· = Bridge.initialised true)).Reach noSession
      { shared := { bridge := Bridge.initialised true } } := .start ⟨_, rfl, rfl⟩
  obtain ⟨s, run, reach⟩ := start.along along
  have on : ((device Can.parseSample [] (· = Bridge.initialised true)).runs
      { shared := { bridge := Bridge.initialised true } } enabledUpgrade).map
        (·.shared.bridge.rxStreaming) = some true := by decide +kernel
  rw [run] at on
  exact ⟨s, run, Option.some.inj on,
    device_untouched (Can.initDone_initialised Can.parseSample) reach⟩

/-! ## The relay -/

/-- What the relay shows of a device that has done `trace` to its bridge. The jobs are those of
a run of the bridge machine with the same calls, each answered as the device was. -/
structure Relays (parse : Bytes → ParseResult) (trace : List Can.Touch) (s : State)
    (r : Relay CanFrame) : Prop where
  sent : r.sent = s.shared.bridge.sent.map SentFrame.frame
  pending : r.pending = s.shared.bridge.inHand.toList ++ s.shared.bridge.txQueue.items
  streaming : r.streaming = s.shared.bridge.rxStreaming
  inbox : s.shared.wsActive = false ∨ s.shared.bridge.rxStreaming = true →
    r.inbox = s.shared.bridge.rxQueue.items
  arrived : r.kept.Sublist (trace.flatMap Can.Touch.arrivals)
  jobs : ∃ a₀ a ops under, (Can.machine parse (InitDone parse)).Start a₀ ∧
    BridgeRun parse (InitDone parse) a₀ trace a ∧ Bridged s a ∧
    List.Forall₂ (fun x op => Can.Explains parse x.job x.reply op) a.log ops ∧
    r.done = ops.flatten ++ under ∧ under.length ≤ 1

/-- Through both refinements the device is a relay at which the frames arrive that the bus has
brought it. -/
theorem device_relayed {s₀ : State} {trace : List Can.Touch}
    (started : (device parse indexHtml (InitDone parse)).Start s₀)
    (run : (device parse indexHtml (InitDone parse)).Trace anyStep (touches parse) s₀ trace s) :
    ∃ r, Can.RelayRun {} (trace.flatMap Can.Touch.arrivals) r ∧
      Relay.Exact canTxQueueLen canRxQueueLen r ∧ Relays parse trace s r := by
  obtain ⟨a₀, a, startedA, runA, bridged⟩ :=
    (device_mirrors parse indexHtml _ (initDone_clean parse)).trace_start started run
  obtain ⟨r, relayed, exact, sent, pending, streaming, inbox, ops, under, explained, done, one,
    -⟩ := Can.bridge_relayed parse startedA (runA.map Can.Touch.arrivals)
  have same := bridged.bridge
  rw [same] at sent pending streaming inbox
  refine ⟨r, relayed, exact, sent, pending, streaming, ?_, Relay.kept_sublist relayed, a₀, a, ops,
    under, startedA, runA, bridged, explained, done, one⟩
  rintro (free | on)
  · obtain ⟨off, empty⟩ := unstreamed ((Reach.start started).steps run.steps) free
    rw [empty]
    exact exact.quiet (streaming.trans off)
  · exact inbox (.inr on)

/-- A session is opened, and a frame comes in. -/
def openedSession : List Event :=
  .accept 0 3 :: List.replicate 8 (.http {} Http.upgradeOracle []) ++ [.frame twoBytes]

/-- With the session open, a frame that has come in is the relay's as well. -/
theorem device_relayed_streamed : ∃ trace s r, (device Can.parseSample []
      (InitDone Can.parseSample)).Trace anyStep (touches Can.parseSample)
        { shared := { bridge := Bridge.initialised true } } trace s ∧
      trace.flatMap Can.Touch.arrivals = [twoBytes] ∧ r.inbox = [twoBytes] ∧
      Relays Can.parseSample trace s r := by
  have outcome : ((device Can.parseSample [] (InitDone Can.parseSample)).runs
      { shared := { bridge := Bridge.initialised true } } openedSession).map (fun s =>
      (s.shared.bridge.rxStreaming, s.shared.bridge.rxQueue.items)) =
        some (true, [twoBytes]) := by decide +kernel
  have arrived : ((device Can.parseSample [] (InitDone Can.parseSample)).shows
      (touches Can.parseSample) { shared := { bridge := Bridge.initialised true } }
      openedSession).flatMap Can.Touch.arrivals = [twoBytes] := by decide +kernel
  obtain ⟨s, run, facts⟩ := Option.map_eq_some_iff.mp outcome
  obtain ⟨on, waiting⟩ := Prod.mk.inj facts
  have traced := trace_runs (touches Can.parseSample) run
  obtain ⟨r, -, -, relays⟩ :=
    device_relayed ⟨_, Can.initDone_initialised Can.parseSample, rfl⟩ traced
  exact ⟨_, s, r, traced, arrived, (relays.inbox (.inr on)).trans waiting, relays⟩

end Safety

end PicoCan.Device
