import PicoCan.Usb.Recovery

/-!
# What the LED shows

The LED and `network_is_ready` are written side by side in four handlers, and all of them
write both or leave both alone but two messages: `RESUME` and `VBUS_READY` turn the LED to
blinking and keep the flag. While the flag is clear that changes nothing; when it is set,
the LED says that the network is being set up and the flag that it is there.
-/

namespace PicoCan.Usb

open Calls Machine

/-- Solid when the network is ready, and blinking otherwise. -/
def LedShowsReady (b : Board) : Prop :=
  b.statusLedMode = if b.networkIsReady then .solid else .blink

/-- There is a default interface, and the HTTP server starts. -/
def servicesStart (_ : State) : Event → Prop
  | .network present => present = true
  | .httpServerStart ret => ret = 0
  | _ => True

/-- No `RESUME` or `VBUS_READY` arrives while `network_is_ready` is set. -/
def resumesUnready (s : State) : Event → Prop
  | .message .resume | .message .vbusReady => s.board.networkIsReady = false
  | _ => True

/-- Until the watchdog strikes the LED shows readiness. -/
def LedInv (s : State) : Prop := s.stage = .running → LedShowsReady s.board

/-- Of all messages `RESUME` and `VBUS_READY` alone can make the LED lie, and they do on a
network that is ready. -/
theorem LedShowsReady.message_iff {b : Board} (shows : LedShowsReady b) (msg : UsbdMsg) :
    LedShowsReady (usbdMsgCb msg b) ↔
      (msg = .resume ∨ msg = .vbusReady → b.networkIsReady = false) := by
  have blinks : StatusLedMode.blink = (if b.networkIsReady then .solid else .blink) ↔
      b.networkIsReady = false := by
    cases b.networkIsReady <;> decide
  cases msg with
  | configuration | other => exact ⟨fun _ resumed => absurd resumed (by decide), fun _ => shows⟩
  | stackError | udcError | reset | suspend | vbusRemoved =>
      exact ⟨fun _ resumed => absurd resumed (by decide), fun _ => rfl⟩
  | resume => exact ⟨fun still _ => blinks.mp still, fun unready => blinks.mpr (unready (.inl rfl))⟩
  | vbusReady =>
      exact ⟨fun still _ => blinks.mp still, fun unready => blinks.mpr (unready (.inr rfl))⟩

theorem LedShowsReady.network {b : Board} (shows : LedShowsReady b) :
    LedShowsReady (usbNcmNetworkWorkHandler true b) := by
  unfold usbNcmNetworkWorkHandler
  rw [if_neg (by decide)]
  split
  · exact shows
  · split
    · rfl
    · exact shows

theorem LedShowsReady.address {b : Board} (shows : LedShowsReady b) (cfg : Option NetIfConfig) :
    LedShowsReady (ipv4AddrHandler cfg (assign cfg b)) := by
  rw [ipv4AddrHandler_eq]
  split
  · rfl
  · exact shows

theorem LedShowsReady.httpServerStart {b : Board} (shows : LedShowsReady b) :
    LedShowsReady (httpServerStartWorkHandler 0 b) := by
  unfold httpServerStartWorkHandler
  split
  · exact shows
  · exact shows

/-- A watchdog that does not strike leaves the board alone. -/
theorem LedInv.watchdog {s : State} (shows : LedShowsReady s.board) (work : Delayable) :
    LedInv (runWatchdog s work) := by
  intro running
  by_cases idle : (!s.board.networkShouldRun || s.board.networkIsReady) = true
  · have after : (runWatchdog s work).board = { s.board with watchdogWork := work } :=
      congrArg Prod.fst (if_pos idle)
    rw [after]
    exact shows
  · have wanted : s.board.networkShouldRun = true ∧ s.board.networkIsReady = false := by
      simpa using idle
    have sleeps := (usbNcmStartupWatchdogWorkHandler_sleeps
      (b := { s.board with watchdogWork := work })).mpr wanted
    have struck : (runWatchdog s work).stage = .recovering := if_pos sleeps
    exact absurd (struck.symm.trans running) (by decide)

theorem LedInv.step {s t : State} {e : Event} (inv : LedInv s) (start : servicesStart s e)
    (unready : resumesUnready s e) (hstep : step s e = some t) : LedInv t := by
  cases step_cases hstep with
  | @message msg running =>
      refine fun _ => ((inv running).message_iff msg).mpr fun resumed => ?_
      rcases resumed with rfl | rfl <;> exact unready
  | networkTimeout _ _ | watchdogTimeout _ _ => exact inv
  | @network present work running _ =>
      obtain rfl : present = true := start
      have shows : LedShowsReady { s.board with networkWork := work } := inv running
      exact fun _ => shows.network
  | watchdog running _ => exact LedInv.watchdog (inv running) _
  | @httpServerStart ret work running _ =>
      obtain rfl : ret = 0 := start
      have shows : LedShowsReady { s.board with httpServerStartWork := work } := inv running
      exact fun _ => shows.httpServerStart
  | address _ => exact fun running => (inv running).address _
  | reboot _ =>
      intro running
      exact absurd (show Stage.rebooted = .running from running) (by decide)

/-- In every run in which `RESUME` and `VBUS_READY` only arrive while the network is not
ready, the LED shows whether it is, outside the reboot path. -/
theorem led_truthful {s : State}
    (reach : firmware.Reach (fun s e => servicesStart s e ∧ resumesUnready s e) s) :
    s.stage = .running → LedShowsReady s.board := by
  refine reach.invariant (I := LedInv) ?_ fun s e t inv admitted hstep =>
    inv.step admitted.1 admitted.2 hstep
  rintro s rfl
  exact fun _ => rfl

/-- Configured, up and announced. -/
def announced : List Event :=
  [.message .configuration, .networkTimeout, .network true, .address linkLocalConfig,
    .httpServerStart 0]

theorem led_truthful_announced : ∃ s, firmware.runs start announced = some s ∧
    s.stage = .running ∧ LedShowsReady s.board := by
  have along : firmware.Along (fun s e => servicesStart s e ∧ resumesUnready s e) start announced :=
    ⟨⟨trivial, trivial⟩, ⟨trivial, trivial⟩, ⟨rfl, trivial⟩, ⟨trivial, trivial⟩, ⟨rfl, trivial⟩,
      trivial⟩
  obtain ⟨s, run, reach⟩ := (Reach.start rfl).along along
  have running : s.stage = .running := by
    cases run
    rfl
  exact ⟨s, run, running, led_truthful reach running⟩

/-- A resume makes the LED blink on a network that is ready. -/
theorem ready_blinks :
    ¬ ∀ s, firmware.Reach servicesStart s → s.stage = .running → LedShowsReady s.board := by
  intro shows
  have along : firmware.Along servicesStart start (announced ++ [.message .resume]) :=
    ⟨trivial, trivial, rfl, trivial, rfl, trivial, trivial⟩
  obtain ⟨s, run, reach⟩ := (Reach.start rfl).along along
  have shown := shows s reach
  cases run
  exact absurd (shown rfl) (by unfold LedShowsReady; decide)

end PicoCan.Usb
