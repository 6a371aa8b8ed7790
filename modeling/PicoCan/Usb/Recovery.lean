import PicoCan.Usb.Firmware

/-!
# The startup watchdog

The watchdog decides on `network_is_ready`, a flag that lags behind the
interface in both directions. An address event that is handled after the
message that took USB down leaves the flag set; if it survives into the next
session, the watchdog finds it set and goes without having heard of an address.
And a message that takes USB down clears the flag while the interface still
holds its address; if the next session begins before the network work has taken
the interface down, nothing sets it again and the watchdog reboots a working
board. It also sleeps between its decision and the reboot.
-/

namespace PicoCan.Usb

open Calls Machine

/-! ## The watchdog stays armed -/

/-- No message turns the network on while `network_is_ready` is still set. -/
def readyFresh (s : State) : Event → Prop
  | .message msg => turnsOn s.board msg = true → s.board.networkIsReady = false
  | _ => True

/-- While the network is wanted, the ready flag comes from an address of this session,
and without one the watchdog is armed or has struck. -/
structure WatchdogInv (s : State) : Prop where
  ready : s.board.networkShouldRun = true → s.board.networkIsReady = true → s.heard = true
  armed : s.board.networkShouldRun = true → s.heard = false →
    s.board.watchdogWork.Pending ∨ s.stage ≠ .running

theorem WatchdogInv.message {s : State} (inv : WatchdogInv s) {msg : UsbdMsg}
    (fresh : readyFresh s (.message msg)) (asked : Option LinkCall) :
    WatchdogInv { s with
      board := usbdMsgCb msg s.board, asked := asked
      heard := s.heard && !turnsOn s.board msg } := by
  cases asks : msg.asks with
  | none =>
      have off : turnsOn s.board msg = false := by simp [turnsOn, asks]
      rw [usbdMsgCb_other asks, off]
      exact ⟨by simpa using inv.ready, by simpa using inv.armed⟩
  | some call =>
      cases call with
      | down =>
          rw [usbdMsgCb_down asks]
          exact ⟨nofun, nofun⟩
      | up =>
          obtain ⟨mode, periodMs, after⟩ := usbdMsgCb_up asks s.board
          rw [after]
          refine ⟨fun _ isReady => ?_, fun _ _ => .inl (Delayable.pending_reschedule _ _)⟩
          -- a set flag means that the message found the network on already
          have off : turnsOn s.board msg = false :=
            Bool.eq_false_iff.mpr fun on => Bool.false_ne_true ((fresh on).symm.trans isReady)
          have on : s.board.networkShouldRun = true := by simpa [turnsOn, asks] using off
          simpa [off] using inv.ready on isReady

theorem WatchdogInv.watchdog {s : State} (inv : WatchdogInv s) (work : Delayable) :
    WatchdogInv (runWatchdog s work) := by
  obtain ⟨mode, periodMs, after⟩ :=
    usbNcmStartupWatchdogWorkHandler_board { s.board with watchdogWork := work }
  refine ⟨?_, fun wanted silent => .inr ?_⟩
  · simpa only [runWatchdog, after] using inv.ready
  · -- nothing was heard, so the flag is clear and the handler goes on to reboot
    have wanted : s.board.networkShouldRun = true := by
      simpa only [runWatchdog, after] using wanted
    have notReady : s.board.networkIsReady = false :=
      Bool.eq_false_iff.mpr fun isReady =>
        Bool.false_ne_true (silent.symm.trans (inv.ready wanted isReady))
    have sleeps := (usbNcmStartupWatchdogWorkHandler_sleeps
      (b := { s.board with watchdogWork := work })).mpr ⟨wanted, notReady⟩
    simp [runWatchdog, sleeps]

theorem WatchdogInv.address {s : State} (inv : WatchdogInv s) (cfg : Option NetIfConfig) :
    WatchdogInv { s with
      board := ipv4AddrHandler cfg (assign cfg s.board), heard := s.heard || announces cfg } := by
  rw [ipv4AddrHandler_eq]
  cases found : announces cfg with
  | true => exact ⟨fun _ _ => by simp, fun _ silent => by simp at silent⟩
  | false => exact ⟨by simpa [assign] using inv.ready, by simpa [assign] using inv.armed⟩

theorem WatchdogInv.step {s t : State} {e : Event} (inv : WatchdogInv s) (fresh : readyFresh s e)
    (hstep : step s e = some t) : WatchdogInv t := by
  cases step_cases hstep with
  | message _ => exact inv.message fresh _
  | watchdog _ _ => exact inv.watchdog _
  | address _ => exact inv.address _
  | @network present work _ _ =>
      rcases usbNcmNetworkWorkHandler_cases present { s.board with networkWork := work } with
        ⟨mode, periodMs, after⟩ | ⟨-, -, after⟩ | ⟨off, -, after⟩
      · simp only [after]
        exact ⟨inv.ready, inv.armed⟩
      · simp only [after]
        exact ⟨inv.ready, inv.armed⟩
      · simp only [after]
        exact ⟨fun _ isReady => (nomatch isReady), inv.armed⟩
  | networkTimeout _ _ => exact ⟨inv.ready, inv.armed⟩
  | watchdogTimeout _ expired =>
      exact ⟨inv.ready, fun _ _ => .inl (Delayable.pending_expire expired)⟩
  | @httpServerStart ret work _ _ =>
      obtain ⟨mode, periodMs, started, after⟩ :=
        httpServerStartWorkHandler_board ret { s.board with httpServerStartWork := work }
      simp only [after]
      exact ⟨inv.ready, inv.armed⟩
  | reboot _ => exact ⟨inv.ready, fun _ _ => .inr nofun⟩

/-- Over every run in which no session begins with the ready flag set, the watchdog stays
armed, or has struck, until an address of the session is announced. -/
theorem watchdog_armed {s : State} (reach : firmware.Reach readyFresh s)
    (wanted : s.board.networkShouldRun = true) (silent : s.heard = false) :
    s.board.watchdogWork.Pending ∨ s.stage ≠ .running := by
  have inv : WatchdogInv s := by
    refine reach.invariant ?_ fun s e t inv fresh hstep => inv.step fresh hstep
    rintro s rfl
    exact ⟨nofun, nofun⟩
  exact inv.armed wanted silent

/-- The board after a message that turned the network on and a watchdog that ran out. -/
theorem runs_watchdog {s : State} {msg : UsbdMsg} (on : turnsOn s.board msg = true)
    {t : State} (hstep : step s (.message msg) = some t) :
    ∃ mode periodMs, firmware.runs t [.watchdogTimeout, .watchdog] = some
      { t with
        board := { s.board with
          statusLedMode := mode, heartbeatPeriodMs := periodMs, networkShouldRun := true,
          networkWork := s.board.networkWork.schedule 1000, watchdogWork := .idle }
        stage := if s.board.networkIsReady then .running else .recovering } := by
  simp only [step, Option.ite_none_right_eq_some, Option.some.injEq] at hstep
  obtain ⟨running, rfl⟩ := hstep
  have asks : msg.asks = some .up := by simp_all [turnsOn]
  obtain ⟨mode, periodMs, after⟩ := usbdMsgCb_up asks s.board
  cases ready : s.board.networkIsReady with
  | true =>
      refine ⟨mode, periodMs, ?_⟩
      simp [Machine.runs, firmware, step, runWatchdog, after, running, ready,
        Delayable.reschedule, Delayable.arm, Delayable.expire, Delayable.take, Delayable.idle,
        usbNcmStartupWatchdogWorkHandler]
  | false =>
      refine ⟨.error, 100, ?_⟩
      simp [Machine.runs, firmware, step, runWatchdog, after, running, ready,
        Delayable.reschedule, Delayable.arm, Delayable.expire, Delayable.take, Delayable.idle,
        usbNcmStartupWatchdogWorkHandler, statusLedSetError]

/-- Whenever a session does begin with the flag set, it can go unwatched. -/
theorem stale_unwatched {s t : State} {e : Event} (stale : ¬ readyFresh s e)
    (hstep : step s e = some t) :
    ∃ labels u, firmware.runs t labels = some u ∧ u.board.networkShouldRun = true ∧
      u.heard = false ∧ ¬ (u.board.watchdogWork.Pending ∨ u.stage ≠ .running) := by
  cases e with
  | message msg =>
      simp only [readyFresh, Classical.not_imp, Bool.not_eq_false] at stale
      obtain ⟨on, ready⟩ := stale
      obtain ⟨mode, periodMs, run⟩ := runs_watchdog on hstep
      refine ⟨_, _, run, rfl, ?_, by simp [ready]⟩
      simp only [step, Option.ite_none_right_eq_some, Option.some.injEq] at hstep
      simp [← hstep.2, on]
  | _ => exact absurd trivial stale

/-- An interface that holds one link-local address. -/
def linkLocalConfig : Option NetIfConfig := some ⟨some [⟨true, .autoconf⟩]⟩

/-- Configured, up and suspended; the address event comes late, and the network work clears its
flag before the resume. -/
def clearedAddress : List Event :=
  [.message .configuration, .networkTimeout, .network true, .message .suspend,
    .address linkLocalConfig, .network true, .message .resume]

theorem watchdog_armed_resumed : ∃ s, firmware.runs start clearedAddress = some s ∧
    s.board.networkShouldRun = true ∧ (s.board.watchdogWork.Pending ∨ s.stage ≠ .running) := by
  have along : firmware.Along readyFresh start clearedAddress :=
    ⟨fun _ => rfl, trivial, trivial, fun on => absurd on (by decide), trivial, trivial,
      fun _ => rfl, trivial⟩
  obtain ⟨s, run, reach⟩ := (Reach.start rfl).along along
  have wanted : s.board.networkShouldRun = true := by
    cases run
    rfl
  have silent : s.heard = false := by
    cases run
    rfl
  exact ⟨s, run, wanted, watchdog_armed reach wanted silent⟩

/-- Configured and up; the address event comes after the suspend, and the resume before the
network work. -/
def lateAddress : List Event :=
  [.message .configuration, .networkTimeout, .network true, .message .suspend,
    .address linkLocalConfig, .message .resume, .network true, .watchdogTimeout, .watchdog]

/-- After a late address event the resumed session goes unwatched. -/
theorem watchdog_disarmed :
    ¬ ∀ s, firmware.Reach anyStep s → s.board.networkShouldRun = true → s.heard = false →
      s.board.watchdogWork.Pending ∨ s.stage ≠ .running := by
  intro holds
  have begun : firmware.Reach anyStep start := .start rfl
  have armed := holds _ (begun.runs (show firmware.runs start lateAddress = some _ from rfl))
  exact absurd (armed rfl rfl) (by decide)

/-! ## The reboot -/

/-- Addresses are assigned to an interface that is up, and announced once. -/
def announcedOnce (s : State) : Event → Prop
  | .address cfg => announces cfg = true →
      s.board.iface.driven.getLast? = some .up ∧ s.board.iface.linkLocal = false
  | _ => True

/-- No message turns the network on while the interface holds an address that the ready flag
does not show, and no address is announced during the watchdog's sleep. -/
def addressShown (s : State) : Event → Prop
  | .message msg => turnsOn s.board msg = true → s.board.iface.linkLocal = true →
      s.board.networkIsReady = true
  | .address cfg => announces cfg = true → s.stage = .running
  | _ => True

/-- The network is wanted and the interface holds no link-local address. -/
def Stuck (b : Board) : Prop := b.networkShouldRun = true ∧ b.iface.linkLocal = false

/-- An address of a wanted interface shows in the ready flag, and the reboot is justified. -/
structure RebootInv (s : State) : Prop where
  shown : s.board.networkShouldRun = true → s.board.iface.linkLocal = true →
    s.board.networkIsReady = true
  stuck : s.stage ≠ .running → Stuck s.board

theorem RebootInv.message {s : State} (inv : RebootInv s) (running : s.stage = .running)
    {msg : UsbdMsg} (fresh : addressShown s (.message msg)) (asked : Option LinkCall)
    (heard : Bool) :
    RebootInv { s with board := usbdMsgCb msg s.board, asked := asked, heard := heard } := by
  cases asks : msg.asks with
  | none =>
      rw [usbdMsgCb_other asks]
      exact ⟨inv.shown, inv.stuck⟩
  | some call =>
      cases call with
      | down =>
          rw [usbdMsgCb_down asks]
          exact ⟨nofun, fun asleep => absurd running asleep⟩
      | up =>
          obtain ⟨mode, periodMs, after⟩ := usbdMsgCb_up asks s.board
          rw [after]
          refine ⟨fun _ holds => ?_, fun asleep => absurd running asleep⟩
          cases on : s.board.networkShouldRun with
          | true => exact inv.shown on holds
          | false => exact fresh (by simp [turnsOn, asks, on]) holds

theorem RebootInv.watchdog {s : State} (inv : RebootInv s) (work : Delayable) :
    RebootInv (runWatchdog s work) := by
  obtain ⟨mode, periodMs, after⟩ :=
    usbNcmStartupWatchdogWorkHandler_board { s.board with watchdogWork := work }
  refine ⟨?_, fun asleep => ?_⟩
  · simpa only [runWatchdog, after] using inv.shown
  · have sleeps : (usbNcmStartupWatchdogWorkHandler
        { s.board with watchdogWork := work }).2 = true :=
      Decidable.byContradiction fun awake => asleep (if_neg awake)
    obtain ⟨wanted, notReady⟩ := usbNcmStartupWatchdogWorkHandler_sleeps.mp sleeps
    have noAddress : s.board.iface.linkLocal = false :=
      Bool.eq_false_iff.mpr fun holds =>
        Bool.false_ne_true (notReady.symm.trans (inv.shown wanted holds))
    simp only [runWatchdog, after]
    exact ⟨wanted, noAddress⟩

theorem RebootInv.address {s : State} (inv : RebootInv s) {cfg : Option NetIfConfig}
    (awake : addressShown s (.address cfg)) (heard : Bool) :
    RebootInv { s with board := ipv4AddrHandler cfg (assign cfg s.board), heard := heard } := by
  rw [ipv4AddrHandler_eq]
  cases found : announces cfg with
  | true => exact ⟨fun _ _ => rfl, fun asleep => absurd (awake found) asleep⟩
  | false =>
      have same : assign cfg s.board = s.board := by simp [assign, found]
      rw [same]
      exact ⟨inv.shown, inv.stuck⟩

theorem RebootInv.step {s t : State} {e : Event} (inv : RebootInv s) (shown : addressShown s e)
    (hstep : step s e = some t) : RebootInv t := by
  cases step_cases hstep with
  | message running => exact inv.message running shown _ _
  | watchdog _ _ => exact inv.watchdog _
  | address _ => exact inv.address shown _
  | @network present work running _ =>
      rcases usbNcmNetworkWorkHandler_cases present { s.board with networkWork := work } with
        ⟨mode, periodMs, after⟩ | ⟨-, -, after⟩ | ⟨off, -, after⟩
      · simp only [after]
        exact ⟨inv.shown, inv.stuck⟩
      · simp only [after]
        exact ⟨inv.shown, inv.stuck⟩
      · simp only [after]
        exact ⟨fun wanted => absurd (off.symm.trans wanted) Bool.false_ne_true,
          fun asleep => absurd running asleep⟩
  | networkTimeout _ _ | watchdogTimeout _ _ => exact ⟨inv.shown, inv.stuck⟩
  | @httpServerStart ret work _ _ =>
      obtain ⟨mode, periodMs, started, after⟩ :=
        httpServerStartWorkHandler_board ret { s.board with httpServerStartWork := work }
      simp only [after]
      exact ⟨inv.shown, inv.stuck⟩
  | reboot recovering => exact ⟨inv.shown, fun _ => inv.stuck (by rw [recovering]; decide)⟩

/-- Over every run in which the ready flag shows the interface's address whenever a session
begins, and in which the watchdog's sleep is not disturbed, only a stuck board is rebooted. -/
theorem reboots_stuck {s : State} (reach : firmware.Reach addressShown s)
    (rebooted : s.stage = .rebooted) : Stuck s.board := by
  have inv : RebootInv s := by
    refine reach.invariant ?_ fun s e t inv shown hstep => inv.step shown hstep
    rintro s rfl
    exact ⟨nofun, fun asleep => absurd rfl asleep⟩
  exact inv.stuck (by rw [rebooted]; decide)

theorem runs_reboot {s : State} (recovering : s.stage = .recovering) :
    firmware.runs s [.reboot] = some { s with stage := .rebooted } := by
  simp [Machine.runs, firmware, step, recovering]

/-- Whenever a step breaks that rule, a board that holds an address can be rebooted. -/
theorem unshown_rebooted {s t : State} {e : Event} (unshown : ¬ addressShown s e)
    (hstep : step s e = some t) :
    ∃ labels u, firmware.runs t labels = some u ∧ u.stage = .rebooted ∧ ¬ Stuck u.board := by
  cases e with
  | message msg =>
      simp only [addressShown, Classical.not_imp, Bool.not_eq_true] at unshown
      obtain ⟨on, holds, notReady⟩ := unshown
      obtain ⟨mode, periodMs, run⟩ := runs_watchdog on hstep
      exact ⟨_, _, Machine.runs_append run (runs_reboot (by simp [notReady])), rfl,
        by simp [Stuck, holds]⟩
  | address cfg =>
      simp only [addressShown, Classical.not_imp] at unshown
      obtain ⟨found, asleep⟩ := unshown
      simp only [step, Option.ite_none_left_eq_some, Option.some.injEq] at hstep
      obtain ⟨notDone, rfl⟩ := hstep
      have recovering : s.stage = .recovering := by
        cases stage : s.stage <;> simp_all
      refine ⟨[.reboot], _, runs_reboot recovering, rfl, ?_⟩
      simp [Stuck, ipv4AddrHandler_eq, found, networkReady, assign, statusLedSetSolid]
  | _ => exact absurd trivial unshown

/-- Configured, up, and never given an address. -/
def noAddress : List Event :=
  [.message .configuration, .networkTimeout, .network true, .watchdogTimeout, .watchdog, .reboot]

theorem reboots_stuck_noAddress : ∃ s, firmware.runs start noAddress = some s ∧
    s.stage = .rebooted ∧ Stuck s.board := by
  have along : firmware.Along addressShown start noAddress :=
    ⟨nofun, trivial, trivial, trivial, trivial, trivial, trivial⟩
  obtain ⟨s, run, reach⟩ := (Reach.start rfl).along along
  have rebooted : s.stage = .rebooted := by
    cases run
    rfl
  exact ⟨s, run, rebooted, reboots_stuck reach rebooted⟩

/-- A working board is suspended and resumed before the network work has run. -/
def shortSuspend : List Event :=
  [.message .configuration, .networkTimeout, .network true, .address linkLocalConfig,
    .message .suspend, .message .resume, .network true, .watchdogTimeout, .watchdog, .reboot]

/-- So a board that holds an address is rebooted. -/
theorem working_rebooted :
    ¬ ∀ s, firmware.Reach announcedOnce s → s.stage = .rebooted → Stuck s.board := by
  intro holds
  have begun : firmware.Reach announcedOnce start := .start rfl
  have along : firmware.Along announcedOnce start shortSuspend :=
    ⟨trivial, trivial, trivial, fun _ => ⟨rfl, rfl⟩, trivial, trivial, trivial, trivial,
      trivial, trivial, trivial⟩
  obtain ⟨s, run, reach⟩ := begun.along along
  cases run
  exact absurd (holds _ reach rfl) (by unfold Stuck; decide)

end PicoCan.Usb
