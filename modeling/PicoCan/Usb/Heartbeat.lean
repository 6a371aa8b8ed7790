import PicoCan.Usb.Recovery

/-!
# The heartbeat

`heartbeat_thread` runs from boot on and below every other thread, so it never sees half of what a
handler writes to the LED. But any handler may come between two of its own calls: it reads the mode
of the LED and, calls later, the period, and the two need not belong together. What the LED shows is
right again with the first round in which neither changes.
-/

namespace PicoCan.Usb

open Calls Machine

/-! ## The thread -/

inductive LedCall
  | gpioIsReady
  | gpioPinConfigure
  | modeGet
  | periodGet
  | gpioPinSet (value : Bool)
  | gpioPinToggle
  | sleep (ms : Nat)

abbrev LedCall.Answer : LedCall → Type
  | .gpioIsReady => Bool
  | .gpioPinConfigure | .gpioPinSet _ | .gpioPinToggle => Int
  | .modeGet => StatusLedMode
  | .periodGet => Nat
  | .sleep _ => Unit

abbrev LedProg := Prog LedCall.Answer

abbrev led (c : LedCall) : LedProg c.Answer := Prog.perform c

/-- Up to the loop: whether it is entered. -/
def heartbeatThread : LedProg Bool := do
  let ready ← led .gpioIsReady
  if !ready then
    return false
  else
    let ret ← led .gpioPinConfigure
    if ret < 0 then
      return false
    else
      return true

def heartbeatRound : LedProg Unit := do
  match ← led .modeGet with
  | .solid =>
      let _ ← led (.gpioPinSet true)
      led (.sleep 1000)
  | .error | .blink =>
      let _ ← led .gpioPinToggle
      let periodMs ← led .periodGet
      led (.sleep periodMs)

/-! ## Beside the handlers -/

inductive HeartbeatCode
  | starting (rest : LedProg Bool)
  | beating (rest : LedProg Unit)

/-- The firmware and its LED. `boot` says whether `main` has enabled USB or given up, once it has
done either; `ret` is what the last call for the pin returned. Since `still` was set, when the
thread last read the mode, neither the mode nor the period has changed. -/
structure Heartbeat where
  firmware : State := { start with board := resetBoard }
  boot : Option Bool := none
  thread : HeartbeatCode := .starting heartbeatThread
  pin : Bool := false
  ret : Int := 0
  still : Bool := false

inductive HeartbeatEvent
  | main (usbd : Bool) (registered enabled : Int)
  | handler (e : Event)
  | beat (ret : Int)

namespace Heartbeat

def mode (s : Heartbeat) : StatusLedMode := s.firmware.board.statusLedMode

def periodMs (s : Heartbeat) : Nat := s.firmware.board.heartbeatPeriodMs

/-- The firmware has come to another state. -/
def moved (s : Heartbeat) (firmware : State) (boot : Option Bool) : Heartbeat :=
  { s with
    firmware, boot
    still := s.still && s.mode == firmware.board.statusLedMode &&
      s.periodMs == firmware.board.heartbeatPeriodMs }

/-- One call of the thread; `ret` is what the pin's driver returns, 0 also for one that is ready. -/
def exec (ret : Int) : (c : LedCall) → Heartbeat → c.Answer × Heartbeat
  | .gpioIsReady, s => (ret == 0, s)
  | .gpioPinConfigure, s => (ret, { s with ret, pin := if ret < 0 then s.pin else false })
  | .modeGet, s => (s.mode, { s with still := true })
  | .periodGet, s => (s.periodMs, s)
  | .gpioPinSet value, s => (ret, { s with ret, pin := if ret < 0 then s.pin else value })
  | .gpioPinToggle, s => (ret, { s with ret, pin := if ret < 0 then s.pin else !s.pin })
  | .sleep _, s => ((), s)

/-- No handler is called before USB is enabled, and nothing runs behind the reboot. -/
def step (s : Heartbeat) : HeartbeatEvent → Option Heartbeat
  | .main usbd registered enabled =>
      if s.boot.isNone then
        some (s.moved { start with board := Usb.main usbd registered enabled }
          (some (usbd && registered == 0 && enabled == 0)))
      else none
  | .handler e =>
      if s.boot = some true then
        (Usb.step s.firmware e).map fun firmware => s.moved firmware s.boot
      else none
  | .beat ret =>
      if s.firmware.stage = .rebooted then none
      else match s.thread with
        | .starting (.ret false) => none
        | .starting (.ret true) | .beating (.ret ()) =>
            some { s with thread := .beating heartbeatRound }
        | .starting (.call c k) =>
            some { (s.exec ret c).2 with thread := .starting (k (s.exec ret c).1) }
        | .beating (.call c k) =>
            some { (s.exec ret c).2 with thread := .beating (k (s.exec ret c).1) }

end Heartbeat

def heartbeat : Machine Heartbeat HeartbeatEvent where
  Start s := s = {}
  step := Heartbeat.step

/-! ## What the handlers write -/

/-- Once USB is enabled: a slow blinking, or a fast one for an error. -/
structure Paced (b : Board) : Prop where
  periods : b.heartbeatPeriodMs = 100 ∨ b.heartbeatPeriodMs = 500
  blink : b.statusLedMode = .blink → b.heartbeatPeriodMs = 500
  error : b.statusLedMode = .error → b.heartbeatPeriodMs = 100

namespace Paced

variable {b : Board}

theorem same {b' : Board} (paced : Paced b) (mode : b'.statusLedMode = b.statusLedMode)
    (period : b'.heartbeatPeriodMs = b.heartbeatPeriodMs) : Paced b' := by
  obtain ⟨periods, blink, error⟩ := paced
  rw [← period] at periods blink error
  rw [← mode] at blink error
  exact ⟨periods, blink, error⟩

theorem setBlink (b : Board) : Paced (statusLedSetBlink 500 b) := by
  refine ⟨.inr rfl, fun _ => rfl, fun error => ?_⟩
  cases error

theorem setError (b : Board) : Paced (statusLedSetError b) := by
  refine ⟨.inl rfl, fun blink => ?_, fun _ => rfl⟩
  cases blink

theorem setSolid (paced : Paced b) : Paced (statusLedSetSolid b) := by
  refine ⟨paced.periods, fun blink => ?_, fun error => ?_⟩
  · cases blink
  · cases error

theorem message (paced : Paced b) (msg : UsbdMsg) : Paced (usbdMsgCb msg b) := by
  cases msg with
  | configuration | other => exact paced.same rfl rfl
  | stackError | udcError | reset | suspend | vbusRemoved | resume | vbusReady =>
      exact (setBlink b).same rfl rfl

theorem network (paced : Paced b) (present : Bool) :
    Paced (usbNcmNetworkWorkHandler present b) := by
  unfold usbNcmNetworkWorkHandler
  split
  · exact setError b
  split
  · exact paced.same rfl rfl
  split
  · exact setBlink _
  · exact paced

theorem watchdog (paced : Paced b) : Paced (usbNcmStartupWatchdogWorkHandler b).1 := by
  unfold usbNcmStartupWatchdogWorkHandler
  split
  · exact paced
  · exact setError b

theorem httpServerStart (paced : Paced b) (ret : Int) :
    Paced (httpServerStartWorkHandler ret b) := by
  unfold httpServerStartWorkHandler
  split
  · exact paced
  split
  · exact setError _
  · exact paced.same rfl rfl

theorem address (paced : Paced b) (cfg : Option NetIfConfig) : Paced (ipv4AddrHandler cfg b) := by
  rw [ipv4AddrHandler_eq]
  split
  · exact paced.setSolid.same rfl rfl
  · exact paced

theorem step {s t : State} {e : Event} (paced : Paced s.board) (hstep : Usb.step s e = some t) :
    Paced t.board := by
  cases step_cases hstep with
  | message running => exact paced.message _
  | networkTimeout up expired => exact paced.same rfl rfl
  | watchdogTimeout up expired => exact paced.same rfl rfl
  | network running taken =>
      refine Paced.network ?_ _
      exact paced.same rfl rfl
  | watchdog running taken =>
      refine Paced.watchdog ?_
      exact paced.same rfl rfl
  | httpServerStart running taken =>
      refine Paced.httpServerStart ?_ _
      exact paced.same rfl rfl
  | address up =>
      refine Paced.address ?_ _
      exact paced.same rfl rfl
  | reboot recovering => exact paced

end Paced

/-! ## What the thread shows -/

namespace Heartbeat

/-- How long a round sleeps that nothing disturbs. -/
def pace (s : Heartbeat) : Nat :=
  match s.mode with
  | .solid => 1000
  | .error => 100
  | .blink => if s.boot.isNone then 1000 else 500

/-- The mode and the period belong together, and a firmware that gave up says so. -/
def Matches (s : Heartbeat) : Prop :=
  match s.boot with
  | none => s.mode = .blink ∧ s.periodMs = 1000
  | some true => Paced s.firmware.board
  | some false => s.mode = .error ∧ s.periodMs = 100

theorem Matches.periods {s : Heartbeat} (hmatch : s.Matches) :
    s.periodMs = 100 ∨ s.periodMs = 500 ∨ s.periodMs = 1000 := by
  unfold Matches at hmatch
  split at hmatch
  · exact .inr (.inr hmatch.2)
  · exact hmatch.periods.imp_right .inl
  · exact .inl hmatch.2

theorem Matches.pace {s : Heartbeat} (hmatch : s.Matches) (blinks : s.mode ≠ .solid) :
    s.periodMs = s.pace := by
  unfold Matches at hmatch
  unfold Heartbeat.pace
  split at hmatch
  · next unbooted =>
      rw [hmatch.1, unbooted]
      exact hmatch.2
  · next booted =>
      cases shown : s.mode with
      | solid => exact absurd shown blinks
      | error => exact hmatch.error shown
      | blink =>
          rw [booted]
          exact hmatch.blink shown
  · rw [hmatch.1]
    exact hmatch.2

/-- The thread is about to sleep: for one of three times, and, if nothing has changed since it read
the mode, as the mode says; with the LED on where the mode is solid. -/
structure Sleeps (s : Heartbeat) (ms : Nat) : Prop where
  times : ms = 100 ∨ ms = 500 ∨ ms = 1000
  pace : s.still = true → ms = s.pace
  lit : s.still = true → s.mode = .solid → 0 ≤ s.ret → s.pin = true

/-- Where the code of the thread stands. -/
inductive Stands (s : Heartbeat) : HeartbeatCode → Prop
  | starting (rest : LedProg Bool) : Stands s (.starting rest)
  | round : Stands s (.beating heartbeatRound)
  | on (mode : s.still = true → s.mode = .solid) :
      Stands s (.beating (.call (.gpioPinSet true) fun _ => led (.sleep 1000)))
  | toggle (mode : s.still = true → s.mode ≠ .solid) :
      Stands s (.beating (.call .gpioPinToggle fun _ => .call .periodGet fun ms => led (.sleep ms)))
  | period (mode : s.still = true → s.mode ≠ .solid) :
      Stands s (.beating (.call .periodGet fun ms => led (.sleep ms)))
  | sleep {ms : Nat} (sleeps : s.Sleeps ms) : Stands s (.beating (led (.sleep ms)))
  | done : Stands s (.beating (.ret ()))

/-- Whatever changes, the thread stands where it stood. -/
theorem Stands.moved {s : Heartbeat} {code : HeartbeatCode} (stands : Stands s code)
    {firmware : State} {boot : Option Bool} (still : (s.moved firmware boot).still = true →
      s.still = true ∧ (s.moved firmware boot).mode = s.mode ∧
        (s.moved firmware boot).pace = s.pace) :
    Stands (s.moved firmware boot) code := by
  cases stands with
  | starting => exact .starting _
  | round => exact .round
  | on mode =>
      refine .on fun undisturbed => ?_
      obtain ⟨before, same, -⟩ := still undisturbed
      exact same.trans (mode before)
  | toggle mode =>
      refine .toggle fun undisturbed => ?_
      obtain ⟨before, same, -⟩ := still undisturbed
      rw [same]
      exact mode before
  | period mode =>
      refine .period fun undisturbed => ?_
      obtain ⟨before, same, -⟩ := still undisturbed
      rw [same]
      exact mode before
  | sleep sleeps =>
      refine .sleep ⟨sleeps.times, fun undisturbed => ?_, fun undisturbed solid => ?_⟩
      · obtain ⟨before, -, same⟩ := still undisturbed
        rw [same]
        exact sleeps.pace before
      · obtain ⟨before, same, -⟩ := still undisturbed
        rw [same] at solid
        exact sleeps.lit before solid
  | done => exact .done

/-- Mode and period are what they were. -/
theorem moved_still {s : Heartbeat} {firmware : State} {boot : Option Bool}
    (still : (s.moved firmware boot).still = true) : s.still = true ∧
      (s.moved firmware boot).mode = s.mode ∧ (s.moved firmware boot).periodMs = s.periodMs := by
  simp only [moved, Bool.and_eq_true, beq_iff_eq] at still
  exact ⟨still.1.1, still.1.2.symm, still.2.symm⟩

structure Kept (s : Heartbeat) : Prop where
  hmatch : s.Matches
  stands : Stands s s.thread

theorem Kept.beat {s : Heartbeat} (kept : Kept s) {c : LedCall} {k : c.Answer → LedProg Unit}
    (busy : s.thread = .beating (.call c k)) (ret : Int) :
    Kept { (s.exec ret c).2 with thread := .beating (k (s.exec ret c).1) } := by
  obtain ⟨hmatch, stands⟩ := kept
  rw [busy] at stands
  cases stands with
  | round =>
      refine ⟨hmatch, ?_⟩
      have read : (s.exec ret .modeGet).1 = s.mode := rfl
      rw [read]
      cases shown : s.mode with
      | solid => exact .on fun _ => shown
      | error | blink =>
          refine .toggle fun _ solid => ?_
          cases shown.symm.trans solid
  | on mode =>
      refine ⟨hmatch, .sleep ⟨.inr (.inr rfl), fun still => ?_, fun still solid ok => ?_⟩⟩
      · have solid : s.mode = .solid := mode still
        show 1000 = s.pace
        simp only [Heartbeat.pace, solid]
      · exact if_neg (Int.not_lt.mpr ok)
  | toggle mode => exact ⟨hmatch, .period mode⟩
  | period mode =>
      refine ⟨hmatch, .sleep ⟨hmatch.periods, fun still => ?_, fun still solid => ?_⟩⟩
      · exact hmatch.pace (mode still)
      · exact absurd solid (mode still)
  | sleep sleeps => exact ⟨hmatch, .done⟩

/-- `main` ends in one of two ways. -/
theorem main_cases (usbd : Bool) (registered enabled : Int) :
    ((usbd && registered == 0 && enabled == 0) = true ∧
        Usb.main usbd registered enabled = statusLedSetBlink 500 resetBoard) ∨
      ((usbd && registered == 0 && enabled == 0) = false ∧
        Usb.main usbd registered enabled = statusLedSetError resetBoard) := by
  unfold Usb.main
  cases usbd with
  | false => exact .inr ⟨rfl, rfl⟩
  | true =>
      by_cases first : registered = 0
      · by_cases second : enabled = 0
        · simp [first, second]
        · simp [first, second]
      · simp [first]

theorem Kept.main {s : Heartbeat} (kept : Kept s) (unbooted : s.boot = none) (usbd : Bool)
    (registered enabled : Int) :
    Kept (s.moved { start with board := Usb.main usbd registered enabled }
      (some (usbd && registered == 0 && enabled == 0))) := by
  have slow : s.periodMs = 1000 := by
    have hmatch := kept.hmatch
    unfold Matches at hmatch
    rw [unbooted] at hmatch
    exact hmatch.2
  have written : (Usb.main usbd registered enabled).heartbeatPeriodMs ≠ s.periodMs := by
    rw [slow]
    rcases main_cases usbd registered enabled with ⟨-, board⟩ | ⟨-, board⟩
    · rw [board]
      decide
    · rw [board]
      decide
  refine ⟨?_, kept.stands.moved fun still => ?_⟩
  · rcases main_cases usbd registered enabled with ⟨enabled', board⟩ | ⟨failed, board⟩
    · rw [enabled', board]
      exact Paced.setBlink resetBoard
    · rw [failed, board]
      exact ⟨rfl, rfl⟩
  · obtain ⟨-, -, period⟩ := moved_still still
    exact absurd period written

theorem Kept.step {s t : Heartbeat} {e : HeartbeatEvent} (kept : Kept s)
    (hstep : Heartbeat.step s e = some t) : Kept t := by
  cases e with
  | main usbd registered enabled =>
      simp only [Heartbeat.step, Option.ite_none_right_eq_some, Option.some.injEq] at hstep
      obtain ⟨unbooted, rfl⟩ := hstep
      exact kept.main (Option.isNone_iff_eq_none.mp unbooted) usbd registered enabled
  | handler e =>
      simp only [Heartbeat.step, Option.ite_none_right_eq_some, Option.map_eq_some_iff] at hstep
      obtain ⟨booted, firmware, moves, rfl⟩ := hstep
      have paced : Paced s.firmware.board := by
        have hmatch := kept.hmatch
        unfold Matches at hmatch
        rw [booted] at hmatch
        exact hmatch
      refine ⟨?_, kept.stands.moved fun still => ?_⟩
      · unfold Matches
        rw [show (s.moved firmware s.boot).boot = some true from booted]
        exact paced.step moves
      · obtain ⟨before, mode, -⟩ := moved_still still
        refine ⟨before, mode, ?_⟩
        unfold Heartbeat.pace
        rw [mode]
        rfl
  | beat ret =>
      simp only [Heartbeat.step, Option.ite_none_left_eq_some] at hstep
      obtain ⟨-, hstep⟩ := hstep
      split at hstep
      · cases hstep
      · cases hstep
        exact ⟨kept.hmatch, .round⟩
      · cases hstep
        exact ⟨kept.hmatch, .round⟩
      · next c k busy =>
          cases hstep
          refine ⟨?_, .starting _⟩
          cases c <;> exact kept.hmatch
      · next busy =>
          cases hstep
          exact kept.beat busy ret

theorem kept_reach {s : Heartbeat} (reach : heartbeat.Reach anyStep s) : Kept s := by
  refine reach.invariant ?_ ?_
  · rintro s rfl
    exact ⟨⟨rfl, rfl⟩, .starting _⟩
  · intro s e t kept _ hstep
    exact kept.step hstep

/-- How long the thread is about to sleep. -/
def sleeping (s : Heartbeat) : Option Nat :=
  match s.thread with
  | .beating (.call (.sleep ms) _) => some ms
  | _ => none

theorem Stands.sleeping {s : Heartbeat} (stands : Stands s s.thread) {ms : Nat}
    (sleeps : s.sleeping = some ms) : s.Sleeps ms := by
  unfold Heartbeat.sleeping at sleeps
  generalize s.thread = code at stands sleeps
  cases stands with
  | sleep holds =>
      obtain rfl := Option.some.inj sleeps
      exact holds
  | starting rest => cases sleeps
  | round | on | toggle | period | done => cases sleeps

end Heartbeat

/-- In every order of `main`, the handlers and the thread: a firmware that could not enable USB
shows an error, and the thread sleeps for a tenth, a half or a whole second; where nothing has
changed since it read the mode, the time is that of the mode, and the LED is on where the mode is
solid, if the pin can be driven. -/
theorem heartbeat_shows {s : Heartbeat} (reach : heartbeat.Reach anyStep s) :
    (s.boot = some false → s.mode = .error) ∧ ∀ ms, s.sleeping = some ms → s.Sleeps ms := by
  have kept := Heartbeat.kept_reach reach
  refine ⟨fun failed => ?_, fun ms sleeps => kept.stands.sleeping sleeps⟩
  have hmatch := kept.hmatch
  unfold Heartbeat.Matches at hmatch
  rw [failed] at hmatch
  exact hmatch.1

/-- The network is announced while the thread starts. -/
def announcedEarly : List HeartbeatEvent :=
  [.beat 0, .main true 0 0, .beat 0, .beat 0, .handler (.message .configuration),
    .handler .networkTimeout, .handler (.network true), .handler (.address linkLocalConfig),
    .beat 0, .beat 0]

theorem heartbeat_shows_announcedEarly : ∃ s, heartbeat.runs {} announcedEarly = some s ∧
    s.sleeping = some 1000 ∧ s.pin = true := by
  have outcome : (heartbeat.runs {} announcedEarly).map (fun s =>
      (s.sleeping, s.still, s.mode, s.ret)) = some (some 1000, true, .solid, 0) := by decide +kernel
  obtain ⟨s, run, facts⟩ := Option.map_eq_some_iff.mp outcome
  simp only [Prod.mk.injEq] at facts
  obtain ⟨sleeps, still, solid, ret⟩ := facts
  have start : heartbeat.Reach anyStep {} := .start rfl
  obtain ⟨-, shows⟩ := heartbeat_shows (start.runs run)
  exact ⟨s, run, sleeps, (shows 1000 sleeps).lit still solid (Int.le_of_eq ret.symm)⟩

end PicoCan.Usb
