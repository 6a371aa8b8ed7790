import PicoCan.Usb.Firmware

/-!
# No network transition is lost

Every message that asks for a change leaves the network work pending, and the
work handler drives the interface to whatever is asked for when it runs. So the
interface can lag behind the latest message only while the work is pending.
-/

namespace PicoCan.Usb

open Calls Machine

/-- `net_if_get_default` always answers an interface. -/
def interfacePresent (_ : State) : Event → Prop
  | .network present => present = true
  | _ => True

/-- No two neighbours in the history are the same call. -/
def Alternates (driven : List LinkCall) : Prop :=
  ∀ before a b after, driven = before ++ a :: b :: after → a ≠ b

theorem Alternates.append {driven : List LinkCall} (alternates : Alternates driven)
    {call : LinkCall} (fresh : driven.getLast? ≠ some call) :
    Alternates (driven ++ [call]) := by
  intro before a b after split
  rcases List.eq_nil_or_concat after with rfl | ⟨init, last, rfl⟩
  · -- the new call is the second of the two
    have ends : driven ++ [call] = (before ++ [a]) ++ [b] := by simpa using split
    obtain ⟨rfl, last⟩ := List.append_inj' ends rfl
    obtain rfl : call = b := by simpa using last
    rintro rfl
    exact fresh (by simp)
  · have ends : driven ++ [call] = (before ++ a :: b :: init) ++ [last] := by
      simpa using split
    obtain ⟨rfl, -⟩ := List.append_inj' ends rfl
    exact alternates before a b init rfl

/-- What the flags say of the interface's history, and that a difference between the two
flags is being worked on. -/
structure LinkInv (s : State) : Prop where
  work : s.board.networkIsUp ≠ s.board.networkShouldRun → s.board.networkWork.Pending
  asked : s.board.networkShouldRun = true ↔ s.asked = some .up
  driven : s.board.networkIsUp = true ↔ s.board.iface.driven.getLast? = some .up
  alternates : Alternates s.board.iface.driven

theorem LinkInv.message {s : State} (inv : LinkInv s) (msg : UsbdMsg) (heard : Bool) :
    LinkInv { s with
      board := usbdMsgCb msg s.board, asked := msg.asks <|> s.asked, heard := heard } := by
  cases asks : msg.asks with
  | none =>
      rw [usbdMsgCb_other asks]
      exact ⟨inv.work, inv.asked, inv.driven, inv.alternates⟩
  | some call =>
      cases call with
      | up =>
          obtain ⟨mode, periodMs, after⟩ := usbdMsgCb_up asks s.board
          rw [after]
          exact ⟨fun _ => Delayable.pending_schedule _ _, by simp, inv.driven, inv.alternates⟩
      | down =>
          rw [usbdMsgCb_down asks]
          exact ⟨fun _ => Delayable.pending_schedule _ _, by simp, inv.driven, inv.alternates⟩

theorem LinkInv.network {s : State} (inv : LinkInv s) (work : Delayable) :
    LinkInv { s with
      board := usbNcmNetworkWorkHandler true { s.board with networkWork := work } } := by
  have settled := usbNcmNetworkWorkHandler_settles { s.board with networkWork := work }
  rcases usbNcmNetworkWorkHandler_cases true { s.board with networkWork := work } with
    ⟨mode, periodMs, after⟩ | ⟨run, isDown, after⟩ | ⟨run, isUp, after⟩
  · rw [after] at settled ⊢
    exact ⟨fun differ => absurd settled differ, inv.asked, inv.driven, inv.alternates⟩
  · rw [after]
    have fresh : s.board.iface.driven.getLast? ≠ some .up := fun last =>
      Bool.false_ne_true (isDown.symm.trans (inv.driven.mpr last))
    exact ⟨fun differ => absurd run.symm differ, inv.asked, by simp [netIfUp],
      inv.alternates.append fresh⟩
  · rw [after]
    have fresh : s.board.iface.driven.getLast? ≠ some .down := by
      rw [inv.driven.mp isUp]
      simp
    exact ⟨fun differ => absurd run.symm differ, inv.asked,
      by simp [statusLedSetBlink, netIfDown], inv.alternates.append fresh⟩

theorem LinkInv.step {s t : State} {e : Event} (inv : LinkInv s) (present : interfacePresent s e)
    (hstep : step s e = some t) : LinkInv t := by
  cases step_cases hstep with
  | message _ => exact inv.message _ _
  | @network present' work _ _ =>
      obtain rfl : present' = true := present
      exact inv.network work
  | networkTimeout _ expired =>
      exact ⟨fun _ => Delayable.pending_expire expired, inv.asked, inv.driven, inv.alternates⟩
  | watchdogTimeout _ _ => exact ⟨inv.work, inv.asked, inv.driven, inv.alternates⟩
  | @watchdog work _ _ =>
      obtain ⟨mode, periodMs, after⟩ :=
        usbNcmStartupWatchdogWorkHandler_board { s.board with watchdogWork := work }
      simp only [runWatchdog, after]
      exact ⟨inv.work, inv.asked, inv.driven, inv.alternates⟩
  | @httpServerStart ret work _ _ =>
      obtain ⟨mode, periodMs, started, after⟩ :=
        httpServerStartWorkHandler_board ret { s.board with httpServerStartWork := work }
      simp only [after]
      exact ⟨inv.work, inv.asked, inv.driven, inv.alternates⟩
  | address _ =>
      simp only [ipv4AddrHandler_eq]
      split <;> exact ⟨inv.work, inv.asked, inv.driven, inv.alternates⟩
  | reboot _ => exact ⟨inv.work, inv.asked, inv.driven, inv.alternates⟩

theorem linkInv_reach {s : State} (reach : firmware.Reach interfacePresent s) : LinkInv s := by
  refine reach.invariant ?_ fun s e t inv present hstep => inv.step present hstep
  rintro s rfl
  refine ⟨by decide, by decide, by decide, fun before a b after split => ?_⟩
  cases before <;> exact nomatch split

/-- In every reachable state a difference between the two flags is being worked on; once no
network work is pending, the interface was last brought up exactly if the latest message
asked for it; and it is brought up and down in turn. -/
theorem network_follows {s : State} (reach : firmware.Reach interfacePresent s) :
    (s.board.networkIsUp ≠ s.board.networkShouldRun → s.board.networkWork.Pending) ∧
      (¬ s.board.networkWork.Pending →
        (s.board.iface.driven.getLast? = some .up ↔ s.asked = some .up)) ∧
      Alternates s.board.iface.driven := by
  have inv := linkInv_reach reach
  refine ⟨inv.work, fun noWork => ?_, inv.alternates⟩
  have agree : s.board.networkIsUp = s.board.networkShouldRun :=
    Decidable.byContradiction fun differ => noWork (inv.work differ)
  rw [← inv.driven, ← inv.asked, agree]

/-- Configured and up; then suspended and resumed before the interface was taken down. -/
def quickResume : List Event :=
  [.message .configuration, .networkTimeout, .network true, .message .suspend,
    .message .resume, .network true]

theorem network_follows_quickResume : ∃ s, firmware.runs start quickResume = some s ∧
    ¬ s.board.networkWork.Pending ∧
    (s.board.iface.driven.getLast? = some .up ↔ s.asked = some .up) := by
  have along : firmware.Along interfacePresent start quickResume :=
    ⟨trivial, trivial, rfl, trivial, trivial, rfl, trivial⟩
  obtain ⟨s, run, reach⟩ := (Reach.start rfl).along along
  have noWork : ¬ s.board.networkWork.Pending := by
    cases run
    decide
  exact ⟨s, run, noWork, (network_follows reach).2.1 noWork⟩

end PicoCan.Usb
