import PicoCan.Calls.Runs
import PicoCan.Usb.Board

/-!
# The board under any order of events

One step is one USB message, one work handler, one timeout or one address
event. Messages and handlers run on the system work queue, so none of them
runs while the watchdog's handler sleeps before its reboot; addresses may still
be announced then. After the reboot nothing happens.
-/

namespace PicoCan.Usb

open Calls

/-- Running, asleep in the watchdog's handler, or rebooted. -/
inductive Stage
  | running
  | recovering
  | rebooted
deriving DecidableEq, Repr

/-- The board, and of its history what the latest message for the interface asked and
whether an address was announced since a message last turned the network on. -/
structure State where
  board : Board
  stage : Stage
  asked : Option LinkCall
  heard : Bool
deriving DecidableEq, Repr

inductive Event
  | message (msg : UsbdMsg)
  | networkTimeout
  | watchdogTimeout
  | network (present : Bool)
  | watchdog
  | httpServerStart (ret : Int)
  | address (cfg : Option NetIfConfig)
  | reboot
deriving Repr

/-- The message turns `network_should_run` from 0 to 1. -/
def turnsOn (b : Board) (msg : UsbdMsg) : Bool :=
  msg.asks == some .up && !b.networkShouldRun

/-- An announced address is held from then on. -/
def assign (cfg : Option NetIfConfig) (b : Board) : Board :=
  { b with iface := { b.iface with linkLocal := b.iface.linkLocal || announces cfg } }

/-- The watchdog's work is taken from the queue and its handler runs up to its sleep. -/
def runWatchdog (s : State) (work : Delayable) : State :=
  let handled := usbNcmStartupWatchdogWorkHandler { s.board with watchdogWork := work }
  { s with board := handled.1, stage := if handled.2 then .recovering else .running }

def step (s : State) : Event → Option State
  | .message msg =>
      if s.stage = .running then
        some { s with
          board := usbdMsgCb msg s.board
          asked := msg.asks <|> s.asked
          heard := s.heard && !turnsOn s.board msg }
      else none
  | .networkTimeout =>
      if s.stage = .rebooted then none
      else s.board.networkWork.expire.map fun work =>
        { s with board := { s.board with networkWork := work } }
  | .watchdogTimeout =>
      if s.stage = .rebooted then none
      else s.board.watchdogWork.expire.map fun work =>
        { s with board := { s.board with watchdogWork := work } }
  | .network present =>
      if s.stage = .running then
        s.board.networkWork.take.map fun work =>
          { s with board := usbNcmNetworkWorkHandler present { s.board with networkWork := work } }
      else none
  | .watchdog =>
      if s.stage = .running then s.board.watchdogWork.take.map (runWatchdog s) else none
  | .httpServerStart ret =>
      if s.stage = .running then
        s.board.httpServerStartWork.take.map fun work =>
          { s with
            board := httpServerStartWorkHandler ret { s.board with httpServerStartWork := work } }
      else none
  | .address cfg =>
      if s.stage = .rebooted then none
      else some { s with
        board := ipv4AddrHandler cfg (assign cfg s.board)
        heard := s.heard || announces cfg }
  | .reboot => if s.stage = .recovering then some { s with stage := .rebooted } else none

/-- What a step does, and when it is taken. -/
inductive Stepped (s : State) : Event → State → Prop
  | message {msg : UsbdMsg} (running : s.stage = .running) :
      Stepped s (.message msg) { s with
        board := usbdMsgCb msg s.board
        asked := msg.asks <|> s.asked
        heard := s.heard && !turnsOn s.board msg }
  | networkTimeout {work : Delayable} (up : s.stage ≠ .rebooted)
      (expired : s.board.networkWork.expire = some work) :
      Stepped s .networkTimeout { s with board := { s.board with networkWork := work } }
  | watchdogTimeout {work : Delayable} (up : s.stage ≠ .rebooted)
      (expired : s.board.watchdogWork.expire = some work) :
      Stepped s .watchdogTimeout { s with board := { s.board with watchdogWork := work } }
  | network {present : Bool} {work : Delayable} (running : s.stage = .running)
      (taken : s.board.networkWork.take = some work) :
      Stepped s (.network present) { s with
        board := usbNcmNetworkWorkHandler present { s.board with networkWork := work } }
  | watchdog {work : Delayable} (running : s.stage = .running)
      (taken : s.board.watchdogWork.take = some work) : Stepped s .watchdog (runWatchdog s work)
  | httpServerStart {ret : Int} {work : Delayable} (running : s.stage = .running)
      (taken : s.board.httpServerStartWork.take = some work) :
      Stepped s (.httpServerStart ret) { s with
        board := httpServerStartWorkHandler ret { s.board with httpServerStartWork := work } }
  | address {cfg : Option NetIfConfig} (up : s.stage ≠ .rebooted) :
      Stepped s (.address cfg) { s with
        board := ipv4AddrHandler cfg (assign cfg s.board)
        heard := s.heard || announces cfg }
  | reboot (recovering : s.stage = .recovering) : Stepped s .reboot { s with stage := .rebooted }

theorem step_cases {s t : State} {e : Event} (hstep : step s e = some t) : Stepped s e t := by
  cases e with
  | message msg =>
      simp only [step, Option.ite_none_right_eq_some, Option.some.injEq] at hstep
      exact hstep.2 ▸ .message hstep.1
  | networkTimeout =>
      simp only [step, Option.ite_none_left_eq_some, Option.map_eq_some_iff] at hstep
      obtain ⟨up, work, expired, rfl⟩ := hstep
      exact .networkTimeout up expired
  | watchdogTimeout =>
      simp only [step, Option.ite_none_left_eq_some, Option.map_eq_some_iff] at hstep
      obtain ⟨up, work, expired, rfl⟩ := hstep
      exact .watchdogTimeout up expired
  | network present =>
      simp only [step, Option.ite_none_right_eq_some, Option.map_eq_some_iff] at hstep
      obtain ⟨running, work, taken, rfl⟩ := hstep
      exact .network running taken
  | watchdog =>
      simp only [step, Option.ite_none_right_eq_some, Option.map_eq_some_iff] at hstep
      obtain ⟨running, work, taken, rfl⟩ := hstep
      exact .watchdog running taken
  | httpServerStart ret =>
      simp only [step, Option.ite_none_right_eq_some, Option.map_eq_some_iff] at hstep
      obtain ⟨running, work, taken, rfl⟩ := hstep
      exact .httpServerStart running taken
  | address cfg =>
      simp only [step, Option.ite_none_left_eq_some, Option.some.injEq] at hstep
      exact hstep.2 ▸ .address hstep.1
  | reboot =>
      simp only [step, Option.ite_none_right_eq_some, Option.some.injEq] at hstep
      exact hstep.2 ▸ .reboot hstep.1

/-- The board as `main` leaves it when USB is enabled. -/
def start : State := ⟨main true 0 0, .running, none, false⟩

def firmware : Machine State Event := ⟨fun s => s = start, step⟩

end PicoCan.Usb
