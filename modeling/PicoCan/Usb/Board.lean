import PicoCan.Calls.Delayable

/-!
# USB, network and recovery state of the board

The functions of `main.c` on its static flags, its work items and the LED.
Each handler is one function on the `Board`; what it asks the network stack
for and is answered is an argument. The one handler that waits in the middle,
the startup watchdog's, says whether it got as far as `k_sleep`, after which
it does nothing but reboot.
-/

namespace PicoCan.Usb

open Calls

inductive StatusLedMode
  | blink
  | solid
  | error
deriving DecidableEq, Repr

inductive LinkCall
  | up
  | down
deriving DecidableEq, Repr

/-- The messages `usbd_msg_cb` tells apart. -/
inductive UsbdMsg
  | configuration
  | stackError
  | udcError
  | reset
  | suspend
  | vbusRemoved
  | resume
  | vbusReady
  | other
deriving DecidableEq, Repr

/-- How an address came to an interface (`enum net_addr_type`). -/
inductive NetAddrType
  | any
  | autoconf
  | dhcp
  | manual
  | overridable
deriving DecidableEq, Repr

structure NetIfAddr where
  isUsed : Bool
  addrType : NetAddrType
deriving DecidableEq, Repr

/-- The part of `struct net_if_config` the address handler reads: no IPv4
configuration, or its table of unicast addresses. -/
structure NetIfConfig where
  unicast : Option (List NetIfAddr)
deriving DecidableEq, Repr

/-- The default interface: what it was driven to, oldest first, and whether it
holds a link-local address. -/
structure NetIf where
  driven : List LinkCall
  linkLocal : Bool
deriving DecidableEq, Repr

/-- The static variables of `main.c` and the interface they steer. -/
structure Board where
  statusLedMode : StatusLedMode
  heartbeatPeriodMs : Nat
  networkShouldRun : Bool
  networkIsUp : Bool
  networkIsReady : Bool
  httpServerIsStarted : Bool
  networkWork : Delayable
  watchdogWork : Delayable
  httpServerStartWork : Delayable
  iface : NetIf
deriving DecidableEq, Repr

/-! ## Status LED -/

def statusLedSetBlink (periodMs : Nat) (b : Board) : Board :=
  { b with heartbeatPeriodMs := periodMs, statusLedMode := .blink }

def statusLedSetSolid (b : Board) : Board := { b with statusLedMode := .solid }

def statusLedSetError (b : Board) : Board :=
  { b with heartbeatPeriodMs := 100, statusLedMode := .error }

/-! ## Network interface -/

def netIfUp (b : Board) : Board :=
  { b with iface := { b.iface with driven := b.iface.driven ++ [.up] } }

/-- Taking the interface down removes its link-local address. -/
def netIfDown (b : Board) : Board :=
  { b with iface := ⟨b.iface.driven ++ [.down], false⟩ }

/-- `present` is false when `net_if_get_default` answers NULL. -/
def usbNcmNetworkWorkHandler (present : Bool) (b : Board) : Board :=
  if !present then
    statusLedSetError b
  else if b.networkShouldRun && !b.networkIsUp then
    { netIfUp b with networkIsUp := true }
  else if !b.networkShouldRun && b.networkIsUp then
    statusLedSetBlink 500 { netIfDown b with networkIsUp := false, networkIsReady := false }
  else
    b

def setUsbNcmNetworkState (up : Bool) (b : Board) : Board :=
  let b := { b with networkShouldRun := up }
  if up then
    { b with networkWork := b.networkWork.schedule 1000 }
  else
    let b := { b with networkWork := b.networkWork.cancel }
    let b := { b with watchdogWork := b.watchdogWork.cancel }
    { b with networkWork := b.networkWork.schedule 0 }

/-- The second component says that the handler went to sleep before its reboot. -/
def usbNcmStartupWatchdogWorkHandler (b : Board) : Board × Bool :=
  if !b.networkShouldRun || b.networkIsReady then
    (b, false)
  else
    (statusLedSetError b, true)

/-- `ret` is what `http_server_start` returns, if it is called. -/
def httpServerStartWorkHandler (ret : Int) (b : Board) : Board :=
  if b.httpServerIsStarted then
    b
  else if ret ≠ 0 then
    statusLedSetError { b with httpServerIsStarted := false }
  else
    { b with httpServerIsStarted := true }

def armWatchdog (b : Board) : Board :=
  { b with watchdogWork := b.watchdogWork.reschedule 6000 }

def usbdMsgCb (msg : UsbdMsg) (b : Board) : Board :=
  match msg with
  | .configuration => armWatchdog (setUsbNcmNetworkState true b)
  | .stackError | .udcError | .reset | .suspend | .vbusRemoved =>
      setUsbNcmNetworkState false (statusLedSetBlink 500 { b with networkIsReady := false })
  | .resume | .vbusReady => armWatchdog (setUsbNcmNetworkState true (statusLedSetBlink 500 b))
  | .other => b

/-! ## Addresses -/

/-- An entry the address handler does not skip. -/
def NetIfAddr.linkLocal (addr : NetIfAddr) : Bool :=
  addr.isUsed && addr.addrType == .autoconf

/-- The body of the loop for an entry that is not skipped. -/
def networkReady (b : Board) : Board :=
  let b := { b with networkIsReady := true }
  let b := { b with watchdogWork := b.watchdogWork.cancel }
  let b := statusLedSetSolid b
  { b with httpServerStartWork := b.httpServerStartWork.submit }

def ipv4AddrHandler (cfg : Option NetIfConfig) (b : Board) : Board :=
  match cfg with
  | none | some ⟨none⟩ => b
  | some ⟨some unicast⟩ =>
      unicast.foldl (fun b addr => if addr.linkLocal then networkReady b else b) b

/-- The handler finds a link-local address. -/
def announces (cfg : Option NetIfConfig) : Bool :=
  match cfg with
  | none | some ⟨none⟩ => false
  | some ⟨some unicast⟩ => unicast.any NetIfAddr.linkLocal

/-! ## Startup -/

/-- The board before `main`. -/
def resetBoard : Board :=
  { statusLedMode := .blink, heartbeatPeriodMs := 1000, networkShouldRun := false,
    networkIsUp := false, networkIsReady := false, httpServerIsStarted := false,
    networkWork := .idle, watchdogWork := .idle, httpServerStartWork := .idle,
    iface := ⟨[], false⟩ }

/-- `main` up to its idle loop: whether `usb_device_init` found a context, and what
`usbd_msg_register_cb` and `usbd_enable` return. -/
def main (usbd : Bool) (registered enabled : Int) : Board :=
  if !usbd then
    statusLedSetError resetBoard
  else if registered ≠ 0 then
    statusLedSetError resetBoard
  else if enabled ≠ 0 then
    statusLedSetError resetBoard
  else
    statusLedSetBlink 500 resetBoard

/-! ## What the handlers do -/

/-- What a message asks of the interface. -/
def UsbdMsg.asks : UsbdMsg → Option LinkCall
  | .configuration | .resume | .vbusReady => some .up
  | .stackError | .udcError | .reset | .suspend | .vbusRemoved => some .down
  | .other => none

theorem usbdMsgCb_up {msg : UsbdMsg} (asks : msg.asks = some .up) (b : Board) :
    ∃ mode periodMs, usbdMsgCb msg b =
      { b with
        statusLedMode := mode, heartbeatPeriodMs := periodMs, networkShouldRun := true,
        networkWork := b.networkWork.schedule 1000,
        watchdogWork := b.watchdogWork.reschedule 6000 } := by
  cases msg with
  | configuration => exact ⟨b.statusLedMode, b.heartbeatPeriodMs, rfl⟩
  | resume | vbusReady => exact ⟨.blink, 500, rfl⟩
  | stackError | udcError | reset | suspend | vbusRemoved | other => exact nomatch asks

theorem usbdMsgCb_down {msg : UsbdMsg} (asks : msg.asks = some .down) (b : Board) :
    usbdMsgCb msg b =
      { b with
        statusLedMode := .blink, heartbeatPeriodMs := 500, networkShouldRun := false,
        networkIsReady := false, networkWork := Delayable.idle.schedule 0,
        watchdogWork := .idle } := by
  cases msg with
  | stackError | udcError | reset | suspend | vbusRemoved => rfl
  | configuration | resume | vbusReady | other => exact nomatch asks

theorem usbdMsgCb_other {msg : UsbdMsg} (asks : msg.asks = none) (b : Board) :
    usbdMsgCb msg b = b := by
  cases msg with
  | other => rfl
  | _ => exact nomatch asks

/-- After the network work the interface is driven to what was asked for. -/
theorem usbNcmNetworkWorkHandler_settles (b : Board) :
    (usbNcmNetworkWorkHandler true b).networkIsUp = b.networkShouldRun := by
  cases run : b.networkShouldRun <;> cases isUp : b.networkIsUp <;>
    simp [usbNcmNetworkWorkHandler, statusLedSetBlink, run, isUp]

theorem usbNcmNetworkWorkHandler_cases (present : Bool) (b : Board) :
    (∃ mode periodMs, usbNcmNetworkWorkHandler present b =
        { b with statusLedMode := mode, heartbeatPeriodMs := periodMs }) ∨
      (b.networkShouldRun = true ∧ b.networkIsUp = false ∧
        usbNcmNetworkWorkHandler present b = { netIfUp b with networkIsUp := true }) ∨
      (b.networkShouldRun = false ∧ b.networkIsUp = true ∧
        usbNcmNetworkWorkHandler present b =
          statusLedSetBlink 500
            { netIfDown b with networkIsUp := false, networkIsReady := false }) := by
  cases present with
  | false => exact .inl ⟨.error, 100, rfl⟩
  | true =>
      by_cases agree : b.networkIsUp = b.networkShouldRun
      · refine .inl ⟨b.statusLedMode, b.heartbeatPeriodMs, ?_⟩
        show usbNcmNetworkWorkHandler true b = b
        cases run : b.networkShouldRun <;>
          simp [usbNcmNetworkWorkHandler, run, agree.trans run]
      · cases run : b.networkShouldRun with
        | true =>
            have isDown : b.networkIsUp = false := by simpa [run] using agree
            exact .inr (.inl ⟨rfl, isDown, by simp [usbNcmNetworkWorkHandler, run, isDown]⟩)
        | false =>
            have isUp : b.networkIsUp = true := by simpa [run] using agree
            exact .inr (.inr ⟨rfl, isUp, by simp [usbNcmNetworkWorkHandler, run, isUp]⟩)

theorem usbNcmStartupWatchdogWorkHandler_sleeps {b : Board} :
    (usbNcmStartupWatchdogWorkHandler b).2 = true ↔
      b.networkShouldRun = true ∧ b.networkIsReady = false := by
  cases run : b.networkShouldRun <;> cases ready : b.networkIsReady <;>
    simp [usbNcmStartupWatchdogWorkHandler, run, ready]

/-- The watchdog and the HTTP start touch nothing but the LED and the started flag. -/
theorem usbNcmStartupWatchdogWorkHandler_board (b : Board) :
    ∃ mode periodMs, (usbNcmStartupWatchdogWorkHandler b).1 =
      { b with statusLedMode := mode, heartbeatPeriodMs := periodMs } := by
  unfold usbNcmStartupWatchdogWorkHandler
  split
  · exact ⟨b.statusLedMode, b.heartbeatPeriodMs, rfl⟩
  · exact ⟨.error, 100, rfl⟩

theorem httpServerStartWorkHandler_board (ret : Int) (b : Board) :
    ∃ mode periodMs started, httpServerStartWorkHandler ret b =
      { b with
        statusLedMode := mode, heartbeatPeriodMs := periodMs, httpServerIsStarted := started } := by
  unfold httpServerStartWorkHandler
  split
  · exact ⟨b.statusLedMode, b.heartbeatPeriodMs, b.httpServerIsStarted, rfl⟩
  · split
    · exact ⟨.error, 100, false, rfl⟩
    · exact ⟨b.statusLedMode, b.heartbeatPeriodMs, true, rfl⟩

theorem networkReady_twice (b : Board) : networkReady (networkReady b) = networkReady b := rfl

/-- However many link-local addresses it finds, the handler does its work once. -/
theorem ipv4AddrHandler_eq (cfg : Option NetIfConfig) (b : Board) :
    ipv4AddrHandler cfg b = if announces cfg then networkReady b else b := by
  match cfg with
  | none | some ⟨none⟩ => rfl
  | some ⟨some unicast⟩ =>
      show unicast.foldl _ b = if unicast.any NetIfAddr.linkLocal then networkReady b else b
      induction unicast generalizing b with
      | nil => rfl
      | cons addr rest ih =>
          rw [List.foldl_cons, List.any_cons]
          cases found : addr.linkLocal with
          | false => simpa [found] using ih b
          | true =>
              rw [if_pos rfl, ih, networkReady_twice]
              simp

end PicoCan.Usb
