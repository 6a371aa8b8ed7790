import PicoCan.Device.Safety
import PicoCan.Http.Service

/-!
# The device in service

The machine of the device under the threads that start it and feed it: the caller of
`http_server_start`, `http_thread` with its accept loop, and `mdns_announce_thread`. The
sockets of these threads and the connections of the device are descriptors of one kernel,
and a `close` of any thread closes whatever the descriptor stands for.
-/

namespace PicoCan.Device

open Calls
open PicoCan.Can (InitDone ParseResult)
open PicoCan.Http (AnnounceState Fd Hostname HttpCall Ipv4Config ServiceCall ServiceProg
  ServiceThread SockType acceptPass announcePass httpServerStart httpThread mdnsSocket waitPass)

/-! ## The state -/

/-- A socket that is not a connection of the device. An accepted one is not handled yet. -/
inductive Socket
  | stream
  | bound
  | listening
  | accepted
  | dgram
deriving DecidableEq

/-- The sockets of the service by their descriptors. -/
abbrev Sockets : Type := Int → Option Socket

/-- What a descriptor stands for from now on. -/
def Sockets.put (sockets : Sockets) (fd : Int) (socket : Option Socket) : Sockets :=
  fun f => if f = fd then socket else sockets f

/-- A thread that is defined with the program and runs once it is started. -/
inductive KThread (α : Type)
  | dormant
  | running (code : α)
  | ended

/-- Where `http_thread` stands. -/
inductive ServerCode
  | starting (rest : ServiceProg Bool)
  | accepting (rest : ServiceProg (Option Fd))
  | handling

/-- Where `mdns_announce_thread` stands. -/
inductive AnnouncerCode
  | waiting (rest : ServiceProg Bool)
  | opening (rest : ServiceProg (Option Fd))
  | announcing (sock : Fd) (rest : ServiceProg AnnounceState)

/-- What `mdns_announce_thread` does in its second loop, as far as it can be noticed. -/
inductive Said
  | saw (cfg : Option Ipv4Config)
  | sent (packet : Bytes)
  | slept (ms : Nat)

/-- `starts`, `returned` and `said` only record, newest first: the threads started, the
results of `http_server_start`, and what the announcements were. -/
structure Service where
  device : State
  sockets : Sockets := fun _ => none
  serverFd : Int := -1
  started : Bool := false
  starter : Option (ServiceProg Int) := none
  server : KThread ServerCode := .dormant
  announcer : KThread AnnouncerCode := .dormant
  starts : List ServiceThread := []
  returned : List Int := []
  said : List Said := []

namespace Service

/-- The kernel may give the descriptor to a new socket. -/
def unused (fd : Fd) (s : Service) : Bool :=
  (s.sockets fd).isNone && !s.device.shared.openFds fd

/-- The descriptor stands for a new socket. -/
def put (fd : Int) (socket : Socket) (s : Service) : Service :=
  { s with sockets := s.sockets.put fd (some socket) }

/-- Whatever the descriptor stands for is closed. -/
def close (fd : Int) (s : Service) : Service :=
  { s with
    sockets := s.sockets.put fd none
    device := { s.device with shared := { s.device.shared with
      openFds := fun f => if (f : Int) = fd then false else s.device.shared.openFds f } } }

/-- A thread that has been started before is not started again. -/
def startThread (thread : ServiceThread) (s : Service) : Service :=
  match thread, s.server, s.announcer with
  | .http, .dormant, _ =>
      { s with server := .running (.starting httpThread), starts := thread :: s.starts }
  | .mdns, _, .dormant =>
      { s with announcer := .running (.waiting waitPass), starts := thread :: s.starts }
  | _, _, _ => { s with starts := thread :: s.starts }

def note (said : Said) (s : Service) : Service := { s with said := said :: s.said }

end Service

/-! ## One call -/

/-- What the environment answers to the calls it decides. -/
abbrev ServiceOracle : Type := (c : ServiceCall) → c.Answer

/-- The socket that is asked for. -/
def socketOf : SockType → Socket
  | .stream => .stream
  | .dgram => .dgram

/-- One call of a thread of the service. The environment decides whether it fails, but it
cannot succeed on a socket that is in no state for it. -/
def serviceExec (t : ServiceThread) (oracle : ServiceOracle) :
    (c : ServiceCall) → Service → Option (c.Answer × Service)
  | .startedCas, s => if s.started then some (false, s) else some (true, { s with started := true })
  | .threadStart thread, s => some ((), s.startThread thread)
  | .serverFdGet, s => some (s.serverFd, s)
  | .serverFdSet fd, s => some ((), { s with serverFd := fd })
  | .socket type, s =>
      match oracle (.socket type) with
      | none => some (none, s)
      | some fd => if s.unused fd then some (some fd, s.put fd (socketOf type)) else none
  | .bind fd, s =>
      if oracle (.bind fd) && s.sockets fd == some .stream then some (true, s.put fd .bound)
      else some (false, s)
  | .listen fd, s =>
      if oracle (.listen fd) && s.sockets fd == some .bound then some (true, s.put fd .listening)
      else some (false, s)
  | .accept fd, s =>
      match oracle (.accept fd) with
      | none => some (none, s)
      | some clientFd =>
          if s.sockets fd == some .listening && s.unused clientFd then
            some (some clientFd, s.put clientFd .accepted)
          else none
  | .close fd, s => some ((), s.close fd)
  | .setMulticastTtl _, s => some ((), s)
  | .sendto fd packet, s => some (oracle (.sendto fd packet), s.note (.sent packet))
  | .netIfGetConfig, s => some (oracle .netIfGetConfig, s.note (.saw (oracle .netIfGetConfig)))
  | .sleep ms, s => some ((), if t = .mdns then s.note (.slept ms) else s)

/-! ## The machine -/

/-- The labels: `http_server_start` is called, a call of one of the three threads, and a
step of the device. The buffer `packet` holds whatever the stack held. -/
inductive ServiceEvent
  | call
  | starter (oracle : ServiceOracle)
  | server (oracle : ServiceOracle) (fuel : Nat)
  | announcer (oracle : ServiceOracle) (stack : Nat → UInt8)
  | device (e : Event)

/-- The descriptor that a step of the device closes. -/
def closing (s : State) : Event → Option Fd
  | .http _ _ _ =>
      match s.http with
      | some (.call (.close fd) _) => some fd
      | _ => none
  | .ws _ _ =>
      match s.ws with
      | some (.loop (.call (.close fd) _)) | some (.leaving (.call (.close fd) _)) => some fd
      | _ => none
  | _ => none

namespace Service

/-- Connections come from the accept loop alone, and `handle_client` runs when it is called. -/
def admits (s : Service) : Event → Bool
  | .accept _ _ => false
  | .http _ _ _ =>
      match s.server with
      | .running .handling => true
      | _ => false
  | _ => true

/-- The sockets after a step of the device. -/
def closed (s : Service) (e : Event) : Sockets :=
  match closing s.device e with
  | none => s.sockets
  | some fd => s.sockets.put fd none

end Service

section Machine

variable (parse : Bytes → ParseResult) (indexHtml : Bytes) (host : Hostname)

def serviceStep (s : Service) : ServiceEvent → Option Service
  | .call =>
      match s.starter with
      | none => some { s with starter := some httpServerStart }
      | some _ => none
  | .starter oracle =>
      match s.starter with
      | none => none
      | some (.ret ret) => some { s with starter := none, returned := ret :: s.returned }
      | some (.call c k) =>
          (serviceExec .starter oracle c s).map fun (r, s) => { s with starter := some (k r) }
  | .server oracle fuel =>
      match s.server with
      | .dormant | .ended => none
      | .running (.starting (.ret true)) =>
          some { s with server := .running (.accepting acceptPass) }
      | .running (.starting (.ret false)) => some { s with server := .ended }
      | .running (.starting (.call c k)) =>
          (serviceExec .http oracle c s).map fun (r, s) =>
            { s with server := .running (.starting (k r)) }
      | .running (.accepting (.ret none)) =>
          some { s with server := .running (.accepting acceptPass) }
      | .running (.accepting (.ret (some clientFd))) =>
          (step parse indexHtml s.device (.accept fuel clientFd)).map fun d =>
            { s with device := d, sockets := s.sockets.put clientFd none
                     server := .running .handling }
      | .running (.accepting (.call c k)) =>
          (serviceExec .http oracle c s).map fun (r, s) =>
            { s with server := .running (.accepting (k r)) }
      | .running .handling =>
          match s.device.http with
          | none => some { s with server := .running (.accepting acceptPass) }
          | some _ => none
  | .announcer oracle stack =>
      match s.announcer with
      | .dormant | .ended => none
      | .running (.waiting (.ret true)) =>
          some { s with announcer := .running (.opening mdnsSocket) }
      | .running (.waiting (.ret false)) =>
          some { s with announcer := .running (.waiting waitPass) }
      | .running (.waiting (.call c k)) =>
          (serviceExec .mdns oracle c s).map fun (r, s) =>
            { s with announcer := .running (.waiting (k r)) }
      | .running (.opening (.ret none)) => some { s with announcer := .ended }
      | .running (.opening (.ret (some sock))) =>
          some { s with
            said := []
            announcer := .running
              (.announcing sock (announcePass host sock { packet := { byte := stack } })) }
      | .running (.opening (.call c k)) =>
          (serviceExec .mdns oracle c s).map fun (r, s) =>
            { s with announcer := .running (.opening (k r)) }
      | .running (.announcing sock (.ret state)) =>
          some { s with announcer := .running (.announcing sock (announcePass host sock state)) }
      | .running (.announcing sock (.call c k)) =>
          (serviceExec .mdns oracle c s).map fun (r, s) =>
            { s with announcer := .running (.announcing sock (k r)) }
  | .device e =>
      if s.admits e then
        (step parse indexHtml s.device e).map fun d =>
          { s with device := d, sockets := s.closed e }
      else none

/-- The machine, started with nothing but the device, as `can_bridge_init` leaves it. -/
def service : Machine Service ServiceEvent where
  Start s := ∃ d, (device parse indexHtml (InitDone parse)).Start d ∧ s = { device := d }
  step := serviceStep parse indexHtml host

/-- Everything a step can do. -/
inductive ServiceMoved (s : Service) : ServiceEvent → Service → Prop
  | call (idle : s.starter = none) :
      ServiceMoved s .call { s with starter := some httpServerStart }
  | returned {oracle : ServiceOracle} {ret : Int} (busy : s.starter = some (.ret ret)) :
      ServiceMoved s (.starter oracle) { s with starter := none, returned := ret :: s.returned }
  | starterCall {oracle : ServiceOracle} {c : ServiceCall} {k : c.Answer → ServiceProg Int}
      {r : c.Answer} {t : Service} (busy : s.starter = some (.call c k))
      (hexec : serviceExec .starter oracle c s = some (r, t)) :
      ServiceMoved s (.starter oracle) { t with starter := some (k r) }
  | listens {oracle : ServiceOracle} {fuel : Nat}
      (busy : s.server = .running (.starting (.ret true))) :
      ServiceMoved s (.server oracle fuel) { s with server := .running (.accepting acceptPass) }
  | ends {oracle : ServiceOracle} {fuel : Nat}
      (busy : s.server = .running (.starting (.ret false))) :
      ServiceMoved s (.server oracle fuel) { s with server := .ended }
  | startingCall {oracle : ServiceOracle} {fuel : Nat} {c : ServiceCall}
      {k : c.Answer → ServiceProg Bool} {r : c.Answer} {t : Service}
      (busy : s.server = .running (.starting (.call c k)))
      (hexec : serviceExec .http oracle c s = some (r, t)) :
      ServiceMoved s (.server oracle fuel) { t with server := .running (.starting (k r)) }
  | again {oracle : ServiceOracle} {fuel : Nat}
      (busy : s.server = .running (.accepting (.ret none))) :
      ServiceMoved s (.server oracle fuel) { s with server := .running (.accepting acceptPass) }
  | handle {oracle : ServiceOracle} {fuel : Nat} {clientFd : Fd} {d : State}
      (busy : s.server = .running (.accepting (.ret (some clientFd))))
      (hstep : step parse indexHtml s.device (.accept fuel clientFd) = some d) :
      ServiceMoved s (.server oracle fuel)
        { s with device := d, sockets := s.sockets.put clientFd none, server := .running .handling }
  | acceptingCall {oracle : ServiceOracle} {fuel : Nat} {c : ServiceCall}
      {k : c.Answer → ServiceProg (Option Fd)} {r : c.Answer} {t : Service}
      (busy : s.server = .running (.accepting (.call c k)))
      (hexec : serviceExec .http oracle c s = some (r, t)) :
      ServiceMoved s (.server oracle fuel) { t with server := .running (.accepting (k r)) }
  | handled {oracle : ServiceOracle} {fuel : Nat} (busy : s.server = .running .handling)
      (idle : s.device.http = none) :
      ServiceMoved s (.server oracle fuel) { s with server := .running (.accepting acceptPass) }
  | waited {oracle : ServiceOracle} {stack : Nat → UInt8}
      (busy : s.announcer = .running (.waiting (.ret true))) :
      ServiceMoved s (.announcer oracle stack)
        { s with announcer := .running (.opening mdnsSocket) }
  | waits {oracle : ServiceOracle} {stack : Nat → UInt8}
      (busy : s.announcer = .running (.waiting (.ret false))) :
      ServiceMoved s (.announcer oracle stack) { s with announcer := .running (.waiting waitPass) }
  | waitingCall {oracle : ServiceOracle} {stack : Nat → UInt8} {c : ServiceCall}
      {k : c.Answer → ServiceProg Bool} {r : c.Answer} {t : Service}
      (busy : s.announcer = .running (.waiting (.call c k)))
      (hexec : serviceExec .mdns oracle c s = some (r, t)) :
      ServiceMoved s (.announcer oracle stack) { t with announcer := .running (.waiting (k r)) }
  | noSocket {oracle : ServiceOracle} {stack : Nat → UInt8}
      (busy : s.announcer = .running (.opening (.ret none))) :
      ServiceMoved s (.announcer oracle stack) { s with announcer := .ended }
  | announces {oracle : ServiceOracle} {stack : Nat → UInt8} {sock : Fd}
      (busy : s.announcer = .running (.opening (.ret (some sock)))) :
      ServiceMoved s (.announcer oracle stack) { s with
        said := []
        announcer := .running
          (.announcing sock (announcePass host sock { packet := { byte := stack } })) }
  | openingCall {oracle : ServiceOracle} {stack : Nat → UInt8} {c : ServiceCall}
      {k : c.Answer → ServiceProg (Option Fd)} {r : c.Answer} {t : Service}
      (busy : s.announcer = .running (.opening (.call c k)))
      (hexec : serviceExec .mdns oracle c s = some (r, t)) :
      ServiceMoved s (.announcer oracle stack) { t with announcer := .running (.opening (k r)) }
  | announced {oracle : ServiceOracle} {stack : Nat → UInt8} {sock : Fd} {state : AnnounceState}
      (busy : s.announcer = .running (.announcing sock (.ret state))) :
      ServiceMoved s (.announcer oracle stack)
        { s with announcer := .running (.announcing sock (announcePass host sock state)) }
  | announcingCall {oracle : ServiceOracle} {stack : Nat → UInt8} {sock : Fd} {c : ServiceCall}
      {k : c.Answer → ServiceProg AnnounceState} {r : c.Answer} {t : Service}
      (busy : s.announcer = .running (.announcing sock (.call c k)))
      (hexec : serviceExec .mdns oracle c s = some (r, t)) :
      ServiceMoved s (.announcer oracle stack)
        { t with announcer := .running (.announcing sock (k r)) }
  | device {e : Event} {d : State} (admitted : s.admits e = true)
      (hstep : step parse indexHtml s.device e = some d) :
      ServiceMoved s (.device e) { s with device := d, sockets := s.closed e }

theorem serviceStep_moved {s t : Service} {e : ServiceEvent}
    (hstep : serviceStep parse indexHtml host s e = some t) :
    ServiceMoved parse indexHtml host s e t := by
  cases e with
  | call =>
      simp only [serviceStep] at hstep
      split at hstep
      · next idle => cases hstep; exact .call idle
      · cases hstep
  | starter oracle =>
      simp only [serviceStep] at hstep
      split at hstep
      · cases hstep
      · next busy => cases hstep; exact .returned busy
      · next busy =>
          obtain ⟨⟨r, t⟩, hexec, rfl⟩ := Option.map_eq_some_iff.mp hstep
          exact .starterCall busy hexec
  | server oracle fuel =>
      simp only [serviceStep] at hstep
      split at hstep
      · cases hstep
      · cases hstep
      · next busy => cases hstep; exact .listens busy
      · next busy => cases hstep; exact .ends busy
      · next busy =>
          obtain ⟨⟨r, t⟩, hexec, rfl⟩ := Option.map_eq_some_iff.mp hstep
          exact .startingCall busy hexec
      · next busy => cases hstep; exact .again busy
      · next busy =>
          obtain ⟨d, accepted, rfl⟩ := Option.map_eq_some_iff.mp hstep
          exact .handle busy accepted
      · next busy =>
          obtain ⟨⟨r, t⟩, hexec, rfl⟩ := Option.map_eq_some_iff.mp hstep
          exact .acceptingCall busy hexec
      · next busy =>
          split at hstep
          · next idle => cases hstep; exact .handled busy idle
          · cases hstep
  | announcer oracle stack =>
      simp only [serviceStep] at hstep
      split at hstep
      · cases hstep
      · cases hstep
      · next busy => cases hstep; exact .waited busy
      · next busy => cases hstep; exact .waits busy
      · next busy =>
          obtain ⟨⟨r, t⟩, hexec, rfl⟩ := Option.map_eq_some_iff.mp hstep
          exact .waitingCall busy hexec
      · next busy => cases hstep; exact .noSocket busy
      · next busy => cases hstep; exact .announces busy
      · next busy =>
          obtain ⟨⟨r, t⟩, hexec, rfl⟩ := Option.map_eq_some_iff.mp hstep
          exact .openingCall busy hexec
      · next busy => cases hstep; exact .announced busy
      · next busy =>
          obtain ⟨⟨r, t⟩, hexec, rfl⟩ := Option.map_eq_some_iff.mp hstep
          exact .announcingCall busy hexec
  | device e =>
      simp only [serviceStep, Option.ite_none_right_eq_some] at hstep
      obtain ⟨d, moved, rfl⟩ := Option.map_eq_some_iff.mp hstep.2
      exact .device hstep.1 moved

end Machine

end PicoCan.Device
