import PicoCan.Http.Announce
import PicoCan.Http.Calls
import PicoCan.Usb.Board

/-!
# The threads of the service

`http_server_start`, `http_thread` around `handle_client`, and `mdns_announce_thread`. A
loop is given by its pass.
-/

namespace PicoCan.Http

open Calls

/-! ## The calls -/

/-- Who makes a call: the caller of `http_server_start`, or one of the two threads. -/
inductive ServiceThread
  | starter
  | http
  | mdns
deriving DecidableEq

inductive SockType
  | stream
  | dgram
deriving DecidableEq

/-- `enum net_addr_state`. -/
inductive NetAddrState
  | anyState
  | tentative
  | preferred
  | deprecated
deriving DecidableEq

/-- The part of `struct net_if_addr` that `get_link_local_addr` reads. -/
structure UnicastAddr extends Usb.NetIfAddr where
  addrState : NetAddrState
  address : Dns.Ipv4

/-- `net_if_get_config(net_if_get_default())` as far as it is read: the table of unicast
addresses, if there is an IPv4 configuration. -/
structure Ipv4Config where
  unicast : Option (List UnicastAddr)

/-- The calls of the service outside `handle_client`. A descriptor is an `int` here: -1
stands for no socket. -/
inductive ServiceCall
  | startedCas
  | threadStart (thread : ServiceThread)
  | serverFdGet
  | serverFdSet (fd : Int)
  | socket (type : SockType)
  | bind (fd : Int)
  | listen (fd : Int)
  | accept (fd : Int)
  | close (fd : Int)
  | setMulticastTtl (fd : Int)
  | sendto (fd : Int) (packet : Bytes)
  | netIfGetConfig
  | sleep (ms : Nat)

/-- What each call answers. A socket call that fails answers no descriptor, or false; no
interface is no configuration. -/
abbrev ServiceCall.Answer : ServiceCall → Type
  | .startedCas => Bool
  | .serverFdGet => Int
  | .socket _ | .accept _ => Option Fd
  | .bind _ | .listen _ | .sendto _ _ => Bool
  | .netIfGetConfig => Option Ipv4Config
  | .threadStart _ | .serverFdSet _ | .close _ | .setMulticastTtl _ | .sleep _ => Unit

/-- A function of the service. -/
abbrev ServiceProg := Prog ServiceCall.Answer

/-- Make one call. -/
abbrev request (c : ServiceCall) : ServiceProg c.Answer := Prog.perform c

/-! ## `http_server_start` -/

def httpServerStart : ServiceProg Int := do
  let claimed ← request .startedCas
  if ¬ claimed then
    return 0
  else
    request (.threadStart .http)
    request (.threadStart .mdns)
    return 0

/-! ## `http_thread` -/

/-- The descriptor, or -1. -/
def fdOr (fd : Option Fd) : Int :=
  match fd with
  | none => -1
  | some fd => fd

/-- `http_thread` up to its loop, and whether it gets there. -/
def httpThread : ServiceProg Bool := do
  let fd ← request (.socket .stream)
  request (.serverFdSet (fdOr fd))
  let serverFd ← request .serverFdGet
  if serverFd < 0 then
    return false
  else
    let bound ← request (.bind serverFd)
    if ¬ bound then
      request (.close serverFd)
      request (.serverFdSet (-1))
      return false
    else
      let listening ← request (.listen serverFd)
      if ¬ listening then
        request (.close serverFd)
        request (.serverFdSet (-1))
        return false
      else
        return true

/-- A pass of the loop of `http_thread`, up to `handle_client`: the connection to handle. -/
def acceptPass : ServiceProg (Option Fd) := do
  let serverFd ← request .serverFdGet
  match ← request (.accept serverFd) with
  | none =>
      request (.sleep 100)
      return none
  | some clientFd => return some clientFd

/-! ## `mdns_announce_thread` -/

/-- An address that is announced. -/
def UnicastAddr.announced (addr : UnicastAddr) : Bool :=
  addr.isUsed && addr.addrType == .autoconf && addr.addrState == .preferred

def getLinkLocalAddr : Option Ipv4Config → Option Dns.Ipv4
  | none | some ⟨none⟩ => none
  | some ⟨some unicast⟩ => (unicast.find? UnicastAddr.announced).map (·.address)

/-- A pass of the first loop of `mdns_announce_thread`: whether the loop is left. -/
def waitPass : ServiceProg Bool := do
  let serverFd ← request .serverFdGet
  if serverFd < 0 then
    request (.sleep 100)
    return false
  else
    return true

/-- Between its two loops: the socket, unless the thread ends. -/
def mdnsSocket : ServiceProg (Option Fd) := do
  match ← request (.socket .dgram) with
  | none => return none
  | some sock =>
      request (.setMulticastTtl sock)
      return some sock

def mdnsFastAnnounceCount : Nat := 20

/-- What lives through the passes: the buffer `packet` and the static `fast_announces`. -/
structure AnnounceState where
  packet : Cells
  fastAnnounces : Nat := 0

/-- A pass of the second loop. -/
def announcePass (host : Hostname) (sock : Fd) (state : AnnounceState) :
    ServiceProg AnnounceState := do
  let cfg ← request .netIfGetConfig
  match getLinkLocalAddr cfg with
  | some addr =>
      let (packet, len) := buildMdnsHttpAnnouncement host state.packet packetMax addr
      let _ ← request (.sendto sock (packet.slice 0 len))
      if state.fastAnnounces < mdnsFastAnnounceCount then
        request (.sleep 1000)
        return { packet, fastAnnounces := state.fastAnnounces + 1 }
      else
        request (.sleep 10000)
        return { state with packet }
  | none =>
      request (.sleep 250)
      return state

/-- What is sent does not depend on what the buffer held. -/
theorem announcement_sent (host : Hostname) (packet : Cells) (addr : Dns.Ipv4) :
    (buildMdnsHttpAnnouncement host packet packetMax addr).1.slice 0
        (buildMdnsHttpAnnouncement host packet packetMax addr).2 =
      Dns.encode (announcement host addr) := by
  obtain ⟨length, wrote⟩ := buildMdnsHttpAnnouncement_wrote host packet packetMax addr
  rw [length, wrote.slice]

end PicoCan.Http
