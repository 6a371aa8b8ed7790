import PicoCan.Http.Footprint

/-!
# One thread alone

The surroundings of a single thread of the server: the connection with the bytes the
client has sent, the disk, the variables shared with the session thread, and what the
environment decides about each call (`Fate`). Calls of one kind take their fates from a
list of their own, one after another; when it is used up they succeed in full and
nothing happens on the bus.
-/

namespace PicoCan.Http

open Calls
open PicoCan.Can (Errno CanCall)

/-- The kinds of calls the environment decides about. -/
inductive Kind
  | statvfs | stat | mkdir | open | read | write | sync | recv | send | poll | can | other
deriving DecidableEq

def FsCall.kind : FsCall → Kind
  | .fsStatvfs _ => .statvfs
  | .fsStat _ => .stat
  | .fsMkdir _ => .mkdir
  | .fsOpen _ _ => .open
  | .fsRead _ => .read
  | .fsWrite _ => .write
  | .fsSync => .sync
  | _ => .other

def HttpCall.kind : HttpCall → Kind
  | .fs c => c.kind
  | .can _ => .can
  | .recv _ _ _ => .recv
  | .send _ _ => .send
  | .poll _ _ => .poll
  | _ => .other

/-- The answers of a bridge to which nothing happens. -/
def quiet : (c : CanCall) → c.Answer
  | .deviceIsReady | .canReadyGet | .rxStreamingGet => true
  | .canSetMode _ | .canSetBitrate _ | .canStart _ | .canStop | .canAddRxFilter _
  | .canSendWait | .txPut _ | .rxPut _ => (0 : Int)
  | .canGetState => ⟨0, .errorActive, 0, 0⟩
  | .canSendSubmit _ _ => (some 0 : Option Int)
  | .currentModeGet => (0 : UInt32)
  | .currentBitrateGet => (0 : UInt32)
  | .txGet => ({} : Can.CanFrame)
  | .rxGet => (none : Option Can.CanFrame)
  | .numUsedGet _ | .numFreeGet _ => (0 : Nat)
  | .uptimeUs => (0 : UInt64)
  | .readPast _ => (0 : UInt8)
  | .jsonObjParse _ => .error Can.errnoInval
  | .mutexLock | .mutexUnlock | .canReadySet _ | .currentModeSet _ | .currentBitrateSet _
  | .rxPurge | .rxStreamingSet _ | .txThreadCreate => ()

/-- What the environment decides about one call: how it goes, whether a poll times out,
and the answer of the bridge. -/
structure Fate extends Luck where
  timeout : Bool := false
  can : (c : CanCall) → c.Answer := quiet

/-- The surroundings of a thread. `inbound` is what the client has sent and nobody has
received yet; once it is used up, `recv` reports the end of the stream or the error
`ending`. `threads` counts the session threads created. -/
structure World where
  fates : Kind → List Fate := fun _ => []
  inbound : Bytes := []
  ending : Option Errno := none
  sent : Bytes := []
  disk : Disk
  wsActive : Bool := false
  wsClient : WebsocketClient := { fd := 0, pending := [] }
  threads : Nat := 0

namespace World

/-- The fate of the next call of a kind. -/
def fate (w : World) (kind : Kind) : Fate := (w.fates kind).headD {}

/-- The fates left after a call of a kind. -/
def fatesAfter (w : World) (kind : Kind) : Kind → List Fate :=
  fun k => if k = kind then (w.fates k).tail else w.fates k

/-- What a call does in the world, given its fate. -/
def respond (fate : Fate) : (c : HttpCall) → World → c.Answer × World
  | .fs c, w => ((w.disk.serve fate.toLuck c).1, { w with disk := (w.disk.serve fate.toLuck c).2 })
  | .can c, w => (fate.can c, w)
  | .recv _ _ len, w =>
      match fate.fail, w.inbound, w.ending with
      | some e, _, _ => (.error e, w)
      | none, [], some e => (.error e, w)
      | none, inbound, _ =>
          (.ok ⟨inbound.take (fate.upTo len),
              Nat.le_trans (List.length_take_le _ _) (fate.upTo_le len)⟩,
            { w with inbound := inbound.drop (fate.upTo len) })
  | .send _ data, w =>
      match fate.fail with
      | some e => (.error e, w)
      | none => (.ok ⟨fate.upTo data.length, fate.upTo_le _⟩,
          { w with sent := w.sent ++ data.take (fate.upTo data.length) })
  | .poll _ _, w =>
      match fate.fail with
      | some e => (.error e, w)
      | none => (.ok (if fate.timeout then 0 else 1), w)
  | .close _, w => ((0 : Int), w)
  | .wsActiveCas, w => (!w.wsActive, { w with wsActive := true })
  | .wsActiveClear, w => ((), { w with wsActive := false })
  | .wsClientSet client, w => ((), { w with wsClient := client })
  | .wsThreadCreate, w => ((), { w with threads := w.threads + 1 })

/-- One call. -/
def serve (c : HttpCall) (w : World) : c.Answer × World :=
  respond (w.fate c.kind) c { w with fates := w.fatesAfter c.kind }

end World

/-- Run a program in a world. -/
abbrev runIn {α : Type} (p : HttpProg α) (w : World) : α × World := p.run World.serve w

theorem runIn_bind {α β : Type} (p : HttpProg α) (f : α → HttpProg β) (w : World) :
    runIn (p >>= f) w = runIn (f (runIn p w).1) (runIn p w).2 := Prog.run_bind _ _ _ _

theorem meets_bind {α β : Type} {ok : HttpCall → World → Prop} {p : HttpProg α}
    {f : α → HttpProg β} {w : World} : (p >>= f).Meets World.serve ok w ↔
      p.Meets World.serve ok w ∧ (f (runIn p w).1).Meets World.serve ok (runIn p w).2 :=
  Prog.meets_bind

/-- A disk with nothing on it. -/
def Disk.blank : Disk := { node := fun _ => none }

/-- A request for an upgrade. -/
def upgradeRequest : Bytes :=
  lit "GET /ws HTTP/1.1\r\nSec-WebSocket-Key: dGhlIHNhbXBsZSBub25jZQ==\r\n\r\n"

end PicoCan.Http
