import PicoCan.Can.Bridge
import PicoCan.Http.Files

/-!
# The calls of `http_server.c`

Sockets, the file system, the CAN bridge, and the variables the HTTP thread and the
WebSocket thread share. A program of the bridge is embedded by `bridge`.
-/

namespace PicoCan.Http

open Calls
open PicoCan.Can (Errno CanCall CanProg)

def eConnReset : Int := 104

/-- A socket descriptor. -/
abbrev Fd : Type := Nat

def httpRequestMax : Nat := 1536
def httpSendChunk : Nat := 256
def userIndexMax : Nat := 524288
def wsMaxPayload : Nat := 256

/-- `struct websocket_client`; `pending` is the filled part of its array. -/
structure WebsocketClient where
  fd : Fd
  pending : Bytes
  pendingPos : Nat := 0

/-- The calls of `http_server.c`. `recv` stores behind the first `offset` bytes of the
caller's buffer. -/
inductive HttpCall
  | fs (c : FsCall)
  | can (c : CanCall)
  | recv (fd : Fd) (offset len : Nat)
  | send (fd : Fd) (data : Bytes)
  | poll (fd : Fd) (timeoutMs : Nat)
  | close (fd : Fd)
  | wsActiveCas
  | wsActiveClear
  | wsClientSet (client : WebsocketClient)
  | wsThreadCreate

/-- What each call answers. An error of a socket call stands for -1 and `errno`; an
empty chunk is the end of the stream. -/
abbrev HttpCall.Answer : HttpCall → Type
  | .fs c => c.Answer
  | .can c => c.Answer
  | .recv _ _ len => Except Errno (Chunk len)
  | .send _ data => Except Errno (Count data.length)
  | .poll _ _ => Except Errno Nat
  | .close _ => Int
  | .wsActiveCas => Bool
  | .wsActiveClear | .wsClientSet _ | .wsThreadCreate => Unit

/-- A function of `http_server.c` or `storage.c`. -/
abbrev HttpProg := Prog HttpCall.Answer

/-- Make one call. -/
abbrev perform (c : HttpCall) : HttpProg c.Answer := Prog.perform c

/-- Make one call of `storage.c`. -/
abbrev file (c : FsCall) : HttpProg c.Answer := perform (.fs c)

/-- Call a function of the bridge. -/
def bridge {α : Type} (p : CanProg α) : HttpProg α := p.lift .can fun _ r => r

end PicoCan.Http
