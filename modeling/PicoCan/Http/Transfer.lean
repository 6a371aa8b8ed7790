import PicoCan.Http.Calls

/-!
# Moving bytes over a connection

`send_all` and the callbacks `handle_client` gives to the storage.
-/

namespace PicoCan.Http

open Calls
open PicoCan.Can (eInval eIo eNoMem)

/-- The loop of `send_all`. A round that goes on sends at least one byte, so the data's
length is enough fuel. -/
def sendLoop (fd : Fd) : (fuel : Nat) → Bytes → HttpProg Int
  | 0, _ => return 0
  | fuel + 1, data =>
      if data = [] then
        return 0
      else do
        match ← perform (.send fd (data.take httpSendChunk)) with
        | .error e => return e.ret
        | .ok sent =>
          if sent.val = 0 then
            return -eConnReset
          else
            sendLoop fd fuel (data.drop sent.val)

def sendAll (fd : Fd) (data : Bytes) : HttpProg Int := sendLoop fd data.length data

/-- A response header with a length. -/
def httpHeader (status contentType : String) (bodyLen : Nat) : Bytes :=
  lit "HTTP/1.0 " ++ lit status ++ lit "\r\nContent-Type: " ++ lit contentType ++
    lit "\r\nContent-Length: " ++ dec bodyLen ++ lit "\r\nConnection: close\r\n\r\n"

def headerMax : Nat := 128

/-- Send a header, and a body if that went well: zero, or `-EIO`. -/
def sendBoth (fd : Fd) (header body : Bytes) : HttpProg Int := do
  let ret ← sendAll fd header
  if ret < 0 then
    return -eIo
  else
    let ret ← sendAll fd body
    if ret < 0 then
      return -eIo
    else
      return 0

def sendTextResponse (fd : Fd) (status contentType : String) (body : Bytes) :
    HttpProg Int := do
  let header := httpHeader status contentType body.length
  if header.length ≥ headerMax then
    return -eNoMem
  else
    sendBoth fd header body

/-- `struct request_body_reader`; `pending` is the buffered part of the body. -/
structure RequestBodyReader where
  fd : Fd
  pending : Bytes
  pendingPos : Nat := 0

/-- Return value, the bytes in the buffer, and the reader afterwards. -/
def requestBodyRead (reader : RequestBodyReader) (maxLen : Nat) :
    HttpProg ((Int × Bytes) × RequestBodyReader) := do
  if maxLen = 0 then
    return ((-eInval, []), reader)
  else
    let copied := (reader.pending.drop reader.pendingPos).take maxLen
    if copied.length > 0 then
      return ((0, copied), { reader with pendingPos := reader.pendingPos + copied.length })
    else
      match ← perform (.recv reader.fd 0 maxLen) with
      | .error e => return ((e.ret, []), reader)
      | .ok ⟨[], _⟩ => return ((-eConnReset, []), reader)
      | .ok buf => return ((0, buf.val), reader)

def socketWrite (fd : Fd) (buf : Bytes) : HttpProg Int := sendAll fd buf

end PicoCan.Http
