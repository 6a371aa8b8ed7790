import PicoCan.Http.Storage
import PicoCan.Http.WebSocket

/-!
# `handle_client`

One accepted connection of the HTTP thread: receive the request header, then answer by
route. The routes are definitions of their own, in the order in which the source tests
them.
-/

namespace PicoCan.Http

open Calls

/-- How the header loop ends: the connection failed or was closed, or what has been
received and where its header ends. -/
inductive Request
  | gone
  | received (request : Bytes) (headerEnd : Option Nat)

/-- Where the first blank line of a request begins. -/
def findHeaderEnd (request : Bytes) : Option Nat :=
  let text := cString request
  (strstr (lit "\r\n\r\n") text).map fun rest => text.length - rest.length

/-- The first loop of `handle_client`. A round that goes on receives at least one byte,
so the room left in the buffer is enough fuel. -/
def recvRequest (clientFd : Fd) : (fuel : Nat) → (request : Bytes) → HttpProg Request
  | 0, request => return .received request none
  | fuel + 1, request =>
      if request.length < httpRequestMax - 1 then do
        match ← perform (.recv clientFd request.length (httpRequestMax - 1 - request.length)) with
        | .error _ => return .gone
        | .ok ⟨[], _⟩ => return .gone
        | .ok chunk =>
          let request := request ++ chunk.val
          match findHeaderEnd request with
          | some headerEnd => return .received request (some headerEnd)
          | none => recvRequest clientFd fuel request
      else
        return .received request none

def textPlain : String := "text/plain; charset=utf-8"

/-- `send_text_response` and `zsock_close`. -/
@[irreducible] def refuse (clientFd : Fd) (status : String) (body : String) : HttpProg Unit := do
  let _ ← sendTextResponse clientFd status textPlain (lit body)
  let _ ← perform (.close clientFd)

/-- `send_all` of a fixed text and `zsock_close`. -/
@[irreducible] def answer (clientFd : Fd) (text : String) : HttpProg Unit := do
  let _ ← sendAll clientFd (lit text)
  let _ ← perform (.close clientFd)

def requestTooLarge : String :=
  "HTTP/1.0 431 Request Header Fields Too Large\r\nConnection: close\r\n\r\n"

/-! ## The upgrade -/

def upgradeRoute (clientFd : Fd) (request : Bytes) (headerEnd : Nat) : HttpProg Unit := do
  let ret ← handleWebsocket clientFd (cString request) (request.drop (headerEnd + 4))
  if ret < 0 then
    let _ ← perform (.close clientFd)

/-! ## The upload -/

/-- The digits of a `Content-Length`, in the 32-bit arithmetic of `size_t`; nothing at
another character. -/
def parseLength : UInt32 → Bytes → Option UInt32
  | bodyLen, [] => some bodyLen
  | bodyLen, c :: rest =>
      if c < 48 ∨ c > 57 then none
      else parseLength (bodyLen * 10 + (c - 48).toUInt32) rest

def uploadRoute (clientFd : Fd) (request : Bytes) (headerEnd : Nat) : HttpProg Unit := do
  match findHeaderValue (cString request) "Content-Length" with
  | none => refuse clientFd "411 Length Required" "content-length required\n"
  | some contentLength =>
    match parseLength 0 (headerValue contentLength) with
    | none => refuse clientFd "400 Bad Request" "invalid content-length\n"
    | some bodyLen =>
      let pending := request.drop (headerEnd + 4)
      if bodyLen.toNat > userIndexMax then
        refuse clientFd "413 Payload Too Large" "user page too large\n"
      else if pending.length > bodyLen.toNat then
        refuse clientFd "400 Bad Request" "body larger than content-length\n"
      else
        let (ret, _) ← storageWriteUserIndexStream requestBodyRead bodyLen.toNat
          { fd := clientFd, pending }
        if ret < 0 then
          refuse clientFd "500 Internal Server Error" "user page write failed\n"
        else
          refuse clientFd "201 Created" "user page written\n"

/-! ## The pages -/

def noContent : String := "HTTP/1.0 204 No Content\r\nConnection: close\r\n\r\n"

def statusBodyMax : Nat := 192

def statusRoute (clientFd : Fd) : HttpProg Unit := do
  -- the buffer is not initialised
  let body ← storageFormatStatusJson [] statusBodyMax
  if body.1 < 0 ∨ body.1 ≥ statusBodyMax then
    let _ ← perform (.close clientFd)
  else
    let header := httpHeader "200 OK" "application/json" body.1.toNat
    if header.length ≥ headerMax then
      let _ ← perform (.close clientFd)
    else
      let _ ← sendBoth clientFd header body.2
      let _ ← perform (.close clientFd)

def userPageNotFound : String :=
  "HTTP/1.0 404 Not Found\r\nContent-Type: text/plain; charset=utf-8\r\n" ++
    "Content-Length: 20\r\nConnection: close\r\n\r\nuser page not found\n"

def textHtml : String := "text/html; charset=utf-8"

/-- Whether the route is done: its copy loop is given `fuel` rounds. -/
def userPageRoute (fuel : Nat) (clientFd : Fd) : HttpProg Bool := do
  let (ret, bodyLen) ← storageUserIndexSize 0
  if ret < 0 then
    answer clientFd userPageNotFound
    return true
  else if bodyLen > userIndexMax then
    refuse clientFd "413 Payload Too Large" "user page too large\n"
    return true
  else
    let header := httpHeader "200 OK" textHtml bodyLen
    if header.length ≥ headerMax then
      let _ ← perform (.close clientFd)
      return true
    else
      let ret ← sendAll clientFd header
      if ret < 0 then
        let _ ← perform (.close clientFd)
        return true
      else
        match ← storageStreamUserIndex fuel (socketWrite clientFd) with
        | none => return false
        | some _ =>
          let _ ← perform (.close clientFd)
          return true

def notFound : String :=
  "HTTP/1.0 404 Not Found\r\nContent-Type: text/plain; charset=utf-8\r\n" ++
    "Content-Length: 10\r\nConnection: close\r\n\r\nnot found\n"

def indexRoute (indexHtml : Bytes) (clientFd : Fd) : HttpProg Unit := do
  let header := httpHeader "200 OK" textHtml indexHtml.length
  if header.length ≥ headerMax then
    let _ ← perform (.close clientFd)
  else
    let _ ← sendBoth clientFd header indexHtml
    let _ ← perform (.close clientFd)

/-! ## The dispatch -/

/-- The routes of a request that is no upgrade. -/
def pageRoutes (indexHtml : Bytes) (fuel : Nat) (clientFd : Fd) (text request : Bytes)
    (headerEnd : Nat) : HttpProg Bool := do
  if startsWith text "PUT /user/index.html " then
    uploadRoute clientFd request headerEnd
    return true
  else if startsWith text "GET /favicon.ico " ∨ startsWith text "GET /apple-touch-icon.png " ∨
      startsWith text "GET /apple-touch-icon-precomposed.png " then
    answer clientFd noContent
    return true
  else if startsWith text "GET /fs/status " then
    statusRoute clientFd
    return true
  else if startsWith text "GET /user " ∨ startsWith text "GET /user/ " then
    userPageRoute fuel clientFd
  else if ¬ startsWith text "GET / " ∧ ¬ startsWith text "GET /index.html " then
    answer clientFd notFound
    return true
  else
    indexRoute indexHtml clientFd
    return true

/-- Whether the connection is done: the copy loop of the user page is given `fuel`
rounds. `indexHtml` is the built-in page. -/
def handleClient (indexHtml : Bytes) (fuel : Nat) (clientFd : Fd) : HttpProg Bool := do
  match ← recvRequest clientFd (httpRequestMax - 1) [] with
  | .gone =>
    let _ ← perform (.close clientFd)
    return true
  | .received _ none =>
    answer clientFd requestTooLarge
    return true
  | .received request (some headerEnd) =>
    if requestIsWebsocket (cString request) then
      upgradeRoute clientFd request headerEnd
      return true
    else
      pageRoutes indexHtml fuel clientFd (cString request) request headerEnd

end PicoCan.Http
