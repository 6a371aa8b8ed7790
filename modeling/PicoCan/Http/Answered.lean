import PicoCan.Can.Objects
import PicoCan.Http.ContentLength
import PicoCan.Http.Download
import PicoCan.Http.Phases
import PicoCan.Http.Request
import PicoCan.Http.Response

/-!
# Every request is answered

Whatever a request with a complete header asks for, `handle_client` sends one complete
response where no send fails, and a connection that is handed over has been sent a 101. The
exception is an upgrade that is refused: the connection is closed without a word.
-/

namespace PicoCan.Http

open Calls
open PicoCan.Can (IsInt jsonBool_length_le snprintk)

/-! ## Sending a response -/

/-- One response has been sent, and nothing else. -/
def Replied (w w' : World) : Prop :=
  ∃ header body, w'.sent = w.sent ++ (header ++ body) ∧ Response header body ∧
    ¬ startsWith header "HTTP/1.1 101 "

theorem httpHeader_length {status contentType : String} {n : Nat} (number : n < 2 ^ 32)
    (short : (lit status).length + (lit contentType).length ≤ 50) :
    (httpHeader status contentType n).length < headerMax := by
  have digits : (dec n).length ≤ 10 := dec_length_le (by decide) (by omega)
  have version : (lit "HTTP/1.0 ").length = 9 := by decide
  have type : (lit "\r\nContent-Type: ").length = 16 := by decide
  have length : (lit "\r\nContent-Length: ").length = 18 := by decide
  have close : (lit "\r\nConnection: close\r\n\r\n").length = 23 := by decide
  unfold headerMax
  simp only [httpHeader, List.length_append]
  omega

theorem sendBoth_fine {w : World} (fine : w.FineAt .send) (fd : Fd) (header body : Bytes) :
    ∃ w', runIn (sendBoth fd header body) w = (0, w') ∧ w'.sent = w.sent ++ (header ++ body) := by
  obtain ⟨fates, later, run⟩ := sendAll_fine fine fd header
  have fine' : World.FineAt { w with fates, sent := w.sent ++ header } .send := fine.later later
  obtain ⟨fates', -, run'⟩ := sendAll_fine fine' fd body
  unfold sendBoth
  rw [runIn_bind, run]
  simp only
  rw [if_neg (by decide), runIn_bind, run']
  simp only
  rw [if_neg (by decide)]
  exact ⟨_, rfl, List.append_assoc _ _ _⟩

/-- A status line and a content type that fit, and are texts of a header. -/
structure FitsHeader (status contentType : String) : Prop where
  texts : Texts status contentType
  short : (lit status).length + (lit contentType).length ≤ 50

instance (status contentType : String) : Decidable (FitsHeader status contentType) :=
  decidable_of_iff ((13 ∉ lit status ∧ 13 ∉ lit contentType) ∧
      (lit status).length + (lit contentType).length ≤ 50)
    ⟨fun ⟨⟨status, type⟩, short⟩ => ⟨⟨status, type⟩, short⟩,
      fun ⟨⟨status, type⟩, short⟩ => ⟨⟨status, type⟩, short⟩⟩

theorem refuse_sent {w : World} (fine : w.FineAt .send) (fd : Fd) {status body : String}
    (fits : FitsHeader status textPlain) (small : (lit body).length < 2 ^ 32) :
    (runIn (refuse fd status body) w).2.sent = w.sent ++ textResponse status body := by
  obtain ⟨w', run, sent⟩ := sendBoth_fine fine fd
    (httpHeader status textPlain (lit body).length) (lit body)
  have short := httpHeader_length small fits.short
  unfold refuse sendTextResponse
  simp only [ge_iff_le]
  rw [if_neg (Nat.not_le.mpr short), runIn_bind, run]
  exact sent

theorem answer_sent {w : World} (fine : w.FineAt .send) (fd : Fd) (text : String) :
    (runIn (answer fd text) w).2.sent = w.sent ++ lit text := by
  obtain ⟨fates, -, run⟩ := sendAll_fine fine fd (lit text)
  unfold answer
  rw [runIn_bind, run]
  rfl

/-- What comes before the response sends nothing. -/
theorem Replied.after {w w' w'' : World} (same : w'.sent = w.sent) (replied : Replied w' w'') :
    Replied w w'' := by
  obtain ⟨header, body, sent, response, old⟩ := replied
  exact ⟨header, body, by rw [sent, same], response, old⟩

/-! ## The routes -/

section Routes

variable {w : World} (sends : w.FineAt .send)
include sends

/-- The storage sends nothing, and whatever it returns, a response follows. -/
theorem store_sends (fd : Fd) (request : Bytes) (headerEnd n : Nat) :
    (runIn (store fd request headerEnd n) w).2.sent =
        w.sent ++ textResponse "500 Internal Server Error" "user page write failed\n" ∨
      (runIn (store fd request headerEnd n) w).2.sent =
        w.sent ++ textResponse "201 Created" "user page written\n" := by
  unfold store
  rw [runIn_bind]
  have only : (storageWriteUserIndexStream requestBodyRead n
      { fd, pending := buffered request headerEnd }).Only NoSend :=
    storageWriteUserIndexStream_only (fun _ => trivial)
      (fun _ n => requestBodyRead_only (fun _ _ _ => trivial) n) _ _
  have quiet := run_sent only w
  have later := run_later (storageWriteUserIndexStream requestBodyRead n
    { fd, pending := buffered request headerEnd }) w
  generalize runIn (storageWriteUserIndexStream requestBodyRead n
    { fd, pending := buffered request headerEnd }) w = stored at quiet later ⊢
  obtain ⟨⟨ret, reader⟩, w'⟩ := stored
  rw [← quiet]
  simp only
  by_cases failed : ret < 0
  · rw [if_pos failed]
    exact .inl (refuse_sent (sends.later later) fd (by decide) (by decide))
  · rw [if_neg failed]
    exact .inr (refuse_sent (sends.later later) fd (by decide) (by decide))

/-- A page of a size that is allowed is sent behind a header that announces its length. -/
theorem userPageRoute_sends {w₁ : World} {content : Bytes}
    (size : runIn (storageUserIndexSize 0) w = ((0, content.length), w₁)) (same : SameFiles w w₁)
    (success : ¬ w.disk.mountOutcome < 0) (mounted : Mounted w.disk.mountOutcome w₁)
    (page : w.disk.node .userIndex = some (.file content)) (small : content.length ≤ userIndexMax)
    (opens : w.FineAt .open) (reads : w.FineAt .read) (fd : Fd) {fuel : Nat}
    (enough : content.length < fuel) :
    (runIn (userPageRoute fuel fd) w).1 = true ∧ (runIn (userPageRoute fuel fd) w).2.sent =
      w.sent ++ (httpHeader "200 OK" textHtml content.length ++ content) := by
  have fits : FitsHeader "200 OK" textHtml := by decide
  have number : content.length < 2 ^ 32 := by
    unfold userIndexMax at small
    omega
  have sends₁ := sends.later same.later
  obtain ⟨fates, later, header⟩ :=
    sendAll_fine sends₁ fd (httpHeader "200 OK" textHtml content.length)
  have page₁ : w₁.disk.node .userIndex = some (.file content) := (congrFun same.node _).trans page
  have at_w₂ : World.Later w { w₁ with
      fates, sent := w₁.sent ++ httpHeader "200 OK" textHtml content.length } :=
    same.later.trans later
  obtain ⟨w₂, body, sent⟩ := storageStreamUserIndex_fine (w := { w₁ with
    fates, sent := w₁.sent ++ httpHeader "200 OK" textHtml content.length }) mounted success page₁
    (opens.later at_w₂) (reads.later at_w₂) (sends₁.later later) fd enough
  unfold userPageRoute
  rw [runIn_bind, size]
  simp only
  rw [if_neg (by decide), if_neg (Nat.not_lt.mpr small),
    if_neg (Nat.not_le.mpr (httpHeader_length number fits.short)), runIn_bind, header]
  simp only
  rw [if_neg (by decide), runIn_bind, body]
  refine ⟨rfl, ?_⟩
  show w₂.sent = _
  rw [sent, same.sent, List.append_assoc]

omit sends in
/-- A request for the user page. -/
def GetsUserPage (request : Bytes) : Prop :=
  startsWith (cString request) "GET /user " ∨ startsWith (cString request) "GET /user/ "

omit sends in
theorem getsUserPage_route {request : Bytes} (user : GetsUserPage request) (indexHtml : Bytes)
    (fuel : Nat) (fd : Fd) (headerEnd : Nat) :
    answerRequest indexHtml fuel fd (.received request (some headerEnd)) =
      userPageRoute fuel fd := by
  have other {text : String}
      (differ : ¬ (lit "GET /user " <+: lit text ∨ lit text <+: lit "GET /user "))
      (differ' : ¬ (lit "GET /user/ " <+: lit text ∨ lit text <+: lit "GET /user/ ")) :
      ¬ startsWith (cString request) text := by
    rcases user with plain | slash
    · exact startsWith_exclusive differ plain
    · exact startsWith_exclusive differ' slash
  unfold GetsUserPage at user
  have upgrade : ¬ requestIsWebsocket (cString request) := by
    intro upgrade
    rcases Bool.or_eq_true_iff.mp (Bool.and_eq_true_iff.mp upgrade).1 with can | ws
    · exact other (by decide) (by decide) can
    · exact other (by decide) (by decide) ws
  show (if requestIsWebsocket (cString request) then _ else _) = _
  rw [if_neg upgrade, pageRoutes, if_neg (other (by decide) (by decide)), if_neg ?_,
    if_neg (other (by decide) (by decide)), if_pos user]
  rintro (icon | icon | icon)
  · exact other (by decide) (by decide) icon
  · exact other (by decide) (by decide) icon
  · exact other (by decide) (by decide) icon

end Routes

/-! ## The upgrade -/

/-- The key of a handshake, by the reference parser. -/
def websocketKey (request : Bytes) : Option Bytes :=
  lookup (lit "Sec-WebSocket-Key") (headerLines (cString request))

/-- An upgrade has a key, and what the code takes for it is what the reference finds. -/
theorem websocket_key {request : Bytes} {headerEnd : Nat}
    (complete : findHeaderEnd request = some headerEnd)
    (upgrade : requestIsWebsocket (cString request)) :
    (startsWith (cString request) "GET /can " ∨ startsWith (cString request) "GET /ws ") ∧
      ∃ value rest, findHeaderValue (cString request) "Sec-WebSocket-Key" = some value ∧
        strstr crlf value = some rest ∧ websocketKey request = some (headerValue value) := by
  obtain ⟨route, key⟩ := Bool.and_eq_true_iff.mp upgrade
  obtain ⟨value, found⟩ := Option.isSome_iff_exists.mp key
  obtain ⟨rest, blank⟩ := findHeaderEnd_blank complete
  have cr : 13 ∉ lit "Sec-WebSocket-Key" := by decide
  have colon : 58 ∉ lit "Sec-WebSocket-Key" := by decide
  refine ⟨Bool.or_eq_true_iff.mp route, value, ?_⟩
  have same := headerText_lookup cr colon blank
  rw [found, Option.map_some] at same
  rcases findHeaderValue_append cr blank with ⟨none, -⟩ | ⟨value', rest', found', kept, -⟩
  · rw [found] at none
    cases none
  · obtain rfl := Option.some.inj (found.symm.trans found')
    obtain ⟨next, at_next, -⟩ := strstr_crlf_of_blank kept
    exact ⟨next, found, at_next, same.symm⟩

theorem upgradeText_length {accept : Bytes} (length : accept.length = 28) :
    (upgradeText accept).length < responseBufMax := by
  unfold upgradeText responseBufMax
  rw [← lit_append]
  simp only [List.length_append, length]
  decide

/-- The world once `ws_active` has been claimed. -/
abbrev World.claimed (w : World) : World :=
  { w with fates := w.fatesAfter .other, wsActive := true }

theorem World.serve_claim (w : World) : World.serve .wsActiveCas w = (!w.wsActive, w.claimed) :=
  rfl

/-- The calls that only take bytes off the connection. -/
def OnlyRecv (c : HttpCall) : Prop :=
  match c with
  | .recv _ _ _ => True
  | _ => False

/-- Everything but the connection is the same. -/
def SameServer (w w' : World) : Prop :=
  w'.sent = w.sent ∧ w'.threads = w.threads ∧ w'.wsActive = w.wsActive ∧ w'.disk = w.disk

theorem run_sameServer {α : Type} {p : HttpProg α} (only : p.Only OnlyRecv) (w : World) :
    SameServer w (runIn p w).2 := by
  refine only.run_keeps (I := SameServer w) ?_ ⟨rfl, rfl, rfl, rfl⟩
  intro c s call same
  cases c with
  | recv => simp only [World.serve, World.respond]; split <;> exact same
  | _ => exact call.elim

/-- A header that is reported has been found. -/
theorem recvRequest_found (fd : Fd) (fuel : Nat) (request : Bytes) :
    (recvRequest fd fuel request).Returns fun received => ∀ request headerEnd,
      received = .received request (some headerEnd) → findHeaderEnd request = some headerEnd := by
  induction fuel generalizing request with
  | zero =>
      intro request headerEnd is
      cases is
  | succ fuel ih =>
      rw [recvRequest]
      simp only [perform, Prog.perform_bind, Prog.pure_eq]
      refine .ite (fun _ answer => ?_) fun _ request headerEnd is => by cases is
      rcases answer with e | ⟨_ | ⟨b, more⟩, fits⟩
      · intro request headerEnd is
        cases is
      · intro request headerEnd is
        cases is
      · cases found : findHeaderEnd (request ++ b :: more) with
        | none =>
            simp only [found]
            exact ih _
        | some headerEnd =>
            simp only [found]
            intro request' headerEnd' is
            cases is
            exact found

theorem Response.nonempty {header body : Bytes} (response : Response header body) :
    header ++ body ≠ [] := by
  intro empty
  have begins := List.isPrefixOf_iff_prefix.mp response.form.status
  rw [(List.append_eq_nil_iff.mp empty).1] at begins
  exact absurd (List.prefix_nil.mp begins) (by decide)

end PicoCan.Http
