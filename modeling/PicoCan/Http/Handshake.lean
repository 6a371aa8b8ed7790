import PicoCan.Http.Answered
import PicoCan.Http.Digest
import PicoCan.Http.Exchange

/-!
# The handshake as a whole

A connection becomes a session exactly if it asks for an upgrade with a usable key while no
session is active and the response goes out. What it is answered carries the value the
standard asks for: the Base64 text of the SHA-1 digest of the key and the GUID.
-/

namespace PicoCan.Http

open Calls

/-- The value of `Sec-WebSocket-Accept` for a key. -/
def acceptKey (key : Bytes) : Bytes := Base64.encode (Sha1.digest (key ++ wsGuid))

theorem digest_length (message : Bytes) : (Sha1.digest message).length = 20 := by
  simp [Sha1.digest, Sha1.Hash.bytes, Sha1.bigEndian]

theorem sha1_two {first rest : Bytes} (short : first.length < 2 ^ 29)
    (short' : rest.length < 2 ^ 29) :
    sha1Final (sha1Update (sha1Update sha1Init first) rest) = Sha1.digest (first ++ rest) := by
  have absorbed := (Absorbed.init.update short).update short'
  rw [List.nil_append] at absorbed
  exact absorbed.digest.2

theorem buildWebsocketAccept_exact {request value rest : Bytes}
    (found : findHeaderValue request "Sec-WebSocket-Key" = some value)
    (ends : strstr crlf value = some rest) (some : (headerValue value).length ≠ 0)
    (short : (headerValue value).length ≤ 64) :
    buildWebsocketAccept request acceptMax = .ok (acceptKey (headerValue value)) := by
  rw [headerValue_length ends] at some short
  have good : ¬ (headerValueLen value = 0 ∨ headerValueLen value > 64) := by omega
  have keyLen : (headerValue value).length < 2 ^ 29 := by
    rw [headerValue_length ends]
    omega
  have guidLen : wsGuid.length < 2 ^ 29 := by decide
  have room : base64Length (Sha1.digest (headerValue value ++ wsGuid)).length < acceptMax := by
    rw [digest_length]
    decide
  rw [buildWebsocketAccept, found]
  simp only
  rw [if_neg good]
  show base64EncodeSmall (sha1Final (sha1Update (sha1Update sha1Init (headerValue value)) wsGuid))
    acceptMax = _
  rw [sha1_two keyLen guidLen, base64EncodeSmall_eq _ (by decide), if_pos room]
  rfl

/-! ## The session variables -/

/-- The calls that do not touch what a session is made of. -/
def NoSession (c : HttpCall) : Prop :=
  match c with
  | .wsActiveCas | .wsActiveClear | .wsClientSet _ | .wsThreadCreate => False
  | _ => True

structure SameSession (w w' : World) : Prop where
  threads : w'.threads = w.threads
  active : w'.wsActive = w.wsActive
  client : w'.wsClient = w.wsClient

theorem SameSession.refl (w : World) : SameSession w w := ⟨rfl, rfl, rfl⟩

theorem SameSession.trans {w w' w'' : World} (first : SameSession w w')
    (rest : SameSession w' w'') : SameSession w w'' :=
  ⟨rest.threads.trans first.threads, rest.active.trans first.active,
    rest.client.trans first.client⟩

theorem run_sameSession {α : Type} {p : HttpProg α} (only : p.Only NoSession) (w : World) :
    SameSession w (runIn p w).2 := by
  refine only.run_keeps (I := SameSession w) ?_ (.refl w)
  intro c s call same
  cases c with
  | wsActiveCas | wsActiveClear | wsClientSet | wsThreadCreate => exact call.elim
  | recv | send | poll =>
      simp only [World.serve, World.respond]
      split <;> exact ⟨same.threads, same.active, same.client⟩
  | _ => exact ⟨same.threads, same.active, same.client⟩

/-! ## The upgrade -/

/-- The request asks for a session that can be had, with `key`. -/
structure Upgrade (w : World) (request key : Bytes) : Prop where
  route : startsWith (cString request) "GET /can " ∨ startsWith (cString request) "GET /ws "
  names : websocketKey request = some key
  nonempty : key.length ≠ 0
  short : key.length ≤ 64
  free : w.wsActive = false

/-- The connection on `fd` has become a session. -/
structure HandedOver (w : World) (fd : Fd) (pending key : Bytes) (w' : World) : Prop where
  sent : w'.sent = w.sent ++ upgradeText (acceptKey key)
  threads : w'.threads = w.threads + 1
  active : w'.wsActive = true
  client : w'.wsClient = { fd, pending }

/-- The end of `handle_websocket`, behind the response. -/
theorem handOver_done (w : World) (client : WebsocketClient) :
    ∃ w', runIn (do
        perform (.wsClientSet client)
        bridge (Can.canBridgeSetRxStreaming true)
        perform .wsThreadCreate
        return (0 : Int)) w = (0, w') ∧ w'.sent = w.sent ∧ w'.threads = w.threads + 1 ∧
      w'.wsActive = w.wsActive ∧ w'.wsClient = client := by
  have quiet : (bridge (Can.canBridgeSetRxStreaming true)).Only NoSend :=
    bridge_only (Q := fun _ => True) (Prog.only_true _) fun _ _ => trivial
  have apart : (bridge (Can.canBridgeSetRxStreaming true)).Only NoSession :=
    bridge_only (Q := fun _ => True) (Prog.only_true _) fun _ _ => trivial
  simp only [perform, Prog.perform_bind, Prog.run_call]
  have sent := run_sent quiet (World.serve (.wsClientSet client) w).2
  have same := run_sameSession apart (World.serve (.wsClientSet client) w).2
  rw [Prog.run_bind]
  unfold runIn at sent same
  exact ⟨_, rfl, sent, congrArg (· + 1) same.threads, same.active, same.client⟩

/-- Whatever fails, the connection is handed over as the standard asks for, or the session
variables are as before. -/
theorem handleWebsocket_shakes (w : World) (fd : Fd) {request value rest : Bytes}
    (found : findHeaderValue request "Sec-WebSocket-Key" = some value)
    (ends : strstr crlf value = some rest) (pending : Bytes) :
    ∃ ret w', runIn (handleWebsocket fd request pending) w = (ret, w') ∧
      ((ret = 0 ∧ w.wsActive = false ∧ (headerValue value).length ≠ 0 ∧
          (headerValue value).length ≤ 64 ∧
          HandedOver w fd (pending.take httpRequestMax) (headerValue value) w') ∨
        (ret < 0 ∧ SameSession w w' ∧ (w.FineAt .send → w.wsActive = false →
          (headerValue value).length ≠ 0 → ¬ (headerValue value).length ≤ 64))) := by
  unfold handleWebsocket
  simp only [perform, Prog.perform_bind, Prog.run_call]
  rw [World.serve_claim]
  cases active : w.wsActive with
  | true => exact ⟨_, _, rfl, .inr ⟨by decide, ⟨rfl, active.symm, rfl⟩, fun _ free =>
      absurd free.symm Bool.false_ne_true⟩⟩
  | false =>
      by_cases good : (headerValue value).length ≠ 0 ∧ (headerValue value).length ≤ 64
      case neg =>
        rcases buildWebsocketAccept_key found ends with ⟨-, failed⟩ | ⟨usable, -⟩
        · rw [failed]
          exact ⟨_, _, rfl, .inr ⟨by decide, ⟨rfl, active.symm, rfl⟩,
            fun _ _ some short => good ⟨some, short⟩⟩⟩
        · exact absurd ⟨fun none => usable (.inl none), by omega⟩ good
      obtain ⟨some, few⟩ := good
      have built := buildWebsocketAccept_exact found ends some few
      have length : (acceptKey (headerValue value)).length = 28 := by
        rw [acceptKey, Base64.encode_length, digest_length]
      have short := Nat.not_le.mpr (upgradeText_length length)
      rw [built]
      simp only [Bool.not_false, not_true, if_false, ge_iff_le, if_neg short]
      rw [Prog.run_bind]
      have puts := sendAll_puts fd (upgradeText (acceptKey (headerValue value))) w.claimed
      have same := run_sameSession (p := sendAll fd (upgradeText (acceptKey (headerValue value))))
        (sendAll_only (fun _ => trivial) _) w.claimed
      have fine := fun sends : w.FineAt .send => sendAll_fine
        (show w.claimed.FineAt .send from sends.later (World.fatesAfter_suffix w .other)) fd
        (upgradeText (acceptKey (headerValue value)))
      unfold runIn at puts same fine
      generalize Prog.run World.serve (sendAll fd (upgradeText (acceptKey (headerValue value))))
        w.claimed = response at puts same fine ⊢
      obtain ⟨put, sent, -, whole⟩ := puts
      by_cases failed : response.1 < 0
      · rw [if_pos failed]
        refine ⟨_, _, rfl, .inr ⟨failed, ⟨same.threads, active.symm, same.client⟩, ?_⟩⟩
        intro sends
        obtain ⟨fates, -, run⟩ := fine sends
        rw [run] at failed
        exact absurd failed (Int.lt_irrefl 0)
      · rw [if_neg failed]
        obtain ⟨w', done, quiet, threads, kept, client⟩ :=
          handOver_done response.2 { fd, pending := pending.take httpRequestMax }
        refine ⟨0, w', done, .inl ⟨rfl, trivial, some, few, ?_, ?_, ?_, client⟩⟩
        · rw [quiet, sent, whole (Int.not_lt.mp failed)]
        · exact threads.trans (congrArg (· + 1) same.threads)
        · exact kept.trans same.active

/-! ## The connection -/

/-- Whatever the environment does, a connection with a complete header is handed over with the
standard's answer to its key, or the session variables are as before; and where no send fails
it is handed over exactly if it asks for a session that can be had. -/
theorem handshake_exact {w : World} (fd : Fd) {request : Bytes} {headerEnd : Nat}
    (received : (runIn (recvRequest fd (httpRequestMax - 1) []) w).1 =
      .received request (some headerEnd)) (indexHtml : Bytes) (fuel : Nat) :
    (∃ key, Upgrade w request key ∧
      HandedOver w fd ((request.drop (headerEnd + 4)).take httpRequestMax) key
        (runIn (handleClient indexHtml fuel fd) w).2) ∨
    (SameSession w (runIn (handleClient indexHtml fuel fd) w).2 ∧
      (w.FineAt .send → ∀ key, ¬ Upgrade w request key)) := by
  have complete := (recvRequest_found fd (httpRequestMax - 1) []).run World.serve w _ _ received
  have same : SameServer w (runIn (recvRequest fd (httpRequestMax - 1) []) w).2 :=
    run_sameServer (recvRequest_only (fun _ _ _ => trivial) _ _) w
  have session : SameSession w (runIn (recvRequest fd (httpRequestMax - 1) []) w).2 :=
    run_sameSession (recvRequest_only (fun _ _ _ => trivial) _ _) w
  have later := run_later (recvRequest fd (httpRequestMax - 1) []) w
  rw [handleClient_eq, runIn_bind, received]
  generalize (runIn (recvRequest fd (httpRequestMax - 1) []) w).2 = w₁ at same session later ⊢
  simp only [answerRequest]
  by_cases upgrade : requestIsWebsocket (cString request)
  · obtain ⟨route, value, rest, found, ends, key⟩ := websocket_key complete upgrade
    rw [if_pos upgrade, runIn_bind]
    unfold upgradeRoute
    rw [runIn_bind]
    obtain ⟨ret, w', run, outcome⟩ := handleWebsocket_shakes w₁ fd found ends
      (request.drop (headerEnd + 4))
    rw [run]
    rcases outcome with ⟨rfl, free, some, few, done⟩ | ⟨failed, kept, refused⟩
    · simp only
      rw [if_neg (by decide)]
      refine .inl ⟨headerValue value, ⟨route, key, some, few, session.active ▸ free⟩, ?_⟩
      exact ⟨done.sent.trans (congrArg (· ++ _) same.1),
        done.threads.trans (congrArg (· + 1) session.threads), done.active, done.client⟩
    · simp only
      rw [if_pos failed]
      have closed := run_sameSession (p := perform (.close fd) >>= fun _ => .ret ())
        ⟨trivial, fun _ => trivial⟩ w'
      refine .inr ⟨session.trans (kept.trans closed), fun sends key' wants => ?_⟩
      obtain rfl := Option.some.inj (key.symm.trans wants.names)
      exact refused (sends.later later) (session.active.trans wants.free) wants.nonempty wants.short
  · rw [if_neg upgrade]
    have kept := run_sameSession (pageRoutes_only (P := NoSession) (fun _ _ => trivial)
      (fun _ => trivial) (fun _ => trivial) (fun _ _ _ => trivial) indexHtml fuel fd
      (cString request) request headerEnd) w₁
    refine .inr ⟨session.trans kept, fun _ key wants => upgrade ?_⟩
    obtain ⟨rest, blank⟩ := findHeaderEnd_blank complete
    have cr : 13 ∉ lit "Sec-WebSocket-Key" := by decide
    have colon : 58 ∉ lit "Sec-WebSocket-Key" := by decide
    obtain ⟨value, is, -⟩ :=
      Option.map_eq_some_iff.mp ((headerText_lookup cr colon blank).trans wants.names)
    exact Bool.and_eq_true_iff.mpr ⟨Bool.or_eq_true_iff.mpr wants.route,
      Option.isSome_iff_exists.mpr ⟨value, is⟩⟩

/-- The example handshake of the standard. -/
def sampleUpgrade : World where
  inbound := upgradeRequest
  disk := Disk.blank

theorem handshake_exact_sample :
    (runIn (handleClient [] 0 3) sampleUpgrade).2.sent =
      upgradeText (lit "s3pPLMBiTxaQ9kYGzzhZRbK+xOo=") := by
  have received : (runIn (recvRequest 3 (httpRequestMax - 1) []) sampleUpgrade).1 =
      .received upgradeRequest (some 61) := rfl
  have wants : Upgrade sampleUpgrade upgradeRequest (lit "dGhlIHNhbXBsZSBub25jZQ==") :=
    ⟨.inr (by decide +kernel), by decide +kernel, by decide +kernel, by decide +kernel, rfl⟩
  have digest : acceptKey (lit "dGhlIHNhbXBsZSBub25jZQ==") =
      lit "s3pPLMBiTxaQ9kYGzzhZRbK+xOo=" := by
    rw [acceptKey, ← sha1_two (by decide +kernel) (by decide +kernel)]
    decide +kernel
  rcases handshake_exact 3 received [] 0 with ⟨key, upgrade, done⟩ | ⟨-, refused⟩
  · obtain rfl := Option.some.inj (wants.names.symm.trans upgrade.names)
    rw [← digest]
    exact done.sent
  · exact absurd wants (refused (fun _ member => absurd member List.not_mem_nil) _)

end PicoCan.Http
