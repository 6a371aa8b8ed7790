import PicoCan.Http.Smooth

/-!
# Receiving a request

`handle_client` searches the header's end anew after every receive. Where no receive
fails, it finds the first blank line of what the client sends, or there is none in the
room the buffer has; the cut into pieces only decides how much of the body has been
received with it.
-/

namespace PicoCan.Http

open Calls
open PicoCan.Can (canBridgeSetRxStreaming)

/-! ## The end of the header -/

theorem findHeaderEnd_bound {request : Bytes} {headerEnd : Nat}
    (found : findHeaderEnd request = some headerEnd) : headerEnd + 4 ≤ request.length := by
  obtain ⟨rest, at_rest, rfl⟩ := Option.map_eq_some_iff.mp found
  obtain ⟨blank, back⟩ := strstr_split at_rest
  have four : 4 ≤ rest.length := blank.length_le
  have text := back.length_le
  have whole := cString_length_le request
  show (cString request).length - rest.length + 4 ≤ request.length
  omega

/-- The header's end stays where it was found. -/
theorem findHeaderEnd_append {request : Bytes} {headerEnd : Nat}
    (found : findHeaderEnd request = some headerEnd) (more : Bytes) :
    findHeaderEnd (request ++ more) = some headerEnd := by
  obtain ⟨rest, at_rest, rfl⟩ := Option.map_eq_some_iff.mp found
  obtain ⟨tail, text⟩ := cString_append request more
  have back := (strstr_split at_rest).2.length_le
  simp only [findHeaderEnd, text, strstr_append at_rest, Option.map_some, List.length_append]
  congr 1
  omega

/-! ## The header loop -/

/-- What the loop leaves of all the client sends. -/
inductive Receives (all : Bytes) : Request → (inbound : Bytes) → Prop
  | header (request inbound : Bytes) (headerEnd : Nat) (split : all = request ++ inbound)
      (found : findHeaderEnd request = some headerEnd) (room : request.length < httpRequestMax) :
      Receives all (.received request (some headerEnd)) inbound
  | tooLarge (request inbound : Bytes) (split : all = request ++ inbound)
      (missing : findHeaderEnd request = none) (full : request.length = httpRequestMax - 1) :
      Receives all (.received request none) inbound
  | gone (missing : findHeaderEnd all = none) (short : all.length < httpRequestMax - 1) :
      Receives all .gone []

theorem recvRequest_smooth {w : World} (fine : w.FineAt .recv) (fd : Fd) (fuel : Nat)
    (request : Bytes) (missing : findHeaderEnd request = none)
    (room : request.length ≤ httpRequestMax - 1)
    (enough : httpRequestMax - 1 - request.length ≤ fuel) :
    ∃ fates, (∀ kind, fates kind <:+ w.fates kind) ∧ ∃ result inbound,
      Receives (request ++ w.inbound) result inbound ∧
      runIn (recvRequest fd fuel request) w = (result, { w with fates, inbound }) := by
  -- on the free space of the buffer: no round before has found the end of the header
  induction fuel generalizing w request with
  | zero =>
      have full : request.length = httpRequestMax - 1 := by omega
      exact ⟨w.fates, fun _ => List.suffix_rfl, _, w.inbound,
        .tooLarge request _ rfl missing full, rfl⟩
  | succ fuel ih =>
      rw [recvRequest]
      by_cases short : request.length < httpRequestMax - 1
      case neg =>
        have full : request.length = httpRequestMax - 1 := by omega
        rw [if_neg short]
        exact ⟨w.fates, fun _ => List.suffix_rfl, _, w.inbound,
          .tooLarge request _ rfl missing full, rfl⟩
      have left : 0 < httpRequestMax - 1 - request.length := by omega
      rw [if_pos short]
      simp only [perform, Prog.perform_bind, Prog.run_call]
      rcases serve_recv w fd request.length left with
        ⟨none, failed⟩ | ⟨⟨chunk, fits⟩, rest, filled, inbound, served⟩
      · have none := none fine
        have gone : Receives (request ++ w.inbound) .gone [] := by
          rw [none, List.append_nil]
          exact .gone missing short
        have empty : { w with fates := w.fatesAfter .recv, inbound := [] } =
            { w with fates := w.fatesAfter .recv } := by rw [← none]
        refine ⟨w.fatesAfter .recv, World.fatesAfter_suffix w .recv, .gone, [], gone, ?_⟩
        rw [empty]
        rcases failed with ⟨e, served⟩ | served
        · simp only [served]
          rfl
        · simp only [served]
          rfl
      · cases chunk with
        | nil => exact absurd rfl filled
        | cons b more =>
            have grown : (request ++ b :: more).length = request.length + (b :: more).length :=
              List.length_append
            have some : 0 < (b :: more).length := Nat.succ_pos _
            have all : request ++ w.inbound = request ++ b :: more ++ rest := by
              rw [inbound, List.append_assoc]
            simp only [served]
            rw [all]
            cases found : findHeaderEnd (request ++ b :: more) with
            | some headerEnd =>
                refine ⟨w.fatesAfter .recv, World.fatesAfter_suffix w .recv, _, rest,
                  .header _ rest headerEnd rfl found ?_, rfl⟩
                have : httpRequestMax = 1536 := rfl
                omega
            | none =>
                have fine' :
                    World.FineAt { w with fates := w.fatesAfter .recv, inbound := rest } .recv :=
                  fine.later (World.fatesAfter_suffix w .recv)
                obtain ⟨fates, later, result, inbound', receives, run⟩ :=
                  ih fine' (request ++ b :: more) found (by omega) (by omega)
                exact ⟨fates, fun kind => (later kind).trans (World.fatesAfter_suffix w .recv kind),
                  result, inbound', receives, run⟩

theorem recvRequest_start {w : World} (fine : w.FineAt .recv) (fd : Fd) :
    ∃ fates, (∀ kind, fates kind <:+ w.fates kind) ∧ ∃ result inbound,
      Receives w.inbound result inbound ∧
      runIn (recvRequest fd (httpRequestMax - 1) []) w = (result, { w with fates, inbound }) :=
  recvRequest_smooth fine fd _ [] rfl (Nat.zero_le _) (Nat.le_refl _)

/-! ## The upgrade -/

/-- The calls that neither take bytes off the connection nor hand it over. -/
def NoHandover (c : HttpCall) : Prop :=
  match c with
  | .recv _ _ _ | .wsClientSet _ | .wsThreadCreate => False
  | _ => True

/-- The bytes to come, the session's client and the number of session threads are the same. -/
def SameHandover (w w' : World) : Prop :=
  w'.inbound = w.inbound ∧ w'.threads = w.threads ∧ w'.wsClient = w.wsClient

theorem run_sameHandover {α : Type} {p : HttpProg α} (only : p.Only NoHandover) (w : World) :
    SameHandover w (runIn p w).2 := by
  refine only.run_keeps (I := SameHandover w) ?_ ⟨rfl, rfl, rfl⟩
  intro c s call same
  cases c with
  | recv | wsClientSet | wsThreadCreate => exact call.elim
  | send | poll => simp only [World.serve, World.respond]; split <;> exact same
  | _ => exact same

/-- The calls that start no session thread. -/
def NoThread (c : HttpCall) : Prop :=
  match c with
  | .wsThreadCreate => False
  | _ => True

theorem run_threads {α : Type} {p : HttpProg α} (only : p.Only NoThread) (w : World) :
    (runIn p w).2.threads = w.threads := by
  refine only.run_keeps (I := fun s : World => s.threads = w.threads) ?_ rfl
  intro c s call same
  cases c with
  | wsThreadCreate => exact call.elim
  | recv | send | poll => simp only [World.serve, World.respond]; split <;> exact same
  | _ => exact same

/-- A session takes over a connection with what was received behind the header. -/
theorem handleWebsocket_hands_over (w : World) (fd : Fd) (request pending : Bytes) :
    (runIn (handleWebsocket fd request pending) w).2.inbound = w.inbound ∧
      ((runIn (handleWebsocket fd request pending) w).2.threads = w.threads ∨
        (runIn (handleWebsocket fd request pending) w).2.wsClient =
          { fd, pending := pending.take httpRequestMax }) := by
  unfold handleWebsocket
  simp only [perform, Prog.perform_bind, Prog.run_call]
  generalize served : World.serve .wsActiveCas w = claim
  have claims : SameHandover w claim.2 := by
    rw [← served]
    exact ⟨rfl, rfl, rfl⟩
  have clears {ret : Int} {w' : World} (same : SameHandover w w') :
      SameHandover w (runIn (perform .wsActiveClear >>= fun _ => .ret ret) w').2 := same
  by_cases taken : claim.1
  · rw [if_neg (not_not_intro taken)]
    cases buildWebsocketAccept request acceptMax with
    | error ret => exact ⟨(clears claims).1, .inl (clears claims).2.1⟩
    | ok accept =>
        by_cases long : (upgradeText accept).length ≥ responseBufMax
        · simp only [if_pos long]
          exact ⟨(clears claims).1, .inl (clears claims).2.1⟩
        · simp only [if_neg long]
          rw [Prog.run_bind]
          have sent : SameHandover claim.2
              (Prog.run World.serve (sendAll fd (upgradeText accept)) claim.2).2 :=
            run_sameHandover (sendAll_only (fun _ => trivial) _) claim.2
          generalize Prog.run World.serve (sendAll fd (upgradeText accept)) claim.2 = response
            at sent ⊢
          have same : SameHandover w response.2 := ⟨sent.1.trans claims.1,
            sent.2.1.trans claims.2.1, sent.2.2.trans claims.2.2⟩
          by_cases failed : response.1 < 0
          · rw [if_pos failed]
            exact ⟨(clears same).1, .inl (clears same).2.1⟩
          · rw [if_neg failed]
            let w' : World := { response.2 with
              fates := response.2.fatesAfter .other
              wsClient := { fd, pending := pending.take httpRequestMax } }
            have streams := run_sameHandover (p := bridge (canBridgeSetRxStreaming true))
              (bridge_only (Q := fun _ => True) (Prog.only_true _) fun _ _ => trivial) w'
            show (runIn (bridge (canBridgeSetRxStreaming true) >>= _) w').2.inbound = _ ∧ (_ ∨
              (runIn (bridge (canBridgeSetRxStreaming true) >>= _) w').2.wsClient = _)
            rw [runIn_bind]
            exact ⟨streams.1.trans same.1, .inr streams.2.2⟩
  · rw [if_pos taken]
    exact ⟨claims.1, .inl claims.2.1⟩

theorem upgradeRoute_hands_over (w : World) (fd : Fd) (request : Bytes) (headerEnd : Nat) :
    (runIn (upgradeRoute fd request headerEnd) w).2.inbound = w.inbound ∧
      ((runIn (upgradeRoute fd request headerEnd) w).2.threads = w.threads ∨
        (runIn (upgradeRoute fd request headerEnd) w).2.wsClient =
          { fd, pending := (request.drop (headerEnd + 4)).take httpRequestMax }) := by
  unfold upgradeRoute
  rw [runIn_bind]
  have handed := handleWebsocket_hands_over w fd (cString request) (request.drop (headerEnd + 4))
  by_cases failed : (runIn (handleWebsocket fd (cString request)
      (request.drop (headerEnd + 4))) w).1 < 0
  · rw [if_pos failed]
    exact handed
  · rw [if_neg failed]
    exact handed

/-- Where a connection became a session, the session has before it what the client sends
behind the first blank line. -/
theorem handleClient_hands_over {w : World} (smooth : w.Smooth) (indexHtml : Bytes) (fuel : Nat)
    (fd : Fd) (upgraded : (runIn (handleClient indexHtml fuel fd) w).2.threads ≠ w.threads) :
    ∃ headerEnd pending, findHeaderEnd w.inbound = some headerEnd ∧
      (runIn (handleClient indexHtml fuel fd) w).2.wsClient = { fd, pending } ∧
      pending ++ (runIn (handleClient indexHtml fuel fd) w).2.inbound =
        w.inbound.drop (headerEnd + 4) := by
  obtain ⟨fates, -, result, inbound, receives, run⟩ := recvRequest_start (smooth .recv) fd
  unfold handleClient at upgraded ⊢
  rw [runIn_bind, run] at upgraded ⊢
  cases receives with
  | gone => exact absurd rfl upgraded
  | tooLarge request =>
      refine absurd (run_threads ?_ _) upgraded
      exact (answer_only (P := NoThread) (fun _ _ => trivial) (fun _ => trivial) _ _).bind
        fun _ => trivial
  | header request inbound headerEnd split found room =>
      simp only at upgraded ⊢
      by_cases upgrade : requestIsWebsocket (cString request)
      · rw [if_pos upgrade] at upgraded ⊢
        rw [runIn_bind] at upgraded ⊢
        obtain ⟨kept, handed⟩ :=
          upgradeRoute_hands_over { w with fates, inbound } fd request headerEnd
        have short : (request.drop (headerEnd + 4)).length ≤ httpRequestMax := by
          rw [List.length_drop]
          omega
        refine ⟨headerEnd, request.drop (headerEnd + 4), ?_, ?_, ?_⟩
        · rw [split]
          exact findHeaderEnd_append found inbound
        · rw [List.take_of_length_le short] at handed
          exact handed.resolve_left upgraded
        · have within : headerEnd + 4 ≤ request.length := findHeaderEnd_bound found
          rw [split, List.drop_append_of_le_length within]
          exact congrArg (request.drop (headerEnd + 4) ++ ·) kept
      · rw [if_neg upgrade] at upgraded
        refine absurd (run_threads ?_ _) upgraded
        exact pageRoutes_only (P := NoThread) (fun _ _ => trivial) (fun _ => trivial)
          (fun _ => trivial) (fun _ _ _ => trivial) _ _ _ _ _ _

end PicoCan.Http
