import PicoCan.Http.Framed

/-!
# One session, run against its surroundings

The loop in a world and at a bridge that answers from a state of its own. `serveAt` runs
the loop of the source; `Exchange.serve` runs the loop over whole frames and keeps a log of
the calls of `send_websocket_frame`: what was passed, how the sends went, the result, and
the bytes that went out. Forgetting the log, the two are one run.
-/

namespace PicoCan.Http

open Calls Frames
open PicoCan.Can (CanCall CanProg)

/-- A bridge: its state decides what each call answers. -/
abbrev BridgeEnv (σ : Type) : Type := (c : CanCall) → σ → c.Answer × σ

variable {σ α : Type} (env : BridgeEnv σ)

/-- One call of the loop of the source. -/
def serveAt : (c : HttpCall) → World × σ → c.Answer × (World × σ)
  | .can c, s => ((env c s.2).1, (s.1, (env c s.2).2))
  | c, s => ((World.serve c s.1).1, ((World.serve c s.1).2, s.2))

/-- The fates of the sends that were made between two worlds. -/
def spent (w w' : World) : List Fate :=
  (w.fates .send).take ((w.fates .send).length - (w'.fates .send).length)

/-- A call of `send_websocket_frame`: the fates of its sends, its result and what it put on
the connection. -/
structure Emitted where
  frame : Frame
  fates : List Fate
  ret : Int
  put : Bytes

/-- Where a session stands; the log is oldest first. -/
structure Exchange (σ : Type) where
  world : World
  bus : σ
  log : List Emitted := []

namespace Exchange

/-- One call of the loop over whole frames. -/
def serve : (c : SessionCall) → Exchange σ → c.Answer × Exchange σ
  | .call (.can c), s => ((env c s.bus).1, { s with bus := (env c s.bus).2 })
  | .call c, s => ((World.serve c s.world).1, { s with world := (World.serve c s.world).2 })
  | .frame fd opcode payload, s =>
      let (ret, world) := runIn (sendWebsocketFrame fd opcode payload) s.world
      let emitted : Emitted := {
        frame := (opcode, payload)
        fates := spent s.world world
        ret
        put := world.sent.drop s.world.sent.length }
      (ret, { s with world, log := s.log ++ [emitted] })

/-- Run the loop over whole frames. -/
abbrev run (p : SessionProg α) (s : Exchange σ) : α × Exchange σ := Prog.run (serve env) p s

end Exchange

/-! ## Programs without a call of the bridge, and within it -/

/-- The calls that do not concern the bridge. -/
def NoCan (c : HttpCall) : Prop :=
  match c with
  | .can _ => False
  | _ => True

theorem serveAt_eq {c : HttpCall} (other : NoCan c) (w : World) (b : σ) :
    serveAt env c (w, b) = ((World.serve c w).1, ((World.serve c w).2, b)) := by
  cases c with
  | can => exact other.elim
  | _ => rfl

theorem Exchange.serve_call {c : HttpCall} (other : NoCan c) (s : Exchange σ) :
    Exchange.serve env (.call c) s =
      ((World.serve c s.world).1, { s with world := (World.serve c s.world).2 }) := by
  cases c with
  | can => exact other.elim
  | _ => rfl

theorem run_serveAt {p : HttpProg α} (only : p.Only NoCan) (w : World) (b : σ) :
    p.run (serveAt env) (w, b) = ((runIn p w).1, ((runIn p w).2, b)) := by
  induction p generalizing w with
  | ret a => rfl
  | call c k ih => 
      rw [Prog.run_call, serveAt_eq env only.1, ih _ (only.2 _)]
      rfl

theorem Exchange.run_calls {p : HttpProg α} (only : p.Only NoCan) (s : Exchange σ) :
    Exchange.run env (Framed.calls p) s =
      ((runIn p s.world).1, { s with world := (runIn p s.world).2 }) := by
  induction p generalizing s with
  | ret a => rfl
  | call c k ih =>
      show Exchange.run env (.call (SessionCall.call c) fun r => Framed.calls (k r)) s = _
      rw [Exchange.run, Prog.run_call, serve_call env only.1]
      exact ih _ (only.2 _) _

theorem Exchange.run_bridge (p : CanProg α) (s : Exchange σ) :
    Exchange.run env (Framed.calls (bridge p)) s =
      ((p.run env s.bus).1, { s with bus := (p.run env s.bus).2 }) := by
  induction p generalizing s with
  | ret a => rfl
  | call c k ih => exact ih _ _

/-- With its calls carried out, a program over whole frames runs the same, but for the log. -/
theorem carriedOut_run (p : SessionProg α) (s : Exchange σ) :
    (p.interpret Framed.carryOut).run (serveAt env) (s.world, s.bus) =
      ((Exchange.run env p s).1,
        ((Exchange.run env p s).2.world, (Exchange.run env p s).2.bus)) := by
  rw [Prog.run_interpret]
  refine Prog.run_project (fun s : Exchange σ => (s.world, s.bus)) (fun c s => ?_) _ s
  cases c with
  | frame fd opcode payload =>
      have only : (sendWebsocketFrame fd opcode payload).Only NoCan :=
        sendWebsocketFrame_only (fun _ => trivial) _ _
      exact run_serveAt env only s.world s.bus
  | call c =>
      cases c with
      | _ => rfl

/-- A pass of the source is a pass over whole frames. -/
theorem echoPass_run (client : WebsocketClient) (response : Bytes) (s : Exchange σ) :
    let run := Exchange.run env (Framed.echoPass client response) s
    (echoPass client response).run (serveAt env) (s.world, s.bus) =
      (run.1, (run.2.world, run.2.bus)) := by
  intro run
  rw [← Framed.echoPass_carriedOut]
  exact carriedOut_run env _ s

/-- The run of the source is the run over whole frames without its log. -/
theorem websocketEchoLoop_run (fuel : Nat) (client : WebsocketClient) (response : Bytes)
    (s : Exchange σ) :
    let run := Exchange.run env (Framed.websocketEchoLoop fuel client response) s
    (websocketEchoLoop fuel client response).run (serveAt env) (s.world, s.bus) =
      (run.1, (run.2.world, run.2.bus)) := by
  intro run
  rw [← Framed.websocketEchoLoop_carriedOut]
  exact carriedOut_run env _ s

/-! ## What a frame puts on the connection -/

/-- All of a frame, as `send_websocket_frame` sends it. -/
def frameBytes (f : Frame) : Bytes := frameHeader f.1 f.2.length ++ f.2

/-- What `p` puts on the connection begins `data`, and is all of it if no error is
reported. -/
def Puts (p : HttpProg Int) (data : Bytes) : Prop :=
  ∀ w, ∃ put, (runIn p w).2.sent = w.sent ++ put ∧ put <+: data ∧
    (0 ≤ (runIn p w).1 → put = data)

theorem Puts.failed (data : Bytes) {ret : Int} (negative : ret < 0) : Puts (.ret ret) data := by
  intro w
  refine ⟨[], (List.append_nil _).symm, List.nil_prefix, fun ok => ?_⟩
  have : 0 ≤ ret := ok
  omega

/-- A send fails, or it puts the front of its data on the connection. -/
theorem serve_send_cases (fd : Fd) (data : Bytes) (w : World) :
    (∃ e w', World.serve (.send fd data) w = (.error e, w') ∧ w'.sent = w.sent) ∨
    (∃ (n : Count data.length) (w' : World), World.serve (.send fd data) w = (.ok n, w') ∧
      w'.sent = w.sent ++ data.take n.val) := by
  simp only [World.serve, HttpCall.kind, World.respond]
  cases (w.fate .send).fail with
  | some e => exact .inl ⟨e, _, rfl, rfl⟩
  | none => exact .inr ⟨_, _, rfl, rfl⟩

theorem sendLoop_puts (fd : Fd) (fuel : Nat) (data : Bytes) (enough : data.length ≤ fuel) :
    Puts (sendLoop fd fuel data) data := by
  intro w
  induction fuel generalizing w data with
  | zero =>
      obtain rfl := List.length_eq_zero_iff.mp (Nat.le_zero.mp enough)
      exact ⟨[], (List.append_nil _).symm, List.prefix_rfl, fun _ => rfl⟩
  | succ fuel ih =>
      rw [sendLoop]
      by_cases empty : data = []
      · rw [if_pos empty, empty]
        exact ⟨[], (List.append_nil _).symm, List.prefix_rfl, fun _ => rfl⟩
      rw [if_neg empty]
      simp only [perform, Prog.perform_bind, Prog.run_call]
      rcases serve_send_cases fd (data.take httpSendChunk) w with
        ⟨e, w', served, sent⟩ | ⟨n, w', served, sent⟩
      · simp only [served]
        obtain ⟨put, more, rest⟩ := Puts.failed data e.ret_neg w'
        exact ⟨put, by rw [← sent]; exact more, rest⟩
      · simp only [served]
        have le : n.val ≤ httpSendChunk := Nat.le_trans n.property (List.length_take_le _ _)
        rw [List.take_take, Nat.min_eq_left le] at sent
        by_cases none : n.val = 0
        · rw [if_pos none]
          rw [none, List.take_zero, List.append_nil] at sent
          obtain ⟨put, more, rest⟩ := Puts.failed data (show -eConnReset < 0 by decide) w'
          exact ⟨put, by rw [← sent]; exact more, rest⟩
        · rw [if_neg none]
          have shorter : (data.drop n.val).length ≤ fuel := by
            rw [List.length_drop]
            omega
          obtain ⟨put, more, begins, whole⟩ := ih (data.drop n.val) shorter w'
          refine ⟨data.take n.val ++ put, ?_, ?_, fun ok => ?_⟩
          · rw [more, sent, List.append_assoc]
          · obtain ⟨left, split⟩ := begins
            exact ⟨left, by rw [List.append_assoc, split, List.take_append_drop]⟩
          · rw [whole ok, List.take_append_drop]

theorem sendAll_puts (fd : Fd) (data : Bytes) : Puts (sendAll fd data) data :=
  sendLoop_puts fd _ data (Nat.le_refl _)

/-- A frame goes out from its front on, and as a whole if no error is reported. -/
theorem sendWebsocketFrame_puts (fd : Fd) (opcode : UInt8) (payload : Bytes) :
    Puts (sendWebsocketFrame fd opcode payload) (frameBytes (opcode, payload)) := by
  intro w
  unfold sendWebsocketFrame
  by_cases long : payload.length > 0xffff
  · rw [if_pos long]
    exact Puts.failed _ (by decide) w
  rw [if_neg long, runIn_bind]
  obtain ⟨put, more, begins, whole⟩ := sendAll_puts fd (frameHeader opcode payload.length) w
  by_cases failed : (runIn (sendAll fd (frameHeader opcode payload.length)) w).1 < 0
  · rw [if_pos failed]
    refine ⟨put, more, begins.trans (List.prefix_append _ _), fun ok => ?_⟩
    have : 0 ≤ (runIn (sendAll fd (frameHeader opcode payload.length)) w).1 := ok
    omega
  rw [if_neg failed]
  obtain rfl := whole (by omega)
  by_cases filled : payload.length > 0
  · rw [if_pos filled]
    obtain ⟨put, more', begins', whole'⟩ := sendAll_puts fd payload
      (runIn (sendAll fd (frameHeader opcode payload.length)) w).2
    refine ⟨frameHeader opcode payload.length ++ put, ?_, ?_, fun ok => ?_⟩
    · rw [more', more, List.append_assoc]
    · exact (List.prefix_append_right_inj _).mpr begins'
    · rw [whole' ok]
      rfl
  · rw [if_neg filled]
    obtain rfl : payload = [] := List.length_eq_zero_iff.mp (by omega)
    refine ⟨frameHeader opcode 0, more, ?_, fun _ => ?_⟩
    · exact List.prefix_append _ _
    · exact (List.append_nil _).symm

/-! ## Sends that go well -/

/-- `p` succeeds if all of its sends go well. -/
def Delivers (p : HttpProg Int) : Prop :=
  ∀ w, (∀ fate ∈ spent w (runIn p w).2, fate.Fine) → (runIn p w).1 = 0

theorem spent_later {w w' : World} (later : World.Later w w') :
    w.fates .send = spent w w' ++ w'.fates .send := by
  obtain ⟨front, split⟩ := later .send
  have front_length : (w.fates .send).length - (w'.fates .send).length = front.length := by
    rw [← split, List.length_append]
    omega
  rw [spent, front_length, ← split, List.take_left]

theorem spent_append {w w' w'' : World} (first : World.Later w w') (rest : World.Later w' w'') :
    spent w w'' = spent w w' ++ spent w' w'' := by
  have both : spent w w'' ++ w''.fates .send = spent w w' ++ spent w' w'' ++ w''.fates .send := by
    rw [← spent_later (first.trans rest), List.append_assoc, ← spent_later rest,
      ← spent_later first]
  exact List.append_cancel_right both

/-- A send spends the fate it meets. -/
theorem fate_of_spent {w : World} {fd : Fd} {data : Bytes}
    (fine : ∀ fate ∈ spent w (World.serve (.send fd data) w).2, fate.Fine) :
    (w.fate .send).Fine := by
  have left : (World.serve (.send fd data) w).2.fates .send = (w.fates .send).tail := by
    rw [World.serve, World.respond_fates]
    show w.fatesAfter .send .send = _
    exact if_pos rfl
  unfold spent at fine
  rw [left] at fine
  unfold World.fate
  cases fates : w.fates .send with
  | nil => exact ⟨rfl, Option.some_ne_none _ |>.symm⟩
  | cons fate rest =>
      refine fine fate ?_
      rw [fates, List.tail_cons, List.length_cons, Nat.add_sub_cancel_left]
      exact List.mem_cons_self

theorem Delivers.bind {p : HttpProg Int} {f : Int → HttpProg Int} (first : Delivers p)
    (rest : Delivers (f 0)) : Delivers (p >>= f) := by
  intro w fine
  rw [runIn_bind] at fine ⊢
  rw [spent_append (run_later p w) (run_later _ _)] at fine
  have ok := first w fun fate hfate => fine fate (List.mem_append_left _ hfate)
  rw [ok] at fine ⊢
  exact rest _ fun fate hfate => fine fate (List.mem_append_right _ hfate)

theorem sendLoop_delivers (fd : Fd) (fuel : Nat) (data : Bytes) :
    Delivers (sendLoop fd fuel data) := by
  induction fuel generalizing data with
  | zero => exact fun _ _ => rfl
  | succ fuel ih =>
      intro w fine
      rw [sendLoop] at fine ⊢
      by_cases empty : data = []
      · rw [if_pos empty]
        rfl
      rw [if_neg empty] at fine ⊢
      simp only [perform, Prog.perform_bind, Prog.run_call] at fine ⊢
      rw [spent_append (World.serve_later (.send fd (data.take httpSendChunk)) w)
        (run_later _ _)] at fine
      have chunk : data.take httpSendChunk ≠ [] := by
        simp [empty, httpSendChunk]
      obtain ⟨n, pos, served⟩ := serve_send
        (fate_of_spent fun fate hfate => fine fate (List.mem_append_left _ hfate)) fd chunk
      simp only [served] at fine ⊢
      rw [if_neg (Nat.ne_of_gt pos)] at fine ⊢
      exact ih _ _ fun fate hfate => fine fate (List.mem_append_right _ hfate)

/-- A frame that is not too long is delivered if all of its sends go well. -/
theorem sendWebsocketFrame_delivers (fd : Fd) (opcode : UInt8) {payload : Bytes}
    (short : payload.length ≤ 0xffff) : Delivers (sendWebsocketFrame fd opcode payload) := by
  unfold sendWebsocketFrame
  rw [if_neg (by omega)]
  refine (sendLoop_delivers fd _ _).bind ?_
  rw [if_neg (by decide)]
  by_cases filled : payload.length > 0
  · rw [if_pos filled]
    exact sendLoop_delivers fd _ _
  · rw [if_neg filled]
    exact fun _ _ => rfl

end PicoCan.Http
