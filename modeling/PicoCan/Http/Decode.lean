import PicoCan.Http.Output

/-!
# What the session loop makes of the client's bytes

The bytes come from two places: what was received behind the upgrade request, and the
connection. Where no call fails, the loop reads them as one stream, whatever arrives in
one piece, and takes off it exactly what the reference decoder takes.
-/

namespace PicoCan.Http

open Calls Frames
open PicoCan.Can (wsResponseMax canBridgeFormatNextRx canBridgeHandleWsText
  canBridgeHandleWsText_fits)

/-- The bytes of the client that the session has not read. -/
def unread (client : WebsocketClient) (w : World) : Bytes :=
  client.pending.drop client.pendingPos ++ w.inbound

/-! ## Receiving -/

/-- What is missing in the buffer is taken off the connection, or the loop gives up; where no
call fails, only when there is too little. -/
theorem recvLoop_reads (w : World) (fd : Fd) {len : Nat} (fuel : Nat) (buf : Bytes)
    (room : buf.length ≤ len) (enough : len - buf.length ≤ fuel) :
    ∃ fates inbound, (∀ kind, fates kind <:+ w.fates kind) ∧
      ((len - buf.length ≤ w.inbound.length ∧ inbound = w.inbound.drop (len - buf.length) ∧
        runIn (recvLoop fd len fuel buf) w =
          (.ok (buf ++ w.inbound.take (len - buf.length)), { w with fates, inbound })) ∨
      ((w.Smooth → w.inbound.length < len - buf.length ∧ inbound = []) ∧
        ∃ ret, runIn (recvLoop fd len fuel buf) w = (.error ret, { w with fates, inbound }))) := by
  -- on the bytes that are missing: every round takes at least one of them
  induction fuel generalizing w buf with
  | zero =>
      have full : len - buf.length = 0 := by omega
      refine ⟨w.fates, w.inbound, fun _ => List.suffix_rfl, .inl ⟨by omega, ?_, ?_⟩⟩
      · rw [full, List.drop_zero]
      · rw [full, List.take_zero, List.append_nil]
        rfl
  | succ fuel ih =>
      rw [recvLoop]
      by_cases short : buf.length < len
      · rw [if_pos short]
        simp only [perform, Prog.perform_bind, Prog.run_call]
        have left : 0 < len - buf.length := by omega
        rcases serve_recv w fd buf.length left with
          ⟨none, failed⟩ | ⟨⟨chunk, fits⟩, rest, filled, inbound, served⟩
        · refine ⟨w.fatesAfter .recv, w.inbound, World.fatesAfter_suffix w .recv,
            .inr ⟨fun smooth => ⟨?_, none (smooth .recv)⟩, ?_⟩⟩
          · rw [none (smooth .recv)]
            exact left
          rcases failed with ⟨e, served⟩ | served
          · exact ⟨e.ret, by simp only [served]; rfl⟩
          · exact ⟨-eConnReset, by simp only [served]; rfl⟩
        · cases chunk with
          | nil => exact absurd rfl filled
          | cons b more =>
              have grown : (buf ++ b :: more).length = buf.length + (b :: more).length :=
                List.length_append
              have some : 0 < (b :: more).length := Nat.succ_pos _
              have missing : len - buf.length =
                  (b :: more).length + (len - (buf ++ b :: more).length) := by omega
              obtain ⟨fates, inbound', later, run⟩ :=
                ih { w with fates := w.fatesAfter .recv, inbound := rest } (buf ++ b :: more)
                  (by omega) (by omega)
              refine ⟨fates, inbound',
                fun kind => (later kind).trans (World.fatesAfter_suffix w .recv kind), ?_⟩
              simp only [served, inbound, List.length_append]
              rcases run with ⟨all, behind, run⟩ | ⟨cut, ret, run⟩
              · have enough : len - (buf ++ b :: more).length ≤ rest.length := all
                refine .inl ⟨by omega, ?_, run.trans ?_⟩
                · rw [missing, List.drop_length_add_append]
                  exact behind
                · rw [missing, List.take_length_add_append, List.append_assoc]
              · refine .inr ⟨fun smooth => ?_, ret, run⟩
                obtain ⟨short', empty⟩ := cut (smooth.later (World.fatesAfter_suffix w .recv))
                have : rest.length < len - (buf ++ b :: more).length := short'
                exact ⟨by omega, empty⟩
      · have full : len - buf.length = 0 := by omega
        rw [if_neg short]
        refine ⟨w.fates, w.inbound, fun _ => List.suffix_rfl, .inl ⟨by omega, ?_, ?_⟩⟩
        · rw [full, List.drop_zero]
        · rw [full, List.take_zero, List.append_nil]
          rfl

/-- `ws_recv_exact` takes its bytes off the stream, or it fails; where no call fails, only
when there are too few, and then it has taken them all. -/
theorem wsRecvExact_reads (w : World) (client : WebsocketClient) (len : Nat) :
    ∃ client' w', client'.fd = client.fd ∧ World.Later w w' ∧ w'.sent = w.sent ∧
      ((len ≤ (unread client w).length ∧ unread client' w' = (unread client w).drop len ∧
        runIn (wsRecvExact client len) w = ((.ok ((unread client w).take len), client'), w')) ∨
      ((w.Smooth → (unread client w).length < len ∧ unread client' w' = []) ∧
        ∃ ret, runIn (wsRecvExact client len) w = ((.error ret, client'), w'))) := by
  obtain ⟨fates, inbound, later, run⟩ := recvLoop_reads w client.fd len
    ((client.pending.drop client.pendingPos).take len) (List.length_take_le _ _) (Nat.sub_le _ _)
  unfold unread
  generalize buffered : client.pending.drop client.pendingPos = front at run ⊢
  have copied : (front.take len).length = min len front.length := List.length_take
  have missing : len - (front.take len).length = len - front.length := by omega
  have behind : client.pending.drop (client.pendingPos + (front.take len).length) =
      front.drop len := by
    rw [← List.drop_drop, buffered]
    by_cases all : len ≤ front.length
    · rw [copied, Nat.min_eq_left all]
    · rw [List.drop_eq_nil_of_le (by omega), List.drop_eq_nil_of_le (by omega)]
  let client' : WebsocketClient :=
    { client with pendingPos := client.pendingPos + (front.take len).length }
  have whole : runIn (wsRecvExact client len) w =
      (((runIn (recvLoop client.fd len len (front.take len)) w).1, client'),
        (runIn (recvLoop client.fd len len (front.take len)) w).2) := by
    rw [wsRecvExact, buffered]
    exact runIn_bind _ _ _
  rw [missing] at run
  refine ⟨client', { w with fates, inbound }, rfl, later, rfl, ?_⟩
  rcases run with ⟨enough, rest, run⟩ | ⟨cut, ret, run⟩
  · refine .inl ⟨?_, ?_, ?_⟩
    · rw [List.length_append]
      omega
    · rw [behind, List.drop_append, rest]
    · rw [whole, run, List.take_append]
  · refine .inr ⟨fun smooth => ?_, ret, ?_⟩
    · obtain ⟨short, empty⟩ := cut smooth
      rw [behind, List.length_append, empty, List.append_nil]
      exact ⟨by omega, List.drop_eq_nil_of_le (by omega)⟩
    · rw [whole, run]

/-! ## What a part of the loop does -/

variable {σ : Type}

/-- From `s` to `s'` these frames were sent, each as a whole, and the bridge was left at
`bus`. -/
structure Did (s s' : Exchange σ) (bus : σ) (frames : List Frame) : Prop where
  later : World.Later s.world s'.world
  bus : s'.bus = bus
  sent : s'.world.sent = s.world.sent ++ frames.flatMap frameBytes
  log : s'.log.map (·.frame) = s.log.map (·.frame) ++ frames
  known : ∀ f ∈ frames, f.1 ∈ [wsOpcodeText, wsOpcodeClose, wsOpcodePong] ∧
    f.2.length ≤ wsResponseMax

theorem Did.refl (s : Exchange σ) : Did s s s.bus [] :=
  ⟨World.Later.refl _, rfl, (List.append_nil _).symm, (List.append_nil _).symm,
    fun _ member => absurd member List.not_mem_nil⟩

theorem Did.trans {s s' s'' : Exchange σ} {bus bus' : σ} {frames frames' : List Frame}
    (first : Did s s' bus frames) (rest : Did s' s'' bus' frames') :
    Did s s'' bus' (frames ++ frames') := by
  refine ⟨first.later.trans rest.later, rest.bus, ?_, ?_, fun f member => ?_⟩
  · rw [rest.sent, first.sent, List.flatMap_append, List.append_assoc]
  · rw [rest.log, first.log, List.append_assoc]
  · rcases List.mem_append.mp member with before | after
    · exact first.known f before
    · exact rest.known f after

/-- Nothing is sent, and the bridge is not called. -/
theorem Did.ofWorld (s : Exchange σ) {w : World} (later : World.Later s.world w)
    (sent : w.sent = s.world.sent) : Did s { s with world := w } s.bus [] :=
  ⟨later, rfl, sent.trans (List.append_nil _).symm, (List.append_nil _).symm,
    fun _ member => absurd member List.not_mem_nil⟩

variable (env : BridgeEnv σ)

theorem Exchange.run_bind {α β : Type} (p : SessionProg α) (f : α → SessionProg β)
    (s : Exchange σ) :
    Exchange.run env (p >>= f) s = Exchange.run env (f (Exchange.run env p s).1)
      (Exchange.run env p s).2 := Prog.run_bind _ _ _ _

theorem recv_reads (s : Exchange σ) (client : WebsocketClient) (len : Nat) :
    ∃ client' s', client'.fd = client.fd ∧ Did s s' s.bus [] ∧
      ((len ≤ (unread client s.world).length ∧
        unread client' s'.world = (unread client s.world).drop len ∧
        Exchange.run env (Framed.calls (wsRecvExact client len)) s =
          ((.ok ((unread client s.world).take len), client'), s')) ∨
      ((s.world.Smooth → (unread client s.world).length < len ∧ unread client' s'.world = []) ∧
        ∃ ret, Exchange.run env (Framed.calls (wsRecvExact client len)) s =
          ((.error ret, client'), s'))) := by
  obtain ⟨client', w', fd, later, sent, run⟩ := wsRecvExact_reads s.world client len
  have whole := Exchange.run_calls env (p := wsRecvExact client len)
    (wsRecvExact_only fun _ _ _ => trivial) s
  refine ⟨client', { s with world := w' }, fd, Did.ofWorld s later sent, ?_⟩
  rcases run with ⟨enough, rest, run⟩ | ⟨cut, ret, run⟩
  · exact .inl ⟨enough, rest, by rw [whole, run]⟩
  · exact .inr ⟨cut, ret, by rw [whole, run]⟩

/-- Where no send fails, a frame goes out as a whole. -/
theorem frame_sent {s : Exchange σ} (sends : s.world.FineAt .send) (fd : Fd) (opcode : UInt8)
    (payload : Bytes) (known : opcode ∈ [wsOpcodeText, wsOpcodeClose, wsOpcodePong])
    (short : payload.length ≤ wsResponseMax) :
    ∃ s', Exchange.run env (Framed.frame fd opcode payload) s = (0, s') ∧
      Did s s' s.bus [(opcode, payload)] ∧ s'.world.inbound = s.world.inbound := by
  obtain ⟨put, sent, -, whole⟩ := sendWebsocketFrame_puts fd opcode payload s.world
  have later := run_later (sendWebsocketFrame fd opcode payload) s.world
  have ok := sendWebsocketFrame_delivers fd opcode (Nat.le_trans short (by decide)) s.world
    fun fate met => by
      rw [spent] at met
      exact sends fate (List.mem_of_mem_take met)
  have kept := run_inbound (p := sendWebsocketFrame fd opcode payload)
    (sendWebsocketFrame_only (fun _ => trivial) _ _) s.world
  obtain rfl := whole (Int.le_of_eq ok.symm)
  refine ⟨(Exchange.run env (Framed.frame fd opcode payload) s).2, ?_, ?_, kept.1⟩
  · exact Prod.ext ok rfl
  · refine ⟨later, rfl, ?_, ?_, ?_⟩
    · rw [List.flatMap_singleton]
      exact sent
    · exact List.map_append
    · intro f member
      rw [List.mem_singleton.mp member]
      exact ⟨known, short⟩

/-! ## One frame of the client -/

/-- What the reference decoder calls the outcome. -/
def FrameRead.received : FrameRead → Received
  | .failed => .truncated
  | .refused => .refused
  | .frame opcode payload => .frame (opcode, payload)

/-- The outcome is the one of the reference decoder, the bytes behind are still there, and
a refusal was answered with a CLOSE. -/
structure ReadExactly (s : Exchange σ) (decoded : Received × Bytes)
    (result : (FrameRead × WebsocketClient) × Exchange σ) : Prop where
  read : result.1.1.received = decoded.1
  rest : unread result.1.2 result.2.world = decoded.2
  did : Did s result.2 s.bus (if decoded.1 = .refused then [(wsOpcodeClose, [])] else [])

/-- A receive failed. -/
structure ReadFailed (s : Exchange σ) (result : (FrameRead × WebsocketClient) × Exchange σ) :
    Prop where
  failing : ¬ s.world.Smooth
  read : result.1.1 = .failed
  did : Did s result.2 s.bus []

/-- A frame is read as the reference decoder reads it, unless a receive fails. -/
structure ReadAs (s : Exchange σ) (client : WebsocketClient) (decoded : Received × Bytes)
    (result : (FrameRead × WebsocketClient) × Exchange σ) : Prop where
  fd : result.1.2.fd = client.fd
  outcome : ReadExactly s decoded result ∨ ReadFailed s result

theorem ReadAs.after {s s' : Exchange σ} {client client' : WebsocketClient}
    {decoded : Received × Bytes} {result : (FrameRead × WebsocketClient) × Exchange σ}
    (did : Did s s' s.bus []) (fd : client'.fd = client.fd)
    (rest : ReadAs s' client' decoded result) : ReadAs s client decoded result := by
  refine ⟨rest.fd.trans fd, ?_⟩
  rcases rest.outcome with reads | fails
  · have whole := did.trans reads.did
    rw [did.bus] at whole
    exact .inl ⟨reads.read, reads.rest, whole⟩
  · have whole := did.trans fails.did
    rw [did.bus] at whole
    exact .inr ⟨fun smooth => fails.failing (smooth.later did.later), fails.read, whole⟩

/-- A receive failed, or the stream ended within the frame. -/
theorem ReadAs.cut {s s' : Exchange σ} {client client' : WebsocketClient}
    {decoded : Received × Bytes} (did : Did s s' s.bus []) (fd : client'.fd = client.fd)
    (ended : s.world.Smooth → decoded = (.truncated, []) ∧ unread client' s'.world = []) :
    ReadAs s client decoded ((.failed, client'), s') := by
  refine ⟨fd, ?_⟩
  by_cases smooth : s.world.Smooth
  · obtain ⟨truncated, empty⟩ := ended smooth
    rw [truncated]
    exact .inl ⟨rfl, empty, did⟩
  · exact .inr ⟨smooth, rfl, did⟩

/-- A frame is refused. -/
theorem refused_reads {s : Exchange σ} (sends : s.world.FineAt .send) (client : WebsocketClient) :
    ReadAs s client (.refused, unread client s.world) (Exchange.run env (do
      let _ ← Framed.frame client.fd wsOpcodeClose []
      return (.refused, client)) s) := by
  obtain ⟨s', run, did, inbound⟩ := frame_sent env sends client.fd wsOpcodeClose []
    (by decide) (Nat.zero_le _)
  rw [Exchange.run_bind, run]
  refine ⟨rfl, .inl ⟨rfl, ?_, did⟩⟩
  show client.pending.drop client.pendingPos ++ s'.world.inbound = _
  rw [inbound]
  rfl

theorem readPayload_reads {s : Exchange σ} (sends : s.world.FineAt .send) (client : WebsocketClient)
    (opcode : UInt8) (masked : Bool) (len : Nat) :
    ReadAs s client (decodePayload wsMaxPayload opcode masked len (unread client s.world))
      (Exchange.run env (Framed.readPayload client opcode masked len) s) := by
  unfold Framed.readPayload decodePayload
  by_cases refuse : ¬ masked ∨ len > wsMaxPayload
  · have refuse' : ¬ masked ∨ wsMaxPayload < len := refuse
    rw [if_pos refuse, if_pos refuse']
    exact refused_reads env sends client
  have accept : ¬ (¬ masked ∨ wsMaxPayload < len) := refuse
  rw [if_neg refuse, if_neg accept, Exchange.run_bind]
  obtain ⟨client₁, s₁, fd₁, did₁, run₁⟩ := recv_reads env s client 4
  rcases run₁ with ⟨enough, rest₁, run₁⟩ | ⟨cut, ret, run₁⟩
  · rw [run₁]
    simp only
    rw [Exchange.run_bind]
    obtain ⟨client₂, s₂, fd₂, did₂, run₂⟩ := recv_reads env s₁ client₁ len
    rw [rest₁, List.length_drop] at run₂
    rw [did₁.bus] at did₂
    rcases run₂ with ⟨enough₂, rest₂, run₂⟩ | ⟨cut₂, ret, run₂⟩
    · have all : ¬ (unread client s.world).length < 4 + len := by omega
      rw [if_neg all, run₂]
      refine ⟨fd₂.trans fd₁, .inl ⟨rfl, ?_, ?_⟩⟩
      · exact rest₂.trans (List.drop_drop ..)
      · rw [if_neg (by simp)]
        exact did₁.trans did₂
    · rw [run₂]
      refine .cut (did₁.trans did₂) (fd₂.trans fd₁) fun smooth => ?_
      obtain ⟨short, empty⟩ := cut₂ (smooth.later did₁.later)
      exact ⟨if_pos (by omega), empty⟩
  · rw [run₁]
    refine .cut did₁ fd₁ fun smooth => ?_
    obtain ⟨short, empty⟩ := cut smooth
    exact ⟨if_pos (by omega), empty⟩

theorem header_bits (b : UInt8) :
    b &&& 0x0f = b % 16 ∧ (b &&& 0x80 != 0) = decide (128 ≤ b.toNat) ∧ b &&& 0x7f = b % 128 := by
  have all : ∀ n : Fin 256, UInt8.ofNat n &&& 0x0f = UInt8.ofNat n % 16 ∧
      (UInt8.ofNat n &&& 0x80 != 0) = decide (128 ≤ (UInt8.ofNat n).toNat) ∧
      UInt8.ofNat n &&& 0x7f = UInt8.ofNat n % 128 := by decide +kernel
  have this := all ⟨b.toNat, b.toNat_lt⟩
  rwa [UInt8.ofNat_toNat] at this

/-- Two bytes are received, or the stream ends before. -/
theorem recv_two (s : Exchange σ) (client : WebsocketClient) :
    ∃ client' s', client'.fd = client.fd ∧ Did s s' s.bus [] ∧
      ((∃ b₀ b₁, unread client s.world = b₀ :: b₁ :: unread client' s'.world ∧
        Exchange.run env (Framed.calls (wsRecvExact client 2)) s = ((.ok [b₀, b₁], client'), s')) ∨
      ((s.world.Smooth → (unread client s.world = [] ∨ ∃ b, unread client s.world = [b]) ∧
        unread client' s'.world = []) ∧
        ∃ ret, Exchange.run env (Framed.calls (wsRecvExact client 2)) s =
          ((.error ret, client'), s'))) := by
  obtain ⟨client', s', fd, did, run⟩ := recv_reads env s client 2
  refine ⟨client', s', fd, did, ?_⟩
  rcases run with ⟨enough, behind, run⟩ | ⟨cut, ret, run⟩
  · rcases stream : unread client s.world with _ | ⟨b₀, _ | ⟨b₁, rest⟩⟩
    · rw [stream] at enough
      exact absurd enough (by decide)
    · rw [stream] at enough
      have : 2 ≤ 1 := enough
      omega
    · rw [stream] at behind run
      exact .inl ⟨b₀, b₁, by rw [behind]; rfl, run⟩
  · refine .inr ⟨fun smooth => ?_, ret, run⟩
    obtain ⟨short, empty⟩ := cut smooth
    refine ⟨?_, empty⟩
    rcases stream : unread client s.world with _ | ⟨b₀, _ | ⟨b₁, rest⟩⟩
    · exact .inl rfl
    · exact .inr ⟨b₀, rfl⟩
    · rw [stream] at short
      simp only [List.length_cons] at short
      omega

theorem readFrame_reads {s : Exchange σ} (sends : s.world.FineAt .send) (client : WebsocketClient) :
    ReadAs s client (decodeClient wsMaxPayload (unread client s.world))
      (Exchange.run env (Framed.readFrame client) s) := by
  unfold Framed.readFrame
  rw [Exchange.run_bind]
  obtain ⟨client₁, s₁, fd₁, did₁, ⟨b₀, b₁, stream, run₁⟩ | ⟨ended, ret, run₁⟩⟩ :=
    recv_two env s client
  · rw [run₁, stream]
    refine ReadAs.after did₁ fd₁ ?_
    have sends₁ := sends.later did₁.later
    have value : (b₁ &&& 0x7f).toNat = b₁.toNat % 128 := by
      rw [(header_bits b₁).2.2, UInt8.toNat_mod]
      rfl
    have is (n : UInt8) : b₁ &&& 0x7f = n ↔ b₁.toNat % 128 = n.toNat := by
      rw [← value]
      exact UInt8.toNat_inj.symm
    have payload {s : Exchange σ} (sends : s.world.FineAt .send) (client : WebsocketClient)
        (len : Nat) :
        ReadAs s client (decodePayload wsMaxPayload (b₀ % 16) (decide (128 ≤ b₁.toNat)) len
            (unread client s.world))
          (Exchange.run env (Framed.readPayload client (b₀ &&& 0x0f) (b₁ &&& 0x80 != 0) len)
            s) := by
      rw [(header_bits b₀).1, (header_bits b₁).2.1]
      exact readPayload_reads env sends client _ _ len
    show ReadAs s₁ client₁ _ (Exchange.run env (if b₁ &&& 0x7f = 126 then _
      else if b₁ &&& 0x7f = 127 then _ else _) s₁)
    simp only [decodeClient]
    by_cases ext : b₁.toNat % 128 = 126
    · have notHuge : ¬ b₁.toNat % 128 = 127 := by omega
      rw [if_neg notHuge, if_pos ext, if_pos ((is 126).mpr ext), Exchange.run_bind]
      obtain ⟨client₂, s₂, fd₂, did₂, ⟨high, low, stream₂, run₂⟩ | ⟨ended, ret, run₂⟩⟩ :=
        recv_two env s₁ client₁
      · rw [run₂, stream₂]
        exact ReadAs.after did₂ fd₂ (payload (sends₁.later did₂.later) client₂ _)
      · rw [run₂]
        refine .cut did₂ fd₂ fun smooth => ?_
        obtain ⟨short, empty⟩ := ended smooth
        rcases short with none | ⟨b, one⟩
        · rw [none]
          exact ⟨rfl, empty⟩
        · rw [one]
          exact ⟨rfl, empty⟩
    · rw [if_neg ext, if_neg fun eq => ext ((is 126).mp eq)]
      by_cases huge : b₁.toNat % 128 = 127
      · rw [if_pos huge, if_pos ((is 127).mpr huge)]
        exact refused_reads env sends₁ client₁
      · rw [if_neg huge, if_neg fun eq => huge ((is 127).mp eq), ← value]
        exact payload sends₁ client₁ _
  · rw [run₁]
    refine .cut did₁ fd₁ fun smooth => ?_
    obtain ⟨short, empty⟩ := ended smooth
    rcases short with none | ⟨b, one⟩
    · rw [none]
      exact ⟨rfl, empty⟩
    · rw [one]
      exact ⟨rfl, empty⟩

/-! ## One pass -/

/-- What a pass comes to: the frame dispatched, what the response buffer then holds or
nothing when the loop returns, the bridge, and the frames sent. -/
structure Turn (σ : Type) where
  frame : Option Frame
  next : Option Bytes
  bus : σ
  sent : List Frame

/-- A complete frame. -/
def answerTo (f : Frame) (response : Bytes) (bus : σ) : Turn σ :=
  if f.1 = wsOpcodeClose then ⟨some f, none, bus, [(wsOpcodeClose, f.2)]⟩
  else if f.1 = wsOpcodePing then ⟨some f, some response, bus, [(wsOpcodePong, f.2)]⟩
  else if f.1 ≠ wsOpcodeText ∧ f.1 ≠ wsOpcodeContinuation then
    ⟨some f, none, bus, [(wsOpcodeClose, [])]⟩
  else
    let reply := (canBridgeHandleWsText f.2 response wsResponseMax).run env bus
    ⟨some f, some reply.1.2, reply.2, [(wsOpcodeText, reply.1.2)]⟩

/-- Whatever the client has sent. -/
def turn (received : Received) (response : Bytes) (bus : σ) : Turn σ :=
  match received with
  | .truncated => ⟨none, none, bus, []⟩
  | .refused => ⟨none, none, bus, [(wsOpcodeClose, [])]⟩
  | .frame f => answerTo env f response bus

theorem answerTo_frame (f : Frame) (response : Bytes) (bus : σ) :
    (answerTo env f response bus).frame = some f := by
  unfold answerTo
  split
  · rfl
  split
  · rfl
  split
  · rfl
  · rfl

theorem dispatch_answers {s : Exchange σ} (sends : s.world.FineAt .send) (fd : Fd) {f : Frame}
    (fits : f.2.length ≤ wsMaxPayload) (response : Bytes) :
    ∃ s', Exchange.run env (Framed.dispatch fd f.1 f.2 response) s =
        ((answerTo env f response s.bus).next, s') ∧
      Did s s' (answerTo env f response s.bus).bus (answerTo env f response s.bus).sent ∧
      s'.world.inbound = s.world.inbound := by
  have short : f.2.length ≤ wsResponseMax := Nat.le_trans fits (by decide)
  unfold Framed.dispatch answerTo
  by_cases isClose : f.1 = wsOpcodeClose
  · rw [if_pos isClose, if_pos isClose, Exchange.run_bind]
    obtain ⟨s', run, did, inbound⟩ := frame_sent env sends fd wsOpcodeClose f.2
      (by decide) short
    exact ⟨s', by rw [run]; rfl, did, inbound⟩
  rw [if_neg isClose, if_neg isClose]
  by_cases isPing : f.1 = wsOpcodePing
  · rw [if_pos isPing, if_pos isPing, Exchange.run_bind]
    obtain ⟨s', run, did, inbound⟩ := frame_sent env sends fd wsOpcodePong f.2
      (by decide) short
    exact ⟨s', by rw [run]; rfl, did, inbound⟩
  rw [if_neg isPing, if_neg isPing]
  by_cases other : f.1 ≠ wsOpcodeText ∧ f.1 ≠ wsOpcodeContinuation
  · rw [if_pos other, if_pos other, Exchange.run_bind]
    obtain ⟨s', run, did, inbound⟩ := frame_sent env sends fd wsOpcodeClose []
      (by decide) (Nat.zero_le _)
    exact ⟨s', by rw [run]; rfl, did, inbound⟩
  rw [if_neg other, if_neg other, Exchange.run_bind, Exchange.run_bridge]
  have fits := (canBridgeHandleWsText_fits (show 0 < wsResponseMax by decide) f.2 response).run
    env s.bus
  let t : Exchange σ :=
    { s with bus := ((canBridgeHandleWsText f.2 response wsResponseMax).run env s.bus).2 }
  obtain ⟨s', run, did, inbound⟩ := frame_sent env (s := t) sends fd wsOpcodeText _ (by decide)
    (Nat.le_of_lt fits)
  refine ⟨s', ?_, ⟨did.later, did.bus, did.sent, did.log, did.known⟩, inbound⟩
  rw [Exchange.run_bind, run]
  rfl

/-- What a pass comes to: it forwards what the bridge printed, the poll times out, the frame
that the reference decoder reads is handled, or a call fails. -/
inductive Passed (s : Exchange σ) (client : WebsocketClient) (rx : (Int × Bytes) × σ) :
    Pass × Exchange σ → Prop
  | forwarded {s' : Exchange σ} (ok : rx.1.1 = 0) (did : Did s s' rx.2 [(wsOpcodeText, rx.1.2)])
      (rest : unread client s'.world = unread client s.world) :
      Passed s client rx (⟨none, client, some rx.1.2⟩, s')
  | waited {s' : Exchange σ} (none : rx.1.1 ≠ 0) (did : Did s s' rx.2 [])
      (rest : unread client s'.world = unread client s.world)
      (fewer : (s'.world.fates .poll).length < (s.world.fates .poll).length) :
      Passed s client rx (⟨.none, client, some rx.1.2⟩, s')
  | read {client' : WebsocketClient} {s' : Exchange σ} (none : rx.1.1 ≠ 0)
      (rest : unread client' s'.world = (decodeClient wsMaxPayload (unread client s.world)).2)
      (did : Did s s'
        (turn env (decodeClient wsMaxPayload (unread client s.world)).1 rx.1.2 rx.2).bus
        (turn env (decodeClient wsMaxPayload (unread client s.world)).1 rx.1.2 rx.2).sent) :
      Passed s client rx
        (⟨(turn env (decodeClient wsMaxPayload (unread client s.world)).1 rx.1.2 rx.2).frame,
          client', (turn env (decodeClient wsMaxPayload (unread client s.world)).1 rx.1.2
            rx.2).next⟩, s')
  | failed {client' : WebsocketClient} {s' : Exchange σ} (failing : ¬ s.world.Smooth)
      (did : Did s s' rx.2 []) : Passed s client rx (⟨none, client', .none⟩, s')

/-- A pass that reads. -/
theorem clientPass_passed {s t : Exchange σ} (sends : s.world.FineAt .send)
    (client : WebsocketClient) {rx : (Int × Bytes) × σ} (none : rx.1.1 ≠ 0) (did : Did s t rx.2 [])
    (same : unread client t.world = unread client s.world) :
    Passed env s client rx (Exchange.run env (Framed.clientPass client rx.1.2) t) := by
  have reads := readFrame_reads env (sends.later did.later) client
  unfold Framed.clientPass
  rw [Exchange.run_bind]
  rcases ran : Exchange.run env (Framed.readFrame client) t with ⟨⟨read, client₁⟩, s₁⟩
  rw [ran] at reads
  rcases reads.outcome with ⟨received, rest, did₁⟩ | ⟨failing, failed, did₁⟩
  · rw [same] at received rest did₁
    rcases decoded : decodeClient wsMaxPayload (unread client s.world) with ⟨front, behind⟩
    have ofTurn {frame : Option Frame} {next : Option Bytes} {s' : Exchange σ}
        (rest : unread client₁ s'.world = behind) (did : Did s s' (turn env front rx.1.2 rx.2).bus
          (turn env front rx.1.2 rx.2).sent)
        (frame_eq : (turn env front rx.1.2 rx.2).frame = frame)
        (next_eq : (turn env front rx.1.2 rx.2).next = next) :
        Passed env s client rx (⟨frame, client₁, next⟩, s') := by
      have fronts : front = (decodeClient wsMaxPayload (unread client s.world)).1 := by rw [decoded]
      subst frame_eq next_eq fronts
      exact .read none (by rw [decoded]; exact rest) did
    rw [decoded] at received rest did₁
    have both := did.trans did₁
    rw [did.bus] at both
    cases read with
    | failed =>
        obtain rfl : Received.truncated = front := received
        exact ofTurn rest both rfl rfl
    | refused =>
        obtain rfl : Received.refused = front := received
        exact ofTurn rest both rfl rfl
    | frame opcode payload =>
        obtain rfl : Received.frame (opcode, payload) = front := received
        have quiet : Did s s₁ rx.2 [] := both
        obtain ⟨s', run, did', inbound⟩ := dispatch_answers env (sends.later both.later) client₁.fd
          (f := (opcode, payload)) (decodeClient_fits decoded) rx.1.2
        rw [quiet.bus] at run did'
        show Passed env s client rx (Exchange.run env
          (Framed.dispatch client₁.fd opcode payload rx.1.2 >>= _) s₁)
        rw [Exchange.run_bind, run]
        refine ofTurn ?_ (quiet.trans did') (answerTo_frame env _ _ _) rfl
        unfold unread
        rw [inbound]
        exact rest
  · have both := did.trans did₁
    rw [did.bus] at both
    obtain rfl : read = .failed := failed
    exact .failed (fun smooth => failing (smooth.later did.later)) both

/-- A poll that times out takes that fate; in a smooth world no poll fails. -/
theorem serve_poll (w : World) (fd : Fd) :
    ∃ answer w', World.serve (.poll fd pollTimeoutMs) w = (answer, w') ∧ World.Later w w' ∧
      w'.sent = w.sent ∧ w'.inbound = w.inbound ∧
      (answer = .ok 0 ∧ (w'.fates .poll).length < (w.fates .poll).length ∨ answer = .ok 1 ∨
        ¬ w.Smooth ∧ ∃ e, answer = .error e) := by
  have later := World.fatesAfter_suffix w .poll
  cases fails : (w.fate .poll).fail with
  | some e =>
      refine ⟨.error e, { w with fates := w.fatesAfter .poll }, ?_, later, rfl, rfl,
        .inr (.inr ⟨fun smooth => ?_, e, rfl⟩)⟩
      · simp only [World.serve, HttpCall.kind, World.respond, fails]
      · rw [(smooth.fate .poll).1] at fails
        cases fails
  | none =>
      have served : World.serve (.poll fd pollTimeoutMs) w =
          (.ok (if (w.fate .poll).timeout then 0 else 1),
            { w with fates := w.fatesAfter .poll }) := by
        simp only [World.serve, HttpCall.kind, World.respond, fails]
        rfl
      refine ⟨_, _, served, later, rfl, rfl, ?_⟩
      cases timeout : (w.fate .poll).timeout with
      | false => exact .inr (.inl rfl)
      | true =>
          refine .inl ⟨rfl, ?_⟩
          show (w.fatesAfter .poll .poll).length < _
          rw [World.fatesAfter, if_pos rfl]
          cases fates : w.fates .poll with
          | nil =>
              rw [World.fate, fates] at timeout
              cases timeout
          | cons fate rest => exact Nat.lt_succ_self _

theorem echoPass_passed {s : Exchange σ} (sends : s.world.FineAt .send) (client : WebsocketClient)
    (response : Bytes) :
    Passed env s client ((canBridgeFormatNextRx response wsResponseMax).run env s.bus)
      (Exchange.run env (Framed.echoPass client response) s) := by
  have fits := (canBridgeFormatNextRx_fits response).run env s.bus
  unfold Framed.echoPass
  rw [Exchange.run_bind, Exchange.run_bridge]
  generalize (canBridgeFormatNextRx response wsResponseMax).run env s.bus = rx at fits ⊢
  let t : Exchange σ := { s with bus := rx.2 }
  have start : Did s t rx.2 [] :=
    ⟨World.Later.refl _, rfl, (List.append_nil _).symm, (List.append_nil _).symm,
      fun _ member => absurd member List.not_mem_nil⟩
  by_cases printed : rx.1.1 = 0
  · obtain ⟨s', run, did, inbound⟩ := frame_sent env (s := t) sends client.fd wsOpcodeText
      rx.1.2 (by decide) (Nat.le_of_lt (fits printed))
    simp only [if_pos printed]
    rw [Exchange.run_bind, run]
    refine .forwarded printed (start.trans did) ?_
    unfold unread
    rw [inbound]
  simp only [if_neg printed]
  by_cases through : client.pendingPos ≥ client.pending.length
  · rw [if_pos through, Exchange.run_bind,
      Exchange.run_calls env (p := perform (.poll _ _)) ⟨trivial, fun _ => trivial⟩]
    obtain ⟨answer, w', served, later, sent, inbound, outcome⟩ := serve_poll s.world client.fd
    have polled : runIn (perform (.poll client.fd pollTimeoutMs)) t.world = (answer, w') := served
    have did := start.trans (Did.ofWorld t later sent)
    have same : unread client w' = unread client s.world := by
      unfold unread
      rw [inbound]
    rw [polled]
    rcases outcome with ⟨rfl, fewer⟩ | rfl | ⟨failing, e, rfl⟩
    · exact .waited printed did same fewer
    · exact clientPass_passed env sends client printed did same
    · exact .failed failing did
  · rw [if_neg through]
    exact clientPass_passed env sends client printed start rfl

/-! ## The loop -/

/-- The opcodes behind which the loop does not go on. -/
def EndsSession (opcode : UInt8) : Prop :=
  opcode ≠ wsOpcodePing ∧ opcode ≠ wsOpcodeText ∧ opcode ≠ wsOpcodeContinuation

instance : DecidablePred EndsSession := fun _ => inferInstanceAs (Decidable (_ ∧ _ ∧ _))

/-- The stream of a client by the reference decoder. -/
def decoded (stream : Bytes) : Decoded := decodeStream wsMaxPayload EndsSession stream

/-- The control frame that answers a frame of the client. -/
def controlReply (f : Frame) : Option Frame :=
  if f.1 = wsOpcodeClose then some (wsOpcodeClose, f.2)
  else if f.1 = wsOpcodePing then some (wsOpcodePong, f.2)
  else if f.1 ≠ wsOpcodeText ∧ f.1 ≠ wsOpcodeContinuation then some (wsOpcodeClose, [])
  else none

/-- The control frames that answer a stream. -/
def controlReplies (d : Decoded) : List Frame :=
  d.frames.filterMap controlReply ++ if d.refused then [(wsOpcodeClose, [])] else []

/-- The control frames among those sent. -/
def controls (frames : List Frame) : List Frame := frames.filter fun f => IsControl f.1

theorem answerTo_next (f : Frame) (response : Bytes) (bus : σ) :
    (answerTo env f response bus).next = none ↔ EndsSession f.1 := by
  unfold answerTo
  by_cases isClose : f.1 = wsOpcodeClose
  · rw [if_pos isClose, isClose]
    exact iff_of_true rfl (by decide)
  rw [if_neg isClose]
  by_cases isPing : f.1 = wsOpcodePing
  · rw [if_pos isPing, isPing]
    exact iff_of_false (Option.some_ne_none _) (by decide)
  rw [if_neg isPing]
  by_cases other : f.1 ≠ wsOpcodeText ∧ f.1 ≠ wsOpcodeContinuation
  · rw [if_pos other]
    exact iff_of_true rfl ⟨isPing, other⟩
  · rw [if_neg other]
    exact iff_of_false (Option.some_ne_none _) fun ends => other ends.2

theorem answerTo_controls (f : Frame) (response : Bytes) (bus : σ) :
    controls (answerTo env f response bus).sent = (controlReply f).toList := by
  unfold answerTo controlReply
  by_cases isClose : f.1 = wsOpcodeClose
  · rw [if_pos isClose, if_pos isClose]
    rfl
  rw [if_neg isClose, if_neg isClose]
  by_cases isPing : f.1 = wsOpcodePing
  · rw [if_pos isPing, if_pos isPing]
    rfl
  rw [if_neg isPing, if_neg isPing]
  by_cases other : f.1 ≠ wsOpcodeText ∧ f.1 ≠ wsOpcodeContinuation
  · rw [if_pos other, if_pos other]
    rfl
  · rw [if_neg other, if_neg other]
    rfl

theorem controls_append (frames frames' : List Frame) :
    controls (frames ++ frames') = controls frames ++ controls frames' := List.filter_append ..

/-- The loop returns after a pass that ends it. -/
theorem loop_ends {fuel : Nat} {client client' : WebsocketClient} {response : Bytes}
    {s s' : Exchange σ} {frame : Option Frame}
    (pass : Exchange.run env (Framed.echoPass client response) s = (⟨frame, client', none⟩, s')) :
    Exchange.run env (Framed.websocketEchoLoop (fuel + 1) client response) s =
      (some (frame.toList, client'), s') := by
  rw [Framed.websocketEchoLoop, Exchange.run_bind, pass]
  rfl

/-- After any other pass it goes on. -/
theorem loop_goes_on {fuel : Nat} {client client' : WebsocketClient} {response response' : Bytes}
    {s s' : Exchange σ} {frame : Option Frame}
    (pass : Exchange.run env (Framed.echoPass client response) s =
      (⟨frame, client', some response'⟩, s')) :
    Exchange.run env (Framed.websocketEchoLoop (fuel + 1) client response) s =
      ((Exchange.run env (Framed.websocketEchoLoop fuel client' response') s').1.map
          fun rest => (frame.toList ++ rest.1, rest.2),
        (Exchange.run env (Framed.websocketEchoLoop fuel client' response') s').2) := by
  rw [Framed.websocketEchoLoop, Exchange.run_bind, pass]
  show Exchange.run env (Framed.websocketEchoLoop fuel client' response' >>= _) s' = _
  rw [Exchange.run_bind]
  rcases Exchange.run env (Framed.websocketEchoLoop fuel client' response') s' with
    ⟨_ | ⟨frames, client''⟩, s''⟩
  · rfl
  · rfl

/-- What a loop of `fuel` passes makes of a stream: the control frames it sends begin the
answers to the stream, and when it has returned with no call failing, it has dispatched the
frames of the stream, left the rest unread and sent all of the answers. -/
structure Serves (s : Exchange σ) (stream : Bytes)
    (result : Option (List Frame × WebsocketClient) × Exchange σ) (out : List Frame) : Prop where
  did : Did s result.2 result.2.bus out
  replies : controls out <+: controlReplies (decoded stream)
  returned : s.world.Smooth → ∀ frames client, result.1 = some (frames, client) →
    frames = (decoded stream).frames ∧ unread client result.2.world = (decoded stream).rest ∧
      controls out = controlReplies (decoded stream)

theorem controlReplies_cons (f : Frame) (d : Decoded) :
    controlReplies { d with frames := f :: d.frames } =
      (controlReply f).toList ++ controlReplies d := by
  unfold controlReplies
  cases reply : controlReply f with
  | none => simp [reply]
  | some g => simp [reply]

/-- The passes behind one that leaves the stream alone. -/
theorem Serves.behind {s s' : Exchange σ} {stream : Bytes} {out sent : List Frame} {bus : σ}
    {result : Option (List Frame × WebsocketClient) × Exchange σ} (did : Did s s' bus sent)
    (silent : controls sent = []) (rest : Serves s' stream result out) :
    Serves s stream (result.1.map fun r => ([] ++ r.1, r.2), result.2) (sent ++ out) := by
  have same : controls (sent ++ out) = controls out := by
    rw [controls_append, silent, List.nil_append]
  refine ⟨did.trans rest.did, same ▸ rest.replies, fun smooth frames client returned => ?_⟩
  rw [same]
  obtain ⟨⟨frames', client'⟩, ran, eq⟩ := Option.map_eq_some_iff.mp returned
  obtain ⟨rfl, rfl⟩ := Prod.mk.inj eq
  exact rest.returned (smooth.later did.later) _ _ ran

theorem loop_serves (fuel : Nat) (client : WebsocketClient) (response : Bytes) {s : Exchange σ}
    (sends : s.world.FineAt .send) :
    ∃ out, Serves s (unread client s.world)
      (Exchange.run env (Framed.websocketEchoLoop fuel client response) s) out := by
  induction fuel generalizing client response s with
  | zero => exact ⟨[], Did.refl s, List.nil_prefix, fun _ _ _ returned => by cases returned⟩
  | succ fuel ih =>
      have passed := echoPass_passed env sends client response
      generalize (canBridgeFormatNextRx response wsResponseMax).run env s.bus = rx at passed
      rcases pass : Exchange.run env (Framed.echoPass client response) s with ⟨result, s'⟩
      rw [pass] at passed
      cases passed with
      -- a pass that forwards or waits reads nothing of the stream
      | forwarded ok did rest =>
          obtain ⟨out, serves⟩ := ih client rx.1.2 (sends.later did.later)
          rw [rest] at serves
          rw [loop_goes_on env pass]
          exact ⟨_, serves.behind did rfl⟩
      | waited none did rest fewer =>
          obtain ⟨out, serves⟩ := ih client rx.1.2 (sends.later did.later)
          rw [rest] at serves
          rw [loop_goes_on env pass]
          exact ⟨_, serves.behind did rfl⟩
      -- after a send that failed nothing is owed
      | failed failing did =>
          rw [loop_ends env pass]
          exact ⟨[], ⟨did.later, rfl, did.sent, did.log, did.known⟩, List.nil_prefix,
            fun smooth => absurd smooth failing⟩
      | @read client' _ none rest did =>
          have decodes : decoded (unread client s.world) = _ := decodeStream_eq ..
          rcases read : decodeClient wsMaxPayload (unread client s.world) with ⟨front, behind⟩
          rw [read] at pass rest did decodes
          cases front with
          | truncated =>
              rw [loop_ends env pass]
              refine ⟨[], ⟨did.later, rfl, did.sent, did.log, did.known⟩, List.nil_prefix, ?_⟩
              rintro - _ _ ⟨rfl, rfl⟩
              rw [decodes]
              exact ⟨rfl, rest, rfl⟩
          | refused =>
              rw [loop_ends env pass]
              have replies : controls [(wsOpcodeClose, [])] =
                  controlReplies (decoded (unread client s.world)) := by rw [decodes]; rfl
              refine ⟨_, ⟨did.later, rfl, did.sent, did.log, did.known⟩,
                replies ▸ List.prefix_rfl, ?_⟩
              rintro - _ _ ⟨rfl, rfl⟩
              rw [decodes]
              exact ⟨rfl, rest, rfl⟩
          | frame f =>
              have answer := answerTo_controls env f rx.1.2 rx.2
              simp only [turn, answerTo_frame] at pass did
              -- a CLOSE, and every opcode the loop does not know, ends the session
              by_cases ends : EndsSession f.1
              · rw [(answerTo_next env f rx.1.2 rx.2).mpr ends] at pass
                have decodes : decoded (unread client s.world) = ⟨[f], false, behind⟩ :=
                  decodes.trans (if_pos ends)
                have replies : controls (answerTo env f rx.1.2 rx.2).sent =
                    controlReplies (decoded (unread client s.world)) := by
                  rw [answer, decodes]
                  exact ((controlReplies_cons f ⟨[], false, behind⟩).trans
                    (List.append_nil _)).symm
                rw [loop_ends env pass]
                refine ⟨_, ⟨did.later, rfl, did.sent, did.log, did.known⟩,
                  replies ▸ List.prefix_rfl, ?_⟩
                rintro - _ _ ⟨rfl, rfl⟩
                rw [decodes]
                exact ⟨rfl, rest, decodes ▸ replies⟩
              · obtain ⟨response', next⟩ := Option.ne_none_iff_exists'.mp
                  (mt (answerTo_next env f rx.1.2 rx.2).mp ends)
                rw [next] at pass
                have decodes : decoded (unread client s.world) =
                    { decoded behind with frames := f :: (decoded behind).frames } :=
                  decodes.trans (if_neg ends)
                obtain ⟨out, serves⟩ := ih client' response' (sends.later did.later)
                rw [rest] at serves
                rw [loop_goes_on env pass]
                refine ⟨_, did.trans serves.did, ?_, fun smooth frames client'' returned => ?_⟩
                · rw [controls_append, answer, decodes, controlReplies_cons]
                  exact (List.prefix_append_right_inj _).mpr serves.replies
                · obtain ⟨⟨frames', client₂⟩, ran, eq⟩ := Option.map_eq_some_iff.mp returned
                  obtain ⟨rfl, rfl⟩ := Prod.mk.inj eq
                  obtain ⟨all, left, replies⟩ := serves.returned (smooth.later did.later) _ _ ran
                  rw [controls_append, answer, replies, decodes, controlReplies_cons, all]
                  exact ⟨rfl, left, rfl⟩

end PicoCan.Http
