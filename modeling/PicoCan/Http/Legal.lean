import PicoCan.Http.Stream

/-!
# What a strict client makes of the output

A strict client takes a control frame of at most 125 bytes and nothing else. The loop echoes
the payload of a PING and of a CLOSE, and its check of a client's frame bounds every payload
by 256 bytes alone: that is the only way to an illegal frame.
-/

namespace PicoCan.Http

open Calls Frames
open PicoCan.Can (wsResponseMax)

/-- `send_websocket_frame` writes the shortest form. -/
theorem frameBytes_eq {f : Frame} (known : f.1 ∈ [wsOpcodeText, wsOpcodeClose, wsOpcodePong])
    (short : f.2.length < 65536) : frameBytes f = serverFrame f := by
  have first : 0x80 ||| f.1 = 128 + f.1 := by
    simp only [List.mem_cons, List.not_mem_nil, or_false] at known
    rcases known with eq | eq | eq
    · rw [eq]
      decide
    · rw [eq]
      decide
    · rw [eq]
      decide
  unfold frameBytes frameHeader serverFrame lengthBytes
  rw [first]
  by_cases small : f.2.length ≤ 125
  · rw [if_pos small, if_pos small, Nat.zero_add]
    rfl
  · rw [if_neg small, if_neg small, if_pos short]
    rfl

/-- What a session has sent, read by a strict client, are the frames that were passed to
`send_websocket_frame`. -/
def ReadsBack {σ : Type} (env : BridgeEnv σ) (fuel : Nat) (client : WebsocketClient)
    (response : Bytes) (w : World) (bus : σ) : Prop :=
  let ran := (websocketEchoLoop fuel client response).run (serveAt env) (w, bus)
  decodeServer (ran.2.1.sent.drop w.sent.length) =
    some ((session env fuel client response w bus).log.map (·.frame))

/-- No PING and no CLOSE of the stream is over 125 bytes. -/
def ShortControls (stream : Bytes) : Prop :=
  ∀ f ∈ (decoded stream).frames, f.1 = wsOpcodePing ∨ f.1 = wsOpcodeClose → f.2.length ≤ 125

theorem controlReply_legal (f : Frame) :
    (f.1 = wsOpcodePing ∨ f.1 = wsOpcodeClose → f.2.length ≤ 125) ↔
      ∀ reply ∈ controlReply f, reply.2.length ≤ 125 := by
  unfold controlReply
  by_cases isClose : f.1 = wsOpcodeClose
  · rw [if_pos isClose]
    simp [isClose]
  rw [if_neg isClose]
  by_cases isPing : f.1 = wsOpcodePing
  · rw [if_pos isPing]
    simp [isPing]
  rw [if_neg isPing]
  refine iff_of_true (fun echoed => (echoed.elim isPing isClose).elim) fun reply member => ?_
  by_cases other : f.1 ≠ wsOpcodeText ∧ f.1 ≠ wsOpcodeContinuation
  · rw [if_pos other] at member
    cases member
    exact Nat.zero_le _
  · rw [if_neg other] at member
    cases member

/-- The answers to a stream are short if the controls of the stream are. -/
theorem controlReplies_short (stream : Bytes) :
    (∀ reply ∈ controlReplies (decoded stream), reply.2.length ≤ 125) ↔ ShortControls stream := by
  constructor
  · intro short f member
    refine (controlReply_legal f).mpr fun reply answers => short reply ?_
    exact List.mem_append_left _ (List.mem_filterMap.mpr ⟨f, member, answers⟩)
  · intro short reply member
    rcases List.mem_append.mp member with answers | refusal
    · obtain ⟨f, met, answers⟩ := List.mem_filterMap.mp answers
      exact (controlReply_legal f).mp (short f met) reply answers
    · cases refused : (decoded stream).refused with
      | false =>
          rw [refused] at refusal
          exact absurd refusal List.not_mem_nil
      | true =>
          rw [refused] at refusal
          rw [List.mem_singleton.mp refusal]
          exact Nat.zero_le _

theorem legal_controls (out : List Frame) :
    (∀ f ∈ out, Legal f) ↔ ∀ f ∈ controls out, f.2.length ≤ 125 := by
  constructor
  · intro legal f member
    obtain ⟨met, control⟩ := List.mem_filter.mp member
    exact legal f met (of_decide_eq_true control)
  · intro short f met control
    exact short f (List.mem_filter.mpr ⟨met, decide_eq_true control⟩)

/-- The output reads back exactly if all that was sent is legal. -/
theorem readsBack_iff {σ : Type} (env : BridgeEnv σ) (fuel : Nat) (client : WebsocketClient)
    (response : Bytes) {w : World} {bus : σ} {out : List Frame}
    (did : Did { world := w, bus } (session env fuel client response w bus)
      (session env fuel client response w bus).bus out) :
    ReadsBack env fuel client response w bus ↔ ∀ f ∈ controls out, f.2.length ≤ 125 := by
  have short : ∀ f ∈ out, f.2.length < 65536 := fun f met =>
    Nat.lt_of_le_of_lt (did.known f met).2 (by decide)
  have known : ∀ f ∈ out, f.1 ∈ [text, close, ping, pong] := by
    intro f met
    have kind := (did.known f met).1
    simp only [List.mem_cons, List.not_mem_nil, or_false] at kind ⊢
    rcases kind with eq | eq | eq
    · exact .inl eq
    · exact .inr (.inl eq)
    · exact .inr (.inr (.inr eq))
  have bytes : out.flatMap frameBytes = out.flatMap serverFrame := by
    rw [List.flatMap_def, List.flatMap_def,
      List.map_congr_left fun f met => frameBytes_eq (did.known f met).1 (short f met)]
  rw [← legal_controls, ← decodeServer_serverFrames known short, ← bytes]
  unfold ReadsBack
  simp only [session_run]
  rw [did.sent, did.log]
  show decodeServer ((w.sent ++ _).drop w.sent.length) = some ([] ++ out) ↔ _
  rw [List.drop_left, List.nil_append]

/-- A session that sends without failures is read back by a strict client, as long as the
client's PINGs and CLOSEs carry at most 125 bytes; where no call fails, a session that
returns is read back in no other case. -/
theorem output_reads_back {σ : Type} (env : BridgeEnv σ) (client : WebsocketClient)
    (response : Bytes) {w : World} (sends : w.FineAt .send) (bus : σ) :
    (ShortControls (unread client w) → ∀ fuel, ReadsBack env fuel client response w bus) ∧
    (w.Smooth → ∀ fuel,
      ((websocketEchoLoop fuel client response).run (serveAt env) (w, bus)).1 ≠ none →
      (ReadsBack env fuel client response w bus ↔ ShortControls (unread client w))) := by
  have serves (fuel : Nat) := loop_serves env fuel client response (s := { world := w, bus }) sends
  constructor
  · intro short fuel
    obtain ⟨out, did, replies, -⟩ := serves fuel
    refine (readsBack_iff env fuel client response did).mpr fun f member => ?_
    exact (controlReplies_short _).mpr short f (replies.subset member)
  · intro smooth fuel returned
    obtain ⟨out, did, -, returns⟩ := serves fuel
    have ran := websocketEchoLoop_run env fuel client response { world := w, bus }
    obtain ⟨⟨frames, client'⟩, result⟩ := Option.ne_none_iff_exists'.mp returned
    obtain ⟨-, -, all⟩ := returns smooth frames client' ((congrArg Prod.fst ran).symm.trans result)
    rw [readsBack_iff env fuel client response did, all]
    exact controlReplies_short _

/-- A PING of 126 bytes, and nothing more. -/
def longPing : WebsocketClient where
  fd := 3
  pending := clientFrame [0, 0, 0, 0] (ping, List.replicate 126 7)

/-- A text, and a PING of as many bytes as a control frame carries. -/
def textAndPing : WebsocketClient where
  fd := 3
  pending := clientFrame [1, 2, 3, 4] (text, List.replicate 126 7) ++
    clientFrame [0, 0, 0, 0] (ping, List.replicate 125 7)

theorem output_reads_back_textAndPing :
    ReadsBack quietBridge 4 textAndPing [] { disk := Disk.blank } () ∧
      ¬ ReadsBack quietBridge 4 longPing [] { disk := Disk.blank } () := by
  have smooth : World.Smooth { disk := Disk.blank } :=
    fun _ _ member => absurd member List.not_mem_nil
  have short : ShortControls (unread textAndPing { disk := Disk.blank }) := by
    unfold ShortControls
    decide +kernel
  have long : ¬ ShortControls (unread longPing { disk := Disk.blank }) := by
    unfold ShortControls
    decide +kernel
  have returned : ((websocketEchoLoop 4 longPing []).run (serveAt quietBridge)
      ({ disk := Disk.blank }, ())).1 ≠ none := by
    rw [ne_eq, ← Option.isNone_iff_eq_none]
    decide +kernel
  constructor
  · exact (output_reads_back quietBridge textAndPing [] (smooth .send) ()).1 short 4
  · intro reads
    exact long (((output_reads_back quietBridge longPing [] (smooth .send) ()).2 smooth 4
      returned).mp reads)

/-- A PING is echoed over 125 bytes, and a strict client refuses the answer. -/
theorem long_pong_refused :
    ¬ ∀ (client : WebsocketClient) (fuel : Nat),
      ReadsBack quietBridge fuel client [] { disk := Disk.blank } () := by
  intro reads
  have refused : ¬ ReadsBack quietBridge 2 longPing [] { disk := Disk.blank } () := by
    unfold ReadsBack
    decide +kernel
  exact refused (reads longPing 2)

end PicoCan.Http
