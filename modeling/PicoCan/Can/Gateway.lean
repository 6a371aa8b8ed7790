import Mathlib.Data.List.Forall2
import PicoCan.Calls.Relay
import PicoCan.Can.Pipeline
import PicoCan.Can.Receive

/-!
# The bridge as a relay

Between its WebSocket thread, its worker and the driver's callback the bridge does what an
atomic relay does: every job takes effect at one of its calls (`relaySpec` says at which),
the worker's step is `can_send`, the driver's is the callback. A job's reply tells which
operation of the relay it was (`Explains`), and what arrives at the relay is what the bus
brings, frame by frame (`arrivals`).

Switching the stream is the one job that takes two calls. It takes effect at the write of
the flag, and the purge that comes before or after is not seen: before it, nothing arrives
while the flag is off; after it, the thread that would see the queue is the one that purges
it. Only on a stream that is already on is the purge the point where it takes effect.
-/

namespace PicoCan.Can

open Calls Machine

/-! ## Calls that move no frame -/

def Frameless (c : CanCall) : Prop :=
  match c with
  | .canSendSubmit _ _ | .canSendWait | .txPut _ | .txGet | .rxPut _ | .rxGet | .rxPurge
  | .rxStreamingGet | .rxStreamingSet _ => False
  | _ => True

/-- What the relay shows of a bridge is the same. -/
structure SameFrames (b b' : Bridge) : Prop where
  sent : b'.sent = b.sent
  inHand : b'.inHand = b.inHand
  txQueue : b'.txQueue = b.txQueue
  rxQueue : b'.rxQueue = b.rxQueue
  rxStreaming : b'.rxStreaming = b.rxStreaming
  accepted : b'.accepted = b.accepted

theorem exec_frameless {parse : Bytes → ParseResult} {t : Thread} {c : CanCall}
    (still : Frameless c) {o : Outcome} {b b' : Bridge} {r : c.Answer}
    (hexec : exec parse t c o b = some (r, b')) : SameFrames b b' := by
  cases c <;> simp only [exec] at hexec
  case canSendSubmit | canSendWait | txPut | txGet | rxPut | rxGet | rxPurge | rxStreamingGet
    | rxStreamingSet => exact still.elim
  case numUsedGet q | numFreeGet q =>
    cases q <;> cases hexec <;> exact ⟨rfl, rfl, rfl, rfl, rfl, rfl⟩
  case canGetState | canAddRxFilter | mutexLock | mutexUnlock =>
    split at hexec <;> cases hexec <;> exact ⟨rfl, rfl, rfl, rfl, rfl, rfl⟩
  all_goals cases hexec; exact ⟨rfl, rfl, rfl, rfl, rfl, rfl⟩

/-! ## One job -/

/-- How far a job has come: it has done nothing yet, it has switched the stream off and not
purged the queue, it has done its operation. -/
inductive Phase
  | todo
  | draining
  | did (op : RelayOp CanFrame)

def Phase.ops : Phase → List (RelayOp CanFrame)
  | .todo => []
  | .draining => [.stream false]
  | .did op => [op]

theorem Phase.todo_settled : Phase.todo ≠ .draining := by
  intro same
  cases same

theorem Phase.did_settled (op : RelayOp CanFrame) : Phase.did op ≠ .draining := by
  intro same
  cases same

/-- What the WebSocket thread knows of the relay: the flag, which nobody else writes, and
its phase. -/
structure Progress where
  streaming : Bool
  phase : Phase

section Jobs

variable (parse : Bytes → ParseResult)

/-- Where the calls of the WebSocket thread take effect. -/
def relaySpec : Spec CanCall.Answer Progress := fun c post v =>
  match c, v.phase with
  | .txPut frame, .todo =>
      ∀ (ret : Int) v', (ret = 0 ∧ v' = { v with phase := .did (.submit frame true) }) ∨
        (ret = -eNoMsg ∧ v' = { v with phase := .did (.submit frame false) }) → post ret v'
  | .rxGet, .todo => ∀ next : Option CanFrame, post next { v with phase := .did (.fetch next) }
  | .rxPurge, .todo =>
      post () (if v.streaming then { v with phase := .did (.stream true) } else v)
  | .rxPurge, .draining => post () { v with phase := .did (.stream false) }
  | .rxStreamingSet true, .todo => v.streaming = false ∧ post () ⟨true, .did (.stream true)⟩
  | .rxStreamingSet true, .did _ => v.streaming = true ∧ post () v
  | .rxStreamingSet false, .todo => post () ⟨false, .draining⟩
  | .jsonObjParse json, _ => ∀ answer, parse json = answer → post answer v
  | c, _ => Frameless c ∧ ∀ r, post r v

/-- The reply of a fetch tells the frame: all of it if it is a classical one, and its head
whatever length the bus has given it. -/
structure Tells (reply : Reply) (frame : CanFrame) : Prop where
  reads : frame.dlc.toNat ≤ 8 → reply.1 = 0 ∧ ReadsFrame reply.2 frame
  head : frame.dlc.toNat ≤ 15 → reply.1 = 0 ∧ rxHeadText frame <+: reply.2

/-- How a job ends: what its reply says of the operation it was. -/
def Ends (job : Job) (reply : Reply) (v : Progress) : Prop :=
  match job with
  | .text payload =>
      (v.phase = .todo ∧ 0 ≤ reply.1) ∨
        ∃ msg fields, requestOf parse payload = .tx msg fields ∧
          (v.phase = .did (.submit (frameOfMessage msg) true) ∨
            (v.phase = .did (.submit (frameOfMessage msg) false) ∧ reply.1 = -eNoMsg))
  | .nextRx =>
      (v.phase = .did (.fetch none) ∧ reply.1 = -eAgain) ∨
        ∃ frame, v.phase = .did (.fetch (some frame)) ∧ reply.1 ≠ -eAgain ∧ Tells reply frame
  | .setRxStreaming enabled => v = ⟨enabled, .did (.stream enabled)⟩

variable {parse}

theorem relaySpec_skips {v : Progress} (c : CanCall) (post : c.Answer → Progress → Prop)
    (still : Frameless c) (after : ∀ r, post r v) : relaySpec parse c post v := by
  cases c <;> first | exact still.elim | exact ⟨trivial, after⟩ | exact fun _ _ => after _

/-- Code without a frame, all of whose replies have a length. -/
structure Unframed (p : CanProg Reply) : Prop where
  only : p.Only Frameless
  returns : p.Returns fun reply => 0 ≤ reply.1

theorem wsReply_nonneg (response : Bytes) (responseLen : Nat) (code message : String) (err : Int) :
    0 ≤ (wsReply response responseLen code message err).1 := Int.natCast_nonneg _

theorem Unframed.ret {reply : Reply} (nonneg : 0 ≤ reply.1) : Unframed (.ret reply) :=
  ⟨trivial, nonneg⟩

theorem Unframed.call {c : CanCall} {k : c.Answer → CanProg Reply} (still : Frameless c)
    (rest : ∀ r, Unframed (k r)) : Unframed (.call c k) :=
  ⟨⟨still, fun r => (rest r).only⟩, fun r => (rest r).returns⟩

theorem Unframed.bind {α : Type} {p : CanProg α} {f : α → CanProg Reply}
    (first : p.Only Frameless) (rest : ∀ a, Unframed (f a)) : Unframed (p >>= f) :=
  ⟨first.bind fun a => (rest a).only, (Prog.returns_true p).bind fun a _ => (rest a).returns⟩

theorem Unframed.ite {b : Prop} [Decidable b] {p q : CanProg Reply} (yes : Unframed p)
    (no : Unframed q) : Unframed (if b then p else q) := by
  split
  · exact yes
  · exact no

theorem Unframed.text {p : CanProg Reply} (unframed : Unframed p) {payload : Bytes}
    {streaming : Bool} :
    p.wp (relaySpec parse) (Ends parse (.text payload)) ⟨streaming, .todo⟩ :=
  unframed.only.wp_returns relaySpec_skips unframed.returns fun _ nonneg => .inl ⟨rfl, nonneg⟩

theorem canBridgeFormatStatus_unframed (response : Bytes) (responseLen : Nat) :
    Unframed (canBridgeFormatStatus response responseLen) := by
  refine .call trivial fun _ => .call trivial fun reading => .call trivial fun _ => ?_
  refine .ite (.ret (wsReply_nonneg _ _ _ _ _)) ?_
  refine .call trivial fun _ => .call trivial fun _ => .call trivial fun _ => ?_
  refine .call trivial fun _ => .call trivial fun _ => .call trivial fun _ => ?_
  exact .call trivial fun _ => .ret (Int.natCast_nonneg _)

theorem applyCanConfig_frameless (mode : CanMode) (bitrate : UInt32) :
    (applyCanConfig mode bitrate).Only Frameless := by
  refine ⟨trivial, fun ret => .ite (fun _ => trivial) fun _ => ?_⟩
  refine ⟨trivial, fun ret => .ite (fun _ => trivial) fun _ => ?_⟩
  refine ⟨trivial, fun ret => .ite (fun _ => trivial) fun _ => ?_⟩
  refine ⟨trivial, fun ret => .ite (fun _ => trivial) fun _ => ?_⟩
  exact ⟨trivial, fun _ => ⟨trivial, fun _ => ⟨trivial, fun _ => trivial⟩⟩⟩

theorem recoverCanConfig_frameless : recoverCanConfig.Only Frameless := by
  refine ⟨trivial, fun _ => ⟨trivial, fun ret => ?_⟩⟩
  exact .ite (fun _ => ⟨trivial, fun _ => ⟨trivial, fun _ => trivial⟩⟩)
    fun _ => ⟨trivial, fun _ => trivial⟩

theorem handleCanConfigSet_unframed (msg : CanJsonMessage) (fields : CanJsonField → Bool)
    (response : Bytes) (responseLen : Nat) :
    Unframed (handleCanConfigSet msg fields response responseLen) := by
  refine .call trivial fun _ => .call trivial fun _ => ?_
  refine .ite (.ret (wsReply_nonneg _ _ _ _ _)) (.ite (.ret (wsReply_nonneg _ _ _ _ _)) ?_)
  refine .call trivial fun _ => .call trivial fun _ =>
    .bind (p := applyCanConfig _ _) (applyCanConfig_frameless _ _) fun ret =>
      .call trivial fun _ => ?_
  refine .ite (.bind (p := recoverCanConfig) recoverCanConfig_frameless
    fun _ => .ret (wsReply_nonneg _ _ _ _ _)) ?_
  exact canBridgeFormatStatus_unframed _ _

theorem validateCanJson_nonneg (msg : CanJsonMessage) (fields : CanJsonField → Bool)
    (response : Bytes) (responseLen : Nat) :
    0 ≤ (validateCanJson msg fields response responseLen).1 := by
  rcases validateCanJson_checks msg fields with passed | ⟨code, message, err, -, refused⟩
  · have zero := congrArg Prod.fst (passed response responseLen)
    exact Int.le_of_eq zero.symm
  · rw [refused]
    exact wsReply_nonneg _ _ _ _ _

theorem handleCanTx_relays {payload : Bytes} {msg : CanJsonMessage}
    {fields : CanJsonField → Bool} (asked : requestOf parse payload = .tx msg fields)
    (response : Bytes) (streaming : Bool) :
    (handleCanTx msg fields response wsResponseMax).wp (relaySpec parse)
      (Ends parse (.text payload)) ⟨streaming, .todo⟩ := by
  have nonneg := validateCanJson_nonneg msg fields response wsResponseMax
  generalize checked : validateCanJson msg fields response wsResponseMax = reply at nonneg
  obtain ⟨ret, response'⟩ := reply
  simp only [handleCanTx, checked]
  refine (Prog.wp_ite _ _ _ _ _ _).mpr ⟨fun _ => .inl ⟨rfl, nonneg⟩, fun _ ret v' put => ?_⟩
  refine (Prog.wp_ite _ _ _ _ _ _).mpr ⟨fun neg => ?_, fun pos => ?_⟩
  · rcases put with ⟨rfl, -⟩ | ⟨rfl, rfl⟩
    · exact absurd neg (Int.lt_irrefl 0)
    · exact .inr ⟨msg, fields, asked, .inr ⟨rfl, rfl⟩⟩
  · -- queued: whatever is printed, the frame has been taken
    have printed : formatCanTxResponse msg response' wsResponseMax = _ :=
      formatCanTxResponse_eq response' fun us => txText_length_lt msg us
    rw [printed]
    rcases put with ⟨-, rfl⟩ | ⟨rfl, -⟩
    · exact ⟨trivial, fun us => .inr ⟨msg, fields, asked, .inl rfl⟩⟩
    · exact absurd (show -eNoMsg < 0 by decide) pos

theorem canBridgeHandleWsText_relays (payload response : Bytes) (streaming : Bool) :
    (canBridgeHandleWsText payload response wsResponseMax).wp (relaySpec parse)
      (Ends parse (.text payload)) ⟨streaming, .todo⟩ := by
  have refused : ∀ code message err,
      (Prog.ret (wsReply response wsResponseMax code message err) : CanProg Reply).wp
        (relaySpec parse) (Ends parse (.text payload)) ⟨streaming, .todo⟩ :=
    fun code message err => (Unframed.ret (wsReply_nonneg _ _ _ _ _)).text
  refine ⟨trivial, fun ready => (Prog.wp_ite _ _ _ _ _ _).mpr
    ⟨fun _ => refused _ _ _, fun _ => (Prog.wp_ite _ _ _ _ _ _).mpr
      ⟨fun _ => refused _ _ _, fun short answer parsed => ?_⟩⟩⟩
  cases answer with
  | error e => exact refused _ _ _
  | fields fields msg =>
      have asked : requestOf parse payload =
          if fields .type then
            if msg.type = some (lit "can.status") ∨ msg.type = some (lit "can.config.get") then
              .status
            else if msg.type = some (lit "can.config.set") then .configSet msg fields
            else if msg.type ≠ some (lit "can.tx") then .unsupported
            else .tx msg fields
          else .tx msg fields := by
        simp only [requestOf, if_neg short, parsed]
      refine (Prog.wp_ite _ _ _ _ _ _).mpr ⟨fun typed => ?_, fun untyped => ?_⟩
      · rw [if_pos typed] at asked
        refine (Prog.wp_ite _ _ _ _ _ _).mpr
          ⟨fun _ => (canBridgeFormatStatus_unframed _ _).text, fun other => ?_⟩
        rw [if_neg other] at asked
        refine (Prog.wp_ite _ _ _ _ _ _).mpr
          ⟨fun _ => (handleCanConfigSet_unframed _ _ _ _).text, fun other => ?_⟩
        rw [if_neg other] at asked
        refine (Prog.wp_ite _ _ _ _ _ _).mpr ⟨fun _ => refused _ _ _, fun tx => ?_⟩
        rw [if_neg tx] at asked
        exact handleCanTx_relays asked response streaming
      · rw [if_neg untyped] at asked
        exact handleCanTx_relays asked response streaming

theorem formatRxFrame_ret (frame : CanFrame) (response : Bytes) (responseLen : Nat) :
    (formatRxFrame frame response responseLen).Returns fun reply => reply.1 ≠ -eAgain := by
  have noMem : -eNoMem ≠ -eAgain := by decide
  simp only [formatRxFrame]
  split
  · exact noMem
  refine (Prog.returns_true _).bind fun printed _ => ?_
  split
  · exact noMem
  intro us
  simp only [Prog.bind]
  split
  · exact noMem
  · show (0 : Int) ≠ -eAgain
    decide

/-- A printer behind the dequeue of a frame. -/
theorem print_relays {p : CanProg Reply} (only : p.Only PrintCall) {frame : CanFrame}
    {streaming : Bool} (told : p.Returns fun reply => reply.1 ≠ -eAgain ∧ Tells reply frame) :
    p.wp (relaySpec parse) (Ends parse .nextRx) ⟨streaming, .did (.fetch (some frame))⟩ := by
  have frameless : p.Only Frameless := only.mono fun c print => by
    cases c <;> first | exact print.elim | trivial
  exact frameless.wp_returns relaySpec_skips told fun reply ended => .inr ⟨frame, rfl, ended⟩

theorem Tells.of_returns {p : CanProg Reply} {frame : CanFrame}
    (other : p.Returns fun reply => reply.1 ≠ -eAgain)
    (reads : frame.dlc.toNat ≤ 8 → p.Returns fun reply => reply.1 = 0 ∧ ReadsFrame reply.2 frame)
    (head : frame.dlc.toNat ≤ 15 →
      p.Returns fun reply => reply.1 = 0 ∧ rxHeadText frame <+: reply.2) :
    p.Returns fun reply => reply.1 ≠ -eAgain ∧ Tells reply frame := by
  by_cases classical : frame.dlc.toNat ≤ 8
  · have dlc := Nat.le_trans classical (by decide : 8 ≤ 15)
    refine (other.and ((reads classical).and (head dlc))).mono ?_
    rintro reply ⟨other, reads, head⟩
    exact ⟨other, fun _ => reads, fun _ => head⟩
  · by_cases dlc : frame.dlc.toNat ≤ 15
    · refine (other.and (head dlc)).mono ?_
      rintro reply ⟨other, head⟩
      exact ⟨other, fun small => absurd small classical, fun _ => head⟩
    · refine other.mono fun reply other => ?_
      exact ⟨other, fun small => absurd small classical, fun small => absurd small dlc⟩

variable (parse) in
theorem formatRxFrame_relays (frame : CanFrame) (response : Bytes) (streaming : Bool) :
    (formatRxFrame frame response wsResponseMax).wp (relaySpec parse) (Ends parse .nextRx)
      ⟨streaming, .did (.fetch (some frame))⟩ := by
  have only := formatRxFrame_only frame response wsResponseMax
  have other := formatRxFrame_ret frame response wsResponseMax
  have reads := fun classical : frame.dlc.toNat ≤ 8 => formatRxFrame_reads classical response
  have head := fun dlc : frame.dlc.toNat ≤ 15 => formatRxFrame_returns dlc response
  -- what the printer is does not matter any more
  generalize formatRxFrame frame response wsResponseMax = printer at only other reads head ⊢
  exact print_relays only (Tells.of_returns other reads head)

theorem fetch_relays {k : Option CanFrame → CanProg Reply} {streaming : Bool}
    (nothing : (k none).wp (relaySpec parse) (Ends parse .nextRx) ⟨streaming, .did (.fetch none)⟩)
    (received : ∀ frame, (k (some frame)).wp (relaySpec parse) (Ends parse .nextRx)
      ⟨streaming, .did (.fetch (some frame))⟩) :
    (Prog.call .rxGet k).wp (relaySpec parse) (Ends parse .nextRx) ⟨streaming, .todo⟩ := by
  intro next
  cases next with
  | none => exact nothing
  | some frame => exact received frame

/-- Every job takes effect where `relaySpec` says, and its reply tells what it was. -/
theorem job_relays (job : Job) (response : Bytes) (streaming : Bool) :
    (job.program response).wp (relaySpec parse) (Ends parse job) ⟨streaming, .todo⟩ := by
  cases job with
  | text payload => exact canBridgeHandleWsText_relays payload response streaming
  | nextRx =>
      have received := fun frame => formatRxFrame_relays parse frame response streaming
      exact fetch_relays (.inl ⟨rfl, rfl⟩) received
  | setRxStreaming enabled =>
      cases enabled with
      | false => exact rfl
      | true => cases streaming <;> exact ⟨rfl, rfl⟩

end Jobs

/-! ## The relation -/

/-- Which operation of the relay a finished job was, if any. -/
inductive Explains (parse : Bytes → ParseResult) :
    Job → Reply → List (RelayOp CanFrame) → Prop
  | stream {enabled : Bool} {reply : Reply} :
      Explains parse (.setRxStreaming enabled) reply [.stream enabled]
  | nothing {reply : Reply} (again : reply.1 = -eAgain) :
      Explains parse .nextRx reply [.fetch none]
  | received {frame : CanFrame} {reply : Reply} (other : reply.1 ≠ -eAgain)
      (tells : Tells reply frame) :
      Explains parse .nextRx reply [.fetch (some frame)]
  | queued {payload : Bytes} {reply : Reply} {msg : CanJsonMessage}
      {fields : CanJsonField → Bool} (asked : requestOf parse payload = .tx msg fields)
      (acknowledged : txAck msg <+: reply.2) :
      Explains parse (.text payload) reply [.submit (frameOfMessage msg) true]
  | full {payload : Bytes} {reply : Reply} {msg : CanJsonMessage}
      {fields : CanJsonField → Bool} (asked : requestOf parse payload = .tx msg fields)
      (refused : reply.1 = -eNoMsg) :
      Explains parse (.text payload) reply [.submit (frameOfMessage msg) false]
  | other {payload : Bytes} {reply : Reply} (length : 0 ≤ reply.1)
      (silent : acknowledged parse (.text payload) reply = []) :
      Explains parse (.text payload) reply []

/-- The relay beside a bridge: `ops` are the operations of the finished jobs, `before` what
the queue had accepted then, `phase` what the job under way has done. While that job has yet
to purge the queue, the queue may hold what the relay has dropped. -/
structure Tracks (b : Bridge) (r : Relay CanFrame) (ops : List (RelayOp CanFrame))
    (before : List CanFrame) (phase : Phase) : Prop where
  sent : r.sent = b.sent.map SentFrame.frame
  pending : r.pending = b.inHand.toList ++ b.txQueue.items
  streaming : r.streaming = b.rxStreaming
  done : r.done = ops ++ phase.ops
  accepted : b.accepted = before ++ Relay.taken phase.ops
  inbox : phase ≠ .draining → r.inbox = b.rxQueue.items
  off : phase = .draining → b.rxStreaming = false

abbrev relay : Machine (Relay CanFrame) (Relay.Label CanFrame) :=
  Relay.machine CanFrame canTxQueueLen canRxQueueLen

/-- The runs of the relay, with what has arrived in them. -/
abbrev RelayRun (r : Relay CanFrame) (frames : List CanFrame) (r' : Relay CanFrame) : Prop :=
  relay.Trace anyStep Relay.arrivals r frames r'

section Calls

variable {parse : Bytes → ParseResult} {b b' : Bridge} {r : Relay CanFrame}
  {ops : List (RelayOp CanFrame)} {before : List CanFrame} {phase : Phase}

theorem Tracks.same (tracks : Tracks b r ops before phase) (same : SameFrames b b') :
    Tracks b' r ops before phase := by
  obtain ⟨sent, pending, streaming, done, accepted, inbox, off⟩ := tracks
  obtain ⟨sent', inHand', txQueue', rxQueue', rxStreaming', accepted'⟩ := same
  refine ⟨sent' ▸ sent, ?_, rxStreaming' ▸ streaming, done, accepted' ▸ accepted, ?_, ?_⟩
  · rw [inHand', txQueue']
    exact pending
  · rw [rxQueue']
    exact inbox
  · rw [rxStreaming']
    exact off

theorem pending_length (tracks : Tracks b r ops before phase) :
    b.txQueue.items.length ≤ r.pending.length ∧
      r.pending.length ≤ b.txQueue.items.length + 1 := by
  rw [tracks.pending, List.length_append]
  cases b.inHand with
  | none => simp
  | some frame => simp [Nat.add_comm]

theorem relay_step {r' : Relay CanFrame} (l : Relay.Label CanFrame)
    (step : r.step canTxQueueLen canRxQueueLen l = some r') : RelayRun r l.arrivals r' :=
  .one trivial step

/-- A call of the WebSocket thread. -/
theorem Tracks.wsCall (tracks : Tracks b r ops before phase)
    (holds : Relay.Exact canTxQueueLen canRxQueueLen r) {c : CanCall}
    {post : c.Answer → Progress → Prop}
    {o : Outcome} {x : c.Answer} (spec : relaySpec parse c post ⟨b.rxStreaming, phase⟩)
    (hexec : exec parse .ws c o b = some (x, b')) :
    ∃ r' phase', RelayRun r [] r' ∧ post x ⟨b'.rxStreaming, phase'⟩ ∧
      Tracks b' r' ops before phase' := by
  by_cases still : Frameless c
  · have same := exec_frameless still hexec
    refine ⟨r, phase, .refl, ?_, tracks.same same⟩
    rw [same.rxStreaming]
    cases c <;> first | exact still.elim | skip
    case jsonObjParse json =>
      cases hexec
      exact spec _ rfl
    all_goals exact spec.2 x
  have room := pending_length tracks
  obtain ⟨sent, pending, streaming, done, accepted, inbox, off⟩ := tracks
  cases c <;> first | exact absurd trivial still | simp only [exec] at hexec
  case canSendSubmit | canSendWait | txGet | rxPut | rxStreamingGet => exact spec.1.elim
  case txPut frame =>
    cases phase with
    | draining | did => exact spec.1.elim
    | todo =>
        split at hexec
        · next full =>
            cases hexec
            have length := Fifo.put_eq_none.mp full
            refine ⟨{ r with done := r.done ++ [.submit frame false] }, .did (.submit frame false),
              relay_step (.submit frame false) ?_, spec _ _ (.inr ⟨rfl, rfl⟩),
              sent, pending, streaming, ?_, accepted, fun _ => inbox Phase.todo_settled,
              (Phase.did_settled _).elim⟩
            · simp only [Relay.step]
              rw [if_pos (by omega)]
            · rw [done, List.append_assoc]
              rfl
        · next q put =>
            cases hexec
            have items := Fifo.put_items put
            have bound := q.bound
            rw [items, List.length_append, List.length_singleton] at bound
            refine ⟨{ r with
                pending := r.pending ++ [frame], done := r.done ++ [.submit frame true] },
              .did (.submit frame true), relay_step (.submit frame true) ?_,
              spec _ _ (.inl ⟨rfl, rfl⟩), sent, ?_, streaming, ?_, ?_,
              fun _ => inbox Phase.todo_settled, (Phase.did_settled _).elim⟩
            · simp only [Relay.step]
              rw [if_pos (by omega)]
            · rw [pending, items, List.append_assoc]
            · rw [done, List.append_assoc]
              rfl
            · rw [accepted, List.append_assoc]
              rfl
  case rxGet =>
    cases phase with
    | draining | did => exact spec.1.elim
    | todo =>
        split at hexec
        · next none =>
            cases hexec
            have items : r.inbox = [] := (inbox Phase.todo_settled).trans (Fifo.get_eq_none.mp none)
            refine ⟨_, .did (.fetch Option.none), relay_step .fetch rfl, spec _, sent, pending,
              streaming, ?_, accepted, fun _ => ?_, (Phase.did_settled _).elim⟩
            · simp only [items, List.head?_nil, done, List.append_assoc]
              rfl
            · show r.inbox.tail = _
              rw [← inbox Phase.todo_settled, items]
              rfl
        · next frame q get =>
            cases hexec
            have items : r.inbox = frame :: q.items :=
              (inbox Phase.todo_settled).trans (Fifo.get_items get)
            refine ⟨_, .did (.fetch (some frame)), relay_step .fetch rfl, spec _, sent, pending,
              streaming, ?_, accepted, fun _ => ?_, (Phase.did_settled _).elim⟩
            · simp only [items, List.head?_cons, done, List.append_assoc]
              rfl
            · show r.inbox.tail = _
              rw [items]
              rfl
  case rxPurge =>
    cases hexec
    cases phase with
    | did => exact spec.1.elim
    | draining =>
        -- the relay dropped what was waiting when the flag was cleared
        refine ⟨r, .did (.stream false), .refl, spec, sent, pending, streaming, done, accepted,
          fun _ => ?_, (Phase.did_settled _).elim⟩
        exact holds.quiet (streaming.trans (off rfl))
    | todo =>
        cases on : b.rxStreaming with
        | false =>
            simp only [relaySpec, on] at spec
            refine ⟨r, .todo, .refl, spec, sent, pending, streaming.trans on, done, accepted,
              fun _ => ?_, Phase.todo_settled.elim⟩
            exact holds.quiet (streaming.trans on)
        | true =>
            simp only [relaySpec, on] at spec
            refine ⟨_, .did (.stream true), relay_step (.stream true) rfl, spec, sent, pending,
              rfl, ?_, accepted, fun _ => rfl, (Phase.did_settled _).elim⟩
            rw [done, List.append_assoc]
            rfl
  case rxStreamingSet enabled =>
    cases hexec
    cases enabled with
    | true =>
        cases phase with
        | draining => exact spec.1.elim
        | did op =>
            obtain ⟨on, after⟩ := spec
            refine ⟨r, .did op, .refl, ?_, sent, pending, streaming.trans on, done, accepted,
              fun _ => inbox (Phase.did_settled op), (Phase.did_settled _).elim⟩
            rwa [show b.rxStreaming = true from on] at after
        | todo =>
            obtain ⟨off, after⟩ := spec
            have none : r.inbox = [] := holds.quiet (streaming.trans off)
            refine ⟨_, .did (.stream true), relay_step (.stream true) rfl, after, sent, pending,
              rfl, ?_, accepted, fun _ => none.symm.trans (inbox Phase.todo_settled),
              (Phase.did_settled _).elim⟩
            rw [done, List.append_assoc]
            rfl
    | false =>
        cases phase with
        | draining | did => exact spec.1.elim
        | todo =>
            refine ⟨_, .draining, relay_step (.stream false) rfl, spec, sent, pending, rfl, ?_,
              accepted, fun same => absurd rfl same, fun _ => rfl⟩
            rw [done, List.append_assoc]
            rfl

/-- A call of the worker: what it takes from the queue stays pending until it is sent. -/
theorem Tracks.workerCall (tracks : Tracks b r ops before phase) {c : CanCall}
    {post : c.Answer → WorkerView → Prop} {o : Outcome} {x : c.Answer}
    (spec : workerSpec c post b.workerView) (hexec : exec parse .worker c o b = some (x, b')) :
    ∃ r', RelayRun r [] r' ∧ Tracks b' r' ops before phase := by
  by_cases still : Frameless c
  · exact ⟨r, .refl, tracks.same (exec_frameless still hexec)⟩
  obtain ⟨sent, pending, streaming, done, accepted, inbox, off⟩ := tracks
  cases c <;> first | exact absurd trivial still | simp only [exec] at hexec
  case txPut | rxPut | rxGet | rxPurge | rxStreamingGet | rxStreamingSet => exact spec.elim
  case txGet =>
    split at hexec
    · cases hexec
    · next frame q get =>
        cases hexec
        have empty : b.inHand = none := spec.2.1
        refine ⟨r, .refl, sent, ?_, streaming, done, accepted, inbox, off⟩
        rw [pending, empty, Fifo.get_items get]
        rfl
  case canSendSubmit frame ms =>
    cases hexec
    have full : b.inHand = some frame := spec.2.1
    rw [full] at pending
    refine ⟨{ r with pending := b.txQueue.items, sent := r.sent ++ [frame] },
      relay_step .transmit ?_, ?_, rfl, streaming, done, accepted, inbox, off⟩
    · simp [Relay.step, pending]
    · simp [sent]
  case canSendWait =>
    split at hexec
    · cases hexec
      exact ⟨r, .refl, sent, pending, streaming, done, accepted, inbox, off⟩
    · cases hexec

theorem worker_streaming {c : CanCall} {o : Outcome} {x : c.Answer} (call : WorkerCall c)
    (hexec : exec parse .worker c o b = some (x, b')) : b'.rxStreaming = b.rxStreaming := by
  cases c <;> first | exact call.elim | simp only [exec] at hexec
  case canSendSubmit => cases hexec; rfl
  case txGet | canSendWait | mutexLock | mutexUnlock => split at hexec <;> cases hexec; rfl

/-- A frame that the filter lets through arrives. -/
def Touch.arrivals : Touch → List CanFrame
  | .frame seen => if catchAll.accepts seen then [seen] else []
  | _ => []

/-- A frame that reaches the driver. -/
theorem Tracks.frame (tracks : Tracks b r ops before phase) (filter : b.rxFilter = some catchAll)
    (frame : CanFrame) : ∃ r', RelayRun r (Touch.arrivals (.frame frame)) r' ∧
      Tracks { b with rxQueue := b.offered frame } r' ops before phase := by
  obtain ⟨sent, pending, streaming, done, accepted, inbox, off⟩ := tracks
  have unseen (same : b.offered frame = b.rxQueue) :
      Tracks { b with rxQueue := b.offered frame } r ops before phase := by
    rw [same]
    exact ⟨sent, pending, streaming, done, accepted, inbox, off⟩
  cases accepts : catchAll.accepts frame with
  | false =>
      have nothing : Touch.arrivals (.frame frame) = [] :=
        if_neg (Bool.eq_false_iff.mp accepts)
      rw [nothing]
      exact ⟨r, .refl, unseen (by simp [Bridge.offered, filter, accepts])⟩
  | true =>
      have arrives : Touch.arrivals (.frame frame) = [frame] := if_pos accepts
      rw [arrives]
      have lost (why : r.streaming = false ∨ canRxQueueLen ≤ r.inbox.length) :
          RelayRun r [frame] r := relay_step (.arrive frame false) (if_pos why)
      by_cases on : b.rxStreaming = true
      · have settled : phase ≠ .draining := fun draining =>
          Bool.false_ne_true ((off draining).symm.trans on)
        cases put : b.rxQueue.put frame with
        | none =>
            have full : canRxQueueLen ≤ r.inbox.length := by
              rw [inbox settled]
              exact Nat.le_of_eq (Fifo.put_eq_none.mp put).symm
            exact ⟨r, lost (.inr full), unseen (by simp [Bridge.offered, put])⟩
        | some q =>
            have kept : b.offered frame = q := by
              simp [Bridge.offered, filter, accepts, on, put]
            have items := Fifo.put_items put
            have bound := q.bound
            rw [items, List.length_append, List.length_singleton] at bound
            refine ⟨{ r with inbox := r.inbox ++ [frame], kept := r.kept ++ [frame] },
              relay_step (.arrive frame true) ?_, sent, pending, streaming, done, accepted,
              fun _ => ?_, off⟩
            · simp only [Relay.step]
              rw [if_pos ⟨streaming.trans on, by rw [inbox settled]; omega⟩]
            · show r.inbox ++ [frame] = _
              rw [kept, items, inbox settled]
      · have stopped : r.streaming = false := streaming.trans (Bool.eq_false_iff.mpr on)
        exact ⟨r, lost (.inl stopped), unseen (by simp [Bridge.offered, on])⟩

/-- A job that has ended is explained by what it did. -/
theorem Tracks.reply (tracks : Tracks b r ops before phase) {job : Job} {reply : Reply}
    (acked : b.accepted = before ++ acknowledged parse job reply)
    (ends : Ends parse job reply ⟨b.rxStreaming, phase⟩) :
    Explains parse job reply phase.ops ∧ Tracks b r (ops ++ phase.ops) b.accepted .todo := by
  obtain ⟨sent, pending, streaming, done, accepted, inbox, off⟩ := tracks
  have same : acknowledged parse job reply = Relay.taken phase.ops :=
    List.append_cancel_left (acked.symm.trans accepted)
  have whole (settled : phase ≠ .draining) : Tracks b r (ops ++ phase.ops) b.accepted .todo := by
    refine ⟨sent, pending, streaming, ?_, (List.append_nil _).symm,
      fun _ => inbox settled, Phase.todo_settled.elim⟩
    rw [done]
    exact (List.append_nil _).symm
  cases job with
  | text payload =>
      rcases ends with ⟨idle, length⟩ | ⟨msg, fields, asked, took | ⟨refused, ret⟩⟩
      · cases idle
        exact ⟨.other length same, whole Phase.todo_settled⟩
      · cases took
        refine ⟨.queued asked ?_, whole (Phase.did_settled _)⟩
        by_contra unanswered
        simp [acknowledged, asked, unanswered, Phase.ops] at same
      · cases refused
        exact ⟨.full asked ret, whole (Phase.did_settled _)⟩
  | nextRx =>
      rcases ends with ⟨nothing, again⟩ | ⟨frame, received, other, shows⟩
      · cases nothing
        exact ⟨.nothing again, whole (Phase.did_settled _)⟩
      · cases received
        exact ⟨.received other shows, whole (Phase.did_settled _)⟩
  | setRxStreaming enabled =>
      cases ends
      exact ⟨.stream, whole (Phase.did_settled _)⟩

end Calls

section Run

variable (parse : Bytes → ParseResult)

/-- The relay beside the machine: every finished job is explained, and the job under way
leads to an end that will be. -/
def Relays (s : State) (r : Relay CanFrame) : Prop :=
  ∃ ops : List (List (RelayOp CanFrame)),
    List.Forall₂ (fun x op => Explains parse x.job x.reply op) s.log ops ∧
    (s.ws = none → Tracks s.bridge r ops.flatten s.bridge.accepted .todo) ∧
    ∀ serving, s.ws = some serving → ∃ phase,
      Tracks s.bridge r ops.flatten serving.before.accepted phase ∧
      serving.rest.wp (relaySpec parse) (Ends parse serving.job) ⟨s.bridge.rxStreaming, phase⟩

theorem relays_start {b : Bridge} (init : InitDone parse b) : Relays parse { bridge := b } {} := by
  obtain ⟨started, rfl⟩ := init.eq
  refine ⟨[], .nil, fun _ => ?_, fun _ busy => absurd busy.symm (Option.some_ne_none _)⟩
  exact ⟨rfl, rfl, rfl, rfl, rfl, fun _ => rfl, fun same => absurd same Phase.noConfusion⟩

/-- What arrives at the bridge in a step. -/
def arrivals (s : State) (e : Event) : List CanFrame := (touches parse s e).flatMap Touch.arrivals

/-- Only the bus brings frames. -/
theorem arrivals_call (s : State) {e : Event} (call : ∀ frame, e ≠ .frame frame) :
    arrivals parse s e = [] := by
  have none (t : Thread) (c : CanCall) (o : Outcome) :
      (callTouches parse t c o s.bridge).flatMap Touch.arrivals = [] := by
    unfold callTouches
    split <;> rfl
  unfold arrivals touches
  cases e with
  | request | bus => rfl
  | ws o | worker o =>
      simp only
      split
      · exact none _ _ o
      · rfl
  | frame seen => exact absurd rfl (call seen)

theorem arrivals_frame (s : State) (frame : CanFrame) :
    arrivals parse s (.frame frame) = Touch.arrivals (.frame frame) := List.append_nil _

variable {parse} in
/-- A change of the bridge that leaves the WebSocket thread where it is. -/
theorem Relays.beside {s : State} {r : Relay CanFrame} (relays : Relays parse s r) {b : Bridge}
    {worker : CanProg Unit} (accepted : b.accepted = s.bridge.accepted)
    (streaming : b.rxStreaming = s.bridge.rxStreaming) {frames : List CanFrame}
    (moved : ∀ ops before phase, Tracks s.bridge r ops before phase →
      ∃ r', RelayRun r frames r' ∧ Tracks b r' ops before phase) :
    ∃ r', RelayRun r frames r' ∧ Relays parse { s with bridge := b, worker := worker } r' := by
  obtain ⟨ops, explained, idle, busy⟩ := relays
  cases ws : s.ws with
  | none =>
      obtain ⟨r', steps, tracks⟩ := moved _ _ _ (idle ws)
      rw [← accepted] at tracks
      refine ⟨r', steps, ops, explained, fun _ => tracks, fun _ busy => ?_⟩
      exact absurd busy.symm (Option.some_ne_none _)
  | some serving =>
      obtain ⟨phase, tracks, ends⟩ := busy serving ws
      obtain ⟨r', steps, tracks⟩ := moved _ _ _ tracks
      rw [← streaming] at ends
      refine ⟨r', steps, ops, explained, fun idle => absurd idle (Option.some_ne_none _), ?_⟩
      intro same busy
      cases busy
      exact ⟨phase, tracks, ends⟩

/-- What the relay does while the bridge takes a step. -/
theorem Relays.step {s t : State} {e : Event} {r : Relay CanFrame}
    (reached : (machine parse (InitDone parse)).Reach anyStep s) (reachedR : relay.Reach anyStep r)
    (relays : Relays parse s r) (hstep : (machine parse (InitDone parse)).step s e = some t) :
    ∃ r', RelayRun r (arrivals parse s e) r' ∧ Relays parse t r' := by
  obtain ⟨ws, worker, -⟩ := did_reach reached
  cases step_moved parse hstep with
  | request idle =>
      obtain ⟨ops, explained, tracks, -⟩ := relays
      refine ⟨r, .refl, ops, explained, fun free => absurd free (Option.some_ne_none _), ?_⟩
      intro serving same
      cases same
      exact ⟨.todo, tracks idle, job_relays _ _ _⟩
  | wsCall busy hexec =>
      rw [arrivals_call parse s (by simp)]
      obtain ⟨ops, explained, -, under⟩ := relays
      obtain ⟨phase, tracks, spec⟩ := under _ busy
      obtain ⟨r', phase', steps, after, tracks'⟩ :=
        tracks.wsCall (Relay.exact_reach reachedR) spec hexec
      refine ⟨r', steps, ops, explained, fun free => absurd free (Option.some_ne_none _), ?_⟩
      intro serving same
      cases same
      exact ⟨phase', tracks', after⟩
  | reply busy =>
      rw [arrivals_call parse s (by simp)]
      obtain ⟨ops, explained, -, under⟩ := relays
      obtain ⟨phase, tracks, ends⟩ := under _ busy
      simp only [WsInv, busy, Prog.wp_ret] at ws
      have acked := did_acknowledged ws.2.2
      obtain ⟨why, tracks'⟩ := tracks.reply acked ends
      refine ⟨r, .refl, ops ++ [phase.ops], ?_, fun _ => ?_, fun _ busy => ?_⟩
      · exact List.rel_append explained (.cons why .nil)
      · rw [List.flatten_append, List.flatten_singleton]
        exact tracks'
      · exact absurd busy.symm (Option.some_ne_none _)
  | workerCall busy hexec =>
      rw [arrivals_call parse s (by simp)]
      simp only [WorkerInv, busy] at worker
      have call := workerSpec_workerCall worker
      have accepted := congrArg WsView.accepted (worker_leaves parse _ _ _ _ _ call hexec)
      exact relays.beside accepted (worker_streaming call hexec) fun ops before phase tracks =>
        tracks.workerCall worker hexec
  | round =>
      rw [arrivals_call parse s (by simp)]
      exact ⟨r, .refl, relays⟩
  | bus =>
      rw [arrivals_call parse s (by simp)]
      refine relays.beside ?_ ?_ fun ops before phase tracks => ?_
      · rfl
      · rfl
      · exact ⟨r, .refl, tracks.same ⟨rfl, rfl, rfl, rfl, rfl, rfl⟩⟩
  | frame =>
      rw [arrivals_frame]
      refine relays.beside ?_ ?_ fun ops before phase tracks => ?_
      · rfl
      · rfl
      · exact tracks.frame (rxFilter_reach reached) _

theorem Relays.start {s : State} (started : (machine parse (InitDone parse)).Start s) :
    ∃ r, relay.Start r ∧ Relays parse s r := by
  obtain ⟨b, init, rfl⟩ := started
  exact ⟨{}, rfl, relays_start parse init⟩

/-- The relay follows the two threads, the driver and the bus; what arrives at it is what the
bus brings. -/
theorem machine_relays : Mirrors (machine parse (InitDone parse)) anyStep (arrivals parse)
    relay anyStep Relay.arrivals (Relays parse) := by
  constructor
  · intro s started
    exact Relays.start parse started
  · intro s e t r reached reachedR relays _ hstep
    exact relays.step parse reached reachedR hstep

/-- The relay shows what is on its way and what each finished job was. While the stream is
being switched off, the queue of the driver may still hold what the relay has dropped. -/
structure Relayed (s : State) (r : Relay CanFrame) : Prop where
  exact : Relay.Exact canTxQueueLen canRxQueueLen r
  sent : r.sent = s.bridge.sent.map SentFrame.frame
  pending : r.pending = s.bridge.inHand.toList ++ s.bridge.txQueue.items
  streaming : r.streaming = s.bridge.rxStreaming
  inbox : s.ws = none ∨ s.bridge.rxStreaming = true → r.inbox = s.bridge.rxQueue.items
  history : ∃ ops under, List.Forall₂ (fun x op => Explains parse x.job x.reply op) s.log ops ∧
    r.done = ops.flatten ++ under ∧ under.length ≤ 1 ∧ (s.ws = none → under = [])

variable {parse} in
theorem Relays.relayed {s : State} {r : Relay CanFrame} (relays : Relays parse s r)
    (exact : Relay.Exact canTxQueueLen canRxQueueLen r) : Relayed parse s r := by
  obtain ⟨ops, explained, idle, busy⟩ := relays
  cases ws : s.ws with
  | none =>
      obtain ⟨sent, pending, streaming, done, -, inbox, -⟩ := idle ws
      exact ⟨exact, sent, pending, streaming, fun _ => inbox Phase.todo_settled,
        ops, [], explained, done, Nat.zero_le _, fun _ => rfl⟩
  | some serving =>
      obtain ⟨phase, ⟨sent, pending, streaming, done, -, inbox, off⟩, -⟩ := busy serving ws
      refine ⟨exact, sent, pending, streaming, fun on => inbox fun draining => ?_,
        ops, phase.ops, explained, done, ?_, fun none => absurd none.symm (by simp [ws])⟩
      · simp [ws, off draining] at on
      · cases phase <;> simp [Phase.ops]

/-- In every run the bridge is a relay: some run of the relay at which the same frames arrive
has sent, holds and has kept the same frames, and answered the same. -/
theorem bridge_relayed {s₀ s : State} {frames : List CanFrame}
    (started : (machine parse (InitDone parse)).Start s₀)
    (run : (machine parse (InitDone parse)).Trace anyStep (arrivals parse) s₀ frames s) :
    ∃ r, RelayRun {} frames r ∧ Relayed parse s r := by
  have mirrors : Mirrors (machine parse (InitDone parse)) anyStep (arrivals parse) relay anyStep
      Relay.arrivals (Relays parse) :=
    ⟨fun _ => Relays.start parse, fun _ _ _ _ reached reachedR relays _ =>
      relays.step parse reached reachedR⟩
  obtain ⟨r₀, r, rfl, relayed, relays⟩ := mirrors.trace_start started run
  have reached : relay.Reach anyStep r := (Reach.start rfl).steps relayed.steps
  exact ⟨r, relayed, relays.relayed (Relay.exact_reach reached)⟩

end Run

end PicoCan.Can
