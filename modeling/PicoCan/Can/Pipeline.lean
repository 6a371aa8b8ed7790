import PicoCan.Can.Lock

/-!
# The transmit pipeline

A frame passes from the request that names it through the TX queue and the
worker's hand to `can_send`. Two invariants carry the result: the frames the
queue has ever accepted are, in order, those already sent, the one in the
worker's hand and those still queued; and the same list is made of the frames of
the requests that were answered `queued` and the one of the request whose answer
is being printed.
-/

namespace PicoCan.Can

open Calls

variable {parse : Bytes → ParseResult}

/-! ## Answers -/

/-- How the `can.tx` object for a message begins: everything up to the clock. -/
def txAck (msg : CanJsonMessage) : Bytes :=
  txHeadText msg ++ elementsText 0 (msg.data.map fun byte => decInt byte.toInt) ++
    lit "],\"queued\":true"

/-- The frames a finished job acknowledged. -/
def acknowledged (parse : Bytes → ParseResult) (job : Job) (reply : Reply) : List CanFrame :=
  match job with
  | .text payload =>
      match requestOf parse payload with
      | .tx msg _ => if txAck msg <+: reply.2 then [frameOfMessage msg] else []
      | _ => []
  | _ => []

/-- The frame of the request under way, once it is queued. -/
def formatting (s : State) : List CanFrame :=
  match s.ws with
  | none => []
  | some serving => s.bridge.accepted.drop serving.before.accepted.length

theorem txText_begins (msg : CanJsonMessage) (us : UInt64) : txAck msg <+: txText msg us := by
  have tail : lit "],\"queued\":true" <+: txTailText us := by
    have split : lit "],\"queued\":true,\"ts\":" =
        lit "],\"queued\":true" ++ lit ",\"ts\":" := by decide
    rw [txTailText, split]
    simp only [List.append_assoc, List.prefix_append]
  exact (List.prefix_append_right_inj _).mpr tail

/-- A `can.tx` object is no error object. -/
theorem txAck_not_error {msg : CanJsonMessage} {text : Bytes} (error : errorHead <+: text) :
    ¬ txAck msg <+: text := by
  intro ack
  have head : lit "\x7b\"type\":\"can.tx\",\"ok\":true,\"bus\":" <+: txAck msg := by
    simp only [txAck, txHeadText, List.append_assoc, List.prefix_append]
  exact absurd (List.prefix_or_prefix_of_prefix error (head.trans ack)) (by decide)

theorem acknowledged_error {job : Job} {reply : Reply} (error : errorHead <+: reply.2) :
    acknowledged parse job reply = [] := by
  unfold acknowledged
  split
  · split
    · exact if_neg (txAck_not_error error)
    · rfl
  · rfl

theorem replyOf_error (code message : String) (err : Int) :
    errorHead <+: (replyOf (errorText code message err)).2 :=
  replyOf_begins ((List.prefix_append _ _).trans (errorText_begins code message err)) (by decide)

/-- A message that does not validate is answered with an error object. -/
theorem validateCanJson_error (msg : CanJsonMessage) (fields : CanJsonField → Bool)
    (response : Bytes) (invalid : (validateCanJson msg fields response wsResponseMax).1 ≠ 0) :
    errorHead <+: (validateCanJson msg fields response wsResponseMax).2 := by
  rcases validateCanJson_checks msg fields with passed | ⟨code, message, err, -, refused⟩
  · rw [passed] at invalid
    exact absurd rfl invalid
  · rw [refused, wsReply_eq]
    exact replyOf_error _ _ _

variable {ok : WsView → CanCall → Outcome → Prop}

theorem Applied.accepted {mode : CanMode} {bitrate : UInt32} {v v' : WsView} {ret : Int}
    (applied : Applied ok mode bitrate v ret v') : v'.accepted = v.accepted := by
  cases applied <;> rfl

theorem Recovered.accepted {v v' : WsView} (recovered : Recovered ok v v') :
    v'.accepted = v.accepted := by
  cases recovered <;> rfl

/-- A job has queued exactly the frame it acknowledges. -/
theorem did_acknowledged {job : Job} {v v' : WsView} {reply : Reply}
    (did : Did parse ok job v reply v') :
    v'.accepted = v.accepted ++ acknowledged parse job reply := by
  have refused : ∀ {job : Job} {reply : Reply}, errorHead <+: reply.2 →
      v.accepted = v.accepted ++ acknowledged parse job reply := fun error => by
    rw [acknowledged_error error, List.append_nil]
  cases did with
  | nextRx | setRxStreaming => exact (List.append_nil _).symm
  | notReady | tooLarge | badJson | unsupported | badConfig | txFull =>
      exact refused (replyOf_error _ _ _)
  | status _ asked => simp only [acknowledged, asked, List.append_nil]
  | configured _ asked _ applied =>
      simp only [acknowledged, asked, List.append_nil]
      exact applied.accepted
  | configFailed _ _ _ applied _ recovered =>
      refine Eq.trans ?_ (refused (replyOf_error _ _ _))
      exact recovered.accepted.trans applied.accepted
  | txRejected _ _ invalid => exact refused (validateCanJson_error _ _ _ invalid)
  | txQueued _ asked => simp only [acknowledged, asked, txText_begins, if_true]

/-- From wherever the WebSocket thread stands in a job, the job can end, and the
queue has accepted no less then. -/
theorem wsSpec_finishes {α : Type} {p : CanProg α} {Q : α → WsView → Prop} {v : WsView}
    (wp : p.wp (wsSpec parse anyOutcome) Q v) :
    ∃ a v', Q a v' ∧ v.accepted <+: v'.accepted := by
  induction p generalizing v with
  | ret a => exact ⟨a, v, wp, List.prefix_rfl⟩
  | call c k ih =>
      -- one answer the spec admits is enough
      have step : ∃ r v', (k r).wp (wsSpec parse anyOutcome) Q v' ∧
          v.accepted <+: v'.accepted := by
        replace wp := wp.2
        cases c <;> simp only at wp
        case canSetMode | canSetBitrate | canStart | canStop =>
          exact ⟨_, _, wp.2 {} trivial, List.prefix_rfl⟩
        case canGetState => exact ⟨_, _, wp.2 ⟨0, .errorActive, 0, 0⟩, List.prefix_rfl⟩
        case mutexLock | mutexUnlock => exact ⟨_, _, wp.2, List.prefix_rfl⟩
        case txPut frame => exact ⟨_, _, wp _ _ (.inr ⟨rfl, rfl⟩), List.prefix_rfl⟩
        case rxGet => exact ⟨_, _, wp none, List.prefix_rfl⟩
        case numUsedGet | numFreeGet => exact ⟨_, _, wp (0 : Nat), List.prefix_rfl⟩
        case uptimeUs => exact ⟨_, _, wp (0 : UInt64), List.prefix_rfl⟩
        case readPast => exact ⟨_, _, wp (0 : UInt8), List.prefix_rfl⟩
        case jsonObjParse => exact ⟨_, _, wp _ rfl, List.prefix_rfl⟩
        case canReadyGet | canReadySet | currentModeGet | currentModeSet | currentBitrateGet
          | currentBitrateSet | rxPurge | rxStreamingSet => exact ⟨_, _, wp, List.prefix_rfl⟩
      obtain ⟨r, v₁, rest, more⟩ := step
      obtain ⟨a, v₂, done, more'⟩ := ih r rest
      exact ⟨a, v₂, done, more.trans more'⟩

/-! ## Calls along the pipeline -/

/-- What a call moves along the pipeline. -/
inductive Flow (b b' : Bridge) : CanCall → Prop
  | still {c : CanCall} (accepted : b'.accepted = b.accepted) (queue : b'.txQueue = b.txQueue)
      (hand : b'.inHand = b.inHand) (sent : b'.sent = b.sent) : Flow b b' c
  | put {frame : CanFrame} (accepted : b'.accepted = b.accepted ++ [frame])
      (queue : b'.txQueue.items = b.txQueue.items ++ [frame]) (hand : b'.inHand = b.inHand)
      (sent : b'.sent = b.sent) : Flow b b' (.txPut frame)
  | get {frame : CanFrame} (accepted : b'.accepted = b.accepted)
      (queue : b.txQueue.items = frame :: b'.txQueue.items) (hand : b'.inHand = some frame)
      (sent : b'.sent = b.sent) : Flow b b' .txGet
  | send {frame : CanFrame} {ms : Nat} (accepted : b'.accepted = b.accepted)
      (queue : b'.txQueue = b.txQueue) (hand : b'.inHand = none)
      (sent : b'.sent = b.sent ++ [⟨frame, b.ctrl.gap⟩]) : Flow b b' (.canSendSubmit frame ms)

theorem exec_flow {t : Thread} {c : CanCall} {o : Outcome} {b b' : Bridge} {r : c.Answer}
    (hexec : exec parse t c o b = some (r, b')) : Flow b b' c := by
  cases c <;> simp only [exec] at hexec
  case txPut frame =>
    split at hexec
    · cases hexec; exact .still rfl rfl rfl rfl
    · next q put => cases hexec; exact .put rfl (Fifo.put_items put) rfl rfl
  case txGet =>
    split at hexec
    · cases hexec
    · next frame q get => cases hexec; exact .get rfl (Fifo.get_items get) rfl rfl
  case canSendSubmit frame ms => cases hexec; exact .send rfl rfl rfl rfl
  case numUsedGet q | numFreeGet q => cases q <;> cases hexec <;> exact .still rfl rfl rfl rfl
  case canGetState | canAddRxFilter | canSendWait | rxPut | rxGet | mutexLock | mutexUnlock =>
    split at hexec <;> cases hexec <;> exact .still rfl rfl rfl rfl
  all_goals cases hexec; exact .still rfl rfl rfl rfl

/-- What was sent, what the worker holds and what is queued is what was accepted. -/
def Bridge.Conserved (b : Bridge) : Prop :=
  b.sent.map SentFrame.frame ++ b.inHand.toList ++ b.txQueue.items = b.accepted

theorem Flow.ws {c : CanCall} {b b' : Bridge} (flow : Flow b b' c) (call : WsCall c)
    (before : b.Conserved) : b'.Conserved := by
  unfold Bridge.Conserved at before ⊢
  cases flow with
  | still accepted queue hand sent => rw [accepted, queue, hand, sent, before]
  | put accepted queue hand sent =>
      rw [accepted, queue, hand, sent, ← before]
      simp only [List.append_assoc]
  | get | send => exact call.elim

theorem Flow.worker {c : CanCall} {b b' : Bridge} {post : c.Answer → WorkerView → Prop}
    (flow : Flow b b' c) (spec : workerSpec c post b.workerView) (before : b.Conserved) :
    b'.Conserved := by
  unfold Bridge.Conserved at before ⊢
  cases flow with
  | still accepted queue hand sent => rw [accepted, queue, hand, sent, before]
  | put => exact spec.elim
  | get accepted queue hand sent =>
      have empty : b.inHand = none := spec.2.1
      rw [empty, queue] at before
      rw [accepted, hand, sent, ← before]
      simp only [Option.toList, List.append_assoc, List.nil_append, List.singleton_append]
  | send accepted queue hand sent =>
      rename_i frame ms
      have full : b.inHand = some frame := spec.2.1
      rw [full] at before
      rw [accepted, queue, hand, sent, ← before]
      simp only [Option.toList, List.map_append, List.map_cons, List.map_nil, List.append_nil]

theorem Flow.accepted {c : CanCall} {b b' : Bridge} (flow : Flow b b' c) :
    b.accepted <+: b'.accepted := by
  cases flow with
  | still accepted | get accepted | send accepted => exact accepted ▸ List.prefix_rfl
  | put accepted => rw [accepted]; exact List.prefix_append _ _

/-! ## The whole pipeline -/

/-- The frames of the requests answered so far, in order. -/
def State.answered (parse : Bytes → ParseResult) (s : State) : List CanFrame :=
  s.log.flatMap fun x => acknowledged parse x.job x.reply

/-- First in, first out, exactly once: `order` counts a frame whose answer is
still being printed as answered, `pending` says which frame that is, `errors`
that a request answered with an error has put nothing into the queue. -/
structure PipelineExact (parse : Bytes → ParseResult) (s : State) : Prop where
  order : s.bridge.sent.map SentFrame.frame ++ s.bridge.inHand.toList ++
    s.bridge.txQueue.items = s.answered parse ++ formatting s
  pending : formatting s = [] ∨ ∃ payload before rest msg fields,
    s.ws = some ⟨.text payload, before, rest⟩ ∧
      requestOf parse payload = .tx msg fields ∧ formatting s = [frameOfMessage msg]
  errors : ∀ x ∈ s.log, errorHead <+: x.reply.2 →
    acknowledged parse x.job x.reply = [] ∧ x.after.accepted = x.before.accepted

/-- The queue has accepted what was answered, and what the request under way has
put into it. -/
def Matched (parse : Bytes → ParseResult) (s : State) : Prop :=
  match s.ws with
  | none => s.bridge.accepted = s.answered parse
  | some serving => serving.before.accepted = s.answered parse ∧
      serving.before.accepted <+: s.bridge.accepted

theorem acknowledged_cases (parse : Bytes → ParseResult) (job : Job) (reply : Reply) :
    acknowledged parse job reply = [] ∨ ∃ payload msg fields, job = .text payload ∧
      requestOf parse payload = .tx msg fields ∧
      acknowledged parse job reply = [frameOfMessage msg] := by
  unfold acknowledged
  split
  · next payload =>
    split
    · next msg fields asked =>
        split
        · exact .inr ⟨payload, msg, fields, rfl, asked, rfl⟩
        · exact .inl rfl
    · exact .inl rfl
  · exact .inl rfl

/-- Both invariants hold throughout. -/
theorem matched_reach {s : State}
    (reach : (machine parse (InitDone parse)).Reach Machine.anyStep s) :
    s.bridge.Conserved ∧ Matched parse s := by
  refine reach.invariant_of (I := fun s => s.bridge.Conserved ∧ Matched parse s)
    (fun s before => did_reach before) ?_ ?_
  · rintro _ ⟨b, init, rfl⟩
    obtain ⟨started, rfl⟩ := init.eq
    exact ⟨rfl, rfl⟩
  · intro s e t ⟨ws, worker, _⟩ ⟨conserved, matched⟩ _ hstep
    cases step_moved parse hstep with
    | request idle =>
        simp only [Matched, idle] at matched
        exact ⟨conserved, matched, List.prefix_rfl⟩
    | wsCall busy hexec =>
        simp only [WsInv, busy] at ws
        simp only [Matched, busy] at matched
        have flow := exec_flow hexec
        exact ⟨flow.ws (wsSpec_wsCall ws.2) conserved, matched.1,
          matched.2.trans flow.accepted⟩
    | reply busy =>
        simp only [WsInv, busy, Prog.wp_ret] at ws
        simp only [Matched, busy] at matched
        refine ⟨conserved, ?_⟩
        have whole : s.bridge.accepted = _ ++ _ := did_acknowledged ws.2.2
        simp only [Matched, State.answered, List.flatMap_append, List.flatMap_cons,
          List.flatMap_nil, List.append_nil]
        rw [whole]
        exact congrArg (· ++ _) matched.1
    | workerCall busy hexec =>
        simp only [WorkerInv, busy] at worker
        have same : _ = s.bridge.accepted := congrArg WsView.accepted
          (worker_leaves parse _ _ _ _ _ (workerSpec_workerCall worker) hexec)
        refine ⟨(exec_flow hexec).worker worker conserved, ?_⟩
        unfold Matched at matched ⊢
        simp only [show ∀ b : Bridge, b.wsView.accepted = b.accepted from fun _ => rfl] at same
        rw [same]
        exact matched
    | round | bus | frame => exact ⟨conserved, matched⟩

/-- In every run the pipeline is first in, first out and exactly once. -/
theorem pipeline_exact {s : State}
    (reach : (machine parse (InitDone parse)).Reach Machine.anyStep s) :
    PipelineExact parse s := by
  obtain ⟨conserved, matched⟩ := matched_reach reach
  obtain ⟨ws, -, log⟩ := did_reach reach
  refine ⟨?_, ?_, fun x hx error => ?_⟩
  · rw [show _ = s.bridge.accepted from conserved]
    cases busy : s.ws with
    | none =>
        simp only [Matched, busy] at matched
        simp only [formatting, busy, List.append_nil]
        exact matched
    | some serving =>
        simp only [Matched, busy] at matched
        simp only [formatting, busy]
        obtain ⟨more, whole⟩ := matched.2
        rw [← whole, List.drop_left, matched.1]
  · cases busy : s.ws with
    | none => exact .inl (by simp only [formatting, busy])
    | some serving =>
        obtain ⟨job, before, rest⟩ := serving
        simp only [Matched, busy] at matched
        simp only [WsInv, busy] at ws
        -- the job can end from here, with what it acknowledges in the queue
        obtain ⟨reply, v', ⟨-, did⟩, later⟩ := wsSpec_finishes ws.2
        obtain ⟨more, whole⟩ := matched.2
        have now : formatting s = more := by
          simp only [formatting, busy]
          rw [← whole, List.drop_left]
        have part : more <+: acknowledged parse job reply := by
          rw [did_acknowledged did] at later
          have later : s.bridge.accepted <+: before.accepted ++ _ := later
          rw [← whole] at later
          exact (List.prefix_append_right_inj _).mp later
        rw [now]
        rcases acknowledged_cases parse job reply with
          none | ⟨payload, msg, fields, rfl, asked, one⟩
        · rw [none] at part
          exact .inl (List.prefix_nil.mp part)
        · rw [one] at part
          rcases List.prefix_cons_iff.mp part with none | ⟨l, rfl, rest_nil⟩
          · exact .inl none
          · rw [List.prefix_nil.mp rest_nil]
            exact .inr ⟨payload, before, rest, msg, fields, rfl, asked, rfl⟩
  · refine ⟨acknowledged_error error, ?_⟩
    have whole : x.after.accepted = _ ++ _ := did_acknowledged (log x hx).2
    rw [whole, acknowledged_error error, List.append_nil]
    rfl

/-- One frame, acknowledged and taken up by the worker. -/
def frameInHand : List Event :=
  .request (.text txRequest) [] :: List.replicate 5 (.ws {}) ++ [.worker {}]

theorem pipeline_exact_frameInHand : ∃ s, (machine parseSample
      (InitDone parseSample)).runs { bridge := Bridge.initialised true } frameInHand = some s ∧
    s.bridge.inHand = some { id := 1 } ∧ PipelineExact parseSample s := by
  have start : (machine parseSample (InitDone parseSample)).Reach Machine.anyStep
      { bridge := Bridge.initialised true } := machine_start _ (initDone_initialised _)
  have run : (machine parseSample (InitDone parseSample)).runs
      { bridge := Bridge.initialised true } frameInHand = some _ := rfl
  exact ⟨_, run, rfl, pipeline_exact (start.runs run)⟩

end PicoCan.Can
