import PicoCan.Calls.JsonRead
import PicoCan.Can.Requests
import PicoCan.Can.RoundTrip

/-!
# From the bus to the client

A received frame passes the filter installed at init, the streaming flag and the
RX queue before `can_bridge_format_next_rx` prints it. The filter is meant to
catch everything, but its flags leave out extended frames: a classical data
frame arrives exactly when it is a standard one. What the client is sent is read
back as JSON, and has to be the frame.
-/

namespace PicoCan.Can

open Calls Json

/-! ## What a reply says of a frame -/

/-- The object is a `can.rx` object that describes the frame. -/
structure Describes (object : Object) (frame : CanFrame) : Prop where
  type : object.lookup "type" = some (.string (lit "can.rx"))
  bus : object.lookup "bus" = some (.number 0)
  id : object.lookup "id" = some (.number frame.id.toNat)
  ext : object.lookup "ext" = some (.bool frame.ide)
  rtr : object.lookup "rtr" = some (.bool frame.rtr)
  dlc : object.lookup "dlc" = some (.number frame.dlc.toNat)
  data : object.lookup "data" = some (.numbers
    ((frame.data.toList.take frame.dlc.toNat).map fun byte => (byte.toNat : Int)))

/-- The text, read as JSON, describes the frame. -/
def ReadsFrame (text : Bytes) (frame : CanFrame) : Prop :=
  ∃ object, readObject text = some object ∧ Describes object frame

/-- The printed object. -/
def rxObject (frame : CanFrame) (us : UInt64) : Object :=
  [("type", .string (lit "can.rx")), ("bus", .number 0), ("id", .number frame.id.toNat),
    ("ext", .bool frame.ide), ("rtr", .bool frame.rtr), ("dlc", .number frame.dlc.toNat),
    ("data", .numbers (frame.bytes.map fun byte => (byte.toNat : Int))),
    ("ts", .number us.toInt64.toInt)]

theorem rxText_eq (frame : CanFrame) (us : UInt64) :
    rxText frame us = objectText (rxObject frame us) := by
  have zero : decInt 0 = lit "0" := by decide
  simp only [rxText, rxHeadText, rxTailText, clockText, elementsText_zero, objectText, rxObject,
    List.map_cons, List.map_nil, memberText, text, commaList, List.flatMap_cons,
    List.flatMap_nil, List.map_map, Function.comp_def, decInt_nat, zero, jsonBool,
    List.append_assoc, List.append_nil, lit_append_append, lit_append, String.reduceAppend]

theorem rxObject_plain (frame : CanFrame) (us : UInt64) :
    ∀ member ∈ rxObject frame us, PlainName member.1 ∧ member.2.Plain := by
  have names : ∀ name ∈ ["type", "bus", "id", "ext", "rtr", "dlc", "data", "ts"],
      PlainName name := by
    decide +kernel
  refine plain_of names fun value within => ?_
  have rx : (lit "can.rx").all isPlain := by decide
  simp only [rxObject, List.map_cons, List.map_nil, List.mem_cons, List.not_mem_nil,
    or_false] at within
  rcases within with rfl | rfl | rfl | rfl | rfl | rfl | rfl | rfl <;>
    first | exact rx | trivial

/-- What is printed for a frame reads back as that frame. -/
theorem rxText_reads (frame : CanFrame) (us : UInt64) : ReadsFrame (rxText frame us) frame := by
  refine ⟨rxObject frame us, ?_, rfl, rfl, rfl, rfl, rfl, rfl, rfl⟩
  rw [rxText_eq, readObject_objectText (rxObject_plain frame us)]

theorem formatRxFrame_reads {frame : CanFrame} (classical : frame.dlc.toNat ≤ 8)
    (response : Bytes) : (formatRxFrame frame response wsResponseMax).Returns fun reply =>
      reply.1 = 0 ∧ ReadsFrame reply.2 frame := by
  have printed : formatRxFrame frame response wsResponseMax = _ :=
    formatRxFrame_eq response classical fun us => rxText_length_lt frame us
  rw [printed]
  exact fun us => ⟨rfl, rxText_reads frame us⟩

variable (parse : Bytes → ParseResult)

/-! ## What happens to the RX queue -/

/-- What can happen to the RX queue while streaming is on. -/
inductive RxOp
  | arrive (frame : CanFrame)
  | next (response : Bytes) (o : Outcome)

/-- The answers of `can_bridge_format_next_rx`, in order. -/
def rxReplies : List RxOp → Bridge → Option (List Reply)
  | [], _ => some []
  | .arrive frame :: rest, b => (b.deliver parse frame).bind fun b => rxReplies rest b
  | .next response o :: rest, b =>
      ((canBridgeFormatNextRx response wsResponseMax).attempt (fun c => exec parse .ws c o) b).bind
        fun (reply, b) => (rxReplies rest b).map (reply :: ·)

/-- The number of times the client side asks for a frame. -/
def askCount : List RxOp → Nat
  | [] => 0
  | .arrive _ :: rest => askCount rest
  | .next _ _ :: rest => askCount rest + 1

variable {parse}

variable (parse) in
/-- Asking for a frame takes the oldest one; a classical frame is printed whole. -/
theorem formatNextRx_attempt {b : Bridge} {frame : CanFrame}
    {q : Fifo CanFrame canRxQueueLen} (oldest : b.rxQueue.get = some (frame, q))
    (response : Bytes) (o : Outcome) :
    ∃ reply, (canBridgeFormatNextRx response wsResponseMax).attempt
        (fun c => exec parse .ws c o) b = some (reply, { b with rxQueue := q }) ∧
      (frame.dlc.toNat ≤ 8 → reply = (0, rxText frame o.us)) := by
  have taken : (canBridgeFormatNextRx response wsResponseMax).attempt
      (fun c => exec parse .ws c o) b = (formatRxFrame frame response wsResponseMax).attempt
        (fun c => exec parse .ws c o) { b with rxQueue := q } := by
    simp only [canBridgeFormatNextRx, perform, Prog.perform_bind, Prog.attempt_call, exec,
      oldest, Option.bind_some]
  by_cases classical : frame.dlc.toNat ≤ 8
  · have printed : formatRxFrame frame response wsResponseMax = _ :=
      formatRxFrame_eq response classical fun us => rxText_length_lt frame us
    refine ⟨_, ?_, fun _ => rfl⟩
    rw [taken, printed]
    rfl
  · have printable (c : CanCall) (print : PrintCall c) :
        ∃ a, exec parse .ws c o { b with rxQueue := q } = some (a, { b with rxQueue := q }) := by
      cases c <;> first | exact ⟨_, rfl⟩ | exact print.elim
    obtain ⟨reply, run⟩ := (formatRxFrame_only frame response wsResponseMax).attempt printable
    exact ⟨reply, taken.trans run, fun h => absurd h classical⟩

theorem offered_prefix (frame : CanFrame) (b : Bridge) :
    b.rxQueue.items <+: (b.offered frame).items := by
  unfold Bridge.offered
  split
  · cases put : b.rxQueue.put frame with
    | none => exact List.prefix_rfl
    | some q => rw [Option.getD_some, Fifo.put_items put]; exact List.prefix_append _ _
  · exact List.prefix_rfl

variable (parse) in
/-- Nothing on the receive side ever waits. -/
theorem rxReplies_total (ops : List RxOp) (b : Bridge) :
    ∃ replies, rxReplies parse ops b = some replies := by
  induction ops generalizing b with
  | nil => exact ⟨[], rfl⟩
  | cons op rest ih =>
      cases op with
      | arrive frame =>
          obtain ⟨replies, run⟩ := ih { b with rxQueue := b.offered frame }
          exact ⟨replies, by simp only [rxReplies, Bridge.deliver_eq, Option.bind_some, run]⟩
      | next response o =>
          cases oldest : b.rxQueue.get with
          | none =>
              obtain ⟨replies, run⟩ := ih b
              refine ⟨(-eAgain, response) :: replies, ?_⟩
              simp only [rxReplies, canBridgeFormatNextRx, perform, Prog.perform_bind,
                Prog.attempt_call, exec, oldest, Option.bind_some, Prog.pure_eq,
                Prog.attempt_ret, run, Option.map_some]
          | some pair =>
              obtain ⟨frame, q⟩ := pair
              obtain ⟨reply, asked, -⟩ := formatNextRx_attempt parse oldest response o
              obtain ⟨replies, run⟩ := ih { b with rxQueue := q }
              exact ⟨reply :: replies, by
                simp only [rxReplies, asked, Option.bind_some, run, Option.map_some]⟩

/-- A classical frame at place `n` of the queue is printed by the `n`-th ask from
now, whatever arrives in between. -/
theorem rxReplies_nth {frame : CanFrame} (classical : frame.dlc.toNat ≤ 8) (ops : List RxOp)
    (n : Nat) (b : Bridge) (place : b.rxQueue.items[n]? = some frame)
    (asks : n < askCount ops) {replies : List Reply}
    (run : rxReplies parse ops b = some replies) :
    ∃ us, replies[n]? = some (0, rxText frame us) := by
  induction ops generalizing n b replies with
  | nil => exact absurd asks (Nat.not_lt_zero n)
  | cons op rest ih =>
      cases op with
      | arrive other =>
          have later : (b.offered other).items[n]? = some frame := by
            obtain ⟨more, whole⟩ := offered_prefix other b
            rw [← whole, List.getElem?_append_left (List.getElem?_eq_some_iff.mp place).1]
            exact place
          simp only [rxReplies, Bridge.deliver_eq, Option.bind_some] at run
          exact ih n _ later asks run
      | next response o =>
          cases items : b.rxQueue.items with
          | nil => rw [items] at place; cases place
          | cons oldest others =>
              obtain ⟨q, get, rfl⟩ := Fifo.get_of_cons items
              obtain ⟨reply, asked, printed⟩ :=
                formatNextRx_attempt parse get response o
              simp only [rxReplies, asked, Option.bind_some] at run
              obtain ⟨later, runLater, rfl⟩ := Option.map_eq_some_iff.mp run
              rw [items] at place
              cases n with
              | zero =>
                  obtain rfl : oldest = frame := Option.some.inj place
                  exact ⟨o.us, congrArg some (printed classical)⟩
              | succ n =>
                  exact ih n { b with rxQueue := q } place (Nat.lt_of_succ_lt_succ asks) runLater

/-! ## Completeness -/

/-- A classical data frame as the bus can carry it. -/
structure CanFrame.ClassicalData (frame : CanFrame) : Prop where
  dlc : frame.dlc.toNat ≤ 8
  flags : frame.flags = 0 ∨ frame.flags = canFrameIde
  id : frame.id.toNat < if frame.ide then 2 ^ 29 else 2 ^ 11

/-- The driver offers a frame: it is enqueued, and the ask whose turn it is answers
with an object that describes it, whatever arrives in between. -/
def Received (parse : Bytes → ParseResult) (frame : CanFrame) (b : Bridge) : Prop :=
  ∃ b', b.deliver parse frame = some b' ∧ b'.rxQueue.items = b.rxQueue.items ++ [frame] ∧
    ∀ ops, b.rxQueue.items.length < askCount ops → ∃ replies,
      rxReplies parse ops b' = some replies ∧
      ∃ text, replies[b.rxQueue.items.length]? = some (0, text) ∧ ReadsFrame text frame

/-- Only init installs a filter. -/
theorem rxFilter_reach {s : State}
    (reach : (machine parse (InitDone parse)).Reach Machine.anyStep s) :
    s.bridge.rxFilter = some catchAll := by
  refine reach.invariant_of (I := fun s => s.bridge.rxFilter = some catchAll)
    (fun s before => did_reach before) ?_ ?_
  · rintro _ ⟨b, init, rfl⟩
    obtain ⟨started, rfl⟩ := init.eq
    rfl
  · intro s e t ⟨ws, worker, _⟩ filter _ hstep
    have kept : ∀ {th : Thread} {c : CanCall} {o : Outcome} {r : c.Answer} {b : Bridge},
        (∀ filter, c ≠ .canAddRxFilter filter) → exec parse th c o s.bridge = some (r, b) →
          b.rxFilter = some catchAll := by
      intro th c o r b other hexec
      cases c <;> simp only [exec] at hexec
      case canAddRxFilter filter => exact absurd rfl (other filter)
      case numUsedGet q | numFreeGet q => cases q <;> cases hexec <;> exact filter
      case canGetState | canSendWait | txPut | txGet | rxPut | rxGet | mutexLock | mutexUnlock =>
        split at hexec <;> cases hexec <;> exact filter
      all_goals cases hexec; exact filter
    cases step_moved parse hstep with
    | wsCall busy hexec =>
        simp only [WsInv, busy] at ws
        have call := wsSpec_wsCall ws.2
        exact kept (fun _ same => by rw [same] at call; exact call) hexec
    | workerCall busy hexec =>
        simp only [WorkerInv, busy] at worker
        have call := workerSpec_workerCall worker
        exact kept (fun _ same => by rw [same] at call; exact call) hexec
    | request | reply | round | bus | frame => exact filter

/-- The filter with all mask bits clear accepts exactly the standard frames. -/
theorem catchAll_accepts (frame : CanFrame) : catchAll.accepts frame = !frame.ide := by
  cases ide : frame.ide <;> simp [CanFilter.accepts, catchAll, ide]

/-- A classical data frame that meets an enabled stream and a queue with room is
received exactly when it is a standard frame. -/
theorem received_iff_standard {s : State}
    (reach : (machine parse (InitDone parse)).Reach Machine.anyStep s)
    (streaming : s.bridge.rxStreaming = true)
    (room : s.bridge.rxQueue.items.length < canRxQueueLen) {frame : CanFrame}
    (classical : frame.ClassicalData) :
    Received parse frame s.bridge ↔ frame.ide = false := by
  have filter := rxFilter_reach reach
  constructor
  · rintro ⟨b', delivered, enqueued, -⟩
    rw [Bridge.deliver_eq] at delivered
    cases delivered
    cases ide : frame.ide with
    | false => rfl
    | true =>
        have dropped : s.bridge.offered frame = s.bridge.rxQueue := by
          simp [Bridge.offered, filter, catchAll_accepts, ide]
        have longer := congrArg List.length enqueued
        simp only [dropped, List.length_append, List.length_singleton] at longer
        omega
  · intro standard
    obtain ⟨q, put, items⟩ := Fifo.put_of_room (a := frame) room
    have offered : s.bridge.offered frame = q := by
      simp [Bridge.offered, filter, catchAll_accepts, standard, streaming, put]
    refine ⟨{ s.bridge with rxQueue := q }, by rw [Bridge.deliver_eq, offered], items,
      fun ops asks => ?_⟩
    obtain ⟨replies, run⟩ := rxReplies_total parse ops { s.bridge with rxQueue := q }
    have place : q.items[s.bridge.rxQueue.items.length]? = some frame := by
      rw [items, List.getElem?_append_right (Nat.le_refl _), Nat.sub_self]
      rfl
    obtain ⟨us, answer⟩ := rxReplies_nth classical.dlc ops _ _ place asks run
    exact ⟨replies, run, rxText frame us, answer, rxText_reads frame us⟩

/-- Streaming is switched on, and a frame comes in. -/
def enableStreaming : List Event :=
  [.request (.setRxStreaming true) [], .ws {}, .ws {}, .ws {}, .frame { id := 4 }]

/-- An extended frame is not received. -/
theorem extended_dropped :
    ¬ ∀ parse s, (machine parse (InitDone parse)).Reach Machine.anyStep s →
      s.bridge.rxStreaming = true → s.bridge.rxQueue.items.length < canRxQueueLen →
      ∀ frame : CanFrame, frame.ClassicalData → Received parse frame s.bridge := by
  intro holds
  have start : (machine parseSample (InitDone parseSample)).Reach Machine.anyStep _ :=
    machine_start _ (initDone_initialised _)
  obtain ⟨b', delivered, enqueued, -⟩ := holds parseSample _ (start.runs
    (show (machine _ _).runs _ enableStreaming = some _ from rfl)) rfl (by decide)
    { id := 0x12345, flags := canFrameIde, dlc := 2, data := #v[7, 0x80, 0, 0, 0, 0, 0, 0] }
    ⟨by decide, .inr rfl, by decide⟩
  cases delivered
  cases enqueued

/-- A frame with data behind one that waits already. -/
theorem received_iff_standard_enabled : ∃ s, (machine parseSample
      (InitDone parseSample)).runs { bridge := Bridge.initialised true } enableStreaming = some s ∧
    s.bridge.rxQueue.items = [{ id := 4 }] ∧
    Received parseSample { id := 0x7ff, dlc := 3, data := #v[1, 0x80, 0xff, 0, 0, 0, 0, 0] }
      s.bridge := by
  have start : (machine parseSample (InitDone parseSample)).Reach Machine.anyStep
      { bridge := Bridge.initialised true } := machine_start _ (initDone_initialised _)
  have run : (machine parseSample (InitDone parseSample)).runs
      { bridge := Bridge.initialised true } enableStreaming = some _ := rfl
  exact ⟨_, run, rfl, (received_iff_standard (start.runs run) rfl (by decide)
    ⟨by decide, .inl rfl, by decide⟩).mpr (by decide)⟩

end PicoCan.Can
