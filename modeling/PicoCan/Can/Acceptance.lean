import PicoCan.Can.Objects

/-!
# Which frames are taken

The documented rules for a `can.tx` request, in the order in which the validator checks them,
and what becomes of a request: one that meets them all is enqueued as the frame it spells, one
that does not is answered with the code of the first rule it breaks. The casts to the frame's
narrow fields come after the checks, and the checks leave them nothing to cut off.
-/

namespace PicoCan.Can

open Calls Json

/-! ## The rules -/

/-- What a `can.tx` request has to meet. -/
structure Documented (msg : CanJsonMessage) (fields : CanJsonField → Bool) : Prop where
  present : fields .bus = true ∧ fields .id = true ∧ fields .dlc = true
  bus : msg.bus.toInt = 0
  dlc : 0 ≤ msg.dlc.toInt ∧ msg.dlc.toInt ≤ 8
  id : 0 ≤ msg.id.toInt ∧ msg.id.toInt ≤ if msg.ext then 0x1fffffff else 0x7ff
  data : msg.rtr = false → (msg.data.length : Int) = msg.dlc.toInt
  missing : msg.rtr = false → fields .data = false → msg.dlc.toInt = 0
  remote : msg.rtr = true → msg.data = []
  bytes : ∀ byte ∈ msg.data, 0 ≤ byte.toInt ∧ byte.toInt ≤ 255

/-- A rule, by the code of its error object. -/
inductive Rule
  | missingField
  | unsupportedBus
  | invalidDlc
  | invalidId
  | missingData
  | dataLengthMismatch
  | rtrHasData
  | invalidData
deriving DecidableEq

def Rule.code : Rule → String
  | .missingField => "missing_field"
  | .unsupportedBus => "unsupported_bus"
  | .invalidDlc => "invalid_dlc"
  | .invalidId => "invalid_id"
  | .missingData => "missing_data"
  | .dataLengthMismatch => "data_length_mismatch"
  | .rtrHasData => "rtr_has_data"
  | .invalidData => "invalid_data"

/-- The order of validation. -/
def Rule.order : List Rule :=
  [.missingField, .unsupportedBus, .invalidDlc, .invalidId, .missingData, .dataLengthMismatch,
    .rtrHasData, .invalidData]

/-- The request breaks the rule. -/
def Rule.Broken (msg : CanJsonMessage) (fields : CanJsonField → Bool) : Rule → Prop
  | .missingField => ¬ (fields .bus = true ∧ fields .id = true ∧ fields .dlc = true)
  | .unsupportedBus => msg.bus.toInt ≠ 0
  | .invalidDlc => ¬ (0 ≤ msg.dlc.toInt ∧ msg.dlc.toInt ≤ 8)
  | .invalidId => ¬ (0 ≤ msg.id.toInt ∧ msg.id.toInt ≤ if msg.ext then 0x1fffffff else 0x7ff)
  | .missingData => msg.rtr = false ∧ 0 < msg.dlc.toInt ∧ fields .data = false
  | .dataLengthMismatch => msg.rtr = false ∧ (msg.data.length : Int) ≠ msg.dlc.toInt
  | .rtrHasData => msg.rtr = true ∧ msg.data ≠ []
  | .invalidData => ∃ byte ∈ msg.data, ¬ (0 ≤ byte.toInt ∧ byte.toInt ≤ 255)

/-- The first rule in the order that the request breaks. -/
def FirstBroken (msg : CanJsonMessage) (fields : CanJsonField → Bool) (rule : Rule) : Prop :=
  ∃ before after, Rule.order = before ++ rule :: after ∧ rule.Broken msg fields ∧
    ∀ earlier ∈ before, ¬ earlier.Broken msg fields

theorem documented_iff {msg : CanJsonMessage} {fields : CanJsonField → Bool} :
    Documented msg fields ↔ ∀ rule : Rule, ¬ rule.Broken msg fields := by
  constructor
  · intro documented rule
    cases rule with
    | missingField => exact not_not_intro documented.present
    | unsupportedBus => exact not_not_intro documented.bus
    | invalidDlc => exact not_not_intro documented.dlc
    | invalidId => exact not_not_intro documented.id
    | missingData =>
        rintro ⟨plain, pos, absent⟩
        have := documented.missing plain absent
        omega
    | dataLengthMismatch => exact fun broken => broken.2 (documented.data broken.1)
    | rtrHasData => exact fun broken => broken.2 (documented.remote broken.1)
    | invalidData => exact fun ⟨byte, within, broken⟩ => broken (documented.bytes byte within)
  · intro kept
    have dlc := Decidable.not_not.mp (kept .invalidDlc)
    exact {
      present := Decidable.not_not.mp (kept .missingField)
      bus := Decidable.not_not.mp (kept .unsupportedBus)
      dlc := dlc
      id := Decidable.not_not.mp (kept .invalidId)
      data := fun plain => Decidable.byContradiction fun other =>
        kept .dataLengthMismatch ⟨plain, other⟩
      missing := fun plain absent => Decidable.byContradiction fun other =>
        kept .missingData ⟨plain, by omega, absent⟩
      remote := fun rtr => Decidable.byContradiction fun some => kept .rtrHasData ⟨rtr, some⟩
      bytes := fun byte within => Decidable.byContradiction fun broken =>
        kept .invalidData ⟨byte, within, broken⟩ }

/-! ## The validator applies them in order -/

theorem toUInt32_nonneg {n : Int32} (nonneg : 0 ≤ n.toInt) :
    (n.toUInt32.toNat : Int) = n.toInt := by
  rw [Int32.toNat_toUInt32_of_le (Int32.le_iff_toInt_le.mpr nonneg)]
  exact Int.toNat_of_nonneg nonneg

theorem FirstBroken.intro {msg : CanJsonMessage} {fields : CanJsonField → Bool} {rule : Rule}
    (before after : List Rule) (order : Rule.order = before ++ rule :: after)
    (broken : rule.Broken msg fields) (kept : ∀ earlier ∈ before, ¬ earlier.Broken msg fields) :
    FirstBroken msg fields rule := ⟨before, after, order, broken, kept⟩

/-- A message refused for a rule: an error object with the rule's code. -/
def RefusedFor (response : Bytes) (rule : Rule) (reply : Reply) : Prop :=
  ∃ message err, (PlainText 40 rule.code ∧ PlainText 80 message) ∧ IsInt err ∧
    reply = wsReply response wsResponseMax rule.code message err

/-- One check after the other: the rules before it are kept. -/
theorem validateCanJson_verdict {msg : CanJsonMessage} {fields : CanJsonField → Bool}
    (absent : fields .data = false → msg.data = []) (response : Bytes) :
    (Documented msg fields ∧ validateCanJson msg fields response wsResponseMax = (0, response)) ∨
      ∃ rule, FirstBroken msg fields rule ∧
        RefusedFor response rule (validateCanJson msg fields response wsResponseMax) := by
  have invalid : IsInt (-eInval) := by decide
  have kept (rule : Rule) (ok : ¬ rule.Broken msg fields) {before : List Rule}
      (all : ∀ earlier ∈ before, ¬ earlier.Broken msg fields) :
      ∀ earlier ∈ before ++ [rule], ¬ earlier.Broken msg fields := by
    intro earlier member
    rcases List.mem_append.mp member with front | last
    · exact all earlier front
    · exact List.mem_singleton.mp last ▸ ok
  have none : ∀ earlier ∈ ([] : List Rule), ¬ earlier.Broken msg fields := by simp
  simp only [validateCanJson]
  by_cases missingField : ¬ (fields .bus = true ∧ fields .id = true ∧ fields .dlc = true)
  · rw [if_pos missingField]
    exact .inr ⟨.missingField, .intro [] _ rfl missingField none, _, _, by decide +kernel, invalid,
      rfl⟩
  rw [if_neg missingField]
  have one := kept .missingField missingField none
  by_cases unsupportedBus : msg.bus.toInt ≠ 0
  · rw [if_pos unsupportedBus]
    exact .inr ⟨.unsupportedBus, .intro _ _ rfl unsupportedBus one, _, _, by decide +kernel,
      by decide, rfl⟩
  rw [if_neg unsupportedBus]
  have two := kept .unsupportedBus unsupportedBus one
  by_cases invalidDlc : msg.dlc.toInt < 0 ∨ msg.dlc.toInt > canMaxDlc
  · rw [if_pos invalidDlc]
    have broken : Rule.invalidDlc.Broken msg fields := by
      show ¬ (0 ≤ msg.dlc.toInt ∧ msg.dlc.toInt ≤ 8)
      unfold canMaxDlc at invalidDlc
      omega
    exact .inr ⟨.invalidDlc, .intro _ _ rfl broken two, _, _, by decide +kernel, invalid, rfl⟩
  rw [if_neg invalidDlc]
  have dlc : 0 ≤ msg.dlc.toInt ∧ msg.dlc.toInt ≤ 8 := by
    unfold canMaxDlc at invalidDlc
    omega
  have three := kept .invalidDlc (not_not_intro dlc) two
  by_cases invalidId : msg.id.toInt < 0 ∨ (¬ msg.ext ∧ msg.id.toInt > canStdIdMask) ∨
      (msg.ext ∧ msg.id.toInt > canExtIdMask)
  · rw [if_pos invalidId]
    have broken : Rule.invalidId.Broken msg fields := by
      show ¬ (0 ≤ msg.id.toInt ∧ msg.id.toInt ≤ if msg.ext then 0x1fffffff else 0x7ff)
      unfold canStdIdMask canExtIdMask at invalidId
      cases ext : msg.ext <;> simp [ext] at invalidId ⊢ <;> omega
    exact .inr ⟨.invalidId, .intro _ _ rfl broken three, _, _, by decide +kernel, invalid, rfl⟩
  rw [if_neg invalidId]
  have id : 0 ≤ msg.id.toInt ∧ msg.id.toInt ≤ if msg.ext then 0x1fffffff else 0x7ff := by
    unfold canStdIdMask canExtIdMask at invalidId
    cases ext : msg.ext <;> simp [ext] at invalidId ⊢ <;> omega
  have four := kept .invalidId (not_not_intro id) three
  by_cases missingData : ¬ msg.rtr ∧ msg.dlc.toInt > 0 ∧ ¬ fields .data
  · rw [if_pos missingData]
    have broken : Rule.missingData.Broken msg fields := by
      simpa [Rule.Broken] using missingData
    exact .inr ⟨.missingData, .intro _ _ rfl broken four, _, _, by decide +kernel, invalid, rfl⟩
  rw [if_neg missingData]
  have five := kept .missingData (by simpa [Rule.Broken] using missingData) four
  have size := toUInt32_nonneg dlc.1
  by_cases mismatch : ¬ msg.rtr ∧ msg.data.length ≠ msg.dlc.toUInt32.toNat
  · rw [if_pos mismatch]
    have broken : Rule.dataLengthMismatch.Broken msg fields :=
      ⟨by simpa using mismatch.1, fun same => mismatch.2 (by omega)⟩
    exact .inr ⟨.dataLengthMismatch, .intro _ _ rfl broken five, _, _, by decide +kernel, invalid,
      rfl⟩
  rw [if_neg mismatch]
  have six := kept .dataLengthMismatch
    (fun broken => mismatch ⟨by simpa using broken.1, fun same => broken.2 (by omega)⟩) five
  by_cases rtrHasData : msg.rtr ∧ fields .data ∧ msg.data.length > 0
  · rw [if_pos rtrHasData]
    have broken : Rule.rtrHasData.Broken msg fields :=
      ⟨rtrHasData.1, List.length_pos_iff.mp rtrHasData.2.2⟩
    exact .inr ⟨.rtrHasData, .intro _ _ rfl broken six, _, _, by decide +kernel, invalid, rfl⟩
  rw [if_neg rtrHasData]
  have seven := kept .rtrHasData (fun broken => by
    -- data that is there was given
    have given : fields .data = true := Bool.of_not_eq_false fun no => broken.2 (absent no)
    exact rtrHasData ⟨broken.1, given, List.length_pos_iff.mpr broken.2⟩) six
  have outside : (msg.data.any fun byte => byte.toInt < 0 ∨ byte.toInt > 0xff) = true ↔
      Rule.invalidData.Broken msg fields := by
    rw [List.any_eq_true]
    refine exists_congr fun byte => and_congr_right fun _ => ?_
    rw [decide_eq_true_eq]
    omega
  by_cases invalidData : (msg.data.any fun byte => byte.toInt < 0 ∨ byte.toInt > 0xff) = true
  · rw [if_pos invalidData]
    exact .inr ⟨.invalidData, .intro _ _ rfl (outside.mp invalidData) seven, _, _,
      by decide +kernel, invalid, rfl⟩
  rw [if_neg invalidData]
  have all := kept .invalidData (fun broken => invalidData (outside.mpr broken)) seven
  exact .inl ⟨documented_iff.mpr fun rule => all rule (by cases rule <;> decide), rfl⟩

/-! ## The frame -/

/-- The frame is the one the message spells, with nothing cut off. -/
structure Carries (frame : CanFrame) (msg : CanJsonMessage) : Prop where
  id : (frame.id.toNat : Int) = msg.id.toInt
  dlc : (frame.dlc.toNat : Int) = msg.dlc.toInt
  flags : frame.flags = (if msg.ext then 1 else 0) + if msg.rtr then 2 else 0
  ide : frame.ide = msg.ext
  rtr : frame.rtr = msg.rtr
  data : ∀ (i : Nat) (h : i < 8),
    (frame.data[i].toNat : Int) = ((msg.data[i]?).map Int32.toInt).getD 0

theorem frameOfMessage_carries {msg : CanJsonMessage} {fields : CanJsonField → Bool}
    (documented : Documented msg fields) : Carries (frameOfMessage msg) msg := by
  have flags : ∀ ext rtr : Bool,
      (((if ext then canFrameIde else 0) ||| (if rtr then canFrameRtr else 0)) &&& canFrameIde != 0)
        = ext ∧
      (((if ext then canFrameIde else 0) ||| (if rtr then canFrameRtr else 0)) &&& canFrameRtr != 0)
        = rtr ∧
      ((if ext then canFrameIde else 0) ||| (if rtr then canFrameRtr else 0)) =
        (if ext then 1 else 0) + if rtr then 2 else 0 := by decide
  refine ⟨toUInt32_nonneg documented.id.1, ?_, (flags _ _).2.2, (flags _ _).1, (flags _ _).2.1, ?_⟩
  · have dlc := documented.dlc
    have wide := toUInt32_nonneg dlc.1
    show ((msg.dlc.toUInt32.toUInt8).toNat : Int) = _
    rw [UInt32.toNat_toUInt8]
    omega
  · intro i h
    have element : (frameOfMessage msg).data[i] =
        (msg.data[i]?.map fun byte => byte.toUInt32.toUInt8).getD 0 := by
      simp [frameOfMessage]
    rw [element]
    cases found : msg.data[i]? with
    | none => rfl
    | some byte =>
        have range := documented.bytes byte (List.mem_of_getElem? found)
        have wide := toUInt32_nonneg range.1
        show ((byte.toUInt32.toUInt8).toNat : Int) = byte.toInt
        rw [UInt32.toNat_toUInt8]
        omega

/-- The object describes the frame; a remote frame's data is empty. -/
structure Denotes (object : Object) (frame : CanFrame) : Prop where
  type : object.lookup "type" = some (.string (lit "can.tx"))
  bus : object.lookup "bus" = some (.number 0)
  id : object.lookup "id" = some (.number frame.id.toNat)
  ext : object.lookup "ext" = some (.bool frame.ide)
  rtr : object.lookup "rtr" = some (.bool frame.rtr)
  dlc : object.lookup "dlc" = some (.number frame.dlc.toNat)
  data : object.lookup "data" = some (.numbers
    (if frame.rtr then [] else frame.bytes.map fun byte => (byte.toNat : Int)))

theorem txReplyObject_denotes {msg : CanJsonMessage} {fields : CanJsonField → Bool}
    (documented : Documented msg fields) {frame : CanFrame} (carries : Carries frame msg)
    (us : UInt64) : Denotes (txReplyObject msg us) frame := by
  have bus : (txReplyObject msg us).lookup "bus" = some (.number msg.bus.toInt) := rfl
  refine ⟨rfl, ?_, ?_, ?_, ?_, ?_, ?_⟩
  · rw [bus, documented.bus]
  · rw [carries.id]
    rfl
  · rw [carries.ide]
    rfl
  · rw [carries.rtr]
    rfl
  · rw [carries.dlc]
    rfl
  · have data : (txReplyObject msg us).lookup "data" = some (.numbers (msg.data.map Int32.toInt)) :=
      rfl
    rw [data, carries.rtr]
    cases rtr : msg.rtr with
    | true => rw [documented.remote rtr]; rfl
    | false =>
        have count := documented.data rtr
        have dlc := carries.dlc
        have few := msg.dataLen_le
        have same : msg.data.map Int32.toInt = frame.bytes.map fun byte => (byte.toNat : Int) := by
          have max : canMaxDlc = 8 := rfl
          refine List.ext_getElem ?_ fun i lt within => ?_
          · simp only [CanFrame.bytes, List.length_map, List.length_take, Vector.length_toList]
            omega
          · rw [List.length_map] at lt
            have element := carries.data i (by omega)
            rw [List.getElem?_eq_getElem lt] at element
            simp only [CanFrame.bytes, List.getElem_map, List.getElem_take, Vector.getElem_toList,
              element, Option.map_some, Option.getD_some]
        rw [same]
        rfl

/-! ## Requests -/

/-- The text is an error object with this code. -/
def ReadsError (text : Bytes) (code : String) : Prop :=
  ∃ object, readObject text = some object ∧ object.lookup "type" = some (.string (lit "error")) ∧
    object.lookup "code" = some (.string (lit code))

theorem RefusedFor.reads {response : Bytes} {rule : Rule} {reply : Reply}
    (refused : RefusedFor response rule reply) : reply.1 ≠ 0 ∧ ReadsError reply.2 rule.code := by
  obtain ⟨message, err, plain, int, rfl⟩ := refused
  refine ⟨?_, _, wsReply_reads plain int response, rfl, rfl⟩
  rw [wsReply_eq]
  exact replyOf_error_ne _ _ _

/-- The request was enqueued as the frame it spells, and the reply says so. -/
def Enqueued (msg : CanJsonMessage) (b : Bridge) (reply : Reply) (b' : Bridge) : Prop :=
  ∃ frame, Carries frame msg ∧ b'.txQueue.items = b.txQueue.items ++ [frame] ∧
    b'.accepted = b.accepted ++ [frame] ∧
    ∃ object, readObject reply.2 = some object ∧ Denotes object frame

/-- The request left the bridge alone, and the reply is an error object with this code. -/
def Refused (code : String) (b : Bridge) (reply : Reply) (b' : Bridge) : Prop :=
  b' = b ∧ ReadsError reply.2 code

section
variable (parse : Bytes → ParseResult) (o : Outcome) (b : Bridge)

/-- A `can.tx` request comes to its branch. -/
theorem canBridgeHandleWsText_tx {payload : Bytes} {msg : CanJsonMessage}
    {fields : CanJsonField → Bool} (ready : b.canReady = true)
    (short : payload.length < canWsJsonMax) (parsed : parse payload = .fields fields msg)
    (asksTx : fields .type = true → msg.type = some (lit "can.tx")) (response : Bytes) :
    (canBridgeHandleWsText payload response wsResponseMax).attempt
        (fun c => exec parse .ws c o) b =
      (handleCanTx msg fields response wsResponseMax).attempt (fun c => exec parse .ws c o) b := by
  simp only [canBridgeHandleWsText, perform, Prog.perform_bind, Prog.attempt_call, exec, ready,
    Option.bind_some]
  rw [if_neg (not_not_intro trivial), if_neg (Nat.not_le.mpr short)]
  simp only [Prog.attempt_call, exec, parsed, Option.bind_some]
  by_cases typed : fields .type = true
  · have type := asksTx typed
    have isStatus : ¬ (msg.type = some (lit "can.status") ∨
        msg.type = some (lit "can.config.get")) := by rw [type]; decide
    have isConfig : ¬ msg.type = some (lit "can.config.set") := by rw [type]; decide
    rw [if_pos typed, if_neg isStatus, if_neg isConfig, if_neg (not_not_intro type)]
  · rw [if_neg typed]

theorem handleCanTx_enqueued {msg : CanJsonMessage} {fields : CanJsonField → Bool}
    {response : Bytes} (documented : Documented msg fields)
    (valid : validateCanJson msg fields response wsResponseMax = (0, response))
    (room : b.txQueue.items.length < canTxQueueLen) :
    ∃ reply b', (handleCanTx msg fields response wsResponseMax).attempt
        (fun c => exec parse .ws c o) b = some (reply, b') ∧ Enqueued msg b reply b' := by
  obtain ⟨queue, put, items⟩ := Fifo.put_of_room (a := frameOfMessage msg) room
  have carries := frameOfMessage_carries documented
  have object : readObject (txText msg o.us) = some (txReplyObject msg o.us) := by
    rw [txText_eq, readObject_objectText (txReplyObject_plain msg o.us)]
  have fits : ∀ us, (txText msg us).length < wsResponseMax := txText_length_lt msg
  refine ⟨(0, txText msg o.us),
    { b with txQueue := queue, accepted := b.accepted ++ [frameOfMessage msg] }, ?_,
    frameOfMessage msg, carries, items, rfl, txReplyObject msg o.us, object,
    txReplyObject_denotes documented carries o.us⟩
  rw [handleCanTx, valid]
  simp only
  rw [if_neg (not_not_intro rfl)]
  simp only [perform, Prog.perform_bind, Prog.attempt_call, exec, put, Option.bind_some]
  rw [if_neg (Int.lt_irrefl 0), formatCanTxResponse_eq response fits]
  rfl

theorem handleCanTx_full {msg : CanJsonMessage} {fields : CanJsonField → Bool}
    {response : Bytes} (valid : validateCanJson msg fields response wsResponseMax = (0, response))
    (full : ¬ b.txQueue.items.length < canTxQueueLen) :
    ∃ reply, (handleCanTx msg fields response wsResponseMax).attempt
        (fun c => exec parse .ws c o) b = some (reply, b) ∧ ReadsError reply.2 "can_tx_failed" := by
  have refused : b.txQueue.put (frameOfMessage msg) = none := by
    have := b.txQueue.bound
    rw [Fifo.put_eq_none]
    omega
  have reads : readObject (wsReply response wsResponseMax "can_tx_failed"
      "CAN TX software queue is full" (-eNoMsg)).2 = some _ :=
    wsReply_reads (by decide +kernel) (by decide) response
  refine ⟨(-eNoMsg, (wsReply response wsResponseMax "can_tx_failed"
    "CAN TX software queue is full" (-eNoMsg)).2), ?_, _, reads, rfl, rfl⟩
  rw [handleCanTx, valid]
  simp only
  rw [if_neg (not_not_intro rfl)]
  simp only [perform, Prog.perform_bind, Prog.attempt_call, exec, refused, Option.bind_some]
  rw [if_pos (show (-eNoMsg : Int) < 0 by decide)]
  rfl

theorem handleCanTx_refused {msg : CanJsonMessage} {fields : CanJsonField → Bool}
    {response : Bytes} {rule : Rule}
    (refused : RefusedFor response rule (validateCanJson msg fields response wsResponseMax)) :
    ∃ reply, (handleCanTx msg fields response wsResponseMax).attempt
        (fun c => exec parse .ws c o) b = some (reply, b) ∧ ReadsError reply.2 rule.code := by
  obtain ⟨nonzero, reads⟩ := refused.reads
  unfold handleCanTx
  generalize validateCanJson msg fields response wsResponseMax = reply at nonzero reads ⊢
  obtain ⟨ret, text⟩ := reply
  refine ⟨(ret, text), ?_, reads⟩
  simp only
  rw [if_pos nonzero]
  rfl

/-- A `can.tx` request to a ready bridge is enqueued exactly if it meets the documented rules
and the queue has room, as the frame it spells and with a reply that denotes it; otherwise
nothing changes and the reply names the first broken rule, or the full queue. -/
theorem tx_accepted_exactly {payload : Bytes} {msg : CanJsonMessage} {fields : CanJsonField → Bool}
    (ready : b.canReady = true) (short : payload.length < canWsJsonMax)
    (parsed : parse payload = .fields fields msg)
    (asksTx : fields .type = true → msg.type = some (lit "can.tx"))
    (absent : fields .data = false → msg.data = []) (response : Bytes) :
    ∃ reply b', (canBridgeHandleWsText payload response wsResponseMax).attempt
        (fun c => exec parse .ws c o) b = some (reply, b') ∧
      ((∃ frame, b'.txQueue.items = b.txQueue.items ++ [frame]) ↔
        Documented msg fields ∧ b.txQueue.items.length < canTxQueueLen) ∧
      (Documented msg fields → b.txQueue.items.length < canTxQueueLen → Enqueued msg b reply b') ∧
      (Documented msg fields → ¬ b.txQueue.items.length < canTxQueueLen →
        Refused "can_tx_failed" b reply b') ∧
      (¬ Documented msg fields → ∃ rule, FirstBroken msg fields rule ∧
        Refused rule.code b reply b') := by
  rw [canBridgeHandleWsText_tx parse o b ready short parsed asksTx]
  have unchanged : ¬ ∃ frame, b.txQueue.items = b.txQueue.items ++ [frame] := by
    rintro ⟨frame, grown⟩
    simp at grown
  rcases validateCanJson_verdict absent response with ⟨documented, valid⟩ | ⟨rule, first, refused⟩
  · by_cases room : b.txQueue.items.length < canTxQueueLen
    · obtain ⟨reply, b', run, enqueued⟩ := handleCanTx_enqueued parse o b documented valid room
      obtain ⟨frame, -, grown, -⟩ := id enqueued
      exact ⟨reply, b', run, ⟨fun _ => ⟨documented, room⟩, fun _ => ⟨frame, grown⟩⟩,
        fun _ _ => enqueued, fun _ full => absurd room full, fun broken => absurd documented broken⟩
    · obtain ⟨reply, run, reads⟩ := handleCanTx_full parse o b valid room
      exact ⟨reply, b, run, ⟨fun grown => absurd grown unchanged, fun both => absurd both.2 room⟩,
        fun _ room' => absurd room' room, fun _ _ => ⟨rfl, reads⟩,
        fun broken => absurd documented broken⟩
  · have broken : ¬ Documented msg fields := by
      obtain ⟨-, -, -, broken, -⟩ := first
      exact fun documented => documented_iff.mp documented rule broken
    obtain ⟨reply, run, reads⟩ := handleCanTx_refused parse o b refused
    exact ⟨reply, b, run, ⟨fun grown => absurd grown unchanged, fun both => absurd both.1 broken⟩,
      fun documented => absurd documented broken, fun documented => absurd documented broken,
      fun _ => ⟨rule, first, rfl, reads⟩⟩

end

/-- A request with an extended identifier and three bytes of data. -/
def threeBytesRequest : Bytes :=
  lit ("\x7b\"type\":\"can.tx\",\"bus\":0,\"id\":536870911,\"ext\":true,\"rtr\":false," ++
    "\"dlc\":3,\"data\":[1,128,255]\x7d")

def threeBytesMessage : CanJsonMessage :=
  { noMessage with
    type := some (lit "can.tx"), id := .ofNat 536870911, ext := true, dlc := .ofNat 3,
    data := [.ofNat 1, .ofNat 128, .ofNat 255], dataLen_le := by decide }

/-- What the JSON library makes of it. -/
def parseThreeBytes : Bytes → ParseResult :=
  parseText threeBytesRequest [.type, .bus, .id, .ext, .rtr, .dlc, .data] threeBytesMessage

theorem tx_accepted_exactly_threeBytes : ∃ reply b',
    (canBridgeHandleWsText threeBytesRequest [] wsResponseMax).attempt
      (fun c => exec parseThreeBytes .ws c {}) (Bridge.initialised true) = some (reply, b') ∧
    Enqueued threeBytesMessage (Bridge.initialised true) reply b' := by
  have parsed : parseThreeBytes threeBytesRequest = .fields (fun field => field ∈
      [CanJsonField.type, .bus, .id, .ext, .rtr, .dlc, .data]) threeBytesMessage :=
    parseText_text _ _ _
  have bytes : ∀ byte ∈ threeBytesMessage.data, 0 ≤ byte.toInt ∧ byte.toInt ≤ 255 := by
    simp only [threeBytesMessage, List.forall_mem_cons]
    exact ⟨by decide, by decide, by decide, List.forall_mem_nil _⟩
  have documented : Documented threeBytesMessage fun field => field ∈
      [CanJsonField.type, .bus, .id, .ext, .rtr, .dlc, .data] :=
    ⟨by decide, by decide, by decide, by decide, by decide, by decide, by decide, bytes⟩
  obtain ⟨reply, b', run, -, enqueued, -⟩ := tx_accepted_exactly parseThreeBytes {}
    (Bridge.initialised true) rfl (by decide) parsed (fun _ => rfl)
    (fun absent => absurd absent (by decide)) []
  exact ⟨reply, b', run, enqueued documented (by decide)⟩

end PicoCan.Can
