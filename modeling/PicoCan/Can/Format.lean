import PicoCan.Can.Prints

/-!
# What the frame printers print

The objects of the two frame printers. As long as the whole text fits the buffer
they print exactly that text, and 512 bytes are always enough for the frames that
reach them.
-/

namespace PicoCan.Can

open Calls

/-- A complete `can.tx` object. -/
def txText (msg : CanJsonMessage) (us : UInt64) : Bytes :=
  txHeadText msg ++ elementsText 0 (msg.data.map fun byte => decInt byte.toInt) ++
    txTailText us

/-- A complete `can.rx` object. -/
def rxText (frame : CanFrame) (us : UInt64) : Bytes :=
  rxHeadText frame ++ elementsText 0 (frame.bytes.map fun byte => dec byte.toNat) ++
    rxTailText us

/-- With room for the whole object, the printer of `can.tx` prints it. -/
theorem formatCanTxResponse_eq {msg : CanJsonMessage} {responseLen : Nat} (response : Bytes)
    (fits : ∀ us, (txText msg us).length < responseLen) :
    formatCanTxResponse msg response responseLen =
      .call .uptimeUs fun us => .ret (0, txText msg us) := by
  unfold txText at fits ⊢
  rw [← elementPieces_flatten] at fits ⊢
  rw [formatCanTxResponse_timed, printTimed_fits response fits]

/-- With room for the whole object, the printer of `can.rx` prints a classical
frame. -/
theorem formatRxFrame_eq {frame : CanFrame} {responseLen : Nat} (response : Bytes)
    (classical : frame.dlc.toNat ≤ 8) (fits : ∀ us, (rxText frame us).length < responseLen) :
    formatRxFrame frame response responseLen =
      .call .uptimeUs fun us => .ret (0, rxText frame us) := by
  unfold rxText at fits ⊢
  rw [← elementPieces_flatten] at fits ⊢
  rw [formatRxFrame_timed classical, printTimed_fits response fits]

/-! ## What the validator answers -/

/-- The errors of the validator: code, message and number. -/
def validatorErrors : List (String × String × Int) :=
  [("missing_field", "CAN JSON must include bus, id and dlc", -eInval),
    ("unsupported_bus", "Only CAN bus 0 is available", -eNoDev),
    ("invalid_dlc", "CAN dlc must be between 0 and 8", -eInval),
    ("invalid_id", "CAN id is outside the selected frame format", -eInval),
    ("missing_data", "Data frames with dlc > 0 must include data", -eInval),
    ("data_length_mismatch", "data length must match dlc", -eInval),
    ("rtr_has_data", "RTR frames must not include data bytes", -eInval),
    ("invalid_data", "CAN data bytes must be between 0 and 255", -eInval)]

/-- Whatever the buffer, a check leaves it as it is, or answers with the same error. -/
def Checks (check : Bytes → Nat → Reply) : Prop :=
  (∀ response responseLen, check response responseLen = (0, response)) ∨
    ∃ code message err, (code, message, err) ∈ validatorErrors ∧
      ∀ response responseLen, check response responseLen =
        wsReply response responseLen code message err

theorem Checks.ite {c : Prop} [Decidable c] {first rest : Bytes → Nat → Reply}
    (failed : Checks first) (passed : Checks rest) :
    Checks fun response responseLen =>
      if c then first response responseLen else rest response responseLen := by
  by_cases h : c
  · simp only [if_pos h]
    exact failed
  · simp only [if_neg h]
    exact passed

theorem validateCanJson_checks (msg : CanJsonMessage) (fields : CanJsonField → Bool) :
    Checks (validateCanJson msg fields) := by
  unfold validateCanJson
  iterate 8
    refine .ite (.inr ⟨_, _, _, ?_, fun _ _ => rfl⟩) ?_
    · simp [validatorErrors]
  exact .inl fun _ _ => rfl

/-! ## How objects begin -/

/-- How every error object begins. -/
def errorHead : Bytes := lit "\x7b\"type\":\"error\",\"ok\":false,\"code\":\""

def statusHead : Bytes := lit "\x7b\"type\":\"can.status\",\"ok\":true,\"bus\":0,\"ready\":"

theorem errorText_begins (code message : String) (err : Int) :
    errorHead ++ lit code <+: errorText code message err := by
  simp only [errorText, errorHead, List.append_assoc, List.prefix_append_right_inj,
    List.prefix_append]

theorem statusText_begins (s : Status) : statusHead <+: statusText s := by
  unfold statusText statusHead
  simp only [List.append_assoc, List.prefix_append]

/-! ## Lengths -/

theorem jsonBool_length_le (b : Bool) : (jsonBool b).length ≤ 5 := by
  cases b <;> decide

theorem elementsText_length_le {k : Nat} (numbers : List Bytes) (i : Nat)
    (short : ∀ number ∈ numbers, number.length ≤ k) :
    (elementsText i numbers).length ≤ numbers.length * (k + 1) := by
  induction numbers generalizing i with
  | nil => simp [elementsText]
  | cons number rest ih =>
      have head : (elementText i number).length ≤ k + 1 := by
        have := short number List.mem_cons_self
        have comma : (lit ",").length = 1 := by decide
        unfold elementText
        split <;> simp only [List.length_append, List.length_nil] <;> omega
      have tail := ih (i + 1) fun n hn => short n (List.mem_cons_of_mem _ hn)
      simp only [elementsText, List.length_append, List.length_cons, Nat.succ_mul]
      omega

theorem decInt_int32_length_le (n : Int32) : (decInt n.toInt).length ≤ 11 := by
  have low := n.le_toInt
  have high := n.toInt_lt
  exact decInt_length_le (by decide) (by omega)

theorem clockText_length_le (us : UInt64) : (clockText us).length ≤ 20 := by
  have low := us.toInt64.le_toInt
  have high := us.toInt64.toInt_lt
  exact decInt_length_le (by decide) (by omega)

theorem txHeadText_length_le (msg : CanJsonMessage) : (txHeadText msg).length ≤ 112 := by
  have bus := decInt_int32_length_le msg.bus
  have id := decInt_int32_length_le msg.id
  have dlc := decInt_int32_length_le msg.dlc
  have ext := jsonBool_length_le msg.ext
  have rtr := jsonBool_length_le msg.rtr
  simp only [txHeadText, List.length_append]
  simp only [lit, List.length_map]
  simp
  omega

theorem txTailText_length_le (us : UInt64) : (txTailText us).length ≤ 42 := by
  have clock := clockText_length_le us
  simp only [txTailText, List.length_append]
  simp only [lit, List.length_map]
  simp
  omega

/-- Every `can.tx` object fits the response buffer of the WebSocket loop. -/
theorem txText_length_lt (msg : CanJsonMessage) (us : UInt64) :
    (txText msg us).length < 512 := by
  have head := txHeadText_length_le msg
  have tail := txTailText_length_le us
  have elements := elementsText_length_le
    (msg.data.map fun byte => decInt byte.toInt) 0 (k := 11) (by
      intro number hn
      obtain ⟨byte, -, rfl⟩ := List.mem_map.mp hn
      exact decInt_int32_length_le byte)
  have count := msg.dataLen_le
  simp only [List.length_map, canMaxDlc] at elements count
  simp only [txText, List.length_append]
  omega

theorem rxHeadText_length_le (frame : CanFrame) : (rxHeadText frame).length ≤ 83 := by
  have id : (dec frame.id.toNat).length ≤ 10 :=
    dec_length_le (by decide) (by have := frame.id.toNat_lt; omega)
  have dlc : (dec frame.dlc.toNat).length ≤ 3 :=
    dec_length_le (by decide) (by have := frame.dlc.toNat_lt; omega)
  have ext := jsonBool_length_le frame.ide
  have rtr := jsonBool_length_le frame.rtr
  simp only [rxHeadText, List.length_append]
  simp only [lit, List.length_map]
  simp
  omega

theorem rxTailText_length_le (us : UInt64) : (rxTailText us).length ≤ 28 := by
  have clock := clockText_length_le us
  simp only [rxTailText, List.length_append]
  simp only [lit, List.length_map]
  simp
  omega

theorem CanFrame.bytes_length_le (frame : CanFrame) : frame.bytes.length ≤ 8 := by
  simp only [CanFrame.bytes, List.length_take, Vector.length_toList]
  omega

theorem rxText_length_le (frame : CanFrame) (us : UInt64) : (rxText frame us).length ≤ 143 := by
  have head := rxHeadText_length_le frame
  have tail := rxTailText_length_le us
  have elements := elementsText_length_le
    (frame.bytes.map fun byte => dec byte.toNat) 0 (k := 3) (by
      intro number hn
      obtain ⟨byte, -, rfl⟩ := List.mem_map.mp hn
      exact dec_length_le (by decide) (by have := byte.toNat_lt; omega))
  have count := frame.bytes_length_le
  simp only [List.length_map] at elements
  simp only [rxText, List.length_append]
  omega

/-- Every `can.rx` object of a classical frame fits the response buffer. -/
theorem rxText_length_lt (frame : CanFrame) (us : UInt64) : (rxText frame us).length < 512 :=
  Nat.lt_of_le_of_lt (rxText_length_le frame us) (by decide)

/-! ## Frames with any DLC the bus can carry -/

/-- An element with its comma takes at most four characters. -/
theorem elementText_length_le (i : Nat) (byte : UInt8) :
    (elementText i (dec byte.toNat)).length ≤ 4 := by
  have digits : (dec byte.toNat).length ≤ 3 :=
    dec_length_le (by decide) (by have := byte.toNat_lt; omega)
  have comma : (if i = 0 then ([] : Bytes) else lit ",").length ≤ 1 := by
    split <;> decide
  rw [elementText, List.length_append]
  omega

/-- With four characters of room for each round the data loop ends well, whatever lies
behind the array. -/
theorem rxDataLoop_returns {responseLen : Nat} (frame : CanFrame) (left i : Nat)
    (printed : Bytes) (fits : printed.length + 4 * left < responseLen) :
    (rxDataLoop frame responseLen left i printed.length printed).Returns fun result =>
      ∃ text, result = .ok (text.length, text) ∧ printed <+: text ∧
        text.length ≤ printed.length + 4 * left := by
  induction left generalizing i printed with
  | zero => exact ⟨printed, rfl, List.prefix_rfl, Nat.le_refl _⟩
  | succ left ih =>
      refine (frameData frame i).returns_true.bind fun byte _ => ?_
      have element := elementText_length_le i byte
      rw [printStep_fits (by omega)]
      have longer : (printed ++ elementText i (dec byte.toNat)).length = _ := List.length_append
      refine (ih (i + 1) (printed ++ elementText i (dec byte.toNat)) (by omega)).mono ?_
      rintro result ⟨text, rfl, begins, length⟩
      exact ⟨text, rfl, (List.prefix_append _ _).trans begins, by omega⟩

/-- The printer of `can.rx` prints every frame the bus can carry. -/
theorem formatRxFrame_returns {frame : CanFrame} (dlc : frame.dlc.toNat ≤ 15)
    (response : Bytes) :
    (formatRxFrame frame response wsResponseMax).Returns fun reply =>
      reply.1 = 0 ∧ rxHeadText frame <+: reply.2 := by
  have head := rxHeadText_length_le frame
  have max : wsResponseMax = 512 := rfl
  rw [formatRxFrame, printStep_first (by omega)]
  refine (rxDataLoop_returns frame _ 0 _ (by omega)).bind ?_
  rintro _ ⟨text, rfl, begins, length⟩ us
  have tail := rxTailText_length_le us
  simp only [Prog.bind]
  rw [printStep_fits (by omega)]
  exact ⟨rfl, begins.trans (List.prefix_append _ _)⟩

end PicoCan.Can
