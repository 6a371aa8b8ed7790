import PicoCan.Can.Bridge

/-!
# Printing in pieces

The two frame printers print their object in pieces: a head, the array elements one by one, a
tail, each with its own check, and stop at the first piece that does not fit. `printAll` is
that sequence, with the prints it makes on the way. As long as the whole text fits the buffer
it leaves exactly that text, and every print behind the first begins inside.
-/

namespace PicoCan.Can

open Calls

/-! ## One piece -/

theorem sizeSub_eq {responseLen offset : Nat} (le : offset ≤ responseLen) :
    sizeSub responseLen offset = responseLen - offset := if_pos le

/-- A piece that fits behind the text printed so far is appended to it. -/
theorem printStep_fits {responseLen : Nat} {printed text : Bytes}
    (fits : printed.length + text.length < responseLen) :
    printStep responseLen printed.length printed text =
      .ok ((printed ++ text).length, printed ++ text) := by
  have room : sizeSub responseLen printed.length = responseLen - printed.length :=
    sizeSub_eq (by omega)
  have inside : text.length < responseLen - printed.length := by omega
  have check : ¬ ((text.length : Int) < 0 ∨
      (text.length : Int) ≥ ((responseLen - printed.length : Nat) : Int)) := by omega
  simp only [printStep, room, printAt_fits inside, List.take_length, if_neg check,
    List.length_append, Int.toNat_natCast]

/-- The first piece overwrites whatever the buffer held. -/
theorem printStep_first {responseLen : Nat} {response text : Bytes}
    (fits : text.length < responseLen) :
    printStep responseLen 0 response text = .ok (text.length, text) := by
  have room : sizeSub responseLen 0 = responseLen := sizeSub_eq (Nat.zero_le _)
  have check : ¬ ((text.length : Int) < 0 ∨ (text.length : Int) ≥ (responseLen : Int)) := by
    omega
  simp only [printStep, room, printAt_fits fits, List.take_zero, List.nil_append,
    if_neg check, Int.toNat_natCast, Nat.zero_add]

/-- A piece that does not fit is given up. -/
theorem printStep_full {responseLen offset : Nat} (response : Bytes) {text : Bytes}
    (inside : offset ≤ responseLen) (full : ¬ offset + text.length < responseLen) :
    ∃ buffer, printStep responseLen offset response text = .error buffer := by
  have room : sizeSub responseLen offset = responseLen - offset := sizeSub_eq inside
  have check :
      (text.length : Int) < 0 ∨ (text.length : Int) ≥ ((responseLen - offset : Nat) : Int) := by
    omega
  refine ⟨(printAt response offset (responseLen - offset) text).2, ?_⟩
  simp only [printStep, room]
  show (if (text.length : Int) < 0 ∨ (text.length : Int) ≥ ((responseLen - offset : Nat) : Int) then
    Except.error _ else _) = _
  rw [if_pos check]

/-! ## A sequence of prints -/

/-- One `snprintk(&response[offset], room, ..)`. -/
structure Print where
  offset : Nat
  room : Nat
  text : Bytes

/-- The bytes a print writes: what there is room for, and the terminator. -/
def Print.Writes (p : Print) (i : Nat) : Prop :=
  p.room ≠ 0 ∧ p.offset ≤ i ∧ i ≤ p.offset + min p.text.length (p.room - 1)

/-- The pieces are printed one behind the other until one does not fit: the prints made, and
the offset and the buffer behind the last, or the buffer that was given up. -/
def printAll (responseLen : Nat) :
    (offset : Nat) → Bytes → List Bytes → List Print × Except Bytes (Nat × Bytes)
  | offset, response, [] => ([], .ok (offset, response))
  | offset, response, text :: rest =>
      let made : Print := ⟨offset, sizeSub responseLen offset, text⟩
      match printStep responseLen offset response text with
      | .error response => ([made], .error response)
      | .ok (offset, response) =>
          let (more, result) := printAll responseLen offset response rest
          (made :: more, result)

/-- What a printer returns after its prints. -/
def printReply : Except Bytes (Nat × Bytes) → Reply
  | .error response => (-eNoMem, response)
  | .ok (_, response) => (0, response)

/-- A print begins inside the buffer, and is told how much of it is left. -/
def Print.Inside (responseLen : Nat) (p : Print) : Prop :=
  p.offset < responseLen ∧ p.room = responseLen - p.offset

theorem Print.Inside.writes {responseLen : Nat} {p : Print} (inside : p.Inside responseLen)
    {i : Nat} (writes : p.Writes i) : i < responseLen := by
  obtain ⟨before, room⟩ := inside
  obtain ⟨-, -, last⟩ := writes
  omega

/-- The loop: behind what has been printed, the rest is printed if it fits, and every print on
the way begins inside. -/
theorem printAll_loop {responseLen : Nat} (pieces : List Bytes) (printed : Bytes)
    (inside : printed.length < responseLen) :
    (printed.length + pieces.flatten.length < responseLen →
      (printAll responseLen printed.length printed pieces).2 =
        .ok ((printed ++ pieces.flatten).length, printed ++ pieces.flatten)) ∧
    (¬ printed.length + pieces.flatten.length < responseLen →
      ∃ buffer, (printAll responseLen printed.length printed pieces).2 = .error buffer) ∧
    ∀ p ∈ (printAll responseLen printed.length printed pieces).1, p.Inside responseLen := by
  have here (text : Bytes) :
      (Print.mk printed.length (sizeSub responseLen printed.length) text).Inside responseLen :=
    ⟨inside, sizeSub_eq (Nat.le_of_lt inside)⟩
  induction pieces generalizing printed with
  | nil =>
      refine ⟨fun _ => ?_, fun full => absurd inside full, fun p member => by cases member⟩
      rw [List.flatten_nil, List.append_nil]
      rfl
  | cons text rest ih =>
      have whole : (text :: rest).flatten.length = text.length + rest.flatten.length := by
        rw [List.flatten_cons, List.length_append]
      by_cases fits : printed.length + text.length < responseLen
      · -- the invariant of the loop: what has been printed ends inside the buffer
        have next : (printed ++ text).length < responseLen := by
          rw [List.length_append]
          exact fits
        obtain ⟨done, failed, made⟩ := ih (printed ++ text) next
          fun text => ⟨next, sizeSub_eq (Nat.le_of_lt next)⟩
        rw [List.length_append] at done failed
        simp only [printAll, printStep_fits fits]
        rw [whole]
        refine ⟨fun all => ?_, fun full => ?_, fun p member => ?_⟩
        · rw [List.flatten_cons, ← List.append_assoc]
          rw [← List.length_append] at done
          exact done (by rw [List.length_append]; omega)
        · rw [← List.length_append] at failed
          exact failed (by rw [List.length_append]; omega)
        · rcases List.mem_cons.mp member with rfl | later
          · exact here text
          · exact made p later
      · obtain ⟨buffer, full⟩ := printStep_full printed (Nat.le_of_lt inside) fits
        simp only [printAll, full]
        refine ⟨fun all => ?_, fun _ => ⟨buffer, rfl⟩, fun p member => ?_⟩
        · omega
        · rw [List.mem_singleton.mp member]
          exact here text

/-- The pieces up to a point, and then the rest. -/
theorem printAll_append (responseLen offset : Nat) (response : Bytes) (front rest : List Bytes) :
    (printAll responseLen offset response (front ++ rest)).2 =
      match (printAll responseLen offset response front).2 with
      | .error response => .error response
      | .ok (offset, response) => (printAll responseLen offset response rest).2 := by
  induction front generalizing offset response with
  | nil => rfl
  | cons text front ih =>
      rw [List.cons_append, printAll, printAll]
      cases printStep responseLen offset response text with
      | error buffer => rfl
      | ok next => exact ih next.1 next.2

/-- From the beginning, the first piece is printed over what the buffer held. -/
theorem printAll_first {responseLen : Nat} {first : Bytes} (fits : first.length < responseLen)
    (response : Bytes) (rest : List Bytes) :
    printAll responseLen 0 response (first :: rest) =
      (⟨0, sizeSub responseLen 0, first⟩ :: (printAll responseLen first.length first rest).1,
        (printAll responseLen first.length first rest).2) := by
  rw [printAll, printStep_first fits]

/-! ## The array -/

/-- The data bytes a frame carries. -/
def CanFrame.bytes (frame : CanFrame) : List UInt8 := frame.data.toList.take frame.dlc.toNat

/-- The array elements from index `i` on, with their commas. -/
def elementsText : Nat → List Bytes → Bytes
  | _, [] => []
  | i, number :: rest => elementText i number ++ elementsText (i + 1) rest

/-- The array elements from index `i` on, one by one. -/
def elementPieces : Nat → List Bytes → List Bytes
  | _, [] => []
  | i, number :: rest => elementText i number :: elementPieces (i + 1) rest

theorem elementPieces_flatten (i : Nat) (numbers : List Bytes) :
    (elementPieces i numbers).flatten = elementsText i numbers := by
  induction numbers generalizing i with
  | nil => rfl
  | cons number rest ih => rw [elementPieces, List.flatten_cons, ih, elementsText]

theorem txDataLoop_eq (responseLen : Nat) (data : List Int32) (i offset : Nat) (response : Bytes) :
    txDataLoop responseLen data i offset response =
      (printAll responseLen offset response
        (elementPieces i (data.map fun byte => decInt byte.toInt))).2 := by
  induction data generalizing i offset response with
  | nil => rfl
  | cons byte rest ih =>
      rw [txDataLoop, List.map_cons, elementPieces, printAll]
      cases printStep responseLen offset response (elementText i (decInt byte.toInt)) with
      | error buffer => rfl
      | ok next => exact ih (i + 1) next.1 next.2

/-- The loop over a classical frame stays inside its array. -/
theorem rxDataLoop_eq (frame : CanFrame) (responseLen left i offset : Nat) (response : Bytes)
    (inside : i + left ≤ 8) :
    rxDataLoop frame responseLen left i offset response =
      .ret (printAll responseLen offset response (elementPieces i
        (((frame.data.toList.drop i).take left).map fun byte => dec byte.toNat))).2 := by
  induction left generalizing i offset response with
  | zero => rfl
  | succ left ih =>
      have here : i < 8 := by omega
      have split : (frame.data.toList.drop i).take (left + 1) =
          frame.data[i] :: (frame.data.toList.drop (i + 1)).take left := by
        rw [List.drop_eq_getElem_cons (by simpa using here)]
        simp
      rw [rxDataLoop, frameData, dif_pos here, split, List.map_cons, elementPieces, printAll]
      simp only [Prog.ret_bind]
      cases printStep responseLen offset response (elementText i (dec frame.data[i].toNat)) with
      | error buffer => rfl
      | ok next => exact ih (i + 1) next.1 next.2 (by omega)

/-! ## The printers -/

/-- A printer that reads the clock before its last piece. -/
def printTimed (responseLen : Nat) (response : Bytes) (front : List Bytes) (tail : UInt64 → Bytes) :
    CanProg Reply :=
  match (printAll responseLen 0 response front).2 with
  | .error response => .ret (-eNoMem, response)
  | .ok (offset, response) =>
      .call .uptimeUs fun us => .ret (printReply (printAll responseLen offset response [tail us]).2)

theorem printReply_last (responseLen offset : Nat) (response text : Bytes) :
    printReply (printAll responseLen offset response [text]).2 =
      match printStep responseLen offset response text with
      | .error response => (-eNoMem, response)
      | .ok (_, response) => (0, response) := by
  rw [printAll]
  cases printStep responseLen offset response text with
  | error buffer => rfl
  | ok next => rfl

theorem formatCanTxResponse_timed (msg : CanJsonMessage) (response : Bytes) (responseLen : Nat) :
    formatCanTxResponse msg response responseLen =
      printTimed responseLen response
        (txHeadText msg :: elementPieces 0 (msg.data.map fun byte => decInt byte.toInt))
          txTailText := by
  unfold formatCanTxResponse printTimed
  rw [printAll]
  cases printStep responseLen 0 response (txHeadText msg) with
  | error buffer => rfl
  | ok next =>
      simp only
      rw [txDataLoop_eq]
      cases (printAll responseLen next.1 next.2 (elementPieces 0
          (msg.data.map fun byte => decInt byte.toInt))).2 with
      | error buffer => rfl
      | ok next =>
          simp only [perform, Prog.perform_bind, printReply_last]
          congr 1
          funext us
          cases printStep responseLen next.1 next.2 (txTailText us) with
          | error buffer => rfl
          | ok last => rfl

theorem formatRxFrame_timed {frame : CanFrame} (classical : frame.dlc.toNat ≤ 8) (response : Bytes)
    (responseLen : Nat) :
    formatRxFrame frame response responseLen =
      printTimed responseLen response
        (rxHeadText frame :: elementPieces 0 (frame.bytes.map fun byte => dec byte.toNat))
        rxTailText := by
  unfold formatRxFrame printTimed
  rw [printAll]
  cases printStep responseLen 0 response (rxHeadText frame) with
  | error buffer => rfl
  | ok next =>
      simp only
      rw [rxDataLoop_eq frame responseLen frame.dlc.toNat 0 next.1 next.2 (by omega),
        CanFrame.bytes, List.drop_zero]
      cases (printAll responseLen next.1 next.2 (elementPieces 0
          ((frame.data.toList.take frame.dlc.toNat).map fun byte => dec byte.toNat))).2 with
      | error buffer => rfl
      | ok next =>
          simp only [Prog.ret_bind, perform, Prog.perform_bind, printReply_last]
          congr 1
          funext us
          cases printStep responseLen next.1 next.2 (rxTailText us) with
          | error buffer => rfl
          | ok last => rfl

/-- With room for the whole text at any time, it is what is left. -/
theorem printTimed_fits {responseLen : Nat} (response : Bytes) {first : Bytes} {rest : List Bytes}
    {tail : UInt64 → Bytes}
    (fits : ∀ us, (first ++ rest.flatten ++ tail us).length < responseLen) :
    printTimed responseLen response (first :: rest) tail =
      .call .uptimeUs fun us => .ret (0, first ++ rest.flatten ++ tail us) := by
  have bound := fits 0
  rw [List.length_append, List.length_append] at bound
  have done := (printAll_loop rest first (show first.length < responseLen by omega)).1 (by omega)
  unfold printTimed
  rw [printAll_first (by omega), done]
  simp only [printReply_last]
  congr 1
  funext us
  have whole := fits us
  rw [List.length_append] at whole
  rw [printStep_fits whole]

end PicoCan.Can
