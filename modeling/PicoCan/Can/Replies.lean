import PicoCan.Can.Format

/-!
# Replies fit their buffer

Whatever the bridge answers, and whatever its calls return, the text it leaves in the
response buffer is shorter than the buffer: a print that does not fit is cut off, and no
function goes on behind such a print.
-/

namespace PicoCan.Can

open Calls

/-- The reply stays within the buffer. -/
def Fits (responseLen : Nat) (reply : Reply) : Prop := reply.2.length < responseLen

theorem printAt_length_lt {responseLen offset : Nat} (inside : offset < responseLen)
    (buffer text : Bytes) :
    (printAt buffer offset (sizeSub responseLen offset) text).2.length < responseLen := by
  have room : sizeSub responseLen offset = responseLen - offset := if_pos (Nat.le_of_lt inside)
  have pos : responseLen - offset ≠ 0 := by omega
  simp only [printAt, room, if_neg pos, List.length_append, List.length_take]
  omega

theorem wsReply_fits {responseLen : Nat} (pos : 0 < responseLen) (response : Bytes)
    (code message : String) (err : Int) :
    Fits responseLen (wsReply response responseLen code message err) :=
  printAt_length_lt pos response _

theorem snprintk_fits {responseLen : Nat} (pos : 0 < responseLen) (response text : Bytes) :
    Fits responseLen (snprintk response responseLen text) :=
  printAt_length_lt pos response _

/-- The buffer after a print that was cut off, and with the offset after one that was not. -/
def Bounded (responseLen : Nat) : Except Bytes (Nat × Bytes) → Prop
  | .error buffer => buffer.length < responseLen
  | .ok (next, buffer) => next < responseLen ∧ buffer.length < responseLen

/-- A print of the frame printers leaves the buffer and the offset within bounds. -/
theorem printStep_bounds {responseLen offset : Nat} (inside : offset < responseLen)
    (response text : Bytes) :
    Bounded responseLen (printStep responseLen offset response text) := by
  have length := printAt_length_lt inside response text
  have room : sizeSub responseLen offset = responseLen - offset := if_pos (Nat.le_of_lt inside)
  have ret : (printAt response offset (sizeSub responseLen offset) text).1 = text.length := rfl
  unfold printStep
  simp only [ret]
  by_cases full : (text.length : Int) < 0 ∨ (text.length : Int) ≥ (sizeSub responseLen offset : Int)
  · simp only [if_pos full]
    exact length
  · simp only [if_neg full]
    refine ⟨?_, length⟩
    rw [room] at full
    simp only [Int.toNat_natCast]
    omega

variable {responseLen : Nat} (pos : 0 < responseLen)
include pos

theorem canBridgeFormatStatus_fits (response : Bytes) :
    (canBridgeFormatStatus response responseLen).Returns (Fits responseLen) := by
  intro _ reading _
  refine .ite (fun _ => wsReply_fits pos _ _ _ _) fun _ => ?_
  intro _ _ _ _ _ _ _
  exact snprintk_fits pos _ _

omit pos in
theorem printAll_bounds (pieces : List Bytes) {offset : Nat} (inside : offset < responseLen)
    {response : Bytes} (fits : response.length < responseLen) :
    Bounded responseLen (printAll responseLen offset response pieces).2 := by
  induction pieces generalizing offset response with
  | nil => exact ⟨inside, fits⟩
  | cons text rest ih =>
      have bounds := printStep_bounds inside response text
      rw [printAll]
      cases printed : printStep responseLen offset response text with
      | error buffer => rw [printed] at bounds; exact bounds
      | ok next => rw [printed] at bounds; exact ih bounds.1 bounds.2

omit pos in
/-- What a printer leaves is in bounds if its prints are. -/
theorem Bounded.reply {result : Except Bytes (Nat × Bytes)} (bounds : Bounded responseLen result) :
    Fits responseLen (printReply result) := by
  cases result with
  | error buffer => exact bounds
  | ok next => exact bounds.2

theorem printTimed_within (response first : Bytes) (rest : List Bytes) (tail : UInt64 → Bytes) :
    (printTimed responseLen response (first :: rest) tail).Returns (Fits responseLen) := by
  have head := printStep_bounds pos response first
  unfold printTimed
  rw [printAll]
  cases printed : printStep responseLen 0 response first with
  | error buffer => rw [printed] at head; exact head
  | ok next =>
      rw [printed] at head
      have front := printAll_bounds rest head.1 head.2
      simp only
      cases rest : (printAll responseLen next.1 next.2 rest).2 with
      | error buffer => rw [rest] at front; exact front
      | ok next =>
          rw [rest] at front
          exact fun us => (printAll_bounds [tail us] front.1 front.2).reply

theorem formatCanTxResponse_fits (msg : CanJsonMessage) (response : Bytes) :
    (formatCanTxResponse msg response responseLen).Returns (Fits responseLen) := by
  rw [formatCanTxResponse_timed]
  exact printTimed_within pos _ _ _ _

theorem validateCanJson_fits (msg : CanJsonMessage) (fields : CanJsonField → Bool)
    (response : Bytes) (invalid : (validateCanJson msg fields response responseLen).1 ≠ 0) :
    Fits responseLen (validateCanJson msg fields response responseLen) := by
  rcases validateCanJson_checks msg fields with passed | ⟨code, message, err, -, refused⟩
  · rw [passed] at invalid
    exact absurd rfl invalid
  · rw [refused]
    exact wsReply_fits pos _ _ _ _

theorem handleCanTx_fits (msg : CanJsonMessage) (fields : CanJsonField → Bool)
    (response : Bytes) :
    (handleCanTx msg fields response responseLen).Returns (Fits responseLen) := by
  refine .ite (fun invalid => validateCanJson_fits pos _ _ _ invalid) fun _ ret => ?_
  refine .ite (fun _ => wsReply_fits pos _ _ _ _) fun _ => formatCanTxResponse_fits pos _ _

theorem handleCanConfigSet_fits (msg : CanJsonMessage) (fields : CanJsonField → Bool)
    (response : Bytes) :
    (handleCanConfigSet msg fields response responseLen).Returns (Fits responseLen) := by
  have any : ∀ {α : Type} (p : CanProg α), p.Returns fun _ => True := fun p => p.returns_true
  intro _ _
  refine .ite (fun _ => wsReply_fits pos _ _ _ _) fun _ => ?_
  refine .ite (fun _ => wsReply_fits pos _ _ _ _) fun _ => ?_
  intro _ _
  refine (any (applyCanConfig _ _)).bind fun ret _ _ => ?_
  refine .ite (fun _ => ?_) fun _ => canBridgeFormatStatus_fits pos _
  exact (any recoverCanConfig).bind fun _ _ => wsReply_fits pos _ _ _ _

/-- Every answer to a text message fits. -/
theorem canBridgeHandleWsText_fits (payload response : Bytes) :
    (canBridgeHandleWsText payload response responseLen).Returns (Fits responseLen) := by
  intro ready
  refine .ite (fun _ => wsReply_fits pos _ _ _ _) fun _ => ?_
  refine .ite (fun _ => wsReply_fits pos _ _ _ _) fun _ parsed => ?_
  cases parsed with
  | error e => exact wsReply_fits pos _ _ _ _
  | fields fields msg =>
      refine .ite (fun _ => .ite (fun _ => canBridgeFormatStatus_fits pos _) fun _ => ?_)
        fun _ => handleCanTx_fits pos _ _ _
      exact .ite (fun _ => handleCanConfigSet_fits pos _ _ _) fun _ =>
        .ite (fun _ => wsReply_fits pos _ _ _ _) fun _ => handleCanTx_fits pos _ _ _

omit pos in
theorem rxDataLoop_bounds (frame : CanFrame) (left i : Nat) {offset : Nat}
    (inside : offset < responseLen) {response : Bytes} (fits : response.length < responseLen) :
    (rxDataLoop frame responseLen left i offset response).Returns (Bounded responseLen) := by
  induction left generalizing i offset response with
  | zero => exact ⟨inside, fits⟩
  | succ left ih =>
      refine (frameData frame i).returns_true.bind fun byte _ => ?_
      have bounds := printStep_bounds inside response (elementText i (dec byte.toNat))
      cases printed : printStep responseLen offset response (elementText i (dec byte.toNat)) with
      | error buffer => rw [printed] at bounds; exact bounds
      | ok next => rw [printed] at bounds; exact ih (i + 1) bounds.1 bounds.2

/-- Every received frame that is printed fits. -/
theorem formatRxFrame_fits (frame : CanFrame) (response : Bytes) :
    (formatRxFrame frame response responseLen).Returns (Fits responseLen) := by
  have head := printStep_bounds pos response (rxHeadText frame)
  unfold formatRxFrame
  cases printed : printStep responseLen 0 response (rxHeadText frame) with
  | error buffer => rw [printed] at head; exact head
  | ok next =>
      rw [printed] at head
      refine (rxDataLoop_bounds frame _ 0 head.1 head.2).bind fun result bounds => ?_
      cases result with
      | error buffer => exact bounds
      | ok next =>
          intro us
          have tail := printStep_bounds bounds.1 next.2 (rxTailText us)
          simp only [Prog.bind]
          cases last : printStep responseLen next.1 next.2 (rxTailText us) with
          | error buffer => rw [last] at tail; exact tail
          | ok _ => rw [last] at tail; exact tail.2

end PicoCan.Can
