import PicoCan.Can.Format

/-!
# The frame printers and the size of their buffer

`can_bridge_format_next_rx` and `format_can_tx_response` with a buffer of any size: they print
the pieces of their object one behind the other, no print writes behind the buffer, and the
whole succeeds exactly when the text and its terminator fit.
-/

namespace PicoCan.Can

open Calls

/-- A text that is printed in pieces, into a buffer of any size. -/
structure Respects (responseLen : Nat) (response : Bytes) (pieces : List Bytes) (text : Bytes)
    (reply : Reply) : Prop where
  /-- The reply is that of the prints. -/
  prints : reply = printReply (printAll responseLen 0 response pieces).2
  whole : pieces.flatten = text
  success : reply.1 = 0 ↔ text.length + 1 ≤ responseLen
  printed : reply.1 = 0 → reply.2 = text
  failure : reply.1 ≠ 0 → reply.1 = -eNoMem
  /-- Behind the first, every print begins inside, so that the room that is left is no less than
  zero. -/
  inside : ∀ p ∈ (printAll responseLen 0 response pieces).1.tail, p.Inside responseLen
  /-- No print writes behind the buffer. -/
  within : ∀ p ∈ (printAll responseLen 0 response pieces).1, ∀ i, p.Writes i → i < responseLen

/-- Whatever the buffer held, a text that is printed from its beginning respects it. -/
theorem printAll_respects (responseLen : Nat) (response first : Bytes) (rest : List Bytes) :
    Respects responseLen response (first :: rest) (first :: rest).flatten
      (printReply (printAll responseLen 0 response (first :: rest)).2) := by
  have whole : (first :: rest).flatten.length = first.length + rest.flatten.length := by
    rw [List.flatten_cons, List.length_append]
  have room : sizeSub responseLen 0 = responseLen := sizeSub_eq (Nat.zero_le _)
  have never : ¬ -eNoMem = 0 := by decide
  -- the first print is told the size of the buffer, even when that is zero
  have bounded {i : Nat} (writes : (Print.mk 0 (sizeSub responseLen 0) first).Writes i) :
      i < responseLen := by
    obtain ⟨some, -, last⟩ := writes
    simp only [room] at some last
    omega
  by_cases fits : first.length < responseLen
  · obtain ⟨done, failed, made⟩ := printAll_loop rest first fits
    have step := printAll_first fits response rest
    have within : ∀ p ∈ (printAll responseLen 0 response (first :: rest)).1, ∀ i, p.Writes i →
        i < responseLen := by
      rw [step]
      intro p member i writes
      rcases List.mem_cons.mp member with rfl | later
      · exact bounded writes
      · exact (made p later).writes writes
    by_cases all : first.length + rest.flatten.length < responseLen
    · have result : printReply (printAll responseLen 0 response (first :: rest)).2 =
          (0, (first :: rest).flatten) := by
        rw [step, done all]
        rfl
      refine ⟨rfl, rfl, ?_, fun _ => ?_, fun failed => ?_, ?_, within⟩
      · rw [result, whole]
        exact ⟨fun _ => all, fun _ => rfl⟩
      · rw [result]
      · rw [result] at failed
        exact absurd rfl failed
      · rw [step]
        exact made
    · obtain ⟨buffer, full⟩ := failed all
      have result : printReply (printAll responseLen 0 response (first :: rest)).2 =
          (-eNoMem, buffer) := by
        rw [step, full]
        rfl
      refine ⟨rfl, rfl, ?_, fun success => ?_, fun _ => ?_, ?_, within⟩
      · rw [result, whole]
        exact ⟨fun success => absurd success never, fun all' => absurd all' all⟩
      · rw [result] at success
        exact absurd success never
      · rw [result]
      · rw [step]
        exact made
  · obtain ⟨buffer, full⟩ := printStep_full response (Nat.zero_le responseLen)
      (show ¬ 0 + first.length < responseLen by omega)
    have step : printAll responseLen 0 response (first :: rest) =
        ([⟨0, sizeSub responseLen 0, first⟩], .error buffer) := by
      rw [printAll, full]
    rw [step]
    refine ⟨by rw [step], rfl, ?_, fun success => absurd success never, fun _ => rfl, ?_, ?_⟩
    · rw [whole]
      exact ⟨fun success => absurd success never, fun all => by omega⟩
    · rw [step]
      exact fun p member => by cases member
    · rw [step]
      intro p member i writes
      rw [List.mem_singleton.mp member] at writes
      exact bounded writes

/-! ## The pieces of the two objects -/

def rxPieces (frame : CanFrame) (us : UInt64) : List Bytes :=
  rxHeadText frame ::
    (elementPieces 0 (frame.bytes.map fun byte => dec byte.toNat) ++ [rxTailText us])

def txPieces (msg : CanJsonMessage) (us : UInt64) : List Bytes :=
  txHeadText msg ::
    (elementPieces 0 (msg.data.map fun byte => decInt byte.toInt) ++ [txTailText us])

theorem rxPieces_flatten (frame : CanFrame) (us : UInt64) :
    (rxPieces frame us).flatten = rxText frame us := by
  rw [rxPieces, List.flatten_cons, List.flatten_append, elementPieces_flatten, List.flatten_cons,
    List.flatten_nil, List.append_nil, rxText, List.append_assoc]

theorem txPieces_flatten (msg : CanJsonMessage) (us : UInt64) :
    (txPieces msg us).flatten = txText msg us := by
  rw [txPieces, List.flatten_cons, List.flatten_append, elementPieces_flatten, List.flatten_cons,
    List.flatten_nil, List.append_nil, txText, List.append_assoc]

/-! ## The printers -/

section Runs

variable {σ : Type} {handle : (c : CanCall) → σ → c.Answer × σ} {us : UInt64}
  (clock : ∀ s, (handle .uptimeUs s).1 = us)
include clock

theorem printTimed_run (responseLen : Nat) (response : Bytes) (front : List Bytes)
    (tail : UInt64 → Bytes) (s : σ) :
    ((printTimed responseLen response front tail).run handle s).1 =
      printReply (printAll responseLen 0 response (front ++ [tail us])).2 := by
  rw [printAll_append]
  unfold printTimed
  cases (printAll responseLen 0 response front).2 with
  | error buffer => rfl
  | ok next =>
      simp only [Prog.run_call]
      rw [clock]
      rfl

/-- The printers of received and of queued frames respect every buffer, whatever it held, at every
time: zero exactly when the whole object and its terminator fit, and else `-ENOMEM`. -/
theorem frame_printers_respect (response : Bytes) (responseLen : Nat) (s : σ) :
    (∀ frame, (handle .rxGet s).1 = some frame → frame.dlc.toNat ≤ 8 →
      Respects responseLen response (rxPieces frame us) (rxText frame us)
        ((canBridgeFormatNextRx response responseLen).run handle s).1) ∧
    ∀ msg, Respects responseLen response (txPieces msg us) (txText msg us)
      ((formatCanTxResponse msg response responseLen).run handle s).1 := by
  constructor
  · intro frame taken classical
    have run : (canBridgeFormatNextRx response responseLen).run handle s =
        (formatRxFrame frame response responseLen).run handle (handle .rxGet s).2 := by
      simp only [canBridgeFormatNextRx, perform, Prog.perform_bind, Prog.run_call]
      rw [taken]
    rw [run, formatRxFrame_timed classical, printTimed_run clock, ← rxPieces_flatten]
    exact printAll_respects _ _ _ _
  · intro msg
    rw [formatCanTxResponse_timed, printTimed_run clock, ← txPieces_flatten]
    exact printAll_respects _ _ _ _

end Runs

/-- A bridge with a received frame, at a time. -/
def withFrame (frame : CanFrame) (us : UInt64) : (c : CanCall) → Unit → c.Answer × Unit
  | .rxGet, s => (some frame, s)
  | .uptimeUs, s => (us, s)
  | .deviceIsReady, s | .canReadyGet, s | .rxStreamingGet, s => (true, s)
  | .canSetMode _, s | .canSetBitrate _, s | .canStart _, s | .canStop, s | .canAddRxFilter _, s
  | .canSendWait, s | .txPut _, s | .rxPut _, s => ((0 : Int), s)
  | .canGetState, s => (⟨0, .errorActive, 0, 0⟩, s)
  | .canSendSubmit _ _, s => ((some 0 : Option Int), s)
  | .currentModeGet, s => ((0 : UInt32), s)
  | .currentBitrateGet, s => ((0 : UInt32), s)
  | .txGet, s => (frame, s)
  | .numUsedGet _, s | .numFreeGet _, s => ((0 : Nat), s)
  | .readPast _, s => ((0 : UInt8), s)
  | .jsonObjParse _, s => (.error errnoInval, s)
  | .mutexLock, s | .mutexUnlock, s | .canReadySet _, s | .currentModeSet _, s
  | .currentBitrateSet _, s | .rxPurge, s | .rxStreamingSet _, s | .txThreadCreate, s => ((), s)

def threeBytes : CanFrame := { id := 0x7ff, dlc := 3, data := #v[1, 0x80, 0xff, 0, 0, 0, 0, 0] }

/-- The head and two bytes of data fit, the third byte does not. -/
theorem frame_printers_respect_thirdByte :
    (printAll 83 0 [] (rxPieces threeBytes 7)).1.map (fun p => (p.offset, p.room, p.text.length)) =
      [(0, 83, 75), (75, 8, 1), (76, 7, 4), (80, 3, 4)] ∧
    ((canBridgeFormatNextRx [] 83).run (withFrame threeBytes 7) ()).1.1 = -eNoMem ∧
    Respects 83 [] (rxPieces threeBytes 7) (rxText threeBytes 7)
      ((canBridgeFormatNextRx [] 83).run (withFrame threeBytes 7) ()).1 := by
  have clock : ∀ s, (withFrame threeBytes 7 .uptimeUs s).1 = 7 := fun _ => rfl
  exact ⟨by decide +kernel, by decide +kernel,
    (frame_printers_respect clock [] 83 ()).1 threeBytes rfl (by decide)⟩

end PicoCan.Can
