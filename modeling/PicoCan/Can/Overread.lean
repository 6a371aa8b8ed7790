import PicoCan.Can.Format

/-!
# Reads behind a frame's data

The printer of `can.rx` runs its data loop up to the frame's length code, and nothing on
the way from the driver to the printer bounds it. Up to eight the object lists the frame's
bytes; above, the loop reads what lies behind the array.
-/

namespace PicoCan.Can

open Calls

/-- The calls other than a read behind the data array. -/
def InsideArray (c : CanCall) : Prop :=
  match c with
  | .readPast _ => False
  | _ => True

/-- What the printer does with a frame it takes from the queue. -/
def PrintsTaken (frame : CanFrame) (P : CanProg Reply → Prop) : Prop :=
  ∀ response, ∃ k, canBridgeFormatNextRx response wsResponseMax = .call .rxGet k ∧
    P (k (some frame))

/-- The printer keeps to the frame: it reads nothing behind the data array, and its object
lists the bytes the frame carries. -/
def StaysInside (frame : CanFrame) : Prop :=
  PrintsTaken frame fun printer =>
    printer.Only InsideArray ∧ printer.Returns fun reply => ∃ us, reply = (0, rxText frame us)

/-- With nine rounds in front of it the loop comes to index eight. -/
theorem rxDataLoop_overreads (frame : CanFrame) {responseLen : Nat} (left i : Nat)
    (printed : Bytes) (before : i ≤ 8) (beyond : 8 < i + left)
    (fits : printed.length + 4 * (9 - i) < responseLen) :
    ¬ (rxDataLoop frame responseLen left i printed.length printed).Only InsideArray := by
  induction left generalizing i printed with
  | zero => omega
  | succ left ih =>
      intro only
      by_cases here : i < 8
      · have element := elementText_length_le i frame.data[i]
        rw [rxDataLoop, frameData, dif_pos here, Prog.ret_bind, printStep_fits (by omega)] at only
        refine ih (i + 1) (printed ++ elementText i (dec frame.data[i].toNat)) (by omega) (by omega)
          ?_ only
        rw [List.length_append]
        omega
      · have read := Prog.Only.of_bind only
        rw [frameData, dif_neg here] at read
        exact read.1

/-- The printer stays inside the frame's data exactly if the length code is at most eight. -/
theorem rx_stays_inside (frame : CanFrame) : StaysInside frame ↔ frame.dlc.toNat ≤ 8 := by
  constructor
  · intro stays
    obtain ⟨k, taken, only, -⟩ := stays []
    have printer : k (some frame) = formatRxFrame frame [] wsResponseMax := by
      cases taken
      rfl
    rw [printer] at only
    refine Decidable.byContradiction fun long => ?_
    have head := rxHeadText_length_le frame
    have max : wsResponseMax = 512 := rfl
    rw [formatRxFrame, printStep_first (by omega)] at only
    exact rxDataLoop_overreads frame frame.dlc.toNat 0 (rxHeadText frame) (by omega) (by omega)
      (by omega) (Prog.Only.of_bind only)
  · intro classical response
    have room (us : UInt64) : (rxText frame us).length < wsResponseMax := rxText_length_lt frame us
    have printed := formatRxFrame_eq response classical room
    refine ⟨_, rfl, ?_⟩
    show (formatRxFrame frame response wsResponseMax).Only InsideArray ∧
      (formatRxFrame frame response wsResponseMax).Returns _
    rw [printed]
    exact ⟨⟨trivial, fun _ => trivial⟩, fun us => ⟨us, rfl⟩⟩

def longFrame : CanFrame := { id := 0x123, dlc := 9 }

/-- A frame with the length code nine is read beyond its data. -/
theorem long_frame_overread : ¬ ∀ frame : CanFrame, frame.dlc.toNat ≤ 15 → StaysInside frame := by
  intro stays
  obtain ⟨k, taken, only, -⟩ := stays longFrame (by decide) []
  have printer : k (some longFrame) = formatRxFrame longFrame [] wsResponseMax := by
    cases taken
    rfl
  rw [printer, formatRxFrame, printStep_first (by decide)] at only
  exact rxDataLoop_overreads longFrame 9 0 (rxHeadText longFrame) (by decide) (by decide)
    (by decide) (Prog.Only.of_bind only)

end PicoCan.Can
