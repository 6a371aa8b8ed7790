import PicoCan.Calls.Program
import PicoCan.Calls.Fifo
import PicoCan.Calls.Text

/-!
# The CAN driver and kernel interface of `can_bridge.c`

Frames, filters, the controller as Zephyr's CAN API presents it, and the list
of calls `can_bridge.c` makes into the kernel, the driver and the JSON library
(`CanCall`). Nothing here is code of the bridge itself.

Every choice of the environment is a field of `Outcome`, so that a call is a
function of the state and one outcome: whether a driver call fails and with
which errno, what the controller reports, the clock, the bytes that lie behind
a frame on the stack.
-/

namespace PicoCan.Can

open Calls

/-! ## Errno values -/

/-- A failure code, within the range of `int`: the call returns its negative. -/
structure Errno where
  val : Nat
  pos : 0 < val := by decide
  lt : val < 2 ^ 31 := by decide
deriving DecidableEq

def Errno.ret (e : Errno) : Int := -(e.val : Int)

theorem Errno.ret_neg (e : Errno) : e.ret < 0 := by
  have := e.pos
  unfold Errno.ret
  omega

-- Numbers of the C library the firmware is linked with.
def eIo : Int := 5
def eAgain : Int := 11
def eNoMem : Int := 12
def eBusy : Int := 16
def eNoDev : Int := 19
def eInval : Int := 22
def eNoMsg : Int := 35
def eNetDown : Int := 115
def eAlready : Int := 120
def eMsgSize : Int := 122
def eNotSup : Int := 134

def errnoIo : Errno := { val := 5 }
def errnoInval : Errno := { val := 22 }

/-! ## Frames and filters -/

def canMaxDlc : Nat := 8
def canStdIdMask : Int := 0x7ff
def canExtIdMask : Int := 0x1fffffff
def canFrameIde : UInt8 := 1
def canFrameRtr : UInt8 := 2
def canFilterIde : UInt8 := 1

/-- `struct can_frame`: the data array has room for eight bytes. -/
structure CanFrame where
  id : UInt32 := 0
  dlc : UInt8 := 0
  flags : UInt8 := 0
  data : Vector UInt8 8 := Vector.replicate 8 0
deriving DecidableEq

namespace CanFrame

def ide (frame : CanFrame) : Bool := frame.flags &&& canFrameIde != 0

def rtr (frame : CanFrame) : Bool := frame.flags &&& canFrameRtr != 0

end CanFrame

structure CanFilter where
  id : UInt32
  mask : UInt32
  flags : UInt8
deriving DecidableEq

/-- The driver's filter rule: the frame formats agree and the identifiers agree
on the mask. -/
def CanFilter.accepts (filter : CanFilter) (frame : CanFrame) : Bool :=
  (frame.ide == (filter.flags &&& canFilterIde != 0)) &&
    ((frame.id ^^^ filter.id) &&& filter.mask == 0)

/-! ## The controller -/

/-- `enum can_state`; `other` stands for a value outside the enumeration. -/
inductive CanState
  | errorActive | errorWarning | errorPassive | busOff | stopped | other
deriving DecidableEq

/-- `can_mode_t` is a set of bits. -/
abbrev CanMode := UInt32

def canModeNormal : CanMode := 0
def canModeLoopback : CanMode := 1
def canModeListenonly : CanMode := 2

/-- Everything one call can be told by the environment. -/
structure Outcome where
  fail : Option Errno := none
  state : CanState := .errorActive
  txErr : UInt8 := 0
  rxErr : UInt8 := 0
  us : UInt64 := 0
  stray : UInt8 := 0
  deviceReady : Bool := true

/-- The place in the code a `can_start` is made from. -/
inductive StartSite
  | init | apply | recovery
deriving DecidableEq

/-- The controller's configuration and whether it runs. `gap` is a history
variable: it is set by a successful `can_stop` and cleared by the next
successful `can_start`, or by a recovery `can_start` that fails. -/
structure Controller where
  started : Bool
  mode : CanMode
  bitrate : UInt32
  gap : Bool := false
deriving DecidableEq

namespace Controller

/-- `can_stop`. -/
def stop (o : Outcome) (c : Controller) : Int × Controller :=
  if c.started then
    match o.fail with
    | some e => (e.ret, c)
    | none => (0, { c with started := false, gap := true })
  else (-eAlready, c)

/-- `can_set_mode`, refused while the controller runs. -/
def setMode (mode : CanMode) (o : Outcome) (c : Controller) : Int × Controller :=
  match o.fail with
  | some e => (e.ret, c)
  | none => if c.started then (-eBusy, c) else (0, { c with mode := mode })

/-- `can_set_bitrate`, refused while the controller runs. -/
def setBitrate (bitrate : UInt32) (o : Outcome) (c : Controller) : Int × Controller :=
  match o.fail with
  | some e => (e.ret, c)
  | none => if c.started then (-eBusy, c) else (0, { c with bitrate := bitrate })

/-- `can_start`. -/
def start (site : StartSite) (o : Outcome) (c : Controller) : Int × Controller :=
  if c.started then (-eAlready, c)
  else
    match o.fail with
    | some e => (e.ret, { c with gap := c.gap && site ≠ .recovery })
    | none => (0, { c with started := true, gap := false })

/-- What `can_send` answers at once, if it does not take the frame: it refuses
on a stopped controller, and possibly for want of a mailbox. -/
def refusal (o : Outcome) (c : Controller) : Option Int :=
  if c.started then o.fail.map Errno.ret else some (-eNetDown)

theorem stop_cases (o : Outcome) (c : Controller) :
    (c.started = false ∧ c.stop o = (-eAlready, c)) ∨
    (c.started = true ∧ ∃ e, o.fail = some e ∧ c.stop o = (e.ret, c)) ∨
    (c.started = true ∧ o.fail = none ∧
      c.stop o = (0, { c with started := false, gap := true })) := by
  cases running : c.started <;> cases failed : o.fail <;> simp [stop, running, failed]

theorem setMode_cases (mode : CanMode) (o : Outcome) (c : Controller) :
    (∃ ret, ret < 0 ∧ c.setMode mode o = (ret, c)) ∨
    (c.started = false ∧ c.setMode mode o = (0, { c with mode := mode })) := by
  cases running : c.started <;> cases failed : o.fail <;>
    simp [setMode, running, failed, Errno.ret_neg, eBusy]

theorem setBitrate_cases (bitrate : UInt32) (o : Outcome) (c : Controller) :
    (∃ ret, ret < 0 ∧ c.setBitrate bitrate o = (ret, c)) ∨
    (c.started = false ∧ c.setBitrate bitrate o = (0, { c with bitrate := bitrate })) := by
  cases running : c.started <;> cases failed : o.fail <;>
    simp [setBitrate, running, failed, Errno.ret_neg, eBusy]

theorem setMode_refused {mode : CanMode} {o : Outcome} {c : Controller}
    (neg : (c.setMode mode o).1 < 0) : (c.setMode mode o).2 = c := by
  rcases c.setMode_cases mode o with ⟨ret, -, eq⟩ | ⟨-, eq⟩
  · rw [eq]
  · rw [eq] at neg; exact absurd neg (Int.lt_irrefl 0)

theorem setMode_done {mode : CanMode} {o : Outcome} {c : Controller}
    (pos : ¬ (c.setMode mode o).1 < 0) :
    c.started = false ∧ c.setMode mode o = (0, { c with mode := mode }) := by
  rcases c.setMode_cases mode o with ⟨ret, neg, eq⟩ | done
  · rw [eq] at pos; exact absurd neg pos
  · exact done

theorem setBitrate_refused {bitrate : UInt32} {o : Outcome} {c : Controller}
    (neg : (c.setBitrate bitrate o).1 < 0) : (c.setBitrate bitrate o).2 = c := by
  rcases c.setBitrate_cases bitrate o with ⟨ret, -, eq⟩ | ⟨-, eq⟩
  · rw [eq]
  · rw [eq] at neg; exact absurd neg (Int.lt_irrefl 0)

theorem setBitrate_done {bitrate : UInt32} {o : Outcome} {c : Controller}
    (pos : ¬ (c.setBitrate bitrate o).1 < 0) :
    c.started = false ∧ c.setBitrate bitrate o = (0, { c with bitrate := bitrate }) := by
  rcases c.setBitrate_cases bitrate o with ⟨ret, neg, eq⟩ | done
  · rw [eq] at pos; exact absurd neg pos
  · exact done

theorem start_cases (site : StartSite) (o : Outcome) (c : Controller) :
    (c.started = true ∧ c.start site o = (-eAlready, c)) ∨
    (c.started = false ∧ ∃ e, o.fail = some e ∧
      c.start site o = (e.ret, { c with gap := c.gap && site ≠ .recovery })) ∨
    (c.started = false ∧ o.fail = none ∧
      c.start site o = (0, { c with started := true, gap := false })) := by
  cases running : c.started <;> cases failed : o.fail <;> simp [start, running, failed]

end Controller

/-! ## JSON requests -/

/-- The fields `can_json_descr` describes. -/
inductive CanJsonField
  | type | bus | id | ext | rtr | dlc | data | bitrate | mode
deriving DecidableEq

/-- `struct can_json_message`; `data` is the first `data_len` elements of the
array, which has room for `CAN_MAX_DLC`. -/
structure CanJsonMessage where
  type : Option Bytes := none
  bus : Int32 := 0
  id : Int32 := 0
  ext : Bool := false
  rtr : Bool := false
  dlc : Int32 := 0
  data : List Int32 := []
  bitrate : Int32 := 0
  mode : Option Bytes := none
  dataLen_le : data.length ≤ canMaxDlc := by decide

/-- What `json_obj_parse` returns: an error, or the set of fields it found and
the message it filled in. -/
inductive ParseResult
  | error (e : Errno)
  | fields (present : CanJsonField → Bool) (msg : CanJsonMessage)

/-! ## The calls -/

def canTxQueueLen : Nat := 8
def canRxQueueLen : Nat := 8

/-- The two software queues. -/
inductive QueueId
  | tx | rx
deriving DecidableEq

/-- What `can_get_state` fills in besides its return value. -/
structure StateReading where
  ret : Int
  state : CanState
  txErr : UInt8
  rxErr : UInt8

/-- The calls of `can_bridge.c` into its surroundings, reads and writes of its
shared variables included. `can_send` is two calls, since it returns only when
the bus is done with the frame. `readPast i` is a read of `frame.data[i]`
behind the end of the array. -/
inductive CanCall
  | deviceIsReady
  | canSetMode (mode : CanMode)
  | canSetBitrate (bitrate : UInt32)
  | canStart (site : StartSite)
  | canStop
  | canGetState
  | canAddRxFilter (filter : CanFilter)
  | canSendSubmit (frame : CanFrame) (timeoutMs : Nat)
  | canSendWait
  | mutexLock
  | mutexUnlock
  | canReadyGet
  | canReadySet (ready : Bool)
  | currentModeGet
  | currentModeSet (mode : CanMode)
  | currentBitrateGet
  | currentBitrateSet (bitrate : UInt32)
  | txPut (frame : CanFrame)
  | txGet
  | rxPut (frame : CanFrame)
  | rxGet
  | rxPurge
  | rxStreamingGet
  | rxStreamingSet (enabled : Bool)
  | numUsedGet (queue : QueueId)
  | numFreeGet (queue : QueueId)
  | uptimeUs
  | readPast (i : Nat)
  | jsonObjParse (json : Bytes)
  | txThreadCreate
deriving DecidableEq

/-- What each call answers. -/
abbrev CanCall.Answer : CanCall → Type
  | .deviceIsReady => Bool
  | .canSetMode _ | .canSetBitrate _ | .canStart _ | .canStop | .canAddRxFilter _ => Int
  | .canGetState => StateReading
  | .canSendSubmit _ _ => Option Int
  | .canSendWait => Int
  | .mutexLock | .mutexUnlock => Unit
  | .canReadyGet => Bool
  | .canReadySet _ => Unit
  | .currentModeGet => CanMode
  | .currentModeSet _ => Unit
  | .currentBitrateGet => UInt32
  | .currentBitrateSet _ => Unit
  | .txPut _ | .rxPut _ => Int
  | .txGet => CanFrame
  | .rxGet => Option CanFrame
  | .rxPurge => Unit
  | .rxStreamingGet => Bool
  | .rxStreamingSet _ => Unit
  | .numUsedGet _ | .numFreeGet _ => Nat
  | .uptimeUs => UInt64
  | .readPast _ => UInt8
  | .jsonObjParse _ => ParseResult
  | .txThreadCreate => Unit

/-- A function of `can_bridge.c`. -/
abbrev CanProg := Prog CanCall.Answer

/-- Make one call. -/
abbrev perform (c : CanCall) : CanProg c.Answer := Prog.perform c

end PicoCan.Can
