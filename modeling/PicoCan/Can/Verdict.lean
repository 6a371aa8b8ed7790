import PicoCan.Can.Requests

/-!
# The verdict on a request

What one request does, whatever the driver returns to each of its calls: `answers` takes
the return codes from a function of the calls and keeps only the variables of the bridge.
The driver's codes need not fit together as a real controller's would, so every
combination of them is covered.
-/

namespace PicoCan.Can

open Calls

/-- The variables of the bridge that requests read and write. -/
structure Variables where
  canReady : Bool
  currentMode : CanMode
  currentBitrate : UInt32
deriving DecidableEq

/-- What the calls of one request are answered, the variables aside: a request makes each of
them at most once. -/
structure Codes where
  parse : Bytes → ParseResult
  stop : Int := 0
  setMode : CanMode → Int := fun _ => 0
  setBitrate : UInt32 → Int := fun _ => 0
  start : StartSite → Int := fun _ => 0
  reading : StateReading := ⟨0, .errorActive, 0, 0⟩
  put : CanFrame → Int := fun _ => 0
  numUsed : QueueId → Nat := fun _ => 0
  numFree : QueueId → Nat := fun _ => 8
  us : UInt64 := 0

/-- One call of a request. -/
def answers (codes : Codes) : (c : CanCall) → Variables → c.Answer × Variables
  | .canReadyGet, v => (v.canReady, v)
  | .canReadySet ready, v => ((), { v with canReady := ready })
  | .currentModeGet, v => (v.currentMode, v)
  | .currentModeSet mode, v => ((), { v with currentMode := mode })
  | .currentBitrateGet, v => (v.currentBitrate, v)
  | .currentBitrateSet bitrate, v => ((), { v with currentBitrate := bitrate })
  | .canStop, v => (codes.stop, v)
  | .canSetMode mode, v => (codes.setMode mode, v)
  | .canSetBitrate bitrate, v => (codes.setBitrate bitrate, v)
  | .canStart site, v => (codes.start site, v)
  | .canGetState, v => (codes.reading, v)
  | .txPut frame, v => (codes.put frame, v)
  | .numUsedGet queue, v => (codes.numUsed queue, v)
  | .numFreeGet queue, v => (codes.numFree queue, v)
  | .uptimeUs, v => (codes.us, v)
  | .jsonObjParse json, v => (codes.parse json, v)
  | .mutexLock, v | .mutexUnlock, v => ((), v)
  -- the rest is never asked by a request
  | .deviceIsReady, v | .rxStreamingGet, v => (true, v)
  | .canAddRxFilter _, v | .canSendWait, v | .rxPut _, v => ((0 : Int), v)
  | .canSendSubmit _ _, v => (some (0 : Int), v)
  | .txGet, v => (({} : CanFrame), v)
  | .rxGet, v => ((none : Option CanFrame), v)
  | .readPast _, v => ((0 : UInt8), v)
  | .rxPurge, v | .rxStreamingSet _, v | .txThreadCreate, v => ((), v)

/-- The calls that only read the bridge's state. -/
def OnlyReads (c : CanCall) : Prop :=
  match c with
  | .canReadyGet | .jsonObjParse _ | .mutexLock | .mutexUnlock | .canGetState | .currentModeGet
  | .currentBitrateGet | .numUsedGet _ | .numFreeGet _ => True
  | _ => False

/-- The calls into the driver. -/
def DriverCall (c : CanCall) : Prop :=
  match c with
  | .canStop | .canSetMode _ | .canSetBitrate _ | .canStart _ | .canGetState => True
  | _ => False

/-! ## The locked section -/

/-- The driver lets the section come to its `can_start`. -/
def ReachesStart (codes : Codes) (mode : CanMode) (bitrate : UInt32) : Prop :=
  ¬ (codes.stop < 0 ∧ codes.stop ≠ -eAlready) ∧ 0 ≤ codes.setMode mode ∧
    0 ≤ codes.setBitrate bitrate

/-- The driver lets the section record the new configuration. -/
def LetsCommit (codes : Codes) (mode : CanMode) (bitrate : UInt32) : Prop :=
  ReachesStart codes mode bitrate ∧
    ¬ (codes.start .apply < 0 ∧ codes.start .apply ≠ -eAlready)

/-- The calls that record a configuration. -/
def RecordsConfig (c : CanCall) : Prop :=
  match c with
  | .currentModeSet _ | .currentBitrateSet _ => True
  | _ => False

theorem applyCanConfig_logged (codes : Codes) (mode : CanMode) (bitrate : UInt32) (v : Variables)
    (log : List CanCall) {Q : Int → Variables × List CanCall → Prop}
    (commits : LetsCommit codes mode bitrate → Q (codes.start .apply)
      (⟨true, mode, bitrate⟩, log ++ [.canStop, .canSetMode mode, .canSetBitrate bitrate,
        .canStart .apply, .currentModeSet mode, .currentBitrateSet bitrate, .canReadySet true]))
    (fails : ¬ LetsCommit codes mode bitrate → ∀ ret < 0, ∀ calls,
      (∀ c ∈ calls, ¬ RecordsConfig c) → Q ret (v, log ++ calls)) :
    (applyCanConfig mode bitrate).wp (Spec.of (Prog.logged (answers codes))) Q (v, log) := by
  refine (Prog.wp_ite _ _ _ _ _ _).mpr ⟨fun stop => ?_, fun stopped => ?_⟩
  · exact fails (fun lets => lets.1.1 stop) codes.stop stop.1 [.canStop] (by simp [RecordsConfig])
  refine (Prog.wp_ite _ _ _ _ _ _).mpr ⟨fun setMode => ?_, fun modeSet => ?_⟩
  · have calls := fails (fun lets => Int.not_lt.mpr lets.1.2.1 setMode) _ setMode
      [.canStop, .canSetMode mode] (by simp [RecordsConfig])
    rwa [List.append_cons] at calls
  refine (Prog.wp_ite _ _ _ _ _ _).mpr ⟨fun setBitrate => ?_, fun bitrateSet => ?_⟩
  · have calls := fails (fun lets => Int.not_lt.mpr lets.1.2.2 setBitrate) _ setBitrate
      [.canStop, .canSetMode mode, .canSetBitrate bitrate] (by simp [RecordsConfig])
    rwa [List.append_cons, List.append_cons] at calls
  refine (Prog.wp_ite _ _ _ _ _ _).mpr ⟨fun start => ?_, fun started => ?_⟩
  · have calls := fails (fun lets => lets.2 start) _ start.1
      [.canStop, .canSetMode mode, .canSetBitrate bitrate, .canStart .apply]
      (by simp [RecordsConfig])
    rwa [List.append_cons, List.append_cons, List.append_cons] at calls
  · have calls := commits ⟨⟨stopped, Int.not_lt.mp modeSet, Int.not_lt.mp bitrateSet⟩, started⟩
    rwa [List.append_cons, List.append_cons, List.append_cons, List.append_cons,
      List.append_cons, List.append_cons] at calls

theorem recoverCanConfig_logged (codes : Codes) (v : Variables) (log : List CanCall)
    {Q : Unit → Variables × List CanCall → Prop}
    (post : ∀ ready calls, (∀ c ∈ calls, ¬ RecordsConfig c) →
      Q () ({ v with canReady := ready }, log ++ calls)) :
    recoverCanConfig.wp (Spec.of (Prog.logged (answers codes))) Q (v, log) := by
  refine (Prog.wp_ite _ _ _ _ _ _).mpr ⟨fun _ => ?_, fun _ => ?_⟩
  · have calls := post true [.mutexLock, .canStart .recovery, .canReadySet true, .mutexUnlock]
      (by simp [RecordsConfig])
    rwa [List.append_cons, List.append_cons, List.append_cons] at calls
  · have calls := post v.canReady [.mutexLock, .canStart .recovery, .mutexUnlock]
      (by simp [RecordsConfig])
    rwa [List.append_cons, List.append_cons] at calls

theorem canBridgeFormatStatus_logged {codes : Codes} (reads : 0 ≤ codes.reading.ret)
    (v : Variables) (log : List CanCall) (response : Bytes)
    {Q : Reply → Variables × List CanCall → Prop}
    (post : ∀ s calls, (∀ c ∈ calls, OnlyReads c) →
      Q (replyOf (statusText s)) (v, log ++ calls)) :
    (canBridgeFormatStatus response wsResponseMax).wp (Spec.of (Prog.logged (answers codes))) Q
      (v, log) := by
  refine (Prog.wp_ite _ _ _ _ _ _).mpr ⟨fun failed => ?_, fun _ => ?_⟩
  · exact absurd failed (Int.not_lt.mpr reads)
  have reply := post ⟨v.canReady, codes.reading.state, v.currentBitrate, v.currentMode,
      codes.reading.txErr, codes.reading.rxErr, codes.numUsed .tx, codes.numFree .tx,
      codes.numUsed .rx, codes.numFree .rx⟩
    [.mutexLock, .canGetState, .mutexUnlock, .canReadyGet, .currentBitrateGet, .currentModeGet,
      .numUsedGet .tx, .numFreeGet .tx, .numUsedGet .rx, .numFreeGet .rx] (by simp [OnlyReads])
  rw [← snprintk_eq response] at reply
  rwa [List.append_cons, List.append_cons, List.append_cons, List.append_cons, List.append_cons,
    List.append_cons, List.append_cons, List.append_cons, List.append_cons] at reply

/-! ## A request to configure -/

/-- How a request ended: its reply, the variables behind it, and the calls it made. -/
structure Handled where
  reply : Reply
  after : Variables
  calls : List CanCall

/-- Handle a request. -/
def handled (codes : Codes) (v : Variables) (request : CanProg Reply) : Handled :=
  let (reply, after, calls) := request.run (Prog.logged (answers codes)) (v, [])
  { reply, after, calls }

theorem handled_of_wp {codes : Codes} {v : Variables} {request : CanProg Reply}
    {P : Handled → Prop} (holds : request.wp (Spec.of (Prog.logged (answers codes)))
      (fun reply s => P ⟨reply, s.1, s.2⟩) (v, [])) : P (handled codes v request) :=
  Prog.wp_of.mp holds

def IsStatus (reply : Reply) : Prop := ∃ s, reply = replyOf (statusText s)

def IsError (reply : Reply) : Prop :=
  ∃ code message err, reply = replyOf (errorText code message err)

/-- The request recorded the configuration it asked for. -/
def Committed (target : Option (CanMode × UInt32)) (h : Handled) : Prop :=
  ∃ mode bitrate, target = some (mode, bitrate) ∧ .currentModeSet mode ∈ h.calls ∧
    .currentBitrateSet bitrate ∈ h.calls

/-- The reply tells whether the configuration was recorded, and a request that asks for none
that could be is refused before anything is done. -/
structure ToldTruly (v : Variables) (target : Option (CanMode × UInt32)) (h : Handled) : Prop where
  status : IsStatus h.reply ↔ Committed target h
  error : IsError h.reply ↔ ¬ Committed target h
  invalid : target = none → h.after = v ∧ (∀ c ∈ h.calls, ¬ DriverCall c) ∧
    ∀ ready, .canReadySet ready ∉ h.calls

/-- A status object for a recorded configuration. -/
theorem ToldTruly.done {v : Variables} {mode : CanMode} {bitrate : UInt32} {h : Handled}
    (status : IsStatus h.reply) (modeSet : .currentModeSet mode ∈ h.calls)
    (bitrateSet : .currentBitrateSet bitrate ∈ h.calls) : ToldTruly v (some (mode, bitrate)) h := by
  have committed : Committed (some (mode, bitrate)) h := ⟨mode, bitrate, rfl, modeSet, bitrateSet⟩
  refine ⟨⟨fun _ => committed, fun _ => status⟩, ⟨?_, fun not => absurd committed not⟩,
    fun none => absurd none (Option.some_ne_none _)⟩
  rintro ⟨code, message, err, error⟩
  obtain ⟨s, is⟩ := status
  exact absurd (is.symm.trans error) statusReply_ne

/-- An error object where nothing was recorded. -/
theorem ToldTruly.failed {v : Variables} {target : Option (CanMode × UInt32)} {h : Handled}
    (error : IsError h.reply) (kept : ∀ c ∈ h.calls, ¬ RecordsConfig c)
    (invalid : target = none → h.after = v ∧ (∀ c ∈ h.calls, ¬ DriverCall c) ∧
      ∀ ready, .canReadySet ready ∉ h.calls) : ToldTruly v target h := by
  have not : ¬ Committed target h := by
    rintro ⟨mode, bitrate, -, modeSet, -⟩
    exact kept _ modeSet trivial
  refine ⟨⟨?_, fun committed => absurd committed not⟩, ⟨fun _ => not, fun _ => error⟩, invalid⟩
  rintro ⟨s, status⟩
  obtain ⟨code, message, err, is⟩ := error
  exact absurd (status.symm.trans is) statusReply_ne

/-- Everything went well up to the last call, which answered that the controller was started
already: the configuration is recorded, and the code is taken for a failure. -/
def Misreported (codes : Codes) (target : Option (CanMode × UInt32)) : Prop :=
  ∃ mode bitrate, target = some (mode, bitrate) ∧ ReachesStart codes mode bitrate ∧
    codes.start .apply = -eAlready

/-- `handle_can_config_set` behind its checks. -/
def configure (mode : CanMode) (bitrate : UInt32) (response : Bytes) : CanProg Reply := do
  perform (.canReadySet false)
  perform .mutexLock
  let ret ← applyCanConfig mode bitrate
  perform .mutexUnlock
  if ret < 0 then
    recoverCanConfig
    return wsReply response wsResponseMax "can_config_failed"
      "Could not apply CAN configuration" ret
  else
    canBridgeFormatStatus response wsResponseMax

theorem configure_told {codes : Codes} (reads : 0 ≤ codes.reading.ret) (mode : CanMode)
    (bitrate : UInt32) (v w : Variables) (before : List CanCall)
    (kept : ∀ c ∈ before, ¬ RecordsConfig c) (response : Bytes) :
    (configure mode bitrate response).wp (Spec.of (Prog.logged (answers codes)))
      (fun reply s => ToldTruly v (some (mode, bitrate)) ⟨reply, s.1, s.2⟩ ↔
        ¬ Misreported codes (some (mode, bitrate))) (w, before) := by
  have failed (ret : Int) : IsError (wsReply response wsResponseMax "can_config_failed"
      "Could not apply CAN configuration" ret) := ⟨_, _, _, wsReply_eq _ _ _ _⟩
  refine (Prog.wp_bind _ (applyCanConfig _ _) _ _ _).mpr
    (applyCanConfig_logged codes _ _ _ _ (fun lets => ?_)
      fun refused ret negative calls kept' => ?_)
  · refine (Prog.wp_ite _ _ _ _ _ _).mpr ⟨fun failure => ?_, fun success => ?_⟩
    · have already : codes.start .apply = -eAlready :=
        Decidable.byContradiction fun other => lets.2 ⟨failure, other⟩
      refine (Prog.wp_bind _ recoverCanConfig _ _ _).mpr
        (recoverCanConfig_logged codes _ _ fun ready calls kept => ?_)
      refine ⟨fun told => ?_, fun truly => absurd ⟨_, _, rfl, lets.1, already⟩ truly⟩
      -- the reply is an error object, and the configuration was recorded
      exact absurd ⟨_, _, rfl, by simp, by simp⟩ (told.error.mp (failed _))
    · refine canBridgeFormatStatus_logged reads _ _ response fun s calls reads => ?_
      refine ⟨fun _ => ?_, fun _ => .done ⟨s, rfl⟩ (by simp) (by simp)⟩
      rintro ⟨_, _, -, -, already⟩
      rw [already] at success
      exact success (by decide)
  · refine (Prog.wp_ite _ _ _ _ _ _).mpr ⟨fun _ => ?_, fun success => absurd negative success⟩
    refine (Prog.wp_bind _ recoverCanConfig _ _ _).mpr
      (recoverCanConfig_logged codes _ _ fun ready calls' kept'' => ?_)
    refine ⟨fun _ => ?_, fun _ => ?_⟩
    · rintro ⟨_, _, same, reaches, already⟩
      cases same
      exact refused ⟨reaches, fun other => other.2 already⟩
    · refine .failed (failed _) (fun c member => ?_) fun none => absurd none (Option.some_ne_none _)
      simp only [List.append_assoc, List.mem_append, List.mem_singleton] at member
      rcases member with early | rfl | applied | rfl | recovered
      · rcases List.mem_append.mp (show c ∈ before ++ [.canReadySet false] from early) with
          first | last
        · exact kept c first
        · rw [List.mem_singleton.mp last]
          exact id
      · exact id
      · exact kept' c applied
      · exact id
      · exact kept'' c recovered

/-- The reply to a `can.config.set` agrees with what was recorded exactly if the `can_start`
of the locked section does not answer "already". -/
theorem config_told {codes : Codes} (reads : 0 ≤ codes.reading.ret) (v : Variables)
    (msg : CanJsonMessage) (fields : CanJsonField → Bool) (response : Bytes) :
    ToldTruly v (configTarget msg fields v.currentMode v.currentBitrate)
        (handled codes v (handleCanConfigSet msg fields response wsResponseMax)) ↔
      ¬ Misreported codes (configTarget msg fields v.currentMode v.currentBitrate) := by
  generalize asked : configTarget msg fields v.currentMode v.currentBitrate = target
  unfold configTarget at asked
  refine handled_of_wp (P := fun h => ToldTruly v target h ↔ ¬ Misreported codes target) ?_
  have refused (code message : String) (err : Int) (none : target = none) :
      ToldTruly v target ⟨wsReply response wsResponseMax code message err, v,
        [.currentBitrateGet, .currentModeGet]⟩ ↔ ¬ Misreported codes target := by
    have error : IsError (wsReply response wsResponseMax code message err) :=
      ⟨code, message, err, wsReply_eq response code message err⟩
    have silent : ∀ c ∈ [CanCall.currentBitrateGet, .currentModeGet], ¬ DriverCall c := by
      intro c member
      simp only [List.mem_cons, List.not_mem_nil, or_false] at member
      rcases member with rfl | rfl <;> exact id
    have still : ∀ ready, CanCall.canReadySet ready ∉
        [CanCall.currentBitrateGet, .currentModeGet] := by
      simp
    refine ⟨?_, fun _ => .failed error (by simp [RecordsConfig]) fun _ => ⟨rfl, silent, still⟩⟩
    rintro - ⟨mode, bitrate, some, -⟩
    rw [none] at some
    cases some
  refine (Prog.wp_ite _ _ _ _ _ _).mpr ⟨fun bad => ?_, fun good => ?_⟩
  · exact refused _ _ _ (asked.symm.trans (if_pos bad))
  refine (Prog.wp_ite _ _ _ _ _ _).mpr ⟨fun bad => ?_, fun known => ?_⟩
  · exact refused _ _ _ (asked.symm.trans ((if_neg good).trans (if_pos bad)))
  have is : target = some _ := asked.symm.trans ((if_neg good).trans (if_neg known))
  rw [is]
  exact configure_told reads _ _ v v [.currentBitrateGet, .currentModeGet] (by simp [RecordsConfig])
    response

/-- A message without fields. -/
def noMessage : CanJsonMessage := { data := [], dataLen_le := Nat.zero_le canMaxDlc }

/-- A message that asks for loopback mode. -/
def loopbackMessage : CanJsonMessage :=
  { noMessage with
    type := some (lit "can.config.set"), mode := some (lit "loopback"), bitrate := .ofNat 1 }

def configFields (field : CanJsonField) : Bool :=
  field = .type ∨ field = .bus ∨ field = .mode ∨ field = .bitrate

/-- What `can_bridge_init` leaves behind. -/
def initialised : Variables := ⟨true, canModeNormal, configCanDefaultBitrate⟩

theorem config_told_refusedMode :
    ToldTruly initialised (some (canModeLoopback, 1))
      (handled { parse := parseSample, setMode := fun _ => -eIo } initialised
        (handleCanConfigSet loopbackMessage configFields [] wsResponseMax)) := by
  refine (config_told (by decide) initialised loopbackMessage configFields []).mpr ?_
  rintro ⟨mode, bitrate, target, reaches, -⟩
  exact absurd (show 0 ≤ -eIo from reaches.2.1) (by decide)

/-- The loopback request, with a controller that says it was started already. -/
def startedAlready : Codes := { parse := parseSample, start := fun _ => -eAlready }

/-- A request that is recorded is reported as failed. -/
theorem committed_reported_failed : ¬ ∀ codes v msg fields response, 0 ≤ codes.reading.ret →
    ToldTruly v (configTarget msg fields v.currentMode v.currentBitrate)
      (handled codes v (handleCanConfigSet msg fields response wsResponseMax)) := by
  intro told
  have truly := told startedAlready initialised loopbackMessage configFields [] (by decide)
  refine truly.error.mp ⟨"can_config_failed", "Could not apply CAN configuration", -eAlready, ?_⟩
    ⟨canModeLoopback, 1, by decide, by decide, by decide⟩
  decide +kernel

/-! ## A request for another bus -/

/-- The request changed nothing and asked the driver for nothing but its state. -/
def KeepsHands (v : Variables) (h : Handled) : Prop := h.after = v ∧ ∀ c ∈ h.calls, OnlyReads c

theorem answers_reads (codes : Codes) {c : CanCall} (reads : OnlyReads c) (v : Variables) :
    (answers codes c v).2 = v := by
  cases c <;> first | exact reads.elim | rfl

theorem keepsHands_of_only {codes : Codes} {v : Variables} {request : CanProg Reply}
    (only : request.Only OnlyReads) {before : List CanCall} (kept : ∀ c ∈ before, OnlyReads c) :
    request.wp (Spec.of (Prog.logged (answers codes)))
      (fun reply s => KeepsHands v ⟨reply, s.1, s.2⟩) (v, before) := by
  refine Prog.wp_of.mpr ⟨?_, only.logged kept⟩
  refine only.run_keeps (I := fun s : Variables × List CanCall => s.1 = v)
    (fun c s reads same => ?_) rfl
  exact (answers_reads codes reads s.1).trans same

theorem canBridgeFormatStatus_reads (response : Bytes) :
    (canBridgeFormatStatus response wsResponseMax).Only OnlyReads := by
  refine ⟨trivial, fun _ => ⟨trivial, fun _ => ⟨trivial, fun _ =>
    .ite (fun _ => trivial) fun _ => ?_⟩⟩⟩
  exact ⟨trivial, fun _ => ⟨trivial, fun _ => ⟨trivial, fun _ => ⟨trivial, fun _ => ⟨trivial,
    fun _ => ⟨trivial, fun _ => ⟨trivial, fun _ => trivial⟩⟩⟩⟩⟩⟩⟩

theorem replyOf_error_ne (code message : String) (err : Int) :
    (replyOf (errorText code message err)).1 ≠ 0 := by
  have begins := (errorText_begins code message err).length_le
  have some : 0 < errorHead.length := by decide
  rw [List.length_append] at begins
  show ((errorText code message err).length : Int) ≠ 0
  omega

/-- The validator refuses a message for another bus. -/
theorem validateCanJson_otherBus {msg : CanJsonMessage} (other : msg.bus.toInt ≠ 0)
    (fields : CanJsonField → Bool) (response : Bytes) :
    (validateCanJson msg fields response wsResponseMax).1 ≠ 0 := by
  simp only [validateCanJson, wsReply_eq]
  by_cases required : fields .bus ∧ fields .id ∧ fields .dlc
  · rw [if_neg (not_not_intro required), if_pos other]
    exact replyOf_error_ne _ _ _
  · rw [if_pos required]
    exact replyOf_error_ne _ _ _

theorem handleCanTx_otherBus {msg : CanJsonMessage} (other : msg.bus.toInt ≠ 0)
    (fields : CanJsonField → Bool) (response : Bytes) :
    (handleCanTx msg fields response wsResponseMax).Only OnlyReads := by
  have invalid := validateCanJson_otherBus other fields response
  exact .ite (fun _ => trivial) fun valid => absurd invalid valid

/-- The request asks for a configuration that can be set. -/
def AsksConfig (msg : CanJsonMessage) (fields : CanJsonField → Bool) (v : Variables) : Prop :=
  fields .type = true ∧ msg.type = some (lit "can.config.set") ∧
    configTarget msg fields v.currentMode v.currentBitrate ≠ none

theorem configure_acts (codes : Codes) (mode : CanMode) (bitrate : UInt32) (response : Bytes)
    (s : Variables × List CanCall) : .canReadySet false ∈
      ((configure mode bitrate response).run (Prog.logged (answers codes)) s).2.2 := by
  have first : CanCall.canReadySet false ∈ s.2 ++ [.canReadySet false] :=
    List.mem_append_right _ (List.mem_singleton_self _)
  unfold configure
  exact (Prog.logged_prefix (answers codes) _ _ (s.2 ++ [.canReadySet false])).subset first

/-- A request to configure is refused before anything is done, or it takes the controller out
of service first of all. -/
theorem handleCanConfigSet_hands (codes : Codes) (v : Variables) {before : List CanCall}
    (kept : ∀ c ∈ before, OnlyReads c) (msg : CanJsonMessage) (fields : CanJsonField → Bool)
    (response : Bytes) :
    (handleCanConfigSet msg fields response wsResponseMax).wp
      (Spec.of (Prog.logged (answers codes)))
      (fun reply s => KeepsHands v ⟨reply, s.1, s.2⟩ ↔
        configTarget msg fields v.currentMode v.currentBitrate = none) (v, before) := by
  generalize asked : configTarget msg fields v.currentMode v.currentBitrate = target
  unfold configTarget at asked
  have read : ∀ c ∈ before ++ [.currentBitrateGet] ++ [.currentModeGet], OnlyReads c := by
    intro c member
    rcases List.mem_append.mp member with early | last
    · rcases List.mem_append.mp early with first | last
      · exact kept c first
      · exact List.mem_singleton.mp last ▸ trivial
    · exact List.mem_singleton.mp last ▸ trivial
  refine (Prog.wp_ite _ _ _ _ _ _).mpr ⟨fun bad => ?_, fun good => ?_⟩
  · exact ⟨fun _ => asked.symm.trans (if_pos bad), fun _ => ⟨rfl, read⟩⟩
  refine (Prog.wp_ite _ _ _ _ _ _).mpr ⟨fun bad => ?_, fun known => ?_⟩
  · exact ⟨fun _ => asked.symm.trans ((if_neg good).trans (if_pos bad)), fun _ => ⟨rfl, read⟩⟩
  refine Prog.wp_of.mpr ⟨fun hands => ?_, fun none => ?_⟩
  · exact absurd (hands.2 _ (configure_acts codes _ _ response _)) id
  · have some := asked.symm.trans ((if_neg good).trans (if_neg known))
    rw [none] at some
    cases some

/-- A request that names another bus has no effect exactly if it does not ask for a
configuration that can be set. -/
theorem other_bus_untouched {codes : Codes} {v : Variables} {payload : Bytes}
    {msg : CanJsonMessage} {fields : CanJsonField → Bool} (ready : v.canReady = true)
    (short : payload.length < canWsJsonMax) (parsed : codes.parse payload = .fields fields msg)
    (other : msg.bus ≠ 0) (response : Bytes) :
    KeepsHands v (handled codes v (canBridgeHandleWsText payload response wsResponseMax)) ↔
      ¬ AsksConfig msg fields v := by
  have otherBus : msg.bus.toInt ≠ 0 := fun zero => other (Int32.toInt_inj.mp zero)
  refine handled_of_wp (P := fun h => KeepsHands v h ↔ ¬ AsksConfig msg fields v) ?_
  have read : ∀ c ∈ [CanCall.canReadyGet, .jsonObjParse payload], OnlyReads c := by
    simp [OnlyReads]
  have keeps {request : CanProg Reply} (only : request.Only OnlyReads)
      (not : ¬ AsksConfig msg fields v) : request.wp (Spec.of (Prog.logged (answers codes)))
        (fun reply s => KeepsHands v ⟨reply, s.1, s.2⟩ ↔ ¬ AsksConfig msg fields v)
        (v, [.canReadyGet, .jsonObjParse payload]) :=
    Prog.wp_mono (Spec.of_mono _) (fun _ _ hands => ⟨fun _ => not, fun _ => hands⟩)
      (keepsHands_of_only only read)
  refine (Prog.wp_ite _ _ _ _ _ _).mpr ⟨fun off => absurd ready off, fun _ => ?_⟩
  refine (Prog.wp_ite _ _ _ _ _ _).mpr ⟨fun long => ?_, fun _ => ?_⟩
  · exact absurd long (Nat.not_le.mpr short)
  simp only [perform, Prog.perform_bind, Prog.wp_call, Spec.of, Prog.logged, answers, parsed]
  refine (Prog.wp_ite _ _ _ _ _ _).mpr ⟨fun typed => ?_, fun untyped => ?_⟩
  · refine (Prog.wp_ite _ _ _ _ _ _).mpr ⟨fun status => ?_, fun _ => ?_⟩
    · refine keeps (canBridgeFormatStatus_reads _) fun asks => ?_
      rw [asks.2.1] at status
      exact absurd status (by decide)
    refine (Prog.wp_ite _ _ _ _ _ _).mpr ⟨fun config => ?_, fun noConfig => ?_⟩
    · refine Prog.wp_mono (Spec.of_mono _) (fun _ _ hands => hands.trans ?_)
        (handleCanConfigSet_hands codes v read msg fields response)
      exact ⟨fun none asks => asks.2.2 none, fun not => Decidable.byContradiction fun some =>
        not ⟨typed, config, some⟩⟩
    have not : ¬ AsksConfig msg fields v := fun asks => noConfig asks.2.1
    refine (Prog.wp_ite _ _ _ _ _ _).mpr ⟨fun _ => ?_, fun _ => ?_⟩
    · exact keeps trivial not
    · exact keeps (handleCanTx_otherBus otherBus fields response) not
  · exact keeps (handleCanTx_otherBus otherBus fields response) fun asks => untyped asks.1

/-- A request to transmit on bus 1. -/
def busOneRequest : Bytes :=
  lit "\x7b\"type\":\"can.tx\",\"bus\":1,\"id\":1,\"dlc\":2,\"data\":[7,128]\x7d"

def busOneMessage : CanJsonMessage :=
  { noMessage with
    type := some (lit "can.tx"), bus := .ofNat 1, id := .ofNat 1, dlc := .ofNat 2,
    data := [.ofNat 7, .ofNat 128], dataLen_le := by decide }

/-- What the JSON library makes of it. -/
def parseBusOne : Bytes → ParseResult :=
  parseText busOneRequest [.type, .bus, .id, .dlc, .data] busOneMessage

theorem other_bus_untouched_tx :
    KeepsHands initialised (handled { parse := parseBusOne } initialised
      (canBridgeHandleWsText busOneRequest [] wsResponseMax)) := by
  have parsed : parseBusOne busOneRequest = .fields (fun field => field ∈
      [CanJsonField.type, .bus, .id, .dlc, .data]) busOneMessage := parseText_text _ _ _
  refine (other_bus_untouched rfl (by decide) parsed (by decide) []).mpr fun asks => ?_
  exact absurd asks.2.1 (by decide)

/-- A request to configure bus 1. -/
def otherBusRequest : Bytes :=
  lit ("\x7b\"type\":\"can.config.set\",\"bus\":1,\"mode\":\"loopback\"," ++
    "\"bitrate\":500000\x7d")

def otherBusLoopback : CanJsonMessage :=
  { loopbackMessage with bus := .ofNat 1, bitrate := .ofNat 500000 }

def parseOtherBus : Bytes → ParseResult :=
  parseText otherBusRequest [.type, .bus, .mode, .bitrate] otherBusLoopback

/-- It configures bus 0. -/
theorem other_bus_configured : ¬ ∀ codes v payload msg fields response, v.canReady = true →
    payload.length < canWsJsonMax → codes.parse payload = .fields fields msg →
    fields .bus = true → msg.bus ≠ 0 →
    KeepsHands v (handled codes v (canBridgeHandleWsText payload response wsResponseMax)) := by
  intro untouched
  have parsed : parseOtherBus otherBusRequest = .fields (fun field => field ∈
      [CanJsonField.type, .bus, .mode, .bitrate]) otherBusLoopback := parseText_text _ _ _
  have hands := untouched { parse := parseOtherBus } initialised otherBusRequest otherBusLoopback
    _ [] rfl (by decide) parsed (by decide) (by decide)
  exact absurd hands.1 (by decide)

end PicoCan.Can
