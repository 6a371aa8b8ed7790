import PicoCan.Can.Requests
import PicoCan.Http.Client

/-!
# Which calls each function makes

For any property of calls that covers a function's own calls, the function makes only
calls with that property, whatever they answer.
-/

namespace PicoCan.Http

open Calls
open PicoCan.Can (CanCall CanProg)

variable {P : HttpCall → Prop}

theorem bridge_only {α : Type} {Q : CanCall → Prop} {p : CanProg α} (only : p.Only Q)
    (calls : ∀ c, Q c → P (.can c)) : (bridge p).Only P := only.lift calls

/-! ## The bridge -/

/-- The calls that have nothing to do with the RX queue and its flag. -/
def NotRx (c : CanCall) : Prop :=
  match c with
  | .rxPut _ | .rxGet | .rxPurge | .rxStreamingGet | .rxStreamingSet _ => False
  | _ => True

section Text

open PicoCan.Can

theorem canBridgeFormatStatus_only (response : Bytes) (responseLen : Nat) :
    (canBridgeFormatStatus response responseLen).Only NotRx := by
  refine ⟨trivial, fun _ => ⟨trivial, fun reading => ⟨trivial, fun _ => ?_⟩⟩⟩
  refine .ite (fun _ => trivial) fun _ => ?_
  refine ⟨trivial, fun _ => ⟨trivial, fun _ => ⟨trivial, fun _ => ⟨trivial, fun _ => ?_⟩⟩⟩⟩
  exact ⟨trivial, fun _ => ⟨trivial, fun _ => ⟨trivial, fun _ => trivial⟩⟩⟩

theorem formatCanTxResponse_only (msg : CanJsonMessage) (response : Bytes)
    (responseLen : Nat) : (formatCanTxResponse msg response responseLen).Only NotRx := by
  unfold formatCanTxResponse
  split
  · trivial
  split
  · trivial
  refine ⟨trivial, fun us => ?_⟩
  simp only [Prog.bind]
  split <;> trivial

theorem handleCanTx_only (msg : CanJsonMessage) (fields : CanJsonField → Bool)
    (response : Bytes) (responseLen : Nat) :
    (handleCanTx msg fields response responseLen).Only NotRx := by
  refine .ite (fun _ => trivial) fun _ => ⟨trivial, fun ret => ?_⟩
  exact .ite (fun _ => trivial) fun _ => formatCanTxResponse_only _ _ _

theorem applyCanConfig_only (mode : CanMode) (bitrate : UInt32) :
    (applyCanConfig mode bitrate).Only NotRx := by
  refine ⟨trivial, fun ret => .ite (fun _ => trivial) fun _ => ?_⟩
  refine ⟨trivial, fun ret => .ite (fun _ => trivial) fun _ => ?_⟩
  refine ⟨trivial, fun ret => .ite (fun _ => trivial) fun _ => ?_⟩
  refine ⟨trivial, fun ret => .ite (fun _ => trivial) fun _ => ?_⟩
  exact ⟨trivial, fun _ => ⟨trivial, fun _ => ⟨trivial, fun _ => trivial⟩⟩⟩

theorem recoverCanConfig_only : recoverCanConfig.Only NotRx := by
  refine ⟨trivial, fun _ => ⟨trivial, fun ret => ?_⟩⟩
  exact .ite (fun _ => ⟨trivial, fun _ => ⟨trivial, fun _ => trivial⟩⟩)
    fun _ => ⟨trivial, fun _ => trivial⟩

theorem handleCanConfigSet_only (msg : CanJsonMessage) (fields : CanJsonField → Bool)
    (response : Bytes) (responseLen : Nat) :
    (handleCanConfigSet msg fields response responseLen).Only NotRx := by
  refine ⟨trivial, fun _ => ⟨trivial, fun _ => ?_⟩⟩
  refine .ite (fun _ => trivial) fun _ => .ite (fun _ => trivial) fun _ => ?_
  refine ⟨trivial, fun _ => ⟨trivial, fun _ => (applyCanConfig_only _ _).bind fun ret => ?_⟩⟩
  refine ⟨trivial, fun _ => .ite (fun _ => ?_) fun _ => canBridgeFormatStatus_only _ _⟩
  exact recoverCanConfig_only.bind fun _ => trivial

theorem canBridgeHandleWsText_only (payload response : Bytes) (responseLen : Nat) :
    (canBridgeHandleWsText payload response responseLen).Only NotRx := by
  refine ⟨trivial, fun ready =>
    .ite (fun _ => trivial) fun _ => .ite (fun _ => trivial) fun _ => ?_⟩
  refine ⟨trivial, fun parsed => ?_⟩
  cases parsed with
  | error e => trivial
  | fields fields msg =>
      refine .ite (fun _ => .ite (fun _ => canBridgeFormatStatus_only _ _) fun _ => ?_)
        fun _ => handleCanTx_only _ _ _ _
      exact .ite (fun _ => handleCanConfigSet_only _ _ _ _) fun _ =>
        .ite (fun _ => trivial) fun _ => handleCanTx_only _ _ _ _

end Text

/-! ## Sockets -/

section Send

variable {fd : Fd} (sends : ∀ data, P (.send fd data))
include sends

theorem sendLoop_only (fuel : Nat) (data : Bytes) : (sendLoop fd fuel data).Only P := by
  induction fuel generalizing data with
  | zero => trivial
  | succ fuel ih =>
      refine .ite (fun _ => trivial) fun _ => ⟨sends _, fun sent => ?_⟩
      match sent with
      | .error _ => trivial
      | .ok sent => exact .ite (fun _ => trivial) fun _ => ih _

theorem sendAll_only (data : Bytes) : (sendAll fd data).Only P := sendLoop_only sends _ _

theorem sendBoth_only (header body : Bytes) : (sendBoth fd header body).Only P := by
  refine (sendAll_only sends header).bind fun ret => .ite (fun _ => trivial) fun _ => ?_
  exact (sendAll_only sends body).bind fun ret => .ite (fun _ => trivial) fun _ => trivial

theorem sendTextResponse_only (status contentType : String) (body : Bytes) :
    (sendTextResponse fd status contentType body).Only P :=
  .ite (fun _ => trivial) fun _ => sendBoth_only sends _ _

theorem sendWebsocketFrame_only (opcode : UInt8) (payload : Bytes) :
    (sendWebsocketFrame fd opcode payload).Only P := by
  refine .ite (fun _ => trivial) fun _ => (sendAll_only sends _).bind fun ret => ?_
  exact .ite (fun _ => trivial) fun _ => .ite (fun _ => sendAll_only sends _) fun _ => trivial

end Send

/-- The receive loop stores behind what it has and never past `len`. -/
theorem recvLoop_only {fd : Fd} {len : Nat}
    (recvs : ∀ offset n, offset + n ≤ len → P (.recv fd offset n)) (fuel : Nat) (buf : Bytes) :
    (recvLoop fd len fuel buf).Only P := by
  induction fuel generalizing buf with
  | zero => trivial
  | succ fuel ih =>
      refine .ite (fun _ => ⟨recvs _ _ (by omega), fun chunk => ?_⟩) fun _ => trivial
      match chunk with
      | .error _ => trivial
      | .ok ⟨[], _⟩ => trivial
      | .ok ⟨_ :: _, _⟩ => exact ih _

theorem wsRecvExact_only {client : WebsocketClient} {len : Nat}
    (recvs : ∀ offset n, offset + n ≤ len → P (.recv client.fd offset n)) :
    (wsRecvExact client len).Only P :=
  (recvLoop_only recvs _ _).bind fun _ => trivial

/-! ## The WebSocket loop -/

section Loop

variable (sends : ∀ fd data, P (.send fd data))
  (recvs : ∀ fd offset n, offset + n ≤ wsMaxPayload → P (.recv fd offset n))
include sends recvs

/-- Nothing is stored past the end of a 256-byte buffer. -/
theorem readPayload_only (client : WebsocketClient) (opcode : UInt8) (masked : Bool)
    (payloadLen : Nat) : (readPayload client opcode masked payloadLen).Only P := by
  refine .ite (fun _ => (sendWebsocketFrame_only (sends _) _ _).bind fun _ => trivial)
    fun fits => ?_
  have within : payloadLen ≤ wsMaxPayload := by
    by_cases beyond : payloadLen > wsMaxPayload
    · exact absurd (.inr beyond) fits
    · omega
  refine (wsRecvExact_only fun o n _ => recvs _ o n (by unfold wsMaxPayload; omega)).bind
    fun mask => ?_
  match mask with
  | (.error _, _) => trivial
  | (.ok mask, client) =>
      refine (wsRecvExact_only fun o n _ => recvs _ o n (by omega)).bind fun payload => ?_
      match payload with
      | (.error _, _) => trivial
      | (.ok _, _) => trivial

theorem readFrame_only (client : WebsocketClient) : (readFrame client).Only P := by
  have two : ∀ o n, o + n ≤ 2 → o + n ≤ wsMaxPayload := by unfold wsMaxPayload; omega
  refine (wsRecvExact_only fun o n h => recvs _ o n (two o n h)).bind fun header => ?_
  match header with
  | (.error _, _) => trivial
  | (.ok header, client) =>
      refine .ite (fun _ => ?_) fun _ => .ite
        (fun _ => (sendWebsocketFrame_only (sends _) _ _).bind fun _ => trivial)
        fun _ => readPayload_only sends recvs _ _ _ _
      refine (wsRecvExact_only fun o n h => recvs _ o n (two o n h)).bind fun ext => ?_
      match ext with
      | (.error _, _) => trivial
      | (.ok _, _) => exact readPayload_only sends recvs _ _ _ _

variable (texts : ∀ c, NotRx c → P (.can c))
include texts

omit recvs in
theorem dispatch_only (fd : Fd) (opcode : UInt8) (payload response : Bytes) :
    (dispatch fd opcode payload response).Only P := by
  have send : ∀ opcode payload, (sendWebsocketFrame fd opcode payload).Only P :=
    sendWebsocketFrame_only (sends fd)
  refine .ite (fun _ => (send _ _).bind fun _ => trivial) fun _ => ?_
  refine .ite (fun _ => (send _ _).bind fun _ => trivial) fun _ => ?_
  refine .ite (fun _ => (send _ _).bind fun _ => trivial) fun _ => ?_
  refine (bridge_only (canBridgeHandleWsText_only _ _ _) texts).bind fun reply => ?_
  exact (send _ _).bind fun ret => .ite (fun _ => trivial) fun _ => trivial

theorem clientPass_only (client : WebsocketClient) (response : Bytes) :
    (clientPass client response).Only P := by
  refine (readFrame_only sends recvs client).bind fun read => ?_
  match read with
  | (.failed, _) | (.refused, _) => trivial
  | (.frame opcode payload, client) =>
      exact (dispatch_only sends texts _ _ _ _).bind fun _ => trivial

omit sends recvs in
theorem canBridgeFormatNextRx_bridge_only (rx : P (.can .rxGet)) (response : Bytes)
    (responseLen : Nat) : (bridge (Can.canBridgeFormatNextRx response responseLen)).Only P := by
  refine ⟨rx, fun next => ?_⟩
  cases next with
  | none => trivial
  | some frame =>
      refine bridge_only (Can.formatRxFrame_only frame response responseLen) fun c print => ?_
      cases c <;> first | exact print.elim | exact texts _ trivial

theorem echoPass_only (rx : P (.can .rxGet)) (polls : ∀ fd ms, P (.poll fd ms))
    (client : WebsocketClient) (response : Bytes) : (echoPass client response).Only P := by
  refine (canBridgeFormatNextRx_bridge_only texts rx _ _).bind fun rx => ?_
  refine .ite (fun _ => ?_) fun _ => .ite (fun _ => ⟨polls _ _, fun ready => ?_⟩)
    fun _ => clientPass_only sends recvs texts _ _
  · exact (sendWebsocketFrame_only (sends _) _ _).bind fun ret =>
      .ite (fun _ => trivial) fun _ => trivial
  · match ready with
    | .error _ => trivial
    | .ok ready =>
        exact .ite (fun _ => trivial) fun _ => clientPass_only sends recvs texts _ _

end Loop

/-! ## The file system -/

/-- The calls that write nothing into a file. -/
def FsCall.Reads (c : FsCall) : Prop :=
  match c with
  | .fsWrite _ => False
  | _ => True

section Files

section Reads

variable (files : ∀ c : FsCall, c.Reads → P (.fs c))
include files

theorem updateSpaceLocked_only : updateSpaceLocked.Only P := by
  refine ⟨files _ trivial, fun _ => ⟨files _ trivial, fun mounted => .ite (fun _ => ?_)
    fun _ => trivial⟩⟩
  refine ⟨files _ trivial, fun stat => ?_⟩
  match stat with
  | .error _ => trivial
  | .ok _ => exact ⟨files _ trivial, fun _ => trivial⟩

theorem storageMountOnce_only : storageMountOnce.Only P := by
  refine ⟨files _ trivial, fun _ => ⟨files _ trivial, fun attempted => .ite (fun _ => ?_)
    fun _ => ?_⟩⟩
  · exact ⟨files _ trivial, fun _ => ⟨files _ trivial, fun _ => trivial⟩⟩
  refine ⟨files _ trivial, fun _ => ⟨files _ trivial, fun ret => ⟨files _ trivial, fun _ =>
    ⟨files _ trivial, fun _ => ?_⟩⟩⟩⟩
  refine .ite (fun _ => ?_) fun _ => ⟨files _ trivial, fun _ => trivial⟩
  exact (updateSpaceLocked_only files).bind fun _ => ⟨files _ trivial, fun _ => trivial⟩

theorem storageFormatStatusJson_only (response : Bytes) (responseLen : Nat) :
    (storageFormatStatusJson response responseLen).Only P := by
  refine (storageMountOnce_only files).bind fun _ => ?_
  refine Prog.Only.bind ⟨files _ trivial, fun _ => (updateSpaceLocked_only files).bind fun _ => ?_⟩
    fun _ => trivial
  exact ⟨files _ trivial, fun _ => ⟨files _ trivial, fun _ => ⟨files _ trivial, fun _ =>
    ⟨files _ trivial, fun _ => ⟨files _ trivial, fun _ => trivial⟩⟩⟩⟩⟩

theorem storageUserIndexSize_only (len : Nat) : (storageUserIndexSize len).Only P := by
  refine (storageMountOnce_only files).bind fun ret => .ite (fun _ => trivial) fun _ => ?_
  refine ⟨files _ trivial, fun entry => ?_⟩
  match entry with
  | .error _ => trivial
  | .ok _ => exact .ite (fun _ => trivial) fun _ => trivial

theorem streamLoop_only {writer : Bytes → HttpProg Int} (writes : ∀ buf, (writer buf).Only P)
    (fuel : Nat) : (streamLoop writer fuel).Only P := by
  induction fuel with
  | zero => trivial
  | succ fuel ih =>
      refine ⟨files _ trivial, fun buf => ?_⟩
      match buf with
      | .error _ => trivial
      | .ok ⟨[], _⟩ => trivial
      | .ok ⟨_ :: _, _⟩ =>
          exact (writes _).bind fun ret => .ite (fun _ => trivial) fun _ => ih

theorem storageStreamUserIndex_only {writer : Bytes → HttpProg Int}
    (writes : ∀ buf, (writer buf).Only P) (fuel : Nat) :
    (storageStreamUserIndex fuel writer).Only P := by
  refine (storageMountOnce_only files).bind fun ret => .ite (fun _ => trivial) fun _ => ?_
  refine ⟨files _ trivial, fun ret => .ite (fun _ => trivial) fun _ => ?_⟩
  refine (streamLoop_only files writes fuel).bind fun ret => ?_
  cases ret with
  | none => trivial
  | some ret => exact ⟨files _ trivial, fun _ => trivial⟩

end Reads

section Copy

variable (writes : ∀ data, P (.fs (.fsWrite data)))
include writes

theorem writeLoop_only (fuel : Nat) (ret : Int) (buf : Bytes) :
    (writeLoop fuel ret buf).Only P := by
  induction fuel generalizing buf with
  | zero => trivial
  | succ fuel ih =>
      refine .ite (fun _ => trivial) fun _ => ⟨writes _, fun written => ?_⟩
      match written with
      | .error _ => trivial
      | .ok written => exact .ite (fun _ => trivial) fun _ => ih _

theorem copyLoop_only {σ : Type} {reader : σ → Nat → HttpProg ((Int × Bytes) × σ)}
    (reads : ∀ ctx n, (reader ctx n).Only P) (fuel : Nat) (ret : Int) (remaining : Nat)
    (ctx : σ) : (copyLoop reader fuel ret remaining ctx).Only P := by
  induction fuel generalizing ret remaining ctx with
  | zero => trivial
  | succ fuel ih =>
      refine .ite (fun _ => trivial) fun _ => (reads _ _).bind fun got => ?_
      refine .ite (fun _ => trivial) fun _ => .ite (fun _ => trivial) fun _ => ?_
      exact (writeLoop_only writes _ _ _).bind fun ret => .ite (fun _ => trivial) fun _ => ih _ _ _

end Copy

theorem storageWriteUserIndexStream_only (files : ∀ c, P (.fs c)) {σ : Type}
    {reader : σ → Nat → HttpProg ((Int × Bytes) × σ)} (reads : ∀ ctx n, (reader ctx n).Only P)
    (len : Nat) (ctx : σ) : (storageWriteUserIndexStream reader len ctx).Only P := by
  refine (storageMountOnce_only fun c _ => files c).bind fun ret =>
    .ite (fun _ => trivial) fun _ => ?_
  have dir : makeUserDir.Only P := by
    refine ⟨files _, fun entry => ?_⟩
    match entry with
    | .error _ => exact .ite (fun _ => ⟨files _, fun _ => trivial⟩) fun _ => trivial
    | .ok _ => exact .ite (fun _ => trivial) fun _ => trivial
  refine dir.bind fun ret => .ite (fun _ => trivial) fun _ => ?_
  refine ⟨files _, fun ret => .ite (fun _ => trivial) fun _ => ?_⟩
  refine (copyLoop_only (fun _ => files _) reads _ _ _ _).bind fun copied => ?_
  refine .ite (fun _ => ⟨files _, fun _ => trivial⟩) fun _ =>
    ⟨files _, fun ret => ⟨files _, fun _ => ?_⟩⟩
  refine .ite (fun _ => trivial) fun _ => .ite (fun _ => trivial) fun _ => ⟨files _, fun _ => ?_⟩
  exact (updateSpaceLocked_only fun c _ => files c).bind fun _ => ⟨files _, fun _ => trivial⟩

end Files

/-! ## The connection -/

theorem requestBodyRead_only {reader : RequestBodyReader}
    (recvs : ∀ fd offset n, P (.recv fd offset n)) (maxLen : Nat) :
    (requestBodyRead reader maxLen).Only P := by
  refine .ite (fun _ => trivial) fun _ => .ite (fun _ => trivial) fun _ =>
    ⟨recvs _ _ _, fun buf => ?_⟩
  match buf with
  | .error _ => trivial
  | .ok ⟨[], _⟩ => trivial
  | .ok ⟨_ :: _, _⟩ => trivial

theorem recvRequest_only {fd : Fd} (recvs : ∀ fd offset n, P (.recv fd offset n)) (fuel : Nat)
    (request : Bytes) : (recvRequest fd fuel request).Only P := by
  induction fuel generalizing request with
  | zero => trivial
  | succ fuel ih =>
      refine .ite (fun _ => ⟨recvs _ _ _, fun chunk => ?_⟩) fun _ => trivial
      cases chunk with
      | error _ => trivial
      | ok got =>
          obtain ⟨bytes, fits⟩ := got
          cases bytes with
          | nil => trivial
          | cons c rest =>
              simp only [Prog.bind]
              split
              · trivial
              · exact ih _

section Routes

variable (sends : ∀ fd data, P (.send fd data)) (closes : ∀ fd, P (.close fd))
include sends closes

theorem refuse_only (fd : Fd) (status body : String) : (refuse fd status body).Only P := by
  unfold refuse
  exact (sendTextResponse_only (sends _) _ _ _).bind fun _ => ⟨closes _, fun _ => trivial⟩

theorem answer_only (fd : Fd) (text : String) : (answer fd text).Only P := by
  unfold answer
  exact (sendAll_only (sends _) _).bind fun _ => ⟨closes _, fun _ => trivial⟩

theorem indexRoute_only (indexHtml : Bytes) (fd : Fd) : (indexRoute indexHtml fd).Only P :=
  .ite (fun _ => ⟨closes _, fun _ => trivial⟩) fun _ =>
    (sendBoth_only (sends _) _ _).bind fun _ => ⟨closes _, fun _ => trivial⟩

section Reads

variable (files : ∀ c : FsCall, c.Reads → P (.fs c))
include files

theorem statusRoute_only (fd : Fd) : (statusRoute fd).Only P := by
  refine (storageFormatStatusJson_only files _ _).bind fun body => ?_
  refine .ite (fun _ => ⟨closes _, fun _ => trivial⟩) fun _ => ?_
  exact .ite (fun _ => ⟨closes _, fun _ => trivial⟩) fun _ =>
    (sendBoth_only (sends _) _ _).bind fun _ => ⟨closes _, fun _ => trivial⟩

theorem userPageRoute_only (fuel : Nat) (fd : Fd) : (userPageRoute fuel fd).Only P := by
  refine (storageUserIndexSize_only files _).bind fun size => ?_
  refine .ite (fun _ => (answer_only sends closes _ _).bind fun _ => trivial) fun _ => ?_
  refine .ite (fun _ => (refuse_only sends closes _ _ _).bind fun _ => trivial) fun _ => ?_
  refine .ite (fun _ => ⟨closes _, fun _ => trivial⟩) fun _ => ?_
  refine (sendAll_only (sends _) _).bind fun ret => ?_
  refine .ite (fun _ => ⟨closes _, fun _ => trivial⟩) fun _ => ?_
  refine (storageStreamUserIndex_only files (fun _ => sendAll_only (sends _) _) _).bind
    fun ret => ?_
  cases ret with
  | none => trivial
  | some ret => exact ⟨closes _, fun _ => trivial⟩

/-- The routes other than the upload write nothing. -/
theorem pageRoutes_reads {text : Bytes} (other : ¬ startsWith text "PUT /user/index.html ")
    (indexHtml : Bytes) (fuel : Nat) (fd : Fd) (request : Bytes) (headerEnd : Nat) :
    (pageRoutes indexHtml fuel fd text request headerEnd).Only P := by
  refine .ite (fun put => absurd put other) fun _ => ?_
  refine .ite (fun _ => (answer_only sends closes _ _).bind fun _ => trivial) fun _ => ?_
  refine .ite (fun _ => (statusRoute_only sends closes files _).bind fun _ => trivial) fun _ => ?_
  refine .ite (fun _ => userPageRoute_only sends closes files _ _) fun _ => ?_
  exact .ite (fun _ => (answer_only sends closes _ _).bind fun _ => trivial)
    fun _ => (indexRoute_only sends closes _ _).bind fun _ => trivial

end Reads

variable (files : ∀ c, P (.fs c)) (recvs : ∀ fd offset n, P (.recv fd offset n))
include files recvs

theorem uploadRoute_only (fd : Fd) (request : Bytes) (headerEnd : Nat) :
    (uploadRoute fd request headerEnd).Only P := by
  have refused : ∀ status body, (refuse fd status body).Only P :=
    refuse_only sends closes fd
  unfold uploadRoute
  split
  · exact refused _ _
  split
  · exact refused _ _
  refine .ite (fun _ => refused _ _) fun _ => .ite (fun _ => refused _ _) fun _ => ?_
  refine (storageWriteUserIndexStream_only files
    (fun _ n => requestBodyRead_only recvs n) _ _).bind fun written => ?_
  exact .ite (fun _ => refused _ _) fun _ => refused _ _

theorem pageRoutes_only (indexHtml : Bytes) (fuel : Nat) (fd : Fd) (text request : Bytes)
    (headerEnd : Nat) : (pageRoutes indexHtml fuel fd text request headerEnd).Only P := by
  by_cases put : startsWith text "PUT /user/index.html "
  · rw [pageRoutes, if_pos put]
    exact (uploadRoute_only sends closes files recvs _ _ _).bind fun _ => trivial
  · exact pageRoutes_reads sends closes (fun c _ => files c) put _ _ _ _ _

end Routes

end PicoCan.Http
