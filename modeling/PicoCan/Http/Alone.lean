import PicoCan.Calls.Transcript
import PicoCan.Http.ContentLength
import PicoCan.Http.World

/-!
# A connection by itself

What other threads do reaches the thread that serves a connection only as answers to its
calls. Any answers that agree with the disk could have been decided beforehand: there is a
world in which the connection, alone, is answered so from beginning to end.
-/

namespace PicoCan.Http

open Calls
open PicoCan.Can (CanCall)

/-! ## What the program does with its answers -/

/-- The upgrade claims the session, and then makes calls of these kinds. -/
theorem handleWebsocket_claims {P : HttpCall → Prop} (fd : Fd) (clears : P .wsActiveClear)
    (sends : ∀ data, P (.send fd data)) (hands : ∀ client, P (.wsClientSet client))
    (cans : ∀ c, P (.can c)) (creates : P .wsThreadCreate) (request pending : Bytes) :
    ∃ k, handleWebsocket fd request pending = .call .wsActiveCas k ∧
      ∀ claimed, (k claimed).Only P := by
  refine ⟨_, rfl, fun claimed => .ite (fun _ => trivial) fun _ => ?_⟩
  cases buildWebsocketAccept request acceptMax with
  | error ret => exact ⟨clears, fun _ => trivial⟩
  | ok accept =>
      refine .ite (fun _ => ⟨clears, fun _ => trivial⟩) fun _ => ?_
      refine (sendAll_only sends _).bind fun ret =>
        .ite (fun _ => ⟨clears, fun _ => trivial⟩) fun _ => ?_
      have streams : (bridge (Can.canBridgeSetRxStreaming true)).Only P :=
        bridge_only (Q := fun _ => True) (Prog.only_true _) fun _ _ => cans _
      exact ⟨hands _, fun _ => streams.bind fun _ => ⟨creates, fun _ => trivial⟩⟩

theorem upgradeRoute_only {P : HttpCall → Prop} {fd : Fd} (claims : P .wsActiveCas)
    (clears : P .wsActiveClear) (closes : P (.close fd)) (sends : ∀ data, P (.send fd data))
    (hands : ∀ client, P (.wsClientSet client)) (cans : ∀ c, P (.can c))
    (creates : P .wsThreadCreate)
    (request : Bytes) (headerEnd : Nat) : (upgradeRoute fd request headerEnd).Only P := by
  obtain ⟨k, is, behind⟩ :=
    handleWebsocket_claims fd clears sends hands cans creates (cString request)
    (request.drop (headerEnd + 4))
  unfold upgradeRoute
  rw [is]
  refine Prog.Only.bind ⟨claims, behind⟩ fun ret =>
    .ite (fun _ => ⟨closes, fun _ => trivial⟩) fun _ => ?_
  trivial

def IsClose (c : HttpCall) : Prop :=
  match c with
  | .close _ => True
  | _ => False

def NoClose (c : HttpCall) : Prop := ¬ IsClose c

section Blind

variable {fd : Fd}

theorem close_blind {α : Type} (a : α) :
    (perform (.close fd) >>= fun _ => .ret a).Blind IsClose :=
  ⟨fun _ _ _ => rfl, fun _ => trivial⟩

theorem sendAll_blind (data : Bytes) : (sendAll fd data).Blind IsClose :=
  Prog.Only.blind (sendAll_only (P := NoClose) (fun _ => id) data)

theorem sendBoth_blind (header body : Bytes) : (sendBoth fd header body).Blind IsClose :=
  Prog.Only.blind (sendBoth_only (P := NoClose) (fun _ => id) header body)

theorem refuse_blind (status body : String) : (refuse fd status body).Blind IsClose := by
  unfold refuse
  exact Prog.Blind.bind (Prog.Only.blind (sendTextResponse_only (P := NoClose) (fun _ => id) _ _ _))
    fun _ => close_blind ()

theorem answer_blind (text : String) : (answer fd text).Blind IsClose := by
  unfold answer
  exact (sendAll_blind _).bind fun _ => close_blind ()

theorem uploadRoute_blind (request : Bytes) (headerEnd : Nat) :
    (uploadRoute fd request headerEnd).Blind IsClose := by
  unfold uploadRoute
  split
  · exact refuse_blind _ _
  split
  · exact refuse_blind _ _
  refine .ite (fun _ => refuse_blind _ _) fun _ => .ite (fun _ => refuse_blind _ _) fun _ => ?_
  have writes (len : Nat) (reader : RequestBodyReader) :
      (storageWriteUserIndexStream requestBodyRead len reader).Only NoClose :=
    storageWriteUserIndexStream_only (fun _ => id)
      (fun _ n => requestBodyRead_only (fun _ _ _ => id) n) len reader
  exact (writes _ _).blind.bind fun written =>
    .ite (fun _ => refuse_blind _ _) fun _ => refuse_blind _ _

theorem statusRoute_blind : (statusRoute fd).Blind IsClose := by
  have formats : (storageFormatStatusJson [] statusBodyMax).Only NoClose :=
    storageFormatStatusJson_only (fun _ _ => id) _ _
  refine formats.blind.bind fun body => .ite (fun _ => close_blind ()) fun _ => ?_
  exact .ite (fun _ => close_blind ()) fun _ => (sendBoth_blind _ _).bind fun _ => close_blind ()

theorem userPageRoute_blind (fuel : Nat) : (userPageRoute fuel fd).Blind IsClose := by
  have sizes : (storageUserIndexSize 0).Only NoClose := storageUserIndexSize_only (fun _ _ => id) _
  have streams : (storageStreamUserIndex fuel (socketWrite fd)).Only NoClose :=
    storageStreamUserIndex_only (fun _ _ => id) (fun _ => sendAll_only (fun _ => id) _) _
  refine sizes.blind.bind fun size =>
    .ite (fun _ => (answer_blind _).bind fun _ => trivial) fun _ => ?_
  refine .ite (fun _ => (refuse_blind _ _).bind fun _ => trivial) fun _ => ?_
  refine .ite (fun _ => close_blind true) fun _ => (sendAll_blind _).bind fun ret => ?_
  refine .ite (fun _ => close_blind true) fun _ => streams.blind.bind fun ret => ?_
  cases ret with
  | none => trivial
  | some ret => exact close_blind true

theorem indexRoute_blind (indexHtml : Bytes) : (indexRoute indexHtml fd).Blind IsClose :=
  .ite (fun _ => close_blind ()) fun _ => (sendBoth_blind _ _).bind fun _ => close_blind ()

theorem pageRoutes_blind (indexHtml : Bytes) (fuel : Nat) (text request : Bytes) (headerEnd : Nat) :
    (pageRoutes indexHtml fuel fd text request headerEnd).Blind IsClose := by
  refine .ite (fun _ => (uploadRoute_blind _ _).bind fun _ => trivial) fun _ => ?_
  refine .ite (fun _ => (answer_blind _).bind fun _ => trivial) fun _ => ?_
  refine .ite (fun _ => statusRoute_blind.bind fun _ => trivial) fun _ => ?_
  refine .ite (fun _ => userPageRoute_blind fuel) fun _ => ?_
  exact .ite (fun _ => (answer_blind _).bind fun _ => trivial)
    fun _ => (indexRoute_blind _).bind fun _ => trivial

/-- No answer to a close is looked at. -/
theorem handleClient_blind (indexHtml : Bytes) (fuel : Nat) :
    (handleClient indexHtml fuel fd).Blind IsClose := by
  rw [handleClient_eq]
  have receives : (recvRequest fd (httpRequestMax - 1) []).Only NoClose :=
    recvRequest_only (fun _ _ _ => id) _ _
  refine receives.blind.bind fun request => ?_
  match request with
  | .gone => exact close_blind true
  | .received _ none => exact (answer_blind _).bind fun _ => trivial
  | .received request (some headerEnd) =>
      refine .ite (fun _ => ?_) fun _ => pageRoutes_blind _ _ _ _ _
      obtain ⟨k, claims, behind⟩ := handleWebsocket_claims (P := NoClose) fd id (fun _ => id)
        (fun _ => id) (fun _ => id) id (cString request) (request.drop (headerEnd + 4))
      have upgrades : (handleWebsocket fd (cString request) (request.drop (headerEnd + 4))).Only
          NoClose := by
        rw [claims]
        exact ⟨id, behind⟩
      refine Prog.Blind.bind ?_ fun _ => trivial
      exact upgrades.blind.bind fun ret => .ite (fun _ => close_blind ()) fun _ => trivial

end Blind

/-! ## The flag of the session

`ws_active` is the one variable that another thread writes and that is read here. It is read
once, and before it is written here.
-/

def IsClaim (c : HttpCall) : Prop :=
  match c with
  | .wsActiveCas => True
  | _ => False

def NoClaim (c : HttpCall) : Prop := ¬ IsClaim c

/-- The calls that read or write `ws_active`. -/
def OnFlag (c : HttpCall) : Prop :=
  match c with
  | .wsActiveCas | .wsActiveClear => True
  | _ => False

/-- Nothing is claimed behind the first access to the flag. -/
def ClaimsFirst {α : Type} : HttpProg α → Prop
  | .ret _ => True
  | .call c k => (OnFlag c → ∀ r, (k r).Only NoClaim) ∧ ∀ r, ClaimsFirst (k r)

theorem claimsFirst_of_only {α : Type} {p : HttpProg α} (only : p.Only NoClaim) :
    ClaimsFirst p := by
  induction p with
  | ret a => trivial
  | call c k ih => exact ⟨fun _ => only.2, fun r => ih r (only.2 r)⟩

theorem ClaimsFirst.bind {α β : Type} {p : HttpProg α} {f : α → HttpProg β}
    (quiet : p.Only fun c => ¬ OnFlag c) (rest : ∀ a, ClaimsFirst (f a)) :
    ClaimsFirst (p >>= f) := by
  induction p with
  | ret a => exact rest a
  | call c k ih => exact ⟨fun is => absurd is quiet.1, fun r => ih r (quiet.2 r)⟩

theorem handleClient_claims (indexHtml : Bytes) (fuel : Nat) (fd : Fd) :
    ClaimsFirst (handleClient indexHtml fuel fd) := by
  rw [handleClient_eq]
  refine ClaimsFirst.bind (recvRequest_only (fun _ _ _ => id) _ _) fun request => ?_
  match request with
  | .gone => exact claimsFirst_of_only ⟨id, fun _ => trivial⟩
  | .received _ none =>
      exact claimsFirst_of_only
        ((answer_only (fun _ _ => id) (fun _ => id) _ _).bind fun _ => trivial)
  | .received request (some headerEnd) =>
      show ClaimsFirst (if requestIsWebsocket (cString request) then _ else _)
      by_cases upgrade : requestIsWebsocket (cString request)
      · rw [if_pos upgrade]
        obtain ⟨k, claims, behind⟩ := handleWebsocket_claims (P := NoClaim) fd id
          (fun _ => id) (fun _ => id) (fun _ => id) id (cString request)
          (request.drop (headerEnd + 4))
        have after (claimed : Bool) : (k claimed >>= fun ret =>
            (if ret < 0 then (do let _ ← perform (.close fd)) else .ret ()) >>= fun _ =>
              .ret true : HttpProg Bool).Only NoClaim :=
          (behind claimed).bind fun ret => Prog.Only.bind
            (.ite (fun _ => ⟨id, fun _ => trivial⟩) fun _ => trivial) fun _ => trivial
        unfold upgradeRoute
        rw [claims, Prog.bind_bind]
        exact ⟨fun _ => after, fun claimed => claimsFirst_of_only (after claimed)⟩
      · rw [if_neg upgrade]
        exact claimsFirst_of_only (pageRoutes_only (fun _ _ => id) (fun _ => id) (fun _ => id)
          (fun _ _ _ => id) _ _ _ _ _ _)

/-- Nothing is polled. -/
def NoPoll (c : HttpCall) : Prop :=
  match c with
  | .poll _ _ => False
  | _ => True

theorem handleClient_noPoll (indexHtml : Bytes) (fuel : Nat) (fd : Fd) :
    (handleClient indexHtml fuel fd).Only NoPoll := by
  rw [handleClient_eq]
  refine Prog.Only.bind (recvRequest_only (fun _ _ _ => trivial) _ _) fun request => ?_
  match request with
  | .gone => exact ⟨trivial, fun _ => trivial⟩
  | .received _ none =>
      exact (answer_only (fun _ _ => trivial) (fun _ => trivial) _ _).bind fun _ => trivial
  | .received request (some headerEnd) =>
      refine .ite (fun _ => ?_) fun _ => pageRoutes_only (fun _ _ => trivial) (fun _ => trivial)
        (fun _ => trivial) (fun _ _ _ => trivial) _ _ _ _ _ _
      exact (upgradeRoute_only trivial trivial trivial (fun _ => trivial) (fun _ => trivial)
        (fun _ => trivial) trivial _ _).bind fun _ => trivial

/-! ## What a transcript says -/

/-- The bytes that a call has put on the connection. -/
def putBy : (c : HttpCall) → c.Answer → Bytes
  | .send _ data, .ok n => data.take n.val
  | _, _ => []

/-- The bytes that a call has taken off the connection. -/
def gotBy : (c : HttpCall) → c.Answer → Bytes
  | .recv _ _ _, .ok chunk => chunk.val
  | _, _ => []

def sentIn (calls : List (Asked HttpCall.Answer)) : Bytes :=
  calls.flatMap fun asked => putBy asked.1 asked.2

def receivedIn (calls : List (Asked HttpCall.Answer)) : Bytes :=
  calls.flatMap fun asked => gotBy asked.1 asked.2

/-- The storage calls were answered by a disk, with whatever luck each of them had. -/
inductive Stores : Disk → List (Asked HttpCall.Answer) → Disk → Prop
  | start (d : Disk) : Stores d [] d
  | file {c : FsCall} {luck : Luck} {calls : List (Asked HttpCall.Answer)} {d d' : Disk}
      (rest : Stores (d.serve luck c).2 calls d') :
      Stores d (⟨.fs c, (d.serve luck c).1⟩ :: calls) d'
  | other {c : HttpCall} {r : c.Answer} {calls : List (Asked HttpCall.Answer)} {d d' : Disk}
      (elsewhere : NoStorage c) (rest : Stores d calls d') : Stores d (⟨c, r⟩ :: calls) d'

theorem Stores.snocFile {calls : List (Asked HttpCall.Answer)} {d d' : Disk}
    (stores : Stores d calls d') (luck : Luck) (c : FsCall) :
    Stores d (calls ++ [⟨.fs c, (d'.serve luck c).1⟩]) (d'.serve luck c).2 := by
  induction stores with
  | start d => exact .file (.start _)
  | file _ ih => exact .file ih
  | other elsewhere _ ih => exact .other elsewhere ih

theorem Stores.snocOther {calls : List (Asked HttpCall.Answer)} {d d' : Disk}
    (stores : Stores d calls d') {c : HttpCall} (elsewhere : NoStorage c) (r : c.Answer) :
    Stores d (calls ++ [⟨c, r⟩]) d' := by
  induction stores with
  | start d => exact .other elsewhere (.start d)
  | file _ ih => exact .file ih
  | other before _ ih => exact .other before ih

/-! ## The world -/

/-- A fate to come first among those of its kind. -/
def fatesBefore (fates : Kind → List Fate) (kind : Kind) (fate : Fate) : Kind → List Fate :=
  fun k => if k = kind then fate :: fates k else fates k

theorem serve_fatesBefore (w : World) (c : HttpCall) (fate : Fate) :
    World.serve c { w with fates := fatesBefore w.fates c.kind fate } = World.respond fate c w := by
  have first : World.fate { w with fates := fatesBefore w.fates c.kind fate } c.kind = fate := by
    simp only [World.fate, fatesBefore, if_true, List.headD_cons]
  have rest : World.fatesAfter { w with fates := fatesBefore w.fates c.kind fate } c.kind =
      w.fates := by
    funext k
    by_cases same : k = c.kind <;> simp [World.fatesAfter, fatesBefore, same]
  rw [World.serve, first, rest]

/-- A world that answers the calls as they were answered, and what it comes to. -/
def Explained (calls : List (Asked HttpCall.Answer)) (d d' : Disk) (active : Bool) : Prop :=
  ∀ (client : WebsocketClient) (sent : Bytes) (threads : Nat),
  ∃ (fates : Kind → List Fate) (w' : World),
    Replays World.serve IsClose
      { fates, inbound := receivedIn calls, sent, disk := d, wsActive := active
        wsClient := client, threads }
      calls w' ∧
    w'.inbound = [] ∧ w'.sent = sent ++ sentIn calls ∧ w'.disk = d'

/-- One more call in front: some fate answers it in the world before. -/
theorem Explained.cons {c : HttpCall} {r : c.Answer} {calls : List (Asked HttpCall.Answer)}
    {d d₁ d' : Disk} {active active₁ : Bool} (rest : Explained calls d₁ d' active₁)
    (fate : Fate)
    (gives : ∀ (client : WebsocketClient) (sent : Bytes) (threads : Nat), ∃ client₁ threads₁,
      ∀ fates, ∃ r', (¬ IsClose c → r' = r) ∧ World.respond fate c
        { fates, inbound := receivedIn (⟨c, r⟩ :: calls), sent, disk := d, wsActive := active
          wsClient := client, threads } =
        (r', { fates, inbound := receivedIn calls, sent := sent ++ putBy c r, disk := d₁
               wsActive := active₁, wsClient := client₁, threads := threads₁ })) :
    Explained (⟨c, r⟩ :: calls) d d' active := by
  intro client sent threads
  obtain ⟨client₁, threads₁, gives⟩ := gives client sent threads
  obtain ⟨fates, w', replays, drained, put, disk⟩ := rest client₁ (sent ++ putBy c r) threads₁
  obtain ⟨r', same, served⟩ := gives fates
  rw [← serve_fatesBefore] at served
  refine ⟨fatesBefore fates c.kind fate, w', .call (fun looked => ?_) ?_, drained, ?_, disk⟩
  · rw [served]
    exact same looked
  · rw [served]
    exact replays
  · rw [put, List.append_assoc]
    rfl

/-- A fate that delivers a chunk of what there is. -/
theorem respond_recv {fd : Fd} {offset len : Nat} {chunk : Chunk len} (rest : Bytes) {w : World}
    (inbound : w.inbound = chunk.val ++ rest) (ending : w.ending = none) :
    World.respond { count := some chunk.val.length } (.recv fd offset len) w =
      (.ok chunk, { w with inbound := rest }) := by
  obtain ⟨bytes, fits⟩ := chunk
  have upTo : Luck.upTo { count := some bytes.length } len = bytes.length := Nat.min_eq_left fits
  simp only [World.respond]
  split
  · next failed => cases failed
  · next failed =>
      rw [ending] at failed
      cases failed
  · simp only [upTo, inbound, List.take_left, List.drop_left]

/-- A call that does not touch the flag is answered so by some fate. -/
theorem Explained.call {c : HttpCall} {r : c.Answer} {calls : List (Asked HttpCall.Answer)}
    {d d' : Disk} {active : Bool} (unflagged : ¬ OnFlag c) (polls : NoPoll c)
    (elsewhere : NoStorage c)
    (rest : Explained calls d d' active) : Explained (⟨c, r⟩ :: calls) d d' active := by
  cases c with
  | fs => exact elsewhere.elim
  | poll => exact polls.elim
  | wsActiveCas | wsActiveClear => exact absurd trivial unflagged
  | can c =>
      classical
      refine rest.cons { can := fun c' => if is : c = c' then is ▸ r else quiet c' }
        fun client sent threads => ⟨client, threads, fun fates => ⟨r, fun _ => rfl, ?_⟩⟩
      simp [World.respond, receivedIn, gotBy, putBy]
  | recv fd offset len =>
      cases r with
      | error e =>
          exact rest.cons { fail := some e } fun client sent threads =>
            ⟨client, threads, fun fates => ⟨.error e, fun _ => rfl, by
              simp [World.respond, receivedIn, gotBy, putBy]⟩⟩
      | ok chunk =>
          refine rest.cons { count := some chunk.val.length } fun client sent threads =>
            ⟨client, threads, fun fates => ⟨.ok chunk, fun _ => rfl, ?_⟩⟩
          rw [respond_recv (receivedIn calls) rfl rfl]
          simp [putBy]
  | send fd data =>
      cases r with
      | error e =>
          exact rest.cons { fail := some e } fun client sent threads =>
            ⟨client, threads, fun fates => ⟨.error e, fun _ => rfl, by
              simp [World.respond, receivedIn, gotBy, putBy]⟩⟩
      | ok n =>
          refine rest.cons { count := some n.val } fun client sent threads =>
            ⟨client, threads, fun fates => ⟨.ok n, fun _ => rfl, ?_⟩⟩
          have upTo : min n.val data.length = n.val := Nat.min_eq_left n.property
          simp [World.respond, receivedIn, gotBy, putBy, Luck.upTo, upTo]
  | close fd =>
      exact rest.cons {} fun client sent threads =>
        ⟨client, threads, fun fates => ⟨0, fun looked => absurd trivial looked, by
          simp [World.respond, receivedIn, gotBy, putBy]⟩⟩
  | wsClientSet client' =>
      exact rest.cons {} fun client sent threads =>
        ⟨client', threads, fun fates => ⟨(), fun _ => rfl, by
          simp [World.respond, receivedIn, gotBy, putBy]⟩⟩
  | wsThreadCreate =>
      exact rest.cons {} fun client sent threads =>
        ⟨client, threads + 1, fun fates => ⟨(), fun _ => rfl, by
          simp [World.respond, receivedIn, gotBy, putBy]⟩⟩

/-- Whatever has been answered, there is a world in which it is; and where nothing is claimed
any more, whatever the flag is there. -/
theorem took_explained {α : Type} {p q : HttpProg α} {calls : List (Asked HttpCall.Answer)}
    (took : Took p calls q) (first : ClaimsFirst p) (polls : p.Only NoPoll) {d d' : Disk}
    (stores : Stores d calls d') :
    (∃ active, Explained calls d d' active) ∧
      (p.Only NoClaim → ∀ active, Explained calls d d' active) := by
  induction took generalizing d with
  | start p =>
      have none (d : Disk) (active : Bool) : Explained [] d d active := fun client sent threads =>
        ⟨fun _ => [], _, .start _, rfl, (List.append_nil sent).symm, rfl⟩
      cases stores
      exact ⟨⟨false, none _ false⟩, fun _ => none _⟩
  | @call c k r calls q rest ih =>
      cases stores with
      | @file c luck _ _ _ stores =>
          obtain ⟨⟨active, some⟩, any⟩ := ih (first.2 _) (polls.2 _) stores
          have front {active : Bool} (rest : Explained calls (d.serve luck c).2 d' active) :
              Explained (⟨.fs c, (d.serve luck c).1⟩ :: calls) d d' active := by
            refine rest.cons { luck with } fun client sent threads =>
              ⟨client, threads, fun fates => ⟨(d.serve luck c).1, fun _ => rfl, ?_⟩⟩
            simp [World.respond, receivedIn, gotBy, putBy]
          exact ⟨⟨active, front some⟩, fun quiet active => front (any (quiet.2 _) active)⟩
      | other elsewhere stores =>
          obtain ⟨⟨active, some⟩, any⟩ := ih (first.2 _) (polls.2 _) stores
          by_cases flagged : OnFlag c
          · -- the rest claims nothing, so the flag may be as this call leaves it
            have free := any (first.1 flagged r)
            cases c with
            | wsActiveCas =>
                have front : Explained (⟨.wsActiveCas, r⟩ :: calls) d d' (!r) :=
                  (free true).cons {} fun client sent threads =>
                    ⟨client, threads, fun fates => ⟨r, fun _ => rfl, by
                      simp [World.respond, receivedIn, gotBy, putBy]⟩⟩
                exact ⟨⟨!r, front⟩, fun quiet => absurd trivial quiet.1⟩
            | wsActiveClear =>
                have front (active : Bool) : Explained (⟨.wsActiveClear, r⟩ :: calls) d d' active :=
                  (free false).cons {} fun client sent threads =>
                    ⟨client, threads, fun fates => ⟨r, fun _ => rfl, by
                      simp [World.respond, receivedIn, gotBy, putBy]⟩⟩
                exact ⟨⟨false, front false⟩, fun _ => front⟩
            | _ => exact flagged.elim
          · exact ⟨⟨active, some.call flagged polls.1 elsewhere⟩,
              fun quiet active => (any (quiet.2 r) active).call flagged polls.1 elsewhere⟩

/-- `w` is a world in which the connection, alone, goes as it went: from one disk to another,
with the same bytes received and sent. -/
structure GoesAs (indexHtml : Bytes) (fuel : Nat) (fd : Fd) (calls : List (Asked HttpCall.Answer))
    (d d' : Disk) (w : World) : Prop where
  disk : w.disk = d
  inbound : w.inbound = receivedIn calls
  unsent : w.sent = []
  done : (runIn (handleClient indexHtml fuel fd) w).1 = true
  left : (runIn (handleClient indexHtml fuel fd) w).2.disk = d'
  drained : (runIn (handleClient indexHtml fuel fd) w).2.inbound = []
  sent : (runIn (handleClient indexHtml fuel fd) w).2.sent = sentIn calls

/-- A connection that has been served went as in some world it would have gone alone. -/
theorem handleClient_alone {indexHtml : Bytes} {fuel : Nat} {fd : Fd}
    {calls : List (Asked HttpCall.Answer)}
    (took : Took (handleClient indexHtml fuel fd) calls (.ret true)) {d d' : Disk}
    (stores : Stores d calls d') : ∃ w, GoesAs indexHtml fuel fd calls d d' w := by
  obtain ⟨⟨active, explained⟩, -⟩ := took_explained took (handleClient_claims indexHtml fuel fd)
    (handleClient_noPoll indexHtml fuel fd) stores
  obtain ⟨fates, w', replays, drained, put, disk⟩ := explained { fd := 0, pending := [] } [] 0
  have run := took.run (handleClient_blind indexHtml fuel) replays
  refine ⟨{ fates, inbound := receivedIn calls, disk := d, wsActive := active },
    rfl, rfl, rfl, ?_, ?_, ?_, ?_⟩ <;>
    rw [runIn, run]
  · rfl
  · exact disk
  · exact drained
  · exact put

end PicoCan.Http
