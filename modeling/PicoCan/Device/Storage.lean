import PicoCan.Device.Waiting
import PicoCan.Http.Alone
import PicoCan.Http.RoundTrip

/-!
# The device and its disk

The machine of the device with the storage calls of its threads carried out by one disk,
from the first connection to the last. A connection is recorded while it is served. Among
all that the other threads do meanwhile, each connection goes as it would alone, and finds
the disk as the one before has left it.
-/

namespace PicoCan.Device

open Calls Machine
open PicoCan.Can (CanProg InitDone Outcome ParseResult)
open PicoCan.Http (Disk Fd GoesAs HttpCall HttpProg Luck NoStorage Oracle SessionCode Stores
  echoPass echoPass_only handleClient handleClient_alone putAbc websocketLeave)

/-! ## The machine -/

/-- A connection: the disk it found, and what has been asked and answered for it. -/
structure Visit where
  fuel : Nat
  fd : Fd
  before : Disk
  calls : List (Asked HttpCall.Answer) := []

/-- A connection that is done, and the disk it left. -/
structure PastVisit extends Visit where
  after : Disk

/-- `served` lists the connections that are done, newest first. -/
structure Storing where
  device : State
  disk : Disk
  serving : Option Visit := none
  served : List PastVisit := []

/-- A step of the device; a storage call in it has some luck. -/
structure StoringEvent where
  event : Event
  luck : Luck := {}

/-- The storage calls are answered by the disk. -/
def storedOracle (disk : Disk) (luck : Luck) (oracle : Oracle) : Oracle
  | .fs c => (disk.serve luck c).1
  | c => oracle c

/-- The call that a server thread makes next. -/
def State.calling (s : State) : Event → Option HttpCall
  | .http _ _ _ =>
      match s.http with
      | some (.call c _) => some c
      | _ => none
  | .ws _ _ => s.ws.bind SessionCode.calls
  | _ => none

namespace Storing

/-- The step with its storage call answered. -/
def answered (s : Storing) (luck : Luck) : Event → Event
  | .http o oracle stack => .http o (storedOracle s.disk luck oracle) stack
  | .ws o oracle => .ws o (storedOracle s.disk luck oracle)
  | e => e

/-- The disk behind the step. -/
def stored (s : Storing) (luck : Luck) (e : Event) : Disk :=
  match s.device.calling e with
  | some (.fs c) => (s.disk.serve luck c).2
  | _ => s.disk

section Record

variable (parse : Bytes → ParseResult)

/-- The record behind the step: of the connection that is served, and of those that are done. -/
def recorded (s : Storing) (luck : Luck) : Event → Option Visit × List PastVisit
  | .accept fuel fd => (some { fuel, fd, before := s.disk }, s.served)
  | .http o oracle _ =>
      match s.serving, s.device.http with
      | some visit, some (.call c _) =>
          match exec parse o (storedOracle s.disk luck oracle) c s.device.shared with
          | some (r, _) => (some { visit with calls := visit.calls ++ [⟨c, r⟩] }, s.served)
          | none => (some visit, s.served)
      | some visit, _ => (none, { visit with after := s.disk } :: s.served)
      | none, _ => (none, s.served)
  | _ => (s.serving, s.served)

variable (indexHtml : Bytes)

def step (s : Storing) (e : StoringEvent) : Option Storing :=
  (Device.step parse indexHtml s.device (s.answered e.luck e.event)).map fun device =>
    { device
      disk := s.stored e.luck e.event
      serving := (s.recorded parse e.luck e.event).1
      served := (s.recorded parse e.luck e.event).2 }

end Record

end Storing

section Machine

variable (parse : Bytes → ParseResult) (indexHtml : Bytes)

/-- The machine on a disk, which may hold anything when the device starts. -/
def storing (disk : Disk) : Machine Storing StoringEvent where
  Start s := ∃ d, (device parse indexHtml (InitDone parse)).Start d ∧ s = { device := d, disk }
  step := Storing.step parse indexHtml

/-- With a disk the device runs as it does with any answers of a storage. -/
theorem storing_device (disk : Disk) : Simulates (storing parse indexHtml disk) anyStep
    (device parse indexHtml (InitDone parse)) anyStep fun s d => s.device = d := by
  constructor
  · rintro _ ⟨d, started, rfl⟩
    exact ⟨d, started, rfl⟩
  · rintro s e t _ _ _ rfl _ hstep
    obtain ⟨d, moves, rfl⟩ := Option.map_eq_some_iff.mp hstep
    exact ⟨d, .one trivial moves, rfl⟩

end Machine

/-! ## The record -/

/-- The disk that the newest of the connections has left. -/
def leftBy (disk : Disk) : List PastVisit → Disk
  | [] => disk
  | last :: _ => last.after

/-- Every connection found what the one before it had left. -/
def Chained (disk : Disk) : List PastVisit → Prop
  | [] => True
  | last :: older => last.before = leftBy disk older ∧ Chained disk older

/-- The session thread has nothing to do with the storage. -/
def SessionCode.NoStorage : SessionCode → Prop
  | .loop rest => rest.Only Http.NoStorage
  | .leaving rest => rest.Only Http.NoStorage

theorem echoPass_noStorage (client : Http.WebsocketClient) (response : Bytes) :
    (echoPass client response).Only NoStorage :=
  echoPass_only (fun _ _ => trivial) (fun _ _ _ _ => trivial) (fun _ _ => trivial) trivial
    (fun _ _ => trivial) client response

theorem websocketLeave_noStorage (fd : Fd) : (websocketLeave fd).Only NoStorage := by
  have streams : (Http.bridge (Can.canBridgeSetRxStreaming false)).Only NoStorage :=
    Http.bridge_only (Q := fun _ => True) (Prog.only_true _) fun _ _ => trivial
  exact ⟨trivial, fun _ => streams.bind fun _ => ⟨trivial, fun _ => trivial⟩⟩

theorem SessionCode.NoStorage.calls {code : SessionCode} (quiet : SessionCode.NoStorage code)
    {c : HttpCall} (calls : SessionCode.calls code = some c) : Http.NoStorage c := by
  cases code with
  | loop rest =>
      cases rest with
      | ret pass => cases calls
      | call c' k =>
          cases calls
          exact quiet.1
  | leaving rest =>
      cases rest with
      | ret => cases calls
      | call c' k =>
          cases calls
          exact quiet.1

/-- What the record says of the connection that is served and of those that are done. -/
structure Recorded (indexHtml : Bytes) (disk : Disk) (s : Storing) : Prop where
  idle : s.serving = none → s.device.http = none ∧ s.disk = leftBy disk s.served
  serving : ∀ visit, s.serving = some visit → ∃ p, s.device.http = some p ∧
    Took (handleClient indexHtml visit.fuel visit.fd) visit.calls p ∧
    Stores visit.before visit.calls s.disk ∧ visit.before = leftBy disk s.served
  served : ∀ visit ∈ s.served,
    Took (handleClient indexHtml visit.fuel visit.fd) visit.calls (.ret true) ∧
      Stores visit.before visit.calls visit.after
  chained : Chained disk s.served
  session : ∀ code, s.device.ws = some code → SessionCode.NoStorage code

section Recorded

variable {parse : Bytes → ParseResult} {indexHtml : Bytes} {disk : Disk} {s t : Storing}

/-- A call that is no storage call leaves the disk alone. -/
theorem Storing.stored_other {e : Event} {luck : Luck} {c : HttpCall}
    (calls : s.device.calling e = some c) (elsewhere : Http.NoStorage c) :
    s.stored luck e = s.disk := by
  unfold Storing.stored
  rw [calls]
  cases c with
  | fs => exact elsewhere.elim
  | _ => rfl

theorem Storing.stored_none {e : Event} {luck : Luck} (calls : s.device.calling e = none) :
    s.stored luck e = s.disk := by
  unfold Storing.stored
  rw [calls]

/-- The session thread leaves the disk alone. -/
theorem Recorded.stored_ws {o : Outcome} {oracle : Oracle} {luck : Luck}
    (record : Recorded indexHtml disk s) : s.stored luck (.ws o oracle) = s.disk := by
  cases ws : s.device.ws with
  | none => exact Storing.stored_none (by simp only [State.calling, ws, Option.bind_none])
  | some code =>
      have calling : s.device.calling (.ws o oracle) = SessionCode.calls code := by
        simp only [State.calling, ws, Option.bind_some]
      cases calls : SessionCode.calls code with
      | none => exact Storing.stored_none (calling.trans calls)
      | some c =>
          exact Storing.stored_other (calling.trans calls) ((record.session code ws).calls calls)

/-- A step that is none of the HTTP thread, and makes no storage call. -/
theorem Recorded.beside {device : State} (record : Recorded indexHtml disk s)
    (http : device.http = s.device.http)
    (session : ∀ code, device.ws = some code → SessionCode.NoStorage code) :
    Recorded indexHtml disk { s with device } := by
  refine ⟨fun none => ?_, fun visit serving => ?_, record.served, record.chained, session⟩
  · rw [http]
    exact record.idle none
  · rw [http]
    exact record.serving visit serving

/-- The connection that is served makes a call. -/
theorem Recorded.called {device : State} {visit : Visit} {c : HttpCall}
    {k : c.Answer → HttpProg Bool}
    {r : c.Answer} {d : Disk} (record : Recorded indexHtml disk s)
    (serving : s.serving = some visit)
    (busy : s.device.http = some (.call c k)) (http : device.http = some (k r))
    (stores : ∀ before, Stores before visit.calls s.disk →
      Stores before (visit.calls ++ [⟨c, r⟩]) d)
    (session : ∀ code, device.ws = some code → SessionCode.NoStorage code) :
    Recorded indexHtml disk { s with
      device, disk := d, serving := some { visit with calls := visit.calls ++ [⟨c, r⟩] } } := by
  obtain ⟨p, stands, took, stored, found⟩ := record.serving visit serving
  obtain rfl := Option.some.inj (stands.symm.trans busy)
  refine ⟨fun none => (by cases none), fun visit' is => ?_, record.served, record.chained, session⟩
  obtain rfl := Option.some.inj is
  exact ⟨k r, http, took.snoc r, stores _ stored, found⟩

/-- A call is answered by the disk, or is no storage call. -/
theorem Storing.stores_call {o : Outcome} {oracle : Oracle} {stack : Bytes} {luck : Luck}
    {c : HttpCall} {k : c.Answer → HttpProg Bool} {r : c.Answer} {shared : Shared}
    (busy : s.device.http = some (.call c k))
    (hexec : exec parse o (storedOracle s.disk luck oracle) c s.device.shared = some (r, shared))
    {before : Disk} {calls : List (Asked HttpCall.Answer)} (stores : Stores before calls s.disk) :
    Stores before (calls ++ [⟨c, r⟩]) (s.stored luck (.http o oracle stack)) := by
  have calling : s.device.calling (.http o oracle stack) = some c := by
    simp only [State.calling, busy]
  by_cases elsewhere : Http.NoStorage c
  · rw [Storing.stored_other calling elsewhere]
    exact stores.snocOther elsewhere r
  · cases c with
    | fs c =>
        cases hexec
        unfold Storing.stored
        rw [calling]
        exact stores.snocFile luck c
    | _ => exact absurd trivial elsewhere

theorem Recorded.step {e : StoringEvent} (record : Recorded indexHtml disk s)
    (hstep : Storing.step parse indexHtml s e = some t) : Recorded indexHtml disk t := by
  obtain ⟨event, luck⟩ := e
  obtain ⟨device, moves, rfl⟩ := Option.map_eq_some_iff.mp hstep
  have moved := step_moved parse moves
  have loops : ∀ client response, SessionCode.NoStorage (.loop (echoPass client response)) :=
    echoPass_noStorage
  cases event with
  | accept fuel fd =>
      obtain idle | ⟨visit, serving⟩ : s.serving = none ∨ ∃ visit, s.serving = some visit := by
        cases s.serving <;> simp
      · cases moved with
        | accept http unused =>
            refine ⟨fun none => (by cases none), fun visit is => ?_, record.served, record.chained,
              record.session⟩
            obtain rfl := Option.some.inj is
            exact ⟨_, rfl, .start _, .start _, (record.idle idle).2⟩
      · obtain ⟨p, stands, -⟩ := record.serving visit serving
        cases moved with
        | accept http unused => exact absurd (stands.symm.trans http) (Option.some_ne_none p)
  | http o oracle stack =>
      cases serving : s.serving with
      | none =>
          have none := (record.idle serving).1
          cases moved with
          | done busy => exact absurd (busy.symm.trans none) (Option.some_ne_none _)
          | httpCall busy => exact absurd (busy.symm.trans none) (Option.some_ne_none _)
          | create busy => exact absurd (busy.symm.trans none) (Option.some_ne_none _)
      | some visit =>
          cases moved with
          | done busy =>
              obtain ⟨p, stands, took, stored, found⟩ := record.serving visit serving
              obtain rfl := Option.some.inj (stands.symm.trans busy)
              have calling : s.device.calling (.http o oracle stack) = none := by
                simp only [State.calling, busy]
              simp only [Storing.recorded, serving, busy, Storing.stored_none calling]
              refine ⟨fun _ => ⟨rfl, rfl⟩,
                fun visit is => (by cases is), ?_, ⟨found, record.chained⟩, record.session⟩
              intro past member
              rcases List.mem_cons.mp member with rfl | older
              · exact ⟨took, stored⟩
              · exact record.served past older
          | httpCall busy other hexec =>
              simp only [Storing.recorded, serving, busy, hexec]
              exact record.called serving busy rfl (fun before => Storing.stores_call busy hexec)
                record.session
          | create busy =>
              have hexec : exec parse o (storedOracle s.disk luck oracle) .wsThreadCreate
                  s.device.shared = some ((), s.device.shared) := rfl
              simp only [Storing.recorded, serving, busy, hexec]
              refine record.called serving busy rfl
                (fun before => Storing.stores_call busy hexec) ?_
              intro code is
              obtain rfl := Option.some.inj is
              exact loops _ _
  | ws o oracle =>
      rw [record.stored_ws]
      cases moved with
      | again busy next =>
          refine record.beside rfl ?_
          intro code is
          obtain rfl := Option.some.inj is
          exact loops _ _
      | leave busy next =>
          refine record.beside rfl ?_
          intro code is
          obtain rfl := Option.some.inj is
          exact websocketLeave_noStorage _
      | loopCall busy hexec =>
          refine record.beside rfl ?_
          intro code is
          obtain rfl := Option.some.inj is
          exact (record.session _ busy).2 _
      | leaveCall busy hexec =>
          refine record.beside rfl ?_
          intro code is
          obtain rfl := Option.some.inj is
          exact (record.session _ busy).2 _
      | gone busy =>
          refine record.beside rfl ?_
          intro code is
          cases is
  | worker o =>
      cases moved with
      | workerCall => exact record.beside rfl record.session
      | round => exact record.beside rfl record.session
  | bus result =>
      cases moved with
      | bus => exact record.beside rfl record.session
  | frame frame =>
      cases moved with
      | frame => exact record.beside rfl record.session

theorem recorded_reach (reach : (storing parse indexHtml disk).Reach anyStep s) :
    Recorded indexHtml disk s := by
  refine reach.invariant ?_ ?_
  · rintro _ ⟨d, ⟨b, -, rfl⟩, rfl⟩
    refine ⟨fun _ => ⟨rfl, rfl⟩, ?_, ?_, trivial, ?_⟩
    · intro visit is
      cases is
    · intro past member
      cases member
    · intro code is
      cases is
  · intro s e t record _ hstep
    exact record.step hstep

theorem Recorded.alone (record : Recorded indexHtml disk s) : ∀ visit ∈ s.served,
    ∃ w, GoesAs indexHtml visit.fuel visit.fd visit.calls visit.before visit.after w := by
  intro visit member
  obtain ⟨took, stores⟩ := record.served visit member
  exact handleClient_alone took stores

/-- In every run the connections are served one after another: each finds the disk as the one
before has left it, and goes, among all that the other threads do, as it would go alone. -/
theorem visits_alone (reach : (storing parse indexHtml disk).Reach anyStep s) :
    Chained disk s.served ∧ (s.serving = none → s.disk = leftBy disk s.served) ∧
      ∀ visit ∈ s.served,
        ∃ w, GoesAs indexHtml visit.fuel visit.fd visit.calls visit.before visit.after w := by
  have record := recorded_reach reach
  refine ⟨record.chained, ?_, record.alone⟩
  intro none
  exact (record.idle none).2

end Recorded

/-! ## A run -/

/-- The client sends these bytes. -/
def clientOracle (bytes : Bytes) : Http.Oracle := fun c =>
  (Http.World.serve c { inbound := bytes, disk := Disk.blank }).1

/-- A step of the HTTP thread, with these bytes to receive. -/
def serves (bytes : Bytes) : StoringEvent := { event := .http {} (clientOracle bytes) [] }

def accepts (fuel : Nat) (fd : Fd) : StoringEvent := { event := .accept fuel fd }

def readsBack : Bytes := lit "GET /user/ HTTP/1.1\r\n\r\n"

/-- A page of three bytes is uploaded, behind its header, and then visited. -/
def uploadThenVisit : List StoringEvent :=
  accepts 0 3 :: serves putAbc :: List.replicate 28 (serves (lit "abc")) ++
    accepts 8 4 :: List.replicate 18 (serves readsBack)

/-- Where the run starts. -/
def blankDevice : Storing :=
  { device := { shared := { bridge := Can.Bridge.initialised true } }, disk := Disk.blank }

theorem blankDevice_start : (storing Can.parseSample [] Disk.blank).Reach anyStep blankDevice :=
  .start ⟨_, ⟨_, Can.initDone_initialised Can.parseSample, rfl⟩, rfl⟩

theorem visits_alone_uploadThenVisit : ∃ s,
    (storing Can.parseSample [] Disk.blank).runs blankDevice uploadThenVisit = some s ∧
    s.served.length = 2 ∧ s.disk = leftBy Disk.blank s.served ∧ ∀ visit ∈ s.served,
      ∃ w, GoesAs [] visit.fuel visit.fd visit.calls visit.before visit.after w := by
  have outcome : ((storing Can.parseSample [] Disk.blank).runs blankDevice uploadThenVisit).map
      (fun s => (s.serving.isNone, s.served.length)) = some (true, 2) := by decide +kernel
  obtain ⟨s, run, facts⟩ := Option.map_eq_some_iff.mp outcome
  obtain ⟨idle, number⟩ := Prod.mk.inj facts
  obtain ⟨-, left, alone⟩ := visits_alone (blankDevice_start.runs run)
  exact ⟨s, run, number, left (Option.isNone_iff_eq_none.mp idle), alone⟩

end PicoCan.Device
