import PicoCan.Calls.Simulation
import PicoCan.Http.Ownership

/-!
# The whole device

The HTTP thread, the session thread, the TX worker, the driver's callback and the bus
over one state: the bridge of `can_bridge.c`, the variables the two server threads share,
and the open descriptors. Unlike in the machines of the two halves, a call into the
bridge is carried out here, not answered by an oracle, and may have to wait.

`Moved` says once what a step can do.
-/

namespace PicoCan.Device

open Calls
open PicoCan.Can (Bridge CanFrame CanProg Outcome ParseResult canTxThread)
open PicoCan.Http (Fd HttpCall HttpProg Oracle SessionCode WebsocketClient echoPass handleClient
  websocketLeave)

/-! ## The shared state -/

/-- What the threads share. `openFds` is the kernel's table of open connections. -/
structure Shared where
  bridge : Bridge
  wsActive : Bool := false
  wsClient : WebsocketClient := { fd := 0, pending := [] }
  openFds : Fd → Bool := fun _ => false

section Exec

variable (parse : Bytes → ParseResult)

/-- One call of a server thread: nothing when it has to wait. The bridge tells its callers
apart only by who holds its mutex; the two server threads are one caller to it. -/
def exec (o : Outcome) (oracle : Oracle) : (c : HttpCall) → Shared → Option (c.Answer × Shared)
  | .can c, s => (Can.exec parse .ws c o s.bridge).map fun (r, b) => (r, { s with bridge := b })
  | .close fd, s =>
      some (oracle (.close fd),
        { s with openFds := fun f => if f = fd then false else s.openFds f })
  | .wsActiveCas, s =>
      if s.wsActive then some (false, s) else some (true, { s with wsActive := true })
  | .wsActiveClear, s => some ((), { s with wsActive := false })
  | .wsClientSet client, s => some ((), { s with wsClient := client })
  | c, s => some (oracle c, s)

/-! ## The machine -/

/-- The threads over the shared state. A server thread that is not there does not run. -/
structure State where
  shared : Shared
  http : Option (HttpProg Bool) := none
  ws : Option SessionCode := none
  worker : CanProg Unit := canTxThread

/-- The labels: a connection is accepted, a call of a thread, the bus resolves a frame that
is being sent, and a frame on the bus reaches the driver. -/
inductive Event
  | accept (fuel : Nat) (fd : Fd)
  | http (o : Outcome) (oracle : Oracle) (stack : Bytes)
  | ws (o : Outcome) (oracle : Oracle)
  | worker (o : Outcome)
  | bus (result : Int)
  | frame (frame : CanFrame)

/-- A connection is closed or handed over before the next one is accepted; the kernel
gives it a descriptor that is not open. A copy loop without fuel is not left. -/
def step (indexHtml : Bytes) (s : State) : Event → Option State
  | .accept fuel fd =>
      match s.http with
      | some _ => none
      | none =>
          if s.shared.openFds fd then none
          else some { s with
            shared := { s.shared with openFds := fun f => f = fd || s.shared.openFds f }
            http := some (handleClient indexHtml fuel fd) }
  | .http o oracle stack =>
      match s.http with
      | none | some (.ret false) => none
      | some (.ret true) => some { s with http := none }
      | some (.call c k) =>
          (exec parse o oracle c s.shared).map fun (r, shared) =>
            { s with shared, http := some (k r), ws :=
                if c.createsThread then some (.loop (echoPass shared.wsClient stack)) else s.ws }
  | .ws o oracle =>
      match s.ws with
      | none => none
      | some (.loop (.ret pass)) =>
          match pass.next with
          | some response => some { s with ws := some (.loop (echoPass pass.client response)) }
          | none => some { s with ws := some (.leaving (websocketLeave pass.client.fd)) }
      | some (.loop (.call c k)) =>
          (exec parse o oracle c s.shared).map fun (r, shared) =>
            { s with shared, ws := some (.loop (k r)) }
      | some (.leaving (.ret _)) => some { s with ws := none }
      | some (.leaving (.call c k)) =>
          (exec parse o oracle c s.shared).map fun (r, shared) =>
            { s with shared, ws := some (.leaving (k r)) }
  | .worker o =>
      match s.worker with
      | .ret _ => some { s with worker := canTxThread }
      | .call c k =>
          (Can.exec parse .worker c o s.shared.bridge).map fun (r, b) =>
            { s with shared := { s.shared with bridge := b }, worker := k r }
  | .bus result =>
      if s.shared.bridge.mailbox.isSome then
        some { s with shared := { s.shared with
          bridge := { s.shared.bridge with mailbox := none, txResult := result } } }
      else none
  | .frame frame =>
      (s.shared.bridge.deliver parse frame).map fun b =>
        { s with shared := { s.shared with bridge := b } }

/-- What a server thread's next call does to the bridge. -/
def callTouches (o : Outcome) (b : Bridge) : HttpCall → List Can.Touch
  | .can c => Can.callTouches parse .ws c o b
  | _ => []

/-- What a step does to the bridge. -/
def touches (s : State) : Event → List Can.Touch
  | .accept _ _ => []
  | .http o _ _ =>
      match s.http with
      | some (.call c _) => callTouches parse o s.shared.bridge c
      | _ => []
  | .ws o _ =>
      match s.ws with
      | some (.loop (.call c _)) | some (.leaving (.call c _)) =>
          callTouches parse o s.shared.bridge c
      | _ => []
  | .worker o =>
      match s.worker with
      | .call c _ => Can.callTouches parse .worker c o s.shared.bridge
      | .ret _ => []
  | .bus result => [.bus result]
  | .frame frame => [.frame frame]

/-- The machine, started with a bridge that satisfies `init`, no connection and no session. -/
def device (indexHtml : Bytes) (init : Bridge → Prop) : Machine State Event where
  Start s := ∃ b, init b ∧ s = { shared := { bridge := b } }
  step := step parse indexHtml

/-- Everything a step can do. -/
inductive Moved (indexHtml : Bytes) (s : State) : Event → State → Prop
  | accept {fuel : Nat} {fd : Fd} (idle : s.http = none) (unused : s.shared.openFds fd = false) :
      Moved indexHtml s (.accept fuel fd) { s with
        shared := { s.shared with openFds := fun f => f = fd || s.shared.openFds f }
        http := some (handleClient indexHtml fuel fd) }
  | done {o : Outcome} {oracle : Oracle} {stack : Bytes} (busy : s.http = some (.ret true)) :
      Moved indexHtml s (.http o oracle stack) { s with http := none }
  | httpCall {o : Outcome} {oracle : Oracle} {stack : Bytes} {c : HttpCall}
      {k : c.Answer → HttpProg Bool} {r : c.Answer} {shared : Shared}
      (busy : s.http = some (.call c k)) (other : c.createsThread = false)
      (hexec : exec parse o oracle c s.shared = some (r, shared)) :
      Moved indexHtml s (.http o oracle stack) { s with shared, http := some (k r) }
  | create {o : Outcome} {oracle : Oracle} {stack : Bytes} {k : Unit → HttpProg Bool}
      (busy : s.http = some (.call .wsThreadCreate k)) :
      Moved indexHtml s (.http o oracle stack) { s with
        http := some (k ()), ws := some (.loop (echoPass s.shared.wsClient stack)) }
  | again {o : Outcome} {oracle : Oracle} {pass : Http.Pass} {response : Bytes}
      (busy : s.ws = some (.loop (.ret pass))) (next : pass.next = some response) :
      Moved indexHtml s (.ws o oracle)
        { s with ws := some (.loop (echoPass pass.client response)) }
  | leave {o : Outcome} {oracle : Oracle} {pass : Http.Pass}
      (busy : s.ws = some (.loop (.ret pass))) (next : pass.next = none) :
      Moved indexHtml s (.ws o oracle)
        { s with ws := some (.leaving (websocketLeave pass.client.fd)) }
  | loopCall {o : Outcome} {oracle : Oracle} {c : HttpCall} {k : c.Answer → HttpProg Http.Pass}
      {r : c.Answer} {shared : Shared} (busy : s.ws = some (.loop (.call c k)))
      (hexec : exec parse o oracle c s.shared = some (r, shared)) :
      Moved indexHtml s (.ws o oracle) { s with shared, ws := some (.loop (k r)) }
  | leaveCall {o : Outcome} {oracle : Oracle} {c : HttpCall} {k : c.Answer → HttpProg Unit}
      {r : c.Answer} {shared : Shared} (busy : s.ws = some (.leaving (.call c k)))
      (hexec : exec parse o oracle c s.shared = some (r, shared)) :
      Moved indexHtml s (.ws o oracle) { s with shared, ws := some (.leaving (k r)) }
  | gone {o : Outcome} {oracle : Oracle} (busy : s.ws = some (.leaving (.ret ()))) :
      Moved indexHtml s (.ws o oracle) { s with ws := none }
  | workerCall {o : Outcome} {c : Can.CanCall} {k : c.Answer → CanProg Unit} {r : c.Answer}
      {b : Bridge} (busy : s.worker = .call c k)
      (hexec : Can.exec parse .worker c o s.shared.bridge = some (r, b)) :
      Moved indexHtml s (.worker o)
        { s with shared := { s.shared with bridge := b }, worker := k r }
  | round {o : Outcome} (busy : s.worker = .ret ()) :
      Moved indexHtml s (.worker o) { s with worker := canTxThread }
  | bus {result : Int} (sending : s.shared.bridge.mailbox.isSome = true) :
      Moved indexHtml s (.bus result) { s with shared := { s.shared with
        bridge := { s.shared.bridge with mailbox := none, txResult := result } } }
  | frame {frame : CanFrame} :
      Moved indexHtml s (.frame frame) { s with shared := { s.shared with
        bridge := { s.shared.bridge with rxQueue := s.shared.bridge.offered frame } } }

theorem step_moved {indexHtml : Bytes} {s t : State} {e : Event}
    (hstep : step parse indexHtml s e = some t) : Moved parse indexHtml s e t := by
  cases e with
  | accept fuel fd =>
      simp only [step] at hstep
      split at hstep
      · cases hstep
      · next idle =>
          split at hstep
          · cases hstep
          · next unused => cases hstep; exact .accept idle (by simpa using unused)
  | http o oracle stack =>
      simp only [step] at hstep
      split at hstep
      · cases hstep
      · cases hstep
      · next busy => cases hstep; exact .done busy
      · next c k busy =>
          obtain ⟨⟨r, shared⟩, hexec, rfl⟩ := Option.map_eq_some_iff.mp hstep
          cases creates : c.createsThread with
          | false => exact .httpCall busy creates hexec
          | true =>
              cases c with
              | wsThreadCreate => cases hexec; exact .create busy
              | _ => cases creates
  | ws o oracle =>
      simp only [step] at hstep
      split at hstep
      · cases hstep
      · next busy =>
          split at hstep
          · next next => cases hstep; exact .again busy next
          · next next => cases hstep; exact .leave busy next
      · next busy =>
          obtain ⟨⟨r, shared⟩, hexec, rfl⟩ := Option.map_eq_some_iff.mp hstep
          exact .loopCall busy hexec
      · next busy => cases hstep; exact .gone busy
      · next busy =>
          obtain ⟨⟨r, shared⟩, hexec, rfl⟩ := Option.map_eq_some_iff.mp hstep
          exact .leaveCall busy hexec
  | worker o =>
      simp only [step] at hstep
      split at hstep
      · next busy => cases hstep; exact .round busy
      · next busy =>
          obtain ⟨⟨r, b⟩, hexec, rfl⟩ := Option.map_eq_some_iff.mp hstep
          exact .workerCall busy hexec
  | bus result =>
      simp only [step] at hstep
      split at hstep
      · next sending => cases hstep; exact .bus sending
      · cases hstep
  | frame frame =>
      simp only [step, Bridge.deliver_eq, Option.map_some] at hstep
      cases hstep
      exact .frame

end Exec

end PicoCan.Device
