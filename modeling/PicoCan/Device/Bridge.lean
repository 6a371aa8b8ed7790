import PicoCan.Device.Sessions

/-!
# The device as the bridge machine

The bridge machine has one thread that does one job after another. In the device the jobs
are calls into `can_bridge.c` from the code of two server threads, each of which may be in
the middle of one. Two facts make the device a run of that machine: both threads call the
bridge in whole jobs (`Jobs`), and while the HTTP thread is in one the session thread of the
session before has nothing left to do (`Follows.alone`). The two do the same to the bridge, call
by call and answer by answer (`device_mirrors`).
-/

namespace PicoCan.Device

open Calls Machine
open PicoCan.Can (Bridge CanCall CanProg Job Outcome ParseResult Reply Serving wsResponseMax)
open PicoCan.Http (Fd HttpCall HttpPhase HttpProg HttpRuns Observed Owned SessionCode bridge)

/-! ## The code of the server threads -/

/-- A call that is not one into the bridge. -/
def Own (c : HttpCall) : Prop :=
  match c with
  | .can _ => False
  | _ => True

/-- The code of a job. -/
def IsJob (p : CanProg Reply) : Prop := ∃ (job : Job) (response : Bytes), p = job.program response

/-- The program calls the bridge in whole jobs. -/
abbrev Jobs {α : Type} (p : HttpProg α) : Prop := p.Composed .can (fun _ r => r) IsJob Own

section Jobs

variable {α : Type}

theorem jobs_text (payload response : Bytes) {k : Reply → HttpProg α} (rest : ∀ b, Jobs (k b)) :
    Jobs (bridge (Can.canBridgeHandleWsText payload response wsResponseMax) >>= k) :=
  .proc ⟨.text payload, response, rfl⟩ rest

theorem jobs_nextRx (response : Bytes) {k : Reply → HttpProg α} (rest : ∀ b, Jobs (k b)) :
    Jobs (bridge (Can.canBridgeFormatNextRx response wsResponseMax) >>= k) :=
  .proc ⟨.nextRx, response, rfl⟩ rest

theorem jobs_setRxStreaming (enabled : Bool) {k : Unit → HttpProg α} (rest : Jobs (k ())) :
    Jobs (bridge (Can.canBridgeSetRxStreaming enabled) >>= k) := by
  have job : Jobs (((Job.setRxStreaming enabled).program []).lift .can (fun _ r => r) >>=
      fun _ => k ()) := .proc ⟨.setRxStreaming enabled, [], rfl⟩ fun _ => rest
  rw [show (Job.setRxStreaming enabled).program [] =
      Can.canBridgeSetRxStreaming enabled >>= fun _ => .ret (0, []) from rfl,
    Prog.lift_bind, Prog.bind_bind] at job
  exact job

theorem dispatch_jobs (fd : Fd) (opcode : UInt8) (payload response : Bytes) :
    Jobs (Http.dispatch fd opcode payload response) := by
  have send : ∀ opcode payload, Jobs (Http.sendWebsocketFrame fd opcode payload) :=
    fun _ _ => (Http.sendWebsocketFrame_only (P := Own) (fun _ => trivial) _ _).composed
  refine .ite ((send _ _).bind fun _ => .ret _) (.ite ((send _ _).bind fun _ => .ret _) ?_)
  refine .ite ((send _ _).bind fun _ => .ret _) (jobs_text _ _ fun reply => ?_)
  exact (send _ _).bind fun ret => .ite (.ret _) (.ret _)

theorem clientPass_jobs (client : Http.WebsocketClient) (response : Bytes) :
    Jobs (Http.clientPass client response) := by
  refine .bind (Http.readFrame_only (P := Own) (fun _ _ => trivial) (fun _ _ _ _ => trivial)
    client).composed fun read => ?_
  match read with
  | (.failed, _) | (.refused, _) => exact .ret _
  | (.frame opcode payload, client) => exact (dispatch_jobs _ _ _ _).bind fun _ => .ret _

theorem echoPass_jobs (client : Http.WebsocketClient) (response : Bytes) :
    Jobs (Http.echoPass client response) := by
  refine jobs_nextRx _ fun rx => .ite ?_ (.ite ?_ (clientPass_jobs _ _))
  · exact .bind (Http.sendWebsocketFrame_only (P := Own) (fun _ => trivial) _ _).composed
      fun ret => .ite (.ret _) (.ret _)
  · refine .own trivial fun ready => ?_
    match ready with
    | .error _ => exact .ret _
    | .ok ready => exact .ite (.ret _) (clientPass_jobs _ _)

theorem websocketLeave_jobs (fd : Fd) : Jobs (Http.websocketLeave fd) :=
  .own trivial fun _ => jobs_setRxStreaming false (.own trivial fun _ => .ret _)

theorem handleWebsocket_jobs (fd : Fd) (request pending : Bytes) :
    Jobs (Http.handleWebsocket fd request pending) := by
  refine .own trivial fun claimed => .ite (.ret _) ?_
  cases Http.buildWebsocketAccept request Http.acceptMax with
  | error ret => exact .own trivial fun _ => .ret _
  | ok accept =>
      refine .ite (.own trivial fun _ => .ret _) (.bind (Http.sendAll_only (P := Own)
        (fun _ => trivial) _).composed fun ret => .ite (.own trivial fun _ => .ret _) ?_)
      exact .own trivial fun _ => jobs_setRxStreaming true (.own trivial fun _ => .ret _)

theorem handleClient_jobs (indexHtml : Bytes) (fuel : Nat) (fd : Fd) :
    Jobs (Http.handleClient indexHtml fuel fd) := by
  refine .bind (Http.recvRequest_only (P := Own) (fun _ _ _ => trivial) _ _).composed
    fun received => ?_
  match received with
  | .gone => exact .own trivial fun _ => .ret _
  | .received _ none =>
      exact .bind (Http.answer_only (P := Own) (fun _ _ => trivial) (fun _ => trivial) _
        _).composed fun _ => .ret _
  | .received request (some headerEnd) =>
      refine .ite (.bind ?_ fun _ => .ret _) (Http.pageRoutes_only (P := Own) (fun _ _ => trivial)
        (fun _ => trivial) (fun _ => trivial) (fun _ _ _ => trivial) _ _ _ _ _ _).composed
      exact (handleWebsocket_jobs _ _ _).bind fun ret =>
        .ite (.own trivial fun _ => .ret _) (.ret _)

end Jobs

/-! ## Where a thread stands -/

/-- A thread between two jobs, or inside one with a call to go. -/
inductive At {α : Type} : Option (CanProg Reply) → HttpProg α → Prop
  | between {p : HttpProg α} : Jobs p → At none p
  | inside {c : CanCall} {k : c.Answer → CanProg Reply} {next : Reply → HttpProg α} :
      (∀ reply, Jobs (next reply)) → At (some (.call c k)) (bridge (.call c k) >>= next)

/-- The same of a server thread that may not be there. -/
def HttpAt (job : Option (CanProg Reply)) : Option (HttpProg Bool) → Prop
  | none => job = none
  | some p => At job p

def WsAt (job : Option (CanProg Reply)) : Option SessionCode → Prop
  | none => job = none
  | some (.loop p) => At job p
  | some (.leaving p) => At job p

/-- A job that has returned is over, one that has not is under way. -/
theorem at_rest {α : Type} (rest : CanProg Reply) {next : Reply → HttpProg α}
    (after : ∀ reply, Jobs (next reply)) :
    (∃ reply, rest = .ret reply ∧ At none (bridge rest >>= next)) ∨
      ((∀ reply, rest ≠ .ret reply) ∧ At (some rest) (bridge rest >>= next)) := by
  cases rest with
  | ret reply => exact .inl ⟨reply, rfl, .between (after reply)⟩
  | call c k => exact .inr ⟨fun reply => nofun, .inside after⟩

/-- A thread that makes no call into the bridge next is between two jobs. -/
theorem At.own {α : Type} {job : Option (CanProg Reply)} {c : HttpCall}
    {k : c.Answer → HttpProg α} (stands : At job (.call c k)) (own : Own c) :
    job = none ∧ ∀ r, At none (k r) := by
  generalize code : Prog.call c k = p at stands
  cases stands with
  | between jobs =>
      refine ⟨rfl, fun r => ?_⟩
      rcases jobs.cases_call code.symm with ⟨-, rest⟩ | ⟨c', k', rest, -, -, begins⟩
      · exact .between (rest r)
      · rw [← code] at begins
        cases begins
        exact own.elim
  | inside after =>
      cases code
      exact own.elim

theorem At.ret {α : Type} {job : Option (CanProg Reply)} {a : α}
    (stands : At job (.ret a : HttpProg α)) : job = none := by
  generalize code : (Prog.ret a : HttpProg α) = p at stands
  cases stands with
  | between => rfl
  | inside => exact nomatch code

/-! ## The relation -/

/-- The bridge machine does what the device's threads do to the bridge: at most one of the
server threads is inside a job, and that is the job it has in hand. -/
structure Bridged (s : State) (a : Can.State) : Prop where
  bridge : a.bridge = s.shared.bridge
  worker : a.worker = s.worker
  threads : ∃ http ws, (http = none ∨ ws = none) ∧ HttpAt http s.http ∧ WsAt ws s.ws ∧
    a.ws.map Serving.rest = http.or ws

section Call

variable {parse : Bytes → ParseResult} {init : Bridge → Prop} {α : Type}

theorem exec_own {o : Outcome} {oracle : Http.Oracle} {c : HttpCall} {r : c.Answer}
    {s s' : Shared} (own : Own c) (hexec : exec parse o oracle c s = some (r, s')) :
    s'.bridge = s.bridge := by
  cases c with
  | can c => exact own.elim
  | wsActiveCas =>
      simp only [exec] at hexec
      split at hexec <;> cases hexec <;> rfl
  | _ => cases hexec; rfl

variable (parse init) in
/-- The runs of the bridge machine, with what they do to the bridge. -/
abbrev BridgeRun (a : Can.State) (trace : List Can.Touch) (a' : Can.State) : Prop :=
  (Can.machine parse init).Trace anyStep (Can.touches parse) a trace a'

variable (parse init) in
/-- A job that has just made a call either goes on or is done. -/
theorem job_settles {a : Can.State} {serving : Serving} (busy : a.ws = some serving)
    {next : Reply → HttpProg α} (after : ∀ reply, Jobs (next reply)) :
    ∃ a' job, BridgeRun parse init a [] a' ∧ a'.bridge = a.bridge ∧
      a'.worker = a.worker ∧ a'.ws.map Serving.rest = job ∧
      At job (bridge serving.rest >>= next) := by
  obtain ⟨job, before, rest⟩ := serving
  rcases at_rest rest after with ⟨reply, rfl, stands⟩ | ⟨-, stands⟩
  · have step : (Can.machine parse init).step a (.ws {}) =
        some { a with ws := none, log := a.log ++ [⟨job, before, reply, a.bridge⟩] } := by
      show Can.step parse a (.ws {}) = _
      simp only [Can.step, busy]
    have silent : Can.touches parse a (.ws {}) = [] := by
      simp only [Can.touches, busy]
    have replies : BridgeRun parse init a (Can.touches parse a (.ws {})) _ := .one trivial step
    rw [silent] at replies
    exact ⟨_, none, replies, rfl, rfl, rfl, stands⟩
  · exact ⟨a, some rest, .refl, rfl, rfl, by rw [busy]; rfl, stands⟩

variable (parse init) in
/-- Before a call into the bridge the machine has the job in hand that makes it. -/
theorem At.begins {a : Can.State} {job : Option (CanProg Reply)} {c : HttpCall}
    {k : c.Answer → HttpProg α} (stands : At job (.call c k)) (foreign : ¬ Own c)
    (hand : a.ws.map Serving.rest = job) :
    ∃ (a' : Can.State) (serving : Serving) (c' : CanCall) (k' : c'.Answer → CanProg Reply)
      (next : Reply → HttpProg α), BridgeRun parse init a [] a' ∧
      a'.bridge = a.bridge ∧ a'.worker = a.worker ∧ a'.ws = some serving ∧
      serving.rest = .call c' k' ∧ .call c k = bridge (.call c' k') >>= next ∧
      ∀ reply, Jobs (next reply) := by
  generalize code : Prog.call c k = p at stands
  cases stands with
  | between jobs =>
      rcases jobs.cases_call code.symm with ⟨own, -⟩ | ⟨c', k', next, ⟨job, response, isJob⟩,
        after, begins⟩
      · exact absurd own foreign
      have idle : a.ws = none := Option.map_eq_none_iff.mp hand
      refine ⟨{ a with ws := some ⟨job, a.bridge, job.program response⟩ }, _, c', k', next,
        ?_, rfl, rfl, rfl, isJob.symm, begins, after⟩
      have step : (Can.machine parse init).step a (.request job response) =
          some { a with ws := some ⟨job, a.bridge, job.program response⟩ } := by
        show Can.step parse a (.request job response) = _
        simp only [Can.step, idle]
      exact .one trivial step
  | inside after =>
      rename_i c' k' next
      obtain ⟨serving, busy, rest⟩ := Option.map_eq_some_iff.mp hand
      exact ⟨a, serving, c', k', next, .refl, rfl, rfl, busy, rest, rfl, after⟩

variable (parse) in
theorem callTouches_own {o : Outcome} {b : Bridge} {c : HttpCall} (own : Own c) :
    callTouches parse o b c = [] := by
  cases c <;> first | exact own.elim | rfl

variable (init) in
/-- The call of one server thread, while the other is between two jobs if it is a call into
the bridge. -/
theorem Bridged.call {a : Can.State} {s s' : Shared} {mine other : Option (CanProg Reply)}
    {c : HttpCall} {k : c.Answer → HttpProg α} {o : Outcome} {oracle : Http.Oracle} {r : c.Answer}
    (same : a.bridge = s.bridge) (hand : a.ws.map Serving.rest = mine.or other)
    (stands : At mine (.call c k)) (alone : ¬ Own c → other = none)
    (hexec : exec parse o oracle c s = some (r, s')) :
    ∃ a' job, BridgeRun parse init a (callTouches parse o s.bridge c) a' ∧ a'.bridge = s'.bridge ∧
      a'.worker = a.worker ∧ a'.ws.map Serving.rest = job.or other ∧
      (job = none ∨ other = none) ∧ At job (k r) := by
  by_cases own : Own c
  · obtain ⟨rfl, rest⟩ := stands.own own
    rw [callTouches_own parse own]
    exact ⟨a, none, .refl, same.trans (exec_own own hexec).symm, rfl, hand, .inl rfl, rest r⟩
  · obtain rfl := alone own
    rw [Option.or_none] at hand
    obtain ⟨a₁, ⟨job, before, rest⟩, c', k', next, first, bridge₁, worker₁, busy, rfl, begins,
      after⟩ := stands.begins parse init own hand
    cases begins
    obtain ⟨⟨r, b⟩, bridged, made⟩ := Option.map_eq_some_iff.mp hexec
    cases made
    have step : (Can.machine parse init).step a₁ (.ws o) =
        some { a₁ with bridge := b, ws := some ⟨job, before, k' r⟩ } := by
      show Can.step parse a₁ (.ws o) = _
      simp only [Can.step, busy, bridge₁, same, bridged, Option.map_some]
    have touched : Can.touches parse a₁ (.ws o) = callTouches parse o s.bridge (.can c') := by
      simp only [Can.touches, busy, bridge₁, same]
      rfl
    have calls : BridgeRun parse init a₁ (Can.touches parse a₁ (.ws o)) _ := .one trivial step
    rw [touched] at calls
    obtain ⟨a', job', settles, bridge', worker', hand', stands'⟩ :=
      job_settles parse init (a := { a₁ with bridge := b, ws := some ⟨job, before, k' r⟩ })
        rfl after
    have run := (first.trans calls).trans settles
    rw [List.nil_append, List.append_nil] at run
    refine ⟨a', job', run, bridge', worker'.trans worker₁, ?_, .inr rfl, stands'⟩
    rw [Option.or_none, hand']

end Call

/-! ## One thread at a time -/

/-- A call that the HTTP thread makes only while it holds `ws_active`. -/
def Handing (c : HttpCall) : Prop :=
  match c with
  | .can _ | .wsThreadCreate => True
  | _ => False

theorem handing_of_foreign {c : HttpCall} (foreign : ¬ Own c) : Handing c := by
  cases c <;> first | trivial | exact absurd trivial foreign

theorem Handing.holds {fd : Fd} {h : HttpPhase} {c : HttpCall} {k : c.Answer → HttpProg Bool}
    (handing : Handing c) (runs : HttpRuns fd h (some (.call c k))) : h.holds := by
  match c with
  | .can .rxPurge | .can (.rxStreamingSet true) | .wsThreadCreate => exact runs.1 ▸ trivial

/-- When the HTTP thread is about to call the bridge or to create a session thread, the
thread of an earlier session has nothing left to do. -/
theorem Follows.alone {s : State} {o : Observed} (follows : Follows s o) (owned : Owned o)
    {c : HttpCall} {k : c.Answer → HttpProg Bool} (calls : s.http = some (.call c k))
    (handing : Handing c) {code : SessionCode} (busy : s.ws = some code) :
    code = .leaving (.ret ()) := by
  obtain ⟨session, running⟩ := follows.session busy
  obtain ⟨fd, h, fd', w, books, http, ws⟩ := owned
  rw [follows.http.trans calls] at http
  obtain rfl : w = .over := books.held.apart (handing.holds http)
  rw [running] at ws
  exact ws.returned

/-- So it is in no job then. -/
theorem WsAt.idle {s : State} {o : Observed} (follows : Follows s o) (owned : Owned o)
    {c : HttpCall} {k : c.Answer → HttpProg Bool} (calls : s.http = some (.call c k))
    (handing : Handing c) {job : Option (CanProg Reply)} (stands : WsAt job s.ws) :
    job = none := by
  cases busy : s.ws with
  | none =>
      rw [busy] at stands
      exact stands
  | some code =>
      rw [busy, follows.alone owned calls handing busy] at stands
      exact At.ret stands

/-- And while the session thread has a call to make, the HTTP thread is in no job. -/
theorem HttpAt.idle {s : State} {o : Observed} (follows : Follows s o) (owned : Owned o)
    {code : SessionCode} (busy : s.ws = some code) (going : code ≠ .leaving (.ret ()))
    {job : Option (CanProg Reply)} (stands : HttpAt job s.http) : job = none := by
  cases code' : s.http with
  | none =>
      rw [code'] at stands
      exact stands
  | some p =>
      rw [code'] at stands
      cases stands with
      | between => rfl
      | inside after => exact absurd (follows.alone owned code' trivial busy) going

/-! ## One step -/

section Step

variable {parse : Bytes → ParseResult} {indexHtml : Bytes} {init : Bridge → Prop} {s t : State}
  {o : Observed} {a : Can.State}

variable (init) in
theorem bridged_step {e : Event} (follows : Follows s o) (owned : Owned o) (bridged : Bridged s a)
    (moved : Moved parse indexHtml s e t) :
    ∃ a', BridgeRun parse init a (touches parse s e) a' ∧ Bridged t a' := by
  obtain ⟨same, worker, http, ws, apart, httpAt, wsAt, hand⟩ := bridged
  cases moved with
  | accept idle unused =>
      rw [idle] at httpAt
      obtain rfl : http = none := httpAt
      exact ⟨a, .refl, same, worker, none, ws, .inl rfl, .between (handleClient_jobs _ _ _), wsAt,
        hand⟩
  | done busy =>
      simp only [touches, busy]
      rw [busy] at httpAt
      obtain rfl := At.ret httpAt
      exact ⟨a, .refl, same, worker, none, ws, .inl rfl, rfl, wsAt, hand⟩
  | httpCall busy other hexec =>
      simp only [touches, busy]
      rw [busy] at httpAt
      have alone := fun foreign => wsAt.idle follows owned busy (handing_of_foreign foreign)
      obtain ⟨a', job, run, same', worker', hand', apart', stands⟩ :=
        Bridged.call init same hand httpAt alone hexec
      exact ⟨a', run, same', worker'.trans worker, job, ws, apart', stands, wsAt, hand'⟩
  | create busy =>
      simp only [touches, busy]
      obtain rfl := wsAt.idle follows owned busy trivial
      rw [busy] at httpAt
      obtain ⟨rfl, rest⟩ := At.own httpAt trivial
      exact ⟨a, .refl, same, worker, none, none, .inl rfl, rest (), .between (echoPass_jobs _ _),
        hand⟩
  | again busy next =>
      simp only [touches, busy]
      rw [busy] at wsAt
      obtain rfl := At.ret wsAt
      exact ⟨a, .refl, same, worker, http, none, .inr rfl, httpAt, .between (echoPass_jobs _ _),
        hand⟩
  | leave busy next =>
      simp only [touches, busy]
      rw [busy] at wsAt
      obtain rfl := At.ret wsAt
      exact ⟨a, .refl, same, worker, http, none, .inr rfl, httpAt,
        .between (websocketLeave_jobs _), hand⟩
  | loopCall busy hexec | leaveCall busy hexec =>
      simp only [touches, busy]
      obtain rfl := httpAt.idle follows owned busy (by simp)
      rw [busy] at wsAt
      have hand : a.ws.map Serving.rest = ws.or none := by
        rw [hand, Option.none_or, Option.or_none]
      obtain ⟨a', job, run, same', worker', hand', -, stands⟩ :=
        Bridged.call init same hand wsAt (fun _ => rfl) hexec
      exact ⟨a', run, same', worker'.trans worker, none, job, .inl rfl, httpAt, stands,
        by rw [hand', Option.or_none, Option.none_or]⟩
  | gone busy =>
      simp only [touches, busy]
      rw [busy] at wsAt
      obtain rfl := At.ret wsAt
      exact ⟨a, .refl, same, worker, http, none, .inr rfl, httpAt, rfl, hand⟩
  | workerCall busy hexec =>
      rename_i outcome c k r b
      have step : (Can.machine parse init).step a (.worker outcome) =
          some { a with bridge := b, worker := k r } := by
        show Can.step parse a (.worker outcome) = _
        simp only [Can.step, worker.trans busy, same, hexec, Option.map_some]
      have touched : touches parse s (.worker outcome) = Can.touches parse a (.worker outcome) := by
        simp only [touches, Can.touches, worker, busy, same]
      rw [touched]
      exact ⟨_, .one trivial step, rfl, rfl, http, ws, apart, httpAt, wsAt, hand⟩
  | round busy =>
      rename_i outcome
      have step : (Can.machine parse init).step a (.worker outcome) =
          some { a with worker := Can.canTxThread } := by
        show Can.step parse a (.worker outcome) = _
        simp only [Can.step, worker.trans busy]
      have touched : touches parse s (.worker outcome) = Can.touches parse a (.worker outcome) := by
        simp only [touches, Can.touches, worker, busy]
      rw [touched]
      exact ⟨_, .one trivial step, same, rfl, http, ws, apart, httpAt, wsAt, hand⟩
  | bus sending =>
      rename_i result
      have step : (Can.machine parse init).step a (.bus result) = some { a with
          bridge := { a.bridge with mailbox := none, txResult := result } } := by
        show Can.step parse a (.bus result) = _
        simp only [Can.step, same, sending, if_true]
      exact ⟨_, .one trivial step, by rw [same], worker, http, ws, apart, httpAt, wsAt, hand⟩
  | frame =>
      rename_i frame
      have step : (Can.machine parse init).step a (.frame frame) = some { a with
          bridge := { a.bridge with rxQueue := a.bridge.offered frame } } := by
        show Can.step parse a (.frame frame) = _
        simp only [Can.step, Bridge.deliver_eq, Option.map_some]
      exact ⟨_, .one trivial step, by rw [same], worker, http, ws, apart, httpAt, wsAt, hand⟩

end Step

/-- What the device does to the bridge, the bridge machine does as well. -/
theorem device_mirrors (parse : Bytes → ParseResult) (indexHtml : Bytes) (init : Bridge → Prop)
    (clean : ∀ b, init b → b.rxQueue = .empty ∧ b.rxStreaming = false) :
    Mirrors (device parse indexHtml init) anyStep (touches parse) (Can.machine parse init) anyStep
      (Can.touches parse) Bridged := by
  constructor
  · rintro _ ⟨b, started, rfl⟩
    exact ⟨{ bridge := b }, ⟨b, started, rfl⟩, rfl, rfl, none, none, .inl rfl, rfl, rfl, rfl⟩
  · intro s e t a reached _ bridged _ hstep
    obtain ⟨o, owned, follows⟩ := (device_follows parse indexHtml init clean).invariant
      (fun _ => Http.owned_reach) reached
    exact bridged_step init follows owned bridged (step_moved parse hstep)

theorem device_bridged (parse : Bytes → ParseResult) (indexHtml : Bytes) (init : Bridge → Prop)
    (clean : ∀ b, init b → b.rxQueue = .empty ∧ b.rxStreaming = false) :
    Simulates (device parse indexHtml init) anyStep (Can.machine parse init) anyStep Bridged :=
  (device_mirrors parse indexHtml init clean).simulates

end PicoCan.Device
