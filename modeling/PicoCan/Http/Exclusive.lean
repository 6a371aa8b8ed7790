import PicoCan.Http.Ownership

/-!
# At most one session, and every descriptor closed once

The books balance in every reachable state, so `ws_active` is held from a successful
compare-and-swap until the clear of the upgrade or session that won it, and a connection
that no thread works for has been closed exactly once. What the books do not say is that
the session's thread is gone: it gives `ws_active` back in its last call, and has yet to
return.
-/

namespace PicoCan.Http

open Calls Machine

/-! ## The invariant -/

/-- What is left of the HTTP thread's code, in its phase. -/
def HttpRuns (fd : Fd) (h : HttpPhase) : Option (HttpProg Bool) → Prop
  | none => h = .over
  | some rest => rest.wp (servingSpec fd) (fun done v => done = true → v = .over) h

/-- What is left of the WebSocket thread's code, in its phase. -/
def WsRuns (fd : Fd) (w : WsPhase) : Option SessionThread → Prop
  | none => w = .over
  | some ⟨_, .loop rest⟩ =>
      rest.wp (sessionSpec fd) (fun pass v => pass.client.fd = fd ∧ v = .running) w
  | some ⟨_, .leaving rest⟩ => rest.wp (sessionSpec fd) (fun _ v => v = .over) w

structure OwnedIn (o : Observed) (fd : Fd) (h : HttpPhase) (fd' : Fd) (w : WsPhase) : Prop where
  books : Books o.ledger o.system.shared fd h fd' w
  http : HttpRuns fd h o.system.http
  ws : WsRuns fd' w o.system.ws

def Owned (o : Observed) : Prop := ∃ fd h fd' w, OwnedIn o fd h fd' w

/-- The callback touches neither `ws_active` nor `ws_client`. -/
theorem arrive_held (oracle : Oracle) (frame : Can.CanFrame) (s : Shared) :
    (s.arrive oracle frame).wsActive = s.wsActive ∧
      (s.arrive oracle frame).wsClient = s.wsClient := by
  obtain ⟨queue, flag, active, client, session, stage, history⟩ := s
  cases flag with
  | false => exact ⟨rfl, rfl⟩
  | true =>
      cases put : queue.put frame <;>
        simp [Shared.arrive, Can.canRxCallback, Can.perform, bridge, Prog.lift, exec, put]

theorem Books.arrive {l : Ledger} {s : Shared} {fd fd' : Fd} {h : HttpPhase} {w : WsPhase}
    (books : Books l s fd h fd' w) (oracle : Oracle) (frame : Can.CanFrame) :
    Books l (s.arrive oracle frame) fd h fd' w := by
  obtain ⟨active, client⟩ := arrive_held oracle frame s
  refine ⟨books.balanced, ?_⟩
  rw [active, client]
  exact books.held

theorem owned_step {indexHtml : Bytes} {o o' : Observed} {e : Event} (owned : Owned o)
    (hstep : observe indexHtml o e = some o') : Owned o' := by
  obtain ⟨fd, h, fd', w, books, http, ws⟩ := owned
  simp only [observe, Option.ite_none_right_eq_some, Option.map_eq_some_iff] at hstep
  obtain ⟨admitted, s, moved, rfl⟩ := hstep
  cases step_moved moved with
  | accept idle =>
      rename_i fuel new
      rw [idle] at http
      obtain rfl : h = .over := http
      -- the new descriptor is no open one
      have unused : o.ledger.fds.table new = none := by
        simpa [Observed.admits] using admitted
      exact ⟨new, .serving, fd', w, books.accept unused, handleClient_settles _ _ _, ws⟩
  | done busy =>
      rename_i b
      rw [busy] at http
      have done : b = true := by
        cases b with
        | true => rfl
        | false => simp [Observed.admits, System.stuck, busy] at admitted
      obtain rfl : h = .over := http done
      exact ⟨fd, .over, fd', w, by simpa only [Ledger.note, busy] using books, rfl, ws⟩
  | httpCall busy other =>
      rw [busy] at http
      obtain ⟨h', after, books⟩ := books.httpCall _ http other
      exact ⟨fd, h', fd', w, by simpa only [Ledger.note, busy] using books, after, ws⟩
  | create busy =>
      rename_i oracle stack k
      rw [busy] at http
      obtain ⟨rfl, after⟩ := http
      -- the session is created for the connection that was published
      have client : o.system.shared.wsClient.fd = fd := books.held.client (.inr rfl)
      refine ⟨fd, .over, fd, .running, ?_, after, ?_⟩
      · simpa only [Ledger.note, busy] using books.create oracle
      · show (echoPass o.system.shared.wsClient stack).wp (sessionSpec fd) _ _
        rw [← client]
        exact echoPass_runs _ _
  | again busy next =>
      rw [busy] at ws
      obtain ⟨same, rfl⟩ := ws
      refine ⟨fd, h, fd', .running, by simpa only [Ledger.note, busy] using books, http, ?_⟩
      subst same
      exact echoPass_runs _ _
  | leave busy next =>
      rw [busy] at ws
      obtain ⟨same, rfl⟩ := ws
      refine ⟨fd, h, fd', .running, by simpa only [Ledger.note, busy] using books, http, ?_⟩
      subst same
      exact websocketLeave_runs _
  | loopCall busy | leaveCall busy =>
      rw [busy] at ws
      obtain ⟨w', after, books⟩ := books.wsCall _ _ ws
      exact ⟨fd, h, fd', w', by simpa only [Ledger.note, busy] using books, http, after⟩
  | gone busy =>
      rw [busy] at ws
      obtain rfl : w = .over := ws
      exact ⟨fd, h, fd', .over, by simpa only [Ledger.note, busy] using books, http, rfl⟩
  | arrive => exact ⟨fd, h, fd', w, books.arrive _ _, http, ws⟩

theorem owned_start : Owned {} := by
  have balanced : Balanced {} false 0 false 0 := {
    table := by simp
    served := nofun
    handed := fun n member => by cases member
    once := List.nodup_nil
    closed := fun n => by simp; omega
    closer := fun n party member => by cases member
    strays := rfl }
  have held : Held {} false 0 0 .over .over := {
    streamed := fun n member => by cases member
    holder := False.elim
    runner := fun running => absurd rfl running
    free := fun _ _ => rfl
    flag := rfl
    apart := False.elim
    client := nofun }
  exact ⟨0, .over, 0, .over, ⟨balanced, held⟩, rfl, rfl⟩

theorem owned_reach {indexHtml : Bytes} {ok : Observed → Event → Prop} {o : Observed}
    (reach : (observed indexHtml).Reach ok o) : Owned o := by
  refine reach.invariant (I := Owned) ?_ fun _ _ _ owned _ hstep => owned_step owned hstep
  rintro _ rfl
  exact owned_start

/-! ## One session, one close -/

/-- The HTTP thread works for connection `n`. -/
def Observed.serves (o : Observed) (n : Nat) : Prop :=
  n = o.ledger.fds.accepted ∧ o.system.http ≠ none

/-- A session thread works for connection `n`. -/
def Observed.streams (o : Observed) (n : Nat) : Prop :=
  n = o.ledger.session ∧ o.system.ws ≠ none

/-- At most one session, and every descriptor closed once. -/
structure Exclusive (indexHtml : Bytes) (o : Observed) : Prop where
  /-- `ws_active` is 1 from a successful compare-and-swap to the winner's own clear. -/
  active : o.system.shared.wsActive = o.ledger.owner.isSome
  /-- Nobody writes `ws_client` while a session thread has a call left to make. -/
  client : ∀ client k, o.system.http = some (.call (.wsClientSet client) k) →
    ∀ thread, o.system.ws = some thread → thread.code = .leaving (.ret ())
  /-- An upgrade that is not handed over gives `ws_active` back and leaves streaming alone. -/
  failed : ∀ n, ¬ o.serves n → n ∉ o.ledger.fds.handed →
    n ∉ o.ledger.streamed ∧ o.ledger.owner ≠ some (.http, n)
  /-- While a session holds `ws_active` the HTTP thread changes nothing it shares. -/
  undisturbed : ∀ n oracle stack o', o.ledger.owner = some (.ws, n) →
    observe indexHtml o (.http oracle stack) = some o' →
      o'.system.shared = o.system.shared ∧ o'.system.ws = o.system.ws ∧
        o'.ledger.owner = o.ledger.owner
  /-- A connection no thread works for has been closed by the thread that had it last. -/
  settled : ∀ n, 1 ≤ n → n ≤ o.ledger.fds.accepted → ¬ o.serves n → ¬ o.streams n →
    (n, if n ∈ o.ledger.fds.handed then Party.ws else .http) ∈ o.ledger.fds.closed
  once : (o.ledger.fds.closed.map Prod.fst).Nodup
  strays : o.ledger.fds.strays = 0

section Over

variable {fd : Fd}

theorem not_sessionSpec_over {c : HttpCall} {post : c.Answer → WsPhase → Prop} :
    ¬ sessionSpec fd c post .over := by
  intro spec
  cases c with
  | close | wsActiveClear | recv | send | poll => exact nomatch spec.1
  | fs | wsActiveCas | wsClientSet | wsThreadCreate => exact spec
  | can c =>
      cases c with
      | rxStreamingSet enabled => cases enabled <;> exact nomatch spec.1
      | rxPurge | rxGet => exact nomatch spec.1
      | _ => exact nomatch spec.2.1

/-- A session thread that has given `ws_active` back has nothing left to do. -/
theorem WsRuns.returned {thread : SessionThread} (runs : WsRuns fd .over (some thread)) :
    thread.code = .leaving (.ret ()) := by
  match thread with
  | ⟨_, .loop (.ret _)⟩ => exact nomatch runs.2
  | ⟨_, .leaving (.ret ())⟩ => rfl
  | ⟨_, .loop (.call _ _)⟩ | ⟨_, .leaving (.call _ _)⟩ => exact absurd runs not_sessionSpec_over

theorem HttpRuns.busy {h : HttpPhase} {http : Option (HttpProg Bool)} (runs : HttpRuns fd h http)
    (busy : h ≠ .over) : http ≠ none := by
  rintro rfl
  exact busy runs

theorem WsRuns.busy {w : WsPhase} {ws : Option SessionThread} (runs : WsRuns fd w ws)
    (busy : w ≠ .over) : ws ≠ none := by
  rintro rfl
  exact busy runs

end Over

/-- Without a hold on `ws_active` and while another has it, no call of the HTTP thread
changes the shared state. -/
theorem servingSpec_frame {fd : Fd} {h : HttpPhase} {s : Shared} {c : HttpCall}
    {post : c.Answer → HttpPhase → Prop} (spec : servingSpec fd c post h) (free : ¬ h.holds)
    (active : s.wsActive = true) (l : Ledger) (n : Nat) (oracle : Oracle) :
    c.createsThread = false ∧ (exec .http oracle c s).2 = s ∧
      (l.call .http n c s).owner = l.owner := by
  match c with
  | .fs _ | .recv _ _ _ | .send _ _ | .close _ => exact ⟨rfl, rfl, rfl⟩
  | .wsActiveCas => simp [HttpCall.createsThread, exec, Ledger.call, active]
  | .wsActiveClear | .wsClientSet _ | .can .rxPurge | .can (.rxStreamingSet true)
  | .wsThreadCreate => exact absurd (spec.1 ▸ trivial) free

theorem OwnedIn.undisturbed {indexHtml : Bytes} {o o' : Observed} {fd fd' : Fd} {h : HttpPhase}
    {w : WsPhase} (owned : OwnedIn o fd h fd' w) {n : Nat} {oracle : Oracle} {stack : Bytes}
    (session : o.ledger.owner = some (.ws, n))
    (hstep : observe indexHtml o (.http oracle stack) = some o') :
    o'.system.shared = o.system.shared ∧ o'.system.ws = o.system.ws ∧
      o'.ledger.owner = o.ledger.owner := by
  obtain ⟨books, http, ws⟩ := owned
  have free : ¬ h.holds := by
    intro holds
    have mine := books.held.holder holds
    rw [session] at mine
    exact nomatch mine
  have active : o.system.shared.wsActive = true := by
    rw [books.held.flag, session]
    rfl
  simp only [observe, Option.ite_none_right_eq_some, Option.map_eq_some_iff] at hstep
  obtain ⟨-, s, moved, rfl⟩ := hstep
  cases step_moved moved with
  | done busy => exact ⟨rfl, rfl, by simp only [Ledger.note, busy]⟩
  | httpCall busy other =>
      rw [busy] at http
      obtain ⟨-, same, owner⟩ := servingSpec_frame http free active o.ledger _ oracle
      exact ⟨same, rfl, by simpa only [Ledger.note, busy] using owner⟩
  | create busy =>
      rw [busy] at http
      obtain ⟨rfl, -⟩ := http
      exact absurd trivial free

theorem OwnedIn.settled {o : Observed} {fd fd' : Fd} {h : HttpPhase} {w : WsPhase}
    (owned : OwnedIn o fd h fd' w) {n : Nat} (first : 1 ≤ n) (last : n ≤ o.ledger.fds.accepted)
    (gone : ¬ o.serves n) (idle : ¬ o.streams n) :
    (n, if n ∈ o.ledger.fds.handed then Party.ws else .http) ∈ o.ledger.fds.closed := by
  obtain ⟨⟨balanced, held⟩, http, ws⟩ := owned
  have notOpen : ∀ f, o.ledger.fds.table f ≠ some n := by
    intro f isOpen
    rcases (balanced.table f n).mp isOpen with ⟨owes, -, latest⟩ | ⟨owes, -, head⟩
    · exact gone ⟨latest, http.busy (by rintro rfl; cases owes)⟩
    · exact idle ⟨by simp [Ledger.session, List.headD_eq_head?_getD, head],
        ws.busy (by rintro rfl; cases owes)⟩
  obtain ⟨⟨_, party⟩, member, rfl⟩ :=
    List.mem_map.mp ((balanced.closed n).mpr ⟨⟨first, last⟩, notOpen⟩)
  have closer := balanced.closer _ party member
  cases party with
  | ws => rwa [if_pos (closer.mp rfl)]
  | http =>
      rw [if_neg fun handed => absurd (closer.mpr handed) (by decide)]
      exact member

/-- Every reachable state is one of a server with at most one session that closes every
connection once. -/
theorem sessions_exclusive {indexHtml : Bytes} {o : Observed}
    (reach : (observed indexHtml).Reach anyStep o) : Exclusive indexHtml o := by
  obtain ⟨fd, h, fd', w, owned⟩ := owned_reach reach
  have ⟨⟨balanced, held⟩, http, ws⟩ := owned
  refine {
    active := held.flag
    client := fun client k calls thread running => ?_
    failed := fun n gone notHanded => ⟨fun member => ?_, fun mine => ?_⟩
    undisturbed := fun n oracle stack o' session hstep => owned.undisturbed session hstep
    settled := fun n first last gone idle => owned.settled first last gone idle
    once := balanced.once
    strays := balanced.strays }
  · rw [calls] at http
    obtain rfl : h = .claimed := http.1
    obtain rfl : w = .over := held.apart trivial
    rw [running] at ws
    exact ws.returned
  · rcases held.streamed n member with handed | ⟨latest, rfl⟩
    · exact notHanded handed
    · exact gone ⟨latest, http.busy nofun⟩
  · by_cases holds : h.holds
    · rw [held.holder holds] at mine
      obtain rfl : o.ledger.fds.accepted = n := by simpa using mine
      exact gone ⟨rfl, http.busy (by rintro rfl; exact holds)⟩
    · by_cases running : w = .over
      · rw [held.free holds running] at mine
        exact nomatch mine
      · rw [(held.runner running).2] at mine
        exact nomatch mine

/-- A client takes the session; a second one asks for another and is refused. -/
def refusedUpgrade : List Event :=
  .accept 0 3 :: List.replicate 8 (.http upgradeOracle []) ++
    .accept 0 4 :: List.replicate 4 (.http upgradeOracle [])

theorem sessions_exclusive_refused : ∃ o, (observed []).runs {} refusedUpgrade = some o ∧
    o.ledger.fds.handed = [1] ∧ (2, Party.http) ∈ o.ledger.fds.closed := by
  have outcome : ((observed []).runs {} refusedUpgrade).map (fun o =>
      (o.system.http.isNone, o.ledger.fds.accepted, o.ledger.fds.handed)) =
      some (true, 2, [1]) := by decide +kernel
  obtain ⟨o, run, facts⟩ := Option.map_eq_some_iff.mp outcome
  simp only [Prod.mk.injEq, Option.isNone_iff_eq_none] at facts
  obtain ⟨idle, accepted, handed⟩ := facts
  have start : (observed []).Reach anyStep {} := .start rfl
  have settled := (sessions_exclusive (start.runs run)).settled 2 (by decide)
    (Nat.le_of_eq accepted.symm)
    (fun serves => serves.2 idle)
    (fun streams => by simp [Observed.streams, Ledger.session, handed] at streams)
  exact ⟨o, run, handed, by simpa [handed] using settled⟩

/-! ## The session thread -/

/-- The HTTP thread is about to create the session thread. -/
def System.creates (s : System) : Bool :=
  match s.http with
  | some (.call .wsThreadCreate _) => true
  | _ => false

/-- The HTTP thread is about to win `ws_active`. -/
def System.claims (s : System) : Bool :=
  match s.http with
  | some (.call .wsActiveCas _) => !s.shared.wsActive
  | _ => false

/-- `ws_active` is not claimed while the thread that cleared it has yet to return. -/
def waitsForReturn (o : Observed) : Event → Prop
  | .http _ _ => o.system.claims = true → o.system.ws = none
  | _ => True

instance (o : Observed) : (e : Event) → Decidable (waitsForReturn o e)
  | .http _ _ => inferInstanceAs (Decidable (_ → _))
  | .accept _ _ | .ws _ | .arrive _ _ => .isTrue trivial

/-- Only a successful compare-and-swap makes the HTTP thread the holder. -/
theorem Ledger.call_owner {l : Ledger} {party : Party} {n m : Nat} {c : HttpCall} {s : Shared}
    (holds : (l.call party n c s).owner = some (.http, m)) :
    l.owner = some (.http, m) ∨ party = .http ∧ c = .wsActiveCas ∧ s.wsActive = false := by
  unfold Ledger.call at holds
  split at holds
  · exact .inl holds
  · split at holds
    · exact .inl holds
    · next inactive => exact .inr ⟨rfl, rfl, by simpa using inactive⟩
  · unfold Ledger.release at holds
    split at holds
    · exact nomatch holds
    · exact .inl holds
  · exact .inl holds
  · unfold Ledger.create at holds
    simp only at holds
    split at holds
    · exact nomatch holds
    · exact .inl holds
  · exact .inl holds

/-- While the HTTP thread holds `ws_active`, no session thread is left. -/
def Clear (o : Observed) : Prop := ∀ n, o.ledger.owner = some (.http, n) → o.system.ws = none

theorem clear_step {indexHtml : Bytes} {o o' : Observed} {e : Event} (owned : Owned o)
    (clear : Clear o) (waits : waitsForReturn o e) (hstep : observe indexHtml o e = some o') :
    Clear o' := by
  simp only [observe, Option.ite_none_right_eq_some, Option.map_eq_some_iff] at hstep
  obtain ⟨-, s, moved, rfl⟩ := hstep
  intro n holds
  -- a session thread that can step is still there, so the HTTP thread is no holder
  have noSession : ∀ {thread c}, o.system.ws = some thread →
      (o.ledger.call .ws o.ledger.session c o.system.shared).owner ≠ some (.http, n) := by
    intro thread c busy holds
    rcases Ledger.call_owner holds with before | ⟨other, -⟩
    · rw [clear n before] at busy
      exact nomatch busy
    · exact nomatch other
  cases step_moved moved with
  | accept idle => exact clear n holds
  | arrive => exact clear n holds
  | done busy => exact clear n (by simpa only [Ledger.note, busy] using holds)
  | httpCall busy other =>
      simp only [Ledger.note, busy] at holds
      rcases Ledger.call_owner holds with before | ⟨-, rfl, inactive⟩
      · exact clear n before
      · exact waits (by simp [System.claims, busy, inactive])
  | create busy =>
      obtain ⟨fd, h, fd', w, books, http, -⟩ := owned
      rw [busy] at http
      obtain ⟨rfl, -⟩ := http
      have mine := books.held.holder trivial
      simp [Ledger.note, busy, Ledger.call, Ledger.create, mine] at holds
  | gone busy => rfl
  | again busy next | leave busy next =>
      have before : o.ledger.owner = some (.http, n) := by
        simpa only [Ledger.note, busy] using holds
      rw [clear n before] at busy
      cases busy
  | loopCall busy | leaveCall busy =>
      exact absurd (by simpa only [Ledger.note, busy] using holds) (noSession busy)

/-- In every run that claims `ws_active` only after the thread that cleared it has returned,
the session thread is created only while there is none. -/
theorem thread_fresh {indexHtml : Bytes} {o : Observed}
    (reach : (observed indexHtml).Reach waitsForReturn o) (creates : o.system.creates = true) :
    o.system.ws = none := by
  have clear : Clear o := by
    refine reach.invariant_of (J := Owned) (I := Clear) (fun _ => owned_reach) ?_
      fun _ _ _ owned clear waits hstep => clear_step owned clear waits hstep
    rintro _ rfl n holds
    exact nomatch holds
  obtain ⟨fd, h, fd', w, books, http, -⟩ := owned_reach reach
  have atCreate : ∃ k, o.system.http = some (.call .wsThreadCreate k) := by
    unfold System.creates at creates
    split at creates
    · next k busy => exact ⟨k, busy⟩
    · exact nomatch creates
  obtain ⟨k, busy⟩ := atCreate
  rw [busy] at http
  obtain ⟨rfl, -⟩ := http
  exact clear _ (books.held.holder trivial)

/-- A first upgrade creates a session, which ends on the bytes that follow. -/
def firstSession : List Event :=
  .accept 0 3 :: List.replicate 8 (.http upgradeOracle []) ++ List.replicate 9 (.ws upgradeOracle)

/-- Its thread returns, and a second upgrade is about to create one. -/
def nextUpgrade : List Event :=
  .ws upgradeOracle :: .accept 0 4 :: List.replicate 6 (.http upgradeOracle [])

theorem thread_fresh_nextUpgrade : ∃ o, (observed []).runs {} (firstSession ++ nextUpgrade) =
      some o ∧ o.ledger.fds.handed = [1] ∧ o.system.creates = true ∧ o.system.ws = none := by
  have along : (observed []).Along waitsForReturn {} (firstSession ++ nextUpgrade) := by
    decide +kernel
  obtain ⟨o, run, reach⟩ := (Reach.start rfl).along along
  have outcome : ((observed []).runs {} (firstSession ++ nextUpgrade)).map
      (fun o => (o.ledger.fds.handed, o.system.creates)) = some ([1], true) := by decide +kernel
  rw [run] at outcome
  obtain ⟨handed, creates⟩ := Prod.mk.inj (Option.some.inj outcome)
  exact ⟨o, run, handed, creates, thread_fresh reach creates⟩

/-- A session ends; before its thread has returned, the next upgrade creates one. -/
def hastyUpgrade : List Event :=
  firstSession ++ .accept 0 4 :: List.replicate 6 (.http upgradeOracle [])

/-- So the session thread can be created on the stack of one that is still alive. -/
theorem thread_recycled :
    ¬ ∀ o, (observed []).Reach anyStep o → o.system.creates = true → o.system.ws = none := by
  intro holds
  have outcome : ((observed []).runs {} hastyUpgrade).map (fun o =>
      (o.system.creates, o.system.ws.isSome)) = some (true, true) := by decide +kernel
  obtain ⟨o, run, facts⟩ := Option.map_eq_some_iff.mp outcome
  simp only [Prod.mk.injEq] at facts
  obtain ⟨creates, alive⟩ := facts
  have start : (observed []).Reach anyStep {} := .start rfl
  rw [holds o (start.runs run) creates] at alive
  exact nomatch alive

end PicoCan.Http
