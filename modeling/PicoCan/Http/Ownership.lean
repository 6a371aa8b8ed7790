import PicoCan.Http.Phases

/-!
# Who owns a connection, and who owns `ws_active`

The machine of the sessions with an observer. Its ledger numbers the connections as they
are accepted and records what the two threads do to them: which descriptors are open,
who closed which connection, which were handed over to a session, who wrote the streaming
flag, and who holds `ws_active`. Nothing in the ledger restricts the threads; the
invariant relates it to the phases both threads are in.
-/

namespace PicoCan.Http

open Calls Machine

/-! ## The ledger -/

inductive Party
  | http
  | ws
deriving DecidableEq

/-- The descriptors: `table` says which connection an open one belongs to, `strays` counts
the closes of descriptors that were not open. Lists are newest first. -/
structure Descriptors where
  accepted : Nat := 0
  table : Fd → Option Nat := fun _ => none
  closed : List (Nat × Party) := []
  strays : Nat := 0
  handed : List Nat := []

namespace Descriptors

/-- A connection gets the next number. -/
def accept (fd : Fd) (d : Descriptors) : Descriptors :=
  { d with
    accepted := d.accepted + 1
    table := fun f => if f = fd then some (d.accepted + 1) else d.table f }

def close (party : Party) (fd : Fd) (d : Descriptors) : Descriptors :=
  match d.table fd with
  | none => { d with strays := d.strays + 1 }
  | some n => { d with
      table := fun f => if f = fd then none else d.table f
      closed := (n, party) :: d.closed }

@[simp] theorem close_handed (party : Party) (fd : Fd) (d : Descriptors) :
    (d.close party fd).handed = d.handed := by
  unfold close
  split <;> rfl

@[simp] theorem close_accepted (party : Party) (fd : Fd) (d : Descriptors) :
    (d.close party fd).accepted = d.accepted := by
  unfold close
  split <;> rfl

/-- A connection is handed over to the session thread created for it. -/
def handOver (n : Nat) (d : Descriptors) : Descriptors := { d with handed := n :: d.handed }

end Descriptors

/-- What the observer has seen. `streamed` lists the connections for which the HTTP thread
wrote the streaming flag, `owner` is the holder of `ws_active`. -/
structure Ledger where
  fds : Descriptors := {}
  streamed : List Nat := []
  owner : Option (Party × Nat) := none

namespace Ledger

/-- `ws_active` is cleared; that ends the hold of a party only if it has it. -/
def release (party : Party) (n : Nat) (l : Ledger) : Ledger :=
  if l.owner = some (party, n) then { l with owner := none } else l

/-- The session thread of a connection is created, and takes `ws_active` over. -/
def create (n : Nat) (l : Ledger) : Ledger :=
  { l with
    fds := l.fds.handOver n
    owner := if l.owner = some (.http, n) then some (.ws, n) else l.owner }

/-- A call that one party makes for connection `n`. -/
def call (party : Party) (n : Nat) (c : HttpCall) (s : Shared) (l : Ledger) : Ledger :=
  match party, c with
  | party, .close fd => { l with fds := l.fds.close party fd }
  | .http, .wsActiveCas => if s.wsActive then l else { l with owner := some (.http, n) }
  | party, .wsActiveClear => l.release party n
  | .http, .can (.rxStreamingSet _) => { l with streamed := n :: l.streamed }
  | .http, .wsThreadCreate => l.create n
  | _, _ => l

/-- The connection of the latest session. -/
def session (l : Ledger) : Nat := l.fds.handed.headD 0

/-- What the observer notes of a step. -/
def note (s : System) (l : Ledger) : Event → Ledger
  | .accept _ fd => { l with fds := l.fds.accept fd }
  | .http _ _ =>
      match s.http with
      | some (.call c _) => l.call .http l.fds.accepted c s.shared
      | _ => l
  | .ws _ =>
      match s.ws with
      | some ⟨_, .loop (.call c _)⟩ | some ⟨_, .leaving (.call c _)⟩ =>
          l.call .ws l.session c s.shared
      | _ => l
  | .arrive _ _ => l

end Ledger

/-! ## The observed machine -/

structure Observed where
  system : System := {}
  ledger : Ledger := {}

/-- The HTTP thread is still in its copy loop: the model gave it no more rounds. -/
def System.stuck (s : System) : Bool :=
  match s.http with
  | some (.ret false) => true
  | _ => false

/-- The kernel gives a new connection a descriptor that is not open, and a copy loop
without fuel is not left. -/
def Observed.admits (o : Observed) : Event → Bool
  | .accept _ fd => (o.ledger.fds.table fd).isNone
  | .http _ _ => !o.system.stuck
  | _ => true

def observe (indexHtml : Bytes) (o : Observed) (e : Event) : Option Observed :=
  if o.admits e then
    (step indexHtml o.system e).map fun s => ⟨s, o.ledger.note o.system e⟩
  else none

/-- The machine, started with no connection and no session. -/
def observed (indexHtml : Bytes) : Machine Observed Event where
  Start o := o = {}
  step := observe indexHtml

/-! ## Descriptors -/

/-- The HTTP thread still owes the close of its descriptor. -/
def HttpPhase.owes : HttpPhase → Bool
  | .over => false
  | _ => true

/-- The session still owes the close of its descriptor. -/
def WsPhase.owes : WsPhase → Bool
  | .running => true
  | _ => false

/-- The open descriptors are those that the threads owe a close, and every other
connection has been closed once, by the thread that had it last. -/
structure Balanced (d : Descriptors) (owes : Bool) (fd : Fd) (owes' : Bool) (fd' : Fd) :
    Prop where
  table : ∀ f n, d.table f = some n ↔
    (owes = true ∧ f = fd ∧ n = d.accepted) ∨
      (owes' = true ∧ f = fd' ∧ d.handed.head? = some n)
  served : owes = true → 1 ≤ d.accepted ∧ d.accepted ∉ d.handed
  handed : ∀ n ∈ d.handed, 1 ≤ n ∧ n ≤ d.accepted
  once : (d.closed.map Prod.fst).Nodup
  closed : ∀ n, n ∈ d.closed.map Prod.fst ↔
    (1 ≤ n ∧ n ≤ d.accepted) ∧ ∀ f, d.table f ≠ some n
  closer : ∀ n party, (n, party) ∈ d.closed → (party = .ws ↔ n ∈ d.handed)
  strays : d.strays = 0

section Balanced

variable {d : Descriptors} {owes owes' : Bool} {fd fd' : Fd}

theorem Balanced.accept (balanced : Balanced d false fd owes' fd') {new : Fd}
    (unused : d.table new = none) : Balanced (d.accept new) true new owes' fd' := by
  have later : ∀ n ∈ d.handed, n ≠ d.accepted + 1 := fun n member =>
    Nat.ne_of_lt (Nat.lt_succ_of_le (balanced.handed n member).2)
  refine ⟨fun f n => ?_, fun _ => ⟨Nat.succ_pos _, fun member => later _ member rfl⟩,
    fun n member => ?_, balanced.once, fun n => ?_, balanced.closer, balanced.strays⟩
  · have before := balanced.table f n
    by_cases same : f = new
    · subst same
      rw [unused] at before
      simp_all [Descriptors.accept, eq_comm]
    · simpa [Descriptors.accept, same] using before
  · exact ⟨(balanced.handed n member).1, Nat.le_succ_of_le (balanced.handed n member).2⟩
  · rw [show (d.accept new).closed = d.closed from rfl, balanced.closed n]
    constructor
    · rintro ⟨⟨first, last⟩, notOpen⟩
      refine ⟨⟨first, Nat.le_succ_of_le last⟩, fun f => ?_⟩
      by_cases same : f = new
      · simp [Descriptors.accept, same]
        omega
      · simpa [Descriptors.accept, same] using notOpen f
    · rintro ⟨⟨first, last⟩, notOpen⟩
      have other : n ≠ d.accepted + 1 := fun same =>
        notOpen new (by simp [Descriptors.accept, same])
      refine ⟨⟨first, Nat.le_of_lt_succ (Nat.lt_of_le_of_ne last other)⟩, fun f isOpen => ?_⟩
      refine notOpen f ?_
      have same : f ≠ new := by
        rintro rfl
        rw [unused] at isOpen
        exact nomatch isOpen
      simpa [Descriptors.accept, same] using isOpen

/-- A thread closes the descriptor it owes. -/
theorem Balanced.close {party : Party} {f : Fd} {n : Nat} (balanced : Balanced d owes fd owes' fd')
    (isOpen : d.table f = some n) (mine : party = .ws ↔ n ∈ d.handed) {still still' : Bool}
    (left : ∀ g m, g ≠ f ∧ d.table g = some m ↔
      (still = true ∧ g = fd ∧ m = d.accepted) ∨
        (still' = true ∧ g = fd' ∧ d.handed.head? = some m))
    (served : still = true → owes = true) :
    Balanced (d.close party f) still fd still' fd' := by
  have range : 1 ≤ n ∧ n ≤ d.accepted := by
    rcases (balanced.table f n).mp isOpen with ⟨on, -, rfl⟩ | ⟨-, -, head⟩
    · exact ⟨(balanced.served on).1, Nat.le_refl _⟩
    · exact balanced.handed n (List.mem_of_mem_head? head)
  -- a connection has one descriptor
  have one : ∀ g, d.table g = some n → g = f := by
    intro g other
    have both := (balanced.table g n).mp other
    have this := (balanced.table f n).mp isOpen
    rcases both with ⟨on, rfl, same⟩ | ⟨-, rfl, head⟩ <;>
      rcases this with ⟨on', rfl, same'⟩ | ⟨-, rfl, head'⟩
    · rfl
    · exact absurd (same ▸ List.mem_of_mem_head? head') (balanced.served on).2
    · exact absurd (same' ▸ List.mem_of_mem_head? head) (balanced.served on').2
    · rfl
  have after : d.close party f = { d with
      table := fun g => if g = f then none else d.table g, closed := (n, party) :: d.closed } := by
    simp only [Descriptors.close, isOpen]
  rw [after]
  refine ⟨fun g m => ?_, fun on => balanced.served (served on), balanced.handed, ?_, fun m => ?_,
    fun m q => ?_, balanced.strays⟩
  · rw [← left g m]
    by_cases same : g = f <;> simp [same]
  · refine List.nodup_cons.mpr ⟨fun before => ?_, balanced.once⟩
    exact ((balanced.closed n).mp before).2 f isOpen
  · rw [List.map_cons, List.mem_cons, balanced.closed m]
    constructor
    · rintro (rfl | ⟨within, notOpen⟩)
      · refine ⟨range, fun g => ?_⟩
        by_cases same : g = f
        · simp [same]
        · simpa [same] using fun other => same (one g other)
      · refine ⟨within, fun g => ?_⟩
        by_cases same : g = f
        · simp [same]
        · simpa [same] using notOpen g
    · rintro ⟨within, notOpen⟩
      by_cases same : m = n
      · exact .inl same
      · refine .inr ⟨within, fun g other => ?_⟩
        by_cases here : g = f
        · rw [here, isOpen] at other
          exact same (Option.some.inj other).symm
        · exact notOpen g (by simpa [here] using other)
  · rw [List.mem_cons, Prod.mk.injEq]
    rintro (⟨rfl, rfl⟩ | before)
    · exact mine
    · exact balanced.closer m q before

theorem Balanced.closeServed (balanced : Balanced d true fd owes' fd') :
    Balanced (d.close .http fd) false fd owes' fd' := by
  obtain ⟨-, notHanded⟩ := balanced.served rfl
  have isOpen : d.table fd = some d.accepted := (balanced.table _ _).mpr (.inl ⟨rfl, rfl, rfl⟩)
  refine balanced.close isOpen (by simp [notHanded]) (fun g m => ?_) nofun
  rw [balanced.table g m]
  constructor
  · rintro ⟨other, ⟨-, same, -⟩ | session⟩
    · exact absurd same other
    · exact .inr session
  · rintro (⟨off, -⟩ | ⟨on, rfl, head⟩)
    · exact nomatch off
    · refine ⟨?_, .inr ⟨on, rfl, head⟩⟩
      rintro rfl
      have here := (balanced.table g m).mpr (.inr ⟨on, rfl, head⟩)
      rw [isOpen] at here
      exact notHanded (Option.some.inj here ▸ List.mem_of_mem_head? head)

theorem Balanced.closeSession (balanced : Balanced d owes fd true fd') (some : d.handed ≠ []) :
    Balanced (d.close .ws fd') owes fd false fd' := by
  obtain ⟨n, rest, handed⟩ := List.exists_cons_of_ne_nil some
  have member : n ∈ d.handed := by rw [handed]; exact List.mem_cons_self
  have isOpen : d.table fd' = Option.some n :=
    (balanced.table _ _).mpr (.inr ⟨rfl, rfl, by rw [handed]; rfl⟩)
  refine balanced.close isOpen (by simp [member]) (fun g m => ?_) id
  rw [balanced.table g m]
  constructor
  · rintro ⟨other, served | ⟨-, same, -⟩⟩
    · exact .inl served
    · exact absurd same other
  · rintro (⟨on, rfl, rfl⟩ | ⟨off, -⟩)
    · refine ⟨?_, .inl ⟨on, rfl, rfl⟩⟩
      rintro rfl
      have here := (balanced.table g _).mpr (.inl ⟨on, rfl, rfl⟩)
      rw [isOpen] at here
      exact (balanced.served on).2 (Option.some.inj here ▸ member)
    · exact nomatch off

theorem Balanced.handOver (balanced : Balanced d true fd false fd') :
    Balanced (d.handOver d.accepted) false fd true fd := by
  obtain ⟨first, notHanded⟩ := balanced.served rfl
  have isOpen : d.table fd = some d.accepted := (balanced.table _ _).mpr (.inl ⟨rfl, rfl, rfl⟩)
  refine ⟨fun f n => ?_, nofun, fun n member => ?_, balanced.once, balanced.closed,
    fun n party isClosed => ?_, balanced.strays⟩
  · rw [show (d.handOver d.accepted).table f = d.table f from rfl, balanced.table f n]
    simp [Descriptors.handOver, eq_comm]
  · rcases List.mem_cons.mp member with rfl | before
    · exact ⟨first, Nat.le_refl _⟩
    · exact balanced.handed n before
  · have other : n ≠ d.accepted := by
      rintro rfl
      exact ((balanced.closed _).mp (List.mem_map_of_mem isClosed)).2 fd isOpen
    rw [balanced.closer n party isClosed]
    simp [Descriptors.handOver, other]

end Balanced

/-! ## The books -/

/-- Who holds `ws_active`, and whose `ws_client` is, in the phases of the two threads. -/
structure Held (l : Ledger) (active : Bool) (clientFd fd : Fd) (h : HttpPhase) (w : WsPhase) :
    Prop where
  streamed : ∀ n ∈ l.streamed, n ∈ l.fds.handed ∨ (n = l.fds.accepted ∧ h = .enabled)
  holder : h.holds → l.owner = some (.http, l.fds.accepted)
  runner : w ≠ .over → l.fds.handed ≠ [] ∧ l.owner = some (.ws, l.session)
  free : ¬ h.holds → w = .over → l.owner = none
  flag : active = l.owner.isSome
  apart : h.holds → w = .over
  client : h = .published ∨ h = .enabled → clientFd = fd

theorem Held.streamed_handed {l : Ledger} {active : Bool} {clientFd fd : Fd} {h : HttpPhase}
    {w : WsPhase} (held : Held l active clientFd fd h w) (notEnabled : h ≠ .enabled) {n : Nat}
    (member : n ∈ l.streamed) : n ∈ l.fds.handed :=
  (held.streamed n member).elim id fun now => absurd now.2 notEnabled

/-- Until the connection itself is enabled, what was streamed has been handed over. -/
theorem Held.streamed_before {l : Ledger} {active : Bool} {clientFd fd : Fd} {h : HttpPhase}
    {w : WsPhase} (held : Held l active clientFd fd h w) (notEnabled : h ≠ .enabled)
    {own : Nat → Prop} : ∀ n ∈ l.streamed, n ∈ l.fds.handed ∨ own n :=
  fun _ member => .inl (held.streamed_handed notEnabled member)

/-- The ledger and the shared variables agree with the phases: of the HTTP thread with the
connection on `fd`, of the WebSocket thread with the session on `fd'`. -/
structure Books (l : Ledger) (s : Shared) (fd : Fd) (h : HttpPhase) (fd' : Fd) (w : WsPhase) :
    Prop where
  balanced : Balanced l.fds h.owes fd w.owes fd'
  held : Held l s.wsActive s.wsClient.fd fd h w

section Books

variable {l : Ledger} {s : Shared} {fd fd' : Fd} {h : HttpPhase} {w : WsPhase}

theorem Books.accept (books : Books l s fd .over fd' w) {new : Fd}
    (unused : l.fds.table new = none) :
    Books { l with fds := l.fds.accept new } s new .serving fd' w := by
  obtain ⟨balanced, held⟩ := books
  refine ⟨balanced.accept unused, fun n member => .inl ?_, False.elim, held.runner,
    held.free, held.flag, False.elim, nofun⟩
  exact held.streamed_handed nofun member

/-- A call of the HTTP thread other than the creation of a thread. -/
theorem Books.httpCall (books : Books l s fd h fd' w) (oracle : Oracle) {c : HttpCall}
    {post : c.Answer → HttpPhase → Prop} (spec : servingSpec fd c post h)
    (other : c.createsThread = false) :
    ∃ h', post (exec .http oracle c s).1 h' ∧
      Books (l.call .http l.fds.accepted c s) (exec .http oracle c s).2 fd h' fd' w := by
  obtain ⟨balanced, held⟩ := books
  cases c with
  | fs | recv | send => exact ⟨h, spec.2 _, balanced, held⟩
  | close fd' =>
      obtain ⟨rfl, rfl, after⟩ := spec
      refine ⟨.over, after _, balanced.closeServed, fun n member => .inl ?_, False.elim,
        fun running => ?_, held.free, held.flag, False.elim, by simp⟩
      · rw [Ledger.call, Descriptors.close_handed]
        exact held.streamed_handed (by decide) member
      · rw [Ledger.call, Ledger.session, Descriptors.close_handed]
        exact held.runner running
  | wsActiveCas =>
      obtain ⟨rfl, won, lost⟩ := spec
      cases active : s.wsActive with
      | true =>
          refine ⟨.serving, ?_, ?_, ?_⟩
          · simpa [exec, active] using lost
          · simpa [Ledger.call, active] using balanced
          · simpa [Ledger.call, exec, active] using held
      | false =>
          -- a session that still ran would hold the flag
          have idle : w = .over := by
            refine Decidable.byContradiction fun running => ?_
            have flag := held.flag
            rw [active, (held.runner running).2] at flag
            cases flag
          simp only [exec, Ledger.call, active]
          exact ⟨.claimed, won, balanced, held.streamed_before (by decide), fun _ => rfl,
            fun running => absurd idle running, fun free => absurd trivial free, rfl,
            fun _ => idle, by simp⟩
  | wsActiveClear =>
      obtain ⟨rfl, after⟩ := spec
      have mine : l.owner = some (.http, l.fds.accepted) := held.holder trivial
      have idle : w = .over := held.apart trivial
      simp only [exec, Ledger.call, Ledger.release, mine, if_true]
      exact ⟨.serving, after, balanced, held.streamed_before (by decide), False.elim,
        fun running => absurd idle running, fun _ _ => rfl, rfl, False.elim, by simp⟩
  | wsClientSet client =>
      obtain ⟨rfl, rfl, after⟩ := spec
      exact ⟨.published, after, balanced, held.streamed_before (by decide), held.holder,
        held.runner, held.free, held.flag, held.apart, fun _ => rfl⟩
  | can c =>
      cases c with
      | rxPurge =>
          obtain ⟨rfl, after⟩ := spec
          exact ⟨.published, after, balanced, held.streamed, held.holder, held.runner, held.free,
            held.flag, held.apart, held.client⟩
      | rxStreamingSet enabled =>
          cases enabled with
          | false => exact spec.elim
          | true =>
              obtain ⟨rfl, after⟩ := spec
              refine ⟨.enabled, after, balanced, fun n member => ?_, held.holder, held.runner,
                held.free, held.flag, held.apart, fun _ => held.client (.inl rfl)⟩
              rcases List.mem_cons.mp member with rfl | before
              · exact .inr ⟨rfl, rfl⟩
              · exact .inl (held.streamed_handed (by decide) before)
      | _ => exact spec.elim
  | wsThreadCreate => cases other
  | poll => exact spec.elim

/-- The creation of the session thread. -/
theorem Books.create (books : Books l s fd .enabled fd' w) (oracle : Oracle) :
    Books (l.call .http l.fds.accepted .wsThreadCreate s) (exec .http oracle .wsThreadCreate s).2
      fd .over fd .running := by
  obtain ⟨balanced, held⟩ := books
  obtain rfl : w = .over := held.apart trivial
  have mine : l.owner = some (.http, l.fds.accepted) := held.holder trivial
  have flag : s.wsActive = true := by rw [held.flag, mine]; rfl
  simp only [Ledger.call, Ledger.create, mine, if_true]
  refine ⟨balanced.handOver, fun n member => .inl ?_, False.elim, fun _ => ⟨nofun, rfl⟩,
    fun _ => nofun, flag, False.elim, nofun⟩
  exact (held.streamed n member).elim (List.mem_cons_of_mem _)
    fun now => now.1 ▸ List.mem_cons_self

/-- A call of the WebSocket thread. -/
theorem Books.wsCall (books : Books l s fd h fd' w) (session : Nat) (oracle : Oracle)
    {c : HttpCall} {post : c.Answer → WsPhase → Prop} (spec : sessionSpec fd' c post w) :
    ∃ w', post (exec (.ws session) oracle c s).1 w' ∧
      Books (l.call .ws l.session c s) (exec (.ws session) oracle c s).2 fd h fd' w' := by
  obtain ⟨balanced, held⟩ := books
  have notHeld : w ≠ .over → ¬ h.holds := fun running holds => running (held.apart holds)
  -- a call that moves neither the ledger nor what is held
  have kept : ∀ {w' : WsPhase} {s' : Shared}, w ≠ .over → w' ≠ .over → w'.owes = w.owes →
      s'.wsActive = s.wsActive → s'.wsClient = s.wsClient → Books l s' fd h fd' w' := by
    intro w' s' running running' owes active client
    refine ⟨owes ▸ balanced, held.streamed, held.holder, fun _ => held.runner running,
      fun _ idle => absurd idle running', active ▸ held.flag,
      fun holds => absurd holds (notHeld running), client ▸ held.client⟩
  cases c with
  | close f =>
      obtain ⟨rfl, rfl, after⟩ := spec
      obtain ⟨some, mine⟩ := held.runner (by decide)
      refine ⟨.closed, after _, balanced.closeSession some, fun n member => ?_,
        fun holds => absurd holds (notHeld (by decide)), fun _ => ?_,
        fun _ (closed : WsPhase.closed = _) => absurd closed (by decide), held.flag,
        fun holds => absurd holds (notHeld (by decide)), held.client⟩
      · simp only [Ledger.call, Descriptors.close_handed, Descriptors.close_accepted]
        exact held.streamed n member
      · simp only [Ledger.call, Ledger.session, Descriptors.close_handed]
        exact ⟨some, mine⟩
  | wsActiveClear =>
      obtain ⟨rfl, after⟩ := spec
      obtain ⟨-, mine⟩ := held.runner (by decide)
      simp only [exec, Ledger.call, Ledger.release, mine, if_true]
      exact ⟨.over, after, balanced, held.streamed, fun holds => absurd holds (notHeld (by decide)),
        fun running => absurd rfl running, fun _ _ => rfl, rfl, fun _ => rfl, held.client⟩
  | recv | send | poll =>
      obtain ⟨rfl, after⟩ := spec
      exact ⟨.running, after _, kept (by decide) (by decide) rfl rfl rfl⟩
  | can c =>
      cases c with
      | rxStreamingSet enabled =>
          cases enabled with
          | true => exact spec.1.elim
          | false =>
              obtain ⟨rfl, after⟩ := spec
              exact ⟨.stopped, after, kept (by decide) (by decide) rfl rfl rfl⟩
      | rxPurge =>
          obtain ⟨rfl, after⟩ := spec
          exact ⟨.purged, after, kept (by decide) (by decide) rfl rfl rfl⟩
      | rxGet =>
          obtain ⟨rfl, after⟩ := spec
          refine ⟨.running, after _, ?_⟩
          cases get : s.rxQueue.get <;> simp only [exec, get] <;>
            exact kept (by decide) (by decide) rfl rfl rfl
      | rxPut | rxStreamingGet => exact spec.1.elim
      | _ =>
          obtain ⟨-, rfl, after⟩ := spec
          exact ⟨.running, after _, kept (by decide) (by decide) rfl rfl rfl⟩
  | fs | wsActiveCas | wsClientSet | wsThreadCreate => exact spec.elim

end Books

end PicoCan.Http
