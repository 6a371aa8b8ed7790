import PicoCan.Device.Announcing

/-!
# The server stays up

Every thread keeps to its own descriptors: the device closes connections only, and only
open ones, and the two threads of the service their own sockets. So once `http_thread` has
a listening socket, it has it for good; where it fails before, it leaves nothing behind.
-/

namespace PicoCan.Device

open Calls Machine
open PicoCan.Can (Bridge InitDone ParseResult canTxThread)
open PicoCan.Http (AnnounceState Fd Hostname HttpCall Observed Owned ServiceCall ServiceProg
  ServiceThread acceptPass announcePass httpServerStart httpThread mdnsSocket request waitPass)

/-! ## The device closes what it has open -/

section Closing

variable {parse : Bytes → ParseResult} {indexHtml : Bytes} {s t : State}

/-- What a thread of the device closes is an open connection. -/
theorem closing_open (reach : (device parse indexHtml (InitDone parse)).Reach anyStep s)
    {e : Event} {fd : Fd} (closes : closing s e = some fd) : s.shared.openFds fd = true := by
  obtain ⟨o, observed, -, follows⟩ := follows_reach reach
  obtain ⟨fd₁, h, fd₂, w, books, http, ws⟩ := Http.owned_reach observed
  have shown {n : Nat} (isOpen : o.ledger.fds.table fd = some n) : s.shared.openFds fd = true := by
    rw [← follows.shared.fds fd, isOpen]
    rfl
  -- of the session's thread, wherever its code stands
  have session {post : Int → Http.WsPhase → Prop} (spec : Http.sessionSpec fd₂ (.close fd) post w) :
      s.shared.openFds fd = true := by
    obtain ⟨rfl, rfl, -⟩ := spec
    obtain ⟨n, rest, handed⟩ := List.exists_cons_of_ne_nil (books.held.runner (by decide)).1
    exact shown ((books.balanced.table _ n).mpr (.inr ⟨rfl, rfl, by rw [handed]; rfl⟩))
  cases e with
  | accept | worker | bus | frame => cases closes
  | http =>
      simp only [closing] at closes
      split at closes
      · next busy =>
          cases closes
          rw [follows.http.trans busy] at http
          obtain ⟨rfl, rfl, -⟩ := http
          exact shown ((books.balanced.table _ _).mpr (.inl ⟨rfl, rfl, rfl⟩))
      · cases closes
  | ws =>
      simp only [closing] at closes
      split at closes
      · next busy =>
          cases closes
          obtain ⟨n, running⟩ := follows.session busy
          rw [running] at ws
          exact session ws
      · next busy =>
          cases closes
          obtain ⟨n, running⟩ := follows.session busy
          rw [running] at ws
          exact session ws
      · cases closes

theorem exec_fds {o : Can.Outcome} {oracle : Http.Oracle} {c : HttpCall} {r : c.Answer}
    {shared shared' : Shared} (hexec : exec parse o oracle c shared = some (r, shared')) {fd : Fd}
    (isOpen : shared'.openFds fd = true) : shared.openFds fd = true := by
  cases c with
  | can c =>
      obtain ⟨_, -, made⟩ := Option.map_eq_some_iff.mp hexec
      cases made
      exact isOpen
  | close closed =>
      cases hexec
      simp only at isOpen
      split at isOpen
      · cases isOpen
      · exact isOpen
  | wsActiveCas =>
      simp only [exec] at hexec
      split at hexec <;> cases hexec <;> exact isOpen
  | _ => cases hexec; exact isOpen

/-- Connections are opened by `accept` alone. -/
theorem Moved.fds {e : Event} (moved : Moved parse indexHtml s e t)
    (other : ∀ fuel fd, e ≠ .accept fuel fd) {fd : Fd} (isOpen : t.shared.openFds fd = true) :
    s.shared.openFds fd = true := by
  cases moved with
  | accept => exact absurd rfl (other _ _)
  | httpCall busy notCreate hexec => exact exec_fds hexec isOpen
  | loopCall busy hexec => exact exec_fds hexec isOpen
  | leaveCall busy hexec => exact exec_fds hexec isOpen
  | _ => exact isOpen

/-- A request comes from `accept` alone. -/
theorem Moved.idle {e : Event} (moved : Moved parse indexHtml s e t)
    (other : ∀ fuel fd, e ≠ .accept fuel fd) (idle : s.http = none) : t.http = none := by
  cases moved with
  | accept => exact absurd rfl (other _ _)
  | done => rfl
  | httpCall busy => exact nomatch idle.symm.trans busy
  | create busy => exact nomatch idle.symm.trans busy
  | _ => exact idle

end Closing

/-! ## Sockets -/

namespace Sockets

variable (m : Sockets) (fd : Int)

@[simp] theorem put_self (x : Option Socket) : m.put fd x fd = x := if_pos rfl

theorem put_other {fd f : Int} (other : f ≠ fd) (x : Option Socket) : m.put fd x f = m f :=
  if_neg other

@[simp] theorem put_put (x y : Option Socket) : (m.put fd x).put fd y = m.put fd y := by
  funext f
  by_cases same : f = fd <;> simp [put, same]

theorem put_same {fd : Int} {x : Option Socket} (same : m fd = x) : m.put fd x = m := by
  funext f
  by_cases here : f = fd
  · rw [here, put_self, same]
  · rw [put_other m here]

/-- The sockets of `http_thread`. -/
def streams : Sockets := fun fd => if m fd = some .dgram then none else m fd

theorem streams_put {x : Option Socket} (other : x ≠ some .dgram) :
    (m.put fd x).streams = m.streams.put fd x := by
  funext f
  by_cases here : f = fd
  · simp [streams, put, here, other]
  · simp [streams, put, here]

theorem streams_dgram {fd : Int} (free : m fd = none) :
    (m.put fd (some .dgram)).streams = m.streams := by
  funext f
  by_cases here : f = fd
  · simp [streams, put, here, free]
  · simp [streams, put, here]

theorem streams_some {fd : Int} {socket : Socket} (is : m.streams fd = some socket) :
    m fd = some socket ∧ socket ≠ .dgram := by
  unfold streams at is
  split at is
  · cases is
  · next other => exact ⟨is, fun same => other (same ▸ is)⟩

/-- The sockets of `mdns_announce_thread`. -/
def dgrams : Int → Bool := fun fd => m fd = some .dgram

theorem dgrams_put {fd : Int} {x : Option Socket} (before : m fd ≠ some .dgram)
    (after : x ≠ some .dgram) : (m.put fd x).dgrams = m.dgrams := by
  funext f
  by_cases here : f = fd
  · simp [dgrams, put, here, before, after]
  · simp [dgrams, put, here]

theorem dgrams_dgram : (m.put fd (some .dgram)).dgrams = fun f => f = fd || m.dgrams f := by
  funext f
  by_cases here : f = fd
  · simp [dgrams, put, here]
  · simp [dgrams, put, here]

end Sockets

/-! ## The two threads' views -/

structure ServerView where
  serverFd : Int
  sockets : Sockets

namespace Service

def serverView (s : Service) : ServerView := ⟨s.serverFd, s.sockets.streams⟩

def announcerView (s : Service) : AnnouncerView := ⟨s.sockets.dgrams, s.said⟩

/-- No descriptor of the service is a connection of the device as well. -/
def Apart (s : Service) : Prop :=
  ∀ fd, s.sockets fd ≠ none → ∃ n : Fd, fd = n ∧ s.device.shared.openFds n = false

theorem Apart.put {s : Service} (apart : s.Apart) {fd : Fd} (unused : s.unused fd)
    (socket : Socket) : (s.put fd socket).Apart := by
  intro f some
  by_cases here : f = fd
  · have closed : s.device.shared.openFds fd = false := by
      simpa using (Bool.and_eq_true_iff.mp unused).2
    exact ⟨fd, here, closed⟩
  · rw [show (s.put fd socket).sockets f = s.sockets f from Sockets.put_other _ here _] at some
    exact apart f some

theorem Apart.change {s : Service} (apart : s.Apart) {fd : Int} {before : Socket}
    (is : s.sockets fd = some before) (after : Socket) : (s.put fd after).Apart := by
  intro f some
  by_cases here : f = fd
  · exact apart f (by rw [here, is]; exact Option.some_ne_none _)
  · rw [show (s.put fd after).sockets f = s.sockets f from Sockets.put_other _ here _] at some
    exact apart f some

theorem unused_none {s : Service} {fd : Fd} (unused : s.unused fd) : s.sockets fd = none :=
  Option.isNone_iff_eq_none.mp (Bool.and_eq_true_iff.mp unused).1

/-- A close of a socket closes no connection. -/
theorem Apart.close {s : Service} (apart : s.Apart) {fd : Int} (some : s.sockets fd ≠ none) :
    s.close fd = { s with sockets := s.sockets.put fd none } := by
  obtain ⟨n, rfl, closed⟩ := apart fd some
  have same : (fun f : Fd => if (f : Int) = n then false else s.device.shared.openFds f) =
      s.device.shared.openFds := by
    funext f
    by_cases here : (f : Int) = n
    · obtain rfl : f = n := Int.ofNat.inj here
      rw [if_pos rfl, closed]
    · rw [if_neg here]
  unfold Service.close
  rw [same]

theorem serverView_put (s : Service) (fd : Int) {socket : Socket} (other : socket ≠ .dgram) :
    (s.put fd socket).serverView =
      { s.serverView with sockets := s.serverView.sockets.put fd (some socket) } :=
  congrArg (ServerView.mk s.serverFd)
    (Sockets.streams_put _ _ fun same => other (Option.some.inj same))

theorem serverView_free {s : Service} {fd : Int} (free : s.sockets fd = none) :
    s.serverView.sockets fd = none := by
  show s.sockets.streams fd = none
  rw [Sockets.streams, free]
  exact ite_self none

theorem serverView_is {s : Service} {fd : Int} {socket : Socket} (is : s.sockets fd = some socket)
    (other : socket ≠ .dgram) : s.serverView.sockets fd = some socket := by
  show s.sockets.streams fd = some socket
  rw [Sockets.streams, is]
  exact if_neg fun same => other (Option.some.inj same)

theorem announcerView_put (s : Service) {fd : Int} {socket : Socket}
    (before : s.sockets fd ≠ some .dgram) (other : socket ≠ .dgram) :
    (s.put fd socket).announcerView = s.announcerView :=
  congrArg (AnnouncerView.mk · s.said)
    (Sockets.dgrams_put _ before fun same => other (Option.some.inj same))

end Service

/-- The calls of `http_thread`, each made where `W` holds: `accept` on a listening socket,
`close` of a socket of its own. -/
def serverSpec (W : ServerView → Prop) : Spec ServiceCall.Answer ServerView := fun c post v =>
  W v ∧ match c with
    | .serverFdGet => post v.serverFd v
    | .serverFdSet fd => post () { v with serverFd := fd }
    | .socket .stream => post none v ∧ ∀ fd : Fd, v.sockets fd = none →
        post (some fd) { v with sockets := v.sockets.put fd (some .stream) }
    | .bind fd => post false v ∧ (v.sockets fd = some .stream →
        post true { v with sockets := v.sockets.put fd (some .bound) })
    | .listen fd => post false v ∧ (v.sockets fd = some .bound →
        post true { v with sockets := v.sockets.put fd (some .listening) })
    | .accept fd => v.sockets fd = some .listening ∧ post none v ∧ ∀ clientFd : Fd,
        v.sockets clientFd = none →
        post (some clientFd) { v with sockets := v.sockets.put clientFd (some .accepted) }
    | .close fd => v.sockets fd ≠ none ∧ post () { v with sockets := v.sockets.put fd none }
    | .sleep _ => post () v
    | _ => False

/-- What a call of `http_thread` or `mdns_announce_thread` leaves as it was. -/
structure Elsewhere (s t : Service) : Prop where
  device : t.device = s.device
  starter : t.starter = s.starter
  server : t.server = s.server
  announcer : t.announcer = s.announcer
  started : t.started = s.started
  starts : t.starts = s.starts
  returned : t.returned = s.returned

theorem Elsewhere.refl (s : Service) : Elsewhere s s := ⟨rfl, rfl, rfl, rfl, rfl, rfl, rfl⟩

theorem Elsewhere.put (s : Service) (fd : Int) (socket : Socket) : Elsewhere s (s.put fd socket) :=
  ⟨rfl, rfl, rfl, rfl, rfl, rfl, rfl⟩

section Calls

variable {s t : Service} (apart : s.Apart)
include apart

theorem server_call {W : ServerView → Prop} {oracle : ServiceOracle} {c : ServiceCall}
    {r : c.Answer} {post : c.Answer → ServerView → Prop}
    (spec : serverSpec W c post s.serverView)
    (hexec : serviceExec .http oracle c s = some (r, t)) :
    post r t.serverView ∧ t.Apart ∧ t.announcerView = s.announcerView ∧ Elsewhere s t := by
  replace spec := spec.2
  -- a socket moves on
  have moves {fd : Int} {before after : Socket} (is : s.sockets fd = some before)
      (first : before ≠ .dgram) (second : after ≠ .dgram) {post : ServerView → Prop}
      (spec : s.serverView.sockets fd = some before →
        post { s.serverView with sockets := s.serverView.sockets.put fd (some after) }) :
      post (s.put fd after).serverView ∧ (s.put fd after).Apart ∧
        (s.put fd after).announcerView = s.announcerView ∧ Elsewhere s (s.put fd after) := by
    have notDgram : s.sockets fd ≠ some .dgram := fun same =>
      first (Option.some.inj (is.symm.trans same))
    rw [Service.serverView_put s fd second]
    exact ⟨spec (Service.serverView_is is first), apart.change is after,
      Service.announcerView_put s notDgram second, .put s fd after⟩
  -- a descriptor is given out
  have opens {fd : Fd} {socket : Socket} (unused : s.unused fd) (other : socket ≠ .dgram)
      {post : ServerView → Prop} (spec : s.serverView.sockets fd = none →
        post { s.serverView with sockets := s.serverView.sockets.put fd (some socket) }) :
      post (s.put fd socket).serverView ∧ (s.put fd socket).Apart ∧
        (s.put fd socket).announcerView = s.announcerView ∧ Elsewhere s (s.put fd socket) := by
    have free := Service.unused_none unused
    have notDgram : s.sockets fd ≠ some .dgram := fun same =>
      Option.some_ne_none _ (same.symm.trans free)
    rw [Service.serverView_put s fd other]
    exact ⟨spec (Service.serverView_free free), apart.put unused socket,
      Service.announcerView_put s notDgram other, .put s fd socket⟩
  cases c with
  | serverFdGet => cases hexec; exact ⟨spec, apart, rfl, .refl s⟩
  | serverFdSet fd => cases hexec; exact ⟨spec, apart, rfl, rfl, rfl, rfl, rfl, rfl, rfl, rfl⟩
  | sleep ms => cases hexec; exact ⟨spec, apart, rfl, .refl s⟩
  | socket type =>
      cases type with
      | dgram => exact spec.elim
      | stream =>
          simp only [serviceExec] at hexec
          split at hexec
          · cases hexec
            exact ⟨spec.1, apart, rfl, .refl s⟩
          · next fd _ =>
              split at hexec
              · next unused =>
                  cases hexec
                  exact opens unused (by decide) (spec.2 fd)
              · cases hexec
  | bind fd =>
      simp only [serviceExec] at hexec
      split at hexec
      · next ready =>
          cases hexec
          have is : s.sockets fd = some .stream := by simpa using (Bool.and_eq_true_iff.mp ready).2
          exact moves is (by decide) (by decide) spec.2
      · cases hexec
        exact ⟨spec.1, apart, rfl, .refl s⟩
  | listen fd =>
      simp only [serviceExec] at hexec
      split at hexec
      · next ready =>
          cases hexec
          have is : s.sockets fd = some .bound := by simpa using (Bool.and_eq_true_iff.mp ready).2
          exact moves is (by decide) (by decide) spec.2
      · cases hexec
        exact ⟨spec.1, apart, rfl, .refl s⟩
  | accept fd =>
      simp only [serviceExec] at hexec
      split at hexec
      · cases hexec
        exact ⟨spec.2.1, apart, rfl, .refl s⟩
      · next clientFd _ =>
          split at hexec
          · next ready =>
              cases hexec
              exact opens (Bool.and_eq_true_iff.mp ready).2 (by decide) (spec.2.2 clientFd)
          · cases hexec
  | close fd =>
      cases hexec
      obtain ⟨isOpen, after⟩ := spec
      obtain ⟨socket, is⟩ := Option.ne_none_iff_exists'.mp isOpen
      obtain ⟨is, other⟩ := Sockets.streams_some _ is
      have notDgram : s.sockets fd ≠ some .dgram := fun same =>
        other (Option.some.inj (is.symm.trans same))
      rw [apart.close (by rw [is]; exact Option.some_ne_none _)]
      refine ⟨?_, fun f still => ?_, ?_, rfl, rfl, rfl, rfl, rfl, rfl, rfl⟩
      · show post () ⟨s.serverFd, (s.sockets.put fd none).streams⟩
        rw [Sockets.streams_put s.sockets fd (Option.some_ne_none _).symm]
        exact after
      · by_cases here : f = fd
        · exact absurd (by rw [here]; exact Sockets.put_self _ _ _) still
        · refine apart f fun gone => still ?_
          exact (Sockets.put_other _ here _).trans gone
      · exact congrArg (AnnouncerView.mk · s.said)
          (Sockets.dgrams_put _ notDgram (Option.some_ne_none _).symm)
  | _ => exact spec.elim

theorem announcer_call {W : AnnouncerView → Prop} {oracle : ServiceOracle} {c : ServiceCall}
    {r : c.Answer} {post : c.Answer → AnnouncerView → Prop}
    (spec : announcerSpec W c post s.announcerView)
    (hexec : serviceExec .mdns oracle c s = some (r, t)) :
    post r t.announcerView ∧ t.Apart ∧ t.serverView = s.serverView ∧ Elsewhere s t := by
  replace spec := spec.2
  cases c with
  | serverFdGet => cases hexec; exact ⟨spec _, apart, rfl, .refl s⟩
  | setMulticastTtl => cases hexec; exact ⟨spec, apart, rfl, .refl s⟩
  | netIfGetConfig => cases hexec; exact ⟨spec _, apart, rfl, rfl, rfl, rfl, rfl, rfl, rfl, rfl⟩
  | sendto => cases hexec; exact ⟨spec.2 _, apart, rfl, rfl, rfl, rfl, rfl, rfl, rfl, rfl⟩
  | sleep => cases hexec; exact ⟨spec, apart, rfl, rfl, rfl, rfl, rfl, rfl, rfl, rfl⟩
  | socket type =>
      cases type with
      | stream => exact spec.elim
      | dgram =>
          simp only [serviceExec] at hexec
          split at hexec
          · cases hexec
            exact ⟨spec.1, apart, rfl, .refl s⟩
          · next fd _ =>
              split at hexec
              · next unused =>
                  cases hexec
                  have free := Service.unused_none unused
                  refine ⟨?_, apart.put unused .dgram, ?_, .put s fd .dgram⟩
                  · have opened : (s.put fd .dgram).announcerView = { s.announcerView with
                        dgram := fun f => f = fd || s.announcerView.dgram f } :=
                      congrArg (AnnouncerView.mk · s.said) (Sockets.dgrams_dgram s.sockets fd)
                    rw [show socketOf .dgram = .dgram from rfl, opened]
                    exact spec.2 fd
                  · exact congrArg (ServerView.mk s.serverFd) (Sockets.streams_dgram _ free)
              · cases hexec
  | _ => exact spec.elim

end Calls

/-! ## `http_thread` -/

/-- Nothing but the listening socket. -/
def Listens (v : ServerView) : Prop :=
  0 ≤ v.serverFd ∧ v.sockets = Sockets.put (fun _ => none) v.serverFd (some .listening)

/-- A connection as well, which is not handled yet. -/
def Accepted (clientFd : Fd) (v : ServerView) : Prop :=
  0 ≤ v.serverFd ∧ (clientFd : Int) ≠ v.serverFd ∧ v.sockets =
    (Sockets.put (fun _ => none) v.serverFd (some .listening)).put clientFd (some .accepted)

/-- In the accept loop, wherever. -/
def Up (v : ServerView) : Prop := 0 ≤ v.serverFd ∧ v.sockets v.serverFd = some .listening

theorem Listens.up {v : ServerView} (listens : Listens v) : Up v :=
  ⟨listens.1, by rw [listens.2]; exact Sockets.put_self _ _ _⟩

theorem Accepted.up {v : ServerView} {clientFd : Fd} (accepted : Accepted clientFd v) : Up v := by
  obtain ⟨natural, apart, only⟩ := accepted
  refine ⟨natural, ?_⟩
  rw [only, Sockets.put_other _ (Ne.symm apart)]
  exact Sockets.put_self _ _ _

/-- No socket at all. -/
def Silent (v : ServerView) : Prop := v.serverFd < 0 ∧ v.sockets = fun _ => none

/-- Behind `httpThread`. -/
def ThreadUp (listening : Bool) (v : ServerView) : Prop :=
  match listening with
  | true => Listens v
  | false => Silent v

/-- Behind a pass of the accept loop. -/
def PassUp (clientFd : Option Fd) (v : ServerView) : Prop :=
  match clientFd with
  | none => Listens v
  | some clientFd => Accepted clientFd v

def ServerAt (v : ServerView) : KThread ServerCode → Prop
  | .dormant | .ended => Silent v
  | .running (.starting rest) => rest.wp (serverSpec fun _ => True) ThreadUp v
  | .running (.accepting rest) => rest.wp (serverSpec Up) PassUp v
  | .running .handling => Listens v

theorem httpThread_keeps {v : ServerView} (silent : Silent v) :
    httpThread.wp (serverSpec fun _ => True) ThreadUp v := by
  obtain ⟨negative, none⟩ := silent
  have free (fd : Int) : v.sockets fd = Option.none := congrFun none fd
  have minus : (-1 : Int) < 0 := by decide
  have gone (fd : Int) : Silent ⟨-1, v.sockets.put fd Option.none⟩ :=
    ⟨minus, (Sockets.put_same _ (free fd)).trans none⟩
  unfold httpThread
  -- what is left to show of each way through
  simp only [request, Prog.perform_bind, Prog.pure_eq, Prog.wp_call, serverSpec, Http.fdOr,
    Prog.wp_ite, Prog.wp_ret, Bool.false_eq_true, not_false_eq_true, not_true_eq_false,
    forall_const, false_implies, and_true, true_and, Sockets.put_self, Sockets.put_put, ThreadUp]
  refine ⟨⟨fun _ => ⟨minus, none⟩, fun natural => absurd minus natural⟩, fun fd _ => ?_⟩
  have natural : 0 ≤ (fd : Int) := Int.natCast_nonneg fd
  refine ⟨fun negative => absurd natural (Int.not_le.mpr negative), fun _ => ?_⟩
  refine ⟨⟨Option.some_ne_none _, gone fd⟩, ⟨Option.some_ne_none _, gone fd⟩, natural, ?_⟩
  rw [none]

theorem acceptPass_keeps {v : ServerView} (listens : Listens v) :
    acceptPass.wp (serverSpec Up) PassUp v := by
  have up := listens.up
  obtain ⟨natural, only⟩ := listens
  unfold acceptPass
  simp only [request, Prog.perform_bind, Prog.pure_eq]
  refine ⟨up, up, up.2, ⟨up, natural, only⟩, fun clientFd free => ⟨natural, fun same => ?_, ?_⟩⟩
  · rw [same, up.2] at free
    cases free
  · show v.sockets.put _ _ = _
    rw [only]

/-! ## `http_server_start` -/

structure StarterView where
  started : Bool
  starts : List ServiceThread
  returned : List Int

def Service.starterView (s : Service) : StarterView := ⟨s.started, s.starts, s.returned⟩

/-- The calls of `http_server_start`: it starts no thread twice, and none once it has been
called before. -/
def starterSpec : Spec ServiceCall.Answer StarterView := fun c post v =>
  match c with
  | .startedCas => (v.started = false → post true { v with started := true }) ∧
      (v.started = true → post false v)
  | .threadStart thread => thread ∉ v.starts ∧ v.returned = [] ∧
      (thread = .http ∨ thread = .mdns) ∧ post () { v with starts := thread :: v.starts }
  | _ => False

/-- No call is under way. -/
def Rested (v : StarterView) : Prop :=
  (v.started = false ∧ v.starts = [] ∧ v.returned = []) ∨
    (v.started = true ∧ v.starts = [.mdns, .http])

def StarterAt (v : StarterView) : Option (ServiceProg Int) → Prop
  | none => Rested v
  | some rest => rest.wp starterSpec
      (fun ret v => ret = 0 ∧ v.started = true ∧ v.starts = [.mdns, .http]) v

theorem httpServerStart_keeps {v : StarterView} (rested : Rested v) :
    httpServerStart.wp starterSpec
      (fun ret v => ret = 0 ∧ v.started = true ∧ v.starts = [.mdns, .http]) v := by
  unfold httpServerStart
  simp only [request, Prog.perform_bind, Prog.pure_eq]
  refine ⟨fun first => ?_, fun again => ?_⟩
  · rcases rested with ⟨-, starts, returned⟩ | ⟨started, -⟩
    · simp only [Prog.wp_ite]
      refine ⟨fun lost => absurd (by decide) lost, fun _ => ⟨?_, returned, .inl rfl, ?_⟩⟩
      · rw [starts]
        exact List.not_mem_nil
      refine ⟨?_, returned, .inr rfl, rfl, rfl, ?_⟩
      · show ServiceThread.mdns ∉ ServiceThread.http :: v.starts
        rw [starts]
        decide
      · show ServiceThread.mdns :: ServiceThread.http :: v.starts = _
        rw [starts]
    · exact absurd (first.symm.trans started) Bool.false_ne_true
  · rcases rested with ⟨started, -⟩ | ⟨started, starts⟩
    · exact absurd (started.symm.trans again) Bool.false_ne_true
    · exact ⟨rfl, started, starts⟩

/-! ## The invariant -/

structure ServiceInv (host : Hostname) (s : Service) : Prop where
  apart : s.Apart
  idle : s.server ≠ .running .handling → s.device.http = none
  server : ServerAt s.serverView s.server
  announcer : AnnouncerAt host s.announcerView s.announcer
  starter : StarterAt s.starterView s.starter
  once : s.starts.Nodup
  serverStarted : s.server = .dormant ↔ .http ∉ s.starts
  announcerStarted : s.announcer = .dormant ↔ .mdns ∉ s.starts
  returned : (∀ ret ∈ s.returned, ret = 0) ∧ (s.returned ≠ [] → s.starts = [.mdns, .http])

namespace ServiceInv

variable {host : Hostname} {s t : Service}

theorem start (d : State) (idle : d.http = none) : ServiceInv host { device := d } where
  apart := fun _ some => absurd rfl some
  idle := fun _ => idle
  server := ⟨(by decide : (-1 : Int) < 0), rfl⟩
  announcer := trivial
  starter := .inl ⟨rfl, rfl, rfl⟩
  once := List.nodup_nil
  serverStarted := by simp
  announcerStarted := by simp
  returned := ⟨fun _ member => absurd member List.not_mem_nil, fun some => absurd rfl some⟩

/-- `http_thread` has moved on. -/
theorem server_moves (inv : ServiceInv host s) {code : ServerCode}
    (server : ServerAt s.serverView (.running code)) (running : s.server ≠ .dormant)
    (idle : code ≠ .handling → s.device.http = none) :
    ServiceInv host { s with server := .running code } where
  apart := inv.apart
  idle := fun other => idle fun same => other (by rw [same])
  server := server
  announcer := inv.announcer
  starter := inv.starter
  once := inv.once
  serverStarted := iff_of_false (by simp) fun unstarted => running (inv.serverStarted.mpr unstarted)
  announcerStarted := inv.announcerStarted
  returned := inv.returned

/-- `mdns_announce_thread` has moved on. -/
theorem announcer_moves (inv : ServiceInv host s) {code : AnnouncerCode} {said : List Said}
    (announcer : AnnouncerAt host ⟨s.sockets.dgrams, said⟩ (.running code))
    (running : s.announcer ≠ .dormant) :
    ServiceInv host { s with said, announcer := .running code } where
  apart := inv.apart
  idle := inv.idle
  server := inv.server
  announcer := announcer
  starter := inv.starter
  once := inv.once
  serverStarted := inv.serverStarted
  announcerStarted :=
    iff_of_false (by simp) fun unstarted => running (inv.announcerStarted.mpr unstarted)
  returned := inv.returned

theorem serverCall (inv : ServiceInv host s) {W : ServerView → Prop} {oracle : ServiceOracle}
    {c : ServiceCall} {r : c.Answer} {post : c.Answer → ServerView → Prop}
    (spec : serverSpec W c post s.serverView) (running : s.server ≠ .dormant)
    (notHandling : s.server ≠ .running .handling)
    (hexec : serviceExec .http oracle c s = some (r, t)) {code : ServerCode}
    (after : post r t.serverView → ServerAt t.serverView (.running code)) :
    ServiceInv host { t with server := .running code } := by
  obtain ⟨holds, apart, same, elsewhere⟩ := server_call inv.apart spec hexec
  obtain ⟨device, sockets, serverFd, started, starter, server, announcer, starts, returned, said⟩ :=
    t
  obtain ⟨hdevice, hstarter, hserver, hannouncer, hstarted, hstarts, hreturned⟩ := elsewhere
  dsimp only at hdevice hstarter hserver hannouncer hstarted hstarts hreturned
  subst hdevice hstarter hserver hannouncer hstarted hstarts hreturned
  exact {
    apart := apart
    idle := fun _ => inv.idle notHandling
    server := after holds
    announcer := same.symm ▸ inv.announcer
    starter := inv.starter
    once := inv.once
    serverStarted :=
      iff_of_false (by simp) fun unstarted => running (inv.serverStarted.mpr unstarted)
    announcerStarted := inv.announcerStarted
    returned := inv.returned }

theorem announcerCall (inv : ServiceInv host s) {W : AnnouncerView → Prop} {oracle : ServiceOracle}
    {c : ServiceCall} {r : c.Answer} {post : c.Answer → AnnouncerView → Prop}
    (spec : announcerSpec W c post s.announcerView) (running : s.announcer ≠ .dormant)
    (hexec : serviceExec .mdns oracle c s = some (r, t)) {code : AnnouncerCode}
    (after : post r t.announcerView → AnnouncerAt host t.announcerView (.running code)) :
    ServiceInv host { t with announcer := .running code } := by
  obtain ⟨holds, apart, same, elsewhere⟩ := announcer_call inv.apart spec hexec
  obtain ⟨device, sockets, serverFd, started, starter, server, announcer, starts, returned, said⟩ :=
    t
  obtain ⟨hdevice, hstarter, hserver, hannouncer, hstarted, hstarts, hreturned⟩ := elsewhere
  dsimp only at hdevice hstarter hserver hannouncer hstarted hstarts hreturned
  subst hdevice hstarter hserver hannouncer hstarted hstarts hreturned
  exact {
    apart := apart
    idle := inv.idle
    server := same.symm ▸ inv.server
    announcer := after holds
    starter := inv.starter
    once := inv.once
    serverStarted := inv.serverStarted
    announcerStarted :=
      iff_of_false (by simp) fun unstarted => running (inv.announcerStarted.mpr unstarted)
    returned := inv.returned }

/-- The starter starts a thread, which has not been started before. -/
theorem starterCall (inv : ServiceInv host s) {oracle : ServiceOracle} {c : ServiceCall}
    {k : c.Answer → ServiceProg Int} {r : c.Answer} (busy : s.starter = some (.call c k))
    (hexec : serviceExec .starter oracle c s = some (r, t)) :
    ServiceInv host { t with starter := some (k r) } := by
  have code := inv.starter
  rw [busy] at code
  cases c with
  | startedCas =>
      obtain ⟨first, again⟩ := code
      cases started : s.started with
      | false =>
          simp only [serviceExec, started] at hexec
          cases hexec
          exact { inv with starter := first started }
      | true =>
          simp only [serviceExec, started] at hexec
          cases hexec
          exact { inv with starter := again started }
  | threadStart thread =>
      obtain ⟨new, none, kind, after⟩ := code
      have none : s.returned = [] := none
      have returned : (∀ ret ∈ s.returned, ret = 0) ∧
          (s.returned ≠ [] → thread :: s.starts = [.mdns, .http]) :=
        ⟨inv.returned.1, fun some => absurd none some⟩
      have once : (thread :: s.starts).Nodup := List.nodup_cons.mpr ⟨new, inv.once⟩
      cases hexec
      rcases kind with rfl | rfl
      · have dormant := inv.serverStarted.mpr new
        have silent := inv.server
        have idle := inv.idle (by simp [dormant])
        rw [dormant] at silent
        simp only [Service.startThread, dormant]
        exact {
          apart := inv.apart
          idle := fun _ => idle
          server := httpThread_keeps silent
          announcer := inv.announcer
          starter := after
          once := once
          serverStarted := by simp
          announcerStarted := by simpa using inv.announcerStarted
          returned := returned }
      · have dormant := inv.announcerStarted.mpr new
        have start : s.startThread .mdns =
            { s with announcer := .running (.waiting waitPass), starts := .mdns :: s.starts } := by
          simp only [Service.startThread, dormant]
        rw [start]
        exact {
          apart := inv.apart
          idle := inv.idle
          server := inv.server
          announcer := waitPass_keeps _
          starter := after
          once := once
          serverStarted := by simpa using inv.serverStarted
          announcerStarted := by simp
          returned := returned }
  | _ => exact code.elim

/-- The device closes no socket of the service, and gets no connection by itself. -/
theorem deviceStep (inv : ServiceInv host s) {parse : Bytes → ParseResult} {indexHtml : Bytes}
    (reach : (device parse indexHtml (InitDone parse)).Reach anyStep s.device) {e : Event}
    {d : State} (admitted : s.admits e = true) (hstep : step parse indexHtml s.device e = some d) :
    ServiceInv host { s with device := d, sockets := s.closed e } := by
  have moved := step_moved parse hstep
  have other : ∀ fuel fd, e ≠ .accept fuel fd := by
    rintro fuel fd rfl
    exact Bool.false_ne_true admitted
  have same : s.closed e = s.sockets := by
    unfold Service.closed
    cases closes : closing s.device e with
    | none => rfl
    | some fd =>
        refine Sockets.put_same _ ?_
        by_contra some
        obtain ⟨n, is, closed⟩ := inv.apart fd some
        obtain rfl : fd = n := Int.ofNat.inj is
        exact Bool.false_ne_true (closed.symm.trans (closing_open reach closes))
  rw [same]
  exact {
    apart := fun fd some => by
      obtain ⟨n, is, closed⟩ := inv.apart fd some
      refine ⟨n, is, ?_⟩
      by_contra isOpen
      have before := moved.fds other (Bool.not_eq_false _ ▸ isOpen)
      exact Bool.false_ne_true (closed.symm.trans before)
    idle := fun notHandling => moved.idle other (inv.idle notHandling)
    server := inv.server
    announcer := inv.announcer
    starter := inv.starter
    once := inv.once
    serverStarted := inv.serverStarted
    announcerStarted := inv.announcerStarted
    returned := inv.returned }

/-- The accepted connection is handed to the device. -/
theorem handleStep (inv : ServiceInv host s) {parse : Bytes → ParseResult} {indexHtml : Bytes}
    {fuel : Nat} {clientFd : Fd} {d : State}
    (busy : s.server = .running (.accepting (.ret (some clientFd))))
    (hstep : step parse indexHtml s.device (.accept fuel clientFd) = some d) :
    ServiceInv host { s with
      device := d, sockets := s.sockets.put clientFd none, server := .running .handling } := by
  have code := inv.server
  rw [busy] at code
  obtain ⟨natural, apartFd, only⟩ := code
  have accepted : s.serverView.sockets clientFd = some .accepted := by
    rw [only]
    exact Sockets.put_self _ _ _
  have is := (Sockets.streams_some _ accepted).1
  cases step_moved parse hstep with
  | accept idle unused =>
      exact {
        apart := fun fd some => by
          by_cases here : fd = clientFd
          · exact absurd (by rw [here]; exact Sockets.put_self _ _ _) some
          obtain ⟨n, rfl, closed⟩ := inv.apart fd fun gone =>
            some ((Sockets.put_other _ here _).trans gone)
          refine ⟨n, rfl, ?_⟩
          have differ : n ≠ clientFd := fun same => here (congrArg Int.ofNat same)
          show (decide (n = clientFd) || s.device.shared.openFds n) = false
          rw [closed, decide_eq_false differ]
          rfl
        idle := fun notHandling => absurd rfl notHandling
        server := by
          refine ⟨natural, ?_⟩
          show (s.sockets.put clientFd none).streams = _
          rw [Sockets.streams_put _ _ (Option.some_ne_none _).symm,
            show s.sockets.streams = _ from only, Sockets.put_put]
          exact Sockets.put_same _ (Sockets.put_other _ apartFd _)
        announcer := by
          have same : (s.sockets.put clientFd none).dgrams = s.sockets.dgrams :=
            Sockets.dgrams_put _ (by simp [is]) (Option.some_ne_none _).symm
          show AnnouncerAt host ⟨(s.sockets.put clientFd none).dgrams, s.said⟩ _
          rw [same]
          exact inv.announcer
        starter := inv.starter
        once := inv.once
        serverStarted := iff_of_false (by simp) fun unstarted => by
          have dormant := inv.serverStarted.mpr unstarted
          rw [busy] at dormant
          cases dormant
        announcerStarted := inv.announcerStarted
        returned := inv.returned }

theorem step (inv : ServiceInv host s) {parse : Bytes → ParseResult} {indexHtml : Bytes}
    (reach : (device parse indexHtml (InitDone parse)).Reach anyStep s.device) {e : ServiceEvent}
    (hstep : serviceStep parse indexHtml host s e = some t) : ServiceInv host t := by
  have server := inv.server
  have announcer := inv.announcer
  have starter := inv.starter
  cases serviceStep_moved parse indexHtml host hstep with
  | call idle =>
      rw [idle] at starter
      exact { inv with starter := httpServerStart_keeps starter }
  | returned busy =>
      rw [busy] at starter
      obtain ⟨rfl, started, starts⟩ := starter
      exact { inv with
        starter := .inr ⟨started, starts⟩
        returned := ⟨fun ret member => (List.mem_cons.mp member).elim id (inv.returned.1 ret),
          fun _ => starts⟩ }
  | starterCall busy hexec => exact inv.starterCall busy hexec
  | listens busy =>
      rw [busy] at server
      exact inv.server_moves (acceptPass_keeps server) (by simp [busy])
        fun _ => inv.idle (by simp [busy])
  | ends busy =>
      rw [busy] at server
      exact { inv with
        idle := fun _ => inv.idle (by simp [busy])
        server := server
        serverStarted := iff_of_false (by simp) fun unstarted => by
          have dormant := inv.serverStarted.mpr unstarted
          rw [busy] at dormant
          cases dormant }
  | startingCall busy hexec =>
      rw [busy] at server
      exact inv.serverCall (W := fun _ => True) server (by simp [busy]) (by simp [busy]) hexec id
  | again busy =>
      rw [busy] at server
      exact inv.server_moves (acceptPass_keeps server) (by simp [busy])
        fun _ => inv.idle (by simp [busy])
  | handle busy accepts => exact inv.handleStep busy accepts
  | acceptingCall busy hexec =>
      rw [busy] at server
      exact inv.serverCall (W := Up) server (by simp [busy]) (by simp [busy]) hexec id
  | handled busy idle =>
      rw [busy] at server
      exact inv.server_moves (acceptPass_keeps server) (by simp [busy]) fun _ => idle
  | waited busy => exact inv.announcer_moves (mdnsSocket_keeps _) (by simp [busy])
  | waits busy => exact inv.announcer_moves (waitPass_keeps _) (by simp [busy])
  | waitingCall busy hexec =>
      rw [busy] at announcer
      exact inv.announcerCall (W := fun _ => True) announcer (by simp [busy]) hexec id
  | noSocket busy =>
      exact { inv with
        announcer := trivial
        announcerStarted := iff_of_false (by simp) fun unstarted => by
          have dormant := inv.announcerStarted.mpr unstarted
          rw [busy] at dormant
          cases dormant }
  | @announces oracle stack sock busy =>
      rw [busy] at announcer
      exact inv.announcer_moves (announcePass_keeps ⟨announcer sock rfl, 0, .start, rfl⟩)
        (by simp [busy])
  | openingCall busy hexec =>
      rw [busy] at announcer
      exact inv.announcerCall (W := fun _ => True) announcer (by simp [busy]) hexec id
  | announced busy =>
      rw [busy] at announcer
      exact inv.announcer_moves (announcePass_keeps announcer) (by simp [busy])
  | announcingCall busy hexec =>
      rw [busy] at announcer
      exact inv.announcerCall announcer (by simp [busy]) hexec id
  | device admitted moves => exact inv.deviceStep reach admitted moves

/-- The service steps the device, or leaves it alone. -/
theorem device_step (inv : ServiceInv host s) {parse : Bytes → ParseResult} {indexHtml : Bytes}
    {e : ServiceEvent} (hstep : serviceStep parse indexHtml host s e = some t) :
    t.device = s.device ∨ ∃ e', Device.step parse indexHtml s.device e' = some t.device := by
  have server := inv.server
  have announcer := inv.announcer
  have starter := inv.starter
  cases serviceStep_moved parse indexHtml host hstep with
  | @starterCall _ c _ _ _ busy hexec =>
      rw [busy] at starter
      cases c with
      | startedCas =>
          simp only [serviceExec] at hexec
          split at hexec <;> cases hexec <;> exact .inl rfl
      | threadStart thread =>
          cases hexec
          refine .inl ?_
          simp only [Service.startThread]
          split <;> rfl
      | _ => exact starter.elim
  | startingCall busy hexec =>
      rw [busy] at server
      exact .inl (server_call (W := fun _ => True) inv.apart server hexec).2.2.2.device
  | acceptingCall busy hexec =>
      rw [busy] at server
      exact .inl (server_call (W := Up) inv.apart server hexec).2.2.2.device
  | waitingCall busy hexec =>
      rw [busy] at announcer
      exact .inl (announcer_call (W := fun _ => True) inv.apart announcer hexec).2.2.2.device
  | openingCall busy hexec =>
      rw [busy] at announcer
      exact .inl (announcer_call (W := fun _ => True) inv.apart announcer hexec).2.2.2.device
  | announcingCall busy hexec =>
      rw [busy] at announcer
      exact .inl (announcer_call inv.apart announcer hexec).2.2.2.device
  | handle busy accepts => exact .inr ⟨_, accepts⟩
  | device admitted moves => exact .inr ⟨_, moves⟩
  | _ => exact .inl rfl

end ServiceInv

/-! ## The service -/

section Service

variable {parse : Bytes → ParseResult} {indexHtml : Bytes} {host : Hostname} {s : Service}

theorem service_reach {ok : Service → ServiceEvent → Prop}
    (reach : (service parse indexHtml host).Reach ok s) :
    (device parse indexHtml (InitDone parse)).Reach anyStep s.device ∧ ServiceInv host s := by
  refine reach.invariant (I := fun s =>
    (device parse indexHtml (InitDone parse)).Reach anyStep s.device ∧ ServiceInv host s) ?_ ?_
  · rintro _ ⟨d, started, rfl⟩
    have idle : d.http = none := by
      obtain ⟨b, -, rfl⟩ := started
      rfl
    exact ⟨.start started, .start d idle⟩
  · rintro s e t ⟨reached, inv⟩ - hstep
    refine ⟨?_, inv.step reached hstep⟩
    rcases inv.device_step hstep with same | ⟨e', moves⟩
    · rw [same]
      exact reached
    · exact .next reached trivial moves

/-- With its accept loop and the threads around it, the device runs as it does alone. -/
theorem service_device (parse : Bytes → ParseResult) (indexHtml : Bytes) (host : Hostname) :
    Simulates (service parse indexHtml host) anyStep (device parse indexHtml (InitDone parse))
      anyStep fun s d => s.device = d := by
  constructor
  · rintro _ ⟨d, started, rfl⟩
    exact ⟨d, started, rfl⟩
  · rintro s e t _ reach - rfl - hstep
    rcases (service_reach reach).2.device_step hstep with same | ⟨e', moves⟩
    · exact ⟨s.device, .refl, same⟩
    · exact ⟨t.device, .one trivial moves, rfl⟩

/-- `http_thread` is past its start and has not ended. -/
def KThread.serves : KThread ServerCode → Bool
  | .running (.accepting _) | .running .handling => true
  | _ => false

/-- The connection that `http_thread` is about to handle. -/
def KThread.accepted : KThread ServerCode → Option Fd
  | .running (.accepting (.ret clientFd)) => clientFd
  | _ => none

/-- The socket that `mdns_announce_thread` announces on. -/
def KThread.announces : KThread AnnouncerCode → Option Fd
  | .running (.announcing sock _) => some sock
  | _ => none

/-- What the server has, and what it leaves. -/
structure Serving (parse : Bytes → ParseResult) (indexHtml : Bytes) (s : Service) : Prop where
  listening : s.server.serves → 0 ≤ s.serverFd ∧ s.sockets s.serverFd = some .listening ∧
    s.device.shared.openFds s.serverFd.toNat = false
  ended : s.server = .ended →
    s.serverFd < 0 ∧ ∀ fd, s.sockets fd = none ∨ s.sockets fd = some .dgram
  next : ∀ clientFd, s.server.accepted = some clientFd →
    ∀ fuel, (step parse indexHtml s.device (.accept fuel clientFd)).isSome

/-- Once the server listens, its socket is never lost to anybody's `close`, and every
connection that it accepts can be handled; if it fails to listen, it leaves no socket. -/
theorem service_serves (reach : (service parse indexHtml host).Reach anyStep s) :
    Serving parse indexHtml s := by
  obtain ⟨-, inv⟩ := service_reach reach
  have at_server := inv.server
  refine ⟨fun serves => ?_, fun ended => ?_, fun clientFd busy fuel => ?_⟩
  · have up : Up s.serverView := by
      cases code : s.server with
      | dormant | ended =>
          rw [code] at serves
          cases serves
      | running code' =>
          rw [code] at at_server serves
          cases code' with
          | starting => cases serves
          | handling => exact Listens.up at_server
          | accepting rest =>
              cases rest with
              | call => exact at_server.1
              | ret clientFd =>
                  cases clientFd with
                  | none => exact Listens.up at_server
                  | some clientFd => exact Accepted.up at_server
    obtain ⟨is, -⟩ := Sockets.streams_some _ up.2
    obtain ⟨n, same, closed⟩ := inv.apart s.serverFd (by
      rw [show s.sockets s.serverFd = _ from is]
      exact Option.some_ne_none _)
    refine ⟨up.1, is, ?_⟩
    rw [same]
    exact closed
  · rw [ended] at at_server
    obtain ⟨negative, none⟩ := at_server
    refine ⟨negative, fun fd => ?_⟩
    have gone : s.sockets.streams fd = Option.none := congrFun none fd
    unfold Sockets.streams at gone
    split at gone
    · next dgram => exact .inr dgram
    · exact .inl gone
  · have code : s.server = .running (.accepting (.ret (some clientFd))) := by
      unfold KThread.accepted at busy
      split at busy
      · next code => rw [code, busy]
      · cases busy
    rw [code] at at_server
    obtain ⟨-, -, only⟩ := at_server
    have accepted : s.serverView.sockets clientFd = some .accepted := by
      rw [only]
      exact Sockets.put_self _ _ _
    obtain ⟨is, -⟩ := Sockets.streams_some _ accepted
    obtain ⟨n, same, closed⟩ := inv.apart clientFd (by
      rw [show s.sockets clientFd = _ from is]
      exact Option.some_ne_none _)
    obtain rfl : clientFd = n := Int.ofNat.inj same
    have idle := inv.idle (by simp [code])
    simp only [step, idle, closed]
    rfl

/-- Every socket call succeeds, and the interface has a link-local address. -/
def serviceOracle (clientFd : Fd) : ServiceOracle := fun c =>
  match c with
  | .startedCas | .bind _ | .listen _ | .sendto _ _ => true
  | .serverFdGet => (0 : Int)
  | .socket .stream => some (1 : Fd)
  | .socket .dgram => some (2 : Fd)
  | .accept _ => some clientFd
  | .netIfGetConfig => some ⟨some [{
      isUsed := true
      addrType := .autoconf
      addrState := .preferred
      address := ⟨169, 254, 1, 1⟩ }]⟩
  | .threadStart _ | .serverFdSet _ | .close _ | .setMulticastTtl _ | .sleep _ => ()

/-- `http_server_start`, up to its return. -/
def startEvents : List ServiceEvent :=
  .call :: List.replicate 4 (.starter (serviceOracle 3))

/-- The server listens, a client takes the session and is gone, and the next client comes. -/
def twoClients : List ServiceEvent :=
  startEvents ++ List.replicate 9 (.server (serviceOracle 3) 0) ++
    List.replicate 8 (.device (.http {} Http.upgradeOracle [])) ++
    .device (.frame { id := 5 }) :: List.replicate 13 (.device (.ws {} hangUpOracle)) ++
    List.replicate 3 (.server (serviceOracle 3) 0)

def sampleHostname : Hostname := ⟨lit "pico", by decide, by decide, by decide⟩

/-- The service before anything has happened. -/
def sampleService : Service := { device := { shared := { bridge := Bridge.initialised true } } }

theorem sampleService_start : (service Can.parseSample [] sampleHostname).Reach anyStep
    sampleService :=
  .start ⟨_, ⟨_, Can.initDone_initialised Can.parseSample, rfl⟩, rfl⟩

theorem service_serves_twoClients : ∃ s,
    (service Can.parseSample [] sampleHostname).runs sampleService twoClients = some s ∧
      s.sockets 1 = some .listening ∧
      (step Can.parseSample [] s.device (.accept 0 3)).isSome := by
  have outcome : ((service Can.parseSample [] sampleHostname).runs sampleService twoClients).map
      (fun s => (s.serverFd, s.server.serves, s.server.accepted)) = some (1, true, some 3) := by
    decide +kernel
  obtain ⟨s, run, facts⟩ := Option.map_eq_some_iff.mp outcome
  simp only [Prod.mk.injEq] at facts
  obtain ⟨is, serves, accepted⟩ := facts
  have serving := service_serves (sampleService_start.runs run)
  have listening := (serving.listening serves).2.1
  rw [is] at listening
  exact ⟨s, run, listening, serving.next 3 accepted 0⟩

/-- While `mdns_announce_thread` announces, it does so on schedule from a socket of its own, never
faster than once a second and ten seconds apart in the long run; each packet announces an
address that the interface had as link-local and preferred when it was looked at. -/
theorem service_announces (reach : (service parse indexHtml host).Reach anyStep s) {sock : Fd}
    (announces : s.announcer.announces = some sock) :
    s.sockets sock = some .dgram ∧ OnSchedule host s.said ∧
      timeFor (sends s.said - 1) ≤ sleptFor s.said ∧
      ∀ newer packet older, s.said = newer ++ .sent packet :: older →
        ∃ cfg addr before, older = .saw cfg :: before ∧ Http.getLinkLocalAddr cfg = some addr ∧
          Dns.decode packet = some (Http.announcement host addr) := by
  obtain ⟨-, inv⟩ := service_reach reach
  have announcer := inv.announcer
  obtain ⟨rest, busy⟩ : ∃ rest, s.announcer = .running (.announcing sock rest) := by
    unfold KThread.announces at announces
    split at announces
    · next rest code =>
        cases announces
        exact ⟨rest, code⟩
    · cases announces
  rw [busy] at announcer
  have inPass : InPass host sock s.announcerView := by
    cases rest with
    | call => exact announcer.1
    | ret state => exact PassDone.inPass announcer
  obtain ⟨socket, schedule⟩ := inPass
  refine ⟨of_decide_eq_true socket, schedule, schedule.rate, fun newer packet older split => ?_⟩
  obtain ⟨cfg, addr, before, rfl, found, rfl⟩ := schedule.sent_seen split
  exact ⟨cfg, addr, before, rfl, found, Dns.decode_encode (Http.announcement_valid host addr)⟩

/-- The server has its socket, and the announcer makes one announcement. -/
def oneAnnouncement : List ServiceEvent :=
  startEvents ++ List.replicate 2 (.server (serviceOracle 3) 0) ++
    List.replicate 8 (.announcer (serviceOracle 3) fun _ => 0)

theorem service_announces_one : ∃ s,
    (service Can.parseSample [] sampleHostname).runs sampleService oneAnnouncement = some s ∧
      sends s.said = 1 ∧ s.sockets 2 = some .dgram ∧ OnSchedule sampleHostname s.said := by
  have outcome : ((service Can.parseSample [] sampleHostname).runs sampleService
      oneAnnouncement).map (fun s => (s.announcer.announces, sends s.said)) = some (some 2, 1) := by
    decide +kernel
  obtain ⟨s, run, facts⟩ := Option.map_eq_some_iff.mp outcome
  obtain ⟨announces, once⟩ := Prod.mk.inj facts
  obtain ⟨socket, schedule, -⟩ := service_announces (sampleService_start.runs run) announces
  exact ⟨s, run, once, socket, schedule⟩

/-- However often `http_server_start` is called, it succeeds, and each thread is started once. -/
theorem service_starts (reach : (service parse indexHtml host).Reach anyStep s) :
    (∀ ret ∈ s.returned, ret = 0) ∧ s.starts.Nodup ∧
      (s.returned ≠ [] → s.starts = [.mdns, .http]) ∧
      (s.server = .dormant ↔ .http ∉ s.starts) ∧ (s.announcer = .dormant ↔ .mdns ∉ s.starts) := by
  obtain ⟨-, inv⟩ := service_reach reach
  exact ⟨inv.returned.1, inv.once, inv.returned.2, inv.serverStarted, inv.announcerStarted⟩

theorem service_starts_twice : ∃ s,
    (service Can.parseSample [] sampleHostname).runs sampleService
      (startEvents ++ .call :: List.replicate 2 (.starter (serviceOracle 3))) = some s ∧
      s.returned.length = 2 ∧ s.starts = [.mdns, .http] := by
  have outcome : ((service Can.parseSample [] sampleHostname).runs sampleService
      (startEvents ++ .call :: List.replicate 2 (.starter (serviceOracle 3)))).map
        (·.returned.length) = some 2 := by decide +kernel
  obtain ⟨s, run, twice⟩ := Option.map_eq_some_iff.mp outcome
  have some : s.returned ≠ [] := fun none => by simp [none] at twice
  exact ⟨s, run, twice, (service_starts (sampleService_start.runs run)).2.2.1 some⟩

end Service

end PicoCan.Device
