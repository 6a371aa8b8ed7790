import PicoCan.Device.Service

/-!
# When and what is announced

`Scheduled` says what the second loop of `mdns_announce_thread` is for: each pass looks for
an address, and announces it or tries again soon; the first twenty announcements are a
second apart, later ones ten. The passes of the source keep to it at every call.
-/

namespace PicoCan.Device

open Calls
open PicoCan.Http (AnnounceState Fd Hostname Ipv4Config ServiceCall announcePass announcement
  announcement_sent buildMdnsHttpAnnouncement getLinkLocalAddr mdnsFastAnnounceCount mdnsSocket
  packetMax request waitPass)

/-! ## The schedule -/

/-- How long to wait behind an announcement that `n` others went before, in milliseconds. -/
def pauseAfter (n : Nat) : Nat := if n < mdnsFastAnnounceCount then 1000 else 10000

/-- Whole passes with `n` announcements, newest first. -/
inductive Scheduled (host : Hostname) : Nat → List Said → Prop
  | start : Scheduled host 0 []
  | missed {n : Nat} {said : List Said} {cfg : Option Ipv4Config} (before : Scheduled host n said)
      (none : getLinkLocalAddr cfg = none) :
      Scheduled host n (.slept 250 :: .saw cfg :: said)
  | sent {n : Nat} {said : List Said} {cfg : Option Ipv4Config} {addr : Dns.Ipv4}
      (before : Scheduled host n said) (found : getLinkLocalAddr cfg = some addr) :
      Scheduled host (n + 1) (.slept (pauseAfter n) ::
        .sent (Dns.encode (announcement host addr)) :: .saw cfg :: said)

/-- What there is of a pass before it ends. -/
inductive Unfinished (host : Hostname) : List Said → Prop
  | none : Unfinished host []
  | looked (cfg : Option Ipv4Config) : Unfinished host [.saw cfg]
  | sent {cfg : Option Ipv4Config} {addr : Dns.Ipv4} (found : getLinkLocalAddr cfg = some addr) :
      Unfinished host [.sent (Dns.encode (announcement host addr)), .saw cfg]

/-- Whole passes, and perhaps a part of one more. -/
def OnSchedule (host : Hostname) (said : List Said) : Prop :=
  ∃ n done recent, said = recent ++ done ∧ Scheduled host n done ∧ Unfinished host recent

/-- The announcements that were made. -/
def sends : List Said → Nat
  | [] => 0
  | .sent _ :: older => sends older + 1
  | _ :: older => sends older

/-- How long the thread has slept. -/
def sleptFor : List Said → Nat
  | [] => 0
  | .slept ms :: older => sleptFor older + ms
  | _ :: older => sleptFor older

/-- How long it takes at least to be done with `n` announcements. -/
def timeFor (n : Nat) : Nat :=
  1000 * min n mdnsFastAnnounceCount + 10000 * (n - mdnsFastAnnounceCount)

section Scheduled

variable {host : Hostname} {n : Nat} {said : List Said}

theorem timeFor_succ (n : Nat) : timeFor (n + 1) = timeFor n + pauseAfter n := by
  unfold timeFor pauseAfter mdnsFastAnnounceCount
  split <;> omega

theorem Scheduled.sends (scheduled : Scheduled host n said) : sends said = n := by
  induction scheduled with
  | start => rfl
  | missed before none ih => exact ih
  | sent before found ih => exact congrArg (· + 1) ih

theorem Scheduled.sleptFor (scheduled : Scheduled host n said) : timeFor n ≤ sleptFor said := by
  induction scheduled with
  | start => exact Nat.zero_le _
  | missed before none ih => exact Nat.le_trans ih (Nat.le_add_right _ _)
  | sent before found ih =>
      rw [timeFor_succ]
      exact Nat.add_le_add_right ih _

theorem sends_append (recent done : List Said) :
    Device.sends (recent ++ done) = Device.sends recent + Device.sends done := by
  induction recent with
  | nil => exact (Nat.zero_add _).symm
  | cons first rest ih =>
      cases first with
      | sent packet =>
          show Device.sends (rest ++ done) + 1 = Device.sends rest + 1 + Device.sends done
          rw [ih]
          omega
      | saw | slept => exact ih

theorem sleptFor_append (recent done : List Said) :
    Device.sleptFor done ≤ Device.sleptFor (recent ++ done) := by
  induction recent with
  | nil => exact Nat.le_refl _
  | cons first rest ih =>
      cases first with
      | slept ms => exact Nat.le_trans ih (Nat.le_add_right _ _)
      | saw | sent => exact ih

theorem Unfinished.sends {recent : List Said} (unfinished : Unfinished host recent) :
    Device.sends recent ≤ 1 := by
  cases unfinished with
  | none | looked => exact Nat.zero_le _
  | sent => exact Nat.le_refl _

/-- However the passes fall, the last announcement apart each one has been waited for. -/
theorem OnSchedule.rate (schedule : OnSchedule host said) :
    timeFor (sends said - 1) ≤ sleptFor said := by
  obtain ⟨n, done, recent, rfl, scheduled, unfinished⟩ := schedule
  have slower {a b : Nat} (le : a ≤ b) : timeFor a ≤ timeFor b := by
    unfold timeFor mdnsFastAnnounceCount
    omega
  have few : sends (recent ++ done) - 1 ≤ n := by
    rw [sends_append, scheduled.sends]
    have one := unfinished.sends
    omega
  exact Nat.le_trans (slower few) (Nat.le_trans scheduled.sleptFor (sleptFor_append recent done))

theorem Scheduled.sent_seen (scheduled : Scheduled host n said) {newer older : List Said}
    {packet : Bytes} (split : said = newer ++ .sent packet :: older) :
    ∃ cfg addr rest, older = .saw cfg :: rest ∧ getLinkLocalAddr cfg = some addr ∧
      packet = Dns.encode (announcement host addr) := by
  induction scheduled generalizing newer with
  | start => exact absurd split.symm (List.append_ne_nil_of_right_ne_nil _ (List.cons_ne_nil _ _))
  | missed before none ih =>
      rcases newer with _ | ⟨first, _ | ⟨second, newer⟩⟩
      · cases split
      · cases split
      · exact ih (List.cons.inj (List.cons.inj split).2).2
  | @sent _ said cfg addr before found ih =>
      rcases newer with _ | ⟨first, _ | ⟨second, _ | ⟨third, newer⟩⟩⟩
      · cases split
      · cases split
        exact ⟨cfg, addr, said, rfl, found, rfl⟩
      · cases split
      · exact ih (List.cons.inj (List.cons.inj (List.cons.inj split).2).2).2

/-- Whatever was sent announces an address that was seen right before. -/
theorem OnSchedule.sent_seen (schedule : OnSchedule host said) {newer older : List Said}
    {packet : Bytes} (split : said = newer ++ .sent packet :: older) :
    ∃ cfg addr rest, older = .saw cfg :: rest ∧ getLinkLocalAddr cfg = some addr ∧
      packet = Dns.encode (announcement host addr) := by
  obtain ⟨n, done, recent, rfl, scheduled, unfinished⟩ := schedule
  cases unfinished with
  | none => exact scheduled.sent_seen split
  | looked cfg =>
      rcases newer with _ | ⟨first, newer⟩
      · cases split
      · exact scheduled.sent_seen (List.cons.inj split).2
  | @sent cfg addr found =>
      rcases newer with _ | ⟨first, _ | ⟨second, newer⟩⟩
      · cases split
        exact ⟨cfg, addr, done, rfl, found, rfl⟩
      · cases split
      · exact scheduled.sent_seen (List.cons.inj (List.cons.inj split).2).2

end Scheduled

/-! ## The thread -/

/-- What the thread has: its sockets, and what it has said. -/
structure AnnouncerView where
  dgram : Int → Bool
  said : List Said

/-- The calls of `mdns_announce_thread`, each made where `W` holds. -/
def announcerSpec (W : AnnouncerView → Prop) : Spec ServiceCall.Answer AnnouncerView :=
  fun c post v => W v ∧
    match c with
    | .serverFdGet => ∀ fd : Int, post fd v
    | .socket .dgram => post none v ∧
        ∀ fd : Fd, post (some fd) { v with dgram := fun f => f = fd || v.dgram f }
    | .setMulticastTtl _ => post () v
    | .netIfGetConfig => ∀ cfg : Option Ipv4Config, post cfg { v with said := .saw cfg :: v.said }
    | .sendto fd packet => v.dgram fd = true ∧
        ∀ ok : Bool, post ok { v with said := .sent packet :: v.said }
    | .sleep ms => post () { v with said := .slept ms :: v.said }
    | _ => False

/-- Between two passes of the second loop. -/
structure PassDone (host : Hostname) (sock : Fd) (state : AnnounceState) (v : AnnouncerView) :
    Prop where
  socket : v.dgram sock = true
  schedule : ∃ n, Scheduled host n v.said ∧ state.fastAnnounces = min n mdnsFastAnnounceCount

/-- At every call of the second loop. -/
structure InPass (host : Hostname) (sock : Fd) (v : AnnouncerView) : Prop where
  socket : v.dgram sock = true
  schedule : OnSchedule host v.said

theorem PassDone.inPass {host : Hostname} {sock : Fd} {state : AnnounceState} {v : AnnouncerView}
    (between : PassDone host sock state v) : InPass host sock v := by
  obtain ⟨n, scheduled, -⟩ := between.schedule
  exact ⟨between.socket, n, v.said, [], rfl, scheduled, .none⟩

theorem announcePass_keeps {host : Hostname} {sock : Fd} {state : AnnounceState}
    {v : AnnouncerView} (between : PassDone host sock state v) :
    (announcePass host sock state).wp (announcerSpec (InPass host sock))
      (PassDone host sock) v := by
  have start := between.inPass
  obtain ⟨socket, n, scheduled, fast⟩ := between
  unfold announcePass
  simp only [request, Prog.perform_bind, Prog.pure_eq]
  refine ⟨start, fun cfg => ?_⟩
  have looked : InPass host sock { v with said := .saw cfg :: v.said } :=
    ⟨socket, n, v.said, [.saw cfg], rfl, scheduled, .looked cfg⟩
  cases found : getLinkLocalAddr cfg with
  | none =>
      simp only [found]
      refine ⟨looked, ?_⟩
      exact ⟨socket, n, .missed scheduled found, fast⟩
  | some addr =>
      have bytes := announcement_sent host state.packet addr
      simp only [found]
      generalize (buildMdnsHttpAnnouncement host state.packet packetMax addr).1.slice 0
        (buildMdnsHttpAnnouncement host state.packet packetMax addr).2 = packet at bytes ⊢
      subst bytes
      have sent : InPass host sock { v with
          said := .sent (Dns.encode (announcement host addr)) :: .saw cfg :: v.said } :=
        ⟨socket, n, v.said, [.sent (Dns.encode (announcement host addr)), .saw cfg], rfl,
          scheduled, .sent found⟩
      refine ⟨looked, socket, fun ok => ?_⟩
      by_cases early : state.fastAnnounces < mdnsFastAnnounceCount
      · rw [if_pos early]
        have pause : pauseAfter n = 1000 := if_pos (by omega)
        refine ⟨sent, socket, n + 1, ?_, ?_⟩
        · rw [← pause]
          exact .sent scheduled found
        · show state.fastAnnounces + 1 = _
          omega
      · rw [if_neg early]
        have pause : pauseAfter n = 10000 := if_neg (by omega)
        refine ⟨sent, socket, n + 1, ?_, ?_⟩
        · rw [← pause]
          exact .sent scheduled found
        · show state.fastAnnounces = _
          omega

/-- In each of its loops the thread keeps to what it is there for. -/
def AnnouncerAt (host : Hostname) (v : AnnouncerView) : KThread AnnouncerCode → Prop
  | .dormant | .ended => True
  | .running (.waiting rest) => rest.wp (announcerSpec fun _ => True) (fun _ _ => True) v
  | .running (.opening rest) => rest.wp (announcerSpec fun _ => True)
      (fun sock v => ∀ fd, sock = some fd → v.dgram fd = true) v
  | .running (.announcing sock rest) =>
      rest.wp (announcerSpec (InPass host sock)) (PassDone host sock) v

theorem waitPass_keeps (v : AnnouncerView) :
    waitPass.wp (announcerSpec fun _ => True) (fun _ _ => True) v := by
  unfold waitPass
  simp only [request, Prog.perform_bind, Prog.pure_eq]
  refine ⟨trivial, fun fd => ?_⟩
  simp only [Prog.wp_ite]
  exact ⟨fun _ => ⟨trivial, trivial⟩, fun _ => trivial⟩

theorem mdnsSocket_keeps (v : AnnouncerView) : mdnsSocket.wp (announcerSpec fun _ => True)
    (fun sock v => ∀ fd, sock = some fd → v.dgram fd = true) v := by
  refine ⟨trivial, fun fd none => ?_, fun fd => ⟨trivial, fun fd' same => ?_⟩⟩
  · cases none
  · cases same
    simp

end PicoCan.Device
