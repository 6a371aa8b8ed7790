import PicoCan.Device.Storage
import PicoCan.Http.Pages

/-!
# The page over a whole run

The connections of a run are served one after another on one disk, so what an upload was told
holds until the next upload: the page is the body, and every visit in between is sent the front
of it, whatever fails, and whatever the other threads do meanwhile.
-/

namespace PicoCan.Device

open Calls Machine
open PicoCan.Can (InitDone ParseResult)
open PicoCan.Http (Confirms Disk Node Touches Uploads Visits handleClient_touches
  handleClient_visits httpHeader receivedIn sentIn startsWith textHtml putAbc userPageNotFound)

namespace Visit

/-- What has been received from the client. -/
def received (visit : Visit) : Bytes := receivedIn visit.calls

/-- What the client has been sent. -/
def sent (visit : Visit) : Bytes := sentIn visit.calls

end Visit

/-- The user page on a disk. -/
def userPage (d : Disk) : Option Node := d.node .userIndex

/-- What a connection may do to the page. -/
def PastVisit.Touched (visit : PastVisit) : Prop :=
  Touches visit.received visit.sent [] (userPage visit.before) (userPage visit.after)

/-! ## One connection -/

section Pages

variable {parse : Bytes → ParseResult} {indexHtml : Bytes} {disk : Disk} {s : Storing}

theorem Recorded.touches (record : Recorded indexHtml disk s) :
    ∀ visit ∈ s.served, visit.Touched := by
  intro visit member
  obtain ⟨w, before, inbound, unsent, -, left, drained, sent⟩ := record.alone visit member
  obtain ⟨w', run, touches⟩ := handleClient_touches indexHtml visit.fuel visit.fd unsent
  rw [run] at left drained sent
  rw [inbound, before, left, drained, sent] at touches
  exact touches

theorem Recorded.visits (record : Recorded indexHtml disk s) : ∀ visit ∈ s.served,
    ∀ header rest, Visits visit.received header rest →
      visit.sent <+: lit userPageNotFound ∨ visit.sent <+: visit.before.pageText := by
  intro visit member header rest visits
  obtain ⟨w, before, inbound, unsent, -, -, -, sent⟩ := record.alone visit member
  have is : w.inbound = visit.received := inbound
  rw [← is] at visits
  have told := handleClient_visits indexHtml visit.fuel visit.fd unsent visits
  rw [sent, before] at told
  exact told

/-! ## The connections of a run -/

theorem Chained.older {newer older : List PastVisit} (chained : Chained disk (newer ++ older)) :
    Chained disk older := by
  induction newer with
  | nil => exact chained
  | cons last newer ih => exact ih chained.2

/-- Connections that ask for no upload hand the page on. -/
theorem Chained.quiet {between older : List PastVisit} (chained : Chained disk (between ++ older))
    (touches : ∀ visit ∈ between, visit.Touched)
    (quiet : ∀ visit ∈ between, ¬ startsWith visit.received "PUT /user/index.html ") :
    userPage (leftBy disk (between ++ older)) = userPage (leftBy disk older) := by
  induction between with
  | nil => rfl
  | cons last between ih =>
      obtain ⟨found, chained⟩ := chained
      have same := (touches last (.head _)).quiet (quiet last (.head _))
      have before := ih chained (fun visit member => touches visit (.tail _ member))
        fun visit member => quiet visit (.tail _ member)
      show userPage last.after = _
      rw [same, found]
      exact before

/-- The page is the first one, or the front of one of the uploads. -/
theorem Chained.origin {served : List PastVisit} (chained : Chained disk served)
    (touches : ∀ visit ∈ served, visit.Touched) :
    userPage (leftBy disk served) = userPage disk ∨ ∃ visit ∈ served, ∃ header body len m,
      Uploads visit.received header body len ∧
        userPage (leftBy disk served) = some (.file (body.take m)) := by
  induction served with
  | nil => exact .inl rfl
  | cons last older ih =>
      obtain ⟨found, chained⟩ := chained
      have touched := touches last (.head _)
      have before := ih chained fun visit member => touches visit (.tail _ member)
      unfold PastVisit.Touched at touched
      rw [found] at touched
      show userPage last.after = _ ∨ ∃ visit ∈ last :: older, ∃ header body len m, _ ∧
        userPage last.after = _
      generalize userPage last.after = after at touched
      cases touched with
      | spared =>
          rcases before with same | ⟨visit, member, front⟩
          · exact .inl same
          · exact .inr ⟨visit, .tail _ member, front⟩
      | cut m uploads => exact .inr ⟨last, .head _, _, _, _, m, uploads, rfl⟩
      | stored uploads => exact .inr ⟨last, .head _, _, _, _, _, uploads, rfl⟩

/-- In every run a visit behind an upload that was told so, with no other upload in between, is sent
the front of that upload's page, or is told that there is none. -/
theorem page_read_back (reach : (storing parse indexHtml disk).Reach anyStep s)
    {newer between older : List PastVisit} {get put : PastVisit}
    (order : s.served = newer ++ get :: (between ++ put :: older)) (confirmed : Confirms put.sent)
    (quiet : ∀ visit ∈ between, ¬ startsWith visit.received "PUT /user/index.html ")
    {header rest : Bytes} (visits : Visits get.received header rest) :
    ∃ header body, Uploads put.received header body body.length ∧
      (get.sent <+: lit userPageNotFound ∨
        get.sent <+: httpHeader "200 OK" textHtml body.length ++ body) := by
  have record := recorded_reach reach
  have chained := record.chained
  have touches := record.touches
  have told := record.visits
  rw [order] at chained touches told
  obtain ⟨found, chained⟩ := chained.older
  obtain ⟨header', body, uploads, page⟩ :=
    (touches put (by simp)).confirmed confirmed
  refine ⟨header', body, uploads, (told get (by simp) header rest visits).imp_right fun front => ?_⟩
  have same := chained.quiet (fun visit member => touches visit (by simp [member])) quiet
  have there : get.before.node .userIndex = some (.file body) := by
    rw [found]
    exact same.trans page
  rw [← Http.Disk.pageText_file there uploads.small]
  exact front

/-- The visit of the run. -/
theorem readsBack_visits {stream : Bytes} (is : stream = readsBack) :
    Visits stream readsBack [] := by
  refine ⟨?_, ⟨by decide, by decide +kernel⟩, .inr (by decide +kernel), by decide⟩
  rw [is, List.append_nil]

theorem page_read_back_uploadThenVisit : ∃ s get put,
    (storing Can.parseSample [] Disk.blank).runs blankDevice uploadThenVisit = some s ∧
    s.served = [get, put] ∧ put.received = putAbc ++ lit "abc" ∧ ∃ header body,
      Uploads put.received header body body.length ∧ (get.sent <+: lit userPageNotFound ∨
        get.sent <+: httpHeader "200 OK" textHtml body.length ++ body) := by
  have outcome : ((storing Can.parseSample [] Disk.blank).runs blankDevice uploadThenVisit).map
      (fun s => s.served.map fun visit =>
        (visit.received, startsWith visit.sent "HTTP/1.0 201 ")) =
      some [(readsBack, false), (putAbc ++ lit "abc", true)] := by decide +kernel
  obtain ⟨s, run, facts⟩ := Option.map_eq_some_iff.mp outcome
  obtain ⟨get, last, order, got, facts⟩ := List.map_eq_cons_iff.mp facts
  obtain ⟨put, none, rfl, stored, facts⟩ := List.map_eq_cons_iff.mp facts
  obtain rfl := List.map_eq_nil_iff.mp facts
  obtain ⟨received, confirms⟩ := Prod.mk.inj stored
  have served : s.served = [] ++ get :: ([] ++ put :: []) := order
  have quiet : ∀ visit ∈ ([] : List PastVisit),
      ¬ startsWith visit.received "PUT /user/index.html " :=
    fun visit member => absurd member List.not_mem_nil
  exact ⟨s, get, put, run, order, received, page_read_back (blankDevice_start.runs run) served
    confirms quiet (readsBack_visits (Prod.mk.inj got).1)⟩

/-- In every run, when no connection is served, the page is the one that the device started with,
or the front of an upload: never a mixture of two, nor anything else. -/
theorem page_origin (reach : (storing parse indexHtml disk).Reach anyStep s)
    (idle : s.serving = none) :
    userPage s.disk = userPage disk ∨ ∃ visit ∈ s.served, ∃ header body len m,
      Uploads visit.received header body len ∧ userPage s.disk = some (.file (body.take m)) := by
  have record := recorded_reach reach
  rw [(record.idle idle).2]
  exact record.chained.origin record.touches

theorem page_origin_uploadThenVisit : ∃ s,
    (storing Can.parseSample [] Disk.blank).runs blankDevice uploadThenVisit = some s ∧
    userPage s.disk = some (.file (lit "abc")) ∧ ∃ visit ∈ s.served, ∃ header body len m,
      Uploads visit.received header body len ∧ userPage s.disk = some (.file (body.take m)) := by
  have outcome : ((storing Can.parseSample [] Disk.blank).runs blankDevice uploadThenVisit).map
      (fun s => (s.serving.isNone, userPage s.disk)) = some (true, some (.file (lit "abc"))) := by
    decide +kernel
  obtain ⟨s, run, facts⟩ := Option.map_eq_some_iff.mp outcome
  obtain ⟨idle, page⟩ := Prod.mk.inj facts
  have origin := page_origin (blankDevice_start.runs run) (Option.isNone_iff_eq_none.mp idle)
  refine ⟨s, run, page, origin.resolve_left ?_⟩
  rw [page]
  exact Option.some_ne_none _

end Pages

end PicoCan.Device
