import PicoCan.Calls.TwoRuns
import PicoCan.Http.RoundTrip

/-!
# Uploads that fail

The page is truncated when it is opened, before the first byte of the body has been read, and
nothing puts it back. What a later visit is sent depends on the page and on whether the
storage can be mounted, so a failed upload is noticed exactly where it got as far as opening
the page and left something else in it.
-/

namespace PicoCan.Http

open Calls
open PicoCan.Can (Errno)

/-! ## Two visits -/

/-- Two worlds in which a visit to the page goes alike. -/
structure SameVisit (w w' : World) : Prop where
  fates : ∀ kind, kind ≠ .statvfs → kind ≠ .other → w.fates kind = w'.fates kind
  sent : w.sent = w'.sent
  inbound : w.inbound = w'.inbound
  ending : w.ending = w'.ending
  page : w.disk.node .userIndex = w'.disk.node .userIndex
  outcome : w.disk.mountOutcome = w'.disk.mountOutcome

/-- The same, with the page open for reading at the same position. -/
def SameRead (w w' : World) : Prop :=
  SameVisit w w' ∧ ∃ pos, w.disk.file = some ⟨.userIndex, { read := true }, pos⟩ ∧
    w'.disk.file = some ⟨.userIndex, { read := true }, pos⟩

theorem SameVisit.fate {w w' : World} (same : SameVisit w w') (kind : Kind)
    (known : kind ≠ .statvfs) (known' : kind ≠ .other) : w.fate kind = w'.fate kind := by
  unfold World.fate
  rw [same.fates kind known known']

theorem SameVisit.fatesAfter {w w' : World} (same : SameVisit w w') (kind k : Kind)
    (known : k ≠ .statvfs) (known' : k ≠ .other) : w.fatesAfter kind k = w'.fatesAfter kind k := by
  unfold World.fatesAfter
  rw [same.fates k known known']

/-- The calls of a visit outside the mount and the file. -/
def VisitCall (c : HttpCall) : Prop :=
  match c with
  | .recv _ _ _ | .send _ _ | .close _ | .fs (.fsStat .userIndex) => True
  | _ => False

theorem serve_sameVisit {c : HttpCall} {w w' : World} (call : VisitCall c) (same : SameVisit w w') :
    (World.serve c w).1 = (World.serve c w').1 ∧
      SameVisit (World.serve c w).2 (World.serve c w').2 := by
  have fates (kind : Kind) : ∀ k, k ≠ .statvfs → k ≠ .other →
      w.fatesAfter kind k = w'.fatesAfter kind k := fun k => same.fatesAfter kind k
  obtain ⟨-, sent, inbound, ending, page, outcome⟩ := id same
  cases c with
  | fs c =>
      cases c with
      | fsStat path =>
          cases path with
          | userIndex =>
              have fate := same.fate .stat (by decide) (by decide)
              simp only [World.serve, HttpCall.kind, FsCall.kind, World.respond, Disk.serve, fate,
                page]
              cases (w'.fate .stat).fail with
              | some e => exact ⟨rfl, fates .stat, sent, inbound, ending, page, outcome⟩
              | none =>
                  cases w'.disk.node .userIndex with
                  | none => exact ⟨rfl, fates .stat, sent, inbound, ending, page, outcome⟩
                  | some node => exact ⟨rfl, fates .stat, sent, inbound, ending, page, outcome⟩
          | _ => exact call.elim
      | _ => exact call.elim
  | recv fd o len =>
      have fate := same.fate .recv (by decide) (by decide)
      simp only [World.serve, HttpCall.kind, World.respond, fate, inbound, ending]
      cases (w'.fate .recv).fail with
      | some e => exact ⟨rfl, fates .recv, sent, rfl, rfl, page, outcome⟩
      | none =>
          cases w'.inbound with
          | nil =>
              cases w'.ending with
              | none => exact ⟨rfl, fates .recv, sent, rfl, rfl, page, outcome⟩
              | some e => exact ⟨rfl, fates .recv, sent, rfl, rfl, page, outcome⟩
          | cons b more => exact ⟨rfl, fates .recv, sent, rfl, rfl, page, outcome⟩
  | send fd data =>
      have fate := same.fate .send (by decide) (by decide)
      simp only [World.serve, HttpCall.kind, World.respond, fate, sent]
      cases (w'.fate .send).fail with
      | some e => exact ⟨rfl, fates .send, rfl, inbound, ending, page, outcome⟩
      | none => exact ⟨rfl, fates .send, rfl, inbound, ending, page, outcome⟩
  | close fd => exact ⟨rfl, fates .other, sent, inbound, ending, page, outcome⟩
  | _ => exact call.elim

theorem alike_visit {α : Type} {p : HttpProg α} (only : p.Only VisitCall) :
    p.Alike World.serve SameVisit fun _ => SameVisit := by
  refine only.alike ?_
  intro c s s' call same
  exact serve_sameVisit call same

/-- The calls of the copy. -/
def ReadCall (c : HttpCall) : Prop :=
  match c with
  | .send _ _ | .fs (.fsRead _) => True
  | _ => False

theorem serve_sameRead {c : HttpCall} {w w' : World} (call : ReadCall c) (same : SameRead w w') :
    (World.serve c w).1 = (World.serve c w').1 ∧
      SameRead (World.serve c w).2 (World.serve c w').2 := by
  obtain ⟨visit, pos, file, file'⟩ := same
  cases c with
  | fs c =>
      cases c with
      | fsRead len =>
          have fates : ∀ k, k ≠ .statvfs → k ≠ .other →
              w.fatesAfter .read k = w'.fatesAfter .read k := fun k => visit.fatesAfter .read k
          have fate := visit.fate .read (by decide) (by decide)
          have content : w.disk.content .userIndex = w'.disk.content .userIndex := by
            rw [Disk.content, visit.page, Disk.content]
          obtain ⟨-, sent, inbound, ending, page, outcome⟩ := visit
          simp only [World.serve, HttpCall.kind, FsCall.kind, World.respond, Disk.serve, fate, file,
            file']
          cases (w'.fate .read).fail with
          | some e =>
              exact ⟨rfl, ⟨fates, sent, inbound, ending, page, outcome⟩, pos, file, file'⟩
          | none =>
              refine ⟨?_, ⟨fates, sent, inbound, ending, page, outcome⟩, _, ?_, rfl⟩
              · refine congrArg Except.ok (Subtype.ext ?_)
                exact congrArg (fun bytes => (bytes.drop pos).take ((w'.fate .read).upTo len))
                  content
              · show some (OpenFile.mk _ _ (pos + List.length _)) =
                    some (OpenFile.mk _ _ (pos + List.length _))
                rw [content]
      | _ => exact call.elim
  | send fd data =>
      obtain ⟨answer, after⟩ := serve_sameVisit (show VisitCall (.send fd data) from trivial) visit
      have stays (s : World) : (World.serve (.send fd data) s).2.disk = s.disk := by
        simp only [World.serve, World.respond]
        split <;> rfl
      refine ⟨answer, after, pos, ?_, ?_⟩
      · rw [stays, file]
      · rw [stays, file']
  | _ => exact call.elim

theorem MountCall.kind {c : HttpCall} (call : MountCall c) :
    c.kind = .statvfs ∨ c.kind = .other := by
  cases c with
  | fs c =>
      cases c with
      | fsStatvfs => exact .inl rfl
      | fsStat | fsMkdir | fsOpen | fsRead | fsWrite | fsSync | fsClose => exact call.elim
      | _ => exact .inr rfl
  | _ => exact call.elim

/-- Mounting goes alike. -/
theorem storageMountOnce_alike :
    storageMountOnce.Alike World.serve SameVisit fun _ => SameVisit := by
  intro w w' same
  obtain ⟨w₁, run, files, mounted⟩ := storageMountOnce_run w
  obtain ⟨w₁', run', files', mounted'⟩ := storageMountOnce_run w'
  have kept (s : World) {kind : Kind} (known : kind ≠ .statvfs) (known' : kind ≠ .other) :
      (runIn storageMountOnce s).2.fates kind = s.fates kind := by
    refine run_fates (storageMountOnce_calls.mono fun c call same => ?_) s
    rcases call.kind with is | is
    · exact known (same.symm.trans is)
    · exact known' (same.symm.trans is)
  refine ⟨w.disk.mountOutcome, w₁, w₁', run, ?_, ?_⟩
  · rw [same.outcome]
    exact run'
  · have ending (s : World) : (runIn storageMountOnce s).2.ending = s.ending := by
      refine (run_inbound (storageMountOnce_calls.mono fun c call => ?_) s).2
      cases c with
      | fs => trivial
      | _ => exact call.elim
    refine ⟨fun kind known known' => ?_, ?_, ?_, ?_, ?_, ?_⟩
    · have before := kept w known known'
      have before' := kept w' known known'
      rw [run] at before
      rw [run'] at before'
      rw [before, before', same.fates kind known known']
    · rw [files.sent, files'.sent, same.sent]
    · rw [files.inbound, files'.inbound, same.inbound]
    · have before := ending w
      have before' := ending w'
      rw [run] at before
      rw [run'] at before'
      rw [before, before', same.ending]
    · rw [files.node, files'.node, same.page]
    · rw [mounted.outcome, mounted'.outcome, same.outcome]

theorem storageUserIndexSize_alike (len : Nat) :
    (storageUserIndexSize len).Alike World.serve SameVisit fun _ => SameVisit := by
  refine storageMountOnce_alike.bind fun ret =>
    .ite (fun _ => .ret fun _ _ same => same) fun _ => ?_
  refine alike_visit ⟨trivial, fun status => ?_⟩
  cases status with
  | error e => trivial
  | ok entry => exact .ite (fun _ => trivial) fun _ => trivial

theorem streamLoop_reads (fd : Fd) (fuel : Nat) :
    (streamLoop (socketWrite fd) fuel).Only ReadCall := by
  induction fuel with
  | zero => trivial
  | succ fuel ih =>
      refine ⟨trivial, fun answer => ?_⟩
      cases answer with
      | error e => trivial
      | ok buf =>
          obtain ⟨buf, fits⟩ := buf
          cases buf with
          | nil => trivial
          | cons b more =>
              exact (sendAll_only (fun _ => trivial) _).bind fun ret =>
                .ite (fun _ => trivial) fun _ => ih

/-- The copy of an open page, and the close behind it. -/
theorem streamed_alike (fd : Fd) (fuel : Nat) :
    (streamLoop (socketWrite fd) fuel >>= fun result =>
      match result with
      | none => .ret none
      | some ret => .call (.fs .fsClose) fun _ => .ret (some ret) : HttpProg (Option Int)).Alike
      World.serve SameRead fun _ => SameVisit := by
  have loop : (streamLoop (socketWrite fd) fuel).Alike World.serve SameRead fun _ => SameRead := by
    refine (streamLoop_reads fd fuel).alike ?_
    intro c s s' call same
    exact serve_sameRead call same
  refine loop.bind fun result => ?_
  cases result with
  | none => exact .ret fun _ _ same => same.1
  | some ret =>
      intro w w' same
      obtain ⟨-, sent, inbound, ending, page, outcome⟩ := same.1
      have keeps (s : World) :
          (World.serve (.fs .fsClose) s).2.disk.mountOutcome = s.disk.mountOutcome ∧
          (World.serve (.fs .fsClose) s).2.disk.node = s.disk.node := by
        simp only [World.serve, World.respond, Disk.serve]
        split <;> exact ⟨rfl, rfl⟩
      -- the answer of the close is not looked at
      refine ⟨some ret, _, _, rfl, rfl, fun k => same.1.fatesAfter .other k, sent, inbound, ending,
        ?_, ?_⟩
      · rw [(keeps w).2, (keeps w').2, page]
      · rw [(keeps w).1, (keeps w').1, outcome]

/-- Opening the page for reading depends on the page alone. -/
theorem openFile_alike {d d' : Disk} (page : d.node .userIndex = d'.node .userIndex) :
    ∃ ret, (ret < 0 ∧ d.openFile .userIndex { read := true } = (ret, d) ∧
        d'.openFile .userIndex { read := true } = (ret, d')) ∨
      (ret = 0 ∧ d.openFile .userIndex { read := true } =
          (ret, { d with file := some ⟨.userIndex, { read := true }, 0⟩ }) ∧
        d'.openFile .userIndex { read := true } =
          (ret, { d' with file := some ⟨.userIndex, { read := true }, 0⟩ })) := by
  simp only [Disk.openFile, page]
  cases d'.node .userIndex with
  | none => exact ⟨-eNoEnt, .inl ⟨by decide, rfl, rfl⟩⟩
  | some node =>
      cases node with
      | dir => exact ⟨-eIsDir, .inl ⟨by decide, rfl, rfl⟩⟩
      | file content => exact ⟨0, .inr ⟨rfl, rfl, rfl⟩⟩

/-- The page is opened for reading in both, or in neither. -/
theorem serve_openRead {w w' : World} (same : SameVisit w w') :
    ∃ ret s s', World.serve (.fs (.fsOpen .userIndex { read := true })) w = ((ret : Int), s) ∧
      World.serve (.fs (.fsOpen .userIndex { read := true })) w' = ((ret : Int), s') ∧
      SameVisit s s' ∧ (¬ ret < 0 → SameRead s s') := by
  have fates : ∀ k, k ≠ .statvfs → k ≠ .other → w.fatesAfter .open k = w'.fatesAfter .open k :=
    fun k => same.fatesAfter .open k
  have fate := same.fate .open (by decide) (by decide)
  obtain ⟨-, sent, inbound, ending, page, outcome⟩ := same
  have both : SameVisit { w with fates := w.fatesAfter .open }
      { w' with fates := w'.fatesAfter .open } := ⟨fates, sent, inbound, ending, page, outcome⟩
  simp only [World.serve, HttpCall.kind, FsCall.kind, World.respond, Disk.serve, fate]
  cases (w'.fate .open).fail with
  | some e => exact ⟨_, _, _, rfl, rfl, both, fun ok => absurd e.ret_neg ok⟩
  | none =>
      obtain ⟨ret, ⟨failed, first, second⟩ | ⟨rfl, first, second⟩⟩ := openFile_alike page
      · simp only [first, second]
        exact ⟨ret, _, _, rfl, rfl, both, fun ok => absurd failed ok⟩
      · have opened : SameVisit
            { w with
              fates := w.fatesAfter .open
              disk := { w.disk with file := some ⟨.userIndex, { read := true }, 0⟩ } }
            { w' with
              fates := w'.fatesAfter .open
              disk := { w'.disk with file := some ⟨.userIndex, { read := true }, 0⟩ } } :=
          ⟨fates, sent, inbound, ending, page, outcome⟩
        simp only [first, second]
        exact ⟨0, _, _, rfl, rfl, opened, fun _ => ⟨opened, 0, rfl, rfl⟩⟩

theorem storageStreamUserIndex_alike (fd : Fd) (fuel : Nat) :
    (storageStreamUserIndex fuel (socketWrite fd)).Alike World.serve SameVisit
      fun _ => SameVisit := by
  refine storageMountOnce_alike.bind fun ret =>
    .ite (fun _ => .ret fun _ _ same => same) fun _ => ?_
  intro w w' same
  obtain ⟨ret, s, s', opened, opened', visit, read⟩ := serve_openRead same
  simp only [file, perform, Prog.perform_bind, Prog.run_call, opened, opened']
  by_cases failed : ret < 0
  · simp only [if_pos failed]
    exact ⟨_, _, _, rfl, rfl, visit⟩
  · simp only [if_neg failed]
    exact streamed_alike fd fuel s s' (read failed)

theorem userPageRoute_alike (fd : Fd) (fuel : Nat) :
    (userPageRoute fuel fd).Alike World.serve SameVisit fun _ => SameVisit := by
  have closes (done : Bool) : (perform (.close fd) >>= fun _ => .ret done : HttpProg Bool).Alike
      World.serve SameVisit fun _ => SameVisit := alike_visit ⟨trivial, fun _ => trivial⟩
  refine (storageUserIndexSize_alike 0).bind fun size => .ite (fun _ => ?_) fun _ => ?_
  · exact alike_visit
      ((answer_only (fun _ _ => trivial) (fun _ => trivial) fd _).bind fun _ => trivial)
  refine .ite (fun _ => ?_) fun _ => .ite (fun _ => closes true) fun _ => ?_
  · exact alike_visit
      ((refuse_only (fun _ _ => trivial) (fun _ => trivial) fd _ _).bind fun _ => trivial)
  refine (alike_visit (sendAll_only (fun _ => trivial) _)).bind fun ret => ?_
  refine .ite (fun _ => closes true) fun _ =>
    (storageStreamUserIndex_alike fd fuel).bind fun ret => ?_
  cases ret with
  | none => exact .ret fun _ _ same => same
  | some ret => exact closes true

/-- A visit to the page is sent on the second disk what it is sent on the first. -/
def KeepsPage (d d' : Disk) : Prop :=
  ∀ (indexHtml : Bytes) (fuel : Nat) (fd : Fd) (visit : World) (request : Bytes) (headerEnd : Nat),
    visit.disk = d →
    (runIn (recvRequest fd (httpRequestMax - 1) []) visit).1 = .received request (some headerEnd) →
    GetsUserPage request →
    (runIn (handleClient indexHtml fuel fd) { visit with disk := d' }).2.sent =
      (runIn (handleClient indexHtml fuel fd) visit).2.sent

/-- What a visit is sent depends on the page and on the outcome of the mount. -/
theorem KeepsPage.of_same {d d' : Disk} (page : d'.node .userIndex = d.node .userIndex)
    (outcome : d'.mountOutcome = d.mountOutcome) : KeepsPage d d' := by
  rintro indexHtml fuel fd visit request headerEnd rfl received user
  have start : SameVisit visit { visit with disk := d' } :=
    ⟨fun _ _ _ => rfl, rfl, rfl, rfl, page.symm, outcome.symm⟩
  have receives := alike_visit (recvRequest_only (fun _ _ _ => trivial) (httpRequestMax - 1) [] :
    (recvRequest fd (httpRequestMax - 1) []).Only VisitCall)
  obtain ⟨result, w, w', (run : runIn _ _ = _), (run' : runIn _ _ = _), same⟩ := receives _ _ start
  rw [run] at received
  obtain rfl : result = .received request (some headerEnd) := received
  obtain ⟨done, s, s', (routed : runIn _ _ = _), (routed' : runIn _ _ = _), after⟩ :=
    userPageRoute_alike fd fuel w w' same
  rw [handleClient_eq, runIn_bind, runIn_bind, run, run', getsUserPage_route user, routed, routed',
    after.sent]

/-! ## What a visit says of the page -/

/-- The page can be read off the response that sends it. -/
theorem Disk.pageText_inj {d : Disk} {content : Bytes}
    (same : d.pageText = httpHeader "200 OK" textHtml content.length ++ content) :
    d.node .userIndex = some (.file content) := by
  have missing (n : Nat) (body : Bytes) :
      textResponse "404 Not Found" "user page not found\n" ≠ httpHeader "200 OK" textHtml n ++
        body :=
    httpHeader_differ (by decide) _ _ _ _ _ _
  unfold pageText at same
  cases page : d.node .userIndex with
  | none =>
      rw [page] at same
      exact absurd same (missing _ _)
  | some node =>
      rw [page] at same
      cases node with
      | dir => exact absurd same (missing _ _)
      | file stored =>
          by_cases large : stored.length > userIndexMax
          · refine absurd ((if_pos large).symm.trans same) ?_
            exact httpHeader_differ (by decide) _ _ _ _ _ _
          · replace same := (if_neg large).symm.trans same
            -- behind the first blank line of the response is the page
            have texts : Texts "200 OK" textHtml := ⟨by decide, by decide⟩
            have ends := strstr_append (httpHeader_complete texts stored).form.ends stored
            rw [same, strstr_append (httpHeader_complete texts content).form.ends content] at ends
            rw [List.append_cancel_left (Option.some.inj ends)]

theorem readBack_smooth (d : Disk) : (readBack d).Smooth := fun _ _ member => by cases member

/-- Where a visit is sent the same as before, a page that is not too large was the page before. -/
theorem KeepsPage.page {d d' : Disk} (keeps : KeepsPage d d') (mounts : ¬ d.mountOutcome < 0)
    (mounts' : ¬ d'.mountOutcome < 0) {content : Bytes}
    (page : d'.node .userIndex = some (.file content)) (small : content.length ≤ userIndexMax) :
    d.node .userIndex = some (.file content) := by
  obtain ⟨fuel, rounds⟩ : ∃ fuel, fuel = (d.content .userIndex).length + content.length + 1 :=
    ⟨_, rfl⟩
  have enough (old : Bytes) (there : d.node .userIndex = some (.file old)) : old.length < fuel := by
    have holds : d.content .userIndex = old := by rw [Disk.content, there]
    rw [rounds, holds]
    omega
  have enough' (new : Bytes) (there : d'.node .userIndex = some (.file new)) :
      new.length < fuel := by
    cases page.symm.trans there
    omega
  obtain ⟨request, is⟩ : ∃ request, request = lit "GET /user/ HTTP/1.1\r\n\r\n" := ⟨_, rfl⟩
  have received (disk : Disk) : (runIn (recvRequest 0 (httpRequestMax - 1) []) (readBack disk)).1 =
      .received request (some 19) := by
    rw [is]
    rfl
  have user : GetsUserPage request := by
    rw [is]
    exact .inr (by decide +kernel)
  have before := (visit_sends (readBack_smooth d) mounts [] 0 (received d) user enough).2
  have after := (visit_sends (readBack_smooth d') mounts' [] 0 (received d') user enough').2
  have same := keeps [] fuel 0 (readBack d) request 19 rfl (received d) user
  have sent : (readBack d).sent ++ d'.pageText = (readBack d).sent ++ d.pageText :=
    after.symm.trans (same.trans before)
  refine Disk.pageText_inj ?_
  rw [← List.append_cancel_left sent]
  exact Disk.pageText_file page small

/-! ## Uploads that fail -/

/-- However the upload of `len` bytes to this disk fails, a later visit does not notice. -/
def Spares (fd : Fd) (request : Bytes) (headerEnd len : Nat) (d : Disk) : Prop :=
  ∀ (w w' : World) (ret : Int) (reader : RequestBodyReader), w.disk = d →
    runIn (storageWriteUserIndexStream requestBodyRead len
      { fd, pending := buffered request headerEnd }) w = ((ret, reader), w') →
    ret < 0 → KeepsPage d w'.disk

/-- The file is closed with an error where the copy or the sync has failed. -/
theorem closeUserIndex_fails {ret : Int} {w : World}
    (why : ret < 0 ∨ ∃ e, (w.fate .sync).fail = some e) (remaining : Nat) :
    (runIn (closeUserIndex ret remaining) w).1 < 0 := by
  by_cases failed : ret < 0
  · exact (closeUserIndex_failed failed remaining).run World.serve w
  · obtain ⟨e, fails⟩ := why.resolve_left failed
    have answer : (World.serve (.fs .fsSync) w).1 = e.ret := by
      simp only [World.serve, HttpCall.kind, FsCall.kind, World.respond, Disk.serve, fails]
    unfold closeUserIndex
    rw [if_neg failed]
    simp only [file, perform, Prog.perform_bind, Prog.run_call]
    rw [answer, if_pos e.ret_neg]
    exact e.ret_neg

/-- Nothing is written or synced before the copy. -/
theorem openUserIndex_kinds : openUserIndex.Only fun c => c.kind ≠ .write ∧ c.kind ≠ .sync := by
  have mount : storageMountOnce.Only fun c => c.kind ≠ .write ∧ c.kind ≠ .sync :=
    storageMountOnce_calls.mono fun c call => by
      rcases call.kind with is | is
      · rw [is]
        exact ⟨by decide, by decide⟩
      · rw [is]
        exact ⟨by decide, by decide⟩
  have make : makeUserDir.Only fun c => c.kind ≠ .write ∧ c.kind ≠ .sync := by
    refine ⟨⟨Kind.noConfusion, Kind.noConfusion⟩, fun status => ?_⟩
    cases status with
    | error e =>
        exact .ite (fun _ => ⟨⟨Kind.noConfusion, Kind.noConfusion⟩, fun _ => trivial⟩)
          fun _ => trivial
    | ok entry => exact .ite (fun _ => trivial) fun _ => trivial
  refine mount.bind fun ret => .ite (fun _ => trivial) fun _ => ?_
  refine make.bind fun ret => .ite (fun _ => trivial) fun _ => ?_
  exact ⟨⟨Kind.noConfusion, Kind.noConfusion⟩, fun _ => trivial⟩

/-- An upload that gets as far as the copy and fails there or behind it: what has been copied is
the page. -/
theorem upload_fails {w : World} (can : w.disk.CanOpen) (stat : w.FineAt .stat)
    (mkdir : w.FineAt .mkdir) (opens : w.FineAt .open) {reader : RequestBodyReader} {len : Nat}
    {content : Bytes}
    (copies : ∀ w₁, Emptied w w₁ → w₁.fates .write = w.fates .write →
      w₁.fates .sync = w.fates .sync →
      ∃ ret remaining reader' w₂, runIn (copyLoop requestBodyRead len 0 len reader) w₁ =
          ((ret, remaining, reader'), w₂) ∧
        w₂.disk.node .userIndex = some (.file content) ∧
        (∀ outcome, Mounted outcome w₁ → Mounted outcome w₂) ∧
        (ret < 0 ∨ ∃ e, (w₂.fate .sync).fail = some e)) :
    ∃ ret reader' w', runIn (storageWriteUserIndexStream requestBodyRead len reader) w =
        ((ret, reader'), w') ∧
      ret < 0 ∧ w'.disk.node .userIndex = some (.file content) ∧
      w'.disk.mountOutcome = w.disk.mountOutcome := by
  have writes := run_fates (openUserIndex_kinds.mono fun _ other => other.1) w
  have syncs := run_fates (openUserIndex_kinds.mono fun _ other => other.2) w
  obtain ⟨ret, w₁, opening, mounted, outcome⟩ := openUserIndex_run w
  rw [opening] at writes syncs
  rcases outcome with ⟨-, -, unlucky⟩ | ⟨rfl, emptied, -⟩
  · exact absurd ⟨stat, mkdir, opens⟩ (unlucky can)
  obtain ⟨ret, remaining, reader', w₂, copied, page, kept, why⟩ := copies w₁ emptied writes syncs
  have failed := closeUserIndex_fails why remaining
  have files := run_sameFiles (closeUserIndex_noFile ret remaining) w₂
  have mounted' := (kept _ mounted).run (closeUserIndex_noMount ret remaining)
  rw [storageWriteUserIndexStream_eq, runIn_bind, opening]
  simp only
  rw [if_neg (by decide), runIn_bind, copied]
  simp only
  rw [runIn_bind]
  generalize runIn (closeUserIndex ret remaining) w₂ = closing at failed files mounted' ⊢
  obtain ⟨ret', w₃⟩ := closing
  exact ⟨ret', reader', w₃, rfl, failed, (congrFun files.node _).trans page, mounted'.outcome⟩

/-- Nothing is copied where the first write fails. -/
theorem copyLoop_broken {w : World} (opened : Opened w) (receives : w.FineAt .recv) {e : Errno}
    (breaks : (w.fate .write).fail = some e) (fuel : Nat) (ret : Int) {remaining : Nat}
    (left : 0 < remaining) (reader : RequestBodyReader) :
    ∃ ret' reader' w', runIn (copyLoop requestBodyRead (fuel + 1) ret remaining reader) w =
        ((ret', remaining, reader'), w') ∧ ret' < 0 ∧ w'.disk = w.disk := by
  have pos : 0 < min remaining storageIoChunk := Nat.lt_min.mpr ⟨left, by decide⟩
  have reads : (requestBodyRead reader (min remaining storageIoChunk)).Only fun c =>
      c.kind ≠ .write := requestBodyRead_only (fun _ _ _ => Kind.noConfusion) _
  have writes := run_fates reads w
  have same {w' : World} (at_w' : Uploading w [] w') : w'.disk = w.disk := by
    rw [at_w'.world]
    exact Disk.wrote_nil opened.page
  rw [copyLoop, if_neg (Nat.ne_of_gt left), runIn_bind]
  rcases requestBodyRead_fine receives (Uploading.refl opened) reader pos with
    ⟨chunk, reader', w', filled, fits, run, -, -, at_w'⟩ | ⟨-, ret', w', failed, run, -, -, at_w'⟩
  · have long := List.length_pos_iff.mpr filled
    rw [run] at writes ⊢
    simp only
    rw [if_neg (by decide), if_neg (by omega), runIn_bind]
    have fails : (w'.fate .write).fail = some e := by
      rw [World.fate, writes]
      exact breaks
    have wrote : ∃ w₂, runIn (writeLoop chunk.length 0 chunk) w' = (e.ret, w₂) ∧
        w₂.disk = w'.disk := by
      obtain ⟨fuel, enough⟩ := Nat.exists_eq_add_one.mpr long
      rw [enough, writeLoop, if_neg filled]
      simp only [file, perform, Prog.perform_bind, Prog.run_call, World.serve, HttpCall.kind,
        FsCall.kind, World.respond, Disk.serve, fails]
      exact ⟨_, rfl, rfl⟩
    obtain ⟨w₂, wrote, kept⟩ := wrote
    rw [wrote]
    simp only
    rw [if_pos e.ret_neg]
    exact ⟨e.ret, reader', w₂, rfl, e.ret_neg, kept.trans (same at_w')⟩
  · rw [run]
    simp only
    rw [if_pos failed]
    exact ⟨ret', reader, w', rfl, failed, same at_w'⟩

/-- The storage fails at the first call of a kind, and at the first sync. The client sends this and
no more. -/
def breaking (kind : Kind) (inbound : Bytes) (disk : Disk) : World where
  fates := fun k => if k = kind ∨ k = .sync then [{ fail := some errnoBadF }] else []
  inbound := inbound
  disk := disk

theorem breaking_fate {kind k : Kind} (is : k = kind ∨ k = .sync) (inbound : Bytes) (d : Disk) :
    (breaking kind inbound d).fates k = [{ fail := some errnoBadF }] := if_pos is

theorem breaking_fine {kind k : Kind} (other : ¬ (k = kind ∨ k = .sync)) (inbound : Bytes)
    (d : Disk) : (breaking kind inbound d).FineAt k := by
  intro fate member
  rw [show (breaking kind inbound d).fates k = [] from if_neg other] at member
  cases member

theorem World.fate_head {w : World} {kind : Kind} {fate : Fate} (is : w.fates kind = [fate]) :
    w.fate kind = fate := by
  rw [World.fate, is]
  rfl

/-- Where the first write fails, and the sync, the page is left empty. -/
theorem write_breaks {d : Disk} (can : d.CanOpen) (reader : RequestBodyReader) (len : Nat) :
    ∃ ret reader' w', runIn (storageWriteUserIndexStream requestBodyRead len reader)
        (breaking .write [] d) = ((ret, reader'), w') ∧
      ret < 0 ∧ w'.disk.node .userIndex = some (.file []) ∧
      w'.disk.mountOutcome = d.mountOutcome := by
  have fine {k : Kind} (other : ¬ (k = .write ∨ k = .sync)) := breaking_fine other [] d
  refine upload_fails (w := breaking .write [] d) can (fine (by decide)) (fine (by decide))
    (fine (by decide)) fun w₁ emptied writes syncs => ?_
  have breaks := congrArg Luck.fail (congrArg Fate.toLuck (World.fate_head
    (writes.trans (breaking_fate (.inl rfl) [] d))))
  have stays := congrArg Luck.fail (congrArg Fate.toLuck (World.fate_head
    (syncs.trans (breaking_fate (.inr rfl) [] d))))
  cases len with
  | zero =>
      exact ⟨0, 0, reader, w₁, rfl, emptied.opened.page, fun _ mounted => mounted,
        .inr ⟨_, stays⟩⟩
  | succ len =>
      obtain ⟨ret, reader', w₂, copied, failed, same⟩ := copyLoop_broken emptied.opened
        ((fine (by decide)).later emptied.later) breaks len 0 (Nat.succ_pos len) reader
      refine ⟨ret, _, reader', w₂, copied, ?_, fun outcome mounted => ?_, .inl failed⟩
      · rw [same]
        exact emptied.opened.page
      · rw [Mounted, same]
        exact mounted

/-- Where the sync fails, what has been sent is the page. -/
theorem sync_breaks {d : Disk} (can : d.CanOpen) (reader : RequestBodyReader) (len : Nat)
    (inbound : Bytes) :
    ∃ ret reader' w', runIn (storageWriteUserIndexStream requestBodyRead len reader)
        (breaking .sync inbound d) = ((ret, reader'), w') ∧
      ret < 0 ∧ w'.disk.node .userIndex = some (.file ((reader.rest ++ inbound).take len)) ∧
      w'.disk.mountOutcome = d.mountOutcome := by
  have fine {k : Kind} (other : ¬ (k = .sync ∨ k = .sync)) := breaking_fine other inbound d
  refine upload_fails (w := breaking .sync inbound d) can (fine (by decide)) (fine (by decide))
    (fine (by decide)) fun w₁ emptied _ syncs => ?_
  obtain ⟨ret, remaining, reader', w₂, copied, at_w₂, -⟩ := copyLoop_fine emptied.opened
    ((fine (by decide)).later emptied.later) ((fine (by decide)).later emptied.later)
    (Uploading.refl emptied.opened) len 0 (Int.le_refl 0) len (Nat.le_refl _) reader
  have page := at_w₂.page emptied.opened
  have unread : unreadBody reader w₁ = reader.rest ++ inbound := by
    rw [unreadBody, emptied.inbound]
    rfl
  have stays := congrArg Luck.fail (congrArg Fate.toLuck (World.fate_head
    ((at_w₂.kept .sync (by decide) (by decide)).trans
      (syncs.trans (breaking_fate (.inr rfl) inbound d)))))
  rw [List.nil_append, unread] at page
  exact ⟨ret, remaining, reader', w₂, copied, page, fun _ mounted => at_w₂.mounted mounted,
    .inr ⟨_, stays⟩⟩

/-- An upload that fails goes unnoticed, however it fails, exactly where the page cannot be opened
for it, or where the page is empty and is to be empty again. -/
theorem failed_upload_spares {request : Bytes} {headerEnd len : Nat}
    (accepted : Accepts request headerEnd len) (fd : Fd) (d : Disk) :
    Spares fd request headerEnd len d ↔
      ¬ d.CanOpen ∨ (len = 0 ∧ d.node .userIndex = some (.file [])) := by
  constructor
  · intro spares
    by_cases can : d.CanOpen
    case neg => exact .inl can
    -- a failed write leaves the page empty, so it was empty before
    obtain ⟨ret, reader, w, run, failed, page, outcome⟩ :=
      write_breaks can { fd, pending := buffered request headerEnd } len
    have empty := (spares _ w ret reader rfl run failed).page can.mounts
      (by rw [outcome]; exact can.mounts) page (Nat.zero_le _)
    refine .inr ⟨?_, empty⟩
    -- a failed sync leaves the whole body there, so it was empty
    have small : len ≤ userIndexMax := by
      obtain ⟨digits, declares, some, all, value, small, fits⟩ := accepted
      exact small
    obtain ⟨ret, reader, w, run, failed, page, outcome⟩ :=
      sync_breaks can { fd, pending := buffered request headerEnd } len (List.replicate len 0)
    have length : ((buffered request headerEnd ++ List.replicate len 0).take len).length = len := by
      rw [List.length_take, List.length_append, List.length_replicate]
      omega
    have same := (spares _ w ret reader rfl run failed).page can.mounts
      (by rw [outcome]; exact can.mounts) page (by rw [List.length_take]; omega)
    have none := Node.file.inj (Option.some.inj (same.symm.trans empty))
    rw [← length]
    exact congrArg List.length none
  · rintro spared w w' ret reader rfl run failed
    obtain ⟨opened, w₁, opening, mounted, outcome⟩ := openUserIndex_run w
    rw [storageWriteUserIndexStream_eq, runIn_bind, opening] at run
    rcases outcome with ⟨unopened, same, -⟩ | ⟨rfl, emptied, can⟩
    · simp only at run
      rw [if_pos unopened] at run
      obtain ⟨-, rfl⟩ := Prod.mk.inj run
      exact .of_same same.page mounted.outcome
    · obtain ⟨rfl, empty⟩ := spared.resolve_left (not_not_intro can)
      simp only at run
      rw [if_neg (by decide), runIn_bind] at run
      have files := run_sameFiles (closeUserIndex_noFile 0 0) w₁
      have mounted' := mounted.run (closeUserIndex_noMount 0 0)
      rw [runIn_bind] at run
      have left : w' = (runIn (closeUserIndex 0 0) w₁).2 := (congrArg Prod.snd run).symm
      rw [left]
      refine .of_same ?_ mounted'.outcome
      rw [files.node, emptied.opened.page, empty]

theorem putAbc_accepted : Accepts putAbc (putAbc.length - 4) 3 :=
  ⟨lit "3", by decide +kernel, by decide, by decide, by decide, by decide, by decide⟩

/-- A medium that cannot be mounted. -/
def Disk.unmountable : Disk := { node := fun _ => none, mountResult := -Can.eIo }

theorem failed_upload_spares_abc :
    ¬ Spares 3 putAbc (putAbc.length - 4) 3 Disk.blank ∧
      Spares 3 putAbc (putAbc.length - 4) 3 Disk.unmountable := by
  constructor
  · intro spares
    rcases (failed_upload_spares putAbc_accepted 3 Disk.blank).mp spares with shut | ⟨zero, -⟩
    · exact shut ⟨by decide, fun _ is => (by cases is), fun is => (by cases is)⟩
    · cases zero
  · refine (failed_upload_spares putAbc_accepted 3 Disk.unmountable).mpr (.inl fun can => ?_)
    exact absurd can.mounts (by decide)

/-- A disk with an old page. -/
def oldPage : Disk where
  node := fun path => if path = .userIndex then some (.file (lit "old")) else some .dir

/-- A client that goes away after the first byte of three. -/
def brokenUpload (disk : Disk) : World where
  inbound := putAbc ++ lit "a"
  disk := disk

/-- The first byte is served as the page where there was none, or another. -/
theorem brokenUpload_noticed :
    Accepts putAbc (putAbc.length - 4) 3 ∧ ¬ Spares 3 putAbc (putAbc.length - 4) 3 Disk.blank ∧
      ∀ disk ∈ [Disk.blank, oldPage],
        (runIn (handleClient [] 8 3) (brokenUpload disk)).2.sent =
          textResponse "500 Internal Server Error" "user page write failed\n" ∧
        (runIn (handleClient [] 8 4) (readBack disk)).2.sent ≠
          httpHeader "200 OK" textHtml 1 ++ lit "a" ∧
        (runIn (handleClient [] 8 4)
            (readBack (runIn (handleClient [] 8 3) (brokenUpload disk)).2.disk)).2.sent =
          httpHeader "200 OK" textHtml 1 ++ lit "a" := by
  refine ⟨putAbc_accepted, fun spares => ?_, fun disk member => ?_⟩
  · obtain ⟨ret, reader, w, run, failed, page, outcome⟩ := sync_breaks (d := Disk.blank)
      ⟨by decide, fun _ is => (by cases is), fun is => (by cases is)⟩
      { fd := 3, pending := buffered putAbc (putAbc.length - 4) } 3 (lit "a")
    have old := (spares _ w ret reader rfl run failed).page (by decide)
        (by rw [outcome]; decide) page (by decide)
    exact absurd old (by decide)
  · rcases List.mem_cons.mp member with rfl | member
    · unfold handleClient pageRoutes uploadRoute refuse answer
      decide +kernel
    · rw [List.mem_singleton.mp member]
      unfold handleClient pageRoutes uploadRoute refuse
      decide +kernel

end PicoCan.Http
