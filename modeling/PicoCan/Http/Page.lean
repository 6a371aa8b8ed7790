import PicoCan.Http.Mount
import PicoCan.Http.Upload

/-!
# Storing the user page

`storage_write_user_index_stream` in three parts, before, at and behind the copy, and what
each leaves on the disk.
-/

namespace PicoCan.Http

open Calls
open PicoCan.Can (eIo)

/-! ## Storing -/

/-- Everything in front of the copy. -/
def openUserIndex : HttpProg Int := do
  let ret ← storageMountOnce
  if ret < 0 then
    return ret
  else
    let ret ← makeUserDir
    if ret < 0 then
      return ret
    else
      file (.fsOpen .userIndex { create := true, trunc := true, write := true })

/-- Everything behind it. -/
def closeUserIndex (ret : Int) (remaining : Nat) : HttpProg Int :=
  if ret < 0 then do
    let _ ← file .fsClose
    return ret
  else do
    let ret ← file .fsSync
    let _ ← file .fsClose
    if ret < 0 then
      return ret
    else if remaining ≠ 0 then
      return -eIo
    else
      file .storageLock
      updateSpaceLocked
      file .storageUnlock
      return 0

theorem storageWriteUserIndexStream_eq {σ : Type}
    (reader : σ → Nat → HttpProg ((Int × Bytes) × σ)) (len : Nat) (ctx : σ) :
    storageWriteUserIndexStream reader len ctx = (do
      let ret ← openUserIndex
      if ret < 0 then
        return (ret, ctx)
      else
        let (ret, remaining, ctx) ← copyLoop reader len ret len ctx
        let ret ← closeUserIndex ret remaining
        return (ret, ctx)) := by
  have closes (ret : Int) (remaining : Nat) (ctx' : σ) :
      (closeUserIndex ret remaining >>= fun ret => (.ret (ret, ctx') : HttpProg (Int × σ))) =
        if ret < 0 then .call (.fs .fsClose) fun _ => .ret (ret, ctx')
        else .call (.fs .fsSync) fun ret => .call (.fs .fsClose) fun _ =>
          if ret < 0 then .ret (ret, ctx')
          else if remaining ≠ 0 then .ret (-eIo, ctx')
          else .call (.fs .storageLock) fun _ => updateSpaceLocked >>= fun _ =>
            .call (.fs .storageUnlock) fun _ => .ret (0, ctx') := by
    simp only [closeUserIndex, file, perform, Prog.perform_bind, Prog.pure_eq, Prog.ite_bind,
      Prog.call_bind, Prog.bind_bind, Prog.ret_bind]
  unfold storageWriteUserIndexStream openUserIndex
  rw [Prog.bind_bind]
  refine congrArg (storageMountOnce >>= ·) (funext fun mount => ?_)
  by_cases failed : mount < 0
  · simp only [if_pos failed, Prog.pure_eq, Prog.ret_bind]
  simp only [if_neg failed, Prog.bind_bind]
  refine congrArg (makeUserDir >>= ·) (funext fun dir => ?_)
  by_cases failed : dir < 0
  · simp only [if_pos failed, Prog.pure_eq, Prog.ret_bind]
  simp only [if_neg failed, Prog.pure_eq, closes]
  rfl

/-! ## Before the copy -/

/-- The page and the connection are the same. -/
structure SamePage (w w' : World) : Prop where
  later : World.Later w w'
  sent : w'.sent = w.sent
  inbound : w'.inbound = w.inbound
  page : w'.disk.node .userIndex = w.disk.node .userIndex
  truncations : w'.disk.truncations = w.disk.truncations

theorem SameFiles.samePage {w w' : World} (same : SameFiles w w') : SamePage w w' :=
  ⟨same.later, same.sent, same.inbound, congrFun same.node _, same.truncations⟩

theorem SamePage.trans {w w' w'' : World} (first : SamePage w w') (rest : SamePage w' w'') :
    SamePage w w'' :=
  ⟨first.later.trans rest.later, rest.sent.trans first.sent, rest.inbound.trans first.inbound,
    rest.page.trans first.page, rest.truncations.trans first.truncations⟩

theorem serve_mkdir (w : World) :
    ∃ ret w', World.serve (.fs (.fsMkdir .userDir)) w = ((ret : Int), w') ∧ SamePage w w' ∧
      SameMount w w' ∧ ((ret < 0 ∧ (¬ w.FineAt .mkdir ∨ w.disk.node .userDir ≠ none)) ∨
        (ret = 0 ∧ w.disk.node .userDir = none)) := by
  have mount := serve_sameMount (show NoMount (.fs (.fsMkdir .userDir)) from trivial) w
  have later := World.serve_later (.fs (.fsMkdir .userDir)) w
  refine ⟨_, _, rfl, ⟨later, rfl, rfl, ?_, ?_⟩, mount, ?_⟩
  · simp only [Disk.serve]
    split <;> rfl
  · simp only [Disk.serve]
    split <;> rfl
  · clear mount later
    cases fails : (w.fate .mkdir).fail with
    | some e =>
        simp only [HttpCall.kind, FsCall.kind, Disk.serve, fails]
        exact .inl ⟨e.ret_neg, .inl (World.not_fineAt fails)⟩
    | none =>
        cases entry : w.disk.node .userDir with
        | none =>
            simp only [HttpCall.kind, FsCall.kind, Disk.serve, fails, entry]
            exact .inr ⟨trivial, trivial⟩
        | some node =>
            simp only [HttpCall.kind, FsCall.kind, Disk.serve, fails, entry]
            exact .inl ⟨by decide, .inr (Option.some_ne_none _)⟩

/-- Making the directory leaves the page alone. It fails where a call fails, or where there is a
file in its place. -/
theorem makeUserDir_run (w : World) :
    ∃ ret w', runIn makeUserDir w = (ret, w') ∧ SamePage w w' ∧ SameMount w w' ∧
      ((ret < 0 ∧ (¬ w.FineAt .stat ∨ ¬ w.FineAt .mkdir ∨
          ∃ content, w.disk.node .userDir = some (.file content))) ∨
        (ret = 0 ∧ ∀ content, w.disk.node .userDir ≠ some (.file content))) := by
  unfold makeUserDir
  simp only [file, perform, Prog.perform_bind, Prog.run_call]
  have stat : SameFiles w (World.serve (.fs (.fsStat .userDir)) w).2 :=
    serve_sameFiles (show NoFile (.fs (.fsStat .userDir)) from trivial) w
  have mount : SameMount w (World.serve (.fs (.fsStat .userDir)) w).2 :=
    serve_sameMount (show NoMount (.fs (.fsStat .userDir)) from trivial) w
  have answer := serve_stat .userDir w
  generalize World.serve (.fs (.fsStat .userDir)) w = stated at stat mount answer ⊢
  obtain ⟨status, w₁⟩ := stated
  obtain ⟨made, w₂, make, same, kept, outcome⟩ := serve_mkdir w₁
  have both : SamePage w w₂ ∧ SameMount w w₂ :=
    ⟨stat.samePage.trans same, kept.1.trans mount.1, kept.2.trans mount.2⟩
  -- the directory is only made where it was missing, or where its status could not be read
  have failed (refused : made < 0) (nowhere : ¬ w.FineAt .stat ∨ w.disk.node .userDir = none) :
      ¬ w.FineAt .stat ∨ ¬ w.FineAt .mkdir ∨
        ∃ content, w.disk.node .userDir = some (.file content) := by
    rcases nowhere with unlucky | missing
    · exact .inl unlucky
    rcases outcome with ⟨-, unlucky | there⟩ | ⟨rfl, -⟩
    · exact .inr (.inl fun fine => unlucky (fine.later stat.later))
    · exact absurd ((congrFun stat.node _).trans missing) there
    · exact absurd refused (by decide)
  have done (nowhere : ¬ w.FineAt .stat ∨ w.disk.node .userDir = none) :
      (made < 0 ∧ (¬ w.FineAt .stat ∨ ¬ w.FineAt .mkdir ∨
        ∃ content, w.disk.node .userDir = some (.file content))) ∨
      (made = 0 ∧ ∀ content, w.disk.node .userDir ≠ some (.file content)) := by
    rcases outcome with ⟨refused, -⟩ | ⟨success, missing⟩
    · exact .inl ⟨refused, failed refused nowhere⟩
    · refine .inr ⟨success, fun content is => ?_⟩
      rw [← stat.node, missing] at is
      cases is
  simp only at answer
  rcases answer with ⟨e, rfl, unlucky⟩ | ⟨rfl, missing⟩ | ⟨node, rfl, there⟩
  · by_cases gone : e.ret = -eNoEnt
    · simp only [if_pos gone, Prog.run_perform, make]
      exact ⟨_, _, rfl, both.1, both.2, done (.inl unlucky)⟩
    · simp only [if_neg gone]
      exact ⟨_, _, rfl, stat.samePage, mount, .inl ⟨e.ret_neg, .inl unlucky⟩⟩
  · have gone : errnoNoEnt.ret = -eNoEnt := rfl
    simp only [if_pos gone, Prog.run_perform, make]
    exact ⟨_, _, rfl, both.1, both.2, done (.inr missing)⟩
  · cases node with
    | dir =>
        refine ⟨0, w₁, rfl, stat.samePage, mount, .inr ⟨rfl, fun content is => ?_⟩⟩
        rw [there] at is
        cases is
    | file content =>
        exact ⟨-eNotDir, w₁, rfl, stat.samePage, mount, .inl ⟨by decide, .inr (.inr ⟨_, there⟩)⟩⟩

/-- The page has been emptied by opening it, and nothing has been written since. -/
structure Emptied (w w' : World) : Prop where
  later : World.Later w w'
  sent : w'.sent = w.sent
  inbound : w'.inbound = w.inbound
  opened : Opened w'
  truncations : w'.disk.truncations = w.disk.truncations + 1
  taken : w'.disk.taken = []

theorem SamePage.emptied {w w' w'' : World} (same : SamePage w w') (emptied : Emptied w' w'') :
    Emptied w w'' :=
  ⟨same.later.trans emptied.later, emptied.sent.trans same.sent,
    emptied.inbound.trans same.inbound, emptied.opened,
    emptied.truncations.trans (congrArg (· + 1) same.truncations), emptied.taken⟩

theorem serve_open (w : World) :
    ∃ ret w',
      World.serve (.fs (.fsOpen .userIndex { create := true, trunc := true, write := true })) w =
        ((ret : Int), w') ∧ SameMount w w' ∧
      ((ret < 0 ∧ SamePage w w' ∧ (¬ w.FineAt .open ∨ w.disk.node .userIndex = some .dir)) ∨
        (ret = 0 ∧ Emptied w w' ∧ w.disk.node .userIndex ≠ some .dir)) := by
  have mount := serve_sameMount (show NoMount (.fs (.fsOpen .userIndex
    { create := true, trunc := true, write := true })) from trivial) w
  have later := World.fatesAfter_suffix w .open
  refine ⟨_, _, rfl, mount, ?_⟩
  clear mount
  cases fails : (w.fate .open).fail with
  | some e =>
      simp only [HttpCall.kind, FsCall.kind, Disk.serve, fails]
      exact .inl ⟨e.ret_neg, ⟨later, rfl, rfl, rfl, rfl⟩, .inl (World.not_fineAt fails)⟩
  | none =>
      cases page : w.disk.node .userIndex with
      | none =>
          simp only [HttpCall.kind, FsCall.kind, Disk.serve, fails,
            Disk.openFile, page]
          exact .inr ⟨rfl, ⟨later, rfl, rfl, ⟨rfl, rfl⟩, rfl, rfl⟩, fun is => by cases is⟩
      | some node =>
          cases node with
          | dir =>
              simp only [HttpCall.kind, FsCall.kind, Disk.serve, fails,
                Disk.openFile, page]
              exact .inl ⟨by decide, ⟨later, rfl, rfl, rfl, rfl⟩, .inr trivial⟩
          | file content =>
              simp only [HttpCall.kind, FsCall.kind, Disk.serve, fails,
                Disk.openFile, page]
              exact .inr ⟨rfl, ⟨later, rfl, rfl, ⟨rfl, rfl⟩, rfl, rfl⟩, fun is => by cases is⟩

/-- The page can be opened where no call fails: the medium can be mounted, and neither is there a
file in place of the directory nor a directory in place of the page. -/
structure Disk.CanOpen (d : Disk) : Prop where
  mounts : ¬ d.mountOutcome < 0
  dir : ∀ content, d.node .userDir ≠ some (.file content)
  page : d.node .userIndex ≠ some .dir

/-- The page is opened empty, or it is as it was. -/
theorem openUserIndex_run (w : World) :
    ∃ ret w', runIn openUserIndex w = (ret, w') ∧ Mounted w.disk.mountOutcome w' ∧
      ((ret < 0 ∧ SamePage w w' ∧
          (w.disk.CanOpen → ¬ (w.FineAt .stat ∧ w.FineAt .mkdir ∧ w.FineAt .open))) ∨
        (ret = 0 ∧ Emptied w w' ∧ w.disk.CanOpen)) := by
  obtain ⟨w₁, mount, same₁, mounted₁⟩ := storageMountOnce_run w
  unfold openUserIndex
  rw [runIn_bind, mount]
  by_cases failed : w.disk.mountOutcome < 0
  · simp only [if_pos failed]
    exact ⟨_, _, rfl, mounted₁, .inl ⟨failed, same₁.samePage, fun can => absurd failed can.mounts⟩⟩
  simp only [if_neg failed]
  obtain ⟨dir, w₂, made, same₂, kept₂, outcome₂⟩ := makeUserDir_run w₁
  have mounted₂ : Mounted w.disk.mountOutcome w₂ :=
    ⟨kept₂.1.trans mounted₁.1, kept₂.2.trans mounted₁.2⟩
  rw [same₁.node] at outcome₂
  rw [runIn_bind, made]
  rcases outcome₂ with ⟨refused, why⟩ | ⟨rfl, directory⟩
  · simp only [if_pos refused]
    refine ⟨_, _, rfl, mounted₂, .inl ⟨refused, same₁.samePage.trans same₂, fun can fine => ?_⟩⟩
    rcases why with unlucky | unlucky | ⟨content, there⟩
    · exact unlucky (fine.1.later same₁.later)
    · exact unlucky (fine.2.1.later same₁.later)
    · exact can.dir content there
  simp only
  rw [if_neg (by decide)]
  obtain ⟨ret, w₃, served, kept₃, outcome₃⟩ := serve_open w₂
  have before := same₁.samePage.trans same₂
  rw [before.page] at outcome₃
  refine ⟨ret, w₃, served, ⟨kept₃.1.trans mounted₂.1, kept₃.2.trans mounted₂.2⟩, ?_⟩
  rcases outcome₃ with ⟨unopened, same₃, why⟩ | ⟨rfl, emptied, is⟩
  · refine .inl ⟨unopened, before.trans same₃, fun can fine => ?_⟩
    rcases why with unlucky | there
    · exact unlucky (fine.2.2.later before.later)
    · exact can.page there
  · exact .inr ⟨rfl, before.emptied emptied, failed, directory, is⟩

/-! ## Behind the copy -/

theorem closeUserIndex_only {P : HttpCall → Prop} (close : P (.fs .fsClose))
    (sync : P (.fs .fsSync)) (lock : P (.fs .storageLock)) (unlock : P (.fs .storageUnlock))
    (update : updateSpaceLocked.Only P) (ret : Int) (remaining : Nat) :
    (closeUserIndex ret remaining).Only P := by
  refine .ite (fun _ => ⟨close, fun _ => trivial⟩) fun _ => ⟨sync, fun ret => ⟨close, fun _ => ?_⟩⟩
  refine .ite (fun _ => trivial) fun _ => .ite (fun _ => trivial) fun _ => ⟨lock, fun _ => ?_⟩
  exact update.bind fun _ => ⟨unlock, fun _ => trivial⟩

theorem closeUserIndex_noFile (ret : Int) (remaining : Nat) :
    (closeUserIndex ret remaining).Only NoFile :=
  closeUserIndex_only trivial trivial trivial trivial
    (updateSpaceLocked_keeps (fun _ _ => trivial) trivial fun _ => trivial) ret remaining

theorem closeUserIndex_noMount (ret : Int) (remaining : Nat) :
    (closeUserIndex ret remaining).Only NoMount :=
  closeUserIndex_only trivial trivial trivial trivial
    (updateSpaceLocked_keeps (fun _ _ => trivial) trivial fun _ => trivial) ret remaining

theorem serve_closed {c : HttpCall} (call : NoFile c) {w : World} (closed : w.disk.file = none) :
    (World.serve c w).2.disk.file = none := by
  cases c with
  | fs c =>
      cases c with
      | fsMkdir | fsOpen | fsRead | fsWrite => exact call.elim
      | fsStatvfs | fsStat | fsSync | fsClose =>
          simp only [World.serve, World.respond, Disk.serve]
          split
          all_goals first | rfl | exact closed
      | _ => exact closed
  | _ => exact call.elim

/-- Whatever becomes of it, the page is closed. -/
theorem closeUserIndex_closes (ret : Int) (remaining : Nat) (w : World) :
    (runIn (closeUserIndex ret remaining) w).2.disk.file = none := by
  have closes (w : World) : (World.serve (.fs .fsClose) w).2.disk.file = none := by
    simp only [World.serve, World.respond, Disk.serve]
    split <;> rfl
  have update : updateSpaceLocked.Only NoFile :=
    updateSpaceLocked_keeps (fun _ _ => trivial) trivial fun _ => trivial
  unfold closeUserIndex
  by_cases failed : ret < 0
  · rw [if_pos failed]
    exact closes w
  · rw [if_neg failed]
    simp only [file, perform, Prog.perform_bind, Prog.run_call]
    generalize (World.serve (.fs .fsSync) w) = synced
    refine Prog.Only.run_keeps (P := NoFile) (I := fun s : World => s.disk.file = none)
      (fun c s call closed => serve_closed call closed) ?_ (closes synced.2)
    refine .ite (fun _ => trivial) fun _ => .ite (fun _ => trivial) fun _ => ⟨trivial, fun _ => ?_⟩
    exact update.bind fun _ => ⟨trivial, fun _ => trivial⟩

/-- A failed copy stays a failure. -/
theorem closeUserIndex_failed {ret : Int} (failed : ret < 0) (remaining : Nat) :
    (closeUserIndex ret remaining).Returns (· < 0) := by
  unfold closeUserIndex
  rw [if_pos failed]
  exact fun _ => failed

/-! ## The whole -/

/-- An upload has been stored: the body up to its length is the page, and is all that was taken
off the connection. -/
structure Stored (w : World) (reader : RequestBodyReader) (len : Nat) (w' : World) : Prop where
  later : World.Later w w'
  sent : w'.sent = w.sent
  page : w'.disk.node .userIndex = some (.file ((unreadBody reader w).take len))
  inbound : w'.inbound = (unreadBody reader w).drop len
  closed : w'.disk.file = none
  success : ¬ w.disk.mountOutcome < 0
  mounted : Mounted w.disk.mountOutcome w'

/-- All that was buffered has been read when as much as that has been read. -/
theorem Draws.drained {reader reader' : RequestBodyReader} {w w' : World} {len : Nat}
    (draws : Draws reader w reader' w') (fits : reader.rest.length ≤ len)
    (rest : unreadBody reader' w' = (unreadBody reader w).drop len) :
    w'.inbound = (unreadBody reader w).drop len := by
  have unread : reader'.rest ++ w'.inbound = (reader.rest ++ w.inbound).drop len := rest
  show w'.inbound = (reader.rest ++ w.inbound).drop len
  rcases draws with empty | ⟨some, same⟩
  · rw [← unread, empty, List.nil_append]
  · -- nothing was received, so what is left is no longer than what was there to receive
    have lengths := congrArg List.length unread
    rw [same, List.length_append, List.length_drop, List.length_append] at lengths
    have empty : reader'.rest = [] := List.eq_nil_of_length_eq_zero (by
      have pos := List.length_pos_iff.mpr some
      omega)
    rw [← unread, empty, List.nil_append]

/-- What the copy has written is the page. -/
theorem Uploading.page {start w : World} {written : Bytes} (opened : Opened start)
    (at_w : Uploading start written w) : w.disk.node .userIndex = some (.file written) := by
  have empty : start.disk.content .userIndex = [] := by
    rw [Disk.content, opened.page]
  rw [at_w.world]
  show (if Path.userIndex = Path.userIndex then
    some (Node.file (start.disk.content .userIndex ++ written))
    else start.disk.node .userIndex) = _
  rw [if_pos rfl, empty, List.nil_append]

theorem Uploading.sent {start w : World} {written : Bytes} (at_w : Uploading start written w) :
    w.sent = start.sent := by
  rw [at_w.world]

theorem Uploading.mounted {start w : World} {written : Bytes} {ret : Int}
    (at_w : Uploading start written w) (mounted : Mounted ret start) : Mounted ret w := by
  rw [at_w.world]
  exact mounted

/-- Where no receive and no write fails, a success is that of a body that was there in full. -/
theorem storageWriteUserIndexStream_fine {w : World} (received : w.FineAt .recv)
    (writes : w.FineAt .write) (reader : RequestBodyReader) {len : Nat}
    (fits : reader.rest.length ≤ len) :
    ∃ ret reader' w', runIn (storageWriteUserIndexStream requestBodyRead len reader) w =
      ((ret, reader'), w') ∧
      (ret < 0 ∨ len ≤ (unreadBody reader w).length ∧ Stored w reader len w') := by
  obtain ⟨ret, w₁, opening, mounted, outcome⟩ := openUserIndex_run w
  rw [storageWriteUserIndexStream_eq, runIn_bind, opening]
  rcases outcome with ⟨failed, -⟩ | ⟨rfl, emptied, opens⟩
  · simp only [if_pos failed]
    exact ⟨ret, reader, w₁, rfl, .inl failed⟩
  have same : unreadBody reader w₁ = unreadBody reader w := by
    rw [unreadBody, emptied.inbound, unreadBody]
  obtain ⟨ret, remaining, reader', w₂, copy, copied, outcome⟩ :=
    copyLoop_fine emptied.opened (received.later emptied.later) (writes.later emptied.later)
      (Uploading.refl emptied.opened) len 0 (Int.le_refl 0) len (Nat.le_refl _) reader
  simp only
  rw [if_neg (by decide), runIn_bind, copy]
  simp only
  rw [runIn_bind]
  rcases outcome with ⟨enough, ok, rfl, rest, draws⟩ | ⟨-, failed⟩
  · have files := run_sameFiles (closeUserIndex_noFile ret 0) w₂
    have closed := closeUserIndex_closes ret 0 w₂
    have kept := (copied.mounted mounted).run (closeUserIndex_noMount ret 0)
    generalize runIn (closeUserIndex ret 0) w₂ = closing at files closed kept ⊢
    obtain ⟨ret', w₃⟩ := closing
    rw [same] at enough rest
    have taken : w₂.inbound = (unreadBody reader w).drop len := by
      rw [← same] at rest ⊢
      exact draws.drained fits rest
    have page := copied.page emptied.opened
    rw [List.nil_append, same] at page
    refine ⟨ret', reader', w₃, rfl, .inr ⟨enough, ?_⟩⟩
    exact ⟨(emptied.later.trans copied.later).trans files.later,
      files.sent.trans (copied.sent.trans emptied.sent), (congrFun files.node _).trans page,
      files.inbound.trans taken, closed, opens.mounts, kept⟩
  · have stays := (closeUserIndex_failed failed remaining).run World.serve w₂
    exact ⟨_, reader', _, rfl, .inl stays⟩

end PicoCan.Http
