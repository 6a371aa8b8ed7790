import PicoCan.Http.ContentLength
import PicoCan.Http.Page

/-!
# One connection after the other

The server handles one connection at a time, on the disk that the last one left. Once the
storage is mounted it stays so, and the page stays what it is until an upload opens it:
`handle_client` opens a file to truncate it or to read it, and makes no directory but that
of the page.
-/

namespace PicoCan.Http

open Calls

/-! ## What a mounted storage is asked -/

/-- The calls of `handle_client` with a mounted storage. -/
def mountedSpec : Spec HttpCall.Answer Unit := fun c post v =>
  match c with
  | .fs .mountAttemptedGet => post true v
  | .fs (.mountAttemptedSet _) | .fs (.mountRetSet _) => False
  | .fs (.fsMkdir path) => path = .userDir ∧ ∀ r, post r v
  | .fs (.fsOpen _ flags) => (flags.trunc = true ∨ flags.write = false) ∧ ∀ r, post r v
  | _ => ∀ r, post r v

/-- The calls that are always allowed. -/
def Plain (c : HttpCall) : Prop :=
  match c with
  | .fs (.mountAttemptedSet _) | .fs (.mountRetSet _) | .fs (.fsMkdir _)
  | .fs (.fsOpen _ _) => False
  | _ => True

theorem mountedSpec_plain {v : Unit} (c : HttpCall) (post : c.Answer → Unit → Prop)
    (plain : Plain c) (after : ∀ r, post r v) : mountedSpec c post v := by
  cases c with
  | fs c => cases c <;> first | exact plain.elim | exact after | exact after true
  | _ => exact after

theorem mountedSpec_mono : mountedSpec.Mono := by
  intro c post post' weaker v h
  cases c with
  | fs c =>
      cases c with
      | mountAttemptedGet => exact weaker _ _ h
      | mountAttemptedSet | mountRetSet => exact h
      | fsMkdir | fsOpen => exact ⟨h.1, fun r => weaker _ _ (h.2 r)⟩
      | _ => exact fun r => weaker _ _ (h r)
  | _ => exact fun r => weaker _ _ (h r)

/-- The program keeps to the calls of a mounted storage. -/
def Keeps {α : Type} (p : HttpProg α) : Prop := p.wp mountedSpec (fun _ _ => True) ()

theorem Keeps.bind {α β : Type} {p : HttpProg α} {f : α → HttpProg β} (first : Keeps p)
    (rest : ∀ a, Keeps (f a)) : Keeps (p >>= f) :=
  (Prog.wp_bind _ _ _ _ _).mpr (Prog.wp_mono mountedSpec_mono (fun a _ _ => rest a) first)

theorem Keeps.ite {α : Type} {b : Prop} [Decidable b] {p q : HttpProg α} (yes : b → Keeps p)
    (no : ¬ b → Keeps q) : Keeps (if b then p else q) :=
  (Prog.wp_ite _ _ _ _ _ _).mpr ⟨yes, no⟩

theorem keeps_plain {α : Type} {p : HttpProg α} (only : p.Only Plain) : Keeps p :=
  only.wp mountedSpec_plain fun _ => trivial

/-! ## The storage -/

theorem storageMountOnce_keeps : Keeps storageMountOnce := by
  unfold storageMountOnce Keeps
  simp only [file, perform, Prog.perform_bind, Prog.wp_call, mountedSpec]
  intro _
  rw [if_pos trivial]
  exact fun _ _ => trivial

theorem updateSpaceLocked_plain : updateSpaceLocked.Only Plain :=
  updateSpaceLocked_keeps (fun _ _ => trivial) trivial fun _ => trivial

theorem storageFormatStatusJson_keeps (response : Bytes) (responseLen : Nat) :
    Keeps (storageFormatStatusJson response responseLen) := by
  refine storageMountOnce_keeps.bind fun _ => ?_
  refine Keeps.bind (keeps_plain ⟨trivial, fun _ => ?_⟩) fun _ => trivial
  refine updateSpaceLocked_plain.bind fun _ => ?_
  exact ⟨trivial, fun _ => ⟨trivial, fun _ => ⟨trivial, fun _ => ⟨trivial, fun _ =>
    ⟨trivial, fun _ => trivial⟩⟩⟩⟩⟩

theorem storageUserIndexSize_keeps (len : Nat) : Keeps (storageUserIndexSize len) := by
  refine storageMountOnce_keeps.bind fun ret => .ite (fun _ => trivial) fun _ => fun entry => ?_
  cases entry with
  | error e => trivial
  | ok entry => exact Keeps.ite (fun _ => trivial) fun _ => trivial

theorem storageStreamUserIndex_keeps (fuel : Nat) (fd : Fd) :
    Keeps (storageStreamUserIndex fuel (socketWrite fd)) := by
  have loop : (streamLoop (socketWrite fd) fuel).Only Plain := by
    induction fuel with
    | zero => trivial
    | succ fuel ih =>
        refine ⟨trivial, fun buf => ?_⟩
        rcases buf with e | ⟨_ | ⟨b, more⟩, fits⟩
        · trivial
        · trivial
        · exact (sendAll_only (fun _ => trivial) _).bind fun ret =>
            .ite (fun _ => trivial) fun _ => ih
  refine storageMountOnce_keeps.bind fun ret => .ite (fun _ => trivial) fun _ =>
    ⟨.inr rfl, fun ret => ?_⟩
  refine Keeps.ite (fun _ => trivial) fun _ => (keeps_plain loop).bind fun ret => ?_
  cases ret with
  | none => trivial
  | some ret => exact fun _ => trivial

theorem storageWriteUserIndexStream_keeps (len : Nat) (reader : RequestBodyReader) :
    Keeps (storageWriteUserIndexStream requestBodyRead len reader) := by
  have copies (fuel : Nat) (ret : Int) (remaining : Nat) (reader : RequestBodyReader) :
      (copyLoop requestBodyRead fuel ret remaining reader).Only Plain :=
    copyLoop_only (fun _ => trivial)
      (fun _ _ => requestBodyRead_only (fun _ _ _ => trivial) _) _ _ _ _
  have makes : Keeps makeUserDir := by
    intro entry
    cases entry with
    | error e => exact Keeps.ite (fun _ => ⟨rfl, fun _ => trivial⟩) fun _ => trivial
    | ok entry => exact Keeps.ite (fun _ => trivial) fun _ => trivial
  have opens : Keeps openUserIndex := by
    refine storageMountOnce_keeps.bind fun ret => .ite (fun _ => trivial) fun _ => ?_
    exact makes.bind fun ret => .ite (fun _ => trivial) fun _ => ⟨.inl rfl, fun _ => trivial⟩
  have closes (ret : Int) (remaining : Nat) : (closeUserIndex ret remaining).Only Plain :=
    closeUserIndex_only trivial trivial trivial trivial updateSpaceLocked_plain ret remaining
  rw [storageWriteUserIndexStream_eq]
  refine opens.bind fun ret => .ite (fun _ => trivial) fun _ =>
    (keeps_plain (copies _ _ _ _)).bind ?_
  exact fun copied => (keeps_plain (closes _ _)).bind fun _ => trivial

/-! ## The connection -/

section Routes

variable (fd : Fd)

theorem refuse_keeps (status body : String) : Keeps (refuse fd status body) :=
  keeps_plain (refuse_only (fun _ _ => trivial) (fun _ => trivial) fd status body)

theorem answer_keeps (text : String) : Keeps (answer fd text) :=
  keeps_plain (answer_only (fun _ _ => trivial) (fun _ => trivial) fd text)

theorem close_keeps {α : Type} (a : α) : Keeps (perform (.close fd) >>= fun _ => .ret a) :=
  fun _ => trivial

theorem uploadRoute_keeps (request : Bytes) (headerEnd : Nat) :
    Keeps (uploadRoute fd request headerEnd) := by
  unfold uploadRoute
  cases findHeaderValue (cString request) "Content-Length" with
  | none => exact refuse_keeps fd _ _
  | some contentLength =>
      simp only
      cases parseLength 0 (headerValue contentLength) with
      | none => exact refuse_keeps fd _ _
      | some bodyLen =>
          refine Keeps.ite (fun _ => refuse_keeps fd _ _) fun _ => ?_
          refine Keeps.ite (fun _ => refuse_keeps fd _ _) fun _ => ?_
          refine (storageWriteUserIndexStream_keeps _ _).bind fun written => ?_
          exact Keeps.ite (fun _ => refuse_keeps fd _ _) fun _ => refuse_keeps fd _ _

theorem statusRoute_keeps : Keeps (statusRoute fd) := by
  refine (storageFormatStatusJson_keeps _ _).bind fun body => ?_
  refine Keeps.ite (fun _ => close_keeps fd ()) fun _ =>
    Keeps.ite (fun _ => close_keeps fd ()) fun _ => ?_
  exact (keeps_plain (sendBoth_only (fun _ => trivial) _ _)).bind fun _ => close_keeps fd ()

theorem userPageRoute_keeps (fuel : Nat) : Keeps (userPageRoute fuel fd) := by
  refine (storageUserIndexSize_keeps 0).bind fun size => ?_
  refine Keeps.ite (fun _ => (answer_keeps fd _).bind fun _ => trivial) fun _ => ?_
  refine Keeps.ite (fun _ => (refuse_keeps fd _ _).bind fun _ => trivial) fun _ => ?_
  refine Keeps.ite (fun _ => close_keeps fd true) fun _ => ?_
  refine (keeps_plain (sendAll_only (fun _ => trivial) _)).bind fun ret => ?_
  refine Keeps.ite (fun _ => close_keeps fd true) fun _ => ?_
  refine (storageStreamUserIndex_keeps fuel fd).bind fun ret => ?_
  cases ret with
  | none => trivial
  | some ret => exact close_keeps fd true

theorem indexRoute_keeps (indexHtml : Bytes) : Keeps (indexRoute indexHtml fd) :=
  keeps_plain (indexRoute_only (fun _ _ => trivial) (fun _ => trivial) indexHtml fd)

theorem upgradeRoute_keeps (request : Bytes) (headerEnd : Nat) :
    Keeps (upgradeRoute fd request headerEnd) := by
  have streaming : (bridge (Can.canBridgeSetRxStreaming true)).Only Plain :=
    bridge_only (Q := fun _ => True) (Prog.only_true _) fun _ _ => trivial
  have upgrade :
      (handleWebsocket fd (cString request) (request.drop (headerEnd + 4))).Only Plain := by
    refine ⟨trivial, fun claimed => .ite (fun _ => trivial) fun _ => ?_⟩
    cases buildWebsocketAccept (cString request) acceptMax with
    | error ret => exact ⟨trivial, fun _ => trivial⟩
    | ok accept =>
        refine .ite (fun _ => ⟨trivial, fun _ => trivial⟩) fun _ => ?_
        refine (sendAll_only (fun _ => trivial) _).bind fun ret => ?_
        refine .ite (fun _ => ⟨trivial, fun _ => trivial⟩) fun _ => ⟨trivial, fun _ => ?_⟩
        exact streaming.bind fun _ => ⟨trivial, fun _ => trivial⟩
  exact (keeps_plain upgrade).bind fun ret =>
    Keeps.ite (fun _ => close_keeps fd ()) fun _ => trivial

/-- Every path through `handle_client` keeps to the calls of a mounted storage. -/
theorem handleClient_keeps (indexHtml : Bytes) (fuel : Nat) :
    Keeps (handleClient indexHtml fuel fd) := by
  rw [handleClient_eq]
  refine (keeps_plain (recvRequest_only (fun _ _ _ => trivial) _ _)).bind fun received => ?_
  rcases received with _ | ⟨request, _ | headerEnd⟩
  · exact close_keeps fd true
  · exact (answer_keeps fd _).bind fun _ => trivial
  refine Keeps.ite (fun _ => (upgradeRoute_keeps fd _ _).bind fun _ => trivial) fun _ => ?_
  refine Keeps.ite (fun _ => (uploadRoute_keeps fd _ _).bind fun _ => trivial) fun _ => ?_
  refine Keeps.ite (fun _ => (answer_keeps fd _).bind fun _ => trivial) fun _ => ?_
  refine Keeps.ite (fun _ => (statusRoute_keeps fd).bind fun _ => trivial) fun _ => ?_
  refine Keeps.ite (fun _ => userPageRoute_keeps fd fuel) fun _ => ?_
  exact Keeps.ite (fun _ => (answer_keeps fd _).bind fun _ => trivial) fun _ =>
    (indexRoute_keeps fd _).bind fun _ => trivial

end Routes

/-! ## The page -/

/-- The storage is mounted; and as long as there have been no more than `n` uploads that opened
the page, it has this content, and no file is open for writing. -/
structure Holds (ret : Int) (n : Nat) (content : Bytes) (w : World) : Prop where
  mounted : Mounted ret w
  since : n ≤ w.disk.truncations
  page : w.disk.truncations = n → w.disk.node .userIndex = some (.file content)
  idle : w.disk.truncations = n → ∀ file, w.disk.file = some file → file.flags.write = false

/-- The page is opened: emptied, which is counted, or for reading. -/
theorem Holds.opens {ret : Int} {n : Nat} {content : Bytes} {w : World}
    (holds : Holds ret n content w) {path : Path} {flags : OpenFlags}
    (flags_ok : flags.trunc = true ∨ flags.write = false) :
    Holds ret n content (World.serve (.fs (.fsOpen path flags)) w).2 := by
  have since := holds.since
  have emptied (d : Disk) (grown : d.truncations = w.disk.truncations + 1) : d.truncations ≠ n := by
    omega
  have mounted : Mounted ret (World.serve (.fs (.fsOpen path flags)) w).2 := by
    have same := serve_sameMount (show NoMount (.fs (.fsOpen path flags)) from trivial) w
    exact ⟨same.1.trans holds.mounted.1, same.2.trans holds.mounted.2⟩
  revert mounted
  simp only [World.serve, World.respond, Disk.serve]
  cases (w.fate (HttpCall.fs (.fsOpen path flags)).kind).fail with
  | some e => exact fun mounted => ⟨mounted, since, holds.page, holds.idle⟩
  | none =>
      simp only [Disk.openFile]
      cases is : w.disk.node path with
      | none =>
          by_cases create : flags.create
          · simp only [if_pos create]
            exact fun mounted => ⟨mounted, Nat.le_succ_of_le since,
              fun same => absurd same (emptied _ rfl), fun same => absurd same (emptied _ rfl)⟩
          · simp only [if_neg create]
            exact fun mounted => ⟨mounted, since, holds.page, holds.idle⟩
      | some node =>
          cases node with
          | dir => exact fun mounted => ⟨mounted, since, holds.page, holds.idle⟩
          | file old =>
              by_cases trunc : flags.trunc
              · simp only [if_pos trunc]
                exact fun mounted => ⟨mounted, Nat.le_succ_of_le since,
                  fun same => absurd same (emptied _ rfl), fun same => absurd same (emptied _ rfl)⟩
              · simp only [if_neg trunc]
                refine fun mounted => ⟨mounted, since, holds.page, fun _ file opened => ?_⟩
                cases opened
                exact flags_ok.resolve_left trunc

/-- Nothing is written while no upload has opened the page. -/
theorem Holds.writes {ret : Int} {n : Nat} {content : Bytes} {w : World}
    (holds : Holds ret n content w) (data : Bytes) :
    Holds ret n content (World.serve (.fs (.fsWrite data)) w).2 := by
  simp only [World.serve, World.respond, Disk.serve]
  cases (w.fate (HttpCall.fs (.fsWrite data)).kind).fail with
  | some e => exact ⟨holds.mounted, holds.since, holds.page, holds.idle⟩
  | none =>
      cases opened : w.disk.file with
      | none =>
          refine ⟨holds.mounted, holds.since, holds.page, fun same file is => ?_⟩
          exact holds.idle same file is
      | some file =>
          simp only
          by_cases write : file.flags.write = true
          · have later : w.disk.truncations ≠ n := fun same => by
              have := holds.idle same file opened
              rw [write] at this
              cases this
            rw [if_pos write]
            exact ⟨holds.mounted, holds.since, fun same => absurd same later,
              fun same => absurd same later⟩
          · rw [if_neg write]
            exact ⟨holds.mounted, holds.since, holds.page, holds.idle⟩

/-- Every call that a mounted storage is asked leaves the page what it is. -/
theorem mountedSpec_holds {ret : Int} {n : Nat} {content : Bytes} (c : HttpCall)
    (post : c.Answer → Unit → Prop) (v : Unit) (w : World) (asked : mountedSpec c post v)
    (holds : Holds ret n content w) :
    ∃ v', post (World.serve c w).1 v' ∧ Holds ret n content (World.serve c w).2 := by
  cases c with
  | fs c =>
      cases c with
      | mountAttemptedGet =>
          refine ⟨v, ?_, holds.mounted, holds.since, holds.page, holds.idle⟩
          show post w.disk.mountAttempted v
          rw [holds.mounted.1]
          exact asked
      | mountAttemptedSet | mountRetSet => exact asked.elim
      | fsMkdir path =>
          obtain ⟨rfl, after⟩ := asked
          refine ⟨v, after _, ?_⟩
          simp only [World.serve, World.respond, Disk.serve]
          split <;> exact ⟨holds.mounted, holds.since, holds.page, holds.idle⟩
      | fsOpen path flags => exact ⟨v, asked.2 _, holds.opens asked.1⟩
      | fsWrite data => exact ⟨v, asked _, holds.writes data⟩
      | fsRead len =>
          refine ⟨v, asked _, ?_⟩
          simp only [World.serve, World.respond, Disk.serve]
          split
          · exact ⟨holds.mounted, holds.since, holds.page, holds.idle⟩
          · exact ⟨holds.mounted, holds.since, holds.page, holds.idle⟩
          · rename_i file none opened
            split
            · refine ⟨holds.mounted, holds.since, holds.page, fun same _ is => ?_⟩
              cases is
              exact holds.idle same file opened
            · exact ⟨holds.mounted, holds.since, holds.page, holds.idle⟩
      | fsStatvfs | fsStat | fsSync =>
          refine ⟨v, asked _, ?_⟩
          simp only [World.serve, World.respond, Disk.serve]
          split <;> exact ⟨holds.mounted, holds.since, holds.page, holds.idle⟩
      | fsClose =>
          refine ⟨v, asked _, ?_⟩
          simp only [World.serve, World.respond, Disk.serve]
          split <;> exact ⟨holds.mounted, holds.since, holds.page, fun _ _ is => by cases is⟩
      | _ => exact ⟨v, asked _, holds.mounted, holds.since, holds.page, holds.idle⟩
  | recv | send | poll =>
      refine ⟨v, asked _, ?_⟩
      simp only [World.serve, World.respond]
      split <;> exact ⟨holds.mounted, holds.since, holds.page, holds.idle⟩
  | wsActiveCas => exact ⟨v, asked _, holds.mounted, holds.since, holds.page, holds.idle⟩
  | _ => exact ⟨v, asked _, holds.mounted, holds.since, holds.page, holds.idle⟩

theorem Keeps.holds {α : Type} {p : HttpProg α} (keeps : Keeps p) {ret : Int} {n : Nat}
    {content : Bytes} {w : World} (holds : Holds ret n content w) :
    Holds ret n content (runIn p w).2 := by
  obtain ⟨v, -, kept⟩ := Prog.wp_run (I := fun _ w => Holds ret n content w)
    mountedSpec_holds keeps holds
  exact kept

/-! ## Visits -/

/-- The server after some further connections. Each finds the disk as the last one left it, and
is otherwise arbitrary: what the client sends, and how every call goes. -/
inductive Visited (indexHtml : Bytes) (w : World) : World → Prop
  | here : Visited indexHtml w w
  | visit {last : World} (before : Visited indexHtml w last) (next : World)
      (disk : next.disk = last.disk) (fuel : Nat) (fd : Fd) :
      Visited indexHtml w (runIn (handleClient indexHtml fuel fd) next).2

theorem Visited.holds {indexHtml : Bytes} {w last : World} (visited : Visited indexHtml w last)
    {ret : Int} {n : Nat} {content : Bytes} (holds : Holds ret n content w) :
    Holds ret n content last := by
  induction visited with
  | here => exact holds
  | visit before next disk fuel fd ih =>
      have start : Holds ret n content next := by
        obtain ⟨mounted, since, page, idle⟩ := ih
        rw [Mounted, ← disk] at mounted
        rw [← disk] at since page idle
        exact ⟨mounted, since, page, idle⟩
      exact (handleClient_keeps fd indexHtml fuel).holds start

end PicoCan.Http
