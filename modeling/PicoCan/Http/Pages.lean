import PicoCan.Http.Alone
import PicoCan.Http.FailedUpload
import PicoCan.Http.Partial

/-!
# What a connection does to the page

Whatever fails, and whenever: a connection that asks for no upload leaves the page alone; an
upload leaves it alone too, or replaces it by the front of its body, and by all of it if it is
answered with a 201.
-/

namespace PicoCan.Http

open Calls
open Calls.Json (isDigit ofDigits)
open PicoCan.Can (eIo)

/-! ## Calls that leave the page alone -/

/-- The calls that cannot change the page. -/
def LeavesPage (c : HttpCall) : Prop :=
  match c with
  | .fs (.fsWrite _) => False
  | .fs (.fsMkdir path) => path ≠ .userIndex
  | .fs (.fsOpen _ flags) => flags.create = false ∧ flags.trunc = false
  | _ => True

theorem serve_leavesPage {c : HttpCall} (call : LeavesPage c) (w : World) :
    (World.serve c w).2.disk.node .userIndex = w.disk.node .userIndex := by
  cases c with
  | fs c =>
      cases c with
      | fsWrite => exact call.elim
      | fsMkdir path =>
          simp only [World.serve, World.respond, Disk.serve]
          split
          · rfl
          · rfl
          · exact if_neg (Ne.symm call)
      | fsOpen path flags =>
          simp only [World.serve, World.respond, Disk.serve, Disk.openFile]
          split
          · rfl
          · split
            · rw [call.1]
              rfl
            · rfl
            · rw [call.2]
              rfl
      | fsStatvfs | fsStat | fsRead | fsSync | fsClose =>
          simp only [World.serve, World.respond, Disk.serve]
          repeat' split
          all_goals rfl
      | _ => rfl
  | recv | send | poll => simp only [World.serve, World.respond]; split <;> rfl
  | _ => rfl

theorem run_leavesPage {α : Type} {p : HttpProg α} (only : p.Only LeavesPage) (w : World) :
    (runIn p w).2.disk.node .userIndex = w.disk.node .userIndex := by
  refine only.run_keeps (I := fun s : World => s.disk.node .userIndex = w.disk.node .userIndex)
    ?_ rfl
  intro c s call same
  exact (serve_leavesPage call s).trans same

section Routes

variable {fd : Fd}

theorem storageMountOnce_leavesPage : storageMountOnce.Only LeavesPage := by
  refine storageMountOnce_calls.mono ?_
  intro c call
  cases c with
  | fs c =>
      cases c with
      | fsMkdir | fsOpen | fsWrite => exact call.elim
      | _ => trivial
  | _ => trivial

theorem statusRoute_leavesPage : (statusRoute fd).Only LeavesPage := by
  have update : updateSpaceLocked.Only LeavesPage :=
    updateSpaceLocked_keeps (fun _ _ => trivial) trivial fun _ => trivial
  have formats : (storageFormatStatusJson [] statusBodyMax).Only LeavesPage := by
    refine storageMountOnce_leavesPage.bind fun _ => Prog.Only.bind ?_ fun _ => trivial
    refine ⟨trivial, fun _ => update.bind fun _ => ⟨trivial, fun _ => ⟨trivial, fun _ => ?_⟩⟩⟩
    exact ⟨trivial, fun _ => ⟨trivial, fun _ => ⟨trivial, fun _ => trivial⟩⟩⟩
  refine formats.bind fun body => .ite (fun _ => ⟨trivial, fun _ => trivial⟩) fun _ => ?_
  exact .ite (fun _ => ⟨trivial, fun _ => trivial⟩) fun _ =>
    (sendBoth_only (fun _ => trivial) _ _).bind fun _ => ⟨trivial, fun _ => trivial⟩

theorem userPageRoute_leavesPage (fuel : Nat) : (userPageRoute fuel fd).Only LeavesPage := by
  have answers (text : String) : (answer fd text >>= fun _ => .ret true).Only LeavesPage :=
    (answer_only (fun _ _ => trivial) (fun _ => trivial) fd text).bind fun _ => trivial
  have refuses (status body : String) :
      (refuse fd status body >>= fun _ => .ret true).Only LeavesPage :=
    (refuse_only (fun _ _ => trivial) (fun _ => trivial) fd status body).bind fun _ => trivial
  have reads : (streamLoop (socketWrite fd) fuel).Only LeavesPage := by
    refine (streamLoop_reads fd fuel).mono ?_
    intro c call
    cases c with
    | fs c =>
        cases c with
        | fsRead => trivial
        | _ => exact call.elim
    | _ => trivial
  have sizes : (storageUserIndexSize 0).Only LeavesPage := by
    refine storageMountOnce_leavesPage.bind fun ret => .ite (fun _ => trivial) fun _ => ?_
    refine ⟨trivial, fun entry => ?_⟩
    cases entry with
    | error e => trivial
    | ok entry => exact .ite (fun _ => trivial) fun _ => trivial
  have streams : (storageStreamUserIndex fuel (socketWrite fd)).Only LeavesPage := by
    refine storageMountOnce_leavesPage.bind fun ret => .ite (fun _ => trivial) fun _ => ?_
    refine ⟨⟨rfl, rfl⟩, fun ret => .ite (fun _ => trivial) fun _ => reads.bind fun ret => ?_⟩
    cases ret with
    | none => trivial
    | some ret => exact ⟨trivial, fun _ => trivial⟩
  refine sizes.bind fun size => .ite (fun _ => answers _) fun _ =>
    .ite (fun _ => refuses _ _) fun _ => ?_
  refine .ite (fun _ => ⟨trivial, fun _ => trivial⟩) fun _ => ?_
  refine (sendAll_only (fun _ => trivial) _).bind fun ret => ?_
  refine .ite (fun _ => ⟨trivial, fun _ => trivial⟩) fun _ => streams.bind fun ret => ?_
  cases ret with
  | none => trivial
  | some ret => exact ⟨trivial, fun _ => trivial⟩

/-- Only an upload can change the page. -/
theorem pageRoutes_leavesPage {text : Bytes} (other : ¬ startsWith text "PUT /user/index.html ")
    (indexHtml : Bytes) (fuel : Nat) (request : Bytes) (headerEnd : Nat) :
    (pageRoutes indexHtml fuel fd text request headerEnd).Only LeavesPage := by
  have answers (text : String) : (answer fd text >>= fun _ => .ret true).Only LeavesPage :=
    (answer_only (fun _ _ => trivial) (fun _ => trivial) fd text).bind fun _ => trivial
  refine .ite (fun put => absurd put other) fun _ => .ite (fun _ => answers _) fun _ => ?_
  refine .ite (fun _ => statusRoute_leavesPage.bind fun _ => trivial) fun _ => ?_
  refine .ite (fun _ => userPageRoute_leavesPage fuel) fun _ =>
    .ite (fun _ => answers _) fun _ => ?_
  exact (indexRoute_only (fun _ _ => trivial) (fun _ => trivial) _ _).bind fun _ => trivial

end Routes

/-! ## Writing, whatever fails -/

/-- The page is open for an upload, and holds this much. -/
structure Writing (content : Bytes) (w : World) : Prop where
  file : w.disk.file = some ⟨.userIndex, { create := true, trunc := true, write := true }, 0⟩
  page : w.disk.node .userIndex = some (.file content)

/-- The connection is the same. -/
structure Offline (w w' : World) : Prop where
  inbound : w'.inbound = w.inbound
  sent : w'.sent = w.sent

theorem Offline.refl (w : World) : Offline w w := ⟨rfl, rfl⟩

theorem Offline.trans {w w' w'' : World} (first : Offline w w') (rest : Offline w' w'') :
    Offline w w'' :=
  ⟨rest.inbound.trans first.inbound, rest.sent.trans first.sent⟩

/-- How many bytes a write has taken. -/
def taken {len : Nat} : Except Can.Errno (Count len) → Nat
  | .error _ => 0
  | .ok n => n.val

/-- A write adds what it takes. -/
theorem Writing.write {content : Bytes} {w : World} (writing : Writing content w) (data : Bytes) :
    ∃ answer w', World.serve (.fs (.fsWrite data)) w = (answer, w') ∧
      Writing (content ++ data.take (taken answer)) w' ∧ Offline w w' := by
  have holds : w.disk.content .userIndex = content := by rw [Disk.content, writing.page]
  cases fails : (w.fate .write).fail with
  | some e =>
      refine ⟨.error e, { w with fates := w.fatesAfter .write }, ?_, ?_, rfl, rfl⟩
      · simp only [World.serve, HttpCall.kind, FsCall.kind, World.respond, Disk.serve, fails]
      · simp only [taken, List.take_zero, List.append_nil]
        exact ⟨writing.file, writing.page⟩
  | none =>
      obtain ⟨n, few⟩ : ∃ n : Count data.length, n.val = (w.fate .write).upTo data.length :=
        ⟨⟨_, Luck.upTo_le _ _⟩, rfl⟩
      refine ⟨.ok n,
        { w with fates := w.fatesAfter .write, disk := w.disk.wrote (data.take n.val) },
        ?_, ⟨writing.file, ?_⟩, rfl, rfl⟩
      · obtain ⟨n, fits⟩ := n
        obtain rfl : n = (w.fate .write).upTo data.length := few
        simp only [World.serve, HttpCall.kind, FsCall.kind, World.respond, Disk.serve, fails,
          writing.file]
        rfl
      · show (if Path.userIndex = Path.userIndex then
          some (Node.file (w.disk.content .userIndex ++ data.take n.val))
        else w.disk.node .userIndex) = _
        rw [if_pos rfl, holds]
        rfl

/-- A chunk is written from its front on, and all of it unless an error is returned. -/
theorem writeLoop_front {content : Bytes} {w : World} (writing : Writing content w) (fuel : Nat)
    (ret : Int) (buf : Bytes) (enough : buf.length ≤ fuel) :
    ∃ m ret' w', runIn (writeLoop fuel ret buf) w = (ret', w') ∧ m ≤ buf.length ∧
      Writing (content ++ buf.take m) w' ∧ Offline w w' ∧ (0 ≤ ret' → m = buf.length) := by
  induction fuel generalizing w content buf with
  | zero =>
      obtain rfl := List.length_eq_zero_iff.mp (Nat.le_zero.mp enough)
      refine ⟨0, ret, w, rfl, Nat.le_refl 0, ?_, .refl w, fun _ => rfl⟩
      rwa [List.take_zero, List.append_nil]
  | succ fuel ih =>
      rw [writeLoop]
      by_cases empty : buf = []
      · rw [if_pos empty, empty]
        refine ⟨0, ret, w, rfl, Nat.le_refl 0, ?_, .refl w, fun _ => rfl⟩
        rwa [List.take_zero, List.append_nil]
      rw [if_neg empty]
      simp only [file, perform, Prog.perform_bind, Prog.run_call]
      obtain ⟨answer, w', served, wrote, offline⟩ := writing.write buf
      rw [served]
      cases answer with
      | error e =>
          refine ⟨0, e.ret, w', rfl, Nat.zero_le _, wrote, offline, fun ok => ?_⟩
          exact absurd e.ret_neg (Int.not_lt.mpr ok)
      | ok n =>
          simp only
          by_cases none : n.val = 0
          · rw [if_pos none]
            refine ⟨n.val, -eIo, w', rfl, n.property, wrote, offline, fun ok => ?_⟩
            exact absurd ok (by decide)
          · rw [if_neg none]
            have progress := n.property
            have shorter : (buf.drop n.val).length = buf.length - n.val := List.length_drop
            obtain ⟨m, ret', w'', run, few, wrote', offline', all⟩ :=
              ih wrote (buf.drop n.val) (by omega)
            refine ⟨n.val + m, ret', w'', run, by omega, ?_, offline.trans offline', fun ok => ?_⟩
            · rw [List.take_add, ← List.append_assoc]
              exact wrote'
            · have := all ok
              omega

/-! ## Reading the body, whatever fails -/

/-- The reader takes some bytes off the front of the body, or fails and takes none. -/
theorem requestBodyRead_front (w : World) (reader : RequestBodyReader) {maxLen : Nat}
    (pos : 0 < maxLen) :
    ∃ ret chunk reader' w',
      runIn (requestBodyRead reader maxLen) w = (((ret, chunk), reader'), w') ∧
      w'.disk = w.disk ∧ w'.sent = w.sent ∧ Draws reader w reader' w' ∧
      unreadBody reader w = chunk ++ unreadBody reader' w' ∧ chunk.length ≤ maxLen := by
  unfold requestBodyRead unreadBody
  rw [if_neg (Nat.ne_of_gt pos)]
  generalize buffered : reader.pending.drop reader.pendingPos = front
  by_cases some : (front.take maxLen).length > 0
  · simp only [if_pos some]
    refine ⟨0, front.take maxLen, { reader with
      pendingPos := reader.pendingPos + (front.take maxLen).length }, w, rfl, rfl, rfl, ?_, ?_,
      List.length_take_le _ _⟩
    · refine .inr ⟨?_, rfl⟩
      intro empty
      rw [RequestBodyReader.rest, buffered] at empty
      rw [empty, List.take_nil] at some
      exact absurd some (Nat.lt_irrefl 0)
    · show front ++ w.inbound = front.take maxLen ++
        (reader.pending.drop (reader.pendingPos + (front.take maxLen).length) ++ w.inbound)
      have behind : front.drop (front.take maxLen).length = front.drop maxLen := by
        rw [List.length_take]
        by_cases all : maxLen ≤ front.length
        · rw [Nat.min_eq_left all]
        · rw [List.drop_eq_nil_of_le (by omega), List.drop_eq_nil_of_le (by omega)]
      rw [← List.append_assoc, ← List.drop_drop, buffered, behind, List.take_append_drop]
  · simp only [if_neg some, perform, Prog.perform_bind, Prog.run_call]
    have none : front = [] := by
      cases front with
      | nil => rfl
      | cons b more =>
          rw [List.length_take, List.length_cons] at some
          omega
    have drained : reader.rest = [] := buffered.trans none
    rw [none, List.nil_append]
    rcases serve_recv w reader.fd 0 pos with
      ⟨-, ⟨e, served⟩ | served⟩ | ⟨⟨chunk, fits⟩, rest, filled, inbound, served⟩
    · rw [served]
      refine ⟨e.ret, [], reader, _, rfl, rfl, rfl, .inl drained, ?_, Nat.zero_le _⟩
      rw [buffered, none]
      rfl
    · rw [served]
      refine ⟨-eConnReset, [], reader, _, rfl, rfl, rfl, .inl drained, ?_, Nat.zero_le _⟩
      rw [buffered, none]
      rfl
    · rw [served]
      cases chunk with
      | nil => exact absurd rfl filled
      | cons b more =>
          refine ⟨0, b :: more, reader, _, rfl, rfl, rfl, .inl drained, ?_, fits⟩
          rw [buffered, none]
          exact inbound

/-! ## Copying, whatever fails -/

/-- What has been written is the front of the body, and all of it unless an error is returned. -/
theorem copyLoop_front {content : Bytes} {w : World} (writing : Writing content w) (fuel : Nat)
    (ret : Int) (remaining : Nat) (enough : remaining ≤ fuel) (reader : RequestBodyReader) :
    ∃ m ret' remaining' reader' w', runIn (copyLoop requestBodyRead fuel ret remaining reader) w =
        ((ret', remaining', reader'), w') ∧
      Writing (content ++ (unreadBody reader w).take m) w' ∧ w'.sent = w.sent ∧
      Draws reader w reader' w' ∧ m ≤ remaining ∧
      (0 ≤ ret' → m = remaining ∧ m ≤ (unreadBody reader w).length ∧
        unreadBody reader' w' = (unreadBody reader w).drop m) := by
  induction fuel generalizing w content ret remaining reader with
  | zero =>
      obtain rfl := Nat.le_zero.mp enough
      refine ⟨0, ret, 0, reader, w, rfl, ?_, rfl, .refl reader w, Nat.le_refl 0,
        fun _ => ⟨rfl, Nat.zero_le _, rfl⟩⟩
      rwa [List.take_zero, List.append_nil]
  | succ fuel ih =>
      rw [copyLoop]
      by_cases done : remaining = 0
      · rw [if_pos done, done]
        refine ⟨0, ret, 0, reader, w, rfl, ?_, rfl, .refl reader w, Nat.le_refl 0,
          fun _ => ⟨rfl, Nat.zero_le _, rfl⟩⟩
        rwa [List.take_zero, List.append_nil]
      rw [if_neg done, runIn_bind]
      have chunkMax : 0 < storageIoChunk := by decide
      have pos : 0 < min remaining storageIoChunk := by omega
      obtain ⟨got, chunk, reader₁, w₁, read, disk, unsent, draws, split, short⟩ :=
        requestBodyRead_front w reader pos
      have writing₁ : Writing content w₁ := ⟨disk ▸ writing.file, disk ▸ writing.page⟩
      have stops {ret : Int} (failed : ret < 0) : ∃ m ret' remaining' reader' w',
          (((ret, remaining, reader₁), w₁) : (Int × Nat × RequestBodyReader) × World) =
            ((ret', remaining', reader'), w') ∧
          Writing (content ++ (unreadBody reader w).take m) w' ∧ w'.sent = w.sent ∧
          Draws reader w reader' w' ∧ m ≤ remaining ∧
          (0 ≤ ret' → m = remaining ∧ m ≤ (unreadBody reader w).length ∧
            unreadBody reader' w' = (unreadBody reader w).drop m) := by
        refine ⟨0, ret, remaining, reader₁, w₁, rfl, ?_, unsent, draws, Nat.zero_le _,
          fun ok => absurd failed (Int.not_lt.mpr ok)⟩
        rwa [List.take_zero, List.append_nil]
      rw [read]
      simp only
      by_cases failed : got < 0
      · rw [if_pos failed]
        exact stops failed
      rw [if_neg failed]
      by_cases wrong : chunk.length = 0 ∨ chunk.length > min remaining storageIoChunk
      · rw [if_pos wrong]
        exact stops (by decide)
      rw [if_neg wrong, runIn_bind]
      obtain ⟨n, ret₂, w₂, wrote, few, writing₂, offline, whole⟩ :=
        writeLoop_front writing₁ chunk.length got chunk (Nat.le_refl _)
      have draws₂ : Draws reader w reader₁ w₂ := by
        rcases draws with drained | ⟨filled, same⟩
        · exact .inl drained
        · exact .inr ⟨filled, offline.inbound.trans same⟩
      have unread : unreadBody reader₁ w₂ = unreadBody reader₁ w₁ := by
        unfold unreadBody
        rw [offline.inbound]
      rw [wrote]
      simp only
      by_cases failed₂ : ret₂ < 0
      · rw [if_pos failed₂]
        refine ⟨n, ret₂, remaining, reader₁, w₂, rfl, ?_, offline.sent.trans unsent, draws₂,
          by omega, fun ok => absurd failed₂ (Int.not_lt.mpr ok)⟩
        rw [split, List.take_append_of_le_length few]
        exact writing₂
      · rw [if_neg failed₂]
        obtain rfl := whole (Int.not_lt.mp failed₂)
        rw [List.take_length] at writing₂
        obtain ⟨m, ret', remaining', reader', w', run, writing', sent, draws', le, all⟩ :=
          ih writing₂ ret₂ (remaining - chunk.length) (by omega) reader₁
        rw [unread] at writing' all
        refine ⟨chunk.length + m, ret', remaining', reader', w', run, ?_,
          sent.trans (offline.sent.trans unsent), draws₂.trans draws', by omega, fun ok => ?_⟩
        · rw [split, List.take_length_add_append, ← List.append_assoc]
          exact writing'
        · obtain ⟨rfl, fits, rest⟩ := all ok
          refine ⟨by omega, ?_, ?_⟩
          · rw [split, List.length_append]
            omega
          · rw [rest, split, List.drop_length_add_append]

/-! ## Storing, whatever fails -/

/-- The page is as it was, or it is the front of the body; and all of it, with nothing more taken
off the connection, unless an error is returned. -/
theorem storageWriteUserIndexStream_front (w : World) (reader : RequestBodyReader) {len : Nat}
    (fits : reader.rest.length ≤ len) :
    ∃ ret reader' w', runIn (storageWriteUserIndexStream requestBodyRead len reader) w =
        ((ret, reader'), w') ∧ w'.sent = w.sent ∧
      ((ret < 0 ∧ w'.disk.node .userIndex = w.disk.node .userIndex) ∨
        ∃ m, w'.disk.node .userIndex = some (.file ((unreadBody reader w).take m)) ∧
          (0 ≤ ret → m = len ∧ len ≤ (unreadBody reader w).length ∧
            w'.inbound = (unreadBody reader w).drop len)) := by
  obtain ⟨ret, w₁, opening, -, outcome⟩ := openUserIndex_run w
  rw [storageWriteUserIndexStream_eq, runIn_bind, opening]
  rcases outcome with ⟨failed, same, -⟩ | ⟨rfl, emptied, -⟩
  · simp only [if_pos failed]
    exact ⟨ret, reader, w₁, rfl, same.sent, .inl ⟨failed, same.page⟩⟩
  have unread : unreadBody reader w₁ = unreadBody reader w := by
    rw [unreadBody, emptied.inbound, unreadBody]
  have writing : Writing [] w₁ := ⟨emptied.opened.file, emptied.opened.page⟩
  obtain ⟨m, ret, remaining, reader', w₂, copy, written, sent, draws, -, whole⟩ :=
    copyLoop_front writing len 0 len (Nat.le_refl _) reader
  simp only
  rw [if_neg (by decide), runIn_bind, copy]
  simp only
  rw [runIn_bind]
  have files := run_sameFiles (closeUserIndex_noFile ret remaining) w₂
  have fails : ret < 0 → (runIn (closeUserIndex ret remaining) w₂).1 < 0 := fun failed =>
    (closeUserIndex_failed failed remaining).run World.serve w₂
  generalize runIn (closeUserIndex ret remaining) w₂ = closing at files fails ⊢
  obtain ⟨ret', w₃⟩ := closing
  rw [List.nil_append, unread] at written
  rw [unread] at whole
  refine ⟨ret', reader', w₃, rfl, files.sent.trans (sent.trans emptied.sent), .inr ⟨m, ?_, ?_⟩⟩
  · exact (congrFun files.node _).trans written.page
  · intro ok
    have copied : 0 ≤ ret := Int.not_lt.mp fun failed => absurd (fails failed) (Int.not_lt.mpr ok)
    obtain ⟨rfl, enough, rest⟩ := whole copied
    refine ⟨rfl, enough, files.inbound.trans ?_⟩
    rw [← unread] at rest ⊢
    exact draws.drained fits rest

/-! ## Receiving, whatever fails -/

/-- A connection that fails is gone; the others are received as they come. -/
theorem recvRequest_front (w : World) (fd : Fd) (fuel : Nat) (request : Bytes)
    (missing : findHeaderEnd request = none) (room : request.length ≤ httpRequestMax - 1)
    (enough : httpRequestMax - 1 - request.length ≤ fuel) :
    ∃ result w', runIn (recvRequest fd fuel request) w = (result, w') ∧
      (result = .gone ∨ Receives (request ++ w.inbound) result w'.inbound) := by
  -- on the free space of the buffer: no round before has found the end of the header
  induction fuel generalizing w request with
  | zero =>
      have full : request.length = httpRequestMax - 1 := by omega
      exact ⟨_, w, rfl, .inr (.tooLarge request _ rfl missing full)⟩
  | succ fuel ih =>
      rw [recvRequest]
      by_cases short : request.length < httpRequestMax - 1
      case neg =>
        have full : request.length = httpRequestMax - 1 := by omega
        rw [if_neg short]
        exact ⟨_, w, rfl, .inr (.tooLarge request _ rfl missing full)⟩
      have left : 0 < httpRequestMax - 1 - request.length := by omega
      rw [if_pos short]
      simp only [perform, Prog.perform_bind, Prog.run_call]
      rcases serve_recv w fd request.length left with
        ⟨-, ⟨e, served⟩ | served⟩ | ⟨⟨chunk, fits⟩, rest, filled, inbound, served⟩
      · simp only [served]
        exact ⟨_, _, rfl, .inl rfl⟩
      · simp only [served]
        exact ⟨_, _, rfl, .inl rfl⟩
      · cases chunk with
        | nil => exact absurd rfl filled
        | cons b more =>
            have grown : (request ++ b :: more).length = request.length + (b :: more).length :=
              List.length_append
            have some : 0 < (b :: more).length := Nat.succ_pos _
            have all : request ++ w.inbound = request ++ b :: more ++ rest := by
              rw [inbound, List.append_assoc]
            simp only [served]
            rw [all]
            cases found : findHeaderEnd (request ++ b :: more) with
            | some headerEnd =>
                refine ⟨_, _, rfl, .inr (.header _ rest headerEnd rfl found ?_)⟩
                have : httpRequestMax = 1536 := rfl
                omega
            | none =>
                exact ih { w with fates := w.fatesAfter .recv, inbound := rest }
                  (request ++ b :: more) found (by omega) (by omega)

/-- What the server does first. -/
theorem handleClient_receives (w : World) (fd : Fd) :
    ∃ result w₁, runIn (recvRequest fd (httpRequestMax - 1) []) w = (result, w₁) ∧ SameServer w w₁ ∧
      (result = .gone ∨ Receives w.inbound result w₁.inbound) := by
  obtain ⟨result, w₁, run, receives⟩ := recvRequest_front w fd (httpRequestMax - 1) [] rfl
    (Nat.zero_le _) (Nat.le_refl _)
  have only : (recvRequest fd (httpRequestMax - 1) []).Only OnlyRecv :=
    recvRequest_only (fun _ _ _ => trivial) _ _
  have kept := run_sameServer only w
  rw [run] at kept
  exact ⟨result, w₁, run, kept, receives⟩

/-! ## The page and the connection -/

/-- The answer says that the page has been written. -/
def Confirms (answer : Bytes) : Prop := startsWith answer "HTTP/1.0 201 "

/-- What the client sends is an upload that is let through: a header that names the page and
declares `len` bytes, and what is behind it. -/
structure Uploads (stream header rest : Bytes) (len : Nat) : Prop where
  split : stream = header ++ rest
  whole : WholeHeader header
  route : startsWith header "PUT /user/index.html "
  length : ∃ digits, lookup (lit "Content-Length") (headerLines header) = some digits ∧
    digits.all isDigit ∧ ofDigits digits % 2 ^ 32 = len
  small : len ≤ userIndexMax

/-- What becomes of the page in a connection: `stream` is what the client sends, `answer` what it
is sent, and `left` is what the server has not taken off the connection. -/
inductive Touches (stream answer left : Bytes) (before : Option Node) : Option Node → Prop
  | spared (unconfirmed : ¬ Confirms answer) : Touches stream answer left before before
  | cut {header rest : Bytes} {len : Nat} (m : Nat) (uploads : Uploads stream header rest len)
      (unconfirmed : ¬ Confirms answer) :
      Touches stream answer left before (some (.file (rest.take m)))
  | stored {header rest : Bytes} {len : Nat} (uploads : Uploads stream header rest len)
      (enough : len ≤ rest.length) (rest_left : left = rest.drop len) :
      Touches stream answer left before (some (.file (rest.take len)))

/-- An upload that was told so: its body, all that was received of it, is the page. -/
theorem Touches.confirmed {stream answer : Bytes} {before after : Option Node}
    (touches : Touches stream answer [] before after) (confirms : Confirms answer) :
    ∃ header body, Uploads stream header body body.length ∧ after = some (.file body) := by
  cases touches with
  | spared unconfirmed => exact absurd confirms unconfirmed
  | cut m uploads unconfirmed => exact absurd confirms unconfirmed
  | @stored header rest len uploads enough left =>
      have short : rest.length ≤ len := List.drop_eq_nil_iff.mp left.symm
      obtain rfl : len = rest.length := Nat.le_antisymm enough short
      exact ⟨header, rest, uploads, by rw [List.take_length]⟩

/-- Nothing but an upload touches the page. -/
theorem Touches.quiet {stream answer left : Bytes} {before after : Option Node}
    (touches : Touches stream answer left before after)
    (other : ¬ startsWith stream "PUT /user/index.html ") : after = before := by
  have names {header rest : Bytes} {len : Nat} (uploads : Uploads stream header rest len) :
      startsWith stream "PUT /user/index.html " := by
    rw [uploads.split]
    refine List.isPrefixOf_iff_prefix.mpr ?_
    exact (List.isPrefixOf_iff_prefix.mp uploads.route).trans (List.prefix_append _ _)
  cases touches with
  | spared => rfl
  | cut m uploads => exact absurd (names uploads) other
  | stored uploads => exact absurd (names uploads) other

section Confirms

variable {text answer : Bytes}

theorem Confirms.front (confirms : Confirms answer) (front : answer <+: text) :
    startsWith text "HTTP/1.0 201 " :=
  List.isPrefixOf_iff_prefix.mpr ((List.isPrefixOf_iff_prefix.mp confirms).trans front)

theorem not_confirms (other : String) (begins : startsWith text other)
    (differ : ¬ (lit other <+: lit "HTTP/1.0 201 " ∨ lit "HTTP/1.0 201 " <+: lit other))
    (front : answer <+: text) : ¬ Confirms answer := fun confirms =>
  startsWith_exclusive differ begins (confirms.front front)

theorem not_confirms_nil : ¬ Confirms [] := by
  unfold Confirms
  decide

theorem httpHeader_unconfirmed {status type : String} {n : Nat} {body : Bytes}
    (differ : ¬ (lit status <+: lit "201 " ∨ lit "201 " <+: lit status))
    (front : answer <+: httpHeader status type n ++ body) : ¬ Confirms answer := by
  intro confirms
  have version : lit "HTTP/1.0 201 " = lit "HTTP/1.0 " ++ lit "201 " := by decide
  have begins := List.isPrefixOf_iff_prefix.mp (confirms.front front)
  simp only [httpHeader, List.append_assoc, version] at begins
  have behind := (List.prefix_append_right_inj _).mp begins
  exact differ (List.prefix_or_prefix_of_prefix (List.prefix_append _ _) behind)

/-- No other answer says so. -/
theorem Offers.unconfirmed {indexHtml request header body : Bytes} {fd : Fd} {w : World}
    {headerEnd : Nat} (offers : Offers indexHtml fd w request headerEnd header body)
    (other : ¬ startsWith (cString request) "PUT /user/index.html ")
    (front : answer <+: header ++ body) : ¬ Confirms answer := by
  cases offers with
  | upgrade =>
      rw [List.append_nil] at front
      refine not_confirms "HTTP/1.1" (List.isPrefixOf_iff_prefix.mpr ?_) (by decide) front
      simp only [upgradeText, List.append_assoc]
      exact List.IsPrefix.trans (by decide) (List.prefix_append _ _)
  | upload put => exact absurd put other
  | icon =>
      have begins : startsWith (lit noContent) "HTTP/1.0 204" := by decide +kernel
      rw [List.append_nil] at front
      exact not_confirms "HTTP/1.0 204" begins (by decide) front
  | status | userPage | noUserPage | largeUserPage | index | unknown =>
      exact httpHeader_unconfirmed (by decide) front

end Confirms

section Connection

variable {w : World}

theorem Begun.front {text : Bytes} {w' : World} (begun : Begun text w w') (unsent : w.sent = []) :
    w'.sent <+: text := by
  obtain ⟨put, sent, front⟩ := begun
  rw [sent, unsent]
  exact front

/-- The call of the storage and the response to its outcome. -/
theorem store_page (fd : Fd) (request : Bytes) (headerEnd n : Nat) (unsent : w.sent = [])
    (fits : (buffered request headerEnd).length ≤ n) :
    ∃ w', (runIn (store fd request headerEnd n) w).2 = w' ∧
      ((¬ Confirms w'.sent ∧ w'.disk.node .userIndex = w.disk.node .userIndex) ∨
        ∃ m, w'.disk.node .userIndex =
            some (.file ((buffered request headerEnd ++ w.inbound).take m)) ∧
          (Confirms w'.sent → m = n ∧ n ≤ (buffered request headerEnd ++ w.inbound).length ∧
            w'.inbound = (buffered request headerEnd ++ w.inbound).drop n)) := by
  obtain ⟨ret, reader, w₁, stored, quiet, outcome⟩ := storageWriteUserIndexStream_front w
    { fd, pending := buffered request headerEnd } fits
  have refused (status text : String) :
      (runIn (refuse fd status text) w₁).2.disk = w₁.disk ∧
        (runIn (refuse fd status text) w₁).2.inbound = w₁.inbound ∧
        (runIn (refuse fd status text) w₁).2.sent <+: textResponse status text :=
    ⟨run_disk (refuse_only (fun _ _ => trivial) (fun _ => trivial) fd status text) w₁,
      (run_inbound (refuse_only (fun _ _ => trivial) (fun _ => trivial) fd status text) w₁).1,
      (refuse_begun fd status text w₁).front (quiet.trans unsent)⟩
  unfold store
  rw [runIn_bind, stored]
  refine ⟨_, rfl, ?_⟩
  simp only
  by_cases failed : ret < 0
  · rw [if_pos failed]
    obtain ⟨disk, -, sent⟩ := refused "500 Internal Server Error" "user page write failed\n"
    have unconfirmed := httpHeader_unconfirmed (by decide) sent
    rw [disk]
    rcases outcome with ⟨-, same⟩ | ⟨m, page, -⟩
    · exact .inl ⟨unconfirmed, same⟩
    · exact .inr ⟨m, page, fun confirms => absurd confirms unconfirmed⟩
  · rw [if_neg failed]
    obtain ⟨disk, inbound, -⟩ := refused "201 Created" "user page written\n"
    rw [disk, inbound]
    obtain ⟨m, page, whole⟩ := outcome.resolve_left fun stopped => failed stopped.1
    exact .inr ⟨m, page, fun _ => whole (Int.not_lt.mp failed)⟩

theorem uploadRoute_touches (fd : Fd) {request : Bytes} {headerEnd : Nat}
    (complete : findHeaderEnd request = some headerEnd)
    (put : startsWith (cString request) "PUT /user/index.html ") (unsent : w.sent = []) :
    ∃ w', (runIn (uploadRoute fd request headerEnd) w).2 = w' ∧
      Touches (request ++ w.inbound) w'.sent w'.inbound (w.disk.node .userIndex)
        (w'.disk.node .userIndex) := by
  have refused (status text : String)
      (differ : ¬ (lit status <+: lit "201 " ∨ lit "201 " <+: lit status)) :
      ∃ w', (runIn (refuse fd status text) w).2 = w' ∧
        Touches (request ++ w.inbound) w'.sent w'.inbound (w.disk.node .userIndex)
          (w'.disk.node .userIndex) := by
    refine ⟨_, rfl, ?_⟩
    rw [run_disk (refuse_only (fun _ _ => trivial) (fun _ => trivial) fd status text) w]
    exact .spared (httpHeader_unconfirmed differ ((refuse_begun fd status text w).front unsent))
  rcases uploadRoute_cases fd complete with
    ⟨-, route⟩ | ⟨digits, declares, ⟨-, route⟩ | ⟨all, n, value, route⟩⟩
  · rw [route]
    exact refused _ _ (by decide)
  · rw [route]
    exact refused _ _ (by decide)
  rw [route]
  by_cases large : n > userIndexMax
  · rw [if_pos large]
    exact refused _ _ (by decide)
  rw [if_neg large]
  by_cases more : (buffered request headerEnd).length > n
  · rw [if_pos more]
    exact refused _ _ (by decide)
  rw [if_neg more]
  obtain ⟨header, rest, is, length, whole⟩ := findHeaderEnd_split complete
  have pending : buffered request headerEnd = rest := by
    rw [is, buffered, ← length, List.drop_left]
  have uploads : Uploads (request ++ w.inbound) header (rest ++ w.inbound) n := by
    refine ⟨?_, whole, ?_, ⟨digits, ?_, all, value.symm⟩, Nat.not_lt.mp large⟩
    · rw [is, List.append_assoc]
    · rw [is, whole.startsWith rest (by decide)] at put
      exact put
    · rw [is, whole.declared] at declares
      exact declares
  obtain ⟨w', run, outcome⟩ := store_page fd request headerEnd n unsent (Nat.not_lt.mp more)
  refine ⟨w', run, ?_⟩
  rw [pending] at outcome
  rcases outcome with ⟨unconfirmed, same⟩ | ⟨m, page, confirmed⟩
  · rw [same]
    exact .spared unconfirmed
  · rw [page]
    by_cases confirms : Confirms w'.sent
    · obtain ⟨rfl, enough, rest_left⟩ := confirmed confirms
      exact .stored uploads enough rest_left
    · exact .cut m uploads confirms

/-- Whatever fails, and whenever, a connection leaves the page alone, or it is an upload that is
let through; and where it is told so, all of the upload is in the page. -/
theorem handleClient_touches (indexHtml : Bytes) (fuel : Nat) (fd : Fd) (unsent : w.sent = []) :
    ∃ w', (runIn (handleClient indexHtml fuel fd) w).2 = w' ∧
      Touches w.inbound w'.sent w'.inbound (w.disk.node .userIndex) (w'.disk.node .userIndex) := by
  obtain ⟨result, w₁, run, ⟨sent, -, -, disk⟩, receives⟩ := handleClient_receives w fd
  rw [unsent] at sent
  rw [handleClient_eq, runIn_bind, run, ← disk]
  rcases receives with rfl | receives
  · refine ⟨_, rfl, .spared ?_⟩
    show ¬ Confirms w₁.sent
    rw [sent]
    exact not_confirms_nil
  generalize left : w₁.inbound = inbound at receives
  cases receives with
  | gone =>
      refine ⟨_, rfl, .spared ?_⟩
      show ¬ Confirms w₁.sent
      rw [sent]
      exact not_confirms_nil
  | tooLarge request inbound =>
      simp only [answerRequest]
      rw [runIn_bind]
      refine ⟨_, rfl, ?_⟩
      show Touches _ _ _ _ ((runIn (answer fd requestTooLarge) w₁).2.disk.node .userIndex)
      rw [run_disk (answer_only (fun _ _ => trivial) (fun _ => trivial) fd requestTooLarge) w₁]
      have begins : startsWith (lit requestTooLarge) "HTTP/1.0 431" := by decide +kernel
      exact .spared (not_confirms "HTTP/1.0 431" begins (by decide)
        ((answer_begun fd requestTooLarge w₁).front sent))
  | header request inbound headerEnd split complete room =>
      by_cases put : startsWith (cString request) "PUT /user/index.html "
      · rw [answerRequest_put indexHtml fuel fd put, runIn_bind, split, ← left]
        exact uploadRoute_touches fd complete put sent
      have spared {p : HttpProg Bool} (only : p.Only LeavesPage)
          (partly : Partly indexHtml fd request headerEnd w₁ (runIn p w₁).2) :
          ∃ w', (runIn p w₁).2 = w' ∧
            Touches w.inbound w'.sent w'.inbound (w₁.disk.node .userIndex)
              (w'.disk.node .userIndex) := by
        refine ⟨_, rfl, ?_⟩
        rw [run_leavesPage only]
        refine .spared ?_
        rcases partly with quiet | ⟨header, body, offers, begun⟩
        · rw [quiet, sent]
          exact not_confirms_nil
        · exact offers.unconfirmed put (begun.front sent)
      simp only [answerRequest]
      by_cases upgrade : requestIsWebsocket (cString request)
      · rw [if_pos upgrade]
        refine spared ?_ ?_
        · exact (upgradeRoute_only trivial trivial trivial (fun _ => trivial) (fun _ => trivial)
            (fun _ => trivial) trivial _ _).bind fun _ => trivial
        · rw [runIn_bind]
          exact upgradeRoute_partly indexHtml fd complete upgrade
      · rw [if_neg upgrade]
        exact spared (pageRoutes_leavesPage put indexHtml fuel request headerEnd)
          (pageRoutes_partly indexHtml fuel fd complete upgrade)

/-- A header that fits the buffer is received with some of what is behind it. -/
theorem WholeHeader.received {header stream inbound : Bytes} {received : Request}
    (whole : WholeHeader header) (fits : header.length < httpRequestMax)
    (receives : Receives (header ++ stream) received inbound) :
    ∃ front, received = .received (header ++ front) (some (header.length - 4)) ∧
      front ++ inbound = stream := by
  obtain ⟨found, four⟩ := whole.found stream
  have begins {request : Bytes} (split : header ++ stream = request ++ inbound)
      (long : header.length ≤ request.length) : ∃ front, header ++ front = request := by
    refine List.prefix_of_prefix_length_le (List.prefix_append header stream) ?_ long
    rw [split]
    exact List.prefix_append request inbound
  cases receives with
  | gone missing => exact absurd (found.symm.trans missing) (Option.some_ne_none _)
  | tooLarge request inbound split missing full =>
      obtain ⟨front, rfl⟩ := begins split (by omega)
      exact absurd ((whole.found front).1.symm.trans missing) (Option.some_ne_none _)
  | header request inbound headerEnd split complete =>
      have still := findHeaderEnd_append complete inbound
      rw [← split] at still
      obtain rfl : header.length - 4 = headerEnd := Option.some.inj (found.symm.trans still)
      have bound := findHeaderEnd_bound complete
      obtain ⟨front, rfl⟩ := begins split (by omega)
      rw [List.append_assoc] at split
      exact ⟨front, rfl, (List.append_cancel_left split).symm⟩

/-- What the client sends is a visit to the page. -/
structure Visits (stream header rest : Bytes) : Prop where
  split : stream = header ++ rest
  whole : WholeHeader header
  route : startsWith header "GET /user " ∨ startsWith header "GET /user/ "
  fits : header.length < httpRequestMax

/-- Whatever fails, and whenever, a visit is sent the front of the page, or is told that there is
none. -/
theorem handleClient_visits (indexHtml : Bytes) (fuel : Nat) (fd : Fd) (unsent : w.sent = [])
    {header rest : Bytes} (visits : Visits w.inbound header rest) :
    (runIn (handleClient indexHtml fuel fd) w).2.sent <+: lit userPageNotFound ∨
      (runIn (handleClient indexHtml fuel fd) w).2.sent <+: w.disk.pageText := by
  obtain ⟨split, whole, route, fits⟩ := visits
  obtain ⟨result, w₁, run, ⟨sent, -, -, disk⟩, receives⟩ := handleClient_receives w fd
  rw [unsent] at sent
  rw [handleClient_eq, runIn_bind, run, ← disk]
  rcases receives with rfl | receives
  · refine .inl ?_
    show w₁.sent <+: _
    rw [sent]
    exact List.nil_prefix
  rw [split] at receives
  obtain ⟨front, rfl, -⟩ := whole.received fits receives
  have user : GetsUserPage (header ++ front) := by
    unfold GetsUserPage
    rw [whole.startsWith front (by decide), whole.startsWith front (by decide)]
    exact route
  rw [getsUserPage_route user]
  rcases userPageRoute_begun (w := w₁) fd fuel with ⟨-, begun⟩ | ⟨content, -, begun⟩
  · exact .inl (begun.front sent)
  · exact .inr (begun.front sent)

end Connection

end PicoCan.Http
