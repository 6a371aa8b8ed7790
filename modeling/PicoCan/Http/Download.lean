import PicoCan.Http.Mount

/-!
# Sending the user page

`storage_user_index_size` and `storage_stream_user_index`, where no open, read or send
fails: what the size function reports is what the copy then sends, in whatever pieces the
file is read and the socket takes it.
-/

namespace PicoCan.Http

open Calls

/-! ## The size -/

/-- The size is that of the page, unless there is none, its status cannot be read, or the
storage is not mounted. -/
theorem storageUserIndexSize_run (w : World) :
    ∃ ret len w', runIn (storageUserIndexSize 0) w = ((ret, len), w') ∧ SameFiles w w' ∧
      Mounted w.disk.mountOutcome w' ∧
      ((ret < 0 ∧ (w.disk.mountOutcome < 0 ∨ ¬ w.FineAt .stat ∨
          ∀ content, w.disk.node .userIndex ≠ some (.file content))) ∨
        (ret = 0 ∧ ¬ w.disk.mountOutcome < 0 ∧
          ∃ content, w.disk.node .userIndex = some (.file content) ∧ len = content.length)) := by
  obtain ⟨w₁, mount, same, mounted⟩ := storageMountOnce_run w
  unfold storageUserIndexSize
  rw [runIn_bind, mount]
  generalize w.disk.mountOutcome = outcome at mounted ⊢
  by_cases failed : outcome < 0
  · simp only [if_pos failed]
    exact ⟨_, _, w₁, rfl, same, mounted, .inl ⟨failed, .inl failed⟩⟩
  simp only [if_neg failed, file, perform, Prog.perform_bind, Prog.run_call]
  have stats : (Prog.perform (.fs (.fsStat .userIndex)) : HttpProg _).Only NoMount :=
    ⟨trivial, fun _ => trivial⟩
  have kept : Mounted outcome (World.serve (.fs (.fsStat .userIndex)) w₁).2 := mounted.run stats
  have files : SameFiles w (World.serve (.fs (.fsStat .userIndex)) w₁).2 :=
    same.trans (serve_sameFiles (show NoFile (.fs (.fsStat .userIndex)) from trivial) w₁)
  rcases serve_stat .userIndex w₁ with ⟨e, served, unlucky⟩ | ⟨served, gone⟩ | ⟨node, served, page⟩
  · rw [served]
    exact ⟨_, _, _, rfl, files, kept, .inl ⟨e.ret_neg, .inr (.inl fun fine =>
      unlucky (fine.later same.later))⟩⟩
  · have missing : ∀ content, w.disk.node .userIndex ≠ some (.file content) := by
      intro content is
      rw [← same.node, gone] at is
      cases is
    rw [served]
    exact ⟨_, _, _, rfl, files, kept, .inl ⟨errnoNoEnt.ret_neg, .inr (.inr missing)⟩⟩
  · rw [served]
    rw [same.node] at page
    cases node with
    | dir =>
        refine ⟨_, _, _, rfl, files, kept, .inl ⟨by decide, .inr (.inr fun content is => ?_)⟩⟩
        rw [page] at is
        cases is
    | file content => exact ⟨_, _, _, rfl, files, kept, .inr ⟨rfl, failed, content, page, rfl⟩⟩

/-! ## The copy -/

/-- The page is open, and its first `pos` bytes have been sent since `start`. -/
structure Streaming (start : World) (content : Bytes) (pos : Nat) (w : World) : Prop where
  later : World.Later start w
  file : w.disk.file = some ⟨.userIndex, { read := true }, pos⟩
  page : w.disk.node .userIndex = some (.file content)
  sent : w.sent = start.sent ++ content.take pos

section Copy

variable {start : World} {content : Bytes} (reads : start.FineAt .read)
  (sends : start.FineAt .send)

include reads in
/-- A read delivers the next bytes of the page, and none only at its end. -/
theorem serve_read {pos : Nat} {w : World} (at_w : Streaming start content pos w) :
    ∃ (buf : Chunk storageIoChunk) (w' : World),
      World.serve (.fs (.fsRead storageIoChunk)) w = (.ok buf, w') ∧
      content.drop pos = buf.val ++ content.drop (pos + buf.val.length) ∧
      (buf.val = [] → content.length ≤ pos) ∧ World.Later w w' ∧ w'.sent = w.sent ∧
      w'.disk.file = some ⟨.userIndex, { read := true }, pos + buf.val.length⟩ ∧
      w'.disk.node = w.disk.node := by
  have fate := (reads.later at_w.later).fate
  have some : 0 < (w.fate .read).upTo storageIoChunk := fate.upTo_pos (by decide)
  have holds : w.disk.content .userIndex = content := by
    rw [Disk.content, at_w.page]
  generalize count : (w.fate .read).upTo storageIoChunk = n at some
  have short : ((content.drop pos).take n).length ≤ storageIoChunk := by
    rw [← count]
    exact Nat.le_trans (List.length_take_le _ _) (Luck.upTo_le _ _)
  refine ⟨⟨(content.drop pos).take n, short⟩, { w with
    fates := w.fatesAfter .read
    disk := { w.disk with
      file := .some ⟨.userIndex, { read := true }, pos + ((content.drop pos).take n).length⟩ } },
    ?_, ?_, fun none => ?_, World.fatesAfter_suffix w .read, rfl, rfl, rfl⟩
  · subst count
    simp only [World.serve, HttpCall.kind, FsCall.kind, World.respond, Disk.serve, fate.1,
      at_w.file, holds, if_true]
  · show content.drop pos = (content.drop pos).take n ++
      content.drop (pos + ((content.drop pos).take n).length)
    rw [← List.drop_drop, List.length_take]
    by_cases all : n ≤ (content.drop pos).length
    · rw [Nat.min_eq_left all, List.take_append_drop]
    · have beyond : (content.drop pos).length ≤ n := by omega
      rw [Nat.min_eq_right beyond, List.take_of_length_le beyond, List.drop_length, List.append_nil]
  · have empty := congrArg List.length none
    rw [List.length_take, List.length_drop, List.length_nil] at empty
    omega

include reads sends in
/-- Everything that is left of the page is sent. -/
theorem streamLoop_fine (fd : Fd) (fuel : Nat) {pos : Nat} {w : World}
    (at_w : Streaming start content pos w) (enough : content.length - pos < fuel) :
    ∃ w', runIn (streamLoop (socketWrite fd) fuel) w = (some 0, w') ∧
      w'.sent = start.sent ++ content := by
  induction fuel generalizing pos w with
  | zero => omega
  | succ fuel ih =>
      obtain ⟨⟨buf, fits⟩, w', served, split, ends, later, sent, file, node⟩ :=
        serve_read reads at_w
      simp only [streamLoop, Http.file, perform, Prog.perform_bind, Prog.run_call, served]
      cases buf with
      | nil =>
          refine ⟨w', rfl, ?_⟩
          rw [sent, at_w.sent, List.take_of_length_le (ends rfl)]
      | cons b more =>
          have sends' : w'.FineAt .send := (sends.later at_w.later).later later
          obtain ⟨fates, later', run⟩ := sendAll_fine sends' fd (b :: more)
          show ∃ w'', runIn (socketWrite fd (b :: more) >>= fun ret =>
            if ret < 0 then .ret (some ret) else streamLoop (socketWrite fd) fuel) w' = _ ∧ _
          rw [runIn_bind, socketWrite, run]
          simp only
          rw [if_neg (by decide)]
          have filled : 0 < (b :: more).length := Nat.succ_pos _
          obtain ⟨buf, chunk⟩ : ∃ buf, buf = b :: more := ⟨_, rfl⟩
          rw [← chunk] at filled ⊢
          replace split : content.drop pos = buf ++ content.drop (pos + buf.length) := chunk ▸ split
          replace file : w'.disk.file = some ⟨.userIndex, { read := true }, pos + buf.length⟩ :=
            chunk ▸ file
          have inside : pos + buf.length ≤ content.length := by
            have whole := congrArg List.length split
            rw [List.length_append, List.length_drop, List.length_drop] at whole
            omega
          have next : Streaming start content (pos + buf.length)
              { w' with fates, sent := w'.sent ++ buf } := by
            refine ⟨(at_w.later.trans later).trans later', file,
              (congrFun node .userIndex).trans at_w.page, ?_⟩
            have taken : content.take (pos + buf.length) = content.take pos ++ buf := by
              rw [List.take_add, split, List.take_left]
            rw [taken, sent, at_w.sent, List.append_assoc]
          exact ih next (by omega)

end Copy

/-- A page whose size is known is sent whole. -/
theorem storageStreamUserIndex_fine {w : World} {content : Bytes} {ret : Int}
    (mounted : Mounted ret w) (success : ¬ ret < 0)
    (page : w.disk.node .userIndex = some (.file content)) (opens : w.FineAt .open)
    (reads : w.FineAt .read) (sends : w.FineAt .send) (fd : Fd) {fuel : Nat}
    (enough : content.length < fuel) :
    ∃ w', runIn (storageStreamUserIndex fuel (socketWrite fd)) w = (some 0, w') ∧
      w'.sent = w.sent ++ content := by
  obtain ⟨w₁, mount, same, -⟩ := storageMountOnce_run w
  rw [mounted.outcome] at mount
  unfold storageStreamUserIndex
  rw [runIn_bind, mount]
  simp only [if_neg success, file, perform, Prog.perform_bind, Prog.run_call]
  obtain ⟨w₂, opening⟩ : ∃ w₂, w₂ = ({ w₁ with
    fates := w₁.fatesAfter .open
    disk := { w₁.disk with file := some ⟨.userIndex, { read := true }, 0⟩ } } : World) := ⟨_, rfl⟩
  have opened : World.serve (.fs (.fsOpen .userIndex { read := true })) w₁ = ((0 : Int), w₂) := by
    have fate := (opens.later same.later).fate.1
    have still : w₁.disk.node .userIndex = some (.file content) := (congrFun same.node _).trans page
    rw [opening]
    simp only [World.serve, HttpCall.kind, FsCall.kind, World.respond, Disk.serve, Disk.openFile,
      fate, still]
    rfl
  rw [opened]
  simp only
  rw [if_neg (by decide), Prog.run_bind]
  have streaming : Streaming w content 0 w₂ := by
    subst opening
    refine ⟨same.later.trans (World.fatesAfter_suffix w₁ .open), rfl,
      (congrFun same.node _).trans page, ?_⟩
    rw [List.take_zero, List.append_nil]
    exact same.sent
  obtain ⟨w₃, run, sent⟩ := streamLoop_fine reads sends fd fuel streaming (by omega)
  unfold runIn at run
  rw [run]
  exact ⟨_, rfl, sent⟩

end PicoCan.Http
