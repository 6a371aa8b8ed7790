import PicoCan.Http.Smooth

/-!
# The mount

The storage is mounted when it is first asked for, and never again: `mount_attempted`
stays set, and every later call returns the result that was kept. Nothing of it touches a
file.
-/

namespace PicoCan.Http

open Calls

/-! ## Calls that leave the files alone -/

/-- The calls that leave every file alone. -/
def NoFile (c : HttpCall) : Prop :=
  match c with
  | .fs (.fsMkdir _) | .fs (.fsOpen _ _) | .fs (.fsRead _) | .fs (.fsWrite _) => False
  | .fs _ => True
  | _ => False

/-- The files and the connection are the same. -/
structure SameFiles (w w' : World) : Prop where
  later : World.Later w w'
  sent : w'.sent = w.sent
  inbound : w'.inbound = w.inbound
  node : w'.disk.node = w.disk.node
  truncations : w'.disk.truncations = w.disk.truncations
  taken : w'.disk.taken = w.disk.taken

theorem SameFiles.refl (w : World) : SameFiles w w :=
  ⟨World.Later.refl w, rfl, rfl, rfl, rfl, rfl⟩

theorem SameFiles.trans {w w' w'' : World} (first : SameFiles w w') (rest : SameFiles w' w'') :
    SameFiles w w'' :=
  ⟨first.later.trans rest.later, rest.sent.trans first.sent, rest.inbound.trans first.inbound,
    rest.node.trans first.node, rest.truncations.trans first.truncations,
    rest.taken.trans first.taken⟩

theorem serve_sameFiles {c : HttpCall} (call : NoFile c) (w : World) :
    SameFiles w (World.serve c w).2 := by
  have later := World.serve_later c w
  cases c with
  | fs c =>
      cases c with
      | fsMkdir | fsOpen | fsRead | fsWrite => exact call.elim
      | fsStatvfs =>
          refine ⟨later, rfl, rfl, ?_, ?_, ?_⟩ <;>
            simp only [World.serve, World.respond, Disk.serve] <;> split <;> rfl
      | fsStat =>
          refine ⟨later, rfl, rfl, ?_, ?_, ?_⟩ <;>
            simp only [World.serve, World.respond, Disk.serve] <;> split <;> rfl
      | fsSync | fsClose =>
          refine ⟨later, rfl, rfl, ?_, ?_, ?_⟩ <;>
            simp only [World.serve, World.respond, Disk.serve] <;> split <;> rfl
      | _ => exact ⟨later, rfl, rfl, rfl, rfl, rfl⟩
  | _ => exact call.elim

theorem run_sameFiles {α : Type} {p : HttpProg α} (only : p.Only NoFile) (w : World) :
    SameFiles w (runIn p w).2 :=
  only.run_keeps (I := SameFiles w) (fun _ s call same => same.trans (serve_sameFiles call s))
    (SameFiles.refl w)

/-- The status of a path: it is missing, or it is what is there, where the call does not fail. -/
theorem serve_stat (path : Path) (w : World) :
    (∃ e, (World.serve (.fs (.fsStat path)) w).1 = .error e ∧ ¬ w.FineAt .stat) ∨
      ((World.serve (.fs (.fsStat path)) w).1 = .error errnoNoEnt ∧ w.disk.node path = none) ∨
      ∃ node, (World.serve (.fs (.fsStat path)) w).1 = .ok node.dirent ∧
        w.disk.node path = some node := by
  cases fails : (w.fate .stat).fail with
  | some e =>
      refine .inl ⟨e, ?_, World.not_fineAt fails⟩
      simp only [World.serve, HttpCall.kind, FsCall.kind, World.respond, Disk.serve, fails]
  | none =>
      cases entry : w.disk.node path with
      | none =>
          refine .inr (.inl ⟨?_, rfl⟩)
          simp only [World.serve, HttpCall.kind, FsCall.kind, World.respond, Disk.serve, fails,
            entry]
      | some node =>
          refine .inr (.inr ⟨node, ?_, rfl⟩)
          simp only [World.serve, HttpCall.kind, FsCall.kind, World.respond, Disk.serve, fails,
            entry]

/-- The calls that leave the outcome of the mount alone. -/
def NoMount (c : HttpCall) : Prop :=
  match c with
  | .fs (.mountAttemptedSet _) | .fs (.mountRetSet _) => False
  | _ => True

/-- The outcome of the mount is the same. -/
def SameMount (w w' : World) : Prop :=
  w'.disk.mountAttempted = w.disk.mountAttempted ∧ w'.disk.mountRet = w.disk.mountRet

theorem serve_sameMount {c : HttpCall} (call : NoMount c) (w : World) :
    SameMount w (World.serve c w).2 := by
  cases c with
  | fs c =>
      cases c with
      | mountAttemptedSet | mountRetSet => exact call.elim
      | fsOpen path flags =>
          simp only [SameMount, World.serve, World.respond, Disk.serve, Disk.openFile]
          split
          · exact ⟨rfl, rfl⟩
          · split
            · split <;> exact ⟨rfl, rfl⟩
            · exact ⟨rfl, rfl⟩
            · split <;> exact ⟨rfl, rfl⟩
      | fsStatvfs | fsStat | fsMkdir | fsRead | fsWrite | fsSync | fsClose =>
          simp only [SameMount, World.serve, World.respond, Disk.serve]
          repeat' split
          all_goals exact ⟨rfl, rfl⟩
      | _ => exact ⟨rfl, rfl⟩
  | recv | send | poll =>
      simp only [SameMount, World.serve, World.respond]
      split <;> exact ⟨rfl, rfl⟩
  | _ => exact ⟨rfl, rfl⟩

theorem run_sameMount {α : Type} {p : HttpProg α} (only : p.Only NoMount) (w : World) :
    SameMount w (runIn p w).2 :=
  only.run_keeps (I := SameMount w) (fun _ s call same =>
    ⟨(serve_sameMount call s).1.trans same.1, (serve_sameMount call s).2.trans same.2⟩) ⟨rfl, rfl⟩

theorem updateSpaceLocked_keeps {P : HttpCall → Prop}
    (set : ∀ total free, P (.fs (.spaceSet total free)))
    (get : P (.fs .mountedGet)) (statvfs : ∀ path, P (.fs (.fsStatvfs path))) :
    updateSpaceLocked.Only P := by
  refine ⟨set _ _, fun _ => ⟨get, fun mounted => .ite (fun _ => ⟨statvfs _, fun stat => ?_⟩)
    fun _ => trivial⟩⟩
  cases stat with
  | error e => trivial
  | ok stat => exact ⟨set _ _, fun _ => trivial⟩

/-- The calls of the mount. -/
def MountCall (c : HttpCall) : Prop :=
  match c with
  | .fs .storageLock | .fs .storageUnlock | .fs .mountAttemptedGet | .fs (.mountAttemptedSet _)
  | .fs .mountedGet | .fs (.mountedSet _) | .fs .mountRetGet | .fs (.mountRetSet _)
  | .fs (.spaceSet _ _) | .fs .fsMount | .fs (.fsStatvfs _) => True
  | _ => False

theorem storageMountOnce_calls : storageMountOnce.Only MountCall := by
  refine ⟨trivial, fun _ => ⟨trivial, fun attempted => .ite (fun _ => ?_) fun _ => ?_⟩⟩
  · exact ⟨trivial, fun _ => ⟨trivial, fun _ => trivial⟩⟩
  refine ⟨trivial, fun _ => ⟨trivial, fun ret => ⟨trivial, fun _ => ⟨trivial, fun _ => ?_⟩⟩⟩⟩
  refine .ite (fun _ => ?_) fun _ => ⟨trivial, fun _ => trivial⟩
  exact (updateSpaceLocked_keeps (fun _ _ => trivial) trivial fun _ => trivial).bind
    fun _ => ⟨trivial, fun _ => trivial⟩

theorem MountCall.noFile {c : HttpCall} (call : MountCall c) : NoFile c := by
  cases c with
  | fs c =>
      cases c with
      | fsMkdir | fsOpen | fsRead | fsWrite => exact call.elim
      | _ => trivial
  | _ => exact call.elim

/-- What the mount returns: the result that was kept, or else the medium's. -/
def Disk.mountOutcome (d : Disk) : Int := if d.mountAttempted then d.mountRet else d.mountResult

/-- The outcome is the same when the disk has kept it. -/
def Mounted (ret : Int) (w : World) : Prop := w.disk.mountAttempted = true ∧ w.disk.mountRet = ret

theorem Mounted.outcome {ret : Int} {w : World} (mounted : Mounted ret w) :
    w.disk.mountOutcome = ret := by
  rw [Disk.mountOutcome, if_pos mounted.1, mounted.2]

theorem Mounted.run {ret : Int} {w : World} (mounted : Mounted ret w) {α : Type} {p : HttpProg α}
    (only : p.Only NoMount) : Mounted ret (runIn p w).2 :=
  ⟨(run_sameMount only w).1.trans mounted.1, (run_sameMount only w).2.trans mounted.2⟩

/-- The mount is tried once, and its result is kept. -/
theorem storageMountOnce_run (w : World) :
    ∃ w', runIn storageMountOnce w = (w.disk.mountOutcome, w') ∧ SameFiles w w' ∧
      Mounted w.disk.mountOutcome w' := by
  have same := run_sameFiles (storageMountOnce_calls.mono fun _ call => call.noFile) w
  suffices ran : (runIn storageMountOnce w).1 = w.disk.mountOutcome ∧
      Mounted w.disk.mountOutcome (runIn storageMountOnce w).2 from
    ⟨_, Prod.ext ran.1 rfl, same, ran.2⟩
  cases attempted : w.disk.mountAttempted with
  | true =>
      simp [storageMountOnce, file, perform, World.serve, World.respond, Disk.serve, attempted,
        Mounted, Disk.mountOutcome]
  | false =>
      have outcome : w.disk.mountOutcome = w.disk.mountResult := by
        rw [Disk.mountOutcome, if_neg (by rw [attempted]; exact Bool.false_ne_true)]
      simp only [storageMountOnce, file, perform, Prog.perform_bind, Prog.run_call, World.serve,
        World.respond, Disk.serve, attempted]
      rw [if_neg Bool.false_ne_true, outcome]
      simp only [Prog.run_call, World.serve, World.respond, Disk.serve]
      have unlocks : (Prog.call (.fs .storageUnlock) fun _ => .ret w.disk.mountResult :
          HttpProg Int).Only NoMount := ⟨trivial, fun _ => trivial⟩
      have update : updateSpaceLocked.Only NoMount :=
        updateSpaceLocked_keeps (fun _ _ => trivial) trivial fun _ => trivial
      refine ⟨Prog.Returns.run (Q := (· = w.disk.mountResult)) _ ?_ _, Mounted.run ⟨rfl, rfl⟩ ?_⟩
      · exact .ite (fun _ => (Prog.returns_true _).bind fun _ _ _ => rfl) fun _ _ => rfl
      · exact .ite (fun _ => update.bind fun _ => unlocks) fun _ => unlocks

/-! ## What is known of the medium -/

/-- Whether the storage is mounted once it has been asked for. -/
def Disk.mountedThen (d : Disk) : Bool := if d.mountAttempted then d.mounted else d.mountResult = 0

/-- The space that is told: that of a mounted medium, or zeros. -/
def TellsSpace (d : Disk) (mounted : Bool) (totalKib freeKib : UInt32) : Prop :=
  (totalKib = 0 ∧ freeKib = 0) ∨ (mounted = true ∧
    totalKib = kib d.space.frsize d.space.blocks ∧ freeKib = kib d.space.frsize d.space.bfree)

theorem serve_statvfs (path : Path) (w : World) :
    (World.serve (.fs (.fsStatvfs path)) w).2.disk = w.disk ∧
      ((∃ e, (World.serve (.fs (.fsStatvfs path)) w).1 = .error e) ∨
        (World.serve (.fs (.fsStatvfs path)) w).1 = .ok w.disk.space) := by
  cases fails : (w.fate .statvfs).fail with
  | some e =>
      simp only [World.serve, HttpCall.kind, FsCall.kind, World.respond, Disk.serve, fails]
      exact ⟨trivial, .inl ⟨e, rfl⟩⟩
  | none =>
      simp only [World.serve, HttpCall.kind, FsCall.kind, World.respond, Disk.serve, fails]
      exact ⟨trivial, .inr trivial⟩

/-- The space is read anew, and nothing else. -/
theorem updateSpaceLocked_tells (w : World) : updateSpaceLocked.wp (Spec.of World.serve)
    (fun _ w' => ∃ totalKib freeKib, w'.disk = { w.disk with totalKib, freeKib } ∧
      TellsSpace w.disk w.disk.mounted totalKib freeKib) w := by
  have set (totalKib freeKib : UInt32) (w : World) :
      (World.serve (.fs (.spaceSet totalKib freeKib)) w).2.disk =
        { w.disk with totalKib, freeKib } := rfl
  unfold updateSpaceLocked
  simp only [file, perform, Prog.perform_bind, Prog.wp_call, Spec.of, Prog.wp_ite]
  refine ⟨fun on => ?_, fun _ => ⟨0, 0, rfl, .inl ⟨rfl, rfl⟩⟩⟩
  obtain ⟨same, answer⟩ := serve_statvfs .storage
    (World.serve (.fs .mountedGet) (World.serve (.fs (.spaceSet 0 0)) w).2).2
  rcases answer with ⟨e, failed⟩ | read
  · rw [failed]
    exact ⟨0, 0, same, .inl ⟨rfl, rfl⟩⟩
  · rw [read]
    refine ⟨_, _, ?_, .inr ⟨on, rfl, rfl⟩⟩
    rw [set, same]
    rfl

theorem storageMountOnce_disk (w : World) : storageMountOnce.wp (Spec.of World.serve)
    (fun _ w' => ∃ totalKib freeKib, w'.disk = { w.disk with
      mountAttempted := true, mountRet := w.disk.mountOutcome, mounted := w.disk.mountedThen,
      totalKib, freeKib }) w := by
  unfold storageMountOnce Disk.mountOutcome Disk.mountedThen
  simp only [file, perform, Prog.perform_bind, Prog.wp_call, Spec.of, Prog.wp_ite]
  constructor
  · intro attempted
    replace attempted : w.disk.mountAttempted = true := attempted
    refine ⟨w.disk.totalKib, w.disk.freeKib, ?_⟩
    rw [if_pos attempted, if_pos attempted, ← attempted]
    rfl
  · intro attempted
    replace attempted : ¬ w.disk.mountAttempted = true := attempted
    rw [if_neg attempted, if_neg attempted]
    refine ⟨fun _ => ?_, fun _ => ⟨_, _, rfl⟩⟩
    refine (Prog.wp_bind _ updateSpaceLocked _ _ _).mpr ?_
    refine Prog.wp_mono (Spec.of_mono _) ?_ (updateSpaceLocked_tells _)
    rintro _ w' ⟨totalKib, freeKib, disk, -⟩
    exact ⟨totalKib, freeKib, disk⟩

end PicoCan.Http
