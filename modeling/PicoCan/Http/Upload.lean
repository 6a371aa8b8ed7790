import PicoCan.Http.HeaderText
import PicoCan.Http.Request

/-!
# Copying an upload

The body reaches the file through three cuts: what was received with the header and what
comes later, the chunks the storage asks for, and what each write takes. Where no receive
fails, `Uploading` says how far the copy is, and every step of the two loops keeps it: what
has been written is what has been read, whatever the cuts were, as far as the medium has room.
-/

namespace PicoCan.Http

open Calls

/-- The bytes of the body that have not been read. -/
def unreadBody (reader : RequestBodyReader) (w : World) : Bytes :=
  reader.pending.drop reader.pendingPos ++ w.inbound

/-- The part of the body that was received with the header and has not been read. -/
def RequestBodyReader.rest (reader : RequestBodyReader) : Bytes :=
  reader.pending.drop reader.pendingPos

/-- Nothing is received before what was buffered has been read. -/
def Draws (reader : RequestBodyReader) (w : World) (reader' : RequestBodyReader) (w' : World) :
    Prop :=
  reader'.rest = [] ∨ (reader.rest ≠ [] ∧ w'.inbound = w.inbound)

theorem Draws.refl (reader : RequestBodyReader) (w : World) : Draws reader w reader w := by
  by_cases empty : reader.rest = []
  · exact .inl empty
  · exact .inr ⟨empty, rfl⟩

theorem Draws.trans {reader reader' reader'' : RequestBodyReader} {w w' w'' : World}
    (first : Draws reader w reader' w') (rest : Draws reader' w' reader'' w'') :
    Draws reader w reader'' w'' := by
  rcases rest with empty | ⟨some, same⟩
  · exact .inl empty
  · rcases first with empty | ⟨some', same'⟩
    · exact absurd empty some
    · exact .inr ⟨some', same.trans same'⟩

/-- The file of the user page has just been opened for an upload. -/
structure Opened (w : World) : Prop where
  file : w.disk.file = some ⟨.userIndex, { create := true, trunc := true, write := true }, 0⟩
  page : w.disk.node .userIndex = some (.file [])

/-! ## What a write leaves -/

theorem Disk.setNode_setNode (path : Path) (first last : Node) (d : Disk) :
    (d.setNode path first).setNode path last = d.setNode path last := by
  have nodes : ((d.setNode path first).setNode path last).node = (d.setNode path last).node := by
    funext p
    by_cases here : p = path <;> simp [setNode, here]
  exact congrArg (fun node => { d with node }) nodes

theorem Disk.setNode_same {path : Path} {node : Node} {d : Disk} (is : d.node path = some node) :
    d.setNode path node = d := by
  have nodes : (d.setNode path node).node = d.node := by
    funext p
    by_cases here : p = path
    · rw [setNode, here, is]
      exact if_pos rfl
    · exact if_neg here
  exact congrArg (fun node => { d with node }) nodes

/-- Bytes added to the page. -/
def Disk.wrote (d : Disk) (bytes : Bytes) : Disk :=
  { d.setNode .userIndex (.file (d.content .userIndex ++ bytes)) with taken := d.taken ++ bytes }

theorem Disk.wrote_wrote (d : Disk) (first rest : Bytes) :
    (d.wrote first).wrote rest = d.wrote (first ++ rest) := by
  have both := setNode_setNode .userIndex (.file (d.content .userIndex ++ first))
    (.file (d.content .userIndex ++ first ++ rest)) d
  unfold wrote
  rw [← List.append_assoc, ← List.append_assoc]
  exact congrArg (fun d' : Disk => { d' with taken := d.taken ++ first ++ rest }) both

theorem Disk.wrote_nil {d : Disk} {content : Bytes}
    (page : d.node .userIndex = some (.file content)) : d.wrote [] = d := by
  have holds : d.content .userIndex = content := by
    rw [Disk.content, page]
  unfold wrote
  rw [List.append_nil, List.append_nil, holds, setNode_same page]

/-! ## Writing -/

/-- The medium has room for this many bytes of an upload, or for any number: while there is room a
write takes some of what it is given, and then none. -/
def Takes (limit : Option Nat) (c : HttpCall) (w : World) : Prop :=
  match c with
  | .fs (.fsWrite data) =>
      ((w.fate .write).Fine ↔ ∀ room ∈ limit, w.disk.taken.length < room) ∧
        ((w.fate .write).Fine →
          ∀ room ∈ limit, w.disk.taken.length + (w.fate .write).upTo data.length ≤ room)
  | _ => True

/-- Where no write fails there is room for any number. -/
theorem takes_all {w : World} (writes : w.FineAt .write) {α : Type} (p : HttpProg α) :
    p.Meets World.serve (Takes none) w := by
  have only : p.Only fun _ => True := p.only_true
  refine only.meets (I := fun s : World => s.FineAt .write) (fun c s _ fine => ?_) writes
  refine ⟨?_, fine.later (World.serve_later c s)⟩
  cases c with
  | fs c =>
      cases c with
      | fsWrite data =>
          have unlimited {Q : Nat → Prop} : ∀ room ∈ (none : Option Nat), Q room := by
            intro room member
            cases member
          exact ⟨iff_of_true fine.fate unlimited, fun _ => unlimited⟩
      | _ => trivial
  | _ => trivial

/-- `m` of `len` bytes have room behind the first `n`: all of them, or as many as there is room
for. -/
structure Room (limit : Option Nat) (n len m : Nat) : Prop where
  le : m ≤ len
  inside : ∀ room ∈ limit, n + m ≤ room
  full : m < len → n + m ∈ limit

theorem Room.all {limit : Option Nat} {n : Nat} (inside : ∀ room ∈ limit, n ≤ room) :
    Room limit n 0 0 :=
  ⟨Nat.le_refl 0, inside, fun less => absurd less (Nat.lt_irrefl 0)⟩

theorem Room.none {limit : Option Nat} {n len room : Nat} (inside : ∀ room ∈ limit, n ≤ room)
    (member : room ∈ limit) (full : room ≤ n) : Room limit n len 0 := by
  obtain rfl : n = room := Nat.le_antisymm (inside room member) full
  exact ⟨Nat.zero_le len, inside, fun _ => member⟩

theorem Room.step {limit : Option Nat} {n len k m : Nat} (room : Room limit (n + k) (len - k) m)
    (le : k ≤ len) : Room limit n len (k + m) := by
  have fits := room.le
  refine ⟨by omega, fun size member => ?_, fun less => ?_⟩
  · rw [← Nat.add_assoc]
    exact room.inside size member
  · rw [← Nat.add_assoc]
    exact room.full (by omega)

theorem Room.unique {limit : Option Nat} {n len m m' : Nat} (room : Room limit n len m)
    (room' : Room limit n len m') : m = m' := by
  have le := room.le
  have le' := room'.le
  rcases Nat.lt_trichotomy m m' with less | same | less
  · have := room'.inside _ (room.full (by omega))
    omega
  · exact same
  · have := room.inside _ (room'.full (by omega))
    omega

/-- What `start` has become when `written` has been copied. -/
structure Uploading (start : World) (written : Bytes) (w : World) : Prop where
  later : World.Later start w
  kept : ∀ kind, kind ≠ .recv → kind ≠ .write → w.fates kind = start.fates kind
  world : w = { start with
    fates := w.fates, inbound := w.inbound, disk := start.disk.wrote written }

section Copy

variable {start : World} (opened : Opened start) (received : start.FineAt .recv)

include opened in
theorem Uploading.refl : Uploading start [] start := by
  refine ⟨World.Later.refl start, fun _ _ _ => rfl, ?_⟩
  rw [Disk.wrote_nil opened.page]

theorem Uploading.taken {w : World} {written : Bytes} (at_w : Uploading start written w) :
    w.disk.taken.length = start.disk.taken.length + written.length := by
  rw [at_w.world]
  exact List.length_append

include opened in
/-- A write takes some bytes, and there was room for them; or there is no room, and it takes
none. -/
theorem serve_write {limit : Option Nat} {w : World} {written data : Bytes}
    (at_w : Uploading start written w) (filled : data ≠ [])
    (takes : Takes limit (.fs (.fsWrite data)) w) :
    (∃ (n : Count data.length) (w' : World), 0 < n.val ∧
      World.serve (.fs (.fsWrite data)) w = (.ok n, w') ∧
      Uploading start (written ++ data.take n.val) w' ∧ w'.inbound = w.inbound ∧
      ∀ room ∈ limit, w.disk.taken.length + n.val ≤ room) ∨
    ((∃ room ∈ limit, room ≤ w.disk.taken.length) ∧
      ∃ (answer : Except Can.Errno (Count data.length)) (w' : World),
        World.serve (.fs (.fsWrite data)) w = (answer, w') ∧ (∀ n, answer = .ok n → n.val = 0) ∧
        Uploading start written w' ∧ w'.inbound = w.inbound) := by
  have disk : w.disk = start.disk.wrote written := by rw [at_w.world]
  have open_file : w.disk.file =
      some ⟨.userIndex, { create := true, trunc := true, write := true }, 0⟩ := by
    rw [disk]
    exact opened.file
  have kept : ∀ kind, kind ≠ .recv → kind ≠ .write → w.fatesAfter .write kind = start.fates kind :=
    fun kind _ other => (if_neg other).trans (at_w.kept kind ‹_› other)
  have later : ∀ kind, w.fatesAfter .write kind <:+ start.fates kind := fun kind =>
    (World.fatesAfter_suffix w .write kind).trans (at_w.later kind)
  have wrote (n : Nat) : Uploading start (written ++ data.take n)
      { w with fates := w.fatesAfter .write, disk := w.disk.wrote (data.take n) } := by
    refine ⟨later, kept, ?_⟩
    rw [disk, Disk.wrote_wrote, at_w.world]
  by_cases fine : (w.fate .write).Fine
  · refine .inl ⟨⟨_, Luck.upTo_le _ _⟩, _, fine.upTo_pos (List.length_pos_iff.mpr filled), ?_,
      wrote _, rfl, takes.2 fine⟩
    simp only [World.serve, HttpCall.kind, FsCall.kind, World.respond, Disk.serve, fine.1,
      open_file]
    rfl
  · refine .inr ⟨?_, ?_⟩
    · have none := mt takes.1.mpr fine
      simp only [Classical.not_forall, Nat.not_lt] at none
      obtain ⟨room, member, full⟩ := none
      exact ⟨room, member, full⟩
    cases fails : (w.fate .write).fail with
    | some e =>
        refine ⟨.error e, { w with fates := w.fatesAfter .write }, ?_, fun n is => (by cases is),
          ⟨later, kept, by rw [at_w.world]⟩, rfl⟩
        simp only [World.serve, HttpCall.kind, FsCall.kind, World.respond, Disk.serve, fails]
    | none =>
        -- no error, so it is the progress that is missing
        have zero : (w.fate .write).upTo data.length = 0 := by
          by_cases still : (w.fate .write).count = some 0
          · rw [Luck.upTo, still]
            exact Nat.zero_min _
          · exact absurd ⟨fails, still⟩ fine
        have nothing := wrote 0
        rw [List.take_zero, List.append_nil] at nothing
        refine ⟨.ok ⟨_, Luck.upTo_le (w.fate .write).toLuck _⟩, { w with
          fates := w.fatesAfter .write
          disk := w.disk.wrote (data.take ((w.fate .write).upTo data.length)) }, ?_, ?_, ?_, rfl⟩
        · simp only [World.serve, HttpCall.kind, FsCall.kind, World.respond, Disk.serve, fails,
            open_file]
          rfl
        · rintro n is
          cases is
          exact zero
        · rw [zero]
          exact nothing

include opened in
/-- A chunk is written as far as there is room, in whatever pieces. -/
theorem writeLoop_takes {limit : Option Nat} {w : World} {written : Bytes}
    (at_w : Uploading start written w) (inside : ∀ room ∈ limit, w.disk.taken.length ≤ room)
    (fuel : Nat) (ret : Int) (buf : Bytes) (enough : buf.length ≤ fuel)
    (takes : (writeLoop fuel ret buf).Meets World.serve (Takes limit) w) :
    ∃ m ret' w', Room limit w.disk.taken.length buf.length m ∧
      runIn (writeLoop fuel ret buf) w = (ret', w') ∧ Uploading start (written ++ buf.take m) w' ∧
      w'.inbound = w.inbound ∧ (m = buf.length ∧ ret' = ret ∨ m < buf.length ∧ ret' < 0) := by
  induction fuel generalizing w written buf with
  | zero =>
      obtain rfl := List.length_eq_zero_iff.mp (Nat.le_zero.mp enough)
      exact ⟨0, ret, w, Room.all inside, rfl, by rwa [List.take_zero, List.append_nil], rfl,
        .inl ⟨rfl, rfl⟩⟩
  | succ fuel ih =>
      rw [writeLoop] at takes ⊢
      by_cases empty : buf = []
      · rw [if_pos empty, empty]
        exact ⟨0, ret, w, Room.all inside, rfl, by rwa [List.take_zero, List.append_nil], rfl,
          .inl ⟨rfl, rfl⟩⟩
      rw [if_neg empty] at takes ⊢
      simp only [file, perform, Prog.perform_bind] at takes ⊢
      obtain ⟨taken, takes⟩ := takes
      rcases serve_write opened at_w empty taken with
        ⟨n, w', pos, served, at_w', inbound, fits⟩ |
          ⟨⟨room, member, full⟩, answer, w', served, nothing, at_w', inbound⟩
      · simp only [Prog.run_call, served] at takes ⊢
        rw [if_neg (Nat.ne_of_gt pos)] at takes ⊢
        have progress := n.property
        have shorter : (buf.drop n.val).length = buf.length - n.val := List.length_drop
        have grown : w'.disk.taken.length = w.disk.taken.length + n.val := by
          rw [at_w'.taken, at_w.taken, List.length_append, List.length_take]
          omega
        obtain ⟨m, ret', w'', room, run, at_w'', inbound', outcome⟩ := ih at_w'
          (fun room member => by rw [grown]; exact fits room member) (buf.drop n.val)
          (by omega) takes
        rw [grown, shorter] at room
        refine ⟨n.val + m, ret', w'', room.step progress, run, ?_, inbound'.trans inbound, ?_⟩
        · rw [List.append_assoc, ← List.take_add] at at_w''
          exact at_w''
        · rw [shorter] at outcome
          omega
      · have at_end : Uploading start (written ++ buf.take 0) w' := by
          rwa [List.take_zero, List.append_nil]
        have some := List.length_pos_iff.mpr empty
        simp only [Prog.run_call, served]
        cases answer with
        | error e =>
            exact ⟨0, e.ret, w', Room.none inside member full, rfl, at_end, inbound,
              .inr ⟨some, e.ret_neg⟩⟩
        | ok n =>
            simp only
            rw [if_pos (nothing n rfl)]
            exact ⟨0, _, w', Room.none inside member full, rfl, at_end, inbound,
              .inr ⟨some, by decide⟩⟩

/-! ## Reading -/

include received in
/-- The reader takes some bytes off the front of the body, or there are none. -/
theorem requestBodyRead_fine {w : World} {written : Bytes} (at_w : Uploading start written w)
    (reader : RequestBodyReader) {maxLen : Nat} (pos : 0 < maxLen) :
    (∃ chunk reader' w', chunk ≠ [] ∧ chunk.length ≤ maxLen ∧
      runIn (requestBodyRead reader maxLen) w = (((0, chunk), reader'), w') ∧
      unreadBody reader w = chunk ++ unreadBody reader' w' ∧ Draws reader w reader' w' ∧
      Uploading start written w') ∨
    (unreadBody reader w = [] ∧ ∃ ret w', ret < 0 ∧
      runIn (requestBodyRead reader maxLen) w = (((ret, []), reader), w') ∧
      unreadBody reader w' = [] ∧ Draws reader w reader w' ∧ Uploading start written w') := by
  unfold requestBodyRead unreadBody
  rw [if_neg (Nat.ne_of_gt pos)]
  generalize buffered : reader.pending.drop reader.pendingPos = front
  -- what came with the header is handed out first
  by_cases some : (front.take maxLen).length > 0
  · simp only [if_pos some]
    refine .inl ⟨front.take maxLen, { reader with
      pendingPos := reader.pendingPos + (front.take maxLen).length }, w,
      List.ne_nil_of_length_pos some, List.length_take_le _ _, rfl, ?_, .inr ⟨?_, rfl⟩, at_w⟩
    case refine_2 =>
      intro empty
      rw [RequestBodyReader.rest, buffered] at empty
      rw [empty, List.take_nil] at some
      exact absurd some (Nat.lt_irrefl 0)
    show front ++ w.inbound =
      front.take maxLen ++ (reader.pending.drop (reader.pendingPos + _) ++ w.inbound)
    have behind : front.drop (front.take maxLen).length = front.drop maxLen := by
      rw [List.length_take]
      by_cases all : maxLen ≤ front.length
      · rw [Nat.min_eq_left all]
      · rw [List.drop_eq_nil_of_le (by omega), List.drop_eq_nil_of_le (by omega)]
    rw [← List.append_assoc, ← List.drop_drop, buffered, behind, List.take_append_drop]
  · simp only [if_neg some, perform, Prog.perform_bind, Prog.run_call]
    have none : front = [] := by
      cases front with
      | nil => rfl
      | cons b front =>
          refine absurd ?_ some
          rw [List.length_take, List.length_cons]
          omega
    have at_recv (inbound : Bytes) : Uploading start written
        { w with fates := w.fatesAfter .recv, inbound } := by
      refine ⟨at_w.later.trans (World.fatesAfter_suffix w .recv), fun kind other _ => ?_, ?_⟩
      · exact (if_neg other).trans (at_w.kept kind other ‹_›)
      · rw [at_w.world]
    have drained : reader.rest = [] := buffered.trans none
    rw [none]
    -- only then the connection is read
    rcases serve_recv w reader.fd 0 pos with
      ⟨empty, failed⟩ | ⟨⟨chunk, fits⟩, rest, filled, inbound, served⟩
    · have ended := empty (received.later at_w.later)
      refine .inr ⟨ended, ?_⟩
      rcases failed with ⟨e, served⟩ | served
      · exact ⟨e.ret, { w with fates := w.fatesAfter .recv }, e.ret_neg, by simp only [served]; rfl,
          ended, .inl drained, at_recv w.inbound⟩
      · exact ⟨-eConnReset, { w with fates := w.fatesAfter .recv }, by decide,
          by simp only [served]; rfl, ended, .inl drained, at_recv w.inbound⟩
    · refine .inl ⟨chunk, reader, { w with fates := w.fatesAfter .recv, inbound := rest }, filled,
        fits, ?_, ?_, .inl drained, at_recv rest⟩
      · cases chunk with
        | nil => exact absurd rfl filled
        | cons b more => simp only [served]; rfl
      · rw [buffered, none]
        exact inbound

/-! ## Copying -/

include opened received in
/-- The body is copied up to its length, until there is no room, or until the client has sent no
more. -/
theorem copyLoop_takes {limit : Option Nat} {w : World} {written : Bytes}
    (at_w : Uploading start written w) (inside : ∀ room ∈ limit, w.disk.taken.length ≤ room)
    (fuel : Nat) (ret : Int) (ok : 0 ≤ ret) (remaining : Nat) (enough : remaining ≤ fuel)
    (reader : RequestBodyReader)
    (takes : (copyLoop requestBodyRead fuel ret remaining reader).Meets World.serve
      (Takes limit) w) :
    ∃ m ret' remaining' reader' w',
      Room limit w.disk.taken.length (min remaining (unreadBody reader w).length) m ∧
      runIn (copyLoop requestBodyRead fuel ret remaining reader) w =
        ((ret', remaining', reader'), w') ∧
      Uploading start (written ++ (unreadBody reader w).take m) w' ∧
      (m = remaining ∧ 0 ≤ ret' ∧ remaining' = 0 ∧
          unreadBody reader' w' = (unreadBody reader w).drop remaining ∧ Draws reader w reader' w' ∨
        m < remaining ∧ ret' < 0) := by
  -- on the rounds: what has been written and what is still unread make up the body
  induction fuel generalizing w written ret remaining reader with
  | zero =>
      obtain rfl := Nat.le_zero.mp enough
      refine ⟨0, ret, 0, reader, w, ?_, rfl, by rwa [List.take_zero, List.append_nil],
        .inl ⟨rfl, ok, rfl, rfl, Draws.refl reader w⟩⟩
      rw [Nat.zero_min]
      exact Room.all inside
  | succ fuel ih =>
      rw [copyLoop] at takes ⊢
      by_cases done : remaining = 0
      · rw [if_pos done, done]
        refine ⟨0, ret, 0, reader, w, ?_, rfl, by rwa [List.take_zero, List.append_nil],
          .inl ⟨rfl, ok, rfl, rfl, Draws.refl reader w⟩⟩
        rw [Nat.zero_min]
        exact Room.all inside
      rw [if_neg done] at takes ⊢
      have takes := (meets_bind.mp takes).2
      rw [runIn_bind]
      have chunkMax : 0 < storageIoChunk := by decide
      have pos : 0 < min remaining storageIoChunk := by omega
      -- a round reads a chunk, or finds that the client sends no more
      rcases requestBodyRead_fine received at_w reader pos with
        ⟨chunk, reader', w', filled, fits, run, split, draws, at_w'⟩ |
          ⟨none, ret', w', failed, run, none', draws, at_w'⟩
      · have some := List.length_pos_iff.mpr filled
        have same : w'.disk.taken.length = w.disk.taken.length := by
          rw [at_w'.taken, at_w.taken]
        rw [run] at takes ⊢
        simp only at takes ⊢
        rw [if_neg (by decide), if_neg (by omega)] at takes ⊢
        obtain ⟨wrote, takes⟩ := meets_bind.mp takes
        rw [runIn_bind]
        obtain ⟨n, ret'', w'', room, run', at_w'', inbound, outcome⟩ :=
          writeLoop_takes opened at_w' (same ▸ inside) chunk.length 0 chunk (Nat.le_refl _) wrote
        rw [run'] at takes ⊢
        simp only at takes ⊢
        have length : (unreadBody reader w).length =
            chunk.length + (unreadBody reader' w').length := by
          rw [split, List.length_append]
        rw [same] at room
        -- the chunk is written whole, or the disk is full within it
        rcases outcome with ⟨rfl, rfl⟩ | ⟨short, failed⟩
        · rw [if_neg (by decide)] at takes ⊢
          have same' : unreadBody reader' w'' = unreadBody reader' w' := by
            unfold unreadBody
            rw [inbound]
          have grown : w''.disk.taken.length = w.disk.taken.length + chunk.length := by
            rw [at_w''.taken, at_w.taken, List.length_append, List.take_length, Nat.add_assoc]
          have left : remaining = chunk.length + (remaining - chunk.length) := by omega
          have draws' : Draws reader w reader' w'' := draws.imp_right fun ⟨some, same⟩ =>
            ⟨some, inbound.trans same⟩
          obtain ⟨m, ret', remaining', reader'', w₃, room', run'', at_w₃, outcome⟩ :=
            ih at_w'' (fun size member => by rw [grown]; exact room.inside size member) 0
              (by decide) (remaining - chunk.length) (by omega) reader' takes
          rw [same'] at room' at_w₃ outcome
          have both : min (remaining - chunk.length) (unreadBody reader' w').length =
              min remaining (unreadBody reader w).length - chunk.length := by omega
          rw [grown, both] at room'
          refine ⟨chunk.length + m, ret', remaining', reader'', w₃, room'.step (by omega), run'',
            ?_, ?_⟩
          · rw [split, List.take_length_add_append, ← List.append_assoc]
            rwa [List.take_length] at at_w₃
          · rcases outcome with ⟨rfl, ok', done', rest, draws''⟩ | ⟨less, failed⟩
            · refine .inl ⟨left.symm, ok', done', ?_, draws'.trans draws''⟩
              rw [rest, split]
              conv => rhs; rw [left, List.drop_length_add_append]
            · exact .inr ⟨by omega, failed⟩
        · rw [if_pos failed]
          have full := room.full short
          refine ⟨n, ret'', remaining, reader', w'', ⟨by omega, room.inside, fun _ => full⟩,
            rfl, ?_, .inr ⟨by omega, failed⟩⟩
          rw [split, List.take_append_of_le_length (Nat.le_of_lt short)]
          exact at_w''
      · rw [run]
        simp only
        rw [if_pos failed]
        refine ⟨0, ret', remaining, reader, w', ?_, rfl, by rwa [List.take_zero, List.append_nil],
          .inr ⟨Nat.pos_of_ne_zero done, failed⟩⟩
        rw [none, List.length_nil, Nat.min_zero]
        exact Room.all inside

include opened received in
/-- Where no write fails, the body is copied up to its length, or until the client has sent no
more. -/
theorem copyLoop_fine (writes : start.FineAt .write) {w : World} {written : Bytes}
    (at_w : Uploading start written w) (fuel : Nat) (ret : Int) (ok : 0 ≤ ret) (remaining : Nat)
    (enough : remaining ≤ fuel) (reader : RequestBodyReader) :
    ∃ ret' remaining' reader' w',
      runIn (copyLoop requestBodyRead fuel ret remaining reader) w =
        ((ret', remaining', reader'), w') ∧
      Uploading start (written ++ (unreadBody reader w).take remaining) w' ∧
      (remaining ≤ (unreadBody reader w).length ∧ 0 ≤ ret' ∧ remaining' = 0 ∧
          unreadBody reader' w' = (unreadBody reader w).drop remaining ∧ Draws reader w reader' w' ∨
        (unreadBody reader w).length < remaining ∧ ret' < 0) := by
  obtain ⟨m, ret', remaining', reader', w', room, run, at_w', outcome⟩ :=
    copyLoop_takes opened received at_w (fun room member => by cases member) fuel ret ok remaining
      enough reader (takes_all (writes.later at_w.later) _)
  have whole : m = min remaining (unreadBody reader w).length := by
    have le := room.le
    rcases Nat.lt_or_eq_of_le le with less | same
    · cases room.full less
    · exact same
  have copied : (unreadBody reader w).take m = (unreadBody reader w).take remaining := by
    rw [whole]
    exact List.take_eq_take_min.symm
  rw [copied] at at_w'
  refine ⟨ret', remaining', reader', w', run, at_w', ?_⟩
  rcases outcome with ⟨all, rest⟩ | ⟨less, failed⟩
  · exact .inl ⟨by omega, rest⟩
  · exact .inr ⟨by omega, failed⟩

end Copy

/-! ## The loops end -/

theorem writeLoop_fuel {fuel fuel' : Nat} (ret : Int) (buf : Bytes) (enough : buf.length ≤ fuel)
    (enough' : buf.length ≤ fuel') : writeLoop fuel ret buf = writeLoop fuel' ret buf := by
  induction fuel generalizing fuel' buf with
  | zero =>
      obtain rfl := List.length_eq_zero_iff.mp (Nat.le_zero.mp enough)
      cases fuel' with
      | zero => rfl
      | succ fuel' => exact (if_pos rfl).symm
  | succ fuel ih =>
      by_cases empty : buf = []
      · cases fuel' with
        | zero => exact if_pos empty
        | succ fuel' => rw [writeLoop, writeLoop, if_pos empty, if_pos empty]
      · have some := List.length_pos_iff.mpr empty
        obtain ⟨fuel', rfl⟩ := Nat.exists_eq_add_one.mpr (show 0 < fuel' by omega)
        rw [writeLoop, writeLoop, if_neg empty, if_neg empty]
        refine congrArg (Prog.call _) (funext fun answer => ?_)
        cases answer with
        | error e => rfl
        | ok n =>
            by_cases none : n.val = 0
            · exact (if_pos none).trans (if_pos none).symm
            · have less : (buf.drop n.val).length < buf.length := by
                rw [List.length_drop]
                omega
              refine (if_neg none).trans (Eq.trans ?_ (if_neg none).symm)
              exact ih (buf.drop n.val) (by omega) (by omega)

/-- Whatever the reader delivers, more fuel than the length makes no difference: the copy ends
by itself. -/
theorem copyLoop_fuel {σ : Type} (reader : σ → Nat → HttpProg ((Int × Bytes) × σ))
    {fuel fuel' : Nat} (ret : Int) (remaining : Nat) (ctx : σ) (enough : remaining ≤ fuel)
    (enough' : remaining ≤ fuel') :
    copyLoop reader fuel ret remaining ctx = copyLoop reader fuel' ret remaining ctx := by
  induction fuel generalizing fuel' ret remaining ctx with
  | zero =>
      obtain rfl := Nat.le_zero.mp enough
      cases fuel' with
      | zero => rfl
      | succ fuel' => exact (if_pos rfl).symm
  | succ fuel ih =>
      by_cases done : remaining = 0
      · cases fuel' with
        | zero => exact if_pos done
        | succ fuel' => rw [copyLoop, copyLoop, if_pos done, if_pos done]
      · obtain ⟨fuel', rfl⟩ := Nat.exists_eq_add_one.mpr (show 0 < fuel' by omega)
        rw [copyLoop, copyLoop, if_neg done, if_neg done]
        refine congrArg (reader ctx (min remaining storageIoChunk) >>= ·) (funext fun answer => ?_)
        obtain ⟨⟨ret', buf⟩, ctx'⟩ := answer
        by_cases failed : ret' < 0
        · exact (if_pos failed).trans (if_pos failed).symm
        refine (if_neg failed).trans (Eq.trans ?_ (if_neg failed).symm)
        by_cases wrong : buf.length = 0 ∨ buf.length > min remaining storageIoChunk
        · exact (if_pos wrong).trans (if_pos wrong).symm
        refine (if_neg wrong).trans (Eq.trans ?_ (if_neg wrong).symm)
        refine congrArg (writeLoop buf.length ret' buf >>= ·) (funext fun ret'' => ?_)
        by_cases failed' : ret'' < 0
        · exact (if_pos failed').trans (if_pos failed').symm
        · refine (if_neg failed').trans (Eq.trans ?_ (if_neg failed').symm)
          exact ih ret'' (remaining - buf.length) ctx' (by omega) (by omega)

end PicoCan.Http
