import PicoCan.Calls.TwoRuns
import PicoCan.Http.RoundTrip

/-!
# The cut of the stream

What the client sends arrives in pieces, and the pieces are nobody's choice. The server sends
the same and stores the same page however they are cut, but for one kind of stream: an upload
with more bytes behind its header than it declares, where the buffer has room for one byte too
many. There the pieces decide whether the length is compared with that byte.
-/

namespace PicoCan.Http

open Calls
open Calls.Json (isDigit ofDigits)

/-! ## What is received -/

/-- What the header loop leaves is decided by the bytes that fit into the buffer, but for how much
of the body has come with the header. -/
theorem Receives.verdict {all : Bytes} {received : Request} {inbound : Bytes}
    (receives : Receives all received inbound) :
    (∃ headerEnd front, findHeaderEnd (all.take (httpRequestMax - 1)) = some headerEnd ∧
      received = .received (all.take (headerEnd + 4) ++ front) (some headerEnd) ∧
      front ++ inbound = all.drop (headerEnd + 4) ∧
      (all.take (headerEnd + 4) ++ front).length < httpRequestMax) ∨
    (findHeaderEnd (all.take (httpRequestMax - 1)) = none ∧
      (all.length < httpRequestMax - 1 ∧ received = .gone ∨
        httpRequestMax - 1 ≤ all.length ∧ ∃ request, received = .received request none)) := by
  cases receives with
  | header request inbound headerEnd split found room =>
      have bound := findHeaderEnd_bound found
      have buffer : request.length ≤ httpRequestMax - 1 := Nat.le_sub_one_of_lt room
      have front : all.take (headerEnd + 4) ++ request.drop (headerEnd + 4) = request := by
        rw [split, List.take_append_of_le_length bound, List.take_append_drop]
      refine .inl ⟨headerEnd, request.drop (headerEnd + 4), ?_, ?_, ?_, ?_⟩
      · rw [split, List.take_append, List.take_of_length_le buffer]
        exact findHeaderEnd_append found _
      · rw [front]
      · rw [split, List.drop_append_of_le_length bound]
      · rw [front]
        exact room
  | tooLarge request inbound split missing full =>
      have whole : all.take (httpRequestMax - 1) = request := by
        rw [split, ← full, List.take_left]
      refine .inr ⟨by rw [whole]; exact missing, .inr ⟨?_, request, rfl⟩⟩
      rw [split, List.length_append, full]
      exact Nat.le_add_right _ _
  | gone missing short =>
      refine .inr ⟨?_, .inl ⟨short, rfl⟩⟩
      rw [List.take_of_length_le (Nat.le_of_lt short)]
      exact missing

/-! ## Worlds that agree -/

/-- The worlds differ at most in what there is to receive, and in how receives and writes go. -/
structure Agree (w w' : World) : Prop where
  fates : ∀ kind, kind ≠ .recv → kind ≠ .write → w.fates kind = w'.fates kind
  sent : w.sent = w'.sent
  disk : w.disk = w'.disk
  active : w.wsActive = w'.wsActive

theorem Agree.symm {w w' : World} (agree : Agree w w') : Agree w' w :=
  ⟨fun kind known known' => (agree.fates kind known known').symm, agree.sent.symm, agree.disk.symm,
    agree.active.symm⟩

theorem Agree.trans {w w' w'' : World} (first : Agree w w') (rest : Agree w' w'') : Agree w w'' :=
  ⟨fun kind known known' => (first.fates kind known known').trans (rest.fates kind known known'),
    first.sent.trans rest.sent, first.disk.trans rest.disk, first.active.trans rest.active⟩

/-- The calls that do not depend on it. -/
def OtherCall (c : HttpCall) : Prop :=
  match c with
  | .recv _ _ _ | .fs (.fsWrite _) | .wsClientSet _ => False
  | _ => True

theorem serve_agree {c : HttpCall} {w w' : World} (call : OtherCall c) (agree : Agree w w') :
    (World.serve c w).1 = (World.serve c w').1 ∧
      Agree (World.serve c w).2 (World.serve c w').2 := by
  obtain ⟨fates, sent, disk, active⟩ := agree
  have known : c.kind ≠ .recv ∧ c.kind ≠ .write := by
    cases c with
    | recv => exact call.elim
    | fs c =>
        cases c with
        | fsWrite => exact call.elim
        | _ => exact ⟨Kind.noConfusion, Kind.noConfusion⟩
    | _ => exact ⟨Kind.noConfusion, Kind.noConfusion⟩
  have same : w.fate c.kind = w'.fate c.kind := by
    unfold World.fate
    rw [fates _ known.1 known.2]
  have after : ∀ kind, kind ≠ .recv → kind ≠ .write →
      w.fatesAfter c.kind kind = w'.fatesAfter c.kind kind := by
    intro kind known known'
    unfold World.fatesAfter
    rw [fates kind known known']
  simp only [World.serve, same]
  clear same
  generalize w.fatesAfter c.kind = left at after
  generalize w'.fatesAfter c.kind = left' at after
  generalize w'.fate c.kind = fate
  cases c with
  | fs c =>
      refine ⟨?_, after, sent, ?_, active⟩
      · exact congrArg (fun d : Disk => (d.serve fate.toLuck c).1) disk
      · exact congrArg (fun d : Disk => (d.serve fate.toLuck c).2) disk
  | send fd data =>
      simp only [World.respond]
      cases fate.fail with
      | some e => exact ⟨rfl, after, sent, disk, active⟩
      | none => exact ⟨rfl, after, congrArg (· ++ _) sent, disk, active⟩
  | poll fd ms =>
      simp only [World.respond]
      cases fate.fail with
      | some e => exact ⟨rfl, after, sent, disk, active⟩
      | none => exact ⟨rfl, after, sent, disk, active⟩
  | wsActiveCas => exact ⟨congrArg (!·) active, after, sent, disk, rfl⟩
  | wsActiveClear => exact ⟨rfl, after, sent, disk, rfl⟩
  | recv | wsClientSet => exact call.elim
  | can | close | wsThreadCreate => exact ⟨rfl, after, sent, disk, active⟩

theorem alike_other {α : Type} {p : HttpProg α} (only : p.Only OtherCall) :
    p.Alike World.serve Agree fun _ => Agree := by
  refine only.alike ?_
  intro c s s' call agree
  exact serve_agree call agree

/-! ## The routes -/

theorem files_other (c : FsCall) (reads : c.Reads) : OtherCall (.fs c) := by
  cases c with
  | fsWrite => exact reads.elim
  | _ => trivial

/-- An upgrade depends on the accept key, not on what has come behind the header. -/
theorem handleWebsocket_couples (fd : Fd) {request request' : Bytes}
    (accept : buildWebsocketAccept request acceptMax = buildWebsocketAccept request' acceptMax)
    (pending pending' : Bytes) :
    (handleWebsocket fd request pending).Couples World.serve Agree (fun _ => Agree)
      (handleWebsocket fd request' pending') := by
  have claim : (perform .wsActiveCas : HttpProg Bool).Only OtherCall := ⟨trivial, fun _ => trivial⟩
  have clears (ret : Int) : (perform .wsActiveClear >>= fun _ => .ret ret : HttpProg Int).Alike
      World.serve Agree fun _ => Agree := alike_other ⟨trivial, fun _ => trivial⟩
  unfold handleWebsocket
  rw [accept]
  refine (alike_other claim).bind fun claimed =>
    .ite (fun _ => .ret fun _ _ agree => agree) fun _ => ?_
  cases buildWebsocketAccept request' acceptMax with
  | error ret => exact clears ret
  | ok accept =>
      refine .ite (fun _ => clears _) fun _ => ?_
      refine (alike_other (sendAll_only (fun _ => trivial) _)).bind fun ret =>
        .ite (fun _ => clears _) fun _ => ?_
      -- the session is handed what was behind the header, which nobody looks at here
      have hands : (perform (.wsClientSet { fd, pending := pending.take httpRequestMax }) :
          HttpProg Unit).Couples World.serve Agree (fun _ => Agree)
          (perform (.wsClientSet { fd, pending := pending'.take httpRequestMax })) := by
        intro w w' agree
        refine ⟨(), _, _, rfl, rfl, ?_, agree.sent, agree.disk, agree.active⟩
        intro kind known known'
        show w.fatesAfter .other kind = w'.fatesAfter .other kind
        unfold World.fatesAfter
        rw [agree.fates kind known known']
      refine hands.bind fun _ => alike_other ?_
      have streaming : (bridge (Can.canBridgeSetRxStreaming true)).Only OtherCall :=
        bridge_only (Q := fun _ => True) (Prog.only_true _) fun _ _ => trivial
      exact streaming.bind fun _ => ⟨trivial, fun _ => trivial⟩

section Header

variable {header : Bytes} (whole : WholeHeader header) (fd : Fd) (front front' : Bytes)
include whole

theorem upgradeRoute_couples (headerEnd : Nat) :
    (upgradeRoute fd (header ++ front) headerEnd).Couples World.serve Agree (fun _ => Agree)
      (upgradeRoute fd (header ++ front') headerEnd) := by
  have accept := (whole.buildWebsocketAccept front acceptMax).trans
    (whole.buildWebsocketAccept front' acceptMax).symm
  refine (handleWebsocket_couples fd accept _ _).bind fun ret => ?_
  exact .ite (fun _ => alike_other ⟨trivial, fun _ => trivial⟩) fun _ => alike_other trivial

/-- The routes other than the upload look at the header alone. -/
theorem pageRoutes_header (other : ¬ startsWith header "PUT /user/index.html ") (indexHtml : Bytes)
    (fuel headerEnd : Nat) :
    pageRoutes indexHtml fuel fd (cString (header ++ front)) (header ++ front) headerEnd =
      pageRoutes indexHtml fuel fd header header headerEnd := by
  have same {text : String} (free : 13 ∉ lit text) :
      startsWith (cString (header ++ front)) text = startsWith header text :=
    whole.startsWith front free
  unfold pageRoutes
  rw [same (by decide), same (by decide), same (by decide), same (by decide), same (by decide),
    same (by decide), same (by decide), same (by decide), same (by decide), if_neg other,
    if_neg other]

/-- A request that is no upload is answered alike, whatever has come behind its header. -/
theorem answerRequest_couples (other : ¬ startsWith header "PUT /user/index.html ")
    (indexHtml : Bytes) (fuel headerEnd : Nat) :
    (answerRequest indexHtml fuel fd (.received (header ++ front) (some headerEnd))).Couples
      World.serve Agree (fun _ => Agree)
      (answerRequest indexHtml fuel fd (.received (header ++ front') (some headerEnd))) := by
  unfold answerRequest
  simp only [whole.requestIsWebsocket]
  refine .ite (fun _ => ?_) fun _ => ?_
  · exact (upgradeRoute_couples whole fd front front' headerEnd).bind fun _ => alike_other trivial
  · rw [pageRoutes_header whole fd front other, pageRoutes_header whole fd front' other]
    exact alike_other
      (pageRoutes_reads (fun _ _ => trivial) (fun _ => trivial) files_other other _ _ _ _ _)

end Header

/-! ## The upload -/

theorem openUserIndex_other : openUserIndex.Only OtherCall := by
  have make : makeUserDir.Only OtherCall := by
    refine ⟨trivial, fun status => ?_⟩
    cases status with
    | error e => exact .ite (fun _ => ⟨trivial, fun _ => trivial⟩) fun _ => trivial
    | ok entry => exact .ite (fun _ => trivial) fun _ => trivial
  refine (storageMountOnce_only files_other).bind fun ret => .ite (fun _ => trivial) fun _ => ?_
  exact make.bind fun ret => .ite (fun _ => trivial) fun _ => ⟨trivial, fun _ => trivial⟩

theorem closeUserIndex_other (ret : Int) (remaining : Nat) :
    (closeUserIndex ret remaining).Only OtherCall :=
  closeUserIndex_only trivial trivial trivial trivial (updateSpaceLocked_only files_other) ret
    remaining

/-- The end of the upload depends on whether the copy has failed. -/
theorem closeUserIndex_agree {w w' : World} (agree : Agree w w') {ret ret' : Int}
    {remaining remaining' : Nat} (ends : ret < 0 ∧ ret' < 0 ∨
      0 ≤ ret ∧ 0 ≤ ret' ∧ remaining = remaining') :
    ((runIn (closeUserIndex ret remaining) w).1 < 0 ↔
        (runIn (closeUserIndex ret' remaining') w').1 < 0) ∧
      Agree (runIn (closeUserIndex ret remaining) w).2
        (runIn (closeUserIndex ret' remaining') w').2 := by
  have shape (ret : Int) (remaining : Nat) (ok : ¬ ret < 0) :
      closeUserIndex ret remaining = closeUserIndex 0 remaining := by
    have zero : ¬ (0 : Int) < 0 := Int.lt_irrefl 0
    unfold closeUserIndex
    rw [if_neg ok, if_neg zero]
  rcases ends with ⟨failed, failed'⟩ | ⟨ok, ok', rfl⟩
  · refine ⟨iff_of_true ((closeUserIndex_failed failed remaining).run World.serve w)
      ((closeUserIndex_failed failed' remaining').run World.serve w'), ?_⟩
    unfold closeUserIndex
    rw [if_pos failed, if_pos failed']
    exact (serve_agree (show OtherCall (.fs .fsClose) from trivial) agree).2
  · rw [shape ret remaining (Int.not_lt.mpr ok), shape ret' remaining (Int.not_lt.mpr ok')]
    obtain ⟨a, s, s', (run : runIn _ _ = _), (run' : runIn _ _ = _), after⟩ :=
      alike_other (closeUserIndex_other 0 remaining) w w' agree
    rw [run, run']
    exact ⟨Iff.rfl, after⟩

theorem Uploading.agree {start start' w w' : World} {written : Bytes} (agree : Agree start start')
    (at_w : Uploading start written w) (at_w' : Uploading start' written w') : Agree w w' := by
  refine ⟨fun kind known known' => ?_, ?_, ?_, ?_⟩
  · rw [at_w.kept kind known known', at_w'.kept kind known known', agree.fates kind known known']
  · rw [at_w.sent, at_w'.sent, agree.sent]
  · rw [at_w.world, at_w'.world]
    exact congrArg (Disk.wrote · written) agree.disk
  · rw [at_w.world, at_w'.world]
    exact agree.active

/-- The same bytes, for which there is the same room, make the same page. -/
theorem storageWriteUserIndexStream_agree {w w' : World} (agree : Agree w w')
    (receives : w.FineAt .recv) (receives' : w'.FineAt .recv) {reader reader' : RequestBodyReader}
    (unread : unreadBody reader w = unreadBody reader' w') {limit : Option Nat} {len : Nat}
    (takes : (storageWriteUserIndexStream requestBodyRead len reader).Meets World.serve
      (Takes limit) w)
    (takes' : (storageWriteUserIndexStream requestBodyRead len reader').Meets World.serve
      (Takes limit) w') :
    ((runIn (storageWriteUserIndexStream requestBodyRead len reader) w).1.1 < 0 ↔
        (runIn (storageWriteUserIndexStream requestBodyRead len reader') w').1.1 < 0) ∧
      Agree (runIn (storageWriteUserIndexStream requestBodyRead len reader) w).2
        (runIn (storageWriteUserIndexStream requestBodyRead len reader') w').2 := by
  obtain ⟨opened, w₁, w₁', (opening : runIn _ _ = _), (opening' : runIn _ _ = _), agree₁⟩ :=
    alike_other openUserIndex_other w w' agree
  rw [storageWriteUserIndexStream_eq] at takes takes' ⊢
  rw [storageWriteUserIndexStream_eq]
  have takes := (meets_bind.mp takes).2
  have takes' := (meets_bind.mp takes').2
  rw [opening] at takes
  rw [opening'] at takes'
  rw [runIn_bind, opening, runIn_bind, opening']
  obtain ⟨_, _, first, -, outcome⟩ := openUserIndex_run w
  obtain ⟨_, _, first', -, outcome'⟩ := openUserIndex_run w'
  obtain ⟨rfl, rfl⟩ := Prod.mk.inj (opening.symm.trans first)
  obtain ⟨rfl, rfl⟩ := Prod.mk.inj (opening'.symm.trans first')
  by_cases failed : opened < 0
  · simp only [if_pos failed]
    exact ⟨Iff.rfl, agree₁⟩
  obtain ⟨rfl, emptied, -⟩ := outcome.resolve_left fun bad => failed bad.1
  obtain ⟨-, emptied', -⟩ := outcome'.resolve_left fun bad => failed bad.1
  have zero : ¬ (0 : Int) < 0 := Int.lt_irrefl 0
  simp only at takes takes' ⊢
  rw [if_neg zero] at takes takes'
  rw [if_neg zero, if_neg zero]
  have inside : ∀ room ∈ limit, w₁.disk.taken.length ≤ room := fun room _ => by
    rw [emptied.taken]
    exact Nat.zero_le room
  have inside' : ∀ room ∈ limit, w₁'.disk.taken.length ≤ room := agree₁.disk ▸ inside
  obtain ⟨m, ret, remaining, reader₂, w₂, room, copied, at_w₂, outcome⟩ :=
    copyLoop_takes emptied.opened (receives.later emptied.later) (Uploading.refl emptied.opened)
      inside len 0 (Int.le_refl 0) len (Nat.le_refl len) reader (meets_bind.mp takes).1
  obtain ⟨m', ret', remaining', reader₂', w₂', room', copied', at_w₂', outcome'⟩ :=
    copyLoop_takes emptied'.opened (receives'.later emptied'.later) (Uploading.refl emptied'.opened)
      inside' len 0 (Int.le_refl 0) len (Nat.le_refl len) reader' (meets_bind.mp takes').1
  have same : unreadBody reader' w₁' = unreadBody reader w₁ := by
    rw [unreadBody, emptied'.inbound, unreadBody, emptied.inbound]
    exact unread.symm
  rw [same] at room' at_w₂'
  rw [← agree₁.disk] at room'
  obtain rfl := room.unique room'
  have agree₂ := Uploading.agree agree₁ at_w₂ at_w₂'
  -- as many bytes are copied in both runs, so both fail or both are complete
  have ends : ret < 0 ∧ ret' < 0 ∨ 0 ≤ ret ∧ 0 ≤ ret' ∧ remaining = remaining' := by
    rcases outcome with ⟨all, ok, done, -⟩ | ⟨short, failed⟩
    · rcases outcome' with ⟨-, ok', done', -⟩ | ⟨short, -⟩
      · exact .inr ⟨ok, ok', done.trans done'.symm⟩
      · omega
    · rcases outcome' with ⟨all, -⟩ | ⟨-, failed'⟩
      · omega
      · exact .inl ⟨failed, failed'⟩
  rw [runIn_bind, copied, runIn_bind, runIn_bind, copied', runIn_bind]
  exact closeUserIndex_agree agree₂ ends

theorem refuse_agree {w w' : World} (agree : Agree w w') (fd : Fd) (status body : String) :
    Agree (runIn (refuse fd status body) w).2 (runIn (refuse fd status body) w').2 := by
  obtain ⟨_, t, t', (run : runIn _ _ = _), (run' : runIn _ _ = _), after⟩ :=
    alike_other (refuse_only (fun _ _ => trivial) (fun _ => trivial) fd status body) w w' agree
  rw [run, run']
  exact after

theorem store_agree {w w' : World} (agree : Agree w w') (receives : w.FineAt .recv)
    (receives' : w'.FineAt .recv) (fd : Fd) {request request' : Bytes} {headerEnd n : Nat}
    (unread : buffered request headerEnd ++ w.inbound = buffered request' headerEnd ++ w'.inbound)
    {limit : Option Nat}
    (takes : (store fd request headerEnd n).Meets World.serve (Takes limit) w)
    (takes' : (store fd request' headerEnd n).Meets World.serve (Takes limit) w') :
    Agree (runIn (store fd request headerEnd n) w).2
      (runIn (store fd request' headerEnd n) w').2 := by
  have start : unreadBody { fd, pending := buffered request headerEnd } w =
      unreadBody { fd, pending := buffered request' headerEnd } w' := unread
  unfold store at takes takes' ⊢
  have both := storageWriteUserIndexStream_agree agree receives receives' start
    (meets_bind.mp takes).1 (meets_bind.mp takes').1
  rw [runIn_bind, runIn_bind]
  generalize runIn (storageWriteUserIndexStream requestBodyRead n
    { fd, pending := buffered request headerEnd }) w = stored at both ⊢
  generalize runIn (storageWriteUserIndexStream requestBodyRead n
    { fd, pending := buffered request' headerEnd }) w' = stored' at both ⊢
  obtain ⟨⟨ret, reader⟩, s⟩ := stored
  obtain ⟨⟨ret', reader'⟩, s'⟩ := stored'
  obtain ⟨same, after⟩ := both
  by_cases failed : ret < 0
  · simp only [if_pos failed, if_pos (same.mp failed)]
    exact refuse_agree after fd _ _
  · simp only [if_neg failed, if_neg (mt same.mpr failed)]
    exact refuse_agree after fd _ _

/-! ## Streams -/

/-- The server sends the same and leaves the same page, however the stream is cut. -/
def CutBlind (stream : Bytes) : Prop :=
  ∀ (indexHtml : Bytes) (fuel : Nat) (fd : Fd) (limit : Option Nat) (w w' : World),
    w.inbound = stream → w'.inbound = stream → w.FineAt .recv → w'.FineAt .recv → Agree w w' →
    (handleClient indexHtml fuel fd).Meets World.serve (Takes limit) w →
    (handleClient indexHtml fuel fd).Meets World.serve (Takes limit) w' →
    (runIn (handleClient indexHtml fuel fd) w).2.sent =
        (runIn (handleClient indexHtml fuel fd) w').2.sent ∧
      (runIn (handleClient indexHtml fuel fd) w).2.disk.node .userIndex =
        (runIn (handleClient indexHtml fuel fd) w').2.disk.node .userIndex

/-- An upload of a length that is allowed, with at least one byte more behind its header than that,
which still fits into the buffer. -/
def Overrun (stream : Bytes) : Prop :=
  ∃ headerEnd digits, findHeaderEnd stream = some headerEnd ∧
    startsWith (cString stream) "PUT /user/index.html " ∧
    declared stream = some digits ∧ digits.all isDigit ∧
    ofDigits digits % 2 ^ 32 ≤ userIndexMax ∧
    headerEnd + 4 + ofDigits digits % 2 ^ 32 < min stream.length (httpRequestMax - 1)

theorem upload_agree {header front front' stream : Bytes} (whole : WholeHeader header)
    (put : startsWith header "PUT /user/index.html ") (fits : ¬ Overrun stream) {w w' : World}
    (split : header ++ (front ++ w.inbound) = stream)
    (split' : header ++ (front' ++ w'.inbound) = stream)
    (room : (header ++ front).length < httpRequestMax)
    (room' : (header ++ front').length < httpRequestMax) (agree : Agree w w')
    (receives : w.FineAt .recv) (receives' : w'.FineAt .recv) (fd : Fd) {limit : Option Nat}
    (takes : (uploadRoute fd (header ++ front) (header.length - 4)).Meets World.serve
      (Takes limit) w)
    (takes' : (uploadRoute fd (header ++ front') (header.length - 4)).Meets World.serve
      (Takes limit) w') :
    Agree (runIn (uploadRoute fd (header ++ front) (header.length - 4)) w).2
      (runIn (uploadRoute fd (header ++ front') (header.length - 4)) w').2 := by
  obtain ⟨complete, four⟩ := whole.found front
  have behind : header.length - 4 + 4 = header.length := Nat.sub_add_cancel four
  have pending (front : Bytes) : buffered (header ++ front) (header.length - 4) = front := by
    rw [buffered, behind, List.drop_left]
  -- without an overrun no more can be buffered than is declared
  have within {digits front inbound : Bytes} {n : Nat}
      (found : lookup (lit "Content-Length") (headerLines header) = some digits)
      (all : digits.all isDigit) (value : n = ofDigits digits % 2 ^ 32) (small : ¬ n > userIndexMax)
      (split : header ++ (front ++ inbound) = stream)
      (room : (header ++ front).length < httpRequestMax) :
      ¬ (buffered (header ++ front) (header.length - 4)).length > n := by
    intro more
    rw [pending] at more
    subst value
    refine fits ⟨header.length - 4, digits, ?_, ?_, ?_, all, Nat.le_of_not_lt small, ?_⟩
    · rw [← split]
      exact (whole.found _).1
    · rw [← split, whole.startsWith _ (by decide)]
      exact put
    · rw [← split, whole.declared, found]
    · rw [← split, behind]
      simp only [List.length_append] at room ⊢
      refine Nat.lt_min.mpr ⟨?_, ?_⟩
      · omega
      · omega
  have refused := refuse_agree agree fd
  -- both headers declare the same, so both uploads take the same branch
  have verdict := uploadRoute_cases fd complete
  have verdict' := uploadRoute_cases fd (whole.found front').1
  rw [whole.declared] at verdict verdict'
  rcases verdict with ⟨missing, route⟩ | ⟨digits, found, verdict⟩
  · rcases verdict' with ⟨-, route'⟩ | ⟨digits', found', -⟩
    · rw [route, route']
      exact refused _ _
    · exact absurd (missing.symm.trans found').symm (Option.some_ne_none _)
  rcases verdict' with ⟨missing', -⟩ | ⟨digits', found', verdict'⟩
  · exact absurd (missing'.symm.trans found).symm (Option.some_ne_none _)
  obtain rfl := Option.some.inj (found.symm.trans found')
  rcases verdict with ⟨other, route⟩ | ⟨all, n, value, route⟩
  · rcases verdict' with ⟨-, route'⟩ | ⟨all, -⟩
    · rw [route, route']
      exact refused _ _
    · exact absurd all other
  rcases verdict' with ⟨other, -⟩ | ⟨-, n', value', route'⟩
  · exact absurd all other
  obtain rfl : n = n' := value.trans value'.symm
  rw [route] at takes ⊢
  rw [route'] at takes' ⊢
  by_cases large : n > userIndexMax
  · rw [if_pos large, if_pos large]
    exact refused _ _
  rw [if_neg large, if_neg (within found all value large split room)] at takes ⊢
  rw [if_neg large, if_neg (within found all value large split' room')] at takes' ⊢
  refine store_agree agree receives receives' fd ?_ takes takes'
  rw [pending, pending]
  exact List.append_cancel_left (split.trans split'.symm)

/-- Receiving a request changes nothing else. -/
theorem recvRequest_agree {w : World} (receives : w.FineAt .recv) (fd : Fd) :
    ∃ received w₁, Receives w.inbound received w₁.inbound ∧
      runIn (recvRequest fd (httpRequestMax - 1) []) w = (received, w₁) ∧ w₁.FineAt .recv ∧
      Agree w w₁ := by
  obtain ⟨fates, later, received, inbound, result, run⟩ := recvRequest_start receives fd
  refine ⟨received, { w with fates, inbound }, result, run, receives.later later, ?_, rfl, rfl, rfl⟩
  intro kind other _
  have kept := run_fates (recvRequest_only (fun _ _ _ => other.symm) (httpRequestMax - 1) [] :
    (recvRequest fd (httpRequestMax - 1) []).Only fun c => c.kind ≠ kind) w
  rw [run] at kept
  exact kept.symm

theorem cutBlind_of_fits {stream : Bytes} (fits : ¬ Overrun stream) : CutBlind stream := by
  intro indexHtml fuel fd limit w w' inbound inbound' receives receives' agree takes takes'
  suffices both : Agree (runIn (handleClient indexHtml fuel fd) w).2
      (runIn (handleClient indexHtml fuel fd) w').2 from
    ⟨both.sent, congrArg (fun d : Disk => d.node .userIndex) both.disk⟩
  obtain ⟨received, w₁, result, run, receives₁, agree₁⟩ := recvRequest_agree receives fd
  obtain ⟨received', w₁', result', run', receives₁', agree₁'⟩ := recvRequest_agree receives' fd
  have agree := (agree₁.symm.trans agree).trans agree₁'
  rw [handleClient_eq] at takes takes' ⊢
  have takes := (meets_bind.mp takes).2
  have takes' := (meets_bind.mp takes').2
  rw [run] at takes
  rw [run'] at takes'
  rw [runIn_bind, run, runIn_bind, run']
  rw [inbound] at result
  rw [inbound'] at result'
  have alike {p p' : HttpProg Bool} (couples : p.Couples World.serve Agree (fun _ => Agree) p') :
      Agree (runIn p w₁).2 (runIn p' w₁').2 := by
    obtain ⟨_, t, t', (ran : runIn _ _ = _), (ran' : runIn _ _ = _), after⟩ := couples w₁ w₁' agree
    rw [ran, ran']
    exact after
  rcases result.verdict with ⟨headerEnd, front, complete, rfl, split, room⟩ |
      ⟨missing, ⟨short, rfl⟩ | ⟨long, request, rfl⟩⟩
  · rcases result'.verdict with ⟨headerEnd', front', complete', rfl, split', room'⟩ | ⟨missing, -⟩
    case inr => exact absurd (missing.symm.trans complete).symm (Option.some_ne_none _)
    obtain rfl := Option.some.inj (complete.symm.trans complete')
    obtain ⟨header, rest, buffer, length, whole⟩ := findHeaderEnd_split complete
    have front_is : stream.take (headerEnd + 4) = header := by
      rw [← List.take_append_drop (httpRequestMax - 1) stream, buffer, List.append_assoc, ← length,
        List.take_left]
    rw [front_is] at takes takes' room room' ⊢
    have behind : headerEnd = header.length - 4 := by omega
    by_cases put : startsWith header "PUT /user/index.html "
    · have upload (front : Bytes) : answerRequest indexHtml fuel fd
          (.received (header ++ front) (some headerEnd)) =
            uploadRoute fd (header ++ front) headerEnd >>= fun _ => .ret true :=
        answerRequest_put indexHtml fuel fd (by rw [whole.startsWith front (by decide)]; exact put)
      simp only [upload] at takes takes' ⊢
      rw [runIn_bind, runIn_bind]
      have all (s : Bytes) (split : s = stream.drop (headerEnd + 4)) : header ++ s = stream := by
        rw [split, ← front_is, List.take_append_drop]
      subst behind
      exact upload_agree whole put fits (all _ split) (all _ split') room room' agree receives₁
        receives₁' fd (meets_bind.mp takes).1 (meets_bind.mp takes').1
    · exact alike (answerRequest_couples whole fd front front' put indexHtml fuel headerEnd)
  · rcases result'.verdict with ⟨headerEnd', front', complete', -⟩ | ⟨-, ⟨-, rfl⟩ | ⟨long, -⟩⟩
    · exact absurd (missing.symm.trans complete').symm (Option.some_ne_none _)
    · exact alike (alike_other ⟨trivial, fun _ => trivial⟩)
    · omega
  · rcases result'.verdict with
      ⟨headerEnd', front', complete', -⟩ | ⟨-, ⟨short, -⟩ | ⟨-, request', rfl⟩⟩
    · exact absurd (missing.symm.trans complete').symm (Option.some_ne_none _)
    · omega
    · have closes : (answer fd requestTooLarge).Only OtherCall :=
        answer_only (fun _ _ => trivial) (fun _ => trivial) fd requestTooLarge
      exact alike (alike_other (closes.bind fun _ => trivial))

/-! ## The streams that are not -/

/-- A receive that does not fail takes bytes off the front of what there is. -/
theorem serve_recv_some {w : World} (fine : (w.fate .recv).fail = none) (filled : w.inbound ≠ [])
    (fd : Fd) (offset len : Nat) :
    ∃ chunk : Chunk len, chunk.val = w.inbound.take ((w.fate .recv).upTo len) ∧
      World.serve (.recv fd offset len) w = (.ok chunk, { w with
        fates := w.fatesAfter .recv
        inbound := w.inbound.drop ((w.fate .recv).upTo len) }) := by
  refine ⟨⟨w.inbound.take ((w.fate .recv).upTo len), Nat.le_trans (List.length_take_le _ _)
    (Luck.upTo_le _ _)⟩, rfl, ?_⟩
  simp only [World.serve, HttpCall.kind, World.respond, fine]
  cases w with
  | mk fates inbound =>
      cases inbound with
      | nil => exact absurd rfl filled
      | cons b more => rfl

/-- A header that comes with the first receive. -/
theorem recvRequest_once {w : World} (fine : (w.fate .recv).fail = none) {n headerEnd : Nat}
    (takes : (w.fate .recv).upTo (httpRequestMax - 1) = n)
    (found : findHeaderEnd (w.inbound.take n) = some headerEnd) (fd : Fd) :
    ∃ w₁, runIn (recvRequest fd (httpRequestMax - 1) []) w =
        (.received (w.inbound.take n) (some headerEnd), w₁) ∧ Agree w w₁ ∧ World.Later w w₁ := by
  have bound := findHeaderEnd_bound found
  have filled : w.inbound ≠ [] := by
    intro empty
    rw [empty, List.take_nil] at bound
    exact absurd bound (Nat.not_le.mpr (Nat.succ_pos _))
  obtain ⟨⟨chunk, fits⟩, is, served⟩ := serve_recv_some fine filled fd 0 (httpRequestMax - 1)
  rw [takes] at is served
  rw [← is] at found bound ⊢
  refine ⟨(World.serve (.recv fd 0 (httpRequestMax - 1)) w).2, ?_, ?_, World.serve_later _ w⟩
  case refine_2 =>
    rw [served]
    exact ⟨fun kind other _ => (if_neg other).symm, rfl, rfl, rfl⟩
  show runIn (recvRequest fd (1534 + 1) []) w = _
  rw [recvRequest, if_pos (by decide)]
  simp only [perform, Prog.perform_bind, Prog.run_call, List.length_nil, Nat.sub_zero, served]
  cases chunk with
  | nil => exact absurd bound (Nat.not_le.mpr (Nat.succ_pos _))
  | cons b more =>
      simp only [List.nil_append, found]
      rfl

/-- The client sends a stream to an empty storage, and the first receive delivers as much of it. -/
def firstCut (stream : Bytes) (count : Option Nat) : World where
  fates := fun kind => if kind = .recv then [{ count }] else []
  inbound := stream
  disk := Disk.blank

theorem firstCut_fine {stream : Bytes} {count : Option Nat} (some : count ≠ some 0) (kind : Kind) :
    (firstCut stream count).FineAt kind := by
  intro fate member
  by_cases recv : kind = .recv
  · rw [show (firstCut stream count).fates kind = [{ count }] from if_pos recv] at member
    rw [List.mem_singleton.mp member]
    exact ⟨rfl, some⟩
  · rw [show (firstCut stream count).fates kind = [] from if_neg recv] at member
    cases member

/-- What is sent to an upload depends on how much of the body the first receive delivers. -/
theorem firstCut_sends {header rest digits : Bytes} (whole : WholeHeader header)
    (put : startsWith header "PUT /user/index.html ")
    (declares : declared (header ++ rest) = some digits) (all : digits.all isDigit)
    (small : ofDigits digits % 2 ^ 32 ≤ userIndexMax) (count : Option Nat) (some : count ≠ some 0)
    {n : Nat} (takes : ((firstCut (header ++ rest) count).fate .recv).upTo (httpRequestMax - 1) = n)
    (long : header.length ≤ n) :
    if (rest.take (n - header.length)).length > ofDigits digits % 2 ^ 32 then
      (runIn (handleClient [] 0 0) (firstCut (header ++ rest) count)).2.sent =
        textResponse "400 Bad Request" "body larger than content-length\n"
    else
      (runIn (handleClient [] 0 0) (firstCut (header ++ rest) count)).2.sent =
          textResponse "500 Internal Server Error" "user page write failed\n" ∨
        (runIn (handleClient [] 0 0) (firstCut (header ++ rest) count)).2.sent =
          textResponse "201 Created" "user page written\n" := by
  generalize front_is : rest.take (n - header.length) = front
  have first : (header ++ rest).take n = header ++ front := by
    rw [List.take_append, List.take_of_length_le long, front_is]
  obtain ⟨complete, four⟩ := whole.found front
  have found : findHeaderEnd ((firstCut (header ++ rest) count).inbound.take n) =
      Option.some (header.length - 4) := by
    show findHeaderEnd ((header ++ rest).take n) = _
    rw [first]
    exact complete
  have fine (kind : Kind) : (firstCut (header ++ rest) count).FineAt kind := firstCut_fine some kind
  obtain ⟨w₁, run, agree, later⟩ := recvRequest_once (fine .recv).fate.1 takes found 0
  have is : (firstCut (header ++ rest) count).inbound.take n = header ++ front := first
  have sends := (fine .send).later later
  have empty : w₁.sent = [] := agree.sent.symm
  rw [is] at run
  rw [handleClient_eq, runIn_bind, run, answerRequest_put [] 0 0 (by
    rw [whole.startsWith front (by decide)]
    exact put), runIn_bind]
  rw [whole.declared] at declares
  -- the declared length is a number, so the other two refusals are out
  rcases uploadRoute_cases 0 complete with ⟨missing, -⟩ | ⟨digits', declares', ⟨other, -⟩ |
      ⟨-, length, value, route⟩⟩
  · rw [whole.declared, declares] at missing
    cases missing
  · rw [whole.declared, declares] at declares'
    cases declares'
    exact absurd all other
  rw [whole.declared, declares] at declares'
  cases declares'
  have pending : buffered (header ++ front) (header.length - 4) = front := by
    rw [buffered, Nat.sub_add_cancel four, List.drop_left]
  rw [← value] at small ⊢
  rw [route, if_neg (Nat.not_lt.mpr small), pending]
  by_cases more : front.length > length
  · rw [if_pos more, if_pos more]
    have sent : (runIn (refuse 0 "400 Bad Request" "body larger than content-length\n") w₁).2.sent =
        w₁.sent ++ textResponse "400 Bad Request" "body larger than content-length\n" :=
      refuse_sent sends 0 (by decide) (by decide)
    rw [empty] at sent
    exact sent
  · rw [if_neg more, if_neg more]
    have sent := store_sends sends 0 (header ++ front) (header.length - 4) length
    rw [empty] at sent
    exact sent

theorem not_cutBlind {stream : Bytes} (overrun : Overrun stream) : ¬ CutBlind stream := by
  obtain ⟨headerEnd, digits, complete, put, declares, all, small, long⟩ := overrun
  obtain ⟨header, rest, rfl, length, whole⟩ := findHeaderEnd_split complete
  rw [whole.startsWith rest (by decide)] at put
  obtain ⟨longer, fits⟩ := Nat.lt_min.mp long
  rw [List.length_append] at longer
  have pos : some (headerEnd + 4) ≠ some 0 := fun is => by cases is
  have buffer : headerEnd + 4 ≤ httpRequestMax - 1 := by omega
  have atOnce : ((firstCut (header ++ rest) none).fate .recv).upTo (httpRequestMax - 1) =
      httpRequestMax - 1 := Nat.min_self _
  have headerOnly : ((firstCut (header ++ rest) (some (headerEnd + 4))).fate .recv).upTo
      (httpRequestMax - 1) = headerEnd + 4 := Nat.min_eq_left buffer
  have first :=
    firstCut_sends whole put declares all small none (fun is => by cases is) atOnce (by omega)
  have second := firstCut_sends whole put declares all small _ pos headerOnly (Nat.le_of_eq length)
  have more : (rest.take (httpRequestMax - 1 - header.length)).length >
      ofDigits digits % 2 ^ 32 := by
    rw [List.length_take]
    exact Nat.lt_min.mpr ⟨by omega, by omega⟩
  have none : ¬ (rest.take (headerEnd + 4 - header.length)).length > ofDigits digits % 2 ^ 32 := by
    rw [length, Nat.sub_self]
    exact Nat.not_lt_zero _
  rw [if_pos more] at first
  rw [if_neg none] at second
  intro blind
  have agree : Agree (firstCut (header ++ rest) Option.none)
      (firstCut (header ++ rest) (some (headerEnd + 4))) :=
    ⟨fun kind other _ => (if_neg other).trans (if_neg other).symm, rfl, rfl, rfl⟩
  have fine (kind : Kind) : (firstCut (header ++ rest) Option.none).FineAt kind :=
    firstCut_fine (fun is => by cases is) kind
  have fine' (kind : Kind) : (firstCut (header ++ rest) (some (headerEnd + 4))).FineAt kind :=
    firstCut_fine pos kind
  have same := (blind [] 0 0 Option.none _ _ rfl rfl (fine .recv) (fine' .recv) agree
    (takes_all (fine .write) _) (takes_all (fine' .write) _)).1
  rw [first] at same
  rcases second with sent | sent
  · exact httpHeader_differ (by decide) _ _ _ _ _ _ (same.trans sent)
  · exact httpHeader_differ (by decide) _ _ _ _ _ _ (same.trans sent)

/-- What the server sends and stores does not depend on the cut, exactly if the stream is no upload
with a byte too many that fits into the buffer. -/
theorem cutBlind_iff (stream : Bytes) : CutBlind stream ↔ ¬ Overrun stream :=
  ⟨fun blind overrun => not_cutBlind overrun blind, cutBlind_of_fits⟩

/-- Three bytes are declared, and four are sent. -/
def fourForThree : Bytes := putAbc ++ lit "abcd"

/-- In one piece the upload is refused. Where the header comes by itself, three bytes are stored. -/
theorem fourForThree_cut :
    ¬ CutBlind fourForThree ∧
      (runIn (handleClient [] 0 0) (firstCut fourForThree none)).2.sent =
        textResponse "400 Bad Request" "body larger than content-length\n" ∧
      (runIn (handleClient [] 0 0) (firstCut fourForThree none)).2.disk.node .userIndex = none ∧
      (runIn (handleClient [] 0 0) (firstCut fourForThree (some putAbc.length))).2.sent =
        textResponse "201 Created" "user page written\n" ∧
      (runIn (handleClient [] 0 0)
          (firstCut fourForThree (some putAbc.length))).2.disk.node .userIndex =
        some (.file (lit "abc")) := by
  have three : lookup (lit "Content-Length") (headerLines putAbc) = some (lit "3") := by
    decide +kernel
  have overrun : Overrun fourForThree := by
    have whole := putAbc_isPut.whole
    refine ⟨putAbc.length - 4, lit "3", (whole.found _).1, ?_,
      (whole.declared _).trans three, by decide, by decide, by decide⟩
    rw [fourForThree, whole.startsWith _ (by decide)]
    exact putAbc_isPut.route
  refine ⟨not_cutBlind overrun, ?_⟩
  unfold handleClient pageRoutes uploadRoute refuse
  decide +kernel

end PicoCan.Http
