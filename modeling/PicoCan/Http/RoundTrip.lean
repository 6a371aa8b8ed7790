import PicoCan.Http.Answered
import PicoCan.Http.Visits

/-!
# Upload and download

A user page that was uploaded with success is the body the client sent, byte for byte, and
comes back whole on every later visit until another upload opens it. On the way in the body
is cut by the receives, by the chunks of the storage and by the writes; on the way out by the
reads, by the chunks of `send_all` and by the sends.
-/

namespace PicoCan.Http

open Calls
open Calls.Json (isDigit ofDigits)

/-! ## The upload -/

/-- The header of an upload of `len` bytes, its blank line included. -/
structure IsPut (header : Bytes) (len : Nat) : Prop where
  text : 0 ∉ header
  ends : strstr blankLine header = some blankLine
  route : startsWith header "PUT /user/index.html "
  length : ∃ digits, lookup (lit "Content-Length") (headerLines header) = some digits ∧
    digits ≠ [] ∧ digits.all isDigit ∧ ofDigits digits = len

theorem IsPut.whole {header : Bytes} {len : Nat} (put : IsPut header len) : WholeHeader header :=
  ⟨put.text, put.ends⟩

/-- What the server sees of a request with this header, whatever has come behind it. -/
theorem IsPut.request {header : Bytes} {len : Nat} (put : IsPut header len) (rest : Bytes) :
    findHeaderEnd (header ++ rest) = some (header.length - 4) ∧ 4 ≤ header.length ∧
      startsWith (cString (header ++ rest)) "PUT /user/index.html " ∧
      ∃ digits, declared (header ++ rest) = some digits ∧ digits.all isDigit ∧
        ofDigits digits = len := by
  obtain ⟨complete, four⟩ := put.whole.found rest
  obtain ⟨digits, found, -, all, value⟩ := put.length
  refine ⟨complete, four, ?_, digits, (put.whole.declared rest).trans found, all, value⟩
  rw [put.whole.startsWith rest (by decide)]
  exact put.route

/-- The calls of other parts of the server leave the disk alone. -/
theorem run_disk {α : Type} {p : HttpProg α} (only : p.Only NoStorage) (w : World) :
    (runIn p w).2.disk = w.disk := by
  refine only.run_keeps (I := fun s : World => s.disk = w.disk) ?_ rfl
  intro c s call same
  cases c with
  | fs => exact call.elim
  | recv | send | poll => simp only [World.serve, World.respond]; split <;> exact same
  | _ => exact same

/-- What is received with the header is the header and some of what is behind it; or the buffer
is full without it. -/
theorem IsPut.received {header stream : Bytes} {len : Nat} (put : IsPut header len)
    {received : Request} {inbound : Bytes}
    (receives : Receives (header ++ stream) received inbound) :
    (∃ request, received = .received request none) ∨
    ∃ front, received = .received (header ++ front) (some (header.length - 4)) ∧
      front ++ inbound = stream := by
  obtain ⟨whole, four, -⟩ := put.request stream
  cases receives with
  | gone missing => exact absurd (whole.symm.trans missing) (Option.some_ne_none _)
  | tooLarge request => exact .inl ⟨request, rfl⟩
  | header request inbound headerEnd split found =>
      have still := findHeaderEnd_append found inbound
      rw [← split] at still
      obtain rfl : header.length - 4 = headerEnd := Option.some.inj (whole.symm.trans still)
      have bound := findHeaderEnd_bound found
      have begins : header <+: request := by
        refine List.prefix_of_prefix_length_le (List.prefix_append header stream) ?_ (by omega)
        rw [split]
        exact List.prefix_append request inbound
      obtain ⟨front, rfl⟩ := begins
      rw [List.append_assoc] at split
      exact .inr ⟨front, rfl, (List.append_cancel_left split).symm⟩

def created : Bytes := textResponse "201 Created" "user page written\n"

theorem not_created {w w' : World} {text : Bytes} (other : text ≠ created)
    (sent : w'.sent = w.sent ++ text) : w'.sent ≠ w.sent ++ created := fun same =>
  other (List.append_cancel_left (sent.symm.trans same))

/-- What an upload that was answered with a 201 leaves: the page, and nothing of it to receive. -/
structure Created (body more : Bytes) (w : World) : Prop where
  mounted : ∃ ret, ¬ ret < 0 ∧ Mounted ret w
  page : w.disk.node .userIndex = some (.file body)
  closed : w.disk.file = none
  inbound : w.inbound = more

/-- The storage has been called, and the response says with what result. -/
theorem store_created {w : World} (receives : w.FineAt .recv) (writes : w.FineAt .write)
    (sends : w.FineAt .send) (fd : Fd) {request body more : Bytes} {headerEnd : Nat}
    (split : buffered request headerEnd ++ w.inbound = body ++ more)
    (fits : (buffered request headerEnd).length ≤ body.length)
    (success : (runIn (store fd request headerEnd body.length) w).2.sent = w.sent ++ created) :
    Created body more (runIn (store fd request headerEnd body.length) w).2 := by
  unfold store at success ⊢
  rw [runIn_bind] at success ⊢
  generalize buffered request headerEnd = front at split fits success ⊢
  obtain ⟨reader, start⟩ : ∃ reader : RequestBodyReader, reader = { fd, pending := front } :=
    ⟨_, rfl⟩
  have unread : unreadBody reader w = body ++ more := by
    rw [start]
    exact split
  have rest : reader.rest.length ≤ body.length := by
    rw [start]
    exact fits
  rw [← start] at success ⊢
  have only : (storageWriteUserIndexStream requestBodyRead body.length reader).Only NoSend :=
    storageWriteUserIndexStream_only (fun _ => trivial)
      (fun _ n => requestBodyRead_only (fun _ _ _ => trivial) n) _ _
  have quiet := run_sent only w
  have later := run_later (storageWriteUserIndexStream requestBodyRead body.length reader) w
  obtain ⟨ret, reader', w₁, run, outcome⟩ :=
    storageWriteUserIndexStream_fine receives writes reader rest
  rw [run] at success quiet later ⊢
  have failed : textResponse "500 Internal Server Error" "user page write failed\n" ≠ created := by
    decide +kernel
  by_cases bad : ret < 0
  · refine absurd success ?_
    simp only
    rw [if_pos bad, ← quiet]
    exact not_created failed (refuse_sent (sends.later later) fd (by decide) (by decide))
  simp only
  rw [if_neg bad]
  obtain ⟨-, stored⟩ := outcome.resolve_left bad
  have disk := run_disk (refuse_only (P := NoStorage) (fun _ _ => trivial) (fun _ => trivial) fd
    "201 Created" "user page written\n") w₁
  have kept := run_inbound (refuse_only (P := NoRecv) (fun _ _ => trivial) (fun _ => trivial) fd
    "201 Created" "user page written\n") w₁
  refine ⟨⟨w.disk.mountOutcome, stored.success, ?_⟩, ?_, ?_, ?_⟩
  · rw [Mounted, disk]
    exact stored.mounted
  · rw [disk, stored.page, unread, List.take_left]
  · rw [disk, stored.closed]
  · rw [kept.1, stored.inbound, unread, List.drop_left]

/-- An upload that is answered with a 201 has been stored. -/
theorem put_created {w : World} (receives : w.FineAt .recv) (writes : w.FineAt .write)
    (sends : w.FineAt .send) {header body more : Bytes} (put : IsPut header body.length)
    (stream : w.inbound = header ++ (body ++ more)) (small : body.length ≤ userIndexMax)
    (indexHtml : Bytes) (fuel : Nat) (fd : Fd)
    (success : (runIn (handleClient indexHtml fuel fd) w).2.sent = w.sent ++ created) :
    Created body more (runIn (handleClient indexHtml fuel fd) w).2 := by
  obtain ⟨fates, later, result, inbound, received, run⟩ := recvRequest_start receives fd
  rw [stream] at received
  obtain ⟨w₁, start⟩ : ∃ w₁, w₁ = ({ w with fates, inbound } : World) := ⟨_, rfl⟩
  have same : w₁.sent = w.sent ∧ w₁.inbound = inbound ∧ World.Later w w₁ := by
    rw [start]
    exact ⟨rfl, rfl, later⟩
  rw [← start] at run
  clear start later
  obtain ⟨sent₁, inbound₁, later₁⟩ := same
  rw [handleClient_eq, runIn_bind, run, ← sent₁] at success
  rw [handleClient_eq, runIn_bind, run]
  have sends₁ := sends.later later₁
  rcases put.received received with ⟨request, rfl⟩ | ⟨front, rfl, split⟩
  · have large : lit requestTooLarge ≠ created := by decide +kernel
    refine absurd success ?_
    simp only [answerRequest]
    rw [runIn_bind]
    exact not_created large (answer_sent sends₁ fd requestTooLarge)
  obtain ⟨complete, four, route, digits, declares, all, value⟩ := put.request front
  rw [answerRequest_put indexHtml fuel fd route, runIn_bind] at success ⊢
  rcases uploadRoute_cases fd complete with ⟨missing, -⟩ | ⟨digits', found, rest⟩
  · exact absurd (missing.symm.trans declares).symm (Option.some_ne_none _)
  obtain rfl := Option.some.inj (found.symm.trans declares)
  rcases rest with ⟨other, -⟩ | ⟨-, n, length, upload⟩
  · exact absurd all other
  obtain rfl : n = body.length := by
    unfold userIndexMax at small
    omega
  have behind : header.length - 4 + 4 = header.length := by omega
  have pending : buffered (header ++ front) (header.length - 4) = front := by
    rw [buffered, behind, List.drop_left]
  rw [upload, if_neg (Nat.not_lt.mpr small)] at success ⊢
  by_cases beyond : (buffered (header ++ front) (header.length - 4)).length > body.length
  · have refused :
        textResponse "400 Bad Request" "body larger than content-length\n" ≠ created := by
      decide +kernel
    refine absurd success ?_
    rw [if_pos beyond]
    exact not_created refused (refuse_sent sends₁ fd (by decide) (by decide))
  · rw [if_neg beyond] at success ⊢
    refine store_created (receives.later later₁) (writes.later later₁) sends₁ fd ?_
      (Nat.le_of_not_lt beyond) success
    rw [pending, inbound₁, split]

/-! ## The download -/

/-- The response to a visit, where the storage can be mounted. -/
def Disk.pageText (d : Disk) : Bytes :=
  match d.node .userIndex with
  | some (.file content) =>
      if content.length > userIndexMax then
        textResponse "413 Payload Too Large" "user page too large\n"
      else httpHeader "200 OK" textHtml content.length ++ content
  | _ => textResponse "404 Not Found" "user page not found\n"

/-- A page that is not too large is sent whole. -/
theorem Disk.pageText_file {d : Disk} {content : Bytes}
    (page : d.node .userIndex = some (.file content)) (small : content.length ≤ userIndexMax) :
    d.pageText = httpHeader "200 OK" textHtml content.length ++ content := by
  unfold pageText
  rw [page]
  exact if_neg (Nat.not_lt.mpr small)

/-- A visit to a mounted disk is sent what the disk has for it, and the route is done. -/
theorem visit_sends {w : World} (smooth : w.Smooth) (mounts : ¬ w.disk.mountOutcome < 0)
    (indexHtml : Bytes) (fd : Fd) {request : Bytes} {headerEnd : Nat}
    (received : (runIn (recvRequest fd (httpRequestMax - 1) []) w).1 =
      .received request (some headerEnd))
    (user : GetsUserPage request) {fuel : Nat}
    (enough : ∀ content, w.disk.node .userIndex = some (.file content) → content.length < fuel) :
    (runIn (handleClient indexHtml fuel fd) w).1 = true ∧
      (runIn (handleClient indexHtml fuel fd) w).2.sent = w.sent ++ w.disk.pageText := by
  have same : SameServer w (runIn (recvRequest fd (httpRequestMax - 1) []) w).2 :=
    run_sameServer (recvRequest_only (fun _ _ _ => trivial) _ _) w
  have later := run_later (recvRequest fd (httpRequestMax - 1) []) w
  rw [handleClient_eq, runIn_bind, received, getsUserPage_route user]
  generalize (runIn (recvRequest fd (httpRequestMax - 1) []) w).2 = w₁ at same later ⊢
  obtain ⟨sent, -, -, disk⟩ := same
  rw [← sent, ← disk]
  rw [← disk] at mounts enough
  have smooth₁ := smooth.later later
  obtain ⟨ret, len, w₂, size, files, kept, cases⟩ := storageUserIndexSize_run w₁
  rcases cases with ⟨failed, unmounted | unlucky | missing⟩ | ⟨rfl, -, content, page, rfl⟩
  · exact absurd unmounted mounts
  · exact absurd (smooth₁ .stat) unlucky
  · have text : w₁.disk.pageText = lit userPageNotFound := by
      rw [userPageNotFound_eq]
      unfold Disk.pageText
      cases page : w₁.disk.node .userIndex with
      | none => rfl
      | some node =>
          cases node with
          | dir => rfl
          | file content => exact absurd page (missing content)
    unfold userPageRoute
    rw [runIn_bind, size]
    simp only
    rw [if_pos failed, runIn_bind, text, ← files.sent]
    exact ⟨rfl, answer_sent ((smooth₁ .send).later files.later) fd userPageNotFound⟩
  · by_cases large : content.length > userIndexMax
    · have text :
          w₁.disk.pageText = textResponse "413 Payload Too Large" "user page too large\n" := by
        unfold Disk.pageText
        rw [page]
        exact if_pos large
      unfold userPageRoute
      rw [runIn_bind, size]
      simp only
      rw [if_neg (by decide), if_pos large, runIn_bind, text, ← files.sent]
      exact ⟨rfl, refuse_sent ((smooth₁ .send).later files.later) fd (by decide) (by decide)⟩
    · have small := Nat.le_of_not_lt large
      rw [Disk.pageText_file page small]
      exact userPageRoute_sends (smooth₁ .send) size files mounts kept page small (smooth₁ .open)
        (smooth₁ .read) fd (enough content page)

/-! ## Both -/

/-- A page that was uploaded with a 201 is the body, exactly the body was taken off the
connection, and every later visit gets it back until another upload has opened it. The loops of
the upload end by themselves: rounds beyond the length of what they copy change nothing. -/
theorem page_round_trip {w : World} (smooth : w.Smooth) {header body more : Bytes}
    (put : IsPut header body.length) (stream : w.inbound = header ++ (body ++ more))
    (small : body.length ≤ userIndexMax) (indexHtml : Bytes) (fuel : Nat) (fd : Fd)
    (success : (runIn (handleClient indexHtml fuel fd) w).2.sent = w.sent ++ created) :
    (runIn (handleClient indexHtml fuel fd) w).2.disk.node .userIndex = some (.file body) ∧
      (runIn (handleClient indexHtml fuel fd) w).2.inbound = more ∧
      (∀ last, Visited indexHtml (runIn (handleClient indexHtml fuel fd) w).2 last →
        last.disk.truncations = (runIn (handleClient indexHtml fuel fd) w).2.disk.truncations →
        ∀ (visit : World) (fuel' : Nat) (fd' : Fd) (request : Bytes) (headerEnd : Nat),
          visit.disk = last.disk → visit.Smooth → body.length < fuel' →
          (runIn (recvRequest fd' (httpRequestMax - 1) []) visit).1 =
            .received request (some headerEnd) →
          GetsUserPage request →
          (runIn (handleClient indexHtml fuel' fd') visit).1 = true ∧
            (runIn (handleClient indexHtml fuel' fd') visit).2.sent =
              visit.sent ++ (httpHeader "200 OK" textHtml body.length ++ body)) ∧
      (∀ rounds ret reader, body.length ≤ rounds →
        copyLoop requestBodyRead rounds ret body.length reader =
          copyLoop requestBodyRead body.length ret body.length reader) ∧
      ∀ rounds ret buf, buf.length ≤ rounds →
        writeLoop rounds ret buf = writeLoop buf.length ret buf := by
  have stored := put_created (smooth .recv) (smooth .write) (smooth .send) put stream small
    indexHtml fuel fd success
  generalize (runIn (handleClient indexHtml fuel fd) w).2 = after at stored ⊢
  refine ⟨stored.page, stored.inbound, ?_, ?_, ?_⟩
  · intro last visited same visit fuel' fd' request headerEnd disk smooth' enough received user
    obtain ⟨ret, ok, mounted⟩ := stored.mounted
    have start : Holds ret after.disk.truncations body after := by
      refine ⟨mounted, Nat.le_refl _, fun _ => stored.page, fun _ file is => ?_⟩
      rw [stored.closed] at is
      cases is
    have holds := visited.holds start
    have page := holds.page same
    have mounted' := holds.mounted
    rw [Mounted, ← disk] at mounted'
    rw [← disk] at page
    have mounts : ¬ visit.disk.mountOutcome < 0 := by
      rw [Mounted.outcome mounted']
      exact ok
    rw [← Disk.pageText_file page small]
    refine visit_sends smooth' mounts indexHtml fd' received user fun content is => ?_
    rw [page] at is
    cases is
    exact enough
  · exact fun rounds ret reader enough =>
      copyLoop_fuel requestBodyRead ret body.length reader enough (Nat.le_refl _)
  · exact fun rounds ret buf enough => writeLoop_fuel ret buf enough (Nat.le_refl _)

/-- Three bytes for an empty disk, in pieces, and something behind them. -/
def putAbc : Bytes := lit "PUT /user/index.html HTTP/1.1\r\nContent-Length: 3\r\n\r\n"

def uploadAbc : World where
  fates := fun kind =>
    if kind = .recv then [{ count := some 54 }, { count := some 1 }]
    else if kind = .write then [{ count := some 1 }, { count := some 1 }] else []
  inbound := putAbc ++ (lit "abc" ++ lit "x")
  disk := Disk.blank

theorem putAbc_isPut : IsPut putAbc (lit "abc").length :=
  ⟨by decide, by decide +kernel, by decide +kernel, lit "3", by decide +kernel, by decide,
    by decide, by decide⟩

/-- A visit to the page on a disk. -/
def readBack (disk : Disk) : World where
  inbound := lit "GET /user/ HTTP/1.1\r\n\r\n"
  disk := disk

theorem page_round_trip_abc :
    (runIn (handleClient [] 8 3) uploadAbc).2.disk.node .userIndex = some (.file (lit "abc")) ∧
      (runIn (handleClient [] 8 3) uploadAbc).2.inbound = lit "x" ∧
      (runIn (handleClient [] 8 4)
        (readBack (runIn (handleClient [] 8 3) uploadAbc).2.disk)).2.sent =
        httpHeader "200 OK" textHtml (lit "abc").length ++ lit "abc" := by
  have smooth : uploadAbc.Smooth := by
    intro kind fate member
    have counts : fate = { count := some 54 } ∨ fate = { count := some 1 } := by
      cases kind with
      | recv => simpa [uploadAbc] using member
      | write =>
          refine .inr ?_
          simpa [uploadAbc] using member
      | _ => cases member
    rcases counts with rfl | rfl
    · exact ⟨rfl, by decide⟩
    · exact ⟨rfl, by decide⟩
  have success : (runIn (handleClient [] 8 3) uploadAbc).2.sent = uploadAbc.sent ++ created := by
    unfold handleClient pageRoutes uploadRoute refuse
    decide +kernel
  have both := page_round_trip smooth putAbc_isPut rfl (by decide) [] 8 3 success
  refine ⟨both.1, both.2.1, ?_⟩
  generalize (runIn (handleClient [] 8 3) uploadAbc).2 = stored at both ⊢
  have received : (runIn (recvRequest 4 (httpRequestMax - 1) []) (readBack stored.disk)).1 =
      .received (lit "GET /user/ HTTP/1.1\r\n\r\n") (some 19) := rfl
  have smooth' : (readBack stored.disk).Smooth := fun kind fate member => by cases member
  have user : GetsUserPage (lit "GET /user/ HTTP/1.1\r\n\r\n") := .inr (by decide +kernel)
  exact (both.2.2.1 stored .here rfl (readBack stored.disk) 8 4 _ _ rfl smooth' (by decide) received
    user).2

end PicoCan.Http
