import PicoCan.Http.Handshake
import PicoCan.Http.RoundTrip

/-!
# Answers that are cut short

A send, an open or a read may fail at any point of an answer. What the client has seen by
then is the front of one response that the request can get, and that response is complete.
-/

namespace PicoCan.Http

open Calls
open Calls.Json (isDigit ofDigits)
open PicoCan.Can (snprintk)

/-! ## The front of a text -/

/-- The front of `data` has been sent since `w`. -/
def Begun (data : Bytes) (w w' : World) : Prop :=
  ∃ put, w'.sent = w.sent ++ put ∧ put <+: data

namespace Begun

variable {data rest : Bytes} {w w' w'' : World}

theorem quiet (same : w'.sent = w.sent) : Begun data w w' :=
  ⟨[], by rw [same, List.append_nil], List.nil_prefix⟩

theorem after (same : w'.sent = w.sent) (begun : Begun data w' w'') : Begun data w w'' := by
  obtain ⟨put, sent, front⟩ := begun
  exact ⟨put, by rw [sent, same], front⟩

theorem before (begun : Begun data w w') (same : w''.sent = w'.sent) : Begun data w w'' := by
  obtain ⟨put, sent, front⟩ := begun
  exact ⟨put, same.trans sent, front⟩

theorem longer (begun : Begun data w w') : Begun (data ++ rest) w w' := by
  obtain ⟨put, sent, front⟩ := begun
  exact ⟨put, sent, front.trans (List.prefix_append _ _)⟩

theorem append (all : w'.sent = w.sent ++ data) (begun : Begun rest w' w'') :
    Begun (data ++ rest) w w'' := by
  obtain ⟨put, sent, front⟩ := begun
  refine ⟨data ++ put, ?_, (List.prefix_append_right_inj data).mpr front⟩
  rw [sent, all, List.append_assoc]

end Begun

theorem sendBoth_begun (fd : Fd) (header body : Bytes) (w : World) :
    Begun (header ++ body) w (runIn (sendBoth fd header body) w).2 := by
  have ended {w : World} (ret : Int) {p q : HttpProg Int} (hp : p = .ret (-Can.eIo))
      (hq : q = .ret 0) : (runIn (if ret < 0 then p else q) w).2 = w := by
    subst hp hq
    split <;> rfl
  unfold sendBoth
  rw [runIn_bind]
  obtain ⟨put, sent, front, whole⟩ := sendAll_puts fd header w
  by_cases failed : (runIn (sendAll fd header) w).1 < 0
  · rw [if_pos failed]
    exact .longer ⟨put, sent, front⟩
  · rw [if_neg failed, runIn_bind]
    rw [whole (Int.not_lt.mp failed)] at sent
    obtain ⟨put', sent', front', -⟩ := sendAll_puts fd body (runIn (sendAll fd header) w).2
    refine .append sent ⟨put', ?_, front'⟩
    rw [← sent']
    exact congrArg World.sent (ended _ rfl rfl)

theorem close_sent {α : Type} (fd : Fd) (a : α) (w : World) :
    (runIn (perform (.close fd) >>= fun _ => .ret a) w).2.sent = w.sent := rfl

theorem refuse_begun (fd : Fd) (status body : String) (w : World) :
    Begun (textResponse status body) w (runIn (refuse fd status body) w).2 := by
  unfold refuse sendTextResponse
  rw [runIn_bind]
  simp only [ge_iff_le]
  by_cases long : headerMax ≤ (httpHeader status textPlain (lit body).length).length
  · rw [if_pos long]
    exact .quiet rfl
  · rw [if_neg long]
    exact (sendBoth_begun fd _ _ w).before (close_sent fd () _)

theorem answer_begun (fd : Fd) (text : String) (w : World) :
    Begun (lit text) w (runIn (answer fd text) w).2 := by
  unfold answer
  rw [runIn_bind]
  obtain ⟨put, sent, front, -⟩ := sendAll_puts fd (lit text) w
  exact Begun.before ⟨put, sent, front⟩ (close_sent fd () _)

/-! ## What can be answered -/

/-- The request declares a length in decimal digits, which the code reads as `n`. -/
def Declares (request : Bytes) (n : Nat) : Prop :=
  ∃ digits, declared request = some digits ∧ digits.all isDigit ∧ ofDigits digits % 2 ^ 32 = n

/-- What the storage returns for an upload of `n` bytes. -/
def storeRet (fd : Fd) (w : World) (request : Bytes) (headerEnd n : Nat) : Int :=
  (runIn (storageWriteUserIndexStream requestBodyRead n
    { fd, pending := buffered request headerEnd }) w).1.1

/-- Status and text for an upload: it is refused for the length it declares, or it is told what
the storage has returned. -/
inductive UploadAnswer (fd : Fd) (w : World) (request : Bytes) (headerEnd : Nat) :
    String → String → Prop
  | undeclared (none : declared request = none) :
      UploadAnswer fd w request headerEnd "411 Length Required" "content-length required\n"
  | invalid {digits : Bytes} (declares : declared request = some digits)
      (other : ¬ digits.all isDigit) :
      UploadAnswer fd w request headerEnd "400 Bad Request" "invalid content-length\n"
  | tooLarge {n : Nat} (declares : Declares request n) (large : n > userIndexMax) :
      UploadAnswer fd w request headerEnd "413 Payload Too Large" "user page too large\n"
  | tooMuch {n : Nat} (declares : Declares request n) (allowed : n ≤ userIndexMax)
      (more : (buffered request headerEnd).length > n) :
      UploadAnswer fd w request headerEnd "400 Bad Request" "body larger than content-length\n"
  | failed {n : Nat} (declares : Declares request n) (allowed : n ≤ userIndexMax)
      (fits : (buffered request headerEnd).length ≤ n)
      (failed : storeRet fd w request headerEnd n < 0) :
      UploadAnswer fd w request headerEnd "500 Internal Server Error" "user page write failed\n"
  | written {n : Nat} (declares : Declares request n) (allowed : n ≤ userIndexMax)
      (fits : (buffered request headerEnd).length ≤ n)
      (stored : 0 ≤ storeRet fd w request headerEnd n) :
      UploadAnswer fd w request headerEnd "201 Created" "user page written\n"

/-- The status of a storage that has been asked for. -/
structure Reports (d : Disk) (status : StorageStatus) : Prop where
  attempted : status.attempted = true
  mountRet : status.mountRet = d.mountOutcome
  mounted : status.mounted = d.mountedThen
  space : TellsSpace d status.mounted status.totalKib status.freeKib

/-- A request for an icon. -/
def GetsIcon (request : Bytes) : Prop :=
  startsWith (cString request) "GET /favicon.ico " ∨
    startsWith (cString request) "GET /apple-touch-icon.png " ∨
    startsWith (cString request) "GET /apple-touch-icon-precomposed.png "

/-- A request for the built-in page. -/
def GetsIndex (request : Bytes) : Prop :=
  startsWith (cString request) "GET / " ∨ startsWith (cString request) "GET /index.html "

/-- A request that there is a route for. -/
def Routed (request : Bytes) : Prop :=
  requestIsWebsocket (cString request) ∨ startsWith (cString request) "PUT /user/index.html " ∨
    GetsIcon request ∨ startsWith (cString request) "GET /fs/status " ∨ GetsUserPage request ∨
    GetsIndex request

/-- The responses, header and body, that a request with a complete header can get, in the world
in which it has been received. -/
inductive Offers (indexHtml : Bytes) (fd : Fd) (w : World) (request : Bytes) (headerEnd : Nat) :
    Bytes → Bytes → Prop
  | upgrade {key : Bytes} (wants : Upgrade w request key) :
      Offers indexHtml fd w request headerEnd (upgradeText (acceptKey key)) []
  | upload {status text : String} (put : startsWith (cString request) "PUT /user/index.html ")
      (is : UploadAnswer fd w request headerEnd status text) :
      Offers indexHtml fd w request headerEnd
        (httpHeader status textPlain (lit text).length) (lit text)
  | icon (asks : GetsIcon request) : Offers indexHtml fd w request headerEnd (lit noContent) []
  | status {status : StorageStatus} (asks : startsWith (cString request) "GET /fs/status ")
      (reports : Reports w.disk status) :
      Offers indexHtml fd w request headerEnd
        (httpHeader "200 OK" "application/json" (storageStatusText status).length)
        (storageStatusText status)
  | userPage {content : Bytes} (asks : GetsUserPage request)
      (page : w.disk.node .userIndex = some (.file content))
      (small : content.length ≤ userIndexMax) :
      Offers indexHtml fd w request headerEnd (httpHeader "200 OK" textHtml content.length) content
  | noUserPage (asks : GetsUserPage request)
      (missing : (runIn (storageUserIndexSize 0) w).1.1 < 0) :
      Offers indexHtml fd w request headerEnd
        (httpHeader "404 Not Found" textPlain (lit "user page not found\n").length)
        (lit "user page not found\n")
  | largeUserPage {content : Bytes} (asks : GetsUserPage request)
      (page : w.disk.node .userIndex = some (.file content))
      (large : content.length > userIndexMax) :
      Offers indexHtml fd w request headerEnd
        (httpHeader "413 Payload Too Large" textPlain (lit "user page too large\n").length)
        (lit "user page too large\n")
  | index (asks : GetsIndex request) :
      Offers indexHtml fd w request headerEnd
        (httpHeader "200 OK" textHtml indexHtml.length) indexHtml
  | unknown (asks : ¬ Routed request) :
      Offers indexHtml fd w request headerEnd
        (httpHeader "404 Not Found" textPlain (lit "not found\n").length) (lit "not found\n")

theorem acceptKey_clean (key : Bytes) : 13 ∉ acceptKey key :=
  Base64.not_mem_encode (by decide) (by decide) _

theorem UploadAnswer.plain {fd : Fd} {w : World} {request : Bytes} {headerEnd : Nat}
    {status text : String} (is : UploadAnswer fd w request headerEnd status text) :
    Texts status textPlain := by
  cases is <;> exact ⟨by decide, by decide⟩

/-- Every one of them is a complete response. -/
theorem Offers.complete {indexHtml : Bytes} {fd : Fd} {w : World} {request header body : Bytes}
    {headerEnd : Nat} (offers : Offers indexHtml fd w request headerEnd header body) :
    Response header body := by
  cases offers with
  | upgrade => exact upgradeText_complete (acceptKey_clean _)
  | upload put is => exact httpHeader_complete is.plain _
  | icon => exact noContent_complete
  | status => exact httpHeader_complete ⟨by decide, by decide⟩ _
  | userPage | index => exact httpHeader_complete ⟨by decide, by decide⟩ _
  | noUserPage | largeUserPage | unknown => exact httpHeader_complete ⟨by decide, by decide⟩ _

/-- A header that never ended. -/
theorem requestTooLarge_complete : Response (lit requestTooLarge) [] := by
  have lines : lit requestTooLarge =
      headerOf [lit "HTTP/1.0 431 Request Header Fields Too Large", lit "Connection: close"] := by
    decide +kernel
  rw [lines]
  refine bare_complete (by decide) ⟨by decide, by decide⟩ ?_ ?_
  · intro line member
    rw [List.mem_singleton.mp member]
    exact ⟨by decide, by decide⟩
  · intro line member
    rw [List.mem_singleton.mp member]
    decide

/-- Nothing has been sent, or the front of a response that is on offer. -/
def Partly (indexHtml : Bytes) (fd : Fd) (request : Bytes) (headerEnd : Nat) (w w' : World) :
    Prop :=
  w'.sent = w.sent ∨ ∃ header body, Offers indexHtml fd w request headerEnd header body ∧
    Begun (header ++ body) w w'

/-! ## The routes -/

section Routes

variable {indexHtml request : Bytes} {headerEnd : Nat} {w : World}

theorem uploadRoute_partly (fd : Fd) (complete : findHeaderEnd request = some headerEnd)
    (put : startsWith (cString request) "PUT /user/index.html ") :
    Partly indexHtml fd request headerEnd w (runIn (uploadRoute fd request headerEnd) w).2 := by
  have refused {status text : String} (is : UploadAnswer fd w request headerEnd status text)
      {w₁ : World} (same : w₁.sent = w.sent) :
      Partly indexHtml fd request headerEnd w (runIn (refuse fd status text) w₁).2 :=
    .inr ⟨_, _, .upload put is, .after same (refuse_begun fd status text w₁)⟩
  rcases uploadRoute_cases fd complete with
    ⟨undeclared, route⟩ | ⟨digits, declares, ⟨other, route⟩ | ⟨all, n, value, route⟩⟩
  · rw [route]
    exact refused (.undeclared undeclared) rfl
  · rw [route]
    exact refused (.invalid declares other) rfl
  have length : Declares request n := ⟨digits, declares, all, value.symm⟩
  rw [route]
  by_cases large : n > userIndexMax
  · rw [if_pos large]
    exact refused (.tooLarge length large) rfl
  have allowed := Nat.not_lt.mp large
  rw [if_neg large]
  by_cases more : (buffered request headerEnd).length > n
  · rw [if_pos more]
    exact refused (.tooMuch length allowed more) rfl
  have fits := Nat.not_lt.mp more
  rw [if_neg more]
  -- the storage sends nothing
  unfold store
  rw [runIn_bind]
  have only : (storageWriteUserIndexStream requestBodyRead n
      { fd, pending := buffered request headerEnd }).Only NoSend :=
    storageWriteUserIndexStream_only (fun _ => trivial)
      (fun _ n => requestBodyRead_only (fun _ _ _ => trivial) n) _ _
  have quiet := run_sent only w
  have ret : storeRet fd w request headerEnd n = (runIn (storageWriteUserIndexStream
      requestBodyRead n { fd, pending := buffered request headerEnd }) w).1.1 := rfl
  generalize runIn (storageWriteUserIndexStream requestBodyRead n
    { fd, pending := buffered request headerEnd }) w = stored at quiet ret ⊢
  obtain ⟨⟨ret', reader⟩, w'⟩ := stored
  simp only
  by_cases failed : ret' < 0
  · rw [if_pos failed]
    exact refused (.failed length allowed fits (ret ▸ failed)) quiet
  · rw [if_neg failed]
    exact refused (.written length allowed fits (ret ▸ Int.not_lt.mp failed)) quiet

theorem indexRoute_partly (fd : Fd) (asks : GetsIndex request) :
    Partly indexHtml fd request headerEnd w (runIn (indexRoute indexHtml fd) w).2 := by
  unfold indexRoute
  simp only [ge_iff_le]
  by_cases long : headerMax ≤ (httpHeader "200 OK" textHtml indexHtml.length).length
  · rw [if_pos long]
    exact .inl rfl
  · rw [if_neg long, runIn_bind]
    exact .inr ⟨_, _, .index asks, (sendBoth_begun fd _ _ w).before (close_sent fd () _)⟩

/-- The status object is that of the storage. -/
theorem storageFormatStatusJson_reports (response : Bytes) (responseLen : Nat) (w : World) :
    (storageFormatStatusJson response responseLen).wp (Spec.of World.serve)
      (fun reply _ => ∃ status, reply = snprintk response responseLen (storageStatusText status) ∧
        Reports w.disk status) w := by
  refine (Prog.wp_bind _ storageMountOnce _ _ _).mpr ?_
  refine Prog.wp_mono (Spec.of_mono _) ?_ (storageMountOnce_disk w)
  rintro _ w₁ ⟨totalKib, freeKib, mount⟩
  refine (Prog.wp_bind _ storageGetStatus _ _ _).mpr ?_
  refine (Prog.wp_bind _ updateSpaceLocked _ _ _).mpr ?_
  refine Prog.wp_mono (Spec.of_mono _) ?_ (updateSpaceLocked_tells _)
  rintro _ w₂ ⟨totalKib, freeKib, disk, space⟩
  replace disk : w₂.disk = { w₁.disk with totalKib, freeKib } := disk
  replace space : TellsSpace w₁.disk w₁.disk.mounted totalKib freeKib := space
  rw [mount] at disk space
  show ∃ status, snprintk response responseLen (storageStatusText ⟨w₂.disk.mountAttempted,
      w₂.disk.mounted, w₂.disk.mountRet, w₂.disk.totalKib, w₂.disk.freeKib⟩) = _ ∧ _
  rw [disk]
  exact ⟨_, rfl, rfl, rfl, rfl, space⟩

theorem statusRoute_partly (fd : Fd) (asks : startsWith (cString request) "GET /fs/status ") :
    Partly indexHtml fd request headerEnd w (runIn (statusRoute fd) w).2 := by
  have quiet := run_sent (storageFormatStatusJson_only (P := NoSend)
    (fun _ _ => trivial) [] statusBodyMax) w
  obtain ⟨status, is, reports⟩ :=
    Prog.wp_of.mp (storageFormatStatusJson_reports [] statusBodyMax w)
  unfold statusRoute
  rw [runIn_bind]
  unfold runIn at quiet ⊢
  generalize Prog.run World.serve (storageFormatStatusJson [] statusBodyMax) w = reply at quiet is ⊢
  obtain ⟨_, w₁⟩ := reply
  obtain rfl := is
  by_cases fits : (storageStatusText status).length < statusBodyMax
  · rw [snprintk, printAt_fits fits]
    simp only [ge_iff_le, Int.toNat_natCast, List.take_zero, List.nil_append]
    rw [if_neg (by omega)]
    by_cases long : headerMax ≤
        (httpHeader "200 OK" "application/json" (storageStatusText status).length).length
    · rw [if_pos long]
      exact .inl quiet
    · rw [if_neg long, Prog.run_bind]
      exact .inr ⟨_, _, .status asks reports,
        .after quiet ((sendBoth_begun fd _ _ w₁).before (close_sent fd () _))⟩
  · have cut : (printAt [] 0 statusBodyMax (storageStatusText status)).1 < 0 ∨
        (printAt [] 0 statusBodyMax (storageStatusText status)).1 ≥ statusBodyMax := by
      rw [printAt]
      exact .inr (Int.ofNat_le.mpr (Nat.not_lt.mp fits))
    rw [snprintk]
    simp only
    rw [if_pos cut]
    exact .inl quiet

/-! ### The user page -/

/-- The page is open for reading, `pos` bytes in. -/
structure Reading (content : Bytes) (pos : Nat) (w : World) : Prop where
  file : w.disk.file = some ⟨.userIndex, { read := true }, pos⟩
  page : w.disk.node .userIndex = some (.file content)

/-- A read fails, or it takes the next bytes of the page, however few. -/
theorem Reading.read {content : Bytes} {pos : Nat} (opened : Reading content pos w) :
    (∃ e w', World.serve (.fs (.fsRead storageIoChunk)) w = (.error e, w') ∧ w'.sent = w.sent) ∨
      ∃ (buf : Chunk storageIoChunk) (w' : World),
        World.serve (.fs (.fsRead storageIoChunk)) w = (.ok buf, w') ∧ w'.sent = w.sent ∧
        content.drop pos = buf.val ++ content.drop (pos + buf.val.length) ∧
        Reading content (pos + buf.val.length) w' := by
  have holds : w.disk.content .userIndex = content := by
    rw [Disk.content, opened.page]
  cases fails : (w.fate .read).fail with
  | some e =>
      refine .inl ⟨e, { w with fates := w.fatesAfter .read }, ?_, rfl⟩
      simp only [World.serve, HttpCall.kind, FsCall.kind, World.respond, Disk.serve, fails]
  | none =>
      obtain ⟨n, few⟩ : ∃ n, n = (w.fate .read).upTo storageIoChunk := ⟨_, rfl⟩
      have short : ((content.drop pos).take n).length ≤ storageIoChunk := by
        rw [few]
        exact Nat.le_trans (List.length_take_le _ _) (Luck.upTo_le _ _)
      refine .inr ⟨⟨(content.drop pos).take n, short⟩, { w with
        fates := w.fatesAfter .read
        disk := { w.disk with
          file :=
            .some ⟨.userIndex, { read := true }, pos + ((content.drop pos).take n).length⟩ } },
        ?_, rfl, ?_, rfl, opened.page⟩
      · subst few
        simp only [World.serve, HttpCall.kind, FsCall.kind, World.respond, Disk.serve, fails,
          opened.file, holds, if_true]
      · show content.drop pos = (content.drop pos).take n ++
          content.drop (pos + ((content.drop pos).take n).length)
        rw [← List.drop_drop, List.length_take]
        by_cases all : n ≤ (content.drop pos).length
        · rw [Nat.min_eq_left all, List.take_append_drop]
        · have beyond : (content.drop pos).length ≤ n := by omega
          rw [Nat.min_eq_right beyond, List.take_of_length_le beyond, List.drop_length,
            List.append_nil]

/-- The copy sends the page from where it stands, in order, and stops at the first failure. -/
theorem streamLoop_begun (fd : Fd) (fuel : Nat) {content : Bytes} {pos : Nat}
    (opened : Reading content pos w) :
    Begun (content.drop pos) w (runIn (streamLoop (socketWrite fd) fuel) w).2 := by
  induction fuel generalizing pos w with
  | zero => exact .quiet rfl
  | succ fuel ih =>
      simp only [streamLoop, file, perform, Prog.perform_bind, Prog.run_call]
      rcases opened.read with ⟨e, w', served, same⟩ | ⟨⟨buf, few⟩, w', served, same, split, next⟩
      · rw [served]
        exact .quiet same
      rw [served]
      cases buf with
      | nil => exact .quiet same
      | cons b more =>
          obtain ⟨put, sent, front, whole⟩ := sendAll_puts fd (b :: more) w'
          have sends : (sendAll fd (b :: more)).Only NoStorage := sendAll_only (fun _ => trivial) _
          have disk := run_disk sends w'
          refine .after same ?_
          show Begun _ w' (runIn (socketWrite fd (b :: more) >>= fun ret =>
            if ret < 0 then .ret (some ret) else streamLoop (socketWrite fd) fuel) w').2
          rw [runIn_bind, split]
          unfold socketWrite
          by_cases failed : (runIn (sendAll fd (b :: more)) w').1 < 0
          · rw [if_pos failed]
            exact .longer ⟨put, sent, front⟩
          · rw [if_neg failed]
            rw [whole (Int.not_lt.mp failed)] at sent
            refine .append sent (ih ⟨?_, ?_⟩)
            · rw [disk]
              exact next.file
            · rw [disk]
              exact next.page

/-- Whatever fails, what is sent of the page is its front. -/
theorem storageStreamUserIndex_begun (fd : Fd) (fuel : Nat) {content : Bytes}
    (page : w.disk.node .userIndex = some (.file content)) :
    Begun content w (runIn (storageStreamUserIndex fuel (socketWrite fd)) w).2 := by
  obtain ⟨w₁, mount, same, -⟩ := storageMountOnce_run w
  have still : w₁.disk.node .userIndex = some (.file content) := (congrFun same.node _).trans page
  refine .after same.sent ?_
  unfold storageStreamUserIndex
  rw [runIn_bind, mount]
  by_cases failed : w.disk.mountOutcome < 0
  · simp only [if_pos failed]
    exact .quiet rfl
  simp only [if_neg failed, file, perform, Prog.perform_bind, Prog.run_call]
  cases fails : (w₁.fate .open).fail with
  | some e =>
      have served : World.serve (.fs (.fsOpen .userIndex { read := true })) w₁ =
          (e.ret, { w₁ with fates := w₁.fatesAfter .open }) := by
        simp only [World.serve, HttpCall.kind, FsCall.kind, World.respond, Disk.serve, fails]
      rw [served]
      simp only
      rw [if_pos e.ret_neg]
      exact .quiet rfl
  | none =>
      obtain ⟨w₂, opening⟩ : ∃ w₂, w₂ = ({ w₁ with
        fates := w₁.fatesAfter .open
        disk := { w₁.disk with file := some ⟨.userIndex, { read := true }, 0⟩ } } : World) :=
          ⟨_, rfl⟩
      have served : World.serve (.fs (.fsOpen .userIndex { read := true })) w₁ =
          ((0 : Int), w₂) := by
        rw [opening]
        simp only [World.serve, HttpCall.kind, FsCall.kind, World.respond, Disk.serve,
          Disk.openFile, fails, still]
        rfl
      have opened : Reading content 0 w₂ := by
        subst opening
        exact ⟨rfl, still⟩
      have begun := streamLoop_begun fd fuel opened
      rw [List.drop_zero] at begun
      have unsent : w₂.sent = w₁.sent := by rw [opening]
      rw [served]
      simp only
      rw [if_neg (by decide), Prog.run_bind]
      refine .after unsent (begun.before ?_)
      unfold runIn
      cases (Prog.run World.serve (streamLoop (socketWrite fd) fuel) w₂).1 with
      | none => rfl
      | some ret => exact serve_sent (c := .fs .fsClose) trivial _

theorem userPageRoute_begun (fd : Fd) (fuel : Nat) :
    ((runIn (storageUserIndexSize 0) w).1.1 < 0 ∧
        Begun (lit userPageNotFound) w (runIn (userPageRoute fuel fd) w).2) ∨
      ∃ content, w.disk.node .userIndex = some (.file content) ∧
        Begun w.disk.pageText w (runIn (userPageRoute fuel fd) w).2 := by
  obtain ⟨ret, len, w₁, run, same, -, size⟩ := storageUserIndexSize_run w
  unfold userPageRoute
  rw [runIn_bind, run]
  simp only
  rcases size with ⟨failed, -⟩ | ⟨rfl, -, content, page, rfl⟩
  · rw [if_pos failed, runIn_bind]
    exact .inl ⟨failed, .after same.sent (answer_begun fd userPageNotFound w₁)⟩
  rw [if_neg (by decide)]
  refine .inr ⟨content, page, ?_⟩
  by_cases large : content.length > userIndexMax
  · have text : w.disk.pageText = textResponse "413 Payload Too Large" "user page too large\n" := by
      unfold Disk.pageText
      rw [page]
      exact if_pos large
    rw [if_pos large, runIn_bind, text]
    exact .after same.sent (refuse_begun fd _ _ w₁)
  rw [if_neg large, Disk.pageText_file page (Nat.not_lt.mp large)]
  by_cases long : (httpHeader "200 OK" textHtml content.length).length ≥ headerMax
  · rw [if_pos long]
    exact .quiet same.sent
  rw [if_neg long, runIn_bind]
  refine .after same.sent ?_
  obtain ⟨put, sent, front, whole⟩ :=
    sendAll_puts fd (httpHeader "200 OK" textHtml content.length) w₁
  have sends : (sendAll fd (httpHeader "200 OK" textHtml content.length)).Only NoStorage :=
    sendAll_only (fun _ => trivial) _
  have disk := run_disk sends w₁
  by_cases failed : (runIn (sendAll fd (httpHeader "200 OK" textHtml content.length)) w₁).1 < 0
  · rw [if_pos failed]
    exact .longer ⟨put, sent, front⟩
  rw [if_neg failed, runIn_bind]
  rw [whole (Int.not_lt.mp failed)] at sent
  have still : (runIn (sendAll fd (httpHeader "200 OK" textHtml content.length)) w₁).2.disk.node
      .userIndex = some (.file content) := by
    rw [disk, same.node]
    exact page
  refine .append sent ((storageStreamUserIndex_begun fd fuel still).before ?_)
  cases (runIn (storageStreamUserIndex fuel (socketWrite fd)) _).1 with
  | none => rfl
  | some ret => rfl

theorem userPageRoute_partly (fd : Fd) (fuel : Nat) (asks : GetsUserPage request) :
    Partly indexHtml fd request headerEnd w (runIn (userPageRoute fuel fd) w).2 := by
  rcases userPageRoute_begun (w := w) fd fuel with ⟨missing, begun⟩ | ⟨content, page, begun⟩
  · rw [userPageNotFound_eq] at begun
    exact .inr ⟨_, _, .noUserPage asks missing, begun⟩
  unfold Disk.pageText at begun
  rw [page] at begun
  replace begun : Begun (if content.length > userIndexMax then _ else _) w _ := begun
  by_cases large : content.length > userIndexMax
  · rw [if_pos large] at begun
    exact .inr ⟨_, _, .largeUserPage asks page large, begun⟩
  · rw [if_neg large] at begun
    exact .inr ⟨_, _, .userPage asks page (Nat.not_lt.mp large), begun⟩

end Routes

/-! ## The upgrade -/

/-- An upgrade sends nothing, or the front of the standard's answer to its key. -/
theorem handleWebsocket_begun (w : World) (fd : Fd) {request value rest : Bytes}
    (found : findHeaderValue request "Sec-WebSocket-Key" = some value)
    (ends : strstr crlf value = some rest) (pending : Bytes) :
    (runIn (handleWebsocket fd request pending) w).2.sent = w.sent ∨
      (w.wsActive = false ∧ (headerValue value).length ≠ 0 ∧ (headerValue value).length ≤ 64 ∧
        Begun (upgradeText (acceptKey (headerValue value))) w
          (runIn (handleWebsocket fd request pending) w).2) := by
  unfold handleWebsocket
  simp only [perform, Prog.perform_bind, Prog.run_call]
  rw [World.serve_claim]
  cases active : w.wsActive with
  | true => exact .inl rfl
  | false =>
      by_cases good : (headerValue value).length ≠ 0 ∧ (headerValue value).length ≤ 64
      case neg =>
        rcases buildWebsocketAccept_key found ends with ⟨-, failed⟩ | ⟨usable, -⟩
        · rw [failed]
          exact .inl rfl
        · exact absurd ⟨fun none => usable (.inl none), by omega⟩ good
      obtain ⟨some, few⟩ := good
      rw [buildWebsocketAccept_exact found ends some few]
      refine .inr ⟨rfl, some, few, ?_⟩
      simp only [Bool.not_false, not_true, if_false, ge_iff_le]
      by_cases long : responseBufMax ≤ (upgradeText (acceptKey (headerValue value))).length
      · rw [if_pos long]
        exact .quiet rfl
      rw [if_neg long, Prog.run_bind]
      have puts := sendAll_puts fd (upgradeText (acceptKey (headerValue value))) w.claimed
      unfold runIn at puts
      generalize Prog.run World.serve (sendAll fd (upgradeText (acceptKey (headerValue value))))
        w.claimed = response at puts ⊢
      obtain ⟨put, sent, front, -⟩ := puts
      have begun : Begun (upgradeText (acceptKey (headerValue value))) w response.2 :=
        ⟨put, sent, front⟩
      by_cases failed : response.1 < 0
      · rw [if_pos failed]
        exact begun.before rfl
      · rw [if_neg failed]
        obtain ⟨w', done, quiet, -⟩ :=
          handOver_done response.2 { fd, pending := pending.take httpRequestMax }
        exact begun.before ((congrArg (fun run => run.2.sent) done).trans quiet)

theorem upgradeRoute_partly {w : World} (indexHtml : Bytes) (fd : Fd) {request : Bytes}
    {headerEnd : Nat} (complete : findHeaderEnd request = some headerEnd)
    (upgrade : requestIsWebsocket (cString request)) :
    Partly indexHtml fd request headerEnd w (runIn (upgradeRoute fd request headerEnd) w).2 := by
  obtain ⟨route, value, rest, found, ends, key⟩ := websocket_key complete upgrade
  have begun := handleWebsocket_begun w fd found ends (request.drop (headerEnd + 4))
  unfold upgradeRoute
  rw [runIn_bind]
  generalize runIn (handleWebsocket fd (cString request) (request.drop (headerEnd + 4))) w = ended
    at begun ⊢
  have closed : (runIn (if ended.1 < 0 then perform (.close fd) >>= fun _ => .ret () else
      .ret ()) ended.2).2.sent = ended.2.sent := by
    split <;> rfl
  rcases begun with quiet | ⟨free, some, few, begun⟩
  · exact .inl (closed.trans quiet)
  · refine .inr ⟨_, _, .upgrade ⟨route, key, some, few, free⟩, ?_⟩
    rw [List.append_nil]
    exact begun.before closed

/-! ## The connection -/

theorem pageRoutes_partly {w : World} (indexHtml : Bytes) (fuel : Nat) (fd : Fd) {request : Bytes}
    {headerEnd : Nat} (complete : findHeaderEnd request = some headerEnd)
    (plain : ¬ requestIsWebsocket (cString request)) :
    Partly indexHtml fd request headerEnd w
      (runIn (pageRoutes indexHtml fuel fd (cString request) request headerEnd) w).2 := by
  have closed {p : HttpProg Unit} (partly : Partly indexHtml fd request headerEnd w (runIn p w).2) :
      Partly indexHtml fd request headerEnd w (runIn (p >>= fun _ => .ret true) w).2 := by
    rw [runIn_bind]
    exact partly
  unfold pageRoutes
  by_cases put : startsWith (cString request) "PUT /user/index.html " = true
  · rw [if_pos put]
    exact closed (uploadRoute_partly fd complete put)
  rw [if_neg put]
  by_cases icon : GetsIcon request
  · unfold GetsIcon at icon
    rw [if_pos icon]
    refine closed (.inr ⟨_, _, .icon icon, ?_⟩)
    rw [List.append_nil]
    exact answer_begun fd noContent w
  have noIcon := icon
  unfold GetsIcon at icon
  rw [if_neg icon]
  by_cases status : startsWith (cString request) "GET /fs/status " = true
  · rw [if_pos status]
    exact closed (statusRoute_partly fd status)
  rw [if_neg status]
  by_cases user : GetsUserPage request
  · unfold GetsUserPage at user
    rw [if_pos user]
    exact userPageRoute_partly fd fuel user
  have noUser := user
  unfold GetsUserPage at user
  rw [if_neg user]
  by_cases index : GetsIndex request
  · have known : ¬ (¬ startsWith (cString request) "GET / " = true ∧
        ¬ startsWith (cString request) "GET /index.html " = true) :=
      fun other => index.elim other.1 other.2
    rw [if_neg known]
    exact closed (indexRoute_partly fd index)
  · have unrouted : ¬ Routed request := by
      rintro (upgrade | upload | asks | asks | asks | asks)
      · exact plain upgrade
      · exact put upload
      · exact noIcon asks
      · exact status asks
      · exact noUser asks
      · exact index asks
    rw [if_pos ⟨fun plain => index (.inl plain), fun named => index (.inr named)⟩]
    refine closed (.inr ⟨_, _, .unknown unrouted, ?_⟩)
    have begun := answer_begun fd notFound w
    rwa [notFound_eq] at begun

/-- Whatever fails, and whenever: a client whose request never ended has been sent nothing or
the front of the refusal, and any other one nothing or the front of a complete response that
its request can get, on the storage and with the session that were there before it. -/
theorem responses_cut (w : World) (indexHtml : Bytes) (fuel : Nat) (fd : Fd) :
    let received := runIn (recvRequest fd (httpRequestMax - 1) []) w
    let w' := (runIn (handleClient indexHtml fuel fd) w).2
    (received.2.disk = w.disk ∧ received.2.wsActive = w.wsActive) ∧
      (w'.sent = w.sent ∨ ∃ header body, Response header body ∧ Begun (header ++ body) w w' ∧
        ((∃ request, received.1 = .received request none ∧ header = lit requestTooLarge ∧
            body = []) ∨
          ∃ request headerEnd, received.1 = .received request (some headerEnd) ∧
            Offers indexHtml fd received.2 request headerEnd header body)) := by
  intro received w'
  have found : ∀ request headerEnd, received.1 = .received request (some headerEnd) →
      findHeaderEnd request = some headerEnd :=
    (recvRequest_found fd (httpRequestMax - 1) []).run World.serve w
  have same : SameServer w received.2 :=
    run_sameServer (recvRequest_only (fun _ _ _ => trivial) _ _) w
  have answered : w' = (runIn (answerRequest indexHtml fuel fd received.1) received.2).2 := by
    show (runIn (handleClient indexHtml fuel fd) w).2 = _
    rw [handleClient_eq, runIn_bind]
  clear_value w' received
  obtain ⟨request, w₁⟩ := received
  obtain ⟨sent, -, active, disk⟩ := same
  refine ⟨⟨disk, active⟩, ?_⟩
  cases request with
  | gone => exact .inl (by rw [answered]; exact sent)
  | received request headerEnd =>
      cases headerEnd with
      | none =>
          refine .inr ⟨_, _, requestTooLarge_complete, ?_, .inl ⟨request, rfl, rfl, rfl⟩⟩
          rw [answered, List.append_nil]
          simp only [answerRequest]
          rw [runIn_bind]
          exact .after sent (answer_begun fd requestTooLarge w₁)
      | some headerEnd =>
          have partly : Partly indexHtml fd request headerEnd w₁ w' := by
            rw [answered]
            simp only [answerRequest]
            by_cases upgrade : requestIsWebsocket (cString request)
            · rw [if_pos upgrade, runIn_bind]
              exact upgradeRoute_partly indexHtml fd (found _ _ rfl) upgrade
            · rw [if_neg upgrade]
              exact pageRoutes_partly indexHtml fuel fd (found _ _ rfl) upgrade
          rcases partly with quiet | ⟨header, body, offers, begun⟩
          · exact .inl (quiet.trans sent)
          · exact .inr ⟨header, body, offers.complete, .after sent begun,
              .inr ⟨request, headerEnd, rfl, offers⟩⟩

end PicoCan.Http
