import PicoCan.Calls.JsonRead
import PicoCan.Http.Footprint
import PicoCan.Http.Lookup

/-!
# The verdict over a `Content-Length`

The length of an upload is added up digit by digit in 32 bits and compared with the limit
behind the loop. What is compared is the number modulo 2^32, and an empty value passes for
zero, so the verdict is the documented one on every request but those that wrap, or are
empty, and come out small.
-/

namespace PicoCan.Http

open Calls
open Calls.Json (isDigit ofDigits)

/-! ## The digits -/

/-- The comparison of the loop lets the decimal digits through. -/
theorem not_digit_iff (c : UInt8) : (c < 48 ∨ c > 57) ↔ ¬ isDigit c := by
  constructor
  · intro outside digit
    obtain ⟨low, high⟩ := of_decide_eq_true digit
    rcases outside with below | above
    · exact absurd low (UInt8.not_le.mpr below)
    · exact absurd high (UInt8.not_le.mpr above)
  · intro other
    by_cases low : 48 ≤ c
    · exact .inr (UInt8.not_le.mp fun high => other (decide_eq_true ⟨low, high⟩))
    · exact .inl (UInt8.not_le.mp low)

/-- One digit more, in 32 bits. -/
theorem length_step {bodyLen : UInt32} {n : Nat} (sum : bodyLen.toNat = n % 2 ^ 32) {c : UInt8}
    (digit : isDigit c) :
    (bodyLen * 10 + (c - 48).toUInt32).toNat = (10 * n + (c.toNat - 48)) % 2 ^ 32 := by
  obtain ⟨low, -⟩ := of_decide_eq_true digit
  have value : (c - 48).toUInt32.toNat = c.toNat - 48 := by
    rw [UInt8.toNat_toUInt32, UInt8.toNat_sub_of_le c 48 low]
    rfl
  have ten : (10 : UInt32).toNat = 10 := rfl
  rw [UInt32.toNat_add, UInt32.toNat_mul, value, sum, ten]
  omega

theorem parseLength_digits {digits : Bytes} (all : digits.all isDigit) {bodyLen : UInt32}
    {n : Nat} (sum : bodyLen.toNat = n % 2 ^ 32) :
    ∃ len, parseLength bodyLen digits = some len ∧
      len.toNat = digits.foldl (fun n digit => 10 * n + (digit.toNat - 48)) n % 2 ^ 32 := by
  induction digits generalizing bodyLen n with
  | nil => exact ⟨bodyLen, rfl, sum⟩
  | cons c digits ih =>
      obtain ⟨first, later⟩ := Bool.and_eq_true_iff.mp all
      have range : ¬ (c < 48 ∨ c > 57) := fun outside => (not_digit_iff c).mp outside first
      rw [parseLength, if_neg range]
      exact ih later (length_step sum first)

theorem parseLength_other {value : Bytes} (other : ¬ value.all isDigit) (bodyLen : UInt32) :
    parseLength bodyLen value = none := by
  induction value generalizing bodyLen with
  | nil => exact absurd rfl other
  | cons c value ih =>
      rw [parseLength]
      by_cases digit : isDigit c
      · have later : ¬ value.all isDigit := fun all => other (Bool.and_eq_true_iff.mpr ⟨digit, all⟩)
        rw [if_neg fun outside => (not_digit_iff c).mp outside digit]
        exact ih later _
      · rw [if_pos ((not_digit_iff c).mpr digit)]

/-- The length is the number that the digits denote, modulo 2^32. -/
theorem parseLength_ofDigits {digits : Bytes} (all : digits.all isDigit) :
    ∃ len, parseLength 0 digits = some len ∧ len.toNat = ofDigits digits % 2 ^ 32 :=
  parseLength_digits all rfl

/-! ## The verdict as documented -/

/-- What a request declares as its length, by the reference parser. -/
def declared (request : Bytes) : Option Bytes :=
  lookup (lit "Content-Length") (headerLines (cString request))

/-- The bytes of the body that came with the header. -/
def buffered (request : Bytes) (headerEnd : Nat) : Bytes := request.drop (headerEnd + 4)

/-- The request declares the length `n` in decimal digits, `n` is allowed, and no more than
that has come with the header. -/
def Accepts (request : Bytes) (headerEnd n : Nat) : Prop :=
  ∃ digits, declared request = some digits ∧ digits ≠ [] ∧ digits.all isDigit ∧
    ofDigits digits = n ∧ n ≤ userIndexMax ∧ (buffered request headerEnd).length ≤ n

/-- The call of the storage with length `n`, and the response to its outcome. -/
def store (clientFd : Fd) (request : Bytes) (headerEnd n : Nat) : HttpProg Unit := do
  let (ret, _) ← storageWriteUserIndexStream requestBodyRead n
    { fd := clientFd, pending := buffered request headerEnd }
  if ret < 0 then
    refuse clientFd "500 Internal Server Error" "user page write failed\n"
  else
    refuse clientFd "201 Created" "user page written\n"

/-- A call that leaves the storage alone. -/
def NoStorage : HttpCall → Prop
  | .fs _ => False
  | _ => True

/-- A client error, in a header that fits its buffer. -/
def ErrorText (status body : String) : Prop :=
  startsWith (lit status) "4" ∧ (httpHeader status textPlain (lit body).length).length < headerMax

instance (status body : String) : Decidable (ErrorText status body) :=
  inferInstanceAs (Decidable (_ ∧ _))

/-- What is to happen to an upload: the storage is called with the declared length if the
request is acceptable, and otherwise an error is sent and the storage not touched. -/
structure Decides (clientFd : Fd) (request : Bytes) (headerEnd : Nat) (route : HttpProg Bool) :
    Prop where
  called : ∀ n, Accepts request headerEnd n →
    route = store clientFd request headerEnd n >>= fun _ => .ret true
  refused : (∀ n, ¬ Accepts request headerEnd n) →
    route.Only NoStorage ∧ ∃ status body, ErrorText status body ∧
      route = refuse clientFd status body >>= fun _ => .ret true

/-- A length that wraps around to a small one, or an empty one. -/
def Wraps (request : Bytes) (headerEnd : Nat) : Prop :=
  ∃ digits, declared request = some digits ∧ digits.all isDigit ∧
    (digits = [] ∨ 2 ^ 32 ≤ ofDigits digits) ∧ ofDigits digits % 2 ^ 32 ≤ userIndexMax ∧
    (buffered request headerEnd).length ≤ ofDigits digits % 2 ^ 32

/-! ## The route -/

theorem findHeaderEnd_blank {request : Bytes} {headerEnd : Nat}
    (complete : findHeaderEnd request = some headerEnd) :
    ∃ rest, strstr blankLine (cString request) = some rest := by
  obtain ⟨rest, found, -⟩ := Option.map_eq_some_iff.mp complete
  exact ⟨rest, found⟩

/-- What `parseLength` is given is what the reference parser finds. -/
theorem declared_eq {request : Bytes} {headerEnd : Nat}
    (complete : findHeaderEnd request = some headerEnd) :
    (findHeaderValue (cString request) "Content-Length").map headerValue = declared request := by
  obtain ⟨rest, blank⟩ := findHeaderEnd_blank complete
  have cr : 13 ∉ lit "Content-Length" := by decide
  have colon : 58 ∉ lit "Content-Length" := by decide
  exact headerText_lookup cr colon blank

/-! ## The header by itself -/

/-- A header with its first blank line at the end. -/
structure WholeHeader (header : Bytes) : Prop where
  text : 0 ∉ header
  ends : strstr blankLine header = some blankLine

namespace WholeHeader

variable {header : Bytes} (whole : WholeHeader header) (rest : Bytes)
include whole

theorem found : findHeaderEnd (header ++ rest) = some (header.length - 4) ∧ 4 ≤ header.length := by
  have four : 4 ≤ header.length := (strstr_split whole.ends).2.length_le
  have length : blankLine.length = 4 := by decide
  refine ⟨?_, four⟩
  simp only [findHeaderEnd, cString_text whole.text]
  rw [show lit "\r\n\r\n" = blankLine from rfl, strstr_append whole.ends, Option.map_some,
    List.length_append, List.length_append, length]
  congr 1
  omega

theorem startsWith {text : String} (free : 13 ∉ lit text) :
    startsWith (cString (header ++ rest)) text = startsWith header text := by
  rw [cString_text whole.text, startsWith_append (mem_of_blank whole.ends) free]

/-- What is declared is declared in the header. -/
theorem declared :
    declared (header ++ rest) = lookup (lit "Content-Length") (headerLines header) := by
  have cr : 13 ∉ lit "Content-Length" := by decide
  have colon : 58 ∉ lit "Content-Length" := by decide
  rw [← declared_eq (whole.found rest).1, cString_text whole.text]
  exact (headerText_append cr whole.ends (cString rest)).trans
    (headerText_lookup cr colon whole.ends)

theorem requestIsWebsocket :
    requestIsWebsocket (cString (header ++ rest)) = requestIsWebsocket header := by
  have key : 13 ∉ lit "Sec-WebSocket-Key" := by decide
  unfold Http.requestIsWebsocket
  rw [whole.startsWith rest (by decide), whole.startsWith rest (by decide), cString_text whole.text]
  congr 1
  rcases findHeaderValue_append key whole.ends with ⟨none, nones⟩ | ⟨value, _, some, -, somes⟩
  · rw [none, nones]
  · rw [some, somes]
    rfl

theorem buildWebsocketAccept (acceptLen : Nat) :
    buildWebsocketAccept (cString (header ++ rest)) acceptLen =
      buildWebsocketAccept header acceptLen := by
  have key : 13 ∉ lit "Sec-WebSocket-Key" := by decide
  unfold Http.buildWebsocketAccept
  rw [cString_text whole.text]
  rcases findHeaderValue_append key whole.ends with ⟨none, nones⟩ | ⟨value, _, some, kept, somes⟩
  · rw [none, nones]
  · obtain ⟨inside, same⟩ := headerValueLen_append kept (cString rest)
    rw [some, somes]
    simp only [same, List.take_append_of_le_length inside]

end WholeHeader

/-- A request is its header, whole, and what is behind it. -/
theorem findHeaderEnd_split {request : Bytes} {headerEnd : Nat}
    (complete : findHeaderEnd request = some headerEnd) :
    ∃ header rest, request = header ++ rest ∧ header.length = headerEnd + 4 ∧
      WholeHeader header := by
  obtain ⟨rest, blank, length⟩ := Option.map_eq_some_iff.mp complete
  obtain ⟨⟨behind, rfl⟩, ⟨front, text⟩⟩ := strstr_split blank
  have split : (front ++ blankLine) ++ behind = cString request := by
    rw [List.append_assoc]
    exact text
  have four : blankLine.length = 4 := by decide
  refine ⟨front ++ blankLine, behind ++ request.dropWhile (· ≠ 0), ?_, ?_, ?_, ?_⟩
  · rw [← List.append_assoc, split]
    exact List.takeWhile_append_dropWhile.symm
  · have lengths := congrArg List.length text
    rw [List.length_append] at lengths ⊢
    omega
  · intro zero
    have member : 0 ∈ cString request := by
      rw [← split]
      exact List.mem_append_left _ zero
    exact absurd (List.all_eq_true.mp List.all_takeWhile 0 member) (by decide)
  · obtain ⟨rest, found⟩ := strstr_of_infix (List.suffix_append front blankLine).isInfix
    have still := strstr_append found behind
    have first : strstr blankLine (cString request) = some (blankLine ++ behind) := blank
    rw [split, first] at still
    rw [found, List.append_cancel_right (Option.some.inj still)]

/-- The route by what the request declares. -/
theorem uploadRoute_cases (fd : Fd) {request : Bytes} {headerEnd : Nat}
    (complete : findHeaderEnd request = some headerEnd) :
    (declared request = none ∧ uploadRoute fd request headerEnd =
      refuse fd "411 Length Required" "content-length required\n") ∨
    ∃ digits, declared request = some digits ∧
      ((¬ digits.all isDigit ∧ uploadRoute fd request headerEnd =
        refuse fd "400 Bad Request" "invalid content-length\n") ∨
      (digits.all isDigit ∧ ∃ n, n = ofDigits digits % 2 ^ 32 ∧ uploadRoute fd request headerEnd =
        if n > userIndexMax then
          refuse fd "413 Payload Too Large" "user page too large\n"
        else if (buffered request headerEnd).length > n then
          refuse fd "400 Bad Request" "body larger than content-length\n"
        else
          store fd request headerEnd n)) := by
  have same := declared_eq complete
  unfold uploadRoute
  cases found : findHeaderValue (cString request) "Content-Length" with
  | none =>
      rw [found] at same
      exact .inl ⟨same.symm, rfl⟩
  | some contentLength =>
      rw [found] at same
      refine .inr ⟨headerValue contentLength, same.symm, ?_⟩
      by_cases all : (headerValue contentLength).all isDigit
      · obtain ⟨len, parsed, value⟩ := parseLength_ofDigits all
        refine .inr ⟨all, len.toNat, value, ?_⟩
        simp only [parsed]
        rfl
      · refine .inl ⟨all, ?_⟩
        simp only [parseLength_other all]

theorem decide_refusal {fd : Fd} {status body : String} (text : ErrorText status body)
    {request : Bytes} {headerEnd : Nat} (none : ∀ n, ¬ Accepts request headerEnd n) :
    Decides fd request headerEnd (refuse fd status body >>= fun _ => .ret true) := by
  refine ⟨fun n accepts => absurd accepts (none n), fun _ => ⟨?_, status, body, text, rfl⟩⟩
  have refused : (refuse fd status body).Only NoStorage :=
    refuse_only (fun _ _ => trivial) (fun _ => trivial) fd status body
  exact refused.bind fun _ => trivial

/-- The first thing an upload does is to take the storage's lock. -/
theorem store_touches (fd : Fd) (request : Bytes) (headerEnd n : Nat) :
    ¬ (store fd request headerEnd n >>= fun _ => .ret true).Only NoStorage := fun only => only.1

/-- At most the declared number is accepted, and it is below 2^32. -/
theorem Accepts.digits {request digits : Bytes} {headerEnd n : Nat}
    (accepts : Accepts request headerEnd n) (found : declared request = some digits) :
    digits ≠ [] ∧ digits.all isDigit ∧ ofDigits digits = n ∧ n ≤ userIndexMax ∧
      (buffered request headerEnd).length ≤ n := by
  obtain ⟨digits', found', rest⟩ := accepts
  obtain rfl := Option.some.inj (found.symm.trans found')
  exact rest

theorem Wraps.not_accepts {request : Bytes} {headerEnd : Nat} (wraps : Wraps request headerEnd)
    (n : Nat) : ¬ Accepts request headerEnd n := by
  obtain ⟨digits, found, -, odd, -⟩ := wraps
  intro accepts
  obtain ⟨filled, -, value, small, -⟩ := accepts.digits found
  rcases odd with empty | large
  · exact filled empty
  · unfold userIndexMax at small
    omega

/-! ## The connection -/

/-- What `handle_client` does with what it has received. -/
def answerRequest (indexHtml : Bytes) (fuel : Nat) (clientFd : Fd) : Request → HttpProg Bool
  | .gone => do
      let _ ← perform (.close clientFd)
      return true
  | .received _ none => do
      answer clientFd requestTooLarge
      return true
  | .received request (some headerEnd) =>
      if requestIsWebsocket (cString request) then do
        upgradeRoute clientFd request headerEnd
        return true
      else
        pageRoutes indexHtml fuel clientFd (cString request) request headerEnd

theorem handleClient_eq (indexHtml : Bytes) (fuel : Nat) (clientFd : Fd) :
    handleClient indexHtml fuel clientFd =
      recvRequest clientFd (httpRequestMax - 1) [] >>= answerRequest indexHtml fuel clientFd := by
  unfold handleClient
  congr 1

theorem put_not_websocket {request : Bytes} (put : startsWith request "PUT /user/index.html ") :
    ¬ requestIsWebsocket request := by
  intro upgrade
  obtain ⟨route, -⟩ := Bool.and_eq_true_iff.mp upgrade
  rcases Bool.or_eq_true_iff.mp route with can | ws
  · exact startsWith_exclusive (by decide) put can
  · exact startsWith_exclusive (by decide) put ws

theorem answerRequest_put (indexHtml : Bytes) (fuel : Nat) (fd : Fd) {request : Bytes}
    {headerEnd : Nat} (put : startsWith (cString request) "PUT /user/index.html ") :
    answerRequest indexHtml fuel fd (.received request (some headerEnd)) =
      uploadRoute fd request headerEnd >>= fun _ => .ret true := by
  show (if requestIsWebsocket (cString request) then _ else _) = _
  rw [if_neg (put_not_websocket put), pageRoutes, if_pos put]
  rfl

/-- An upload is decided as documented exactly if its length does not wrap. -/
theorem upload_decided (indexHtml : Bytes) (fuel : Nat) (clientFd : Fd) {request : Bytes}
    {headerEnd : Nat} (complete : findHeaderEnd request = some headerEnd)
    (put : startsWith (cString request) "PUT /user/index.html ") :
    Decides clientFd request headerEnd
        (answerRequest indexHtml fuel clientFd (.received request (some headerEnd))) ↔
      ¬ Wraps request headerEnd := by
  rw [answerRequest_put indexHtml fuel clientFd put]
  rcases uploadRoute_cases clientFd complete with ⟨missing, route⟩ | ⟨digits, found, rest⟩
  · -- no header: nothing is accepted, nothing wraps
    have none : ∀ n, ¬ Accepts request headerEnd n := by
      rintro n ⟨digits, found, -⟩
      rw [missing] at found
      cases found
    rw [route]
    refine ⟨fun _ => ?_, fun _ => decide_refusal (by decide +kernel) none⟩
    rintro ⟨digits, found, -⟩
    rw [missing] at found
    cases found
  rcases rest with ⟨other, route⟩ | ⟨all, n, value, route⟩
  · -- something other than a digit
    have none : ∀ n, ¬ Accepts request headerEnd n :=
      fun n accepts => other (accepts.digits found).2.1
    rw [route]
    refine ⟨fun _ => ?_, fun _ => decide_refusal (by decide +kernel) none⟩
    rintro ⟨digits', found', all, -⟩
    obtain rfl := Option.some.inj (found.symm.trans found')
    exact other all
  · have accepted {m : Nat} (accepts : Accepts request headerEnd m) :
        n = m ∧ n ≤ userIndexMax ∧ (buffered request headerEnd).length ≤ n := by
      obtain ⟨-, -, is, small, fits⟩ := accepts.digits found
      have exact : n = m := by
        unfold userIndexMax at small
        omega
      exact ⟨exact, exact ▸ small, exact ▸ fits⟩
    have wrapped (wraps : Wraps request headerEnd) :
        n ≤ userIndexMax ∧ (buffered request headerEnd).length ≤ n := by
      obtain ⟨digits', found', -, -, small, fits⟩ := wraps
      obtain rfl := Option.some.inj (found.symm.trans found')
      exact ⟨value ▸ small, value ▸ fits⟩
    rw [route]
    by_cases large : n > userIndexMax
    · rw [if_pos large]
      refine ⟨fun _ wraps => absurd (wrapped wraps).1 (Nat.not_le.mpr large), fun _ => ?_⟩
      exact decide_refusal (by decide +kernel)
        fun m accepts => absurd (accepted accepts).2.1 (Nat.not_le.mpr large)
    rw [if_neg large]
    by_cases more : (buffered request headerEnd).length > n
    · rw [if_pos more]
      refine ⟨fun _ wraps => absurd (wrapped wraps).2 (Nat.not_le.mpr more), fun _ => ?_⟩
      exact decide_refusal (by decide +kernel)
        fun m accepts => absurd (accepted accepts).2.2 (Nat.not_le.mpr more)
    rw [if_neg more]
    constructor
    · intro decides wraps
      exact store_touches _ _ _ _ (decides.refused wraps.not_accepts).1
    · intro exact
      refine ⟨fun m accepts => by rw [(accepted accepts).1], fun none => absurd ?_ (none n)⟩
      have small := Nat.le_of_not_lt large
      have fits := Nat.le_of_not_lt more
      have plain : ¬ (digits = [] ∨ 2 ^ 32 ≤ ofDigits digits) := fun odd =>
        exact ⟨digits, found, all, odd, value ▸ small, value ▸ fits⟩
      refine ⟨digits, found, fun empty => plain (.inl empty), all, ?_, small, fits⟩
      have below : ofDigits digits < 2 ^ 32 := Nat.lt_of_not_le fun large => plain (.inr large)
      rw [value, Nat.mod_eq_of_lt below]

/-- A request that declares 2^32 bytes. -/
def fourGiB : Bytes := lit "PUT /user/index.html HTTP/1.1\r\nContent-Length: 4294967296\r\n\r\n"

theorem fourGiB_wraps : Wraps fourGiB 57 := by
  refine ⟨lit "4294967296", by decide +kernel, by decide, .inr (by decide), by decide, ?_⟩
  decide

/-- The storage is called with length zero. -/
theorem upload_fourGiB : ¬ Decides 3 fourGiB 57
    (answerRequest [] 0 3 (.received fourGiB (some 57))) := by
  have complete : findHeaderEnd fourGiB = some 57 := by decide +kernel
  have put : startsWith (cString fourGiB) "PUT /user/index.html " := by decide +kernel
  intro decides
  have untouched := (decides.refused fourGiB_wraps.not_accepts).1
  rw [answerRequest_put [] 0 3 put] at untouched
  rcases uploadRoute_cases 3 complete with ⟨missing, -⟩ | ⟨digits, found, rest⟩
  · exact absurd missing (by decide +kernel)
  rcases rest with ⟨other, -⟩ | ⟨-, n, value, route⟩
  · obtain ⟨digits', found', all, -⟩ := fourGiB_wraps
    obtain rfl := Option.some.inj (found.symm.trans found')
    exact other all
  · have is : declared fourGiB = some (lit "4294967296") := by decide +kernel
    obtain rfl := Option.some.inj (found.symm.trans is)
    have zero : n = 0 := by
      rw [value]
      decide
    rw [route, zero, if_neg (by decide), if_neg (by decide)] at untouched
    exact store_touches _ _ _ _ untouched

/-- A request with a plain length. -/
theorem upload_decided_twelve : Decides 3
    (lit "PUT /user/index.html HTTP/1.1\r\nContent-Length: 12\r\n\r\nab") 49
    (answerRequest [] 0 3 (.received
      (lit "PUT /user/index.html HTTP/1.1\r\nContent-Length: 12\r\n\r\nab") (some 49))) := by
  refine (upload_decided [] 0 3 (by decide +kernel) (by decide +kernel)).mpr ?_
  rintro ⟨digits, found, -, odd, -⟩
  have is : declared (lit "PUT /user/index.html HTTP/1.1\r\nContent-Length: 12\r\n\r\nab") =
      some (lit "12") := by decide +kernel
  obtain rfl := Option.some.inj (found.symm.trans is)
  rcases odd with empty | large
  · exact absurd empty (by decide)
  · exact absurd large (by decide)

end PicoCan.Http
