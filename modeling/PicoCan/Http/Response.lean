import PicoCan.Calls.JsonRead
import PicoCan.Http.Base64
import PicoCan.Http.Client
import PicoCan.Http.Lookup

/-!
# Complete responses

What a client that reads a response makes of it, by the reference parser of headers: a
status line and header lines up to the first blank line, and as many bytes behind it as
they announce. Every text that `handle_client` sends is such a response.
-/

namespace PicoCan.Http

open Calls
open Calls.Json (isDigit ofDigits)

/-- A status line, and the first blank line at the end. -/
structure IsHeader (header : Bytes) : Prop where
  status : startsWith header "HTTP/1."
  ends : strstr blankLine header = some blankLine

/-- The number of bytes that a header announces; none where it has no `Content-Length`. -/
def Announces (header : Bytes) (n : Nat) : Prop :=
  match lookup (lit "Content-Length") (headerLines header) with
  | some digits => digits ≠ [] ∧ digits.all isDigit ∧ ofDigits digits = n
  | none => n = 0

/-- One response and nothing else: as many bytes follow the header as it announces. -/
structure Response (header body : Bytes) : Prop where
  form : IsHeader header
  length : Announces header body.length

/-! ## Headers by their lines -/

/-- The header of some lines. -/
def headerOf (lines : List Bytes) : Bytes := lines.flatMap (· ++ crlf) ++ crlf

/-- A line of a header: something, without a carriage return. -/
def IsLine (line : Bytes) : Prop := line ≠ [] ∧ 13 ∉ line

theorem headerOf_cons (line : Bytes) (lines : List Bytes) :
    headerOf (line :: lines) = line ++ (crlf ++ headerOf lines) := by
  simp [headerOf]

/-- The first line of a text ends where it says. -/
theorem textLines_line {line : Bytes} (free : 13 ∉ line) (rest : Bytes) :
    textLines (line ++ (crlf ++ rest)) = line :: textLines rest := by
  have clean : ∀ c ∈ line, c ≠ 13 := fun c member same => free (same ▸ member)
  have found : strstr crlf (line ++ (crlf ++ rest)) = some (crlf ++ rest) := by
    rw [crlf_eq, strstr_skip clean]
    rfl
  obtain ⟨line', rest', split, at_end, lines⟩ := textLines_strstr found
  obtain rfl := List.append_cancel_right split
  obtain rfl := List.append_cancel_left at_end
  exact lines

/-- A header does not go on behind its lines. -/
theorem headerLines_of {first : Bytes} (line : IsLine first) {lines : List Bytes}
    (all : ∀ line ∈ lines, IsLine line) : headerLines (headerOf (first :: lines)) = lines := by
  have rest : (textLines (headerOf lines)).takeWhile (· ≠ []) = lines := by
    induction lines with
    | nil => decide
    | cons line lines ih =>
        have filled := decide_eq_true (all line List.mem_cons_self).1
        rw [headerOf_cons, textLines_line (all line List.mem_cons_self).2, List.takeWhile_cons,
          if_pos filled, ih fun line member => all line (List.mem_cons_of_mem _ member)]
  rw [headerLines, headerOf_cons, textLines_line line.2, List.tail_cons, rest]

/-- The first blank line is the one behind the last line. -/
theorem headerOf_ends {first : Bytes} (line : IsLine first) {lines : List Bytes}
    (all : ∀ line ∈ lines, IsLine line) :
    strstr blankLine (headerOf (first :: lines)) = some blankLine := by
  induction lines generalizing first with
  | nil =>
      have clean : ∀ c ∈ first, c ≠ 13 := fun c member same => line.2 (same ▸ member)
      rw [headerOf_cons, blankLine_eq, strstr_skip clean]
      decide
  | cons second lines ih =>
      have next := all second List.mem_cons_self
      have clean : ∀ c ∈ first, c ≠ 13 := fun c member same => line.2 (same ▸ member)
      have more : ¬ crlf.isPrefixOf (headerOf (second :: lines)) := by
        rw [headerOf_cons, List.isPrefixOf_iff_prefix, crlf_eq]
        cases second with
        | nil => exact absurd rfl next.1
        | cons c second =>
            rw [List.cons_append, List.cons_prefix_cons]
            rintro ⟨rfl, -⟩
            exact next.2 List.mem_cons_self
      rw [headerOf_cons, blankLine_eq, strstr_skip clean, ← blankLine_eq, strstr_blank_crlf more]
      exact ih next fun line member => all line (List.mem_cons_of_mem _ member)

/-! ## Header lines -/

/-- A line with a name, a colon, a blank and a text. -/
theorem isLine_named {name text : Bytes} (filled : name ≠ []) (free : 13 ∉ name)
    (clean : 13 ∉ text) : IsLine (name ++ 58 :: 32 :: text) := by
  refine ⟨fun empty => filled (List.append_eq_nil_iff.mp empty).1, fun member => ?_⟩
  rcases List.mem_append.mp member with front | behind
  · exact free front
  rcases List.mem_cons.mp behind with colon | behind
  · exact absurd colon (by decide)
  rcases List.mem_cons.mp behind with blank | back
  · exact absurd blank (by decide)
  · exact clean back

theorem names_line {name front : Bytes} (free : 58 ∉ front) (behind : Bytes) :
    Names name (front ++ 58 :: behind) ↔ front.map asciiTolower = name.map asciiTolower := by
  unfold Names
  rw [(takeWhile_colon free behind).1]
  exact ⟨And.right, fun same => ⟨List.mem_append_right _ List.mem_cons_self, same⟩⟩

theorem dropWhile_blank {text : Bytes} (plain : ∀ c ∈ text, ¬ isBlank c) :
    text.dropWhile isBlank = text := by
  cases text with
  | nil => rfl
  | cons c text => exact List.dropWhile_cons_of_neg (plain c List.mem_cons_self)

/-- The value of a line with one blank behind the colon. -/
theorem lineValue_plain {front text : Bytes} (free : 58 ∉ front)
    (plain : ∀ c ∈ text, ¬ isBlank c) : lineValue (front ++ 58 :: 32 :: text) = text := by
  have back : ∀ c ∈ text.reverse, ¬ isBlank c := fun c member =>
    plain c (List.mem_reverse.mp member)
  rw [lineValue, (takeWhile_colon free _).2, List.drop_one, List.tail_cons, strip,
    List.dropWhile_cons_of_pos rfl, dropWhile_blank plain, dropWhile_blank back,
    List.reverse_reverse]

theorem digit_plain {c : UInt8} (digit : isDigit c) : ¬ isBlank c ∧ c ≠ 13 := by
  have all : ∀ n : Fin 256, isDigit (UInt8.ofNat n) →
      ¬ isBlank (UInt8.ofNat n) ∧ UInt8.ofNat n ≠ 13 := by decide +kernel
  have this := all ⟨c.toNat, c.toNat_lt⟩
  rw [UInt8.ofNat_toNat] at this
  exact this digit

theorem dec_plain {n : Nat} {c : UInt8} (member : c ∈ dec n) : ¬ isBlank c ∧ c ≠ 13 :=
  digit_plain (Json.dec_digits n c member)

/-- The `Content-Length` line that a number is written in. -/
def lengthLine (n : Nat) : Bytes := lit "Content-Length" ++ 58 :: 32 :: dec n

theorem lengthLine_isLine (n : Nat) : IsLine (lengthLine n) :=
  isLine_named (by decide) (by decide) fun member => (dec_plain member).2 rfl

/-- A header announces the number in its first `Content-Length` line. -/
theorem announces_lengthLine {first : Bytes} (line : IsLine first) {before after : List Bytes}
    {n : Nat} (all : ∀ line ∈ before ++ lengthLine n :: after, IsLine line)
    (others : ∀ line ∈ before, ¬ Names (lit "Content-Length") line) :
    Announces (headerOf (first :: (before ++ lengthLine n :: after))) n := by
  have free : 58 ∉ lit "Content-Length" := by decide
  have named : Names (lit "Content-Length") (lengthLine n) := (names_line free _).mpr rfl
  have found : lookup (lit "Content-Length") (before ++ lengthLine n :: after) = some (dec n) := by
    clear all
    induction before with
    | nil =>
        rw [List.nil_append, lookup_cons, if_pos named, lengthLine,
          lineValue_plain free fun c member => (dec_plain member).1]
    | cons other before ih =>
        rw [List.cons_append, lookup_cons, if_neg (others other List.mem_cons_self)]
        exact ih fun line member => others line (List.mem_cons_of_mem _ member)
  unfold Announces
  rw [headerLines_of line all, found]
  refine ⟨fun empty => Json.dec_strict n (.inl empty), ?_, Json.ofDigits_dec n⟩
  exact List.all_eq_true.mpr (Json.dec_digits n)

/-- A header without such a line announces nothing. -/
theorem announces_none {first : Bytes} (line : IsLine first) {lines : List Bytes}
    (all : ∀ line ∈ lines, IsLine line)
    (others : ∀ line ∈ lines, ¬ Names (lit "Content-Length") line) :
    Announces (headerOf (first :: lines)) 0 := by
  have found : lookup (lit "Content-Length") lines = none := by
    clear all
    induction lines with
    | nil => rfl
    | cons other lines ih =>
        rw [lookup_cons, if_neg (others other List.mem_cons_self)]
        exact ih fun line member => others line (List.mem_cons_of_mem _ member)
  unfold Announces
  rw [headerLines_of line all, found]

/-! ## The responses of the server -/

theorem httpHeader_eq (status contentType : String) (n : Nat) :
    httpHeader status contentType n = headerOf ((lit "HTTP/1.0 " ++ lit status) ::
      ([lit "Content-Type" ++ 58 :: 32 :: lit contentType] ++
        lengthLine n :: [lit "Connection: close"])) := by
  have type : lit "\r\nContent-Type: " = crlf ++ (lit "Content-Type" ++ [58, 32]) := by decide
  have length : lit "\r\nContent-Length: " = crlf ++ (lit "Content-Length" ++ [58, 32]) := by decide
  have close : lit "\r\nConnection: close\r\n\r\n" =
      crlf ++ lit "Connection: close" ++ crlf ++ crlf := by
    decide
  rw [httpHeader, type, length, close]
  simp only [headerOf, lengthLine, List.flatMap_cons, List.flatMap_nil, List.cons_append,
    List.nil_append, List.append_assoc, List.append_nil]

/-- A status and a content type that fit on their lines. -/
structure Texts (status contentType : String) : Prop where
  status : 13 ∉ lit status
  type : 13 ∉ lit contentType

theorem httpHeader_complete {status contentType : String} (texts : Texts status contentType)
    (body : Bytes) : Response (httpHeader status contentType body.length) body := by
  have first : IsLine (lit "HTTP/1.0 " ++ lit status) := by
    refine ⟨fun empty => absurd (List.append_eq_nil_iff.mp empty).1 (by decide), fun member => ?_⟩
    rcases List.mem_append.mp member with front | back
    · exact absurd front (by decide)
    · exact texts.status back
  have type : IsLine (lit "Content-Type" ++ 58 :: 32 :: lit contentType) :=
    isLine_named (by decide) (by decide) texts.type
  have close : IsLine (lit "Connection: close") := ⟨by decide, by decide⟩
  have all : ∀ line ∈ [lit "Content-Type" ++ 58 :: 32 :: lit contentType] ++
      lengthLine body.length :: [lit "Connection: close"], IsLine line := by
    intro line member
    simp only [List.cons_append, List.nil_append, List.mem_cons, List.not_mem_nil,
      or_false] at member
    rcases member with rfl | rfl | rfl
    · exact type
    · exact lengthLine_isLine _
    · exact close
  have other : ∀ line ∈ [lit "Content-Type" ++ 58 :: 32 :: lit contentType],
      ¬ Names (lit "Content-Length") line := by
    intro line member
    rw [List.mem_singleton.mp member]
    rw [names_line (by decide)]
    decide
  rw [httpHeader_eq]
  refine ⟨⟨?_, headerOf_ends first all⟩, announces_lengthLine first all other⟩
  rw [headerOf_cons, List.append_assoc, startsWith, List.isPrefixOf_iff_prefix]
  have version : lit "HTTP/1." <+: lit "HTTP/1.0 " := ⟨lit "0 ", by decide⟩
  exact version.trans (List.prefix_append _ _)

/-- Responses with different status lines differ. -/
theorem httpHeader_differ {status status' : String}
    (differ : ¬ (lit status <+: lit status' ∨ lit status' <+: lit status)) (type type' : String)
    (n n' : Nat) (body body' : Bytes) :
    httpHeader status type n ++ body ≠ httpHeader status' type' n' ++ body' := by
  intro same
  unfold httpHeader at same
  simp only [List.append_assoc] at same
  have behind := List.append_cancel_left same
  exact differ (List.prefix_or_prefix_of_prefix ⟨_, behind⟩ (List.prefix_append _ _))

/-- What `refuse` sends. -/
def textResponse (status body : String) : Bytes :=
  httpHeader status textPlain (lit body).length ++ lit body

/-- A response without a body. -/
theorem bare_complete {lines : List Bytes} {first : Bytes} (version : startsWith first "HTTP/1.")
    (line : IsLine first) (all : ∀ line ∈ lines, IsLine line)
    (others : ∀ line ∈ lines, ¬ Names (lit "Content-Length") line) :
    Response (headerOf (first :: lines)) [] := by
  refine ⟨⟨?_, headerOf_ends line all⟩, announces_none line all others⟩
  rw [headerOf_cons, startsWith, List.isPrefixOf_iff_prefix]
  exact (List.isPrefixOf_iff_prefix.mp version).trans (List.prefix_append _ _)

theorem noContent_complete : Response (lit noContent) [] := by
  have lines : lit noContent =
      headerOf [lit "HTTP/1.0 204 No Content", lit "Connection: close"] := by decide +kernel
  rw [lines]
  refine bare_complete (by decide) ⟨by decide, by decide⟩ ?_ ?_
  · intro line member
    rw [List.mem_singleton.mp member]
    exact ⟨by decide, by decide⟩
  · intro line member
    rw [List.mem_singleton.mp member]
    decide

theorem userPageNotFound_eq :
    lit userPageNotFound = textResponse "404 Not Found" "user page not found\n" := by
  unfold userPageNotFound
  rw [← lit_append]
  decide +kernel

theorem notFound_eq : lit notFound = textResponse "404 Not Found" "not found\n" := by
  unfold notFound
  rw [← lit_append]
  decide +kernel

/-! ## The accept key -/

theorem headerValue_length {value rest : Bytes} (found : strstr crlf value = some rest) :
    (headerValue value).length = headerValueLen value := by
  have inside : headerValueLen value ≤ value.length := by
    rw [headerValueLen, found]
    exact Nat.le_trans (trimEnd_le _ _) (Nat.sub_le _ _)
  rw [headerValue, List.length_take]
  omega

/-- What is made of a key: nothing if it is empty or longer than 64 bytes, and otherwise the 28
characters of a digest. -/
theorem buildWebsocketAccept_key {request value rest : Bytes}
    (found : findHeaderValue request "Sec-WebSocket-Key" = some value)
    (ends : strstr crlf value = some rest) :
    (((headerValue value).length = 0 ∨ (headerValue value).length > 64) ∧
      buildWebsocketAccept request acceptMax = .error (-Can.eInval)) ∨
    (¬ ((headerValue value).length = 0 ∨ (headerValue value).length > 64) ∧
      ∃ accept, buildWebsocketAccept request acceptMax = .ok accept ∧ accept.length = 28 ∧
        13 ∉ accept) := by
  rw [headerValue_length ends, buildWebsocketAccept, found]
  by_cases bad : headerValueLen value = 0 ∨ headerValueLen value > 64
  · exact .inl ⟨bad, if_pos bad⟩
  · refine .inr ⟨bad, ?_⟩
    simp only
    rw [if_neg bad]
    generalize sha1Update (sha1Update sha1Init (value.take (headerValueLen value))) wsGuid = ctx
    have twenty : (sha1Final ctx).length = 20 := rfl
    have room : base64Length (sha1Final ctx).length < acceptMax := by
      rw [twenty]
      decide
    refine ⟨_, (base64EncodeSmall_eq _ (by decide)).trans (if_pos room), ?_,
      Base64.not_mem_encode (by decide) (by decide) _⟩
    rw [Base64.encode_length, twenty]

/-- A successful upgrade. -/
theorem upgradeText_complete {accept : Bytes} (free : 13 ∉ accept) :
    Response (upgradeText accept) [] := by
  have lines : upgradeText accept = headerOf [lit "HTTP/1.1 101 Switching Protocols",
      lit "Upgrade: websocket", lit "Connection: Upgrade",
      lit "Sec-WebSocket-Accept" ++ 58 :: 32 :: accept] := by
    have front : lit
        ("HTTP/1.1 101 Switching Protocols\r\nUpgrade: websocket\r\nConnection: Upgrade\r\n" ++
        "Sec-WebSocket-Accept: ") =
        lit "HTTP/1.1 101 Switching Protocols" ++ crlf ++ (lit "Upgrade: websocket" ++ crlf) ++
          (lit "Connection: Upgrade" ++ crlf) ++ (lit "Sec-WebSocket-Accept" ++ [58, 32]) := by
      rw [← lit_append]
      decide +kernel
    have back : lit "\r\n\r\n" = crlf ++ crlf := by decide
    rw [upgradeText, front, back]
    simp only [headerOf, List.flatMap_cons, List.flatMap_nil, List.cons_append, List.nil_append,
      List.append_assoc]
  have key : IsLine (lit "Sec-WebSocket-Accept" ++ 58 :: 32 :: accept) :=
    isLine_named (by decide) (by decide) free
  rw [lines]
  refine bare_complete (by decide) ⟨by decide, by decide⟩ ?_ ?_
  · intro line member
    simp only [List.mem_cons, List.not_mem_nil, or_false] at member
    rcases member with rfl | rfl | rfl
    · exact ⟨by decide, by decide⟩
    · exact ⟨by decide, by decide⟩
    · exact key
  · intro line member
    simp only [List.mem_cons, List.not_mem_nil, or_false] at member
    rcases member with rfl | rfl | rfl
    · decide
    · decide
    · rw [names_line (by decide)]
      decide

end PicoCan.Http
