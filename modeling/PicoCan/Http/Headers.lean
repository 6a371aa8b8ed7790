import PicoCan.Calls.Text

/-!
# Strings and request headers

The string functions of `http_server.c`. A C string is the list of its bytes up to the
terminator, and a pointer into it is the rest of the string from there on.
-/

namespace PicoCan.Http

open Calls

/-- What a buffer holds as a C string: its bytes up to the first NUL. -/
def cString (buffer : Bytes) : Bytes := buffer.takeWhile (· ≠ 0)

theorem cString_append (buffer more : Bytes) :
    ∃ rest, cString (buffer ++ more) = cString buffer ++ rest := by
  unfold cString
  induction buffer with
  | nil => exact ⟨_, rfl⟩
  | cons c buffer ih =>
      obtain ⟨rest, split⟩ := ih
      rw [List.cons_append, List.takeWhile_cons, List.takeWhile_cons]
      by_cases ends : c = 0
      · simp [ends]
      · refine ⟨rest, ?_⟩
        rw [if_pos (by simpa using ends), if_pos (by simpa using ends), split]
        rfl

theorem cString_text {text : Bytes} (free : 0 ∉ text) (rest : Bytes) :
    cString (text ++ rest) = text ++ cString rest := by
  induction text with
  | nil => rfl
  | cons c text ih =>
      have other : decide (c ≠ 0) = true :=
        decide_eq_true fun zero => free (zero ▸ List.mem_cons_self)
      show (c :: (text ++ rest)).takeWhile _ = _
      rw [List.takeWhile_cons, if_pos other]
      exact congrArg (c :: ·) (ih fun member => free (List.mem_cons_of_mem _ member))

theorem cString_length_le (buffer : Bytes) : (cString buffer).length ≤ buffer.length :=
  (List.takeWhile_prefix _).length_le

/-- `strstr`: the string from the first occurrence of `needle` on. -/
def strstr (needle : Bytes) : Bytes → Option Bytes
  | [] => if needle = [] then some [] else none
  | c :: rest => if needle.isPrefixOf (c :: rest) then some (c :: rest) else strstr needle rest

/-- What is found begins with the needle and ends the string. -/
theorem strstr_split {needle s rest : Bytes} (found : strstr needle s = some rest) :
    needle <+: rest ∧ rest <:+ s := by
  induction s with
  | nil =>
      by_cases any : needle = []
      · rw [strstr, if_pos any] at found
        cases found
        exact ⟨any ▸ List.nil_prefix, List.suffix_rfl⟩
      · rw [strstr, if_neg any] at found
        cases found
  | cons c s ih =>
      rw [strstr] at found
      by_cases here : needle.isPrefixOf (c :: s)
      · rw [if_pos here] at found
        cases found
        exact ⟨List.isPrefixOf_iff_prefix.mp here, List.suffix_rfl⟩
      · rw [if_neg here] at found
        obtain ⟨front, back⟩ := ih found
        exact ⟨front, back.trans (List.suffix_cons c s)⟩

/-- What is found is still found when the string goes on. -/
theorem strstr_append {needle s rest : Bytes} (found : strstr needle s = some rest)
    (more : Bytes) : strstr needle (s ++ more) = some (rest ++ more) := by
  induction s with
  | nil =>
      by_cases any : needle = []
      · rw [strstr, if_pos any] at found
        cases found
        subst any
        cases more with
        | nil => rfl
        | cons c more => rfl
      · rw [strstr, if_neg any] at found
        cases found
  | cons c s ih =>
      rw [List.cons_append, strstr]
      rw [strstr] at found
      by_cases here : needle.isPrefixOf (c :: s)
      · have still : needle.isPrefixOf (c :: (s ++ more)) := by
          rw [List.isPrefixOf_iff_prefix] at here ⊢
          exact here.trans (List.prefix_append (c :: s) more)
        rw [if_pos here] at found
        cases found
        rw [if_pos still]
        rfl
      · -- the needle is found further on, so it is not longer than what is behind `c`
        rw [if_neg here] at found
        obtain ⟨needle_rest, rest_s⟩ := strstr_split found
        have short : needle.length ≤ s.length :=
          Nat.le_trans needle_rest.length_le rest_s.length_le
        have still : ¬ needle.isPrefixOf (c :: (s ++ more)) := by
          intro begins
          refine here (List.isPrefixOf_iff_prefix.mpr ?_)
          exact List.prefix_of_prefix_length_le (List.isPrefixOf_iff_prefix.mp begins)
            (List.prefix_append (c :: s) more) (Nat.le_succ_of_le short)
        rw [if_neg still]
        exact ih found

/-- `strncmp(request, text, strlen(text)) == 0`. -/
def startsWith (request : Bytes) (text : String) : Bool := (lit text).isPrefixOf request

def crlf : Bytes := lit "\r\n"

def isBlank (c : UInt8) : Bool := c = 32 ∨ c = 9

def asciiTolower (c : UInt8) : UInt8 := if 65 ≤ c ∧ c ≤ 90 then c + 32 else c

/-- `ascii_case_equal(line, name, strlen(name))`: a line that ends before the name
does differs from it at its terminator. -/
def asciiCaseEqual : (line name : Bytes) → Bool
  | _, [] => true
  | [], _ :: _ => false
  | a :: line, b :: name => asciiTolower a = asciiTolower b && asciiCaseEqual line name

/-- The loop of `find_header_value`, `line` at a line end. Each round moves at least two
bytes forward, so the string's length is enough fuel. -/
def findHeaderLoop (name : Bytes) : (fuel : Nat) → (line : Bytes) → Option Bytes
  | 0, _ => none
  | fuel + 1, line =>
      let line := line.drop 2
      if crlf.isPrefixOf line then none
      else if asciiCaseEqual line name && (line)[name.length]? = some 58 then
        some ((line.drop (name.length + 1)).dropWhile isBlank)
      else
        match strstr crlf line with
        | none => none
        | some line => findHeaderLoop name fuel line

/-- The value of a header: the rest of the request from its first non-blank on. -/
def findHeaderValue (request : Bytes) (name : String) : Option Bytes :=
  match strstr crlf request with
  | none => none
  | some line => findHeaderLoop (lit name) request.length line

/-- `while (end > value && blank(end[-1])) end--`, as the length of the value. -/
def trimEnd (value : Bytes) : Nat → Nat
  | 0 => 0
  | n + 1 => if value[n]?.any isBlank then trimEnd value n else n + 1

def headerValueLen (value : Bytes) : Nat :=
  match strstr crlf value with
  | none => 0
  | some rest => trimEnd value (value.length - rest.length)

/-- The text of a header value. -/
def headerValue (value : Bytes) : Bytes := value.take (headerValueLen value)

def requestIsWebsocket (request : Bytes) : Bool :=
  (startsWith request "GET /can " || startsWith request "GET /ws ") &&
    (findHeaderValue request "Sec-WebSocket-Key").isSome

end PicoCan.Http
