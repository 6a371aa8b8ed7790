import PicoCan.Http.HeaderText

/-!
# Header lookup against a reference parser

The reference splits the request into its lines, drops the request line, goes through the
lines up to the first empty one and takes the first that has the name in front of its first
colon. The search of `find_header_value` never builds a line: it compares the rest of the
request with the name and jumps to the next line end. The name is free of carriage returns,
so a comparison that succeeds stayed within the line.
-/

namespace PicoCan.Http

open Calls

/-! ## The reference -/

/-- One more character in front of the first line. -/
def consLine (c : UInt8) : List Bytes → List Bytes
  | [] => [[c]]
  | line :: lines => (c :: line) :: lines

/-- The lines of a text: what stands between its line ends. -/
def textLines : Bytes → List Bytes
  | [] => [[]]
  | [c] => [[c]]
  | a :: b :: rest =>
      if a = 13 ∧ b = 10 then [] :: textLines rest else consLine a (textLines (b :: rest))

/-- The lines between the request line and the first blank line. -/
def headerLines (request : Bytes) : List Bytes := (textLines request).tail.takeWhile (· ≠ [])

/-- The text in front of the first colon is the name, up to ASCII case. -/
def Names (name line : Bytes) : Prop :=
  58 ∈ line ∧ (line.takeWhile (· ≠ 58)).map asciiTolower = name.map asciiTolower

instance (name line : Bytes) : Decidable (Names name line) :=
  inferInstanceAs (Decidable (_ ∧ _))

/-- Without its leading and trailing spaces and tabs. -/
def strip (value : Bytes) : Bytes := (((value.dropWhile isBlank).reverse).dropWhile isBlank).reverse

/-- The value of a header line: what stands behind its first colon. -/
def lineValue (line : Bytes) : Bytes := strip ((line.dropWhile (· ≠ 58)).drop 1)

/-- The value of the first header line that has the name. -/
def lookup (name : Bytes) (lines : List Bytes) : Option Bytes :=
  (lines.find? fun line => Names name line).map lineValue

/-! ## Lines and `strstr` -/

theorem textLines_crlf (rest : Bytes) : textLines (crlf ++ rest) = [] :: textLines rest := by
  rw [crlf_eq]
  exact if_pos ⟨rfl, rfl⟩

/-- The first line ends where `strstr` finds a line end. -/
theorem textLines_strstr {s next : Bytes} (found : strstr crlf s = some next) :
    ∃ line rest, s = line ++ next ∧ next = crlf ++ rest ∧ textLines s = line :: textLines rest := by
  induction s with
  | nil => cases found
  | cons c s ih =>
      rw [strstr] at found
      by_cases here : crlf.isPrefixOf (c :: s)
      · rw [if_pos here] at found
        obtain ⟨rest, split⟩ := List.isPrefixOf_iff_prefix.mp here
        cases found
        refine ⟨[], rest, rfl, split.symm, ?_⟩
        rw [← split, textLines_crlf]
      · rw [if_neg here] at found
        obtain ⟨line, rest, split, at_end, lines⟩ := ih found
        refine ⟨c :: line, rest, by rw [split]; rfl, at_end, ?_⟩
        cases s with
        | nil => cases found
        | cons b s =>
            have other : ¬ (c = 13 ∧ b = 10) := by
              rintro ⟨rfl, rfl⟩
              exact here rfl
            rw [textLines, if_neg other, lines]
            rfl

/-- A search that ends in the back of a text finds the same when it starts there. -/
theorem strstr_front {needle front s rest : Bytes}
    (found : strstr needle (front ++ s) = some rest) (back : rest <:+ s) :
    strstr needle s = some rest := by
  induction front with
  | nil => exact found
  | cons c front ih =>
      rw [List.cons_append, strstr] at found
      by_cases here : needle.isPrefixOf (c :: (front ++ s))
      · rw [if_pos here] at found
        cases found
        have long := back.length_le
        simp only [List.length_cons, List.length_append] at long
        omega
      · rw [if_neg here] at found
        exact ih found

/-- What occurs in a text is found. -/
theorem strstr_of_infix {needle s : Bytes} (occurs : needle <:+: s) :
    ∃ rest, strstr needle s = some rest := by
  induction s with
  | nil =>
      obtain rfl : needle = [] := List.eq_nil_of_infix_nil occurs
      exact ⟨[], rfl⟩
  | cons c s ih =>
      rw [strstr]
      by_cases here : needle.isPrefixOf (c :: s)
      · exact ⟨c :: s, if_pos here⟩
      · rw [if_neg here]
        rcases List.infix_cons_iff.mp occurs with begins | later
        · exact absurd (List.isPrefixOf_iff_prefix.mpr begins) here
        · exact ih later

/-! ## One line -/

theorem asciiTolower_colon {c : UInt8} : asciiTolower c = 58 ↔ c = 58 := by
  have all : ∀ n : Fin 256, asciiTolower (UInt8.ofNat n) = 58 ↔ UInt8.ofNat n = 58 := by
    decide +kernel
  have this := all ⟨c.toNat, c.toNat_lt⟩
  rwa [UInt8.ofNat_toNat] at this

/-- A text with the name's letters has no colon either. -/
theorem no_colon {name front : Bytes} (free : 58 ∉ name)
    (equal : front.map asciiTolower = name.map asciiTolower) : 58 ∉ front := by
  intro member
  have lowered : 58 ∈ name.map asciiTolower := by
    rw [← equal]
    exact List.mem_map.mpr ⟨58, member, rfl⟩
  obtain ⟨c, within, same⟩ := List.mem_map.mp lowered
  exact free (asciiTolower_colon.mp same ▸ within)

theorem takeWhile_colon {front : Bytes} (free : 58 ∉ front) (behind : Bytes) :
    (front ++ 58 :: behind).takeWhile (· ≠ 58) = front ∧
      (front ++ 58 :: behind).dropWhile (· ≠ 58) = 58 :: behind := by
  induction front with
  | nil => exact ⟨rfl, rfl⟩
  | cons c front ih =>
      obtain ⟨takes, drops⟩ := ih fun member => free (List.mem_cons_of_mem c member)
      have other : decide (c ≠ 58) = true :=
        decide_eq_true fun same => free (same ▸ List.mem_cons_self)
      constructor
      · rw [List.cons_append, List.takeWhile_cons, if_pos other, takes]
      · rw [List.cons_append, List.dropWhile_cons, if_pos other, drops]

/-- A named line is the name's letters, a colon and the rest. -/
theorem names_iff {name line : Bytes} (free : 58 ∉ name) :
    Names name line ↔ ∃ front behind, line = front ++ 58 :: behind ∧
      front.map asciiTolower = name.map asciiTolower := by
  constructor
  · rintro ⟨colon, equal⟩
    obtain ⟨front, behind, rfl, first⟩ := List.eq_append_cons_of_mem colon
    rw [(takeWhile_colon first behind).1] at equal
    exact ⟨front, behind, rfl, equal⟩
  · rintro ⟨front, behind, rfl, equal⟩
    refine ⟨List.mem_append_right _ List.mem_cons_self, ?_⟩
    rw [(takeWhile_colon (no_colon free equal) behind).1, equal]

/-- The comparison is of the name's length, up to case. -/
theorem asciiCaseEqual_iff {line name : Bytes} :
    asciiCaseEqual line name ↔
      (line.take name.length).map asciiTolower = name.map asciiTolower := by
  induction name generalizing line with
  | nil => simp [asciiCaseEqual]
  | cons b name ih =>
      cases line with
      | nil => simp [asciiCaseEqual]
      | cons a line => simp [asciiCaseEqual, ih]

/-- The test of the loop, on the rest of the request. -/
theorem matched_iff {line name : Bytes} :
    (asciiCaseEqual line name && (line)[name.length]? = some 58) = true ↔
      ∃ front behind, line = front ++ 58 :: behind ∧
        front.map asciiTolower = name.map asciiTolower := by
  rw [Bool.and_eq_true, decide_eq_true_eq, asciiCaseEqual_iff]
  constructor
  · rintro ⟨equal, colon⟩
    obtain ⟨inside, at_colon⟩ := List.getElem?_eq_some_iff.mp colon
    refine ⟨line.take name.length, line.drop (name.length + 1), ?_, equal⟩
    rw [← at_colon, List.getElem_cons_drop, List.take_append_drop]
  · rintro ⟨front, behind, rfl, equal⟩
    have length : front.length = name.length := by
      have := congrArg List.length equal
      rwa [List.length_map, List.length_map] at this
    rw [← length, List.take_left, List.getElem?_append_right (Nat.le_refl _), Nat.sub_self]
    exact ⟨equal, rfl⟩

theorem no_cr {name front : Bytes} (free : 13 ∉ name)
    (equal : front.map asciiTolower = name.map asciiTolower) : 13 ∉ front := by
  intro member
  have lowered : asciiTolower 13 ∈ name.map asciiTolower := by
    rw [← equal]
    exact List.mem_map.mpr ⟨13, member, rfl⟩
  obtain ⟨c, within, same⟩ := List.mem_map.mp lowered
  exact free (asciiTolower_cr same.symm ▸ within)

/-- The rest of the request has the name in front exactly when its first line does. -/
theorem matched_line {name line next : Bytes} (cr : 13 ∉ name) (colon : 58 ∉ name)
    (starts : crlf <+: next) :
    (asciiCaseEqual (line ++ next) name && (line ++ next)[name.length]? = some 58) = true ↔
      Names name line := by
  rw [matched_iff, names_iff colon]
  constructor
  · rintro ⟨front, behind, split, equal⟩
    have clean := no_cr cr equal
    obtain ⟨rest, rfl⟩ := starts
    rw [crlf_eq] at split
    rcases List.append_eq_append_iff.mp split with ⟨more, grown, rest⟩ | ⟨more, grown, rest⟩
    · -- the line cannot end before the colon, as its end is not part of the name
      cases more with
      | nil => exact absurd (List.cons.inj rest).1 (by decide)
      | cons c more =>
          have : c = 13 := (List.cons.inj rest).1.symm
          exact absurd (by simp [grown, this]) clean
    · cases more with
      | nil => exact absurd (List.cons.inj rest).1 (by decide)
      | cons c more =>
          obtain rfl : 58 = c := (List.cons.inj rest).1
          exact ⟨front, more, grown, equal⟩
  · rintro ⟨front, behind, rfl, equal⟩
    exact ⟨front, behind ++ next, by rw [List.append_assoc]; rfl, equal⟩

/-! ## The value -/

theorem trimEnd_take (value : Bytes) {n : Nat} (inside : n ≤ value.length) :
    value.take (trimEnd value n) = (((value.take n).reverse).dropWhile isBlank).reverse := by
  induction n with
  | zero => rfl
  | succ n ih =>
      have within : n < value.length := by omega
      have last : value.take (n + 1) = value.take n ++ [value[n]] :=
        List.take_succ_eq_append_getElem within
      rw [trimEnd, List.getElem?_eq_getElem within, last, List.reverse_append,
        List.reverse_singleton, List.singleton_append, List.dropWhile_cons]
      by_cases blank : isBlank value[n]
      · rw [if_pos blank, ← ih (by omega)]
        simp [blank]
      · rw [if_neg blank]
        simp [blank]

theorem dropWhile_blank_append {behind next : Bytes} (starts : crlf <+: next) :
    (behind ++ next).dropWhile isBlank = behind.dropWhile isBlank ++ next := by
  obtain ⟨rest, rfl⟩ := starts
  rw [List.dropWhile_append]
  split
  · rename_i empty
    rw [List.isEmpty_iff.mp empty]
    rfl
  · rfl

/-- The text from the first non-blank to the line end, trimmed. -/
theorem headerValue_strip {behind next : Bytes} (starts : crlf <+: next)
    (at_end : strstr crlf (behind ++ next) = some next) :
    headerValue ((behind ++ next).dropWhile isBlank) = strip behind := by
  rw [dropWhile_blank_append starts]
  have found : strstr crlf (behind.dropWhile isBlank ++ next) = some next := by
    have whole : strstr crlf (behind.takeWhile isBlank ++ (behind.dropWhile isBlank ++ next)) =
        some next := by
      rwa [← List.append_assoc, List.takeWhile_append_dropWhile]
    exact strstr_front whole (List.suffix_append _ _)
  have length : headerValueLen (behind.dropWhile isBlank ++ next) =
      trimEnd (behind.dropWhile isBlank ++ next) (behind.dropWhile isBlank).length := by
    simp only [headerValueLen, found, List.length_append, Nat.add_sub_cancel]
  rw [headerValue, length, trimEnd_take _ (by simp), List.take_left, strip]

/-! ## The search -/

/-- The loop from `line` on ends with `value`. -/
inductive Search (name : Bytes) : (line : Bytes) → (value : Option Bytes) → Prop
  | blank {line : Bytes} (last : crlf.isPrefixOf line) : Search name (crlf ++ line) none
  | found {line : Bytes} (more : ¬ crlf.isPrefixOf line)
      (named : (asciiCaseEqual line name && (line)[name.length]? = some 58) = true) :
      Search name (crlf ++ line) (some ((line.drop (name.length + 1)).dropWhile isBlank))
  | unterminated {line : Bytes} (more : ¬ crlf.isPrefixOf line)
      (other : ¬ (asciiCaseEqual line name && (line)[name.length]? = some 58) = true)
      (ends : strstr crlf line = none) : Search name (crlf ++ line) none
  | next {line next : Bytes} {value : Option Bytes} (more : ¬ crlf.isPrefixOf line)
      (other : ¬ (asciiCaseEqual line name && (line)[name.length]? = some 58) = true)
      (jumps : strstr crlf line = some next) (rest : Search name next value) :
      Search name (crlf ++ line) value

/-- The search always ends, within as many rounds as the rest of the request has bytes. -/
theorem findHeaderLoop_search (name : Bytes) (fuel : Nat) {line : Bytes} (starts : crlf <+: line)
    (enough : line.length ≤ fuel) : Search name line (findHeaderLoop name fuel line) := by
  induction fuel generalizing line with
  | zero =>
      have two : 2 ≤ line.length := starts.length_le
      omega
  | succ fuel ih =>
      obtain ⟨line, rfl⟩ := starts
      have two : (crlf ++ line).length = 2 + line.length := List.length_append
      have front : (crlf ++ line).drop 2 = line := rfl
      rw [findHeaderLoop, front]
      by_cases last : crlf.isPrefixOf line
      · rw [if_pos last]
        exact .blank last
      · rw [if_neg last]
        by_cases named : (asciiCaseEqual line name && (line)[name.length]? = some 58) = true
        · rw [if_pos named]
          exact .found last named
        · rw [if_neg named]
          cases jumps : strstr crlf line with
          | none => exact .unterminated last named jumps
          | some next =>
              have back := strstr_split jumps
              have shorter := back.2.length_le
              exact .next last named jumps (ih back.1 (by omega))

/-- A line that is not blank is the first of the header lines. -/
theorem headerLines_more {line next : Bytes} (more : ¬ crlf.isPrefixOf line)
    (jumps : strstr crlf line = some next) :
    ∃ first, line = first ++ next ∧ (textLines line).takeWhile (· ≠ []) =
      first :: (textLines (next.drop 2)).takeWhile (· ≠ []) := by
  obtain ⟨first, rest, split, at_end, lines⟩ := textLines_strstr jumps
  have filled : first ≠ [] := by
    rintro rfl
    exact more (List.isPrefixOf_iff_prefix.mpr ⟨rest, by rw [split, at_end]; rfl⟩)
  have front : (crlf ++ rest).drop 2 = rest := rfl
  refine ⟨first, split, ?_⟩
  rw [lines, List.takeWhile_cons, if_pos (decide_eq_true filled), at_end, front]

theorem lookup_cons (name line : Bytes) (lines : List Bytes) :
    lookup name (line :: lines) =
      if Names name line then some (lineValue line) else lookup name lines := by
  unfold lookup
  rw [List.find?_cons]
  by_cases named : Names name line
  · rw [decide_eq_true named, if_pos named]
    rfl
  · rw [decide_eq_false named, if_neg named]

/-- A search in a header that is complete finds what the reference finds in its lines. -/
theorem Search.lookup {name line rest : Bytes} {value : Option Bytes} (cr : 13 ∉ name)
    (colon : 58 ∉ name) (search : Search name line value)
    (blank : strstr blankLine line = some rest) :
    value.map headerValue = lookup name ((textLines (line.drop 2)).takeWhile (· ≠ [])) := by
  have front (s : Bytes) : (crlf ++ s).drop 2 = s := rfl
  induction search with
  | @blank line last =>
      obtain ⟨behind, rfl⟩ := List.isPrefixOf_iff_prefix.mp last
      rw [front, textLines_crlf]
      rfl
  | @found line more named =>
      obtain ⟨next, jumps, -⟩ := strstr_crlf_of_blank (strstr_blank_behind more blank)
      obtain ⟨first, rfl, lines⟩ := headerLines_more more jumps
      have starts := (strstr_split jumps).1
      have names := (matched_line cr colon starts).mp named
      rw [front, lines, lookup_cons, if_pos names, Option.map_some]
      obtain ⟨before, behind, rfl, equal⟩ := (names_iff colon).mp names
      have length : (before ++ [58]).length = name.length + 1 := by
        have := congrArg List.length equal
        simpa using this
      have assoc : before ++ 58 :: behind ++ next = before ++ [58] ++ (behind ++ next) := by simp
      have at_end : strstr crlf (behind ++ next) = some next := by
        rw [assoc] at jumps
        exact strstr_front jumps (List.suffix_append behind next)
      rw [assoc, List.drop_left' length, headerValue_strip starts at_end, lineValue,
        (takeWhile_colon (no_colon colon equal) behind).2]
      rfl
  | @unterminated line more other ends =>
      obtain ⟨next, found, -⟩ := strstr_crlf_of_blank (strstr_blank_behind more blank)
      rw [ends] at found
      cases found
  | @next line next value more other jumps search ih =>
      obtain ⟨next', found, still⟩ := strstr_crlf_of_blank (strstr_blank_behind more blank)
      obtain rfl : next = next' := Option.some.inj (jumps.symm.trans found)
      obtain ⟨first, rfl, lines⟩ := headerLines_more more jumps
      have different : ¬ Names name first := fun names =>
        other ((matched_line cr colon (strstr_split jumps).1).mpr names)
      rw [front, lines, lookup_cons, if_neg different]
      exact ih still

/-- The value that the search finds is the value of the first header line with the name. -/
theorem headerText_lookup {name : String} (cr : 13 ∉ lit name) (colon : 58 ∉ lit name)
    {request rest : Bytes} (blank : strstr blankLine request = some rest) :
    (findHeaderValue request name).map headerValue = lookup (lit name) (headerLines request) := by
  obtain ⟨line, found, still⟩ := strstr_crlf_of_blank blank
  have search := findHeaderLoop_search (lit name) request.length (strstr_split found).1
    (strstr_split found).2.length_le
  obtain ⟨first, behind, -, at_end, lines⟩ := textLines_strstr found
  have front : (crlf ++ behind).drop 2 = behind := rfl
  rw [findHeaderValue, found, search.lookup cr colon still, headerLines, lines, at_end, front,
    List.tail_cons]

/-- On every request with a complete header the search for a name ends, and finds the value of
the first header line that has it, or nothing when none has; bytes behind the blank line do not
matter. -/
theorem header_lookup {name : String} (cr : 13 ∉ lit name) (colon : 58 ∉ lit name)
    {request : Bytes} (complete : blankLine <:+: request) :
    (∃ line, strstr crlf request = some line ∧
        Search (lit name) line (findHeaderValue request name)) ∧
      (findHeaderValue request name).map headerValue = lookup (lit name) (headerLines request) ∧
      ∀ header body other, request = header ++ body → blankLine <:+: header →
        (findHeaderValue (header ++ other) name).map headerValue =
          (findHeaderValue request name).map headerValue := by
  obtain ⟨rest, blank⟩ := strstr_of_infix complete
  obtain ⟨line, found, -⟩ := strstr_crlf_of_blank blank
  have search : Search (lit name) line (findHeaderValue request name) := by
    rw [findHeaderValue, found]
    exact findHeaderLoop_search _ _ (strstr_split found).1 (strstr_split found).2.length_le
  refine ⟨⟨line, found, search⟩, headerText_lookup cr colon blank, ?_⟩
  rintro header body other rfl whole
  obtain ⟨rest, blank⟩ := strstr_of_infix whole
  exact (headerText_append cr blank other).trans (headerText_append cr blank body).symm

theorem header_lookup_contentLength :
    (findHeaderValue (lit "PUT / HTTP/1.1\r\nHost: a\r\ncontent-length:\t 12 \r\n\r\n345")
      "Content-Length").map headerValue = some (lit "12") := by
  have complete : blankLine <:+:
      lit "PUT / HTTP/1.1\r\nHost: a\r\ncontent-length:\t 12 \r\n\r\n345" :=
    ⟨lit "PUT / HTTP/1.1\r\nHost: a\r\ncontent-length:\t 12 ", lit "345", by decide⟩
  rw [(header_lookup (by decide) (by decide) complete).2.1]
  decide

end PicoCan.Http
