import PicoCan.Http.Headers

/-!
# A request header and the bytes behind it

The routes look at the request as one string, which goes on behind the blank line with
however much of the body has been received. None of the functions looks that far: what
they find in a header they find in the header with anything behind it.
-/

namespace PicoCan.Http

open Calls

/-- The end of a header. -/
def blankLine : Bytes := lit "\r\n\r\n"

theorem crlf_eq : crlf = [13, 10] := by decide

theorem blankLine_eq : blankLine = [13, 10, 13, 10] := by decide

/-! ## Searching past other characters -/

/-- A character that does not begin the needle is passed over. -/
theorem strstr_skip {a : UInt8} {needle front : Bytes} (other : ∀ c ∈ front, c ≠ a) (s : Bytes) :
    strstr (a :: needle) (front ++ s) = strstr (a :: needle) s := by
  induction front with
  | nil => rfl
  | cons c front ih =>
      have differs : c ≠ a := other c List.mem_cons_self
      have here : ¬ (a :: needle).isPrefixOf (c :: (front ++ s)) := by
        rw [List.isPrefixOf_iff_prefix, List.cons_prefix_cons]
        exact fun begins => differs begins.1.symm
      rw [List.cons_append, strstr, if_neg here]
      exact ih fun c member => other c (List.mem_cons_of_mem _ member)

/-- A blank line has a line end in front of it, or begins with one. -/
theorem strstr_crlf_of_blank {s rest : Bytes} (blank : strstr blankLine s = some rest) :
    ∃ next, strstr crlf s = some next ∧ strstr blankLine next = some rest := by
  induction s with
  | nil => cases blank
  | cons c s ih =>
      by_cases here : crlf.isPrefixOf (c :: s)
      · exact ⟨c :: s, by rw [strstr, if_pos here], blank⟩
      · have later : ¬ blankLine.isPrefixOf (c :: s) := by
          intro begins
          have front : crlf <+: blankLine := by decide
          exact here (List.isPrefixOf_iff_prefix.mpr
            (front.trans (List.isPrefixOf_iff_prefix.mp begins)))
        rw [strstr, if_neg later] at blank
        obtain ⟨next, found, still⟩ := ih blank
        exact ⟨next, by rw [strstr, if_neg here]; exact found, still⟩

/-- A blank line that does not begin at a line end comes after it. -/
theorem strstr_blank_crlf {line : Bytes} (more : ¬ crlf.isPrefixOf line) :
    strstr blankLine (crlf ++ line) = strstr blankLine line := by
  have first : ¬ blankLine.isPrefixOf (13 :: 10 :: line) := by
    rw [List.isPrefixOf_iff_prefix, blankLine_eq, List.cons_prefix_cons, List.cons_prefix_cons,
      ← crlf_eq]
    exact fun begins => more (List.isPrefixOf_iff_prefix.mpr begins.2.2)
  have second : ¬ blankLine.isPrefixOf (10 :: line) := by
    rw [List.isPrefixOf_iff_prefix, blankLine_eq, List.cons_prefix_cons]
    exact fun begins => absurd begins.1 (by decide)
  rw [crlf_eq, List.cons_append, List.cons_append, List.nil_append, strstr, if_neg first, strstr,
    if_neg second]

theorem strstr_blank_behind {line rest : Bytes} (more : ¬ crlf.isPrefixOf line)
    (blank : strstr blankLine (crlf ++ line) = some rest) : strstr blankLine line = some rest := by
  rwa [strstr_blank_crlf more] at blank

theorem mem_of_blank {s rest : Bytes} (blank : strstr blankLine s = some rest) : 13 ∈ s := by
  obtain ⟨⟨behind, split⟩, back⟩ := strstr_split blank
  refine back.subset ?_
  rw [← split, blankLine_eq]
  exact List.mem_cons_self

/-! ## Comparing -/

/-- A text of another character ends a comparison before the string's end. -/
theorem startsWith_append {text : String} {s : Bytes} (cr : 13 ∈ s) (free : 13 ∉ lit text)
    (tail : Bytes) : startsWith (s ++ tail) text = startsWith s text := by
  unfold startsWith
  rw [Bool.eq_iff_iff, List.isPrefixOf_iff_prefix, List.isPrefixOf_iff_prefix]
  constructor
  · intro begins
    by_cases short : (lit text).length ≤ s.length
    · exact List.prefix_of_prefix_length_le begins (List.prefix_append s tail) short
    · have whole := List.prefix_of_prefix_length_le (List.prefix_append s tail) begins
        (Nat.le_of_not_le short)
      exact absurd (whole.subset cr) free
  · exact fun begins => begins.trans (List.prefix_append s tail)

/-- A request does not begin with two texts that are not prefixes of each other. -/
theorem startsWith_exclusive {request : Bytes} {text other : String}
    (differ : ¬ (lit text <+: lit other ∨ lit other <+: lit text))
    (begins : startsWith request text) : ¬ startsWith request other := by
  intro begins'
  have front := List.isPrefixOf_iff_prefix.mp begins
  have front' := List.isPrefixOf_iff_prefix.mp begins'
  rcases Nat.le_total (lit text).length (lit other).length with short | short
  · exact differ (.inl (List.prefix_of_prefix_length_le front front' short))
  · exact differ (.inr (List.prefix_of_prefix_length_le front' front short))

theorem asciiTolower_cr {b : UInt8} (same : asciiTolower 13 = asciiTolower b) : b = 13 := by
  have all : ∀ n : Fin 256, asciiTolower 13 = asciiTolower (UInt8.ofNat n) →
      UInt8.ofNat n = 13 := by decide +kernel
  have this := all ⟨b.toNat, b.toNat_lt⟩
  rw [UInt8.ofNat_toNat] at this
  exact this same

/-- A name that matches is shorter than the line and free of line ends. -/
theorem asciiCaseEqual_front {line name : Bytes} (free : 13 ∉ name)
    (equal : asciiCaseEqual line name) :
    name.length ≤ line.length ∧ ∀ c ∈ line.take name.length, c ≠ 13 := by
  induction name generalizing line with
  | nil => exact ⟨Nat.zero_le _, fun c member => absurd member List.not_mem_nil⟩
  | cons b name ih =>
      cases line with
      | nil => cases equal
      | cons a line =>
          rw [asciiCaseEqual, Bool.and_eq_true, decide_eq_true_eq] at equal
          obtain ⟨fits, front⟩ := ih (fun member => free (List.mem_cons_of_mem _ member)) equal.2
          refine ⟨Nat.succ_le_succ fits, fun c member => ?_⟩
          rcases List.mem_cons.mp member with rfl | later
          · rintro rfl
            exact free (asciiTolower_cr equal.1 ▸ List.mem_cons_self)
          · exact front c later

theorem asciiCaseEqual_shorter {line name : Bytes} (cr : 13 ∈ line) (free : 13 ∉ name)
    (equal : asciiCaseEqual line name) : name.length < line.length := by
  obtain ⟨fits, front⟩ := asciiCaseEqual_front free equal
  by_cases whole : name.length = line.length
  · rw [whole, List.take_length] at front
    exact absurd rfl (front 13 cr)
  · omega

theorem asciiCaseEqual_append {line name : Bytes} (cr : 13 ∈ line) (free : 13 ∉ name)
    (tail : Bytes) : asciiCaseEqual (line ++ tail) name = asciiCaseEqual line name := by
  induction name generalizing line with
  | nil => cases line <;> cases tail <;> rfl
  | cons b name ih =>
      cases line with
      | nil => exact absurd cr List.not_mem_nil
      | cons a line =>
          rw [List.cons_append, asciiCaseEqual, asciiCaseEqual]
          by_cases same : asciiTolower a = asciiTolower b
          · have later : 13 ∈ line := by
              rcases List.mem_cons.mp cr with rfl | later
              · exact absurd (asciiTolower_cr same ▸ List.mem_cons_self) free
              · exact later
            rw [ih later fun member => free (List.mem_cons_of_mem _ member)]
          · rw [decide_eq_false same]
            rfl

/-! ## The value of a header -/

/-- A line that has the name and the colon: the value begins behind it, before the blank line. -/
theorem value_append {line rest name : Bytes} (free : 13 ∉ name)
    (equal : asciiCaseEqual line name) (colon : (line)[name.length]? = some 58)
    (blank : strstr blankLine line = some rest) :
    ∃ value, (line.drop (name.length + 1)).dropWhile isBlank = value ∧
      strstr blankLine value = some rest ∧ ∀ tail,
        ((line ++ tail).drop (name.length + 1)).dropWhile isBlank = value ++ tail := by
  obtain ⟨fits, front⟩ := asciiCaseEqual_front free equal
  obtain ⟨inside, at_colon⟩ := List.getElem?_eq_some_iff.mp colon
  have clean : ∀ c ∈ line.take (name.length + 1), c ≠ 13 := by
    intro c member
    rw [List.take_succ_eq_append_getElem inside, at_colon] at member
    rcases List.mem_append.mp member with before | last
    · exact front c before
    · rw [List.mem_singleton.mp last]
      decide
  have behind : strstr blankLine (line.drop (name.length + 1)) = some rest := by
    rw [← List.take_append_drop (name.length + 1) line, blankLine_eq, strstr_skip clean,
      ← blankLine_eq] at blank
    exact blank
  generalize dropped : line.drop (name.length + 1) = text at behind
  have blanks : ∀ c ∈ text.takeWhile isBlank, c ≠ 13 := by
    rintro _ member rfl
    exact absurd (List.all_eq_true.mp List.all_takeWhile 13 member) (by decide)
  have value : strstr blankLine (text.dropWhile isBlank) = some rest := by
    rw [← List.takeWhile_append_dropWhile (p := isBlank) (l := text), blankLine_eq,
      strstr_skip blanks, ← blankLine_eq] at behind
    exact behind
  refine ⟨_, rfl, value, fun tail => ?_⟩
  have filled : ¬ (text.dropWhile isBlank).isEmpty := by
    intro empty
    rw [List.isEmpty_iff.mp empty] at value
    cases value
  rw [List.drop_append_of_le_length (by omega), dropped, List.dropWhile_append, if_neg filled]

theorem findHeaderLoop_append {name : Bytes} (free : 13 ∉ name) (fuel fuel' : Nat)
    {line rest : Bytes} (starts : crlf <+: line) (blank : strstr blankLine line = some rest)
    (enough : line.length ≤ fuel) (enough' : line.length ≤ fuel') :
    (findHeaderLoop name fuel line = none ∧
      ∀ tail, findHeaderLoop name fuel' (line ++ tail) = none) ∨
    ∃ value rest', findHeaderLoop name fuel line = some value ∧
      strstr blankLine value = some rest' ∧
      ∀ tail, findHeaderLoop name fuel' (line ++ tail) = some (value ++ tail) := by
  induction fuel generalizing fuel' line with
  | zero =>
      have two : 2 ≤ line.length := starts.length_le
      omega
  | succ fuel ih =>
      obtain ⟨line', rfl⟩ := starts
      have two : (crlf ++ line').length = 2 + line'.length := List.length_append
      obtain ⟨fuel', rfl⟩ := Nat.exists_eq_add_one.mpr (show 0 < fuel' by omega)
      have front (s : Bytes) : (crlf ++ s).drop 2 = s := rfl
      -- the blank line ends the search, with more behind it as without
      by_cases last : crlf.isPrefixOf line'
      · refine .inl ⟨?_, fun tail => ?_⟩
        · rw [findHeaderLoop, front, if_pos last]
        · have still : crlf.isPrefixOf (line' ++ tail) := List.isPrefixOf_iff_prefix.mpr
            ((List.isPrefixOf_iff_prefix.mp last).trans (List.prefix_append line' tail))
          rw [List.append_assoc, findHeaderLoop, front, if_pos still]
      · have later := strstr_blank_behind last blank
        have cr := mem_of_blank later
        have open_end (tail : Bytes) : ¬ crlf.isPrefixOf (line' ++ tail) := by
          intro begins
          have long : crlf.length ≤ line'.length := by
            have blank_length := (strstr_split later).1.length_le
            have back := (strstr_split later).2.length_le
            have : crlf.length ≤ blankLine.length := by decide
            omega
          exact last (List.isPrefixOf_iff_prefix.mpr (List.prefix_of_prefix_length_le
            (List.isPrefixOf_iff_prefix.mp begins) (List.prefix_append line' tail) long))
        -- otherwise the line is long enough that only its own bytes decide whether it matches
        by_cases matched : asciiCaseEqual line' name && (line')[name.length]? = some 58
        · have both := Bool.and_eq_true_iff.mp matched
          have colon := of_decide_eq_true both.2
          obtain ⟨value, is, kept, appended⟩ := value_append free both.1 colon later
          refine .inr ⟨value, rest, ?_, kept, fun tail => ?_⟩
          · rw [findHeaderLoop, front, if_neg last, if_pos matched, is]
          · have inside := (List.getElem?_eq_some_iff.mp colon).1
            have still : asciiCaseEqual (line' ++ tail) name &&
                (line' ++ tail)[name.length]? = some 58 := by
              rw [asciiCaseEqual_append cr free, List.getElem?_append_left inside]
              exact matched
            rw [List.append_assoc, findHeaderLoop, front, if_neg (open_end tail), if_pos still,
              appended]
        · have different (tail : Bytes) : ¬ (asciiCaseEqual (line' ++ tail) name &&
              (line' ++ tail)[name.length]? = some 58) := by
            rw [asciiCaseEqual_append cr free]
            by_cases equal : asciiCaseEqual line' name
            · rw [List.getElem?_append_left (asciiCaseEqual_shorter cr free equal)]
              exact matched
            · simp [equal]
          obtain ⟨next, found, still⟩ := strstr_crlf_of_blank later
          have shorter := (strstr_split found).2.length_le
          have goes_on (tail : Bytes) : findHeaderLoop name (fuel' + 1) (crlf ++ line' ++ tail) =
              findHeaderLoop name fuel' (next ++ tail) := by
            rw [List.append_assoc, findHeaderLoop, front, if_neg (open_end tail),
              if_neg (different tail), strstr_append found]
          have here : findHeaderLoop name (fuel + 1) (crlf ++ line') =
              findHeaderLoop name fuel next := by
            rw [findHeaderLoop, front, if_neg last, if_neg matched, found]
          rw [here]
          rcases ih fuel' (strstr_split found).1 still (by omega) (by omega) with
            ⟨none, nones⟩ | ⟨value, rest', some, kept, somes⟩
          · exact .inl ⟨none, fun tail => (goes_on tail).trans (nones tail)⟩
          · exact .inr ⟨value, rest', some, kept, fun tail => (goes_on tail).trans (somes tail)⟩

/-- A header's value is found with anything behind the blank line, and goes on with it. -/
theorem findHeaderValue_append {name : String} (free : 13 ∉ lit name) {s rest : Bytes}
    (blank : strstr blankLine s = some rest) :
    (findHeaderValue s name = none ∧ ∀ tail, findHeaderValue (s ++ tail) name = none) ∨
    ∃ value rest', findHeaderValue s name = some value ∧ strstr blankLine value = some rest' ∧
      ∀ tail, findHeaderValue (s ++ tail) name = some (value ++ tail) := by
  obtain ⟨line, found, still⟩ := strstr_crlf_of_blank blank
  have shorter := (strstr_split found).2.length_le
  have here : findHeaderValue s name = findHeaderLoop (lit name) s.length line := by
    rw [findHeaderValue, found]
  have appended (tail : Bytes) : findHeaderValue (s ++ tail) name =
      findHeaderLoop (lit name) (s ++ tail).length (line ++ tail) := by
    rw [findHeaderValue, strstr_append found]
  have longer (tail : Bytes) : line.length ≤ (s ++ tail).length := by
    rw [List.length_append]
    omega
  have each (tail : Bytes) := findHeaderLoop_append free s.length (s ++ tail).length
    (strstr_split found).1 still shorter (longer tail)
  rw [here]
  rcases each [] with ⟨none, -⟩ | ⟨value, rest', some, kept, -⟩
  · refine .inl ⟨none, fun tail => ?_⟩
    rw [appended]
    rcases each tail with ⟨-, nones⟩ | ⟨value, rest', some, -⟩
    · exact nones tail
    · rw [none] at some
      cases some
  · refine .inr ⟨value, rest', some, kept, fun tail => ?_⟩
    rw [appended]
    rcases each tail with ⟨none, -⟩ | ⟨value', _, some', -, somes⟩
    · rw [none] at some
      cases some
    · rw [some] at some'
      obtain rfl := Option.some.inj some'
      exact somes tail

theorem trimEnd_le (value : Bytes) (n : Nat) : trimEnd value n ≤ n := by
  induction n with
  | zero => exact Nat.le_refl _
  | succ n ih =>
      rw [trimEnd]
      split
      · exact Nat.le_succ_of_le ih
      · exact Nat.le_refl _

theorem trimEnd_append {value : Bytes} (tail : Bytes) (n : Nat) (inside : n ≤ value.length) :
    trimEnd (value ++ tail) n = trimEnd value n := by
  induction n with
  | zero => rfl
  | succ n ih =>
      rw [trimEnd, trimEnd, List.getElem?_append_left (by omega), ih (by omega)]

/-- A value ends in front of its line end, whatever follows. -/
theorem headerValueLen_append {value rest : Bytes} (blank : strstr blankLine value = some rest)
    (tail : Bytes) : headerValueLen value ≤ value.length ∧
      headerValueLen (value ++ tail) = headerValueLen value := by
  obtain ⟨next, found, -⟩ := strstr_crlf_of_blank blank
  have back := (strstr_split found).2.length_le
  have at_end : (value ++ tail).length - (next ++ tail).length = value.length - next.length := by
    simp only [List.length_append]
    omega
  constructor
  · rw [headerValueLen, found]
    exact Nat.le_trans (trimEnd_le _ _) (Nat.sub_le _ _)
  · rw [headerValueLen, headerValueLen, strstr_append found, found]
    simp only [at_end]
    exact trimEnd_append tail _ (Nat.sub_le _ _)

theorem headerValue_append {value rest : Bytes} (blank : strstr blankLine value = some rest)
    (tail : Bytes) : headerValue (value ++ tail) = headerValue value := by
  obtain ⟨inside, same⟩ := headerValueLen_append blank tail
  rw [headerValue, headerValue, same, List.take_append_of_le_length inside]

/-- The text of a header. -/
def headerText (s : Bytes) (name : String) : Option Bytes :=
  (findHeaderValue s name).map headerValue

theorem headerText_append {name : String} (free : 13 ∉ lit name) {s rest : Bytes}
    (blank : strstr blankLine s = some rest) (tail : Bytes) :
    headerText (s ++ tail) name = headerText s name := by
  unfold headerText
  rcases findHeaderValue_append free blank with ⟨none, nones⟩ | ⟨value, rest', some, kept, somes⟩
  · rw [none, nones]
  · rw [some, somes, Option.map_some, Option.map_some, headerValue_append kept]

end PicoCan.Http
