import PicoCan.Calls.Json

/-!
# Reading flat JSON objects

A strict reader of the grammar that `Json.objectText` writes: no blanks, strings of printable
ASCII without escapes, numbers without leading zeros. What is written reads back as itself, so
a text that was cut off does not pass for an object.
-/

namespace Calls.Json

/-! ## The reader -/

/-- What is left behind an expected text. -/
def expect (text s : Bytes) : Option Bytes :=
  if text.isPrefixOf s then some (s.drop text.length) else none

def isDigit (c : UInt8) : Bool := 48 ≤ c ∧ c ≤ 57

def ofDigits (digits : Bytes) : Nat := digits.foldl (fun n digit => 10 * n + (digit.toNat - 48)) 0

/-- Decimal digits, without a leading zero. -/
def readNat (s : Bytes) : Option (Nat × Bytes) :=
  let digits := s.takeWhile isDigit
  if digits = [] ∨ (digits.head? = some 48 ∧ digits ≠ [48]) then none
  else some (ofDigits digits, s.dropWhile isDigit)

def readInt (s : Bytes) : Option (Int × Bytes) :=
  match expect (lit "-") s with
  | some rest => (readNat rest).map fun (n, rest) => (-(n : Int), rest)
  | none => (readNat s).map fun (n, rest) => ((n : Int), rest)

/-- A character that stands for itself in a string. -/
def isPlain (c : UInt8) : Bool := 32 ≤ c ∧ c < 127 ∧ c ≠ 34 ∧ c ≠ 92

/-- The rest of a string, its closing quote included. -/
def readString (s : Bytes) : Option (Bytes × Bytes) :=
  (expect (lit "\"") (s.dropWhile isPlain)).map fun rest => (s.takeWhile isPlain, rest)

section
variable {α : Type} (item : Bytes → Option (α × Bytes)) (close : UInt8)

/-- One piece and all that follow it, up to the closing bracket. Each piece is at least its
separator long, so the text's length is enough fuel. -/
def readItems : (fuel : Nat) → Bytes → Option (List α × Bytes)
  | 0, _ => none
  | fuel + 1, s =>
      (item s).bind fun (a, s) =>
        match expect [close] s with
        | some rest => some ([a], rest)
        | none =>
            (expect (lit ",") s).bind fun s =>
              (readItems fuel s).map fun (as, rest) => (a :: as, rest)

/-- Pieces with commas between them, and the closing bracket. -/
def readList (s : Bytes) : Option (List α × Bytes) :=
  match expect [close] s with
  | some rest => some ([], rest)
  | none => readItems item close s.length s

end

def readValue (s : Bytes) : Option (Json × Bytes) :=
  match expect (lit "\"") s with
  | some rest => (readString rest).map fun (text, rest) => (.string text, rest)
  | none =>
    match expect (lit "[") s with
    | some rest => (readList readInt 93 rest).map fun (ns, rest) => (.numbers ns, rest)
    | none =>
      match expect (lit "true") s with
      | some rest => some (.bool true, rest)
      | none =>
        match expect (lit "false") s with
        | some rest => some (.bool false, rest)
        | none => (readInt s).map fun (n, rest) => (.number n, rest)

/-- The string of ASCII characters. -/
def ofAscii (bytes : Bytes) : String := String.ofList (bytes.map fun c => Char.ofNat c.toNat)

def readMember (s : Bytes) : Option ((String × Json) × Bytes) :=
  (expect (lit "\"") s).bind fun s =>
    (readString s).bind fun (name, s) =>
      (expect (lit ":") s).bind fun s =>
        (readValue s).map fun (value, rest) => ((ofAscii name, value), rest)

/-- The object a text is, if it is one and nothing else. -/
def readObject (s : Bytes) : Option Object :=
  (expect (lit "\x7b") s).bind fun s =>
    (readList readMember 125 s).bind fun (members, rest) => if rest = [] then some members else none

/-! ## Reading what was written -/

theorem expect_append (text s : Bytes) : expect text (text ++ s) = some s := by
  rw [expect, if_pos (List.isPrefixOf_iff_prefix.mpr (List.prefix_append text s)), List.drop_left]

theorem expect_other {c d : UInt8} (other : d ≠ c) (text s : Bytes) :
    expect (c :: text) (d :: s) = none := by
  rw [expect, if_neg]
  rw [List.isPrefixOf_iff_prefix, List.cons_prefix_cons]
  exact fun begins => other begins.1.symm

/-- The text goes on with a separator or a closing bracket. -/
def Delimited (rest : Bytes) : Prop := ∃ c tail, rest = c :: tail ∧ (c = 44 ∨ c = 93 ∨ c = 125)

/-- Reading `text` yields `a`, whatever delimiter follows. -/
def Reads {α : Type} (item : Bytes → Option (α × Bytes)) (text : Bytes) (a : α) : Prop :=
  ∀ rest, Delimited rest → item (text ++ rest) = some (a, rest)

theorem takeWhile_dropWhile_append {p : UInt8 → Bool} {front rest : Bytes}
    (all : ∀ c ∈ front, p c) (stop : ∀ c ∈ rest.head?, ¬ p c) :
    (front ++ rest).takeWhile p = front ∧ (front ++ rest).dropWhile p = rest := by
  induction front with
  | nil =>
      cases rest with
      | nil => exact ⟨rfl, rfl⟩
      | cons c rest =>
          have not : ¬ p c := stop c rfl
          exact ⟨List.takeWhile_cons_of_neg not, List.dropWhile_cons_of_neg not⟩
  | cons c front ih =>
      obtain ⟨takes, drops⟩ := ih fun d member => all d (List.mem_cons_of_mem c member)
      have first := all c List.mem_cons_self
      constructor
      · rw [List.cons_append, List.takeWhile_cons_of_pos first, takes]
      · rw [List.cons_append, List.dropWhile_cons_of_pos first, drops]

/-! ### Numbers -/

theorem digit_byte {d : Nat} (small : d < 10) :
    (d.digitChar.toNat.toUInt8 : UInt8) = UInt8.ofNat (48 + d) := by
  have all : ∀ d : Fin 10, (d.val.digitChar.toNat.toUInt8 : UInt8) = UInt8.ofNat (48 + d) := by
    decide
  exact all ⟨d, small⟩

/-- The last digit, behind the others. -/
theorem dec_step {n : Nat} (long : 10 ≤ n) :
    dec n = dec (n / 10) ++ [UInt8.ofNat (48 + n % 10)] := by
  rw [dec, dec, Nat.toDigits_of_base_le (by decide) long, List.map_append, List.map_singleton,
    digit_byte (Nat.mod_lt n (by decide))]

theorem dec_digit {n : Nat} (small : n < 10) : dec n = [UInt8.ofNat (48 + n)] := by
  rw [dec, Nat.toDigits_of_lt_base small, List.map_singleton, digit_byte small]

theorem dec_digits (n : Nat) : ∀ c ∈ dec n, isDigit c := by
  have digit {d : Nat} (small : d < 10) : isDigit (UInt8.ofNat (48 + d)) := by
    have all : ∀ d : Fin 10, isDigit (UInt8.ofNat (48 + d)) := by decide
    exact all ⟨d, small⟩
  induction n using Nat.strongRecOn with
  | ind n ih =>
      intro c member
      by_cases small : n < 10
      · rw [dec_digit small] at member
        rw [List.mem_singleton.mp member]
        exact digit small
      · rw [dec_step (by omega)] at member
        rcases List.mem_append.mp member with front | last
        · exact ih (n / 10) (by omega) c front
        · rw [List.mem_singleton.mp last]
          exact digit (Nat.mod_lt n (by decide))

/-- A positive number has no leading zero. -/
theorem dec_head {n : Nat} (pos : 0 < n) : ∃ c rest, dec n = c :: rest ∧ c ≠ 48 := by
  induction n using Nat.strongRecOn with
  | ind n ih =>
      by_cases small : n < 10
      · refine ⟨_, [], dec_digit small, fun zero => ?_⟩
        have value := congrArg UInt8.toNat zero
        rw [UInt8.toNat_ofNat'] at value
        have fortyEight : (48 : UInt8).toNat = 48 := rfl
        omega
      · obtain ⟨c, rest, digits, other⟩ := ih (n / 10) (by omega) (by omega)
        exact ⟨c, rest ++ _, by rw [dec_step (by omega), digits]; rfl, other⟩

/-- The digits are some, and lead with a zero only when that is all. -/
theorem dec_strict (n : Nat) : ¬ (dec n = [] ∨ ((dec n).head? = some 48 ∧ dec n ≠ [48])) := by
  by_cases zero : n = 0
  · subst zero
    decide
  · obtain ⟨c, rest, digits, other⟩ := dec_head (Nat.pos_of_ne_zero zero)
    rw [digits]
    rintro (empty | ⟨head, -⟩)
    · cases empty
    · exact other (Option.some.inj head)

theorem ofDigits_dec (n : Nat) : ofDigits (dec n) = n := by
  induction n using Nat.strongRecOn with
  | ind n ih =>
      by_cases small : n < 10
      · rw [dec_digit small]
        have value : (UInt8.ofNat (48 + n)).toNat = 48 + n := by
          rw [UInt8.toNat_ofNat']
          omega
        simp only [ofDigits, List.foldl_cons, List.foldl_nil, value]
        omega
      · have value : (UInt8.ofNat (48 + n % 10)).toNat = 48 + n % 10 := by
          rw [UInt8.toNat_ofNat']
          omega
        rw [dec_step (by omega), ofDigits, List.foldl_append, ← ofDigits, ih (n / 10) (by omega)]
        simp only [List.foldl_cons, List.foldl_nil, value]
        omega

theorem readNat_dec (n : Nat) : Reads readNat (dec n) n := by
  rintro _ ⟨c, tail, rfl, delimiter⟩
  have stop : ∀ d ∈ (c :: tail).head?, ¬ isDigit d := by
    rintro d ⟨⟩
    rcases delimiter with rfl | rfl | rfl <;> decide
  obtain ⟨takes, drops⟩ := takeWhile_dropWhile_append (dec_digits n) stop
  rw [readNat]
  simp only [takes, drops, if_neg (dec_strict n), ofDigits_dec]

theorem readInt_decInt (n : Int) : Reads readInt (decInt n) n := by
  intro rest delimited
  by_cases negative : n < 0
  · have value : -((n.natAbs : Nat) : Int) = n := by omega
    rw [decInt, if_pos negative, List.append_assoc, readInt, expect_append]
    simp only [readNat_dec n.natAbs rest delimited, Option.map_some, value]
  · have value : ((n.natAbs : Nat) : Int) = n := by omega
    have unsigned : expect (lit "-") (dec n.natAbs ++ rest) = none := by
      cases digits : dec n.natAbs with
      | nil => exact absurd (.inl digits) (dec_strict n.natAbs)
      | cons d more =>
          have digit := dec_digits n.natAbs d (digits ▸ List.mem_cons_self)
          refine expect_other (fun minus => ?_) [] _
          rw [minus] at digit
          exact absurd digit (by decide)
    rw [decInt, if_neg negative, readInt, unsigned]
    simp only [readNat_dec n.natAbs rest delimited, Option.map_some, value]

/-! ### Lists -/

section
variable {α : Type} {item : Bytes → Option (α × Bytes)} {write : α → Bytes} {close : UInt8}

theorem readItems_commaList (closes : close = 93 ∨ close = 125) (a : α) (as : List α)
    (reads : ∀ b ∈ a :: as, Reads item (write b) b) (fuel : Nat) (enough : as.length < fuel)
    (rest : Bytes) :
    readItems item close fuel (commaList ((a :: as).map write) ++ close :: rest) =
      some (a :: as, rest) := by
  induction as generalizing a fuel with
  | nil =>
      obtain ⟨fuel, rfl⟩ := Nat.exists_eq_add_one.mpr enough
      have closed : Delimited (close :: rest) := ⟨close, rest, rfl, .inr closes⟩
      have last := reads a List.mem_cons_self (close :: rest) closed
      have ended : expect [close] (close :: rest) = some rest := expect_append [close] rest
      simp only [List.map_cons, List.map_nil, commaList, List.flatMap_nil, List.append_nil,
        readItems, last, Option.bind_some, ended]
  | cons b as ih =>
      obtain ⟨fuel, rfl⟩ := Nat.exists_eq_add_one.mpr (Nat.zero_lt_of_lt enough)
      have split : commaList ((a :: b :: as).map write) ++ close :: rest =
          write a ++ (lit "," ++ (commaList ((b :: as).map write) ++ close :: rest)) := by
        simp only [List.map_cons, commaList, List.flatMap_cons, List.append_assoc]
      have goes : Delimited (lit "," ++ (commaList ((b :: as).map write) ++ close :: rest)) :=
        ⟨44, _, rfl, .inl rfl⟩
      have first := reads a List.mem_cons_self _ goes
      have open_end :
          expect [close] (lit "," ++ (commaList ((b :: as).map write) ++ close :: rest)) =
          none := by
        refine expect_other (d := 44) ?_ [] _
        rcases closes with rfl | rfl <;> decide
      have later := ih b (fun c member => reads c (List.mem_cons_of_mem a member)) fuel
        (Nat.lt_of_succ_lt_succ enough)
      rw [split, readItems, first]
      simp only [Option.bind_some, open_end, expect_append, later, Option.map_some]

theorem length_le_flatMap (pieces : List Bytes) :
    pieces.length ≤ (pieces.flatMap fun piece => lit "," ++ piece).length := by
  have comma : (lit ",").length = 1 := by decide
  induction pieces with
  | nil => exact Nat.le_refl 0
  | cons piece pieces ih =>
      rw [List.flatMap_cons, List.length_append, List.length_append, List.length_cons]
      omega

theorem readList_commaList (closes : close = 93 ∨ close = 125) (as : List α)
    (reads : ∀ a ∈ as, Reads item (write a) a)
    (starts : ∀ a ∈ as, ∃ c text, write a = c :: text ∧ c ≠ close) (rest : Bytes) :
    readList item close (commaList (as.map write) ++ close :: rest) = some (as, rest) := by
  cases as with
  | nil =>
      have ended : expect [close] (close :: rest) = some rest := expect_append [close] rest
      simp only [readList, List.map_nil, commaList, List.nil_append, ended]
  | cons a as =>
      obtain ⟨c, text, first, other⟩ := starts a List.mem_cons_self
      have front : commaList ((a :: as).map write) ++ close :: rest =
          c :: (text ++ ((as.map write).flatMap fun piece => lit "," ++ piece) ++
            close :: rest) := by
        simp only [List.map_cons, commaList, first, List.cons_append]
      have more : as.length < (commaList ((a :: as).map write) ++ close :: rest).length := by
        have commas := length_le_flatMap (as.map write)
        rw [List.length_map] at commas
        rw [front, List.length_cons, List.length_append, List.length_append]
        omega
      have items := readItems_commaList closes a as reads _ more rest
      rw [readList, show expect [close] (commaList ((a :: as).map write) ++ close :: rest) = none by
        rw [front]; exact expect_other other [] _]
      exact items

end

/-! ### Members and objects -/

theorem readString_plain {text : Bytes} (plain : text.all isPlain) (rest : Bytes) :
    readString (text ++ lit "\"" ++ rest) = some (text, rest) := by
  have stop : ∀ c ∈ (lit "\"" ++ rest).head?, ¬ isPlain c := by
    rintro c ⟨⟩
    decide
  obtain ⟨takes, drops⟩ := takeWhile_dropWhile_append (List.all_eq_true.mp plain) stop
  rw [List.append_assoc, readString, takes, drops, expect_append]
  rfl

/-- Strings are written without escapes. -/
def Plain : Json → Prop
  | .string text => text.all isPlain
  | _ => True

/-- A name of printable ASCII. -/
def PlainName (name : String) : Prop := (lit name).all isPlain ∧ ofAscii (lit name) = name

instance (name : String) : Decidable (PlainName name) := inferInstanceAs (Decidable (_ ∧ _))

theorem plain_of {object : Object} (names : ∀ name ∈ object.map Prod.fst, PlainName name)
    (values : ∀ value ∈ object.map Prod.snd, value.Plain) :
    ∀ member ∈ object, PlainName member.1 ∧ member.2.Plain := fun _ within =>
  ⟨names _ (List.mem_map_of_mem within), values _ (List.mem_map_of_mem within)⟩

theorem decInt_starts (n : Int) : ∃ c text, decInt n = c :: text ∧ (c = 45 ∨ isDigit c) := by
  by_cases negative : n < 0
  · exact ⟨45, dec n.natAbs, by rw [decInt, if_pos negative]; rfl, .inl rfl⟩
  · rw [decInt, if_neg negative]
    cases digits : dec n.natAbs with
    | nil => exact absurd (.inl digits) (dec_strict n.natAbs)
    | cons c rest =>
        exact ⟨c, rest, rfl, .inr (dec_digits n.natAbs c (digits ▸ List.mem_cons_self))⟩

theorem readValue_text {value : Json} (plain : value.Plain) : Reads readValue value.text value := by
  intro rest delimited
  cases value with
  | string text =>
      rw [Json.text, readValue, List.append_assoc, List.append_assoc, expect_append,
        ← List.append_assoc]
      simp only [readString_plain plain, Option.map_some]
  | bool b =>
      cases b with
      | true => rfl
      | false => rfl
  | numbers ns =>
      have string :
          expect (lit "\"") (lit "[" ++ (commaList (ns.map decInt) ++ 93 :: rest)) = none :=
        expect_other (by decide) [] _
      have list := readList_commaList (.inl rfl) ns (fun n _ => readInt_decInt n)
        (fun n _ => ?_) rest
      · rw [Json.text, List.append_assoc, List.append_assoc]
        show readValue (lit "[" ++ (commaList (ns.map decInt) ++ 93 :: rest)) = _
        rw [readValue, string, expect_append]
        simp only [list, Option.map_some]
      · obtain ⟨c, text, starts, first⟩ := decInt_starts n
        refine ⟨c, text, starts, ?_⟩
        rcases first with rfl | digit
        · decide
        · rintro rfl
          exact absurd digit (by decide)
  | number n =>
      obtain ⟨c, text, starts, first⟩ := decInt_starts n
      have other {d : UInt8} (minus : d ≠ 45) (letter : ¬ isDigit d) : c ≠ d := by
        rintro rfl
        exact first.elim minus letter
      have unlike {d : UInt8} (minus : d ≠ 45) (letter : ¬ isDigit d) (more : Bytes) :
          expect (d :: more) (decInt n ++ rest) = none := by
        rw [starts]
        exact expect_other (other minus letter) more _
      have string : expect (lit "\"") (decInt n ++ rest) = none :=
        unlike (d := 34) (by decide) (by decide) []
      have list : expect (lit "[") (decInt n ++ rest) = none :=
        unlike (d := 91) (by decide) (by decide) []
      have yes : expect (lit "true") (decInt n ++ rest) = none :=
        unlike (d := 116) (by decide) (by decide) (lit "rue")
      have no : expect (lit "false") (decInt n ++ rest) = none :=
        unlike (d := 102) (by decide) (by decide) (lit "alse")
      rw [Json.text, readValue, string, list, yes, no]
      simp only [readInt_decInt n rest delimited, Option.map_some]

theorem readMember_text {member : String × Json} (name : PlainName member.1)
    (plain : member.2.Plain) : Reads readMember (memberText member) member := by
  intro rest delimited
  have value := readValue_text plain rest delimited
  have split : memberText member ++ rest =
      lit "\"" ++ (lit member.1 ++ lit "\"" ++ (lit ":" ++ (member.2.text ++ rest))) := by
    have closing : lit "\":" = lit "\"" ++ lit ":" := by decide
    rw [memberText, closing]
    simp only [List.append_assoc]
  rw [split, readMember, expect_append]
  simp only [Option.bind_some, readString_plain name.1, expect_append, value, Option.map_some,
    name.2]

/-- An object that is written reads back as itself. -/
theorem readObject_objectText {object : Object}
    (plain : ∀ member ∈ object, PlainName member.1 ∧ member.2.Plain) :
    readObject (objectText object) = some object := by
  have members := readList_commaList (.inr rfl) object
    (fun member within => readMember_text (plain member within).1 (plain member within).2)
    (fun member _ => ⟨34, _, rfl, by decide⟩) []
  rw [readObject, objectText, List.append_assoc, expect_append]
  show (readList readMember 125 (commaList (object.map memberText) ++ [125])).bind _ = _
  rw [members]
  rfl

/-! ### No control characters -/

/-- A text without control characters, the terminator of a C string among them. -/
def Printable (text : Bytes) : Prop := text.all fun c => 32 ≤ c

theorem Printable.append {front rest : Bytes} (first : Printable front) (second : Printable rest) :
    Printable (front ++ rest) := by
  rw [Printable, List.all_append, Bool.and_eq_true]
  exact ⟨first, second⟩

theorem Printable.not_zero {text : Bytes} (printable : Printable text) : 0 ∉ text := fun zero =>
  absurd (List.all_eq_true.mp printable 0 zero) (by decide)

theorem printable_commaList {pieces : List Bytes} (each : ∀ piece ∈ pieces, Printable piece) :
    Printable (commaList pieces) := by
  have comma : Printable (lit ",") := by
    show (lit ",").all _ = true
    decide
  have rest (pieces : List Bytes) (each : ∀ piece ∈ pieces, Printable piece) :
      Printable (pieces.flatMap fun piece => lit "," ++ piece) := by
    induction pieces with
    | nil => rfl
    | cons piece pieces ih =>
        rw [List.flatMap_cons]
        exact (comma.append (each piece List.mem_cons_self)).append
          (ih fun later within => each later (List.mem_cons_of_mem _ within))
  cases pieces with
  | nil => rfl
  | cons first pieces =>
      exact (each first List.mem_cons_self).append
        (rest pieces fun later within => each later (List.mem_cons_of_mem _ within))

theorem printable_decInt (n : Int) : Printable (decInt n) := by
  have minus : Printable (lit "-") := by
    show (lit "-").all _ = true
    decide
  have digits : Printable (dec n.natAbs) := by
    refine List.all_eq_true.mpr fun c member => ?_
    have digit := dec_digits n.natAbs c member
    simp only [isDigit, decide_eq_true_eq] at digit
    exact decide_eq_true (UInt8.le_trans (by decide) digit.1)
  unfold decInt
  split
  · exact minus.append digits
  · exact digits

theorem printable_plain {text : Bytes} (plain : text.all isPlain) : Printable text := by
  refine List.all_eq_true.mpr fun c member => ?_
  have this := List.all_eq_true.mp plain c member
  simp only [isPlain, decide_eq_true_eq] at this
  exact decide_eq_true this.1

section
variable {opening closing : String}

/-- A text between two literals. -/
theorem printable_between {text : Bytes} (first : (lit opening).all fun c => 32 ≤ c)
    (inside : Printable text) (last : (lit closing).all fun c => 32 ≤ c) :
    Printable (lit opening ++ text ++ lit closing) :=
  (Printable.append first inside).append last

end

theorem printable_value {value : Json} (plain : value.Plain) : Printable value.text := by
  cases value with
  | string text => exact printable_between (by decide) (printable_plain plain) (by decide)
  | number n => exact printable_decInt n
  | bool b =>
      cases b with
      | true =>
          show (lit "true").all _ = true
          decide
      | false =>
          show (lit "false").all _ = true
          decide
  | numbers ns =>
      refine printable_between (by decide) (printable_commaList fun piece within => ?_) (by decide)
      obtain ⟨n, -, rfl⟩ := List.mem_map.mp within
      exact printable_decInt n

theorem printable_objectText {object : Object}
    (plain : ∀ member ∈ object, PlainName member.1 ∧ member.2.Plain) :
    Printable (objectText object) := by
  refine printable_between (by decide) (printable_commaList fun piece within => ?_) (by decide)
  obtain ⟨member, inside, rfl⟩ := List.mem_map.mp within
  exact (printable_between (by decide) (printable_plain (plain member inside).1.1)
    (by decide)).append (printable_value (plain member inside).2)

end Calls.Json
