import PicoCan.Calls.Text

/-!
# DNS messages

A message as its receiver sees it (`Message`), what it looks like on the wire (`encode`) and
a decoder that takes a packet apart again and leaves nothing over (`decode`). Names are
written in full: a packet with a compressed name is not accepted. `decode_encode` says that a
valid message survives.
-/

namespace Calls

namespace Dns

/-- The labels of a name, without the root. -/
abbrev Name := List Bytes

/-- The address of an `A` record. -/
structure Ipv4 where
  a : UInt8
  b : UInt8
  c : UInt8
  d : UInt8
deriving DecidableEq

/-- The data of a record, by its type. -/
inductive RData
  | a (address : Ipv4)
  | ptr (target : Name)
  | txt (strings : List Bytes)
  | srv (priority weight port : UInt16) (target : Name)
deriving DecidableEq

structure Question where
  name : Name
  type : UInt16
  cls : UInt16
deriving DecidableEq

structure Record where
  name : Name
  cls : UInt16
  ttl : UInt32
  data : RData
deriving DecidableEq

structure Message where
  id : UInt16
  flags : UInt16
  questions : List Question := []
  answers : List Record := []
  authorities : List Record := []
  additionals : List Record := []
deriving DecidableEq

/-! ## Writing -/

/-- A number in two bytes, the more significant one first. -/
def be16 (n : UInt16) : Bytes := [(n.toNat / 256).toUInt8, n.toNat.toUInt8]

def be32 (n : UInt32) : Bytes :=
  [(n.toNat / 16777216).toUInt8, (n.toNat / 65536).toUInt8, (n.toNat / 256).toUInt8,
    n.toNat.toUInt8]

/-- A text behind its length. -/
def counted (text : Bytes) : Bytes := text.length.toUInt8 :: text

def encodeName (name : Name) : Bytes := name.flatMap counted ++ [0]

def RData.type : RData → UInt16
  | .a _ => 1
  | .ptr _ => 12
  | .txt _ => 16
  | .srv _ _ _ _ => 33

def encodeData : RData → Bytes
  | .a address => [address.a, address.b, address.c, address.d]
  | .ptr target => encodeName target
  | .txt strings => strings.flatMap counted
  | .srv priority weight port target =>
      be16 priority ++ be16 weight ++ be16 port ++ encodeName target

def encodeQuestion (question : Question) : Bytes :=
  encodeName question.name ++ be16 question.type ++ be16 question.cls

/-- The length field says how many bytes of data follow. -/
def encodeRecord (record : Record) : Bytes :=
  encodeName record.name ++ be16 record.data.type ++ be16 record.cls ++ be32 record.ttl ++
    be16 (encodeData record.data).length.toUInt16 ++ encodeData record.data

def encode (message : Message) : Bytes :=
  be16 message.id ++ be16 message.flags ++ be16 message.questions.length.toUInt16 ++
    be16 message.answers.length.toUInt16 ++ be16 message.authorities.length.toUInt16 ++
    be16 message.additionals.length.toUInt16 ++ message.questions.flatMap encodeQuestion ++
    message.answers.flatMap encodeRecord ++ message.authorities.flatMap encodeRecord ++
    message.additionals.flatMap encodeRecord

/-- An answer stands in its message as a whole. -/
theorem encode_answer {message : Message} {record : Record} (member : record ∈ message.answers) :
    ∃ before behind, encode message = before ++ encodeRecord record ++ behind := by
  obtain ⟨front, rest, split⟩ := List.append_of_mem member
  refine ⟨be16 message.id ++ be16 message.flags ++ be16 message.questions.length.toUInt16 ++
    be16 message.answers.length.toUInt16 ++ be16 message.authorities.length.toUInt16 ++
    be16 message.additionals.length.toUInt16 ++ message.questions.flatMap encodeQuestion ++
    front.flatMap encodeRecord, rest.flatMap encodeRecord ++
    message.authorities.flatMap encodeRecord ++ message.additionals.flatMap encodeRecord, ?_⟩
  have answers : message.answers.flatMap encodeRecord =
      front.flatMap encodeRecord ++ (encodeRecord record ++ rest.flatMap encodeRecord) := by
    rw [split, List.flatMap_append, List.flatMap_cons]
  unfold encode
  rw [answers]
  simp only [List.append_assoc]

/-! ## Reading -/

/-- A reader takes what it reads off the front. -/
abbrev Reader (α : Type) := Bytes → Option (α × Bytes)

def readU16 : Reader UInt16
  | a :: b :: rest => some ((a.toNat * 256 + b.toNat).toUInt16, rest)
  | _ => none

def readU32 : Reader UInt32
  | a :: b :: c :: d :: rest =>
      some ((a.toNat * 16777216 + b.toNat * 65536 + c.toNat * 256 + d.toNat).toUInt32, rest)
  | _ => none

def readCounted : Reader Bytes
  | [] => none
  | length :: rest =>
      if length.toNat ≤ rest.length then some (rest.take length.toNat, rest.drop length.toNat)
      else none

/-- Labels up to the root. A length above 63 is no label. -/
def readLabels : (fuel : Nat) → Reader Name
  | 0, _ => none
  | _ + 1, [] => none
  | fuel + 1, length :: rest =>
      if length = 0 then some ([], rest)
      else if length.toNat > 63 then none
      else do
        let (label, rest) ← readCounted (length :: rest)
        let (more, rest) ← readLabels fuel rest
        some (label :: more, rest)

/-- A name takes no more than 255 bytes. -/
def readName : Reader Name := fun bytes => do
  let (name, rest) ← readLabels bytes.length bytes
  if (encodeName name).length ≤ 255 then some (name, rest) else none

/-- Character strings up to the end. -/
def readStrings : (fuel : Nat) → Bytes → Option (List Bytes)
  | _, [] => some []
  | 0, _ => none
  | fuel + 1, bytes => do
      let (text, rest) ← readCounted bytes
      let more ← readStrings fuel rest
      some (text :: more)

/-- What is read is all there is. -/
def whole {α : Type} (read : Reader α) (bytes : Bytes) : Option α := do
  let (a, rest) ← read bytes
  if rest = [] then some a else none

def readA : Reader Ipv4
  | a :: b :: c :: d :: rest => some (⟨a, b, c, d⟩, rest)
  | _ => none

def readSrv : Reader RData := fun bytes => do
  let (priority, bytes) ← readU16 bytes
  let (weight, bytes) ← readU16 bytes
  let (port, bytes) ← readU16 bytes
  let (target, bytes) ← readName bytes
  some (.srv priority weight port target, bytes)

/-- The data of a record must fill the length of its field. -/
def decodeData (type : UInt16) (data : Bytes) : Option RData :=
  if type = 1 then (whole readA data).map .a
  else if type = 12 then (whole readName data).map .ptr
  else if type = 16 then
    if data = [] then none else (readStrings data.length data).map .txt
  else if type = 33 then whole readSrv data
  else none

def readQuestion : Reader Question := fun bytes => do
  let (name, bytes) ← readName bytes
  let (type, bytes) ← readU16 bytes
  let (cls, bytes) ← readU16 bytes
  some ({ name, type, cls }, bytes)

def readRecord : Reader Record := fun bytes => do
  let (name, bytes) ← readName bytes
  let (type, bytes) ← readU16 bytes
  let (cls, bytes) ← readU16 bytes
  let (ttl, bytes) ← readU32 bytes
  let (length, bytes) ← readU16 bytes
  if length.toNat ≤ bytes.length then
    let data ← decodeData type (bytes.take length.toNat)
    some ({ name, cls, ttl, data }, bytes.drop length.toNat)
  else none

def readMany {α : Type} (read : Reader α) : (n : Nat) → Reader (List α)
  | 0, bytes => some ([], bytes)
  | n + 1, bytes => do
      let (a, bytes) ← read bytes
      let (more, bytes) ← readMany read n bytes
      some (a :: more, bytes)

def readMessage : Reader Message := fun bytes => do
  let (id, bytes) ← readU16 bytes
  let (flags, bytes) ← readU16 bytes
  let (questions, bytes) ← readU16 bytes
  let (answers, bytes) ← readU16 bytes
  let (authorities, bytes) ← readU16 bytes
  let (additionals, bytes) ← readU16 bytes
  let (questions, bytes) ← readMany readQuestion questions.toNat bytes
  let (answers, bytes) ← readMany readRecord answers.toNat bytes
  let (authorities, bytes) ← readMany readRecord authorities.toNat bytes
  let (additionals, bytes) ← readMany readRecord additionals.toNat bytes
  some ({ id, flags, questions, answers, authorities, additionals }, bytes)

/-- A packet is one message and nothing else. -/
def decode (packet : Bytes) : Option Message := whole readMessage packet

/-! ## What can be written -/

/-- A name within the limits of its labels and of the whole. -/
structure ValidName (name : Name) : Prop where
  labels : ∀ label ∈ name, label ≠ [] ∧ label.length ≤ 63
  short : (encodeName name).length ≤ 255

/-- Data that its fields can hold. -/
def ValidData : RData → Prop
  | .a _ => True
  | .ptr target => ValidName target
  | .txt strings => strings ≠ [] ∧ ∀ text ∈ strings, text.length ≤ 255
  | .srv _ _ _ target => ValidName target

structure ValidRecord (record : Record) : Prop where
  name : ValidName record.name
  data : ValidData record.data
  length : (encodeData record.data).length < 2 ^ 16

structure Valid (message : Message) : Prop where
  questions : ∀ question ∈ message.questions, ValidName question.name
  answers : ∀ record ∈ message.answers, ValidRecord record
  authorities : ∀ record ∈ message.authorities, ValidRecord record
  additionals : ∀ record ∈ message.additionals, ValidRecord record
  counts : message.questions.length < 2 ^ 16 ∧ message.answers.length < 2 ^ 16 ∧
    message.authorities.length < 2 ^ 16 ∧ message.additionals.length < 2 ^ 16

/-! ## What is written is read -/

/-- A reader takes off the front just what was written. -/
def Reads {α : Type} (read : Reader α) (bytes : Bytes) (a : α) : Prop :=
  ∀ rest, read (bytes ++ rest) = some (a, rest)

theorem reads_be16 (n : UInt16) : Reads readU16 (be16 n) n := by
  intro rest
  have small := n.toNat_lt
  have joined : (n.toNat / 256).toUInt8.toNat * 256 + n.toNat.toUInt8.toNat = n.toNat := by
    simp only [Nat.toUInt8, UInt8.toNat_ofNat']
    omega
  show some (((n.toNat / 256).toUInt8.toNat * 256 + n.toNat.toUInt8.toNat).toUInt16, rest) = _
  rw [joined, Nat.toUInt16, UInt16.ofNat_toNat]

theorem reads_be32 (n : UInt32) : Reads readU32 (be32 n) n := by
  intro rest
  have small := n.toNat_lt
  have joined : (n.toNat / 16777216).toUInt8.toNat * 16777216 +
      (n.toNat / 65536).toUInt8.toNat * 65536 + (n.toNat / 256).toUInt8.toNat * 256 +
      n.toNat.toUInt8.toNat = n.toNat := by
    simp only [Nat.toUInt8, UInt8.toNat_ofNat']
    omega
  show some (((n.toNat / 16777216).toUInt8.toNat * 16777216 +
    (n.toNat / 65536).toUInt8.toNat * 65536 + (n.toNat / 256).toUInt8.toNat * 256 +
    n.toNat.toUInt8.toNat).toUInt32, rest) = _
  rw [joined, Nat.toUInt32, UInt32.ofNat_toNat]

theorem reads_counted {text : Bytes} (short : text.length ≤ 255) :
    Reads readCounted (counted text) text := by
  intro rest
  have length : text.length.toUInt8.toNat = text.length := by
    simp only [Nat.toUInt8, UInt8.toNat_ofNat']
    omega
  show (if text.length.toUInt8.toNat ≤ (text ++ rest).length then
    some ((text ++ rest).take text.length.toUInt8.toNat,
      (text ++ rest).drop text.length.toUInt8.toNat) else none) = _
  rw [length, if_pos (by rw [List.length_append]; omega), List.take_left, List.drop_left]

theorem reads_labels {name : Name} (valid : ∀ label ∈ name, label ≠ [] ∧ label.length ≤ 63)
    {fuel : Nat} (enough : name.length < fuel) (rest : Bytes) :
    readLabels fuel (encodeName name ++ rest) = some (name, rest) := by
  induction name generalizing fuel with
  | nil =>
      obtain ⟨fuel, rfl⟩ := Nat.exists_eq_add_one.mpr enough
      rfl
  | cons label name ih =>
      obtain ⟨fuel, rfl⟩ := Nat.exists_eq_add_one.mpr (Nat.lt_of_le_of_lt (Nat.zero_le _) enough)
      obtain ⟨filled, short⟩ := valid label List.mem_cons_self
      have some := List.length_pos_iff.mpr filled
      have length : label.length.toUInt8.toNat = label.length := by
        simp only [Nat.toUInt8, UInt8.toNat_ofNat']
        omega
      have nonzero : label.length.toUInt8 ≠ 0 := by
        intro zero
        rw [zero] at length
        exact Nat.ne_of_lt some length
      have split : encodeName (label :: name) ++ rest =
          counted label ++ (encodeName name ++ rest) := by
        simp only [encodeName, List.flatMap_cons, List.append_assoc]
      have first := reads_counted (show label.length ≤ 255 by omega) (encodeName name ++ rest)
      have later := ih (fun other member => valid other (List.mem_cons_of_mem _ member))
        (Nat.lt_of_succ_lt_succ enough)
      rw [split]
      show (if label.length.toUInt8 = 0 then _ else if label.length.toUInt8.toNat > 63 then _ else
        (readCounted (counted label ++ (encodeName name ++ rest))).bind fun (text, rest) =>
          (readLabels fuel rest).bind fun (more, rest) => Option.some (text :: more, rest)) = _
      rw [if_neg nonzero, if_neg (by omega), first, Option.bind_some]
      simp only [later, Option.bind_some]

/-- Every text takes at least the byte of its length. -/
theorem length_le_flatMap_counted (texts : List Bytes) :
    texts.length ≤ (texts.flatMap counted).length := by
  induction texts with
  | nil => exact Nat.le_refl 0
  | cons text texts ih =>
      rw [List.flatMap_cons, List.length_append, counted, List.length_cons, List.length_cons]
      omega

theorem reads_name {name : Name} (valid : ValidName name) :
    Reads readName (encodeName name) name := by
  intro rest
  have enough : name.length < (encodeName name ++ rest).length := by
    have each := length_le_flatMap_counted name
    rw [List.length_append, encodeName, List.length_append, List.length_singleton]
    omega
  show (readLabels _ _).bind _ = _
  rw [reads_labels valid.labels enough, Option.bind_some]
  exact if_pos valid.short

theorem reads_strings {strings : List Bytes} (short : ∀ text ∈ strings, text.length ≤ 255)
    {fuel : Nat} (enough : strings.length ≤ fuel) :
    readStrings fuel (strings.flatMap counted) = some strings := by
  induction strings generalizing fuel with
  | nil => cases fuel <;> rfl
  | cons text strings ih =>
      obtain ⟨fuel, rfl⟩ := Nat.exists_eq_add_one.mpr (Nat.lt_of_lt_of_le (Nat.succ_pos _) enough)
      have first := reads_counted (short text List.mem_cons_self) (strings.flatMap counted)
      have later := ih (fun other member => short other (List.mem_cons_of_mem _ member))
        (Nat.le_of_succ_le_succ enough)
      rw [List.flatMap_cons]
      show (readCounted (counted text ++ strings.flatMap counted)).bind (fun (text, rest) =>
        (readStrings fuel rest).bind fun more => Option.some (text :: more)) = _
      rw [first, Option.bind_some]
      simp only [later, Option.bind_some]

theorem Reads.whole {α : Type} {read : Reader α} {bytes : Bytes} {a : α}
    (reads : Reads read bytes a) : Dns.whole read bytes = some a := by
  have all := reads []
  rw [List.append_nil] at all
  show (read bytes).bind _ = _
  rw [all, Option.bind_some]
  exact if_pos rfl

theorem reads_srv (priority weight port : UInt16) {target : Name} (valid : ValidName target) :
    Reads readSrv (encodeData (.srv priority weight port target))
      (.srv priority weight port target) := by
  intro rest
  simp only [readSrv, encodeData, List.append_assoc, reads_be16 priority _, reads_be16 weight _,
    reads_be16 port _, reads_name valid rest, Option.bind_eq_bind, Option.bind_some]

theorem decodeData_encodeData {data : RData} (valid : ValidData data) :
    decodeData data.type (encodeData data) = some data := by
  cases data with
  | a address =>
      have read : Reads readA (encodeData (.a address)) address := fun rest => rfl
      exact congrArg (Option.map RData.a) read.whole
  | ptr target => exact congrArg (Option.map RData.ptr) (reads_name valid).whole
  | txt strings =>
      obtain ⟨filled, short⟩ := valid
      have each := length_le_flatMap_counted strings
      have some := List.length_pos_iff.mpr filled
      have nonempty : strings.flatMap counted ≠ [] := List.ne_nil_of_length_pos (by omega)
      show (if strings.flatMap counted = [] then none else
        (readStrings (strings.flatMap counted).length (strings.flatMap counted)).map RData.txt) = _
      rw [if_neg nonempty, reads_strings short each]
      rfl
  | srv priority weight port target => exact (reads_srv priority weight port valid).whole

theorem reads_question {question : Question} (valid : ValidName question.name) :
    Reads readQuestion (encodeQuestion question) question := by
  intro rest
  simp only [readQuestion, encodeQuestion, List.append_assoc, reads_name valid _,
    reads_be16 question.type _, reads_be16 question.cls rest, Option.bind_eq_bind, Option.bind_some]

theorem toUInt16_toNat {n : Nat} (small : n < 2 ^ 16) : n.toUInt16.toNat = n := by
  rw [Nat.toUInt16, UInt16.toNat_ofNat']
  exact Nat.mod_eq_of_lt small

theorem reads_record {record : Record} (valid : ValidRecord record) :
    Reads readRecord (encodeRecord record) record := by
  intro rest
  have room : (encodeData record.data).length ≤ (encodeData record.data ++ rest).length := by
    rw [List.length_append]
    omega
  simp only [readRecord, encodeRecord, List.append_assoc, reads_name valid.name _,
    reads_be16 record.data.type _, reads_be16 record.cls _, reads_be32 record.ttl _,
    reads_be16 (encodeData record.data).length.toUInt16 _, Option.bind_eq_bind, Option.bind_some,
    toUInt16_toNat valid.length, if_pos room, List.take_left, List.drop_left,
    decodeData_encodeData valid.data]

theorem reads_many {α : Type} {read : Reader α} {write : α → Bytes} {entries : List α}
    (each : ∀ a ∈ entries, Reads read (write a) a) :
    Reads (readMany read entries.length) (entries.flatMap write) entries := by
  intro rest
  induction entries with
  | nil => rfl
  | cons a entries ih =>
      have first := each a List.mem_cons_self (entries.flatMap write ++ rest)
      have later := ih fun other member => each other (List.mem_cons_of_mem _ member)
      rw [List.flatMap_cons, List.append_assoc]
      show (read _).bind (fun (a, bytes) =>
        (readMany read entries.length bytes).bind fun (more, bytes) => some (a :: more, bytes)) = _
      rw [first, Option.bind_some]
      simp only [later, Option.bind_some]

/-- A valid message is decoded to itself, and nothing of the packet is left. -/
theorem decode_encode {message : Message} (valid : Valid message) :
    decode (encode message) = some message := by
  suffices reads : Reads readMessage (encode message) message from reads.whole
  intro rest
  obtain ⟨questions, answers, authorities, additionals⟩ := valid.counts
  have asked : Reads (readMany readQuestion message.questions.length)
      (message.questions.flatMap encodeQuestion) message.questions :=
    reads_many fun question member => reads_question (valid.questions question member)
  have answered : Reads (readMany readRecord message.answers.length)
      (message.answers.flatMap encodeRecord) message.answers :=
    reads_many fun record member => reads_record (valid.answers record member)
  have authorized : Reads (readMany readRecord message.authorities.length)
      (message.authorities.flatMap encodeRecord) message.authorities :=
    reads_many fun record member => reads_record (valid.authorities record member)
  have added : Reads (readMany readRecord message.additionals.length)
      (message.additionals.flatMap encodeRecord) message.additionals :=
    reads_many fun record member => reads_record (valid.additionals record member)
  simp only [readMessage, encode, List.append_assoc, reads_be16 _ _, Option.bind_eq_bind,
    Option.bind_some, toUInt16_toNat questions, toUInt16_toNat answers, toUInt16_toNat authorities,
    toUInt16_toNat additionals, asked _, answered _, authorized _, added rest]

end Dns

end Calls
