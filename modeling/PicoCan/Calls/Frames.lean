import PicoCan.Calls.Text

/-!
# WebSocket frames

The two directions of the wire format. A server's frame is whole and unmasked, its length
is in the shortest form, and a control frame carries at most 125 bytes: `decodeServer`
refuses everything else. A client's frame is masked: `decodeClient` reads one of at most
`limit` bytes off the front of a stream, without a look at its first four bits, and says
what is left behind it.
-/

namespace Calls.Frames

/-- Opcode and payload. -/
abbrev Frame : Type := UInt8 × Bytes

def continuation : UInt8 := 0
def text : UInt8 := 1
def binary : UInt8 := 2
def close : UInt8 := 8
def ping : UInt8 := 9
def pong : UInt8 := 10

def IsControl (opcode : UInt8) : Prop := 8 ≤ opcode.toNat

instance (opcode : UInt8) : Decidable (IsControl opcode) := inferInstanceAs (Decidable (_ ≤ _))

/-- A length behind a mask bit (128, or 0 for none), in its shortest form. -/
def lengthBytes (maskBit n : Nat) : Bytes :=
  if n ≤ 125 then [(maskBit + n).toUInt8]
  else if n < 65536 then [(maskBit + 126).toUInt8, (n / 256).toUInt8, n.toUInt8]
  else (maskBit + 127).toUInt8 :: (List.range 8).map fun i => (n / 256 ^ (7 - i)).toUInt8

theorem be16_eq {n : Nat} (short : n < 65536) :
    (n / 256).toUInt8.toNat * 256 + n.toUInt8.toNat = n := by
  simp only [Nat.toUInt8, UInt8.toNat_ofNat']
  omega

/-! ## Frames of a server -/

/-- A whole, unmasked frame. -/
def serverFrame (f : Frame) : Bytes := (128 + f.1) :: (lengthBytes 0 f.2.length ++ f.2)

/-- The length that begins with `b`, if it is unmasked and in its shortest form. -/
def serverLength (b : UInt8) (rest : Bytes) : Option (Nat × Bytes) :=
  if b.toNat ≤ 125 then some (b.toNat, rest)
  else if b.toNat = 126 then
    match rest with
    | high :: low :: rest =>
        let n := high.toNat * 256 + low.toNat
        if n ≤ 125 then none else some (n, rest)
    | _ => none
  else if b.toNat = 127 ∧ 8 ≤ rest.length then
    let n := (rest.take 8).foldl (fun n byte => n * 256 + byte.toNat) 0
    if n < 65536 ∨ 2 ^ 63 ≤ n then none else some (n, rest.drop 8)
  else none

/-- The frame at the front of what a server sends. -/
def decodeServerFrame : Bytes → Option (Frame × Bytes)
  | b₀ :: b₁ :: rest =>
      let opcode := b₀ % 16
      if b₀ ≠ 128 + opcode ∨ opcode ∉ [text, binary, close, ping, pong] then none
      else if IsControl opcode ∧ 125 < b₁.toNat then none
      else
        match serverLength b₁ rest with
        | none => none
        | some (n, rest) =>
            if rest.length < n then none else some ((opcode, rest.take n), rest.drop n)
  | _ => none

/-- Each round takes at least two bytes, so the length of the bytes is enough fuel. -/
def decodeServerLoop : (fuel : Nat) → Bytes → Option (List Frame)
  | _, [] => some []
  | 0, _ :: _ => none
  | fuel + 1, bytes =>
      match decodeServerFrame bytes with
      | none => none
      | some (f, rest) => (decodeServerLoop fuel rest).map (f :: ·)

/-- All of what a server sent, as frames. -/
def decodeServer (bytes : Bytes) : Option (List Frame) := decodeServerLoop bytes.length bytes

theorem serverLength_lengthBytes {n : Nat} (short : n < 65536) (rest : Bytes) :
    ∃ b more, lengthBytes 0 n ++ rest = b :: more ∧ serverLength b more = some (n, rest) ∧
      (125 < b.toNat ↔ 125 < n) := by
  unfold lengthBytes
  by_cases small : n ≤ 125
  · have byte : (0 + n).toUInt8.toNat = n := by simp [Nat.toUInt8]; omega
    rw [if_pos small]
    refine ⟨(0 + n).toUInt8, rest, rfl, ?_, by rw [byte]⟩
    simp only [serverLength, byte, if_pos small]
  · have byte : (0 + 126).toUInt8.toNat = 126 := rfl
    rw [if_neg small, if_pos short]
    refine ⟨(0 + 126).toUInt8, (n / 256).toUInt8 :: n.toUInt8 :: rest, rfl, ?_, ?_⟩
    · simp only [serverLength, byte, be16_eq short, if_neg small]
      rfl
    · rw [byte]
      omega

/-- A control frame that is not too long, or any other frame. -/
def Legal (f : Frame) : Prop := IsControl f.1 → f.2.length ≤ 125

instance (f : Frame) : Decidable (Legal f) := inferInstanceAs (Decidable (_ → _))

/-- A frame of a known kind is read back exactly if it is legal. -/
theorem decodeServerFrame_serverFrame {f : Frame}
    (known : f.1 ∈ [text, close, ping, pong]) (short : f.2.length < 65536) (rest : Bytes) :
    decodeServerFrame (serverFrame f ++ rest) = if Legal f then some (f, rest) else none := by
  obtain ⟨b, more, bytes, length, long⟩ := serverLength_lengthBytes short (f.2 ++ rest)
  have whole : serverFrame f ++ rest = (128 + f.1) :: b :: more := by
    rw [← bytes]
    simp [serverFrame]
  have opcode : (128 + f.1) % 16 = f.1 ∧ f.1 ∈ [text, binary, close, ping, pong] := by
    simp only [List.mem_cons, List.not_mem_nil, or_false] at known
    rcases known with eq | eq | eq | eq <;> rw [eq] <;> decide
  rw [whole]
  simp only [decodeServerFrame, opcode.1, length, long, List.length_append]
  rw [if_neg (by simp [opcode.2])]
  by_cases legal : Legal f
  · have fits : ¬ (IsControl f.1 ∧ 125 < f.2.length) := fun bad => by
      have := legal bad.1
      omega
    rw [if_neg fits, if_neg (by omega), if_pos legal, List.take_left, List.drop_left]
  · have bad : IsControl f.1 ∧ 125 < f.2.length := by
      simpa only [Legal, Classical.not_imp, Nat.not_le] using legal
    rw [if_pos bad, if_neg legal]

theorem serverFrame_length_pos (f : Frame) : 0 < (serverFrame f).length := Nat.succ_pos _

theorem decodeServerLoop_serverFrames (frames : List Frame)
    (known : ∀ f ∈ frames, f.1 ∈ [text, close, ping, pong])
    (short : ∀ f ∈ frames, f.2.length < 65536) (fuel : Nat)
    (enough : (frames.flatMap serverFrame).length ≤ fuel) :
    decodeServerLoop fuel (frames.flatMap serverFrame) =
      if ∀ f ∈ frames, Legal f then some frames else none := by
  induction frames generalizing fuel with
  | nil => simp [decodeServerLoop]
  | cons f frames ih =>
      have pos := serverFrame_length_pos f
      simp only [List.flatMap_cons, List.length_append] at enough ⊢
      obtain ⟨fuel, rfl⟩ := Nat.exists_eq_add_one.mpr (show 0 < fuel by omega)
      have front := decodeServerFrame_serverFrame (known f List.mem_cons_self)
        (short f List.mem_cons_self) (frames.flatMap serverFrame)
      have later := ih (fun f hf => known f (List.mem_cons_of_mem _ hf))
        (fun f hf => short f (List.mem_cons_of_mem _ hf)) fuel (by omega)
      have filled : 0 < (serverFrame f ++ frames.flatMap serverFrame).length := by
        rw [List.length_append]
        omega
      obtain ⟨b, bytes, split⟩ := List.exists_cons_of_length_pos filled
      rw [split] at front ⊢
      have both : (∀ g ∈ f :: frames, Legal g) ↔ Legal f ∧ ∀ g ∈ frames, Legal g :=
        List.forall_mem_cons
      by_cases legal : Legal f
      · rw [if_pos legal] at front
        simp only [decodeServerLoop, front, later]
        by_cases rest : ∀ g ∈ frames, Legal g
        · rw [if_pos rest, if_pos (both.mpr ⟨legal, rest⟩), Option.map_some]
        · rw [if_neg rest, if_neg fun all => rest (both.mp all).2, Option.map_none]
      · rw [if_neg legal] at front
        rw [if_neg fun all => legal (both.mp all).1]
        simp only [decodeServerLoop, front]

/-- What a server sent frame by frame is read as these frames exactly if all are legal. -/
theorem decodeServer_serverFrames {frames : List Frame}
    (known : ∀ f ∈ frames, f.1 ∈ [text, close, ping, pong])
    (short : ∀ f ∈ frames, f.2.length < 65536) :
    decodeServer (frames.flatMap serverFrame) = some frames ↔ ∀ f ∈ frames, Legal f := by
  rw [decodeServer, decodeServerLoop_serverFrames frames known short _ (Nat.le_refl _)]
  by_cases legal : ∀ f ∈ frames, Legal f
  · exact iff_of_true (if_pos legal) legal
  · rw [if_neg legal]
    exact iff_of_false (Option.some_ne_none _).symm legal

/-! ## Frames of a client -/

/-- The payload of a client is xored with the mask, byte by byte and round and round. -/
def applyMask (mask payload : Bytes) : Bytes :=
  payload.mapIdx fun i byte => byte ^^^ mask.getD (i % 4) 0

@[simp] theorem applyMask_length (mask payload : Bytes) :
    (applyMask mask payload).length = payload.length := by
  rw [applyMask, List.length_mapIdx]

theorem applyMask_twice (mask payload : Bytes) :
    applyMask mask (applyMask mask payload) = payload := by
  apply List.ext_getElem?
  intro i
  simp only [applyMask, List.getElem?_mapIdx, Option.map_map]
  have same : ((fun byte => byte ^^^ mask.getD (i % 4) 0) ∘
      fun byte => byte ^^^ mask.getD (i % 4) 0) = id := funext fun byte => by
    simp only [Function.comp_apply, UInt8.xor_assoc, UInt8.xor_self, UInt8.xor_zero, id]
  rw [same, Option.map_id, id]

/-- What stands at the front of what a client sent. -/
inductive Received
  | frame (f : Frame)
  | refused
  | truncated
deriving DecidableEq

/-- What is read, and the bytes behind it, from the mask of a frame on. -/
def decodePayload (limit : Nat) (opcode : UInt8) (masked : Bool) (len : Nat) (bytes : Bytes) :
    Received × Bytes :=
  if ¬ masked ∨ limit < len then (.refused, bytes)
  else if bytes.length < 4 + len then (.truncated, [])
  else
    (.frame (opcode, applyMask (bytes.take 4) ((bytes.drop 4).take len)), bytes.drop (4 + len))

/-- What is read, and the bytes behind it. A frame is refused for a 64-bit length, a length
over the limit or a missing mask. -/
def decodeClient (limit : Nat) : Bytes → Received × Bytes
  | b₀ :: b₁ :: rest =>
      let opcode := b₀ % 16
      let masked := 128 ≤ b₁.toNat
      let len := b₁.toNat % 128
      if len = 127 then (.refused, rest)
      else if len = 126 then
        match rest with
        | high :: low :: rest =>
            decodePayload limit opcode masked (high.toNat * 256 + low.toNat) rest
        | _ => (.truncated, [])
      else decodePayload limit opcode masked len rest
  | _ => (.truncated, [])

/-- The frames of a stream up to the first that is not one, or that ends the session;
whether one was refused; the bytes behind. -/
structure Decoded where
  frames : List Frame
  refused : Bool
  rest : Bytes

/-- Each round that goes on takes at least six bytes, so the length of the stream is enough
fuel. -/
def decodeLoop (limit : Nat) (last : UInt8 → Prop) [DecidablePred last] :
    (fuel : Nat) → Bytes → Decoded
  | 0, stream => ⟨[], false, stream⟩
  | fuel + 1, stream =>
      match decodeClient limit stream with
      | (.truncated, rest) => ⟨[], false, rest⟩
      | (.refused, rest) => ⟨[], true, rest⟩
      | (.frame f, rest) =>
          if last f.1 then ⟨[f], false, rest⟩
          else
            let later := decodeLoop limit last fuel rest
            { later with frames := f :: later.frames }

/-- The stream of a client whose session ends with a frame whose opcode is a `last` one. -/
def decodeStream (limit : Nat) (last : UInt8 → Prop) [DecidablePred last] (stream : Bytes) :
    Decoded :=
  decodeLoop limit last (stream.length + 1) stream

theorem decodePayload_shorter {limit : Nat} {opcode : UInt8} {masked : Bool} {len : Nat}
    {bytes : Bytes} {f : Frame} {rest : Bytes}
    (read : decodePayload limit opcode masked len bytes = (.frame f, rest)) :
    rest.length + 4 ≤ bytes.length := by
  unfold decodePayload at read
  split at read
  · cases read
  · split at read
    · cases read
    · simp only [Prod.mk.injEq] at read
      rw [← read.2, List.length_drop]
      omega

theorem decodeClient_shorter {limit : Nat} {stream : Bytes} {f : Frame} {rest : Bytes}
    (read : decodeClient limit stream = (.frame f, rest)) : rest.length < stream.length := by
  unfold decodeClient at read
  split at read
  · simp only at read
    split at read
    · cases read
    · split at read
      · split at read
        · have := decodePayload_shorter read
          simp only [List.length_cons]
          omega
        · cases read
      · have := decodePayload_shorter read
        simp only [List.length_cons]
        omega
  · cases read

theorem decodeClient_fits {limit : Nat} {stream : Bytes} {f : Frame} {rest : Bytes}
    (read : decodeClient limit stream = (.frame f, rest)) : f.2.length ≤ limit := by
  have payload {opcode : UInt8} {masked : Bool} {len : Nat} {bytes : Bytes}
      (read : decodePayload limit opcode masked len bytes = (.frame f, rest)) :
      f.2.length ≤ limit := by
    unfold decodePayload at read
    split at read
    · cases read
    · next accept =>
        split at read
        · cases read
        · simp only [Prod.mk.injEq, Received.frame.injEq] at read
          rw [← read.1, applyMask_length, List.length_take]
          omega
  unfold decodeClient at read
  split at read
  · simp only at read
    split at read
    · cases read
    · split at read
      · split at read
        · exact payload read
        · cases read
      · exact payload read
  · cases read

section decodeStream

variable (limit : Nat) (last : UInt8 → Prop) [DecidablePred last]

/-- More fuel than bytes changes nothing. -/
theorem decodeLoop_eq (fuel fuel' : Nat) (stream : Bytes) (enough : stream.length < fuel)
    (enough' : stream.length < fuel') :
    decodeLoop limit last fuel stream = decodeLoop limit last fuel' stream := by
  induction fuel generalizing fuel' stream with
  | zero => omega
  | succ fuel ih =>
      obtain ⟨fuel', rfl⟩ := Nat.exists_eq_add_one.mpr (show 0 < fuel' by omega)
      rw [decodeLoop, decodeLoop]
      rcases read : decodeClient limit stream with ⟨front, rest⟩
      cases front with
      | truncated => rfl
      | refused => rfl
      | frame f =>
          have shorter := decodeClient_shorter read
          simp only
          rw [ih fuel' rest (by omega) (by omega)]

/-- The stream is decoded frame by frame. -/
theorem decodeStream_eq (stream : Bytes) :
    decodeStream limit last stream =
      match decodeClient limit stream with
      | (.truncated, rest) => ⟨[], false, rest⟩
      | (.refused, rest) => ⟨[], true, rest⟩
      | (.frame f, rest) =>
          if last f.1 then ⟨[f], false, rest⟩
          else { decodeStream limit last rest with
            frames := f :: (decodeStream limit last rest).frames } := by
  rw [decodeStream, decodeLoop]
  rcases read : decodeClient limit stream with ⟨front, rest⟩
  cases front with
  | truncated => rfl
  | refused => rfl
  | frame f =>
      have shorter := decodeClient_shorter read
      simp only
      rw [decodeStream, decodeLoop_eq limit last stream.length (rest.length + 1) rest shorter
        (Nat.lt_succ_self _)]

/-- No decoded payload is over the limit. -/
theorem decodeLoop_fits (fuel : Nat) (stream : Bytes) :
    ∀ f ∈ (decodeLoop limit last fuel stream).frames, f.2.length ≤ limit := by
  induction fuel generalizing stream with
  | zero => exact fun f member => absurd member List.not_mem_nil
  | succ fuel ih =>
      rw [decodeLoop]
      rcases read : decodeClient limit stream with ⟨front, rest⟩
      cases front with
      | truncated => exact fun f member => absurd member List.not_mem_nil
      | refused => exact fun f member => absurd member List.not_mem_nil
      | frame f =>
          have fits := decodeClient_fits read
          simp only
          by_cases ends : last f.1
          · rw [if_pos ends]
            intro g member
            rw [List.mem_singleton.mp member]
            exact fits
          · rw [if_neg ends]
            intro g member
            rcases List.mem_cons.mp member with rfl | later
            · exact fits
            · exact ih rest g later

end decodeStream

/-- A whole, masked frame. -/
def clientFrame (mask : Bytes) (f : Frame) : Bytes :=
  (128 + f.1) :: (lengthBytes 128 f.2.length ++ mask ++ applyMask mask f.2)

/-- The header of a frame that does not need a 64-bit length leads to its payload. -/
theorem decodeClient_header (limit : Nat) (mask : Bytes) {f : Frame} (medium : f.2.length < 65536)
    (rest : Bytes) : decodeClient limit (clientFrame mask f ++ rest) =
      decodePayload limit ((128 + f.1) % 16) true f.2.length
        (mask ++ (applyMask mask f.2 ++ rest)) := by
  unfold clientFrame lengthBytes
  by_cases small : f.2.length ≤ 125
  · have byte : (128 + f.2.length).toUInt8.toNat = 128 + f.2.length := by
      simp [Nat.toUInt8]
      omega
    have len : (128 + f.2.length) % 128 = f.2.length := by omega
    have masked : decide (128 ≤ 128 + f.2.length) = true := decide_eq_true (Nat.le_add_right _ _)
    simp only [if_pos small, List.cons_append, List.nil_append, List.append_assoc, decodeClient,
      byte, len, masked]
    rw [if_neg (by omega), if_neg (by omega)]
  · have byte : (128 + 126).toUInt8.toNat = 254 := rfl
    simp only [if_neg small, if_pos medium, List.cons_append, List.nil_append, List.append_assoc,
      decodeClient, byte, be16_eq medium]
    rfl

/-- A client's frame is read back. -/
theorem decodeClient_clientFrame {limit : Nat} (short : limit < 65536) {mask : Bytes}
    (four : mask.length = 4) {f : Frame} (opcode : f.1.toNat < 16) (fits : f.2.length ≤ limit)
    (rest : Bytes) : decodeClient limit (clientFrame mask f ++ rest) = (.frame f, rest) := by
  have code : (128 + f.1) % 16 = f.1 := by
    apply UInt8.toNat.inj
    simp only [UInt8.toNat_mod, UInt8.toNat_add]
    show (128 + f.1.toNat) % 256 % 16 = f.1.toNat
    omega
  have enough : ¬ (mask ++ (applyMask mask f.2 ++ rest)).length < 4 + f.2.length := by
    simp only [List.length_append, applyMask_length, four]
    omega
  have whole : 4 + f.2.length = (mask ++ applyMask mask f.2).length := by
    rw [List.length_append, applyMask_length, four]
  have front : (mask ++ (applyMask mask f.2 ++ rest)).take 4 = mask := List.take_left' four
  have back : (mask ++ (applyMask mask f.2 ++ rest)).drop 4 = applyMask mask f.2 ++ rest :=
    List.drop_left' four
  rw [decodeClient_header limit mask (Nat.lt_of_le_of_lt fits short), code]
  unfold decodePayload
  rw [if_neg (by simp; omega), if_neg enough, front, back,
    List.take_left' (applyMask_length mask f.2),
    applyMask_twice, whole, ← List.append_assoc, List.drop_left]

/-- A client's frame over the limit is refused. -/
theorem decodeClient_long {limit : Nat} {mask : Bytes} {f : Frame} (long : limit < f.2.length)
    (rest : Bytes) : (decodeClient limit (clientFrame mask f ++ rest)).1 = .refused := by
  by_cases medium : f.2.length < 65536
  · rw [decodeClient_header limit mask medium, decodePayload, if_pos (.inr long)]
  · -- a 64-bit length is refused before it is read
    have large : ¬ f.2.length ≤ 125 := by omega
    have byte : (128 + 127).toUInt8.toNat = 255 := rfl
    unfold clientFrame lengthBytes
    simp only [if_neg large, if_neg medium, List.cons_append, decodeClient, byte]
    rfl

end Calls.Frames
