import PicoCan.Calls.Sha1
import PicoCan.Http.Accept

/-!
# SHA-1 in chunks

`sha1_update` keeps the bytes that do not fill a block in a buffer and finds its place there
by the bit counter. The invariant is that the context has absorbed a message: its state is the
hash value after the message's whole blocks, the front of its buffer the bytes left over, and
the counter the message's length in bits. Padding is itself fed through `sha1_update`, so
`sha1_final` absorbs the padded message.
-/

namespace PicoCan.Http

open Calls

/-! ## Words -/

def Sha1State.hash (s : Sha1State) : Sha1.Hash :=
  ⟨s.a.toBitVec, s.b.toBitVec, s.c.toBitVec, s.d.toBitVec, s.e.toBitVec⟩

theorem ch_eq (x y z : Sha1.Word) : (x &&& y) ||| (~~~x &&& z) = Sha1.ch x y z := by
  ext i
  simp only [Sha1.ch, BitVec.getElem_or, BitVec.getElem_and, BitVec.getElem_not, BitVec.getElem_xor]
  cases x[i] <;> cases y[i] <;> cases z[i] <;> rfl

theorem maj_eq (x y z : Sha1.Word) :
    (x &&& y) ||| (x &&& z) ||| (y &&& z) = Sha1.maj x y z := by
  ext i
  simp only [Sha1.maj, BitVec.getElem_or, BitVec.getElem_and, BitVec.getElem_xor]
  cases x[i] <;> cases y[i] <;> cases z[i] <;> rfl

theorem wordBytes_eq (word : UInt32) : wordBytes word = Sha1.bigEndian 4 word.toNat := by
  have byte (k : Nat) (within : k < 4) :
      (word >>> UInt32.ofNat (8 * k)).toUInt8 = UInt8.ofNat (word.toNat / 256 ^ k) := by
    apply UInt8.toNat_inj.mp
    have shift : (UInt32.ofNat (8 * k)).toNat % 32 = 8 * k := by
      rw [UInt32.toNat_ofNat']
      omega
    rw [UInt32.toNat_toUInt8, UInt32.toNat_shiftRight, UInt8.toNat_ofNat',
      Nat.shiftRight_eq_div_pow, shift, Nat.pow_mul]
  have last : word.toUInt8 = UInt8.ofNat (word.toNat / 256 ^ 0) := byte 0 (by decide)
  show [(word >>> UInt32.ofNat (8 * 3)).toUInt8, (word >>> UInt32.ofNat (8 * 2)).toUInt8,
    (word >>> UInt32.ofNat (8 * 1)).toUInt8, word.toUInt8] = _
  rw [byte 3 (by decide), byte 2 (by decide), byte 1 (by decide), last]
  rfl

/-- The counter wraps where the standard's length field does. -/
theorem countBytes_eq (bits : Nat) : countBytes (UInt64.ofNat bits) = Sha1.bigEndian 8 bits := by
  refine List.map_congr_left fun i within => ?_
  have small : i < 8 := List.mem_range.mp within
  apply UInt8.toNat_inj.mp
  have shift : ((7 - i) * 8).toUInt64.toNat % 64 = (7 - i) * 8 := by
    rw [Nat.toUInt64, UInt64.toNat_ofNat']
    omega
  have place : 256 ^ (8 - 1 - i) = 2 ^ ((7 - i) * 8) := by rw [Nat.mul_comm, Nat.pow_mul]
  have top : 2 ^ 64 = 2 ^ ((7 - i) * 8) * 2 ^ (8 + 8 * i) := by
    rw [← Nat.pow_add]
    congr 1
    omega
  rw [UInt64.toNat_toUInt8, UInt64.toNat_shiftRight, UInt8.toNat_ofNat', UInt64.toNat_ofNat',
    Nat.shiftRight_eq_div_pow, shift, place, top, Nat.mod_mul_right_div_self]
  exact Nat.mod_mod_of_dvd _ (Nat.pow_dvd_pow 2 (Nat.le_add_right 8 _))

theorem shiftedByte_toNat (byte : UInt8) {bits : UInt32} (small : bits.toNat ≤ 24) :
    (byte.toUInt32 <<< bits).toNat = 2 ^ bits.toNat * byte.toNat := by
  have bound := byte.toNat_lt
  have lt : 2 ^ bits.toNat * byte.toNat < 2 ^ 24 * 2 ^ 8 :=
    Nat.mul_lt_mul_of_le_of_lt (Nat.pow_le_pow_right (by decide) small) bound (by decide)
  rw [UInt32.toNat_shiftLeft, UInt8.toNat_toUInt32,
    Nat.mod_eq_of_lt (show bits.toNat < 32 by omega), Nat.shiftLeft_eq, Nat.mul_comm,
    Nat.mod_eq_of_lt (by omega)]

/-- Disjoint shifted bytes joined by `|` are the number they spell. -/
theorem joinedBytes_toNat (a b c d : UInt8) :
    ((a.toUInt32 <<< 24) ||| (b.toUInt32 <<< 16) ||| (c.toUInt32 <<< 8) ||| d.toUInt32).toNat =
      Sha1.ofBigEndian [a, b, c, d] := by
  have := b.toNat_lt
  have := c.toNat_lt
  have := d.toNat_lt
  simp only [UInt32.toNat_or, UInt8.toNat_toUInt32]
  rw [shiftedByte_toNat a (by decide), shiftedByte_toNat b (by decide),
    shiftedByte_toNat c (by decide)]
  show 2 ^ 24 * a.toNat ||| 2 ^ 16 * b.toNat ||| 2 ^ 8 * c.toNat ||| d.toNat =
    256 * (256 * (256 * (256 * 0 + a.toNat) + b.toNat) + c.toNat) + d.toNat
  rw [← Nat.two_pow_add_eq_or_of_lt (show 2 ^ 16 * b.toNat < 2 ^ 24 by omega),
    show 2 ^ 24 * a.toNat + 2 ^ 16 * b.toNat = 2 ^ 16 * (256 * a.toNat + b.toNat) by omega,
    ← Nat.two_pow_add_eq_or_of_lt (show 2 ^ 8 * c.toNat < 2 ^ 16 by omega),
    show 2 ^ 16 * (256 * a.toNat + b.toNat) + 2 ^ 8 * c.toNat =
      2 ^ 8 * (256 * (256 * a.toNat + b.toNat) + c.toNat) by omega,
    ← Nat.two_pow_add_eq_or_of_lt (show d.toNat < 2 ^ 8 by omega)]
  omega

theorem blockWord_eq (block : Vector UInt8 64) (i : Fin 16) :
    (blockWord block i).toBitVec = Sha1.wordAt block.toList i := by
  have bytes : (block.toList.drop (4 * i)).take 4 =
      [block[i.val * 4], block[i.val * 4 + 1], block[i.val * 4 + 2], block[i.val * 4 + 3]] := by
    apply List.ext_getElem
    · simp
      omega
    · intro n lt within
      have small : n = 0 ∨ n = 1 ∨ n = 2 ∨ n = 3 := by
        have : n < 4 := within
        omega
      rcases small with rfl | rfl | rfl | rfl <;> simp [Nat.mul_comm]
  apply BitVec.eq_of_toNat_eq
  rw [Sha1.wordAt, bytes, BitVec.toNat_ofNat, ← joinedBytes_toNat]
  exact (Nat.mod_eq_of_lt (UInt32.toNat_lt _)).symm

/-! ## The compression -/

/-- The words of the schedule before `n`. -/
def scheduled (block : Bytes) (n : Nat) : List Sha1.Word := (List.range n).map (Sha1.schedule block)

theorem nextWord_eq {block : Bytes} {w : List UInt32} {n : Nat} (later : 16 ≤ n)
    (words : w.map UInt32.toBitVec = scheduled block n) :
    (nextWord w).toBitVec = Sha1.schedule block n := by
  have length : w.length = n := by
    have := congrArg List.length words
    simpa [scheduled] using this
  have back (k : Nat) (pos : 0 < k) (within : k ≤ 16) :
      (w.getD (w.length - k) 0).toBitVec = Sha1.schedule block (n - k) := by
    have lt : n - k < n := by omega
    have word := congrArg (fun l => l[n - k]?) words
    simp only [List.getElem?_map, scheduled, List.getElem?_range lt] at word
    rw [length, List.getD_eq_getElem?_getD]
    cases found : w[n - k]? with
    | none => rw [found] at word; cases word
    | some x => rw [found] at word; exact Option.some.inj word
  have recurrence : Sha1.schedule block n =
      (Sha1.schedule block (n - 3) ^^^ Sha1.schedule block (n - 8) ^^^
        Sha1.schedule block (n - 14) ^^^ Sha1.schedule block (n - 16)).rotateLeft 1 := by
    rw [Sha1.schedule, if_neg (by omega)]
  rw [recurrence, ← back 3 (by decide) (by decide), ← back 8 (by decide) (by decide),
    ← back 14 (by decide) (by decide), ← back 16 (by decide) (by decide)]
  rfl

theorem extendWords_eq {block : Bytes} (left : Nat) {w : List UInt32} {n : Nat} (later : 16 ≤ n)
    (words : w.map UInt32.toBitVec = scheduled block n) :
    (extendWords left w).map UInt32.toBitVec = scheduled block (n + left) := by
  induction left generalizing w n with
  | zero => exact words
  | succ left ih =>
      have next : (w ++ [nextWord w]).map UInt32.toBitVec = scheduled block (n + 1) := by
        rw [List.map_append, words, List.map_singleton, nextWord_eq later words, scheduled,
          scheduled, List.range_succ, List.map_append, List.map_singleton]
      rw [extendWords, ih (by omega) next, Nat.add_right_comm, Nat.add_assoc]

theorem sha1Words_eq (block : Vector UInt8 64) :
    (sha1Words block).map UInt32.toBitVec = scheduled block.toList 80 := by
  refine extendWords_eq 64 (Nat.le_refl 16) ?_
  refine List.ext_getElem (by simp [scheduled]) fun t lt within => ?_
  have early : t < 16 := by simpa using lt
  simp only [List.getElem_map, List.getElem_ofFn, scheduled, List.getElem_range]
  rw [Sha1.schedule, if_pos early]
  exact blockWord_eq block ⟨t, early⟩

theorem sha1Round_eq (block : Bytes) (s : Sha1State) {word : UInt32} {t : Nat}
    (scheduled : word.toBitVec = Sha1.schedule block t) :
    (sha1Round t word s).hash = Sha1.round block s.hash t := by
  have choose := ch_eq s.b.toBitVec s.c.toBitVec s.d.toBitVec
  have majority := maj_eq s.b.toBitVec s.c.toBitVec s.d.toBitVec
  unfold Sha1.round Sha1.f Sha1.k
  rw [← scheduled]
  by_cases first : t < 20
  · simp only [sha1Round, if_pos first, Sha1State.hash]
    rw [← choose]
    rfl
  · by_cases second : t < 40
    · simp only [sha1Round, if_neg first, if_pos second, Sha1State.hash]
      rfl
    · by_cases third : t < 60
      · simp only [sha1Round, if_neg first, if_neg second, if_pos third, Sha1State.hash]
        rw [← majority]
        rfl
      · simp only [sha1Round, if_neg first, if_neg second, if_neg third, Sha1State.hash]
        rfl

theorem sha1Rounds_eq (block : Bytes) (n : Nat) {i : Nat} {words : List UInt32} (s : Sha1State)
    (scheduled : words.map UInt32.toBitVec = (List.range' i n).map (Sha1.schedule block)) :
    (sha1Rounds i words s).hash = (List.range' i n).foldl (Sha1.round block) s.hash := by
  induction n generalizing i words s with
  | zero =>
      obtain rfl : words = [] := List.map_eq_nil_iff.mp scheduled
      rfl
  | succ n ih =>
      rw [List.range'_succ, List.map_cons] at scheduled
      cases words with
      | nil => cases scheduled
      | cons word rest =>
          obtain ⟨head, tail⟩ := List.cons.inj scheduled
          rw [sha1Rounds, ih _ tail, sha1Round_eq block s head, List.range'_succ, List.foldl_cons]

theorem sha1Transform_eq (state : Sha1State) (block : Vector UInt8 64) :
    (sha1Transform state block).hash = Sha1.compress state.hash block.toList := by
  have words := sha1Words_eq block
  rw [scheduled, List.range_eq_range'] at words
  have rounds := sha1Rounds_eq block.toList 80 state words
  unfold sha1Transform Sha1.compress
  rw [List.range_eq_range', ← rounds]
  generalize sha1Rounds 0 (sha1Words block) state = s
  rfl

/-! ## Feeding chunks -/

theorem storeAt_take (buffer : Vector UInt8 64) (data : Bytes) {index : Nat}
    (fits : index + data.length ≤ 64) :
    (storeAt buffer index data).toList.take (index + data.length) =
      buffer.toList.take index ++ data := by
  have length : (buffer.toList.take index).length = index := by
    simp
    omega
  refine List.ext_getElem ?_ fun i lt within => ?_
  · simp
    omega
  · have small : i < 64 := by
      simp at lt
      omega
    by_cases kept : i < index
    · rw [List.getElem_append_left (by omega)]
      simp [storeAt, show ¬ index ≤ i by omega]
    · rw [List.getElem_append_right (by omega)]
      have filled : i - index < data.length := by
        simp at lt
        omega
      simp [storeAt, show index ≤ i by omega, length, List.getD_eq_getElem?_getD, filled]

/-- The loop absorbs the bytes already in the buffer and the data. -/
theorem sha1UpdateLoop_absorbs (fuel : Nat) {index : Nat} {data : Bytes} (state : Sha1State)
    (buffer : Vector UInt8 64) (within : index < 64) (enough : data.length ≤ fuel) :
    ((sha1UpdateLoop fuel index data state buffer).1.hash,
        (sha1UpdateLoop fuel index data state buffer).2.toList.take ((index + data.length) % 64)) =
      absorb 64 Sha1.compress state.hash (buffer.toList.take index ++ data) := by
  induction fuel generalizing index data state buffer with
  | zero =>
      obtain rfl : data = [] := List.eq_nil_of_length_eq_zero (by omega)
      rw [List.append_nil, absorb_short (by simp; omega), List.length_nil, Nat.add_zero,
        Nat.mod_eq_of_lt within]
      rfl
  | succ fuel ih =>
      by_cases done : data = []
      · subst done
        have place : (index + 0) % 64 = index := by omega
        rw [sha1UpdateLoop, if_pos rfl, List.append_nil, absorb_short (by simp; omega),
          List.length_nil, place]
      · have pos := List.length_pos_iff.mpr done
        obtain ⟨chunk, took⟩ : ∃ chunk, chunk = min data.length (64 - index) := ⟨_, rfl⟩
        obtain ⟨full, filled⟩ : ∃ full, full = storeAt buffer index (data.take chunk) := ⟨_, rfl⟩
        have step : sha1UpdateLoop (fuel + 1) index data state buffer =
            if index + chunk = 64 then
              sha1UpdateLoop fuel 0 (data.drop chunk) (sha1Transform state full) full
            else sha1UpdateLoop fuel (index + chunk) (data.drop chunk) state full := by
          subst filled took
          exact if_neg done
        have length : (data.take chunk).length = chunk := by
          rw [List.length_take]
          omega
        have left : (data.drop chunk).length = data.length - chunk := List.length_drop
        have fits : index + (data.take chunk).length ≤ 64 := by omega
        have stored := storeAt_take buffer (data.take chunk) fits
        rw [length, ← filled] at stored
        have cut : buffer.toList.take index ++ data =
            full.toList.take (index + chunk) ++ data.drop chunk := by
          rw [stored, List.append_assoc, List.take_append_drop]
        rw [step, cut]
        by_cases block : index + chunk = 64
        · have whole : full.toList.take (index + chunk) = full.toList := by
            rw [block]
            exact List.take_of_length_le (by simp)
          have place : (index + data.length) % 64 = (0 + (data.drop chunk).length) % 64 := by omega
          rw [if_pos block, whole, absorb_block_append _ (by decide) (by simp),
            ← sha1Transform_eq, place]
          exact ih (sha1Transform state full) full (by decide) (by omega)
        · have place : (index + data.length) % 64 =
              (index + chunk + (data.drop chunk).length) % 64 := by omega
          rw [if_neg block, place]
          exact ih state full (by omega) (by omega)

/-- The context has absorbed `message`. -/
structure Absorbed (ctx : Sha1Ctx) (message : Bytes) : Prop where
  blocks : (ctx.state.hash, ctx.buffer.toList.take (message.length % 64)) =
    absorb 64 Sha1.compress Sha1.initial message
  bits : ctx.bitCount = UInt64.ofNat (8 * message.length)

theorem Absorbed.init : Absorbed sha1Init [] := by
  refine ⟨?_, rfl⟩
  rw [absorb_short (by decide)]
  rfl

/-- The counter says how much of the buffer is in use, also after it has wrapped. -/
theorem Absorbed.index {ctx : Sha1Ctx} {message : Bytes} (absorbed : Absorbed ctx message) :
    (ctx.bitCount / 8).toNat % 64 = message.length % 64 := by
  have eight : (8 : UInt64).toNat = 8 := rfl
  rw [absorbed.bits, UInt64.toNat_div, UInt64.toNat_ofNat', eight]
  omega

theorem Absorbed.update {ctx : Sha1Ctx} {message data : Bytes} (absorbed : Absorbed ctx message)
    (short : data.length < 2 ^ 29) : Absorbed (sha1Update ctx data) (message ++ data) := by
  constructor
  · have before : absorb 64 Sha1.compress Sha1.initial (message ++ data) = _ :=
      absorb_append (Nat.zero_lt_succ 63) Sha1.initial message data
    have fed := sha1UpdateLoop_absorbs data.length ctx.state ctx.buffer
      (Nat.mod_lt message.length (by decide)) (Nat.le_refl data.length)
    rw [before, ← absorbed.blocks, ← fed, List.length_append, Nat.mod_add_mod]
    unfold sha1Update
    rw [absorbed.index]
  · have count : (data.length.toUInt32 * 8).toUInt64 = UInt64.ofNat (8 * data.length) := by
      apply UInt64.toNat_inj.mp
      rw [UInt32.toNat_toUInt64, UInt32.toNat_mul, UInt64.toNat_ofNat', Nat.toUInt32,
        UInt32.toNat_ofNat', show (8 : UInt32).toNat = 8 from rfl]
      omega
    show ctx.bitCount + (data.length.toUInt32 * 8).toUInt64 = _
    rw [count, absorbed.bits, ← UInt64.ofNat_add, List.length_append, Nat.mul_add]

theorem Absorbed.updates {ctx : Sha1Ctx} {message : Bytes} (absorbed : Absorbed ctx message)
    (chunks : List Bytes) (short : ∀ chunk ∈ chunks, chunk.length < 2 ^ 29) :
    Absorbed (chunks.foldl sha1Update ctx) (message ++ chunks.flatten) := by
  induction chunks generalizing ctx message with
  | nil => simpa using absorbed
  | cons chunk rest ih =>
      have fed := ih (absorbed.update (short chunk List.mem_cons_self)) fun later within =>
        short later (List.mem_cons_of_mem _ within)
      rwa [List.append_assoc] at fed

/-! ## Padding and the digest -/

/-- The padding loop adds zeros until eight bytes are left in the block. -/
theorem Absorbed.pad (left : Nat) {fuel : Nat} {ctx : Sha1Ctx} {message : Bytes}
    (absorbed : Absorbed ctx message) (place : (message.length + left) % 64 = 56)
    (small : left < 64) (enough : left ≤ fuel) :
    Absorbed (sha1Pad fuel ctx) (message ++ List.replicate left 0) := by
  induction left generalizing fuel ctx message with
  | zero =>
      have stop : (ctx.bitCount / 8).toNat % 64 = 56 := absorbed.index.trans place
      rw [List.replicate_zero, List.append_nil]
      cases fuel with
      | zero => exact absorbed
      | succ fuel =>
          rw [sha1Pad, if_neg fun go => go stop]
          exact absorbed
  | succ left ih =>
      cases fuel with
      | zero => omega
      | succ fuel =>
          have go : (ctx.bitCount / 8).toNat % 64 ≠ 56 := by
            rw [absorbed.index]
            omega
          have zero := absorbed.update (show [(0 : UInt8)].length < 2 ^ 29 by decide)
          rw [sha1Pad, if_pos go, List.replicate_succ, List.append_cons]
          exact ih zero (by rw [List.length_append, List.length_singleton]; omega) (by omega)
            (by omega)

theorem sha1State_bytes (s : Sha1State) :
    wordBytes s.a ++ wordBytes s.b ++ wordBytes s.c ++ wordBytes s.d ++ wordBytes s.e =
      s.hash.bytes := by
  simp only [Sha1.Hash.bytes, List.flatMap_cons, List.flatMap_nil, List.append_nil, wordBytes_eq,
    List.append_assoc]
  rfl

/-- `sha1_final` leaves the padding loop with eight bytes free, and returns the standard's
digest of what was absorbed. -/
theorem Absorbed.digest {ctx : Sha1Ctx} {message : Bytes} (absorbed : Absorbed ctx message) :
    ((sha1Pad 64 (sha1Update ctx [0x80])).bitCount / 8).toNat % 64 = 56 ∧
      sha1Final ctx = Sha1.digest message := by
  have delimited := absorbed.update (show [(0x80 : UInt8)].length < 2 ^ 29 by decide)
  have place : ((message ++ [0x80]).length + Sha1.zeros message.length) % 64 = 56 := by
    rw [List.length_append, List.length_singleton, Sha1.zeros]
    omega
  have few : Sha1.zeros message.length < 64 := Nat.mod_lt _ (by decide)
  have padded := delimited.pad (Sha1.zeros message.length) place few (Nat.le_of_lt few)
  have complete := padded.update (show (countBytes ctx.bitCount).length < 2 ^ 29 by
    simp [countBytes])
  have whole : message ++ [0x80] ++ List.replicate (Sha1.zeros message.length) 0 ++
      countBytes ctx.bitCount = Sha1.pad message := by
    rw [absorbed.bits, countBytes_eq, Sha1.pad, List.append_assoc message]
    rfl
  rw [whole] at complete
  constructor
  · rw [padded.index, List.length_append, List.length_replicate, place]
  · rw [Sha1.digest, ← congrArg Prod.fst complete.blocks]
    exact sha1State_bytes _

/-- However a message is cut into chunks, streaming them yields the standard's digest of the
message, and the padding loop ends. -/
theorem sha1_streams (chunks : List Bytes) (short : ∀ chunk ∈ chunks, chunk.length < 2 ^ 29) :
    ((sha1Pad 64 (sha1Update (chunks.foldl sha1Update sha1Init) [0x80])).bitCount / 8).toNat % 64
        = 56 ∧
      sha1Final (chunks.foldl sha1Update sha1Init) = Sha1.digest chunks.flatten := by
  have absorbed := Absorbed.init.updates chunks short
  rw [List.nil_append] at absorbed
  exact absorbed.digest

theorem sha1_streams_wizards :
    Sha1.digest (lit "The five boxing wizards jump quickly over the lazy dogs") =
      [0x06, 0x23, 0x54, 0xb7, 0x39, 0xb0, 0x00, 0x0b, 0x78, 0x7a, 0x28, 0x0d, 0x0a, 0x92, 0x23,
        0xf8, 0x43, 0x93, 0x68, 0xab] := by
  have streamed := (sha1_streams
    [lit "The five boxing wizards ", lit "jump quickly over the lazy dogs"] (by decide)).2
  exact streamed.symm.trans (by decide +kernel)

end PicoCan.Http
