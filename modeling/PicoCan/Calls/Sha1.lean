import PicoCan.Calls.Blocks
import PicoCan.Calls.Text

/-!
# The Secure Hash Standard's SHA-1

FIPS 180 for messages of whole bytes: padding, big-endian parsing, the message schedule, the
eighty rounds and the five words of the digest.
-/

namespace Calls.Sha1

/-! ## Numbers as bytes -/

/-- The low `count` bytes of a number, most significant first. -/
def bigEndian (count n : Nat) : Bytes :=
  (List.range count).map fun i => UInt8.ofNat (n / 256 ^ (count - 1 - i))

/-- The number whose bytes these are, most significant first. -/
def ofBigEndian (bytes : Bytes) : Nat := bytes.foldl (fun n byte => 256 * n + byte.toNat) 0

/-! ## Padding (section 5.1.1) -/

/-- The number of zero bytes between the byte that begins with the one bit and the length. -/
def zeros (length : Nat) : Nat := (64 + 55 - length % 64) % 64

/-- The message, a one bit, the zero bits and its length in bits. -/
def pad (message : Bytes) : Bytes :=
  message ++ 0x80 :: List.replicate (zeros message.length) 0 ++ bigEndian 8 (8 * message.length)

/-- With the seven zero bits after the one bit, `l + 1 + k ≡ 448 mod 512`. -/
theorem zeros_congruent (length : Nat) :
    (8 * length + 1 + (7 + 8 * zeros length)) % 512 = 448 := by
  unfold zeros
  omega

/-- No smaller number of zero bits will do. -/
theorem zeros_least {length k : Nat} (congruent : (8 * length + 1 + k) % 512 = 448) :
    7 + 8 * zeros length ≤ k := by
  unfold zeros
  omega

/-! ## Functions and constants (sections 4.1.1 and 4.2.1) -/

abbrev Word := BitVec 32

def ch (x y z : Word) : Word := (x &&& y) ^^^ (~~~x &&& z)

def parity (x y z : Word) : Word := x ^^^ y ^^^ z

def maj (x y z : Word) : Word := (x &&& y) ^^^ (x &&& z) ^^^ (y &&& z)

def f (t : Nat) : Word → Word → Word → Word :=
  if t < 20 then ch else if t < 40 then parity else if t < 60 then maj else parity

def k (t : Nat) : Word :=
  if t < 20 then 0x5a827999 else if t < 40 then 0x6ed9eba1 else if t < 60 then 0x8f1bbcdc
  else 0xca62c1d6

/-! ## The computation (sections 5.3.1 and 6.1) -/

/-- The five words of a hash value, and the working variables of the rounds. -/
structure Hash where
  a : Word
  b : Word
  c : Word
  d : Word
  e : Word
deriving DecidableEq

def initial : Hash := ⟨0x67452301, 0xefcdab89, 0x98badcfe, 0x10325476, 0xc3d2e1f0⟩

/-- Word `t` of a block. -/
def wordAt (block : Bytes) (t : Nat) : Word :=
  BitVec.ofNat 32 (ofBigEndian ((block.drop (4 * t)).take 4))

/-- The message schedule. -/
def schedule (block : Bytes) (t : Nat) : Word :=
  if t < 16 then wordAt block t
  else (schedule block (t - 3) ^^^ schedule block (t - 8) ^^^ schedule block (t - 14) ^^^
    schedule block (t - 16)).rotateLeft 1

def round (block : Bytes) (s : Hash) (t : Nat) : Hash :=
  { a := s.a.rotateLeft 5 + f t s.b s.c s.d + s.e + k t + schedule block t
    b := s.a, c := s.b.rotateLeft 30, d := s.c, e := s.d }

def compress (h : Hash) (block : Bytes) : Hash :=
  let s := (List.range 80).foldl (round block) h
  ⟨h.a + s.a, h.b + s.b, h.c + s.c, h.d + s.d, h.e + s.e⟩

/-- The words of a hash value, as bytes. -/
def Hash.bytes (h : Hash) : Bytes :=
  [h.a, h.b, h.c, h.d, h.e].flatMap fun word => bigEndian 4 word.toNat

def digest (message : Bytes) : Bytes := (absorb 64 compress initial (pad message)).1.bytes

end Calls.Sha1
