import PicoCan.Can.Driver
import PicoCan.Http.Headers

/-!
# The key of the WebSocket handshake

SHA-1 as `http_server.c` streams it, Base64, and `build_websocket_accept`.
-/

namespace PicoCan.Http

open Calls
open PicoCan.Can (eInval eNoMem)

def wsGuid : Bytes := lit "258EAFA5-E914-47DA-95CA-C5AB0DC85B11"

/-! ## SHA-1 -/

def sha1Rol (value : UInt32) (bits : UInt8) : UInt32 :=
  (value <<< bits.toUInt32) ||| (value >>> (32 - bits.toUInt32))

/-- The five words of a SHA-1 state. -/
structure Sha1State where
  a : UInt32
  b : UInt32
  c : UInt32
  d : UInt32
  e : UInt32
deriving DecidableEq

/-- `struct sha1_ctx`. -/
structure Sha1Ctx where
  state : Sha1State
  bitCount : UInt64
  buffer : Vector UInt8 64

/-- The `i`-th big-endian word of a block. -/
def blockWord (block : Vector UInt8 64) (i : Fin 16) : UInt32 :=
  (block[i.val * 4].toUInt32 <<< 24) ||| (block[i.val * 4 + 1].toUInt32 <<< 16) |||
    (block[i.val * 4 + 2].toUInt32 <<< 8) ||| block[i.val * 4 + 3].toUInt32

/-- `w[i]` for `i ≥ 16`, with the words before it. -/
def nextWord (w : List UInt32) : UInt32 :=
  let back := fun k => w.getD (w.length - k) 0
  sha1Rol (back 3 ^^^ back 8 ^^^ back 14 ^^^ back 16) 1

/-- The second loop of `sha1_transform`, with `left` words to go. -/
def extendWords : (left : Nat) → List UInt32 → List UInt32
  | 0, w => w
  | left + 1, w => extendWords left (w ++ [nextWord w])

/-- The array `w`. -/
def sha1Words (block : Vector UInt8 64) : List UInt32 :=
  extendWords 64 (List.ofFn (blockWord block))

/-- Round `i` with its word. -/
def sha1Round (i : Nat) (word : UInt32) (s : Sha1State) : Sha1State :=
  let (f, k) :=
    if i < 20 then ((s.b &&& s.c) ||| (~~~s.b &&& s.d), (0x5a827999 : UInt32))
    else if i < 40 then (s.b ^^^ s.c ^^^ s.d, 0x6ed9eba1)
    else if i < 60 then ((s.b &&& s.c) ||| (s.b &&& s.d) ||| (s.c &&& s.d), 0x8f1bbcdc)
    else (s.b ^^^ s.c ^^^ s.d, 0xca62c1d6)
  { a := sha1Rol s.a 5 + f + s.e + k + word, b := s.a, c := sha1Rol s.b 30, d := s.c, e := s.d }

/-- The third loop of `sha1_transform` from round `i` on. -/
def sha1Rounds : (i : Nat) → List UInt32 → Sha1State → Sha1State
  | _, [], s => s
  | i, word :: rest, s => sha1Rounds (i + 1) rest (sha1Round i word s)

def sha1Transform (state : Sha1State) (block : Vector UInt8 64) : Sha1State :=
  let s := sha1Rounds 0 (sha1Words block) state
  { a := state.a + s.a, b := state.b + s.b, c := state.c + s.c, d := state.d + s.d
    e := state.e + s.e }

def sha1Init : Sha1Ctx where
  state := ⟨0x67452301, 0xefcdab89, 0x98badcfe, 0x10325476, 0xc3d2e1f0⟩
  bitCount := 0
  buffer := Vector.replicate 64 0

/-- `memcpy(&buffer[index], data, strlen)`, as far as the buffer goes. -/
def storeAt (buffer : Vector UInt8 64) (index : Nat) (data : Bytes) : Vector UInt8 64 :=
  Vector.ofFn fun i =>
    if index ≤ i.val then data.getD (i.val - index) buffer[i] else buffer[i]

/-- The loop of `sha1_update`. Each round takes at least one byte, so the data's length
is enough fuel. -/
def sha1UpdateLoop : (fuel index : Nat) → Bytes → Sha1State → Vector UInt8 64 →
    Sha1State × Vector UInt8 64
  | 0, _, _, state, buffer => (state, buffer)
  | fuel + 1, index, data, state, buffer =>
      if data = [] then (state, buffer)
      else
        let chunk := min data.length (64 - index)
        let buffer := storeAt buffer index (data.take chunk)
        if index + chunk = 64 then
          sha1UpdateLoop fuel 0 (data.drop chunk) (sha1Transform state buffer) buffer
        else sha1UpdateLoop fuel (index + chunk) (data.drop chunk) state buffer

def sha1Update (ctx : Sha1Ctx) (data : Bytes) : Sha1Ctx :=
  let index := (ctx.bitCount / 8).toNat % 64
  let (state, buffer) := sha1UpdateLoop data.length index data ctx.state ctx.buffer
  -- `len * 8U` is a product of 32-bit sizes
  { state, bitCount := ctx.bitCount + (data.length.toUInt32 * 8).toUInt64, buffer }

/-- The padding loop of `sha1_final`. It ends within a block. -/
def sha1Pad : (fuel : Nat) → Sha1Ctx → Sha1Ctx
  | 0, ctx => ctx
  | fuel + 1, ctx =>
      if (ctx.bitCount / 8).toNat % 64 ≠ 56 then sha1Pad fuel (sha1Update ctx [0]) else ctx

/-- A word as four bytes, most significant first. -/
def wordBytes (word : UInt32) : Bytes :=
  [(word >>> 24).toUInt8, (word >>> 16).toUInt8, (word >>> 8).toUInt8, word.toUInt8]

/-- The bit count as eight bytes, most significant first. -/
def countBytes (bits : UInt64) : Bytes :=
  (List.range 8).map fun i => (bits >>> ((7 - i) * 8).toUInt64).toUInt8

def sha1Final (ctx : Sha1Ctx) : Bytes :=
  let padded := sha1Pad 64 (sha1Update ctx [0x80])
  let s := (sha1Update padded (countBytes ctx.bitCount)).state
  wordBytes s.a ++ wordBytes s.b ++ wordBytes s.c ++ wordBytes s.d ++ wordBytes s.e

/-! ## Base64 -/

def base64Alphabet : Bytes :=
  lit "ABCDEFGHIJKLMNOPQRSTUVWXYZabcdefghijklmnopqrstuvwxyz0123456789+/"

/-- `alphabet[value & 0x3f]`. -/
def base64Digit (value : UInt32) : UInt8 := base64Alphabet.getD (value &&& 0x3f).toNat 0

/-- The four characters of a group that begins with the bytes of `src`. -/
def base64Group (src : Bytes) : Bytes :=
  let value := (src.getD 0 0).toUInt32 <<< 16 ||| (src.getD 1 0).toUInt32 <<< 8 |||
    (src.getD 2 0).toUInt32
  [base64Digit (value >>> 18), base64Digit (value >>> 12),
    if src.length > 1 then base64Digit (value >>> 6) else 61,
    if src.length > 2 then base64Digit value else 61]

/-- The loop of `base64_encode_small`: nothing when a group and the terminator do not
fit. Each round takes at least one byte, so the source's length is enough fuel. -/
def base64Loop (dstLen : Nat) : (fuel : Nat) → (src dst : Bytes) → Option Bytes
  | 0, _, dst => some dst
  | fuel + 1, src, dst =>
      if src = [] then some dst
      else if dst.length + 4 ≥ dstLen then none
      else base64Loop dstLen fuel (src.drop 3) (dst ++ base64Group src)

/-- The text in the destination, or `-ENOMEM`. -/
def base64EncodeSmall (src : Bytes) (dstLen : Nat) : Except Int Bytes :=
  match base64Loop dstLen src.length src [] with
  | none => .error (-eNoMem)
  | some text => .ok text

/-! ## The accept key -/

def buildWebsocketAccept (request : Bytes) (acceptLen : Nat) : Except Int Bytes :=
  match findHeaderValue request "Sec-WebSocket-Key" with
  | none => .error (-eInval)
  | some key =>
      let keyLen := headerValueLen key
      if keyLen = 0 ∨ keyLen > 64 then .error (-eInval)
      else
        let sha1 := sha1Update (sha1Update sha1Init (key.take keyLen)) wsGuid
        base64EncodeSmall (sha1Final sha1) acceptLen

end PicoCan.Http
