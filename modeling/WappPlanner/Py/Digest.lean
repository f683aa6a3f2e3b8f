import WappPlanner.Py.Text

/-! # SHA-256 and HMAC

The two digests the program takes from its standard library. -/

namespace WappPlanner.Py.Digest

open WappPlanner.Py.Values

/-! ### SHA-256 -/

def roundConstants : List UInt32 :=
  [0x428a2f98, 0x71374491, 0xb5c0fbcf, 0xe9b5dba5, 0x3956c25b, 0x59f111f1, 0x923f82a4, 0xab1c5ed5,
    0xd807aa98, 0x12835b01, 0x243185be, 0x550c7dc3, 0x72be5d74, 0x80deb1fe, 0x9bdc06a7, 0xc19bf174,
    0xe49b69c1, 0xefbe4786, 0x0fc19dc6, 0x240ca1cc, 0x2de92c6f, 0x4a7484aa, 0x5cb0a9dc, 0x76f988da,
    0x983e5152, 0xa831c66d, 0xb00327c8, 0xbf597fc7, 0xc6e00bf3, 0xd5a79147, 0x06ca6351, 0x14292967,
    0x27b70a85, 0x2e1b2138, 0x4d2c6dfc, 0x53380d13, 0x650a7354, 0x766a0abb, 0x81c2c92e, 0x92722c85,
    0xa2bfe8a1, 0xa81a664b, 0xc24b8b70, 0xc76c51a3, 0xd192e819, 0xd6990624, 0xf40e3585, 0x106aa070,
    0x19a4c116, 0x1e376c08, 0x2748774c, 0x34b0bcb5, 0x391c0cb3, 0x4ed8aa4a, 0x5b9cca4f, 0x682e6ff3,
    0x748f82ee, 0x78a5636f, 0x84c87814, 0x8cc70208, 0x90befffa, 0xa4506ceb, 0xbef9a3f7, 0xc67178f2]

/-- The eight words of the state. -/
structure Words where
  a : UInt32
  b : UInt32
  c : UInt32
  d : UInt32
  e : UInt32
  f : UInt32
  g : UInt32
  h : UInt32

def initialWords : Words :=
  ⟨0x6a09e667, 0xbb67ae85, 0x3c6ef372, 0xa54ff53a, 0x510e527f, 0x9b05688c, 0x1f83d9ab, 0x5be0cd19⟩

def rotr (x n : UInt32) : UInt32 := (x >>> n) ||| (x <<< (32 - n))

/-- One round with the sum of its constant and its message word. -/
def round (s : Words) (kw : UInt32) : Words :=
  let t₁ := s.h + (rotr s.e 6 ^^^ rotr s.e 11 ^^^ rotr s.e 25) +
    ((s.e &&& s.f) ^^^ (~~~s.e &&& s.g)) + kw
  let t₂ := (rotr s.a 2 ^^^ rotr s.a 13 ^^^ rotr s.a 22) +
    ((s.a &&& s.b) ^^^ (s.a &&& s.c) ^^^ (s.b &&& s.c))
  ⟨t₁ + t₂, s.a, s.b, s.c, s.d + t₁, s.e, s.f, s.g⟩

/-- `n` more words of the message schedule; the list is the last word first. -/
def schedule : (n : ℕ) → List UInt32 → List UInt32
  | 0, ws => ws
  | n + 1, ws =>
    let w₂ := ws.getD 1 0
    let w₁₅ := ws.getD 14 0
    let next := (rotr w₂ 17 ^^^ rotr w₂ 19 ^^^ (w₂ >>> 10)) + ws.getD 6 0 +
      (rotr w₁₅ 7 ^^^ rotr w₁₅ 18 ^^^ (w₁₅ >>> 3)) + ws.getD 15 0
    schedule n (next :: ws)

/-- Bytes as big-endian words. -/
def words : Bytes → List UInt32
  | a :: b :: c :: d :: rest =>
    ((a.toUInt32 <<< 24) ||| (b.toUInt32 <<< 16) ||| (c.toUInt32 <<< 8) ||| d.toUInt32) :: words rest
  | _ => []

def wordBytes (w : UInt32) : Bytes :=
  [(w >>> 24).toUInt8, (w >>> 16).toUInt8, (w >>> 8).toUInt8, w.toUInt8]

/-- The state after one block of 64 bytes. -/
def compress (s : Words) (block : Bytes) : Words :=
  let ws := (schedule 48 (words block).reverse).reverse
  let t := (List.zipWith (· + ·) roundConstants ws).foldl round s
  ⟨s.a + t.a, s.b + t.b, s.c + t.c, s.d + t.d, s.e + t.e, s.f + t.f, s.g + t.g, s.h + t.h⟩

/-- The length in bits, in eight bytes. -/
def lengthBytes (n : ℕ) : Bytes := (List.range 8).map fun i => UInt8.ofNat (8 * n / 256 ^ (7 - i))

/-- The message padded to whole blocks. -/
def padMessage (msg : Bytes) : Bytes :=
  msg ++ [0x80] ++ List.replicate ((119 - msg.length % 64) % 64) 0 ++ lengthBytes msg.length

/-- `n` blocks, one after the other. -/
def compressAll : (n : ℕ) → Words → Bytes → Words
  | 0, s, _ => s
  | n + 1, s, bs => compressAll n (compress s (bs.take 64)) (bs.drop 64)

/-- `hashlib.sha256(msg).digest()`. -/
def sha256 (msg : Bytes) : Bytes :=
  let padded := padMessage msg
  let s := compressAll (padded.length / 64) initialWords padded
  [s.a, s.b, s.c, s.d, s.e, s.f, s.g, s.h].flatMap wordBytes

example : Text.hex (sha256 (utf8 "abc")) =
    "ba7816bf8f01cfea414140de5dae2223b00361a396177a9cb410ff61f20015ad" := by decide +kernel

/-! ### HMAC -/

/-- The key in one block. -/
def keyBlock (key : Bytes) : Bytes :=
  let key := if 64 < key.length then sha256 key else key
  key ++ List.replicate (64 - key.length) 0

/-- `hmac.new(key, msg, hashlib.sha256).digest()`. -/
def hmacSha256 (key msg : Bytes) : Bytes :=
  let block := keyBlock key
  sha256 (block.map (· ^^^ 0x5c) ++ sha256 (block.map (· ^^^ 0x36) ++ msg))

end WappPlanner.Py.Digest
