import PocketCoder.Foundation.Bytes

/-!
SHA-256 on byte strings. Developments that need only *a* hash function of
this shape take it as a parameter; this one can stand for it.
-/

namespace PocketCoder.Foundation

namespace Sha256

/-- The eight words of the running hash. -/
structure State where
  a : UInt32
  b : UInt32
  c : UInt32
  d : UInt32
  e : UInt32
  f : UInt32
  g : UInt32
  h : UInt32

def initial : State where
  a := 0x6a09e667
  b := 0xbb67ae85
  c := 0x3c6ef372
  d := 0xa54ff53a
  e := 0x510e527f
  f := 0x9b05688c
  g := 0x1f83d9ab
  h := 0x5be0cd19

def constants : List UInt32 :=
  [0x428a2f98, 0x71374491, 0xb5c0fbcf, 0xe9b5dba5, 0x3956c25b, 0x59f111f1, 0x923f82a4, 0xab1c5ed5,
    0xd807aa98, 0x12835b01, 0x243185be, 0x550c7dc3, 0x72be5d74, 0x80deb1fe, 0x9bdc06a7, 0xc19bf174,
    0xe49b69c1, 0xefbe4786, 0x0fc19dc6, 0x240ca1cc, 0x2de92c6f, 0x4a7484aa, 0x5cb0a9dc, 0x76f988da,
    0x983e5152, 0xa831c66d, 0xb00327c8, 0xbf597fc7, 0xc6e00bf3, 0xd5a79147, 0x06ca6351, 0x14292967,
    0x27b70a85, 0x2e1b2138, 0x4d2c6dfc, 0x53380d13, 0x650a7354, 0x766a0abb, 0x81c2c92e, 0x92722c85,
    0xa2bfe8a1, 0xa81a664b, 0xc24b8b70, 0xc76c51a3, 0xd192e819, 0xd6990624, 0xf40e3585, 0x106aa070,
    0x19a4c116, 0x1e376c08, 0x2748774c, 0x34b0bcb5, 0x391c0cb3, 0x4ed8aa4a, 0x5b9cca4f, 0x682e6ff3,
    0x748f82ee, 0x78a5636f, 0x84c87814, 0x8cc70208, 0x90befffa, 0xa4506ceb, 0xbef9a3f7, 0xc67178f2]

def rotateRight (x n : UInt32) : UInt32 := (x >>> n) ||| (x <<< (32 - n))

/-- The message, a one bit, zeros, and the length in bits. -/
def pad (message : Bytes) : Bytes :=
  message ++ 0x80 :: (List.replicate ((119 - message.length % 64) % 64) 0 ++
    uint64BE (8 * message.length))

/-- The words of a block, last one first. -/
def words (block : Bytes) : List UInt32 :=
  ((chunksOf 4 block).map fun bytes =>
    bytes.foldl (fun w b => (w <<< 8) ||| b.toUInt32) 0).reverse

/-- `n` more words of the message schedule, last one first. -/
def schedule : Nat → List UInt32 → List UInt32
  | 0, ws => ws
  | n + 1, ws =>
      let w (i : Nat) := ws.getD i 0
      let s₀ := rotateRight (w 14) 7 ^^^ rotateRight (w 14) 18 ^^^ (w 14 >>> 3)
      let s₁ := rotateRight (w 1) 17 ^^^ rotateRight (w 1) 19 ^^^ (w 1 >>> 10)
      schedule n ((w 15 + s₀ + w 6 + s₁) :: ws)

def round (s : State) (kw : UInt32 × UInt32) : State :=
  let s₁ := rotateRight s.e 6 ^^^ rotateRight s.e 11 ^^^ rotateRight s.e 25
  let choice := (s.e &&& s.f) ^^^ (~~~s.e &&& s.g)
  let t₁ := s.h + s₁ + choice + kw.1 + kw.2
  let s₀ := rotateRight s.a 2 ^^^ rotateRight s.a 13 ^^^ rotateRight s.a 22
  let majority := (s.a &&& s.b) ^^^ (s.a &&& s.c) ^^^ (s.b &&& s.c)
  { a := t₁ + (s₀ + majority), b := s.a, c := s.b, d := s.c, e := s.d + t₁, f := s.e, g := s.f,
    h := s.g }

def compress (s : State) (block : Bytes) : State :=
  let r := (constants.zip (schedule 48 (words block)).reverse).foldl round s
  { a := s.a + r.a, b := s.b + r.b, c := s.c + r.c, d := s.d + r.d, e := s.e + r.e, f := s.f + r.f,
    g := s.g + r.g, h := s.h + r.h }

def wordBytes (w : UInt32) : Bytes :=
  [(w >>> 24).toUInt8, (w >>> 16).toUInt8, (w >>> 8).toUInt8, w.toUInt8]

end Sha256

open Sha256 in
def sha256 (message : Bytes) : Bytes :=
  let s := (chunksOf 64 (pad message)).foldl compress initial
  wordBytes s.a ++ wordBytes s.b ++ wordBytes s.c ++ wordBytes s.d ++ wordBytes s.e ++
    wordBytes s.f ++ wordBytes s.g ++ wordBytes s.h

theorem length_sha256 (message : Bytes) : (sha256 message).length = 32 := rfl

end PocketCoder.Foundation
