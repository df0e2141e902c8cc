import MaasBoot.Lib.Bytes

/-!
# SHA-256

`crypto/sha256` as it is specified (FIPS 180-4), for runs on concrete inputs.  What is proved about programs takes the
digest as a parameter.
-/

namespace MaasBoot

namespace Sha256

/-- The round constants. -/
def constants : List UInt32 :=
  [0x428a2f98, 0x71374491, 0xb5c0fbcf, 0xe9b5dba5, 0x3956c25b, 0x59f111f1, 0x923f82a4, 0xab1c5ed5,
    0xd807aa98, 0x12835b01, 0x243185be, 0x550c7dc3, 0x72be5d74, 0x80deb1fe, 0x9bdc06a7, 0xc19bf174,
    0xe49b69c1, 0xefbe4786, 0x0fc19dc6, 0x240ca1cc, 0x2de92c6f, 0x4a7484aa, 0x5cb0a9dc, 0x76f988da,
    0x983e5152, 0xa831c66d, 0xb00327c8, 0xbf597fc7, 0xc6e00bf3, 0xd5a79147, 0x06ca6351, 0x14292967,
    0x27b70a85, 0x2e1b2138, 0x4d2c6dfc, 0x53380d13, 0x650a7354, 0x766a0abb, 0x81c2c92e, 0x92722c85,
    0xa2bfe8a1, 0xa81a664b, 0xc24b8b70, 0xc76c51a3, 0xd192e819, 0xd6990624, 0xf40e3585, 0x106aa070,
    0x19a4c116, 0x1e376c08, 0x2748774c, 0x34b0bcb5, 0x391c0cb3, 0x4ed8aa4a, 0x5b9cca4f, 0x682e6ff3,
    0x748f82ee, 0x78a5636f, 0x84c87814, 0x8cc70208, 0x90befffa, 0xa4506ceb, 0xbef9a3f7, 0xc67178f2]

/-- The hash value. -/
structure State where
  a : UInt32 := 0x6a09e667
  b : UInt32 := 0xbb67ae85
  c : UInt32 := 0x3c6ef372
  d : UInt32 := 0xa54ff53a
  e : UInt32 := 0x510e527f
  f : UInt32 := 0x9b05688c
  g : UInt32 := 0x1f83d9ab
  h : UInt32 := 0x5be0cd19

def rotr (n x : UInt32) : UInt32 := (x >>> n) ||| (x <<< (32 - n))

/-- The message with its padding and its length. -/
def pad (msg : Bytes) : Bytes :=
  msg ++ 0x80 :: zeros ((119 - msg.length % 64) % 64) ++ be32 (8 * msg.length / 4294967296) ++ be32 (8 * msg.length)

/-- The message schedule, the last word first. -/
def schedule : Nat → List UInt32 → List UInt32
  | 0, ws => ws
  | n + 1, ws =>
    let x := ws.getD 1 0
    let y := ws.getD 14 0
    schedule n (((rotr 17 x ^^^ rotr 19 x ^^^ (x >>> 10)) + ws.getD 6 0 +
      (rotr 7 y ^^^ rotr 18 y ^^^ (y >>> 3)) + ws.getD 15 0) :: ws)

def round (s : State) (kw : UInt32 × UInt32) : State :=
  let t₁ := s.h + (rotr 6 s.e ^^^ rotr 11 s.e ^^^ rotr 25 s.e) + ((s.e &&& s.f) ^^^ ((~~~ s.e) &&& s.g)) + kw.1 + kw.2
  let t₂ := (rotr 2 s.a ^^^ rotr 13 s.a ^^^ rotr 22 s.a) + ((s.a &&& s.b) ^^^ (s.a &&& s.c) ^^^ (s.b &&& s.c))
  { a := t₁ + t₂, b := s.a, c := s.b, d := s.c, e := s.d + t₁, f := s.e, g := s.f, h := s.g }

/-- The state after one block of the message. -/
def block (s : State) (b : Bytes) : State :=
  let words := (List.range 16).map fun i => UInt32.ofNat (be32At b (4 * i))
  let t := (constants.zip (schedule 48 words.reverse).reverse).foldl round s
  { a := s.a + t.a, b := s.b + t.b, c := s.c + t.c, d := s.d + t.d,
    e := s.e + t.e, f := s.f + t.f, g := s.g + t.g, h := s.h + t.h }

def State.bytes (s : State) : Bytes :=
  [s.a, s.b, s.c, s.d, s.e, s.f, s.g, s.h].flatMap fun w => be32 w.toNat

end Sha256

/-- `sha256.Sum256` -/
def sum256 (msg : Bytes) : Vector UInt8 32 :=
  let padded := Sha256.pad msg
  let s := (List.range (padded.length / 64)).foldl (fun s i => Sha256.block s (slice padded (64 * i) 64))
    ({} : Sha256.State)
  Vector.ofFn fun i => s.bytes.getD i 0

example : (sum256 (str "abc")).toList =
    [0xba, 0x78, 0x16, 0xbf, 0x8f, 0x01, 0xcf, 0xea, 0x41, 0x41, 0x40, 0xde, 0x5d, 0xae, 0x22, 0x23,
      0xb0, 0x03, 0x61, 0xa3, 0x96, 0x17, 0x7a, 0x9c, 0xb4, 0x10, 0xff, 0x61, 0xf2, 0x00, 0x15, 0xad] := by
  decide +kernel

end MaasBoot
