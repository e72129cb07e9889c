/-!
# SHA-256

The message digest of FIPS 180-4 over a list of bytes: the message is padded to whole
64-byte blocks (a one bit, zeros, then the bit length in 64 big-endian bits), each block is
expanded to 64 schedule words and folded into eight working words by 64 rounds.  The digest
is the final eight words, big-endian.  `Sha256.hex` writes it in lower-case hexadecimal.
-/

namespace QueryShield
namespace Sha256

/-- The round constants: the first 32 bits of the fractional parts of the cube roots of the
first 64 primes. -/
def roundConstants : Array UInt32 := #[
  0x428a2f98, 0x71374491, 0xb5c0fbcf, 0xe9b5dba5, 0x3956c25b, 0x59f111f1, 0x923f82a4, 0xab1c5ed5,
  0xd807aa98, 0x12835b01, 0x243185be, 0x550c7dc3, 0x72be5d74, 0x80deb1fe, 0x9bdc06a7, 0xc19bf174,
  0xe49b69c1, 0xefbe4786, 0x0fc19dc6, 0x240ca1cc, 0x2de92c6f, 0x4a7484aa, 0x5cb0a9dc, 0x76f988da,
  0x983e5152, 0xa831c66d, 0xb00327c8, 0xbf597fc7, 0xc6e00bf3, 0xd5a79147, 0x06ca6351, 0x14292967,
  0x27b70a85, 0x2e1b2138, 0x4d2c6dfc, 0x53380d13, 0x650a7354, 0x766a0abb, 0x81c2c92e, 0x92722c85,
  0xa2bfe8a1, 0xa81a664b, 0xc24b8b70, 0xc76c51a3, 0xd192e819, 0xd6990624, 0xf40e3585, 0x106aa070,
  0x19a4c116, 0x1e376c08, 0x2748774c, 0x34b0bcb5, 0x391c0cb3, 0x4ed8aa4a, 0x5b9cca4f, 0x682e6ff3,
  0x748f82ee, 0x78a5636f, 0x84c87814, 0x8cc70208, 0x90befffa, 0xa4506ceb, 0xbef9a3f7, 0xc67178f2]

/-- The eight working words. -/
structure Words where
  a : UInt32
  b : UInt32
  c : UInt32
  d : UInt32
  e : UInt32
  f : UInt32
  g : UInt32
  h : UInt32

/-- The initial words: the first 32 bits of the fractional parts of the square roots of the
first eight primes. -/
def initial : Words :=
  ⟨0x6a09e667, 0xbb67ae85, 0x3c6ef372, 0xa54ff53a, 0x510e527f, 0x9b05688c, 0x1f83d9ab, 0x5be0cd19⟩

/-- Rotation to the right within 32 bits. -/
def rotr (x : UInt32) (n : UInt32) : UInt32 := (x >>> n) ||| (x <<< (32 - n))

/-- The big-endian word of the first four bytes. -/
def word (bytes : List UInt8) : UInt32 :=
  bytes.take 4 |>.foldl (fun acc b => (acc <<< 8) ||| b.toUInt32) 0

/-- The 64 schedule words of a block. -/
def schedule (block : List UInt8) : Array UInt32 :=
  let first : Array UInt32 := (List.range 16).toArray.map fun i => word (block.drop (4 * i))
  (List.range 48).foldl (fun w j =>
    let i := j + 16
    let x := w.getD (i - 15) 0
    let y := w.getD (i - 2) 0
    let s0 := rotr x 7 ^^^ rotr x 18 ^^^ (x >>> 3)
    let s1 := rotr y 17 ^^^ rotr y 19 ^^^ (y >>> 10)
    w.push (w.getD (i - 16) 0 + s0 + w.getD (i - 7) 0 + s1)) first

/-- One round with round constant `k` and schedule word `w`. -/
def round (r : Words) (k w : UInt32) : Words :=
  let s1 := rotr r.e 6 ^^^ rotr r.e 11 ^^^ rotr r.e 25
  let ch := (r.e &&& r.f) ^^^ ((~~~r.e) &&& r.g)
  let t1 := r.h + s1 + ch + k + w
  let s0 := rotr r.a 2 ^^^ rotr r.a 13 ^^^ rotr r.a 22
  let maj := (r.a &&& r.b) ^^^ (r.a &&& r.c) ^^^ (r.b &&& r.c)
  ⟨t1 + (s0 + maj), r.a, r.b, r.c, r.d + t1, r.e, r.f, r.g⟩

/-- The words after one block: the 64 rounds, added word by word to the words before. -/
def compress (start : Words) (block : List UInt8) : Words :=
  let w := schedule block
  let r := (List.range 64).foldl (fun r i => round r (roundConstants.getD i 0) (w.getD i 0)) start
  ⟨start.a + r.a, start.b + r.b, start.c + r.c, start.d + r.d,
   start.e + r.e, start.f + r.f, start.g + r.g, start.h + r.h⟩

/-- The eight big-endian bytes of a number below `2^64`. -/
def lengthBytes (n : Nat) : List UInt8 :=
  (List.range 8).reverse.map fun i => (n / Nat.pow 2 (8 * i) % 256).toUInt8

/-- The message padded to whole blocks. -/
def pad (message : List UInt8) : List UInt8 :=
  let zeros := (55 + 64 - message.length % 64) % 64
  message ++ [0x80] ++ List.replicate zeros 0 ++ lengthBytes (8 * message.length)

/-- The words after the given blocks, 64 bytes at a time. -/
def absorb (start : Words) : List UInt8 → Words
  | [] => start
  | b :: rest => absorb (compress start (b :: rest)) ((b :: rest).drop 64)
termination_by bytes => bytes.length
decreasing_by simp only [List.length_drop, List.length_cons]; omega

/-- The eight hexadecimal digits of a word. -/
def wordHex (x : UInt32) : String :=
  let digit (n : Nat) : Char := "0123456789abcdef".toList.getD n '0'
  String.ofList ((List.range 8).reverse.map fun i => digit (x.toNat / Nat.pow 16 i % 16))

/-- The digest of a byte list, in lower-case hexadecimal. -/
def hexOfBytes (message : List UInt8) : String :=
  let r := absorb initial (pad message)
  String.join ([r.a, r.b, r.c, r.d, r.e, r.f, r.g, r.h].map wordHex)

/-- The digest of a text's UTF-8 bytes, in lower-case hexadecimal. -/
def hex (text : String) : String := hexOfBytes text.toUTF8.data.toList

end Sha256
end QueryShield
