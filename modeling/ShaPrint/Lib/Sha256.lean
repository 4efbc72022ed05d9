import ShaPrint.Lib.BigEndian

/-!
SHA-256 of a byte string (FIPS 180-4), on words that are natural numbers below `2 ^ 32`.

* `padded`: the message, a bit, and its length, filled up to whole blocks.
* `schedule`: the words of the rounds of one block, from the sixteen words it has.
* `compress`: the rounds over one block; `digest` runs it over all of them.
-/

namespace Sha256

open BigEndian

/-- The modulus of a word. -/
def modulus : ℕ := 4294967296

def rotr (n x : ℕ) : ℕ := (x >>> n ||| x <<< (32 - n)) % modulus

def bigSigma0 (x : ℕ) : ℕ := rotr 2 x ^^^ rotr 13 x ^^^ rotr 22 x

def bigSigma1 (x : ℕ) : ℕ := rotr 6 x ^^^ rotr 11 x ^^^ rotr 25 x

def smallSigma0 (x : ℕ) : ℕ := rotr 7 x ^^^ rotr 18 x ^^^ x >>> 3

def smallSigma1 (x : ℕ) : ℕ := rotr 17 x ^^^ rotr 19 x ^^^ x >>> 10

/-- The bits of `f` where those of `e` are set, and of `g` elsewhere. -/
def choose (e f g : ℕ) : ℕ := (e &&& f) ^^^ ((modulus - 1 - e) &&& g)

def majority (a b c : ℕ) : ℕ := (a &&& b) ^^^ (a &&& c) ^^^ (b &&& c)

/-- The working variables. -/
structure Work where
  a : ℕ
  b : ℕ
  c : ℕ
  d : ℕ
  e : ℕ
  f : ℕ
  g : ℕ
  h : ℕ
  deriving DecidableEq

/-- The hash value before the first block. -/
def initial : Work :=
  ⟨0x6a09e667, 0xbb67ae85, 0x3c6ef372, 0xa54ff53a, 0x510e527f, 0x9b05688c, 0x1f83d9ab, 0x5be0cd19⟩

/-- The constants of the rounds. -/
def constants : List ℕ :=
  [0x428a2f98, 0x71374491, 0xb5c0fbcf, 0xe9b5dba5, 0x3956c25b, 0x59f111f1, 0x923f82a4, 0xab1c5ed5,
   0xd807aa98, 0x12835b01, 0x243185be, 0x550c7dc3, 0x72be5d74, 0x80deb1fe, 0x9bdc06a7, 0xc19bf174,
   0xe49b69c1, 0xefbe4786, 0x0fc19dc6, 0x240ca1cc, 0x2de92c6f, 0x4a7484aa, 0x5cb0a9dc, 0x76f988da,
   0x983e5152, 0xa831c66d, 0xb00327c8, 0xbf597fc7, 0xc6e00bf3, 0xd5a79147, 0x06ca6351, 0x14292967,
   0x27b70a85, 0x2e1b2138, 0x4d2c6dfc, 0x53380d13, 0x650a7354, 0x766a0abb, 0x81c2c92e, 0x92722c85,
   0xa2bfe8a1, 0xa81a664b, 0xc24b8b70, 0xc76c51a3, 0xd192e819, 0xd6990624, 0xf40e3585, 0x106aa070,
   0x19a4c116, 0x1e376c08, 0x2748774c, 0x34b0bcb5, 0x391c0cb3, 0x4ed8aa4a, 0x5b9cca4f, 0x682e6ff3,
   0x748f82ee, 0x78a5636f, 0x84c87814, 0x8cc70208, 0x90befffa, 0xa4506ceb, 0xbef9a3f7, 0xc67178f2]

/-- The next word of a schedule, from the words before it, the last one first. -/
def nextWord (words : List ℕ) : ℕ :=
  (smallSigma1 (words.getD 1 0) + words.getD 6 0 + smallSigma0 (words.getD 14 0)
    + words.getD 15 0) % modulus

/-- Extends a schedule, the last word first, and puts it in order. -/
def schedule : ℕ → List ℕ → List ℕ
  | 0, words => words.reverse
  | k + 1, words => schedule k (nextWord words :: words)

/-- A round with its constant and its word. -/
def round (w : Work) (input : ℕ × ℕ) : Work :=
  let t1 := w.h + bigSigma1 w.e + choose w.e w.f w.g + input.1 + input.2
  let t2 := bigSigma0 w.a + majority w.a w.b w.c
  ⟨(t1 + t2) % modulus, w.a, w.b, w.c, (w.d + t1) % modulus, w.e, w.f, w.g⟩

/-- The words of a block. -/
def wordsOf : List UInt8 → List ℕ
  | a :: b :: c :: d :: rest => ofBe32 a b c d :: wordsOf rest
  | _ => []

def compress (w : Work) (block : List UInt8) : Work :=
  let v := (constants.zip (schedule 48 (wordsOf block).reverse)).foldl round w
  ⟨(w.a + v.a) % modulus, (w.b + v.b) % modulus, (w.c + v.c) % modulus, (w.d + v.d) % modulus,
    (w.e + v.e) % modulus, (w.f + v.f) % modulus, (w.g + v.g) % modulus, (w.h + v.h) % modulus⟩

/-- The message, a set bit, zeros up to eight bytes before a block's end, and the length in
bits. -/
def padded (message : List UInt8) : List UInt8 :=
  let zeros := (119 - message.length % 64) % 64
  let bits := 8 * message.length
  message ++ 0x80 :: List.replicate zeros 0 ++ be32 (bits / modulus) ++ be32 bits

/-- Runs over a number of blocks. -/
def compressBlocks : ℕ → Work → List UInt8 → Work
  | 0, w, _ => w
  | n + 1, w, bytes => compressBlocks n (compress w (bytes.take 64)) (bytes.drop 64)

def Work.bytes (w : Work) : List UInt8 :=
  be32 w.a ++ be32 w.b ++ be32 w.c ++ be32 w.d ++ be32 w.e ++ be32 w.f ++ be32 w.g ++ be32 w.h

@[simp] lemma Work.length_bytes (w : Work) : w.bytes.length = 32 := rfl

/-- The digest of a message. -/
def digest (message : List UInt8) : Vector UInt8 32 :=
  let bytes := padded message
  let w := compressBlocks (bytes.length / 64) initial bytes
  ⟨w.bytes.toArray, w.length_bytes⟩

example : (digest [0x61, 0x62, 0x63]).toList =
    [0xba, 0x78, 0x16, 0xbf, 0x8f, 0x01, 0xcf, 0xea, 0x41, 0x41, 0x40, 0xde, 0x5d, 0xae, 0x22,
     0x23, 0xb0, 0x03, 0x61, 0xa3, 0x96, 0x17, 0x7a, 0x9c, 0xb4, 0x10, 0xff, 0x61, 0xf2, 0x00,
     0x15, 0xad] := by
  decide +kernel

end Sha256
