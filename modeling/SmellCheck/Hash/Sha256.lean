import SmellCheck.Text.Utf8
/-!
# SHA-256

The digest of a byte string. The message is padded to whole blocks of
sixty-four bytes, and each block is mixed into a state of eight words by
sixty-four rounds.
-/

namespace SmellCheck.Sha256

/-- A word of the hash. -/
abbrev Word := UInt32

/-! ## Constants -/

/-- The words that are added in the rounds. -/
def roundWords : List Word :=
  [0x428a2f98, 0x71374491, 0xb5c0fbcf, 0xe9b5dba5, 0x3956c25b, 0x59f111f1, 0x923f82a4, 0xab1c5ed5,
   0xd807aa98, 0x12835b01, 0x243185be, 0x550c7dc3, 0x72be5d74, 0x80deb1fe, 0x9bdc06a7, 0xc19bf174,
   0xe49b69c1, 0xefbe4786, 0x0fc19dc6, 0x240ca1cc, 0x2de92c6f, 0x4a7484aa, 0x5cb0a9dc, 0x76f988da,
   0x983e5152, 0xa831c66d, 0xb00327c8, 0xbf597fc7, 0xc6e00bf3, 0xd5a79147, 0x06ca6351, 0x14292967,
   0x27b70a85, 0x2e1b2138, 0x4d2c6dfc, 0x53380d13, 0x650a7354, 0x766a0abb, 0x81c2c92e, 0x92722c85,
   0xa2bfe8a1, 0xa81a664b, 0xc24b8b70, 0xc76c51a3, 0xd192e819, 0xd6990624, 0xf40e3585, 0x106aa070,
   0x19a4c116, 0x1e376c08, 0x2748774c, 0x34b0bcb5, 0x391c0cb3, 0x4ed8aa4a, 0x5b9cca4f, 0x682e6ff3,
   0x748f82ee, 0x78a5636f, 0x84c87814, 0x8cc70208, 0x90befffa, 0xa4506ceb, 0xbef9a3f7, 0xc67178f2]

/-- The eight words that are mixed. -/
structure State where
  a : Word
  b : Word
  c : Word
  d : Word
  e : Word
  f : Word
  g : Word
  h : Word
  deriving DecidableEq

/-- The state before the first block. -/
def initial : State :=
  ⟨0x6a09e667, 0xbb67ae85, 0x3c6ef372, 0xa54ff53a, 0x510e527f, 0x9b05688c, 0x1f83d9ab, 0x5be0cd19⟩

/-! ## Words -/

/-- The word turned to the right. -/
def rotate (w k : Word) : Word :=
  (w >>> k) ||| (w <<< (32 - k))

/-- Mixes a word of the schedule that is fifteen places back. -/
def smallSigma0 (w : Word) : Word :=
  rotate w 7 ^^^ rotate w 18 ^^^ (w >>> 3)

/-- Mixes a word of the schedule that is two places back. -/
def smallSigma1 (w : Word) : Word :=
  rotate w 17 ^^^ rotate w 19 ^^^ (w >>> 10)

/-- Mixes the first word of the state. -/
def bigSigma0 (w : Word) : Word :=
  rotate w 2 ^^^ rotate w 13 ^^^ rotate w 22

/-- Mixes the fifth word of the state. -/
def bigSigma1 (w : Word) : Word :=
  rotate w 6 ^^^ rotate w 11 ^^^ rotate w 25

/-- Takes each bit from the second or the third word. -/
def choose (x y z : Word) : Word :=
  (x &&& y) ^^^ (~~~x &&& z)

/-- Takes each bit as most of the words have it. -/
def majority (x y z : Word) : Word :=
  (x &&& y) ^^^ (x &&& z) ^^^ (y &&& z)

/-- The words of a byte string, the high bytes first. Bytes that make no
whole word are left out. -/
def toWords : Bytes → List Word
  | w :: x :: y :: z :: bs =>
    (w.toUInt32 <<< 24 ||| x.toUInt32 <<< 16 ||| y.toUInt32 <<< 8 ||| z.toUInt32) :: toWords bs
  | _ => []

/-- The bytes of a word, the high byte first. -/
def ofWord (w : Word) : Bytes :=
  [(w >>> 24).toUInt8, (w >>> 16).toUInt8, (w >>> 8).toUInt8, w.toUInt8]

/-! ## Blocks -/

/-- Continues a schedule of words, the last one first, by `n` words. -/
def extendSchedule : (n : Nat) → List Word → List Word
  | 0, latest => latest
  | n + 1, latest =>
    let back (k : Nat) : Word := latest[k - 1]?.getD 0
    extendSchedule n ((back 16 + smallSigma0 (back 15) + back 7 + smallSigma1 (back 2)) :: latest)

/-- The sixty-four words of a block. -/
def schedule (block : List Word) : List Word :=
  (extendSchedule 48 block.reverse).reverse

/-- One round with its word and the word of the schedule. -/
def round (s : State) (words : Word × Word) : State :=
  let t1 := s.h + bigSigma1 s.e + choose s.e s.f s.g + words.1 + words.2
  let t2 := bigSigma0 s.a + majority s.a s.b s.c
  ⟨t1 + t2, s.a, s.b, s.c, s.d + t1, s.e, s.f, s.g⟩

/-- Mixes a block into the state. -/
def mixBlock (s : State) (block : List Word) : State :=
  let t := (roundWords.zip (schedule block)).foldl round s
  ⟨s.a + t.a, s.b + t.b, s.c + t.c, s.d + t.d, s.e + t.e, s.f + t.f, s.g + t.g, s.h + t.h⟩

/-- Mixes the blocks of sixteen words into the state. -/
def mixBlocks (s : State) (words : List Word) : State :=
  if words.isEmpty then s else mixBlocks (mixBlock s (words.take 16)) (words.drop 16)
termination_by words.length
decreasing_by
  cases words with
  | nil => contradiction
  | cons word rest =>
    rw [List.length_drop, List.length_cons]
    omega

/-! ## Messages -/

/-- The length of a message in bits, as eight bytes. -/
def lengthBytes (n : Nat) : Bytes :=
  [56, 48, 40, 32, 24, 16, 8, 0].map fun k => UInt8.ofNat ((8 * n) >>> k)

/-- The message with a mark, zeros and its length behind it, in whole
blocks. -/
def pad (message : Bytes) : Bytes :=
  let zeros := (119 - message.length % 64) % 64
  message ++ 0x80 :: List.replicate zeros 0 ++ lengthBytes message.length

/-- The digest of a message, thirty-two bytes. -/
def digest (message : Bytes) : Bytes :=
  let s := mixBlocks initial (toWords (pad message))
  [s.a, s.b, s.c, s.d, s.e, s.f, s.g, s.h].flatMap ofWord

end SmellCheck.Sha256
