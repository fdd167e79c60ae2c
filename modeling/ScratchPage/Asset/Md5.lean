/-!
# MD5 content hashes

The message is padded with one set bit, zeros and its length in bits to a multiple of sixty-four bytes,
and each block of sixty-four bytes is mixed into a state of four words in sixty-four steps.
-/

namespace ScratchPage.Md5
set_option autoImplicit false

/-- The four words of the hash. -/
structure State where
  a : UInt32
  b : UInt32
  c : UInt32
  d : UInt32

def initial : State := ⟨0x67452301, 0xefcdab89, 0x98badcfe, 0x10325476⟩

/-- The constant added in each step. -/
def constants : List UInt32 := [
  0xd76aa478, 0xe8c7b756, 0x242070db, 0xc1bdceee, 0xf57c0faf, 0x4787c62a, 0xa8304613, 0xfd469501,
  0x698098d8, 0x8b44f7af, 0xffff5bb1, 0x895cd7be, 0x6b901122, 0xfd987193, 0xa679438e, 0x49b40821,
  0xf61e2562, 0xc040b340, 0x265e5a51, 0xe9b6c7aa, 0xd62f105d, 0x02441453, 0xd8a1e681, 0xe7d3fbc8,
  0x21e1cde6, 0xc33707d6, 0xf4d50d87, 0x455a14ed, 0xa9e3e905, 0xfcefa3f8, 0x676f02d9, 0x8d2a4c8a,
  0xfffa3942, 0x8771f681, 0x6d9d6122, 0xfde5380c, 0xa4beea44, 0x4bdecfa9, 0xf6bb4b60, 0xbebfbc70,
  0x289b7ec6, 0xeaa127fa, 0xd4ef3085, 0x04881d05, 0xd9d4d039, 0xe6db99e5, 0x1fa27cf8, 0xc4ac5665,
  0xf4292244, 0x432aff97, 0xab9423a7, 0xfc93a039, 0x655b59c3, 0x8f0ccc92, 0xffeff47d, 0x85845dd1,
  0x6fa87e4f, 0xfe2ce6e0, 0xa3014314, 0x4e0811a1, 0xf7537e82, 0xbd3af235, 0x2ad7d2bb, 0xeb86d391]

/-- The rotation of each step: four amounts in turn in each quarter. -/
def rotation (step : Nat) : UInt32 :=
  let amounts : List UInt32 :=
    if step < 16 then [7, 12, 17, 22]
    else if step < 32 then [5, 9, 14, 20]
    else if step < 48 then [4, 11, 16, 23]
    else [6, 10, 15, 21]
  amounts[step % 4]?.getD 0

/-- The word of the block that a step reads. -/
def wordIndex (step : Nat) : Nat :=
  if step < 16 then step
  else if step < 32 then (5 * step + 1) % 16
  else if step < 48 then (3 * step + 5) % 16
  else 7 * step % 16

/-- The mixing of three words in a step. -/
def mix (step : Nat) (b c d : UInt32) : UInt32 :=
  if step < 16 then (b &&& c) ||| (~~~ b &&& d)
  else if step < 32 then (d &&& b) ||| (~~~ d &&& c)
  else if step < 48 then b ^^^ c ^^^ d
  else c ^^^ (b ||| ~~~ d)

def rotateLeft (x amount : UInt32) : UInt32 := (x <<< amount) ||| (x >>> (32 - amount))

/-- One step on a state. -/
def stepOn (words : Array UInt32) (s : State) (step : Nat × UInt32) : State :=
  let sum := s.a + mix step.1 s.b s.c s.d + step.2 + words[wordIndex step.1]?.getD 0
  ⟨s.d, s.b + rotateLeft sum (rotation step.1), s.b, s.c⟩

/-- The number of bytes after padding. -/
def paddedSize (size : Nat) : Nat := ((size + 8) / 64 + 1) * 64

/-- A byte of the padded message. -/
def paddedByte (data : ByteArray) (i : Nat) : UInt8 :=
  match data[i]? with
  | some byte => byte
  | none =>
    if i = data.size then 0x80
    else if i + 8 < paddedSize data.size then 0
    else UInt8.ofNat (8 * data.size / Nat.pow 256 (i + 8 - paddedSize data.size))

/-- A word of the padded message, its lowest byte first. -/
def word (data : ByteArray) (start : Nat) : UInt32 :=
  (paddedByte data start).toUInt32 ||| ((paddedByte data (start + 1)).toUInt32 <<< 8) |||
    ((paddedByte data (start + 2)).toUInt32 <<< 16) ||| ((paddedByte data (start + 3)).toUInt32 <<< 24)

/-- Mixes one block into a state. -/
def compress (data : ByteArray) (s : State) (block : Nat) : State :=
  let words := ((List.range 16).map fun i => word data (block * 64 + 4 * i)).toArray
  let t := ((List.range 64).zip constants).foldl (stepOn words) s
  ⟨s.a + t.a, s.b + t.b, s.c + t.c, s.d + t.d⟩

def state (data : ByteArray) : State :=
  (List.range (paddedSize data.size / 64)).foldl (compress data) initial

/-- The two lower-case hexadecimal digits of a byte. -/
def hexByte (byte : UInt8) : List Char :=
  [Nat.digitChar (byte.toNat / 16), Nat.digitChar (byte.toNat % 16)]

/-- The digits of a word, its lowest byte first. -/
def hexWord (w : UInt32) : List Char :=
  ([0, 8, 16, 24] : List UInt32).flatMap fun shift => hexByte (w >>> shift).toUInt8

/-- The hash as thirty-two lower-case hexadecimal digits. -/
def hash (data : ByteArray) : String :=
  let s := state data
  String.ofList (hexWord s.a ++ hexWord s.b ++ hexWord s.c ++ hexWord s.d)

end ScratchPage.Md5
