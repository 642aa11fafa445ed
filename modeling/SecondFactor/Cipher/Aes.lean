import SecondFactor.Bytes

/-!
# The AES block cipher

Enciphering of one block of sixteen bytes under a key of 16, 24 or 32 bytes. The state is four
columns of four bytes, a column a word with its first byte on top. Counter mode needs the forward
direction only.
-/

namespace SecondFactor.Cipher.Aes

/-- The substitution box: inversion in the field of 256 elements followed by an affine map. -/
def box : Array UInt8 :=
  #[0x63, 0x7c, 0x77, 0x7b, 0xf2, 0x6b, 0x6f, 0xc5, 0x30, 0x01, 0x67, 0x2b, 0xfe, 0xd7, 0xab, 0x76,
    0xca, 0x82, 0xc9, 0x7d, 0xfa, 0x59, 0x47, 0xf0, 0xad, 0xd4, 0xa2, 0xaf, 0x9c, 0xa4, 0x72, 0xc0,
    0xb7, 0xfd, 0x93, 0x26, 0x36, 0x3f, 0xf7, 0xcc, 0x34, 0xa5, 0xe5, 0xf1, 0x71, 0xd8, 0x31, 0x15,
    0x04, 0xc7, 0x23, 0xc3, 0x18, 0x96, 0x05, 0x9a, 0x07, 0x12, 0x80, 0xe2, 0xeb, 0x27, 0xb2, 0x75,
    0x09, 0x83, 0x2c, 0x1a, 0x1b, 0x6e, 0x5a, 0xa0, 0x52, 0x3b, 0xd6, 0xb3, 0x29, 0xe3, 0x2f, 0x84,
    0x53, 0xd1, 0x00, 0xed, 0x20, 0xfc, 0xb1, 0x5b, 0x6a, 0xcb, 0xbe, 0x39, 0x4a, 0x4c, 0x58, 0xcf,
    0xd0, 0xef, 0xaa, 0xfb, 0x43, 0x4d, 0x33, 0x85, 0x45, 0xf9, 0x02, 0x7f, 0x50, 0x3c, 0x9f, 0xa8,
    0x51, 0xa3, 0x40, 0x8f, 0x92, 0x9d, 0x38, 0xf5, 0xbc, 0xb6, 0xda, 0x21, 0x10, 0xff, 0xf3, 0xd2,
    0xcd, 0x0c, 0x13, 0xec, 0x5f, 0x97, 0x44, 0x17, 0xc4, 0xa7, 0x7e, 0x3d, 0x64, 0x5d, 0x19, 0x73,
    0x60, 0x81, 0x4f, 0xdc, 0x22, 0x2a, 0x90, 0x88, 0x46, 0xee, 0xb8, 0x14, 0xde, 0x5e, 0x0b, 0xdb,
    0xe0, 0x32, 0x3a, 0x0a, 0x49, 0x06, 0x24, 0x5c, 0xc2, 0xd3, 0xac, 0x62, 0x91, 0x95, 0xe4, 0x79,
    0xe7, 0xc8, 0x37, 0x6d, 0x8d, 0xd5, 0x4e, 0xa9, 0x6c, 0x56, 0xf4, 0xea, 0x65, 0x7a, 0xae, 0x08,
    0xba, 0x78, 0x25, 0x2e, 0x1c, 0xa6, 0xb4, 0xc6, 0xe8, 0xdd, 0x74, 0x1f, 0x4b, 0xbd, 0x8b, 0x8a,
    0x70, 0x3e, 0xb5, 0x66, 0x48, 0x03, 0xf6, 0x0e, 0x61, 0x35, 0x57, 0xb9, 0x86, 0xc1, 0x1d, 0x9e,
    0xe1, 0xf8, 0x98, 0x11, 0x69, 0xd9, 0x8e, 0x94, 0x9b, 0x1e, 0x87, 0xe9, 0xce, 0x55, 0x28, 0xdf,
    0x8c, 0xa1, 0x89, 0x0d, 0xbf, 0xe6, 0x42, 0x68, 0x41, 0x99, 0x2d, 0x0f, 0xb0, 0x54, 0xbb, 0x16]

@[inline] def substitute (b : UInt8) : UInt8 := box.getD b.toNat 0

/-- The product with `x` in the field of 256 elements. -/
@[inline] def double (b : UInt8) : UInt8 := (b <<< 1) ^^^ (if b < 0x80 then 0 else 0x1b)

/-- Byte `i` of a word, from the top. -/
@[inline] def byteAt (w : UInt32) (i : UInt32) : UInt8 := (w >>> (24 - 8 * i)).toUInt8

/-- Four columns, which are a block, a state or a round key. -/
structure Square where
  (c0 c1 c2 c3 : UInt32)

def Square.xor (x y : Square) : Square :=
  ⟨x.c0 ^^^ y.c0, x.c1 ^^^ y.c1, x.c2 ^^^ y.c2, x.c3 ^^^ y.c3⟩

def Square.bytes (s : Square) : Bytes := [s.c0, s.c1, s.c2, s.c3].flatMap Bytes.ofWord32

/-! ## Key schedule -/

def substituteWord (w : UInt32) : UInt32 :=
  Bytes.word32 (substitute (byteAt w 0)) (substitute (byteAt w 1)) (substitute (byteAt w 2))
    (substitute (byteAt w 3))

/-- The words of the key schedule: those of the key, then each the exclusive or of the word a key
length before it and of its predecessor, which is turned and substituted at each multiple of the key
length, and substituted half-way between them for the longest keys. -/
def schedule (key : Bytes) : List UInt32 :=
  let words := Bytes.words32 key
  let n := words.length
  let step (state : Array UInt32 × UInt8) (i : Nat) : Array UInt32 × UInt8 :=
    let (w, constant) := state
    let last := w.getD (i - 1) 0
    let before := w.getD (i - n) 0
    if i % n = 0 then
      let turned := substituteWord ((last <<< 8) ||| (last >>> 24))
      (w.push (before ^^^ turned ^^^ (constant.toUInt32 <<< 24)), double constant)
    else if 6 < n ∧ i % n = 4 then (w.push (before ^^^ substituteWord last), constant)
    else (w.push (before ^^^ last), constant)
  (((List.range (4 * (n + 7) - n)).map (· + n)).foldl step (words.toArray, 1)).1.toList

def squares : List UInt32 → List Square
  | a :: b :: c :: d :: rest => ⟨a, b, c, d⟩ :: squares rest
  | _ => []

/-- The round keys of a key: eleven, thirteen or fifteen for 16, 24 or 32 bytes. -/
def roundKeys (key : Bytes) : List Square := squares (schedule key)

/-! ## Rounds -/

/-- The column made of one substituted byte of each of four columns. -/
@[inline] def gather (a b c d : UInt32) (next : UInt8 → UInt8 → UInt8 → UInt8 → UInt32) : UInt32 :=
  next (substitute (byteAt a 0)) (substitute (byteAt b 1)) (substitute (byteAt c 2))
    (substitute (byteAt d 3))

/-- The product of a column with the matrix whose rows are the turns of 2, 3, 1, 1. -/
@[inline] def mixColumn (a b c d : UInt8) : UInt32 :=
  let all := a ^^^ b ^^^ c ^^^ d
  Bytes.word32 (a ^^^ all ^^^ double (a ^^^ b)) (b ^^^ all ^^^ double (b ^^^ c))
    (c ^^^ all ^^^ double (c ^^^ d)) (d ^^^ all ^^^ double (d ^^^ a))

/-- Substitution, turning of the rows and mixing of the columns. -/
def middleRound (s : Square) : Square :=
  ⟨gather s.c0 s.c1 s.c2 s.c3 mixColumn, gather s.c1 s.c2 s.c3 s.c0 mixColumn,
   gather s.c2 s.c3 s.c0 s.c1 mixColumn, gather s.c3 s.c0 s.c1 s.c2 mixColumn⟩

/-- Substitution and turning of the rows. -/
def lastRound (s : Square) : Square :=
  ⟨gather s.c0 s.c1 s.c2 s.c3 Bytes.word32, gather s.c1 s.c2 s.c3 s.c0 Bytes.word32,
   gather s.c2 s.c3 s.c0 s.c1 Bytes.word32, gather s.c3 s.c0 s.c1 s.c2 Bytes.word32⟩

/-- The state after the rounds of the keys, each key added after its round. -/
def rounds (s : Square) : List Square → Square
  | [] => s
  | [last] => (lastRound s).xor last
  | key :: keys => rounds ((middleRound s).xor key) keys

def encipher (keys : List Square) (block : Square) : Square :=
  match keys with
  | [] => block
  | first :: rest => rounds (block.xor first) rest

end SecondFactor.Cipher.Aes
