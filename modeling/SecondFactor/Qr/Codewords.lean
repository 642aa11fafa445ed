import SecondFactor.Qr.Correction
import SecondFactor.Qr.Version

/-!
# Codewords of a text

The data codewords hold one byte segment, a terminator and filler. They are dealt out to blocks,
of which the last ones may hold one more; each block gets its correction codewords, and the
codewords of all blocks are written in turns, data first.
-/

namespace SecondFactor.Qr

/-- The low `count` bits of a number, from the top. -/
def bitsOf (count n : Nat) : List Bool := (List.range count).map fun i => n.testBit (count - 1 - i)

/-- Eight bits at a time as bytes, from the top. -/
def bytesOfBits : List Bool → Bytes
  | a :: b :: c :: d :: e :: f :: g :: h :: rest =>
    [a, b, c, d, e, f, g, h].foldl (fun n bit => 2 * n + if bit then 1 else 0) 0 :: bytesOfBits rest
  | _ => []

/-- The data codewords of a byte segment: mode, length and bytes, up to four zero bits, zeros up
to a whole byte, and two filler bytes in turns. -/
def dataCodewords (version : Nat) (level : Level) (text : Bytes) : Bytes :=
  let total := capacity version level
  let bits := bitsOf 4 4 ++ bitsOf (lengthBits version) text.length ++
    text.flatMap fun b => bitsOf 8 b.toNat
  let bits := bits ++ List.replicate (min 4 (8 * total - bits.length)) false
  let bits := bits ++ List.replicate ((8 - bits.length % 8) % 8) false
  let bytes := bytesOfBits bits
  bytes ++ (List.range (total - bytes.length)).map fun i => if i % 2 = 0 then 0xec else 0x11

def deal : List Nat → Bytes → List Bytes
  | [], _ => []
  | n :: ns, bytes => bytes.take n :: deal ns (bytes.drop n)

/-- The items of the rows in turns: all first ones, all second ones, and so on up to `count`. -/
def inTurns (count : Nat) (rows : List Bytes) : Bytes :=
  (List.range count).flatMap fun i => rows.filterMap (·[i]?)

/-- All codewords of a text in the order in which they are placed. -/
def codewordsOf (version : Nat) (level : Level) (text : Bytes) : Bytes :=
  let blocks := level.blocks version
  let correction := level.correction version
  let all := codewords version
  let short := blocks - all % blocks
  let shortLength := all / blocks - correction
  let lengths := (List.range blocks).map fun i => if i < short then shortLength else shortLength + 1
  let rows := deal lengths (dataCodewords version level text)
  let generator := divisor correction
  inTurns (shortLength + 1) rows ++ inTurns correction (rows.map (remainder generator))

end SecondFactor.Qr
