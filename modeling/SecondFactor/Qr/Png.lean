import SecondFactor.Qr.Symbol

/-!
# Symbols as PNG images

An image has one bit a pixel and shows each module as a square of eight by eight pixels, with a
light border of four modules around the symbol; a module is then one byte of a line. The lines are
kept uncompressed in stored blocks.
-/

namespace SecondFactor.Qr.Png

/-- Modules of the light border. -/
def border : Nat := 4

/-- Pixels on a side of a module. -/
def scale : Nat := 8

def borderedRows (s : Symbol) : List (List Bool) :=
  let width := s.side + 2 * border
  let light := List.replicate width false
  let edge := List.replicate border false
  List.replicate border light ++ s.rows.map (fun row => edge ++ row ++ edge) ++
    List.replicate border light

/-! ## Checks -/

/-- The cyclic redundancy check register after one more byte. -/
def crcByte (crc : UInt32) (b : UInt8) : UInt32 :=
  (List.range 8).foldl (fun c _ =>
    (c >>> 1) ^^^ (if c &&& 1 == 1 then 0xedb88320 else 0)) (crc ^^^ b.toUInt32)

def crc (bs : Bytes) : UInt32 := (bs.foldl crcByte 0xffffffff) ^^^ 0xffffffff

/-- The two sums of a byte string, in one word. -/
def adler (bs : Bytes) : UInt32 :=
  let (a, b) := bs.foldl (fun ((a, b) : Nat × Nat) x =>
    let a := (a + x.toNat) % 65521
    (a, (b + a) % 65521)) (1, 0)
  UInt32.ofNat (b * 65536 + a)

/-! ## Chunks -/

/-- A chunk: length, name, content and check. -/
def chunk (name : String) (content : Bytes) : Bytes :=
  let body := Bytes.ofText name ++ content
  Bytes.ofWord32 (UInt32.ofNat content.length) ++ body ++ Bytes.ofWord32 (crc body)

def halfWord (n : Nat) : Bytes := [UInt8.ofNat n, UInt8.ofNat (n / 256)]

/-- Stored blocks of at most 65535 bytes, `count` of them, the last one marked. -/
def storedBlocks : (count : Nat) → Bytes → Bytes
  | 0, _ => []
  | count + 1, bs =>
    let piece := bs.take 65535
    let mark : UInt8 := if count = 0 then 1 else 0
    mark :: (halfWord piece.length ++ halfWord (65535 - piece.length) ++ piece ++
      storedBlocks count (bs.drop 65535))

def stored (bs : Bytes) : Bytes :=
  [0x78, 0x01] ++ storedBlocks (max 1 ((bs.length + 65534) / 65535)) bs ++ Bytes.ofWord32 (adler bs)

def signature : Bytes := [0x89, 0x50, 0x4e, 0x47, 0x0d, 0x0a, 0x1a, 0x0a]

def encode (s : Symbol) : Bytes :=
  let rows := borderedRows s
  let size := UInt32.ofNat (rows.length * scale)
  let lines := rows.flatMap fun row =>
    (List.replicate scale (0 :: row.map fun dark => if dark then (0x00 : UInt8) else 0xff)).flatten
  signature ++ chunk "IHDR" (Bytes.ofWord32 size ++ Bytes.ofWord32 size ++ [1, 0, 0, 0, 0]) ++
    chunk "IDAT" (stored lines) ++ chunk "IEND" []

/-- Width and height in pixels that the header of an image gives. -/
def dimensions? (bs : Bytes) : Option (Nat × Nat) :=
  if bs.take 8 = signature ∧ (bs.drop 12).take 4 = Bytes.ofText "IHDR" then
    match Bytes.words32 (bs.drop 16) with
    | width :: height :: _ => some (width.toNat, height.toNat)
    | _ => none
  else none

end SecondFactor.Qr.Png
