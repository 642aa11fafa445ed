import SecondFactor.Bytes

/-!
# Versions and levels

A QR code has one of forty versions, which fix its size, and one of four levels of error
correction, of which the three upper ones are used here. The tables give, for each version from 1
on, the number of correction codewords in a block and the number of blocks.
-/

namespace SecondFactor.Qr

/-- How much of a code may be lost. -/
inductive Level where
  | medium
  | quartile
  | high
  deriving DecidableEq

/-- The two bits that stand for a level in the format information. -/
def Level.bits : Level → Nat
  | .medium => 0
  | .quartile => 3
  | .high => 2

/-- Correction codewords in each block. -/
def Level.correctionTable : Level → List Nat
  | .medium =>
    [10, 16, 26, 18, 24, 16, 18, 22, 22, 26, 30, 22, 22, 24, 24, 28, 28, 26, 26, 26,
     26, 28, 28, 28, 28, 28, 28, 28, 28, 28, 28, 28, 28, 28, 28, 28, 28, 28, 28, 28]
  | .quartile =>
    [13, 22, 18, 26, 18, 24, 18, 22, 20, 24, 28, 26, 24, 20, 30, 24, 28, 28, 26, 30,
     28, 30, 30, 30, 30, 28, 30, 30, 30, 30, 30, 30, 30, 30, 30, 30, 30, 30, 30, 30]
  | .high =>
    [17, 28, 22, 16, 22, 28, 26, 26, 24, 28, 24, 28, 22, 24, 24, 30, 28, 28, 26, 28,
     30, 24, 30, 30, 30, 30, 30, 30, 30, 30, 30, 30, 30, 30, 30, 30, 30, 30, 30, 30]

/-- Blocks. -/
def Level.blockTable : Level → List Nat
  | .medium =>
    [1, 1, 1, 2, 2, 4, 4, 4, 5, 5, 5, 8, 9, 9, 10, 10, 11, 13, 14, 16,
     17, 17, 18, 20, 21, 23, 25, 26, 28, 29, 31, 33, 35, 37, 38, 40, 43, 45, 47, 49]
  | .quartile =>
    [1, 1, 2, 2, 4, 4, 6, 6, 8, 8, 8, 10, 12, 16, 12, 17, 16, 18, 21, 20,
     23, 23, 25, 27, 29, 34, 34, 35, 38, 40, 43, 45, 48, 51, 53, 56, 59, 62, 65, 68]
  | .high =>
    [1, 1, 2, 4, 4, 4, 5, 6, 8, 8, 11, 11, 16, 16, 18, 16, 19, 21, 25, 25,
     25, 34, 30, 32, 35, 37, 40, 42, 45, 48, 51, 54, 57, 60, 63, 66, 70, 74, 77, 81]

def Level.correction (level : Level) (version : Nat) : Nat :=
  level.correctionTable.getD (version - 1) 0

def Level.blocks (level : Level) (version : Nat) : Nat := level.blockTable.getD (version - 1) 0

/-- Modules on a side. -/
def side (version : Nat) : Nat := version * 4 + 17

/-- Rows, and columns, in which alignment patterns are centred. -/
def alignments (version : Nat) : List Nat :=
  if version ≤ 1 then []
  else
    let count := version / 7 + 2
    let step := (version * 8 + count * 3 + 5) / (count * 4 - 4) * 2
    6 :: ((List.range (count - 1)).map fun i => side version - 7 - i * step).reverse

/-- Modules that hold codewords or nothing. -/
def dataModules (version : Nat) : Nat :=
  let all := (16 * version + 128) * version + 64
  let count := version / 7 + 2
  let aligned := if 2 ≤ version then (25 * count - 10) * count - 55 else 0
  let versioned := if 7 ≤ version then 36 else 0
  all - aligned - versioned

def codewords (version : Nat) : Nat := dataModules version / 8

def capacity (version : Nat) (level : Level) : Nat :=
  codewords version - level.correction version * level.blocks version

/-- Bits that give the length of a byte segment. -/
def lengthBits (version : Nat) : Nat := if version ≤ 9 then 8 else 16

/-- Bits that a byte segment of the given length takes. -/
def segmentBits (version length : Nat) : Nat := 4 + lengthBits version + 8 * length

def Fits (version : Nat) (level : Level) (length : Nat) : Prop :=
  length < 1 <<< lengthBits version ∧ segmentBits version length ≤ 8 * capacity version level

instance (version : Nat) (level : Level) (length : Nat) : Decidable (Fits version level length) :=
  inferInstanceAs (Decidable (_ ∧ _))

/-- The least version that holds a byte segment of the given length at medium level. -/
def versionFor? (length : Nat) : Option Nat :=
  ((List.range 40).map (· + 1)).find? fun version => decide (Fits version .medium length)

/-- The highest level at which a version that holds the segment at medium level still holds it. -/
def levelFor (version length : Nat) : Level :=
  if Fits version .high length then .high
  else if Fits version .quartile length then .quartile
  else .medium

end SecondFactor.Qr
