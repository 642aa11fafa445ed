import SecondFactor.Digest.Words16

/-!
# Blocks of Argon2 memory

A block is 1024 bytes, seen as eight rows of eight pairs of words. It is kept as its eight columns
of pairs. One half of the compression permutes the rows, the other the columns; a half-turn of the
layout lies between them, so one function serves as either half.
-/

namespace SecondFactor.Argon2

open Digest (Words16)
open Digest.Words16 (rotate)

/-- A block, as its columns of pairs of words: words `2 i` and `2 i + 1` of a column belong to row
`i`. -/
structure Block where
  (c0 c1 c2 c3 c4 c5 c6 c7 : Words16)

/-! ## The permutation of sixteen words -/

/-- Addition with twice the product of the low halves. -/
@[inline] def mulAdd (x y : UInt64) : UInt64 := x + y + 2 * (x &&& 0xffffffff) * (y &&& 0xffffffff)

@[inline] def mix {α : Type} (a b c d : UInt64)
    (next : UInt64 → UInt64 → UInt64 → UInt64 → α) : α :=
  let a := mulAdd a b
  let d := rotate (d ^^^ a) 32
  let c := mulAdd c d
  let b := rotate (b ^^^ c) 24
  let a := mulAdd a b
  let d := rotate (d ^^^ a) 16
  let c := mulAdd c d
  let b := rotate (b ^^^ c) 63
  next a b c d

/-- Mixes the four columns of a square of words, then its four diagonals. -/
def permute (v0 v1 v2 v3 v4 v5 v6 v7 v8 v9 v10 v11 v12 v13 v14 v15 : UInt64) :
    Words16 :=
  mix v0 v4 v8 v12 fun v0 v4 v8 v12 =>
  mix v1 v5 v9 v13 fun v1 v5 v9 v13 =>
  mix v2 v6 v10 v14 fun v2 v6 v10 v14 =>
  mix v3 v7 v11 v15 fun v3 v7 v11 v15 =>
  mix v0 v5 v10 v15 fun v0 v5 v10 v15 =>
  mix v1 v6 v11 v12 fun v1 v6 v11 v12 =>
  mix v2 v7 v8 v13 fun v2 v7 v8 v13 =>
  mix v3 v4 v9 v14 fun v3 v4 v9 v14 =>
  ⟨v0, v1, v2, v3, v4, v5, v6, v7, v8, v9, v10, v11, v12, v13, v14, v15⟩

/-! ## Operations on blocks -/

namespace Block

def zero : Block :=
  ⟨.zero, .zero, .zero, .zero, .zero, .zero, .zero, .zero⟩

def xor (x y : Block) : Block :=
  ⟨x.c0.xor y.c0, x.c1.xor y.c1, x.c2.xor y.c2, x.c3.xor y.c3,
   x.c4.xor y.c4, x.c5.xor y.c5, x.c6.xor y.c6, x.c7.xor y.c7⟩

/-- Permutes each row of a block kept by columns, and keeps the result by rows. -/
def permuteAcross (b : Block) : Block :=
  let ⟨c0, c1, c2, c3, c4, c5, c6, c7⟩ := b
  ⟨permute c0.w0 c0.w1 c1.w0 c1.w1 c2.w0 c2.w1 c3.w0 c3.w1
     c4.w0 c4.w1 c5.w0 c5.w1 c6.w0 c6.w1 c7.w0 c7.w1,
   permute c0.w2 c0.w3 c1.w2 c1.w3 c2.w2 c2.w3 c3.w2 c3.w3
     c4.w2 c4.w3 c5.w2 c5.w3 c6.w2 c6.w3 c7.w2 c7.w3,
   permute c0.w4 c0.w5 c1.w4 c1.w5 c2.w4 c2.w5 c3.w4 c3.w5
     c4.w4 c4.w5 c5.w4 c5.w5 c6.w4 c6.w5 c7.w4 c7.w5,
   permute c0.w6 c0.w7 c1.w6 c1.w7 c2.w6 c2.w7 c3.w6 c3.w7
     c4.w6 c4.w7 c5.w6 c5.w7 c6.w6 c6.w7 c7.w6 c7.w7,
   permute c0.w8 c0.w9 c1.w8 c1.w9 c2.w8 c2.w9 c3.w8 c3.w9
     c4.w8 c4.w9 c5.w8 c5.w9 c6.w8 c6.w9 c7.w8 c7.w9,
   permute c0.w10 c0.w11 c1.w10 c1.w11 c2.w10 c2.w11 c3.w10 c3.w11
     c4.w10 c4.w11 c5.w10 c5.w11 c6.w10 c6.w11 c7.w10 c7.w11,
   permute c0.w12 c0.w13 c1.w12 c1.w13 c2.w12 c2.w13 c3.w12 c3.w13
     c4.w12 c4.w13 c5.w12 c5.w13 c6.w12 c6.w13 c7.w12 c7.w13,
   permute c0.w14 c0.w15 c1.w14 c1.w15 c2.w14 c2.w15 c3.w14 c3.w15
     c4.w14 c4.w15 c5.w14 c5.w15 c6.w14 c6.w15 c7.w14 c7.w15⟩

/-- The compression of two blocks: their exclusive or, permuted by rows and by columns, is added to
itself. -/
def compress (x y : Block) : Block :=
  let r := x.xor y
  r.permuteAcross.permuteAcross.xor r

@[inline] def head (b : Block) : UInt64 := b.c0.w0

/-- The 128 words of a block, row by row. -/
def words (b : Block) : List UInt64 :=
  [b.c0.w0, b.c0.w1, b.c1.w0, b.c1.w1, b.c2.w0, b.c2.w1, b.c3.w0, b.c3.w1, b.c4.w0, b.c4.w1,
    b.c5.w0, b.c5.w1, b.c6.w0, b.c6.w1, b.c7.w0, b.c7.w1,
    b.c0.w2, b.c0.w3, b.c1.w2, b.c1.w3, b.c2.w2, b.c2.w3, b.c3.w2, b.c3.w3, b.c4.w2, b.c4.w3,
    b.c5.w2, b.c5.w3, b.c6.w2, b.c6.w3, b.c7.w2, b.c7.w3,
    b.c0.w4, b.c0.w5, b.c1.w4, b.c1.w5, b.c2.w4, b.c2.w5, b.c3.w4, b.c3.w5, b.c4.w4, b.c4.w5,
    b.c5.w4, b.c5.w5, b.c6.w4, b.c6.w5, b.c7.w4, b.c7.w5,
    b.c0.w6, b.c0.w7, b.c1.w6, b.c1.w7, b.c2.w6, b.c2.w7, b.c3.w6, b.c3.w7, b.c4.w6, b.c4.w7,
    b.c5.w6, b.c5.w7, b.c6.w6, b.c6.w7, b.c7.w6, b.c7.w7,
    b.c0.w8, b.c0.w9, b.c1.w8, b.c1.w9, b.c2.w8, b.c2.w9, b.c3.w8, b.c3.w9, b.c4.w8, b.c4.w9,
    b.c5.w8, b.c5.w9, b.c6.w8, b.c6.w9, b.c7.w8, b.c7.w9,
    b.c0.w10, b.c0.w11, b.c1.w10, b.c1.w11, b.c2.w10, b.c2.w11, b.c3.w10, b.c3.w11, b.c4.w10,
    b.c4.w11, b.c5.w10, b.c5.w11, b.c6.w10, b.c6.w11, b.c7.w10, b.c7.w11,
    b.c0.w12, b.c0.w13, b.c1.w12, b.c1.w13, b.c2.w12, b.c2.w13, b.c3.w12, b.c3.w13, b.c4.w12,
    b.c4.w13, b.c5.w12, b.c5.w13, b.c6.w12, b.c6.w13, b.c7.w12, b.c7.w13,
    b.c0.w14, b.c0.w15, b.c1.w14, b.c1.w15, b.c2.w14, b.c2.w15, b.c3.w14, b.c3.w15, b.c4.w14,
    b.c4.w15, b.c5.w14, b.c5.w15, b.c6.w14, b.c6.w15, b.c7.w14, b.c7.w15]

def bytes (b : Block) : Bytes := b.words.flatMap Bytes.ofWord64Low

/-- The block with the given words, row by row; missing words are zero. -/
def ofWords (ws : List UInt64) : Block :=
  let ws := ws.toArray
  let column (j : Nat) : Words16 := Words16.ofList <|
    (List.range 8).flatMap fun i => [ws.getD (16 * i + 2 * j) 0, ws.getD (16 * i + 2 * j + 1) 0]
  ⟨column 0, column 1, column 2, column 3, column 4, column 5, column 6, column 7⟩

def ofBytes (bs : Bytes) : Block := ofWords (Bytes.words64Low bs)

end Block

end SecondFactor.Argon2
