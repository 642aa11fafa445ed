import SecondFactor.Bytes

/-!
# Sixteen words

The working state of BLAKE2b and of Argon2: a four-by-four square of 64-bit words, written row by
row.
-/

namespace SecondFactor.Digest

structure Words16 where
  (w0 w1 w2 w3 w4 w5 w6 w7 w8 w9 w10 w11 w12 w13 w14 w15 : UInt64)

namespace Words16

def zero : Words16 := ⟨0, 0, 0, 0, 0, 0, 0, 0, 0, 0, 0, 0, 0, 0, 0, 0⟩

def xor (x y : Words16) : Words16 :=
  ⟨x.w0 ^^^ y.w0, x.w1 ^^^ y.w1, x.w2 ^^^ y.w2, x.w3 ^^^ y.w3,
   x.w4 ^^^ y.w4, x.w5 ^^^ y.w5, x.w6 ^^^ y.w6, x.w7 ^^^ y.w7,
   x.w8 ^^^ y.w8, x.w9 ^^^ y.w9, x.w10 ^^^ y.w10, x.w11 ^^^ y.w11,
   x.w12 ^^^ y.w12, x.w13 ^^^ y.w13, x.w14 ^^^ y.w14, x.w15 ^^^ y.w15⟩

def toList (x : Words16) : List UInt64 :=
  [x.w0, x.w1, x.w2, x.w3, x.w4, x.w5, x.w6, x.w7,
   x.w8, x.w9, x.w10, x.w11, x.w12, x.w13, x.w14, x.w15]

/-- The first sixteen words of a list, zero where it has none. -/
def ofList (ws : List UInt64) : Words16 :=
  let at' (i : Nat) := ws.getD i 0
  ⟨at' 0, at' 1, at' 2, at' 3, at' 4, at' 5, at' 6, at' 7,
   at' 8, at' 9, at' 10, at' 11, at' 12, at' 13, at' 14, at' 15⟩

@[inline] def rotate (x n : UInt64) : UInt64 := (x >>> n) ||| (x <<< (64 - n))

end Words16

end SecondFactor.Digest
