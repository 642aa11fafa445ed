import SecondFactor.Bytes

/-!
# Error correction codewords

QR codes protect their data with Reed–Solomon codes over the field of 256 elements in which the
variable is a root of `x^8 + x^4 + x^3 + x^2 + 1`. The correction codewords of a block are the
remainder of its data, as a polynomial, by the product of `x - 2^i`.
-/

namespace SecondFactor.Qr

/-- The product with the variable. -/
def timesX (a : UInt8) : UInt8 := (a <<< 1) ^^^ (if a < 0x80 then 0 else 0x1d)

/-- The product of two elements of the field, by the bits of the second from the top. -/
def multiply (a b : UInt8) : UInt8 :=
  (List.range 8).foldl (fun z i =>
    timesX z ^^^ (if (b >>> (7 - UInt8.ofNat i)) &&& 1 == 1 then a else 0)) 0

/-- The divisor of the given degree, from the coefficient after the leading one down. -/
def divisor (degree : Nat) : Bytes :=
  let start : Bytes × UInt8 := (List.replicate (degree - 1) 0 ++ [1], 1)
  ((List.range degree).foldl (fun (coefficients, root) _ =>
    let next := coefficients.tail ++ [0]
    (coefficients.zipWith (fun c n => multiply c root ^^^ n) next, timesX root)) start).1

def remainder (divisor data : Bytes) : Bytes :=
  data.foldl (fun rest b =>
    let factor := b ^^^ rest.headD 0
    (rest.tail ++ [0]).zipWith (fun r d => r ^^^ multiply d factor) divisor)
    (List.replicate divisor.length 0)

end SecondFactor.Qr
