import SecondFactor.Cipher.Aes

/-!
# Authenticated encryption in Galois counter mode

A plaintext is masked with the enciphered values of a counter that starts from the nonce, and a
tag of sixteen bytes is taken over the masked text by evaluating it as a polynomial over the field
of 2^128 elements. No associated data is bound. Decryption gives the plaintext back only under the
right tag.
-/

namespace SecondFactor.Cipher.Gcm

open Aes (Square)

def nonceLength : Nat := 12

def tagLength : Nat := 16

/-! ## The field of the tag -/

/-- An element of the field of 2^128 elements, its coefficient of degree zero on top. -/
structure Element where
  (high low : UInt64)

def Element.add (x y : Element) : Element := ⟨x.high ^^^ y.high, x.low ^^^ y.low⟩

/-- Adds `v` times the polynomial whose `count` next coefficients are on top of `x` to `z`; `v` is
multiplied by the variable at each step and reduced. -/
def mulLoop : (count : Nat) → (x v z : Element) → Element
  | 0, _, _, z => z
  | count + 1, x, v, z =>
    let z := if x.high >>> 63 == 1 then z.add v else z
    let reduction : UInt64 := if v.low &&& 1 == 1 then 0xe100000000000000 else 0
    let v : Element := ⟨(v.high >>> 1) ^^^ reduction, (v.low >>> 1) ||| (v.high <<< 63)⟩
    mulLoop count ⟨(x.high <<< 1) ||| (x.low >>> 63), x.low <<< 1⟩ v z

def Element.mul (x y : Element) : Element := mulLoop 128 x y ⟨0, 0⟩

def elements : List UInt64 → List Element
  | high :: low :: rest => ⟨high, low⟩ :: elements rest
  | _ => []

/-- The polynomial with the given coefficients at the point `h`, by Horner's rule. -/
def evaluate (h : Element) (xs : List Element) : Element :=
  xs.foldl (fun y x => (y.add x).mul h) ⟨0, 0⟩

/-! ## Masking -/

/-- The counter block `i` of a nonce. -/
def counterBlock (nonce : Bytes) (i : Nat) : Square :=
  match Bytes.words32 nonce with
  | a :: b :: c :: _ => ⟨a, b, c, UInt32.ofNat i⟩
  | _ => ⟨0, 0, 0, UInt32.ofNat i⟩

/-- The exclusive or of a text with the enciphered counters from 2 on. -/
def mask (keys : List Square) (nonce text : Bytes) : Bytes :=
  let count := (text.length + 15) / 16
  let stream := (List.range count).flatMap fun i =>
    (Aes.encipher keys (counterBlock nonce (i + 2))).bytes
  text.zipWith (· ^^^ ·) stream

def tag (keys : List Square) (nonce masked : Bytes) : Bytes :=
  let point := elements (Bytes.words64 (Aes.encipher keys ⟨0, 0, 0, 0⟩).bytes)
  let h := point.headD ⟨0, 0⟩
  let lengths : Element := ⟨0, UInt64.ofNat (8 * masked.length)⟩
  let y := evaluate h (elements (Bytes.words64 (Bytes.padTo 16 masked)) ++ [lengths])
  let first := (Aes.encipher keys (counterBlock nonce 1)).bytes
  (Bytes.ofWord64 y.high ++ Bytes.ofWord64 y.low).zipWith (· ^^^ ·) first

/-! ## Encryption and decryption -/

/-- The masked text followed by its tag. -/
def encrypt (key nonce plain : Bytes) : Bytes :=
  let keys := Aes.roundKeys key
  let masked := mask keys nonce plain
  masked ++ tag keys nonce masked

/-- The plaintext of a masked text that its right tag follows. -/
def decrypt? (key nonce sealed : Bytes) : Option Bytes :=
  let keys := Aes.roundKeys key
  let masked := sealed.take (sealed.length - tagLength)
  if sealed.drop (sealed.length - tagLength) = tag keys nonce masked then
    some (mask keys nonce masked)
  else none

end SecondFactor.Cipher.Gcm
