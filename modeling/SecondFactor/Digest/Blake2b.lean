import SecondFactor.Digest.Words16

/-!
# BLAKE2b

The unkeyed digest of one to sixty-four bytes. A message is cut into blocks of 128 bytes, the last
one filled with zeros; each block is mixed into the state in twelve rounds together with the
number of bytes read so far and a mark for the last block.
-/

namespace SecondFactor.Digest.Blake2b

open Words16 (rotate)

/-- The initial words, those of SHA-512. -/
def initial : List UInt64 :=
  [0x6a09e667f3bcc908, 0xbb67ae8584caa73b, 0x3c6ef372fe94f82b, 0xa54ff53a5f1d36f1,
   0x510e527fade682d1, 0x9b05688c2b3e6c1f, 0x1f83d9abfb41bd6b, 0x5be0cd19137e2179]

/-- The order in which each round takes the words of the block. -/
def orders : List (List Nat) :=
  [[0, 1, 2, 3, 4, 5, 6, 7, 8, 9, 10, 11, 12, 13, 14, 15],
   [14, 10, 4, 8, 9, 15, 13, 6, 1, 12, 0, 2, 11, 7, 5, 3],
   [11, 8, 12, 0, 5, 2, 15, 13, 10, 14, 3, 6, 7, 1, 9, 4],
   [7, 9, 3, 1, 13, 12, 11, 14, 2, 6, 5, 10, 4, 0, 15, 8],
   [9, 0, 5, 7, 2, 4, 10, 15, 14, 1, 11, 12, 6, 8, 3, 13],
   [2, 12, 6, 10, 0, 11, 8, 3, 4, 13, 7, 5, 15, 14, 1, 9],
   [12, 5, 1, 15, 14, 13, 4, 10, 0, 7, 6, 3, 9, 2, 8, 11],
   [13, 11, 7, 14, 12, 1, 3, 9, 5, 0, 15, 4, 8, 6, 2, 10],
   [6, 15, 14, 9, 11, 3, 0, 8, 12, 2, 13, 7, 1, 4, 10, 5],
   [10, 2, 8, 4, 7, 6, 1, 5, 15, 11, 9, 14, 3, 12, 13, 0]]

/-- Mixes four words of the state with two words of the block. -/
@[inline] def mix {α : Type} (a b c d x y : UInt64)
    (next : UInt64 → UInt64 → UInt64 → UInt64 → α) : α :=
  let a := a + b + x
  let d := rotate (d ^^^ a) 32
  let c := c + d
  let b := rotate (b ^^^ c) 24
  let a := a + b + y
  let d := rotate (d ^^^ a) 16
  let c := c + d
  let b := rotate (b ^^^ c) 63
  next a b c d

/-- One round: the four columns of the square, then its four diagonals. -/
def round (block : Array UInt64) (v : Words16) (order : List Nat) : Words16 :=
  let words := (order.map fun i => block.getD i 0).toArray
  let word (i : Nat) : UInt64 := words.getD i 0
  let ⟨v0, v1, v2, v3, v4, v5, v6, v7, v8, v9, v10, v11, v12, v13, v14, v15⟩ := v
  mix v0 v4 v8 v12 (word 0) (word 1) fun v0 v4 v8 v12 =>
  mix v1 v5 v9 v13 (word 2) (word 3) fun v1 v5 v9 v13 =>
  mix v2 v6 v10 v14 (word 4) (word 5) fun v2 v6 v10 v14 =>
  mix v3 v7 v11 v15 (word 6) (word 7) fun v3 v7 v11 v15 =>
  mix v0 v5 v10 v15 (word 8) (word 9) fun v0 v5 v10 v15 =>
  mix v1 v6 v11 v12 (word 10) (word 11) fun v1 v6 v11 v12 =>
  mix v2 v7 v8 v13 (word 12) (word 13) fun v2 v7 v8 v13 =>
  mix v3 v4 v9 v14 (word 14) (word 15) fun v3 v4 v9 v14 =>
  ⟨v0, v1, v2, v3, v4, v5, v6, v7, v8, v9, v10, v11, v12, v13, v14, v15⟩

/-- The eight chaining words after one block of `read` bytes in all. -/
def compress (h : List UInt64) (block : List UInt64) (read : Nat) (last : Bool) : List UInt64 :=
  let counter := UInt64.ofNat read
  let high := UInt64.ofNat (read / UInt64.size)
  let second := initial.zipWith (· ^^^ ·)
    [0, 0, 0, 0, counter, high, if last then 0xffffffffffffffff else 0, 0]
  let rows := orders ++ orders.take 2
  let v := (rows.foldl (round block.toArray) (Words16.ofList (h ++ second))).toList
  (h.zipWith (· ^^^ ·) (v.take 8)).zipWith (· ^^^ ·) (v.drop 8)

/-- The chaining words after `count` blocks, of which the last may be short. -/
def absorb (length : Nat) : (count : Nat) → (read : Nat) → Bytes → List UInt64 → List UInt64
  | 0, _, _, h => h
  | count + 1, read, message, h =>
    let block := Bytes.words64Low (Bytes.padTo 128 (message.take 128))
    let read := min length (read + 128)
    absorb length count read (message.drop 128) (compress h block read (count == 0))

end Blake2b

def blake2b (size : Nat) (message : Bytes) : Bytes :=
  let start := match Blake2b.initial with
    | [] => []
    | w :: ws => (w ^^^ 0x01010000 ^^^ UInt64.ofNat size) :: ws
  let blocks := max 1 ((message.length + 127) / 128)
  ((Blake2b.absorb message.length blocks 0 message start).flatMap Bytes.ofWord64Low).take size

end SecondFactor.Digest
