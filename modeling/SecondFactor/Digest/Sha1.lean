import SecondFactor.Digest.Padding

/-!
# SHA-1

Five words of state, blocks of 64 bytes, eighty rounds in four groups of twenty.
-/

namespace SecondFactor.Digest.Sha1

structure State where
  (a b c d e : UInt32)

def initial : State := ⟨0x67452301, 0xefcdab89, 0x98badcfe, 0x10325476, 0xc3d2e1f0⟩

@[inline] def rotate (x n : UInt32) : UInt32 := (x <<< n) ||| (x >>> (32 - n))

/-- The eighty words that a block of sixteen drives the rounds with. -/
def schedule (block : List UInt32) : Array UInt32 :=
  (List.range 64).foldl (fun w i =>
    w.push (rotate (w.getD i 0 ^^^ w.getD (i + 2) 0 ^^^ w.getD (i + 8) 0 ^^^ w.getD (i + 13) 0) 1))
    block.toArray

/-- The choice function and constant of round `i`. -/
def mix (i : Nat) (b c d : UInt32) : UInt32 :=
  if i < 20 then ((b &&& c) ||| (~~~b &&& d)) + 0x5a827999
  else if i < 40 then (b ^^^ c ^^^ d) + 0x6ed9eba1
  else if i < 60 then ((b &&& c) ||| (b &&& d) ||| (c &&& d)) + 0x8f1bbcdc
  else (b ^^^ c ^^^ d) + 0xca62c1d6

def round (s : State) (i : Nat) (w : UInt32) : State :=
  ⟨rotate s.a 5 + mix i s.b s.c s.d + s.e + w, s.a, rotate s.b 30, s.c, s.d⟩

/-- The state after one block: the sum of the state before it and the state after its rounds. -/
def compress (s : State) (block : List UInt32) : State :=
  let r := ((List.range 80).zip (schedule block).toList).foldl (fun r (i, w) => round r i w) s
  ⟨s.a + r.a, s.b + r.b, s.c + r.c, s.d + r.d, s.e + r.e⟩

def State.bytes (s : State) : Bytes := [s.a, s.b, s.c, s.d, s.e].flatMap Bytes.ofWord32

@[simp] theorem State.length_bytes (s : State) : s.bytes.length = 20 := rfl

def finalState (message : Bytes) : State :=
  let words := Bytes.words32 (pad 64 8 message)
  (Bytes.pieces 16 (words.length / 16) words).foldl compress initial

end Sha1

def sha1 (message : Bytes) : Vector UInt8 20 := ⟨(Sha1.finalState message).bytes.toArray, by simp⟩

end SecondFactor.Digest
