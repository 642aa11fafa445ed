/-!
# Byte strings

Everything that is hashed, sealed, sent or stored is a list of bytes. Text enters and leaves through
its UTF-8 form, words through their big- or little-endian form; each direction has one function here
so that the framing of messages can be reasoned about with the list library alone.
-/

namespace SecondFactor

abbrev Bytes := List UInt8

namespace Bytes

/-- The UTF-8 form of a text. -/
def ofText (s : String) : Bytes := s.toByteArray.data.toList

def toText? (b : Bytes) : Option String := String.fromUTF8? ⟨b.toArray⟩

@[simp] theorem toText?_ofText (s : String) : toText? (ofText s) = some s := by
  simp [toText?, ofText, String.fromUTF8?, String.fromUTF8, s.isValidUTF8]

@[simp] theorem length_ofText (s : String) : (ofText s).length = s.utf8ByteSize := rfl

theorem ofText_injective {s t : String} (h : ofText s = ofText t) : s = t := by
  have := congrArg toText? h
  simpa using this

/-! ## Words -/

/-- The four bytes of a word, most significant first. -/
def ofWord32 (w : UInt32) : Bytes :=
  [(w >>> 24).toUInt8, (w >>> 16).toUInt8, (w >>> 8).toUInt8, w.toUInt8]

/-- The eight bytes of a word, most significant first. -/
def ofWord64 (w : UInt64) : Bytes :=
  [(w >>> 56).toUInt8, (w >>> 48).toUInt8, (w >>> 40).toUInt8, (w >>> 32).toUInt8,
   (w >>> 24).toUInt8, (w >>> 16).toUInt8, (w >>> 8).toUInt8, w.toUInt8]

def ofWord32Low (w : UInt32) : Bytes := (ofWord32 w).reverse

def ofWord64Low (w : UInt64) : Bytes := (ofWord64 w).reverse

/-- The word with the given bytes, most significant first. -/
def word32 (a b c d : UInt8) : UInt32 :=
  a.toUInt32 <<< 24 ||| b.toUInt32 <<< 16 ||| c.toUInt32 <<< 8 ||| d.toUInt32

def word64 (a b c d e f g h : UInt8) : UInt64 :=
  a.toUInt64 <<< 56 ||| b.toUInt64 <<< 48 ||| c.toUInt64 <<< 40 ||| d.toUInt64 <<< 32 |||
  e.toUInt64 <<< 24 ||| f.toUInt64 <<< 16 ||| g.toUInt64 <<< 8 ||| h.toUInt64

/-- The whole words in a byte string, each most significant byte first. -/
def words32 : Bytes → List UInt32
  | a :: b :: c :: d :: rest => word32 a b c d :: words32 rest
  | _ => []

def words64 : Bytes → List UInt64
  | a :: b :: c :: d :: e :: f :: g :: h :: rest => word64 a b c d e f g h :: words64 rest
  | _ => []

def words64Low : Bytes → List UInt64
  | a :: b :: c :: d :: e :: f :: g :: h :: rest => word64 h g f e d c b a :: words64Low rest
  | _ => []

/-! ## Pieces -/

/-- `count` successive pieces of `size` elements. -/
def pieces {α : Type} (size : Nat) : (count : Nat) → List α → List (List α)
  | 0, _ => []
  | count + 1, xs => xs.take size :: pieces size count (xs.drop size)

def padTo (size : Nat) (b : Bytes) : Bytes :=
  b ++ List.replicate ((size - b.length % size) % size) 0

end Bytes

end SecondFactor
