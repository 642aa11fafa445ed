import SecondFactor.Json.Token

/-!
# Reading numbers

A number without sign, fraction and exponent that fits in 64 bits is a natural number. Any other
number is only checked: for its form, and for being within the range of double precision when its
value is worked out as the first digits that fit in 64 bits times a power of ten.
-/

namespace SecondFactor.Json

/-- A number as far as readers tell numbers apart. -/
inductive Number where
  | natural (n : Nat)
  /-- A negative number, a number with fraction or exponent, or one beyond 64 bits. -/
  | other
  deriving DecidableEq

/-! ## Range -/

/-- The nearest number with 53 significant bits, a tie going to the even one. -/
def round53 (n : Nat) : Nat :=
  let extra := n.log2 + 1 - 53
  if extra = 0 then n
  else
    let kept := n >>> extra
    let dropped := n % (1 <<< extra)
    let half := 1 <<< (extra - 1)
    (if half < dropped ∨ (dropped = half ∧ kept % 2 = 1) then kept + 1 else kept) <<< extra

/-- The least number that double precision rounds to infinity. -/
def infinityBound : Nat := (1 <<< 1024) - (1 <<< 970)

/-- Whether `significand · 10 ^ exponent` stays finite, each factor and the product being
rounded. -/
def inRange (significand : Nat) (exponent : Int) : Bool :=
  if significand = 0 ∨ exponent < 0 then true
  else if 308 < exponent then false
  else decide (round53 significand * round53 (Nat.pow 10 exponent.toNat) < infinityBound)

/-- A decimal significand in the making: the digits that fit in 64 bits, and a power of ten. -/
structure Significand where
  value : Nat
  exponent : Int

/-- Appends a digit to `n` if the result fits in 64 bits. -/
def appendDigit? (n : Nat) (digit : UInt8) : Option Nat :=
  let m := n * 10 + (digit.toNat - 0x30)
  if m < UInt64.size then some m else none

/-- The integral digits: from the first one that does not fit on, digits only scale. -/
def Significand.ofIntegral (digits : Bytes) : Significand :=
  go 0 digits
where
  go (value : Nat) : Bytes → Significand
    | [] => ⟨value, 0⟩
    | d :: ds => match appendDigit? value d with
      | some value => go value ds
      | none => ⟨value, (d :: ds).length⟩

/-- The fractional digits: from the first one that does not fit on, digits are dropped. -/
def Significand.withFraction (s : Significand) : Bytes → Significand
  | [] => s
  | d :: ds => match appendDigit? s.value d with
    | some value => Significand.withFraction ⟨value, s.exponent - 1⟩ ds
    | none => s

/-! ## Form -/

/-- Faults at the end of the text and before anything else. -/
def faultAt : Bytes → Fault
  | [] => .truncated
  | _ :: _ => .malformed

/-- The digits of an exponent with its sign, after the `e`: at least one digit. -/
def readExponent (bs : Bytes) : Except Fault (Int × Bytes) := do
  let (negative, bs) := match bs with
    | b :: rest =>
      if b = 0x2b then (false, rest) else if b = 0x2d then (true, rest) else (false, bs)
    | [] => (false, bs)
  let digits := bs.takeWhile isDigit
  if digits.isEmpty then throw (faultAt bs)
  let n : Nat := digits.foldl (fun n d => n * 10 + (d.toNat - 0x30)) 0
  return (if negative then -(n : Int) else n, bs.dropWhile isDigit)

/-- Whether a significand with an exponent of its own stays finite. An exponent that does not fit
in 31 bits counts by itself. -/
def Significand.finite (s : Significand) (exponent : Int) : Bool :=
  if 2147483647 < exponent then s.value == 0
  else if exponent < -2147483647 then true
  else inRange s.value (s.exponent + exponent)

def finishNumber (s : Significand) (bs : Bytes) : Except Fault (Number × Bytes) := do
  let (exponent, rest) ← match bs with
    | b :: rest => if b = 0x65 ∨ b = 0x45 then readExponent rest else .ok (0, bs)
    | [] => .ok (0, bs)
  if s.finite exponent then return (.other, rest) else throw .malformed

def readTail (positive : Bool) (digits : Bytes) (bs : Bytes) : Except Fault (Number × Bytes) :=
  let s := Significand.ofIntegral digits
  match bs with
  | b :: rest =>
    if b = 0x2e then
      let fraction := rest.takeWhile isDigit
      let after := rest.dropWhile isDigit
      if fraction.isEmpty then .error (faultAt after)
      else finishNumber (s.withFraction fraction) after
    else if b = 0x65 ∨ b = 0x45 then finishNumber s bs
    else plain s
  | [] => plain s
where
  plain (s : Significand) : Except Fault (Number × Bytes) :=
    if s.exponent = 0 then .ok (if positive then .natural s.value else .other, bs)
    else finishNumber s bs

/-- A number, after its sign: a zero that no digit follows, or digits that start with no zero. -/
def readNumber (positive : Bool) (bs : Bytes) : Except Fault (Number × Bytes) :=
  match bs with
  | [] => .error .truncated
  | b :: rest =>
    if b = 0x30 then
      match rest with
      | c :: _ => if isDigit c then .error .malformed else readTail positive [b] rest
      | [] => readTail positive [b] rest
    else if isDigit b then readTail positive (bs.takeWhile isDigit) (bs.dropWhile isDigit)
    else .error .malformed

/-! ## Skipping -/

/-- The rest after at least one digit. -/
def skipDigits (bs : Bytes) : Except Fault Bytes :=
  if (bs.takeWhile isDigit).isEmpty then .error .malformed else .ok (bs.dropWhile isDigit)

def skipExponent (bs : Bytes) : Except Fault Bytes :=
  match bs with
  | b :: rest =>
    if b = 0x65 ∨ b = 0x45 then
      match rest with
      | c :: more => if c = 0x2b ∨ c = 0x2d then skipDigits more else skipDigits rest
      | [] => skipDigits rest
    else .ok bs
  | [] => .ok bs

def skipTail (bs : Bytes) : Except Fault Bytes :=
  match bs with
  | b :: rest => if b = 0x2e then do skipExponent (← skipDigits rest) else skipExponent bs
  | [] => .ok bs

/-- The rest after a number that nobody asked for, after its sign. Only its form is looked at, and a
number that breaks off is not JSON. -/
def skipNumber (bs : Bytes) : Except Fault Bytes :=
  match bs with
  | b :: rest =>
    if b = 0x30 then
      match rest with
      | c :: _ => if isDigit c then .error .malformed else skipTail rest
      | [] => .ok []
    else do skipTail (← skipDigits bs)
  | [] => .error .malformed

end SecondFactor.Json
