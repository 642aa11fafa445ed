import SecondFactor.Json.Number

/-!
# Skipping a value

Members that nobody asked for are read over, at any depth: the open brackets are kept on a stack,
and each step either opens a bracket, passes a scalar, or closes a bracket.
-/

namespace SecondFactor.Json

inductive Bracket where
  | list
  | object
  deriving DecidableEq

def Bracket.closing : Bracket → UInt8
  | .list => 0x5d
  | .object => 0x7d

/-- What comes next while skipping. -/
inductive Expected where
  | value
  /-- The first item of an open bracket, or its end. -/
  | firstItem
  /-- A comma and another item of an open bracket, or its end. -/
  | nextItem
  deriving DecidableEq

/-- The rest after a scalar that starts with `b`. -/
def skipScalar (b : UInt8) (rest : Bytes) : Except Fault Bytes :=
  if b = 0x22 then skipString rest
  else if b = 0x6e then readLiteral (Bytes.ofText "ull") rest
  else if b = 0x74 then readLiteral (Bytes.ofText "rue") rest
  else if b = 0x66 then readLiteral (Bytes.ofText "alse") rest
  else if b = 0x2d then skipNumber rest
  else if isDigit b then skipNumber (b :: rest)
  else .error .malformed

/-- The rest after what stands before the value of an item: nothing in a list, a name and a colon
in an object. -/
def skipItemHead (bracket : Bracket) (bs : Bytes) : Except Fault Bytes :=
  match bracket with
  | .list => .ok bs
  | .object => match skipBlanks bs with
    | [] => .error .truncated
    | b :: rest =>
      if b = 0x22 then do
        match skipBlanks (← skipString rest) with
        | [] => throw .truncated
        | c :: more => if c = 0x3a then return more else throw .malformed
      else .error .malformed

/-- The rest after a value and all open brackets. Every step but the last two of a bracket uses up
at least one byte, which bounds `fuel`. -/
def skipUntilClosed : (fuel : Nat) → Expected → List Bracket → Bytes → Except Fault Bytes
  | 0, _, _, _ => .error .truncated
  | fuel + 1, .value, brackets, bs =>
    match skipBlanks bs with
    | [] => .error .truncated
    | b :: rest =>
      if b = 0x5b then skipUntilClosed fuel .firstItem (.list :: brackets) rest
      else if b = 0x7b then skipUntilClosed fuel .firstItem (.object :: brackets) rest
      else do
        let rest ← skipScalar b rest
        skipUntilClosed fuel .nextItem brackets rest
  | _ + 1, _, [], bs => .ok bs
  | fuel + 1, .firstItem, bracket :: brackets, bs =>
    match skipBlanks bs with
    | [] => .error .truncated
    | b :: rest =>
      if b = bracket.closing then skipUntilClosed fuel .nextItem brackets rest
      else do
        let rest ← skipItemHead bracket (b :: rest)
        skipUntilClosed fuel .value (bracket :: brackets) rest
  | fuel + 1, .nextItem, bracket :: brackets, bs =>
    match skipBlanks bs with
    | [] => .error .truncated
    | b :: rest =>
      if b = bracket.closing then skipUntilClosed fuel .nextItem brackets rest
      else if b = 0x2c then do
        let rest ← skipItemHead bracket rest
        skipUntilClosed fuel .value (bracket :: brackets) rest
      else .error .malformed

def skipValue (bs : Bytes) : Except Fault Bytes :=
  skipUntilClosed (2 * bs.length + 2) .value [] bs

end SecondFactor.Json
