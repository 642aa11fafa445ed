import SecondFactor.Json.Skip

/-!
# Reading records

A record is read by a list of named shapes. It may be written as an object, whose members may come
in any order and among members that nobody asked for, or as a list of its fields in order. Every
field must be there, and none twice. A name out of a fixed choice may stand as a string, or as an
object whose only member has that name and the value `null`.
-/

namespace SecondFactor.Json

inductive Shape where
  | text
  /-- A natural number below a bound. -/
  | word (bound : Nat)
  /-- A list of natural numbers below a bound. -/
  | words (bound : Nat)
  | choice (names : List String)
  deriving DecidableEq

inductive Datum where
  | text (s : String)
  | word (n : Nat)
  | words (ns : List Nat)
  | choice (name : String)
  deriving DecidableEq

/-! ## Values of one shape -/

/-- The fault of a reading; one without fault is of the wrong shape. -/
def faultOf {α : Type} : Except Fault α → Fault
  | .error fault => fault
  | .ok _ => .mismatch

/-- Why a value of another shape than the expected one is refused: a scalar is read first, so that
its own faults win. The text starts with no blank. -/
def refusal (bs : Bytes) : Fault :=
  match bs with
  | [] => .truncated
  | b :: rest =>
    if b = 0x6e then faultOf (readLiteral (Bytes.ofText "ull") rest)
    else if b = 0x74 then faultOf (readLiteral (Bytes.ofText "rue") rest)
    else if b = 0x66 then faultOf (readLiteral (Bytes.ofText "alse") rest)
    else if b = 0x2d then faultOf (readNumber false rest)
    else if isDigit b then faultOf (readNumber true bs)
    else if b = 0x22 then faultOf (readString rest)
    else if b = 0x5b ∨ b = 0x7b then .mismatch
    else .malformed

def readText (bs : Bytes) : Except Fault (String × Bytes) :=
  match skipBlanks bs with
  | [] => .error .truncated
  | b :: rest => if b = 0x22 then readString rest else .error (refusal (b :: rest))

def readWord (bound : Nat) (bs : Bytes) : Except Fault (Nat × Bytes) :=
  match skipBlanks bs with
  | [] => .error .truncated
  | b :: rest =>
    if isDigit b then do
      match ← readNumber true (b :: rest) with
      | (.natural n, rest) => if n < bound then return (n, rest) else throw .mismatch
      | (.other, _) => throw .mismatch
    else .error (refusal (b :: rest))

/-- Where the next item of a list starts, or the rest after its closing bracket. -/
def nextItem (first : Bool) (bs : Bytes) : Except Fault (Bytes ⊕ Bytes) :=
  match skipBlanks bs with
  | [] => .error .truncated
  | b :: rest =>
    if b = 0x5d then .ok (.inr rest)
    else if first then .ok (.inl (b :: rest))
    else if b = 0x2c then
      match skipBlanks rest with
      | [] => .error .truncated
      | c :: more => if c = 0x5d then .error .malformed else .ok (.inl (c :: more))
    else .error .malformed

/-- The items of a list of numbers up to its closing bracket. -/
def readItems (bound : Nat) : (fuel : Nat) → (first : Bool) → Bytes →
    Except Fault (List Nat × Bytes)
  | 0, _, _ => .error .truncated
  | fuel + 1, first, bs => do
    match ← nextItem first bs with
    | .inr rest => return ([], rest)
    | .inl item =>
      let (n, rest) ← readWord bound item
      let (ns, rest) ← readItems bound fuel false rest
      return (n :: ns, rest)

/-- A list of natural numbers below a bound. -/
def readWords (bound : Nat) (bs : Bytes) : Except Fault (List Nat × Bytes) :=
  match skipBlanks bs with
  | [] => .error .truncated
  | b :: rest =>
    if b = 0x5b then readItems bound (rest.length + 1) true rest
    else .error (refusal (b :: rest))

/-- The rest after the colon between a name and its value. -/
def readColon (bs : Bytes) : Except Fault Bytes :=
  match skipBlanks bs with
  | [] => .error .truncated
  | b :: rest => if b = 0x3a then .ok rest else .error .malformed

def readNull (bs : Bytes) : Except Fault Bytes :=
  match skipBlanks bs with
  | [] => .error .truncated
  | b :: rest =>
    if b = 0x6e then readLiteral (Bytes.ofText "ull") rest else .error (refusal (b :: rest))

def readName (names : List String) (bs : Bytes) : Except Fault (String × Bytes) := do
  let (name, rest) ← readText bs
  if names.contains name then return (name, rest) else throw .mismatch

/-- One of the given names as the only member of an object, after its opening brace. What stands in
the place of the name must start as a string does. -/
def readTagged (names : List String) (bs : Bytes) : Except Fault (String × Bytes) :=
  match skipBlanks bs with
  | [] => .error .truncated
  | b :: rest =>
    if b = 0x22 then do
      let (name, rest) ← readName names (b :: rest)
      match skipBlanks (← readNull (← readColon rest)) with
      | [] => throw .truncated
      | c :: rest => if c = 0x7d then return (name, rest) else throw .malformed
    else .error .malformed

/-- One of the given names, as a string or as the only member of an object. -/
def readChoice (names : List String) (bs : Bytes) : Except Fault (String × Bytes) :=
  match skipBlanks bs with
  | [] => .error .truncated
  | b :: rest =>
    if b = 0x22 then readName names (b :: rest)
    else if b = 0x7b then readTagged names rest
    else .error .malformed

def readDatum (shape : Shape) (bs : Bytes) : Except Fault (Datum × Bytes) :=
  match shape with
  | .text => do
    let (s, rest) ← readText bs
    return (.text s, rest)
  | .word bound => do
    let (n, rest) ← readWord bound bs
    return (.word n, rest)
  | .words bound => do
    let (ns, rest) ← readWords bound bs
    return (.words ns, rest)
  | .choice names => do
    let (name, rest) ← readChoice names bs
    return (.choice name, rest)

/-! ## Records -/

abbrev Fields := List (String × Shape)

/-- The fields in order, from a list that holds nothing else. -/
def readPositions : Fields → (first : Bool) → Bytes → Except Fault (List Datum × Bytes)
  | [], _, bs => match skipBlanks bs with
    | [] => .error .truncated
    | b :: rest => if b = 0x5d then .ok ([], rest) else .error .malformed
  | (_, shape) :: fields, first, bs => do
    match ← nextItem first bs with
    | .inr _ => throw .mismatch
    | .inl item =>
      let (d, rest) ← readDatum shape item
      let (ds, rest) ← readPositions fields false rest
      return (d :: ds, rest)

/-- Where the name of the next member starts, after its quote, or the rest after the closing
brace. -/
def nextMember (first : Bool) (bs : Bytes) : Except Fault (Bytes ⊕ Bytes) :=
  match skipBlanks bs with
  | [] => .error .truncated
  | b :: rest =>
    if b = 0x7d then .ok (.inr rest)
    else if first then if b = 0x22 then .ok (.inl rest) else .error .malformed
    else if b = 0x2c then
      match skipBlanks rest with
      | [] => .error .truncated
      | c :: more => if c = 0x22 then .ok (.inl more) else .error .malformed
    else .error .malformed

/-- The known members of an object up to its closing brace, in front of those found before. -/
def readMembers (fields : Fields) : (fuel : Nat) → (first : Bool) → List (String × Datum) → Bytes →
    Except Fault (List (String × Datum) × Bytes)
  | 0, _, _, _ => .error .truncated
  | fuel + 1, first, found, bs => do
    match ← nextMember first bs with
    | .inr rest => return (found, rest)
    | .inl name =>
      let (name, rest) ← readString name
      match fields.lookup name with
      | none =>
        let rest ← skipValue (← readColon rest)
        readMembers fields fuel false found rest
      | some shape =>
        if (found.lookup name).isSome then throw .mismatch
        let (d, rest) ← readDatum shape (← readColon rest)
        readMembers fields fuel false ((name, d) :: found) rest

def readRecord (fields : Fields) (bs : Bytes) : Except Fault (List Datum × Bytes) :=
  match skipBlanks bs with
  | [] => .error .truncated
  | b :: rest =>
    if b = 0x5b then readPositions fields true rest
    else if b = 0x7b then do
      let (found, rest) ← readMembers fields (rest.length + 1) true [] rest
      match fields.mapM fun field => found.lookup field.1 with
      | some ds => return (ds, rest)
      | none => throw .mismatch
    else .error (refusal (b :: rest))

/-! ## Whole documents -/

/-- What was read, if only blanks follow it. -/
def wholeOf {α : Type} (reading : Except Fault (α × Bytes)) : Except Fault α := do
  let (value, rest) ← reading
  if (skipBlanks rest).isEmpty then return value else throw .malformed

/-- The fields of the record that a document consists of. -/
def decodeRecord (fields : Fields) (document : Bytes) : Except Fault (List Datum) :=
  wholeOf (readRecord fields document)

def decodeChoice (names : List String) (document : Bytes) : Except Fault String :=
  wholeOf (readChoice names document)

end SecondFactor.Json
