import SecondFactor.Argon2.Fill
import SecondFactor.Encoding.Base64

/-!
# Password hashes as text

A hash is kept as a PHC string: fields that a dollar sign starts, namely the algorithm, the
version, the parameters, the salt and the tag. Version and parameters may be left out, and so may
salt and tag from the end. Reading looks at the form of the fields only. A hash that can be read
but not recomputed matches no password; only where its lanes are too many to count their blocks is
there no verdict at all.
-/

namespace SecondFactor.Argon2

inductive Fault where
  /-- The text of the hash cannot be read. -/
  | unreadable
  /-- The lanes are so many that their blocks cannot be counted. -/
  | uncountable
  deriving DecidableEq

structure Phc where
  algorithm : List Char
  version : Option Nat
  /-- Names and values in order. -/
  params : List (List Char × List Char)
  salt : Option (List Char)
  tag : Option Bytes

namespace Phc

/-! ## Fields -/

def isNameChar (c : Char) : Bool := ('a' ≤ c && c ≤ 'z') || ('0' ≤ c && c ≤ '9') || c == '-'

def isValueChar (c : Char) : Bool :=
  ('A' ≤ c && c ≤ 'Z') || ('a' ≤ c && c ≤ 'z') || ('0' ≤ c && c ≤ '9') ||
  c == '/' || c == '+' || c == '.' || c == '-'

/-- A name has between one and thirty-two characters. -/
def isName (cs : List Char) : Bool := decide (1 ≤ cs.length ∧ cs.length ≤ 32) && cs.all isNameChar

/-- A value has at most sixty-four characters. -/
def isValue (cs : List Char) : Bool := decide (cs.length ≤ 64) && cs.all isValueChar

/-- The number below 2^32 that a value spells in decimal digits without superfluous zeros. -/
def decimal? (cs : List Char) : Option Nat :=
  let padded := cs.head? == some '0' && decide (1 < cs.length)
  if cs.isEmpty || !cs.all Char.isDigit || padded then none
  else
    let n := cs.foldl (fun n c => n * 10 + (c.toNat - 48)) 0
    if n < UInt32.size then some n else none

def version? (field : List Char) : Option Nat :=
  let value := field.drop 2
  if isValue value then decimal? value else none

def param? (cs : List Char) : Option (List Char × List Char) :=
  match cs.splitOn '=' with
  | [name, value] => if isName name && isValue value then some (name, value) else none
  | _ => none

/-- The parameters in a field of at most 127 characters, with commas between them. -/
def params? (field : List Char) : Option (List (List Char × List Char)) :=
  if 127 < field.length then none else (field.splitOn ',').mapM param?

def salt? (field : List Char) : Option (List Char) :=
  if 4 ≤ field.length && isValue field then some field else none

/-- The tag in a field: ten to sixty-four bytes. -/
def tag? (field : List Char) : Option Bytes := do
  let bs ← Base64.decodeChars? .standard field
  if 10 ≤ bs.length ∧ bs.length ≤ 64 then some bs else none

/-- The first field as a version, if it is one. -/
def takeVersion? : List (List Char) → Option (Option Nat × List (List Char))
  | [] => some (none, [])
  | field :: fields =>
    if field.take 2 == ['v', '='] && !field.contains ',' then do
      return (some (← version? field), fields)
    else some (none, field :: fields)

def takeParams? : List (List Char) → Option (List (List Char × List Char) × List (List Char))
  | [] => some ([], [])
  | field :: fields =>
    if field.contains '=' then do return (← params? field, fields) else some ([], field :: fields)

def parse? (s : String) : Option Phc :=
  match s.toList.splitOn '$' with
  | [] :: algorithm :: fields => do
    if !isName algorithm then none
    let (version, fields) ← takeVersion? fields
    let (params, fields) ← takeParams? fields
    match fields with
    | [] => return ⟨algorithm, version, params, none, none⟩
    | [salt] => return ⟨algorithm, version, params, some (← salt? salt), none⟩
    | [salt, tag] => return ⟨algorithm, version, params, some (← salt? salt), some (← tag? tag)⟩
    | _ => none
  | _ => none

/-! ## Recomputing -/

def variant? (name : List Char) : Option Variant :=
  if name = "argon2d".toList then some .dependent
  else if name = "argon2i".toList then some .independent
  else if name = "argon2id".toList then some .hybrid
  else none

/-- The version that a number stands for; the newer one where none is given. -/
def versionOf? : Option Nat → Option Version
  | none => some .adding
  | some 16 => some .replacing
  | some 19 => some .adding
  | some _ => none

/-- The bytes of a value, at most `limit`. -/
def bytesValue? (limit : Nat) (value : List Char) : Option Bytes := do
  let bs ← Base64.decodeChars? .standard value
  if bs.length ≤ limit then some bs else none

/-- The parameters with one more taken into account. A key's name counts for nothing. -/
def applyParam? (p : Params) : List Char × List Char → Option Params
  | (name, value) =>
    if name = ['m'] then do return { p with memory := ← decimal? value }
    else if name = ['t'] then do return { p with passes := ← decimal? value }
    else if name = ['p'] then do return { p with lanes := ← decimal? value }
    else if name = "keyid".toList then do
      let _ ← bytesValue? 8 value
      return p
    else if name = "data".toList then do return { p with associated := ← bytesValue? 32 value }
    else none

def costs? (h : Phc) (size : Nat) : Option Params := h.params.foldlM applyParam? { size }

/-- The tag of a password at the given costs, when variant, version, costs and salt allow one. The
salt has at least eight bytes. -/
def recompute? (h : Phc) (costs : Params) (salt : List Char) (password : Bytes) : Option Bytes := do
  let p := { costs with variant := ← variant? h.algorithm, version := ← versionOf? h.version }
  let saltBytes ← Base64.decodeChars? .standard salt
  if p.Valid ∧ 8 ≤ saltBytes.length then some (Argon2.tag p password saltBytes) else none

/-- Whether the hash is the hash of a password. The costs are read and counted before anything else
is looked at. -/
def check (h : Phc) (password : Bytes) : Except Fault Bool :=
  match h.salt, h.tag with
  | some salt, some expected =>
    match h.costs? expected.length with
    | some costs =>
      if costs.Countable then .ok (h.recompute? costs salt password == some expected)
      else .error .uncountable
    | none => .ok false
  | _, _ => .ok false

end Phc

/-- The text of the hash of a password under the default parameters. -/
def hash (salt : Bytes) (password : String) : String :=
  "$argon2id$v=19$m=19456,t=2,p=1$" ++ Base64.encode .standard salt ++ "$" ++
    Base64.encode .standard (tag {} (Bytes.ofText password) salt)

def verify (hash password : String) : Except Fault Bool :=
  match Phc.parse? hash with
  | some h => h.check (Bytes.ofText password)
  | none => .error .unreadable

end SecondFactor.Argon2
