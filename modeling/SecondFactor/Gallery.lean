import SecondFactor.Cause
import SecondFactor.Uuid

/-!
# The image gallery

The images of pending secrets lie in one directory, each under a name that nobody can guess: a
random identifier and the image suffix. A name from outside counts only when it spells such an
identifier, so no name leads out of the directory. The directory is made on demand, which fails
when a plain file stands in its place; a folder in the place of an image can be neither read nor
removed.
-/

namespace SecondFactor

structure ImageRef where
  id : Uuid
  deriving DecidableEq

namespace ImageRef

def suffix : List Char := ".png".toList

def text (r : ImageRef) : String := String.ofList (r.id.chars ++ suffix)

def parse? (name : String) : Option ImageRef :=
  let cs := name.toList
  let stem := cs.take (cs.length - suffix.length)
  if cs.drop (cs.length - suffix.length) = suffix ∧ suffix.length ≤ cs.length then
    (Uuid.ofChars? stem).map ImageRef.mk
  else none

end ImageRef

/-- What stands under a name. -/
inductive Gallery.Item where
  | image (content : Bytes)
  | folder
  deriving DecidableEq

inductive Gallery where
  /-- A plain file stands in its place. -/
  | blocked
  | missing
  | directory (items : List (ImageRef × Gallery.Item))
  deriving DecidableEq

namespace Gallery

def items : Gallery → List (ImageRef × Item)
  | .directory items => items
  | _ => []

def item? (g : Gallery) (r : ImageRef) : Option Item := g.items.lookup r

/-- The gallery with its directory, made if it is missing. -/
def prepare? : Gallery → Option Gallery
  | .blocked => none
  | .missing => some (.directory [])
  | .directory items => some (.directory items)

/-- Puts an image under a fresh name. -/
def save (g : Gallery) (r : ImageRef) (content : Bytes) : Except Cause Gallery :=
  match g.prepare? with
  | none => .error (.internal .imageDirectory)
  | some g =>
    if g.item? r = some .folder then .error (.internal .imageWrite)
    else .ok (.directory ((r, .image content) :: g.items.filter fun entry => entry.1 ≠ r))

def read (g : Gallery) (r : ImageRef) : Except Cause (Option Bytes) :=
  match g with
  | .blocked => .error (.internal .imageRead)
  | .missing => .ok none
  | .directory items => match items.lookup r with
    | none => .ok none
    | some (.image content) => .ok (some content)
    | some .folder => .error (.internal .imageRead)

def delete (g : Gallery) (r : ImageRef) : Gallery :=
  match g with
  | .directory items => .directory (items.filter fun entry => !(entry.1 == r && entry.2 != .folder))
  | g => g

/-- Whether images can be saved, making the directory if it is missing. -/
def ready (g : Gallery) : Bool × Gallery :=
  match g.prepare? with
  | none => (false, g)
  | some g => (true, g)

def count (g : Gallery) : Nat := g.items.length

end Gallery

end SecondFactor
