/-!
# Media types

A media type is `type/subtype`, where the subtype may end in a suffix after its last plus sign,
followed by parameters. Case does not matter. Parameters are only looked at for their form: each
is a name, an equals sign and a value, which is a token or stands in quotes; semicolons separate
them, and spaces may stand before a name and after a closing quote.
-/

namespace SecondFactor.Http

/-- A media type without its parameters, in lower case. -/
structure MediaType where
  kind : List Char
  /-- The subtype up to its last plus sign. -/
  subtype : List Char
  /-- What follows that plus sign. -/
  suffix : Option (List Char)
  deriving DecidableEq

namespace MediaType

def isToken (c : Char) : Bool := c.isAlphanum || "!#$%&'*+-.^_`|~".toList.contains c

def isQuotable (c : Char) : Bool := 0x20 ≤ c.toNat && c.toNat != 0x7f

/-- Where a character stands in the parameters; whether a part has started is told along. -/
inductive Place where
  | name (started : Bool)
  | value (started : Bool)
  | quoted (started : Bool)
  | closed

/-- Whether a run of parameters, read from a place, is well formed. -/
def areParameters : Place → List Char → Bool
  | .name started, [] => !started
  | .value _, [] => true
  | .quoted _, [] => false
  | .closed, [] => true
  | .name started, c :: cs =>
    if c == ' ' && !started then areParameters (.name false) cs
    else if isToken c then areParameters (.name true) cs
    else c == '=' && started && areParameters (.value false) cs
  | .value started, c :: cs =>
    if c == '"' && !started then areParameters (.quoted false) cs
    else if isToken c then areParameters (.value true) cs
    else c == ';' && started && areParameters (.name false) cs
  | .quoted started, c :: cs =>
    if c == '"' && started then areParameters .closed cs
    else isQuotable c && areParameters (.quoted true) cs
  | .closed, c :: cs =>
    if c == ';' then areParameters (.name false) cs else c == ' ' && areParameters .closed cs

/-- A subtype and its suffix. A plus sign in front starts no suffix. -/
def splitSuffix (cs : List Char) : List Char × Option (List Char) :=
  let reversed := cs.reverse
  let suffix := reversed.takeWhile (· != '+')
  match reversed.dropWhile (· != '+') with
  | _ :: c :: stem => ((c :: stem).reverse, some suffix.reverse)
  | _ => (cs, none)

/-- Whether what follows the subtype is nothing, or parameters after a semicolon. -/
def isEnding : List Char → Bool
  | [] => true
  | c :: cs => c == ';' && areParameters (.name false) cs

def parse? (text : String) : Option MediaType :=
  let cs := text.toList.map Char.toLower
  let kind := cs.takeWhile isToken
  match cs.dropWhile isToken with
  | '/' :: rest =>
    let subtype := rest.takeWhile isToken
    let ending := rest.dropWhile isToken
    if kind.isEmpty || !isEnding ending || (subtype.isEmpty && !ending.isEmpty) then none
    else
      let (stem, suffix) := splitSuffix subtype
      some ⟨kind, stem, suffix⟩
  | _ => none

/-- Whether a media type is JSON or is built on it. -/
def isJson (m : MediaType) : Bool :=
  let json := "json".toList
  m.kind == "application".toList && (m.subtype == json || m.suffix == some json)

end MediaType

end SecondFactor.Http
