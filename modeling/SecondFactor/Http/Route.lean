import SecondFactor.Encoding.Percent

/-!
# Routes

A request has a target, in which a path names an endpoint. An endpoint has one method; one that is
asked by `GET` also answers `HEAD`. Paths are compared as they stand. Only one path has a part that
varies: the name of an image, a segment that is not empty.
-/

namespace SecondFactor.Http

/-! ## Targets -/

def isSchemeChar (c : Char) : Bool := c.isAlphanum || ['+', '-', '.', '~'].contains c

/-- Whether a character ends the authority of a target. -/
def endsAuthority (c : Char) : Bool := ['/', '?', '#'].contains c

def withoutOrigin (target : List Char) : List Char :=
  match target.dropWhile isSchemeChar with
  | ':' :: '/' :: '/' :: rest => rest.dropWhile fun c => !endsAuthority c
  | _ => target

/-- The path in a target: it stands after the scheme and the authority, which are mostly left out,
and before the query and the fragment. -/
def pathOf (target : List Char) : List Char :=
  (withoutOrigin target).takeWhile fun c => c != '?' && c != '#'

/-! ## Endpoints -/

inductive Endpoint where
  | health
  | register
  | login
  | refreshToken
  | logout
  | deleteAccount
  | status
  | setup
  /-- The image with a name, as it stands in the path. -/
  | image (segment : String)
  | activate
  | validate
  | validateBackupCode
  | backupCodes
  | deactivate
  | changePassword
  | recoverPassword
  deriving DecidableEq

inductive Verb where
  | get
  | post
  | delete
  deriving DecidableEq

/-- The methods that a request may use for a verb. -/
def Verb.methods : Verb → List String
  | .get => ["GET", "HEAD"]
  | .post => ["POST"]
  | .delete => ["DELETE"]

namespace Endpoint

def verb : Endpoint → Verb
  | health | status | image _ => .get
  | deleteAccount => .delete
  | register | login | refreshToken | logout | setup | activate | validate | validateBackupCode
  | backupCodes | deactivate | changePassword | recoverPassword => .post

/-- The paths that do not vary. -/
def fixed : List (String × Endpoint) :=
  [("/api/health", health), ("/api/register", register), ("/api/login", login),
   ("/api/token/refresh", refreshToken), ("/api/logout", logout), ("/api/account", deleteAccount),
   ("/api/2fa/status", status), ("/api/2fa/setup", setup), ("/api/2fa/activate", activate),
   ("/api/2fa/validate", validate), ("/api/2fa/validate-backup-code", validateBackupCode),
   ("/api/2fa/backup-codes", backupCodes), ("/api/2fa/deactivate", deactivate),
   ("/api/password/change", changePassword), ("/api/password/recover", recoverPassword)]

/-- What the paths of images start with. -/
def imagePath : String := "/api/2fa/qr/"

/-- The segment that a path has after what the paths of images start with. -/
def segment? (path : List Char) : Option String :=
  let start := imagePath.toList
  let segment := path.drop start.length
  if path.take start.length = start ∧ segment ≠ [] ∧ '/' ∉ segment then some (String.ofList segment)
  else none

def ofTarget? (target : String) : Option Endpoint :=
  let path := pathOf target.toList
  match fixed.lookup (String.ofList path) with
  | some e => some e
  | none => (segment? path).map image

end Endpoint

end SecondFactor.Http
