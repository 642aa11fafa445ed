import SecondFactor.Cause
import SecondFactor.Http.MediaType
import SecondFactor.Json.Object
import SecondFactor.Uuid

/-!
# Requests and responses

What a request brings and what is answered. A refusal has two sources: the service, which gives a
cause, and the reading of the request itself, which knows the ways in which a request can be
unreadable.
-/

namespace SecondFactor.Http

/-- A request. Headers that are not there are `none`. -/
structure Request where
  method : String
  /-- The path, with or without an origin in front and a query behind. -/
  target : String
  authorization : Option String
  contentType : Option String
  body : Bytes

inductive Content where
  | none
  | object (o : Json.Object)
  | image (png : Bytes)
  | text (s : String)
  deriving DecidableEq

def Content.bytes : Content → Bytes
  | .none => []
  | .object o => o.bytes
  | .image png => png
  | .text s => Bytes.ofText s

def Content.mediaType? : Content → Option String
  | .none => Option.none
  | .object _ => some "application/json"
  | .image _ => some "image/png"
  | .text _ => some "text/plain; charset=utf-8"

structure Response where
  status : Nat
  content : Content := .none
  /-- The media type of the content; an answer without content may still name it. -/
  mediaType : Option String := content.mediaType?
  /-- The methods that a path has. -/
  allow : Option String := none
  cacheControl : Option String := none
  deriving DecidableEq

namespace Response

/-- An object in answer to a request that succeeded. -/
def ok (o : Json.Object) : Response := { status := 200, content := .object o }

def noContent : Response := { status := 204 }

def unknownPath : Response := { status := 404 }

def wrongMethod (allowed : String) : Response := { status := 405, allow := some allowed }

/-- The response without its content, for a request that asks about headers only. -/
def stripped (r : Response) : Response := { r with content := .none }

/-- The answer to a request that is refused; `reference` leads to the full message of a defect. -/
def ofCause (reference : Uuid) (cause : Cause) : Response where
  status := cause.status
  content := .object <| ("error", Json.Value.text cause.clientMessage) ::
    if cause.isReferenced then [("reference", Json.Value.text reference.toText)] else []

end Response

inductive Rejection where
  | mediaType
  | tooLarge
  | notJson
  | wrongShape
  | path
  deriving DecidableEq

def Rejection.status : Rejection → Nat
  | .mediaType => 415
  | .tooLarge => 413
  | .notJson | .path => 400
  | .wrongShape => 422

def Rejection.message : Rejection → String
  | .mediaType => "Expected request with `Content-Type: application/json`"
  | .tooLarge => "Failed to buffer the request body"
  | .notJson => "Failed to parse the request body as JSON"
  | .wrongShape => "Failed to deserialize the JSON body into the target type"
  | .path => "Invalid URL"

def Rejection.response (r : Rejection) : Response :=
  { status := r.status, content := .text r.message }

end SecondFactor.Http
