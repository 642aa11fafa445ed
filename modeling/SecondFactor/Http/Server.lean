import SecondFactor.Http.Demand

/-!
# Answering requests

A request is answered in a fixed order: the path, the method, the session, the rest of the request,
and then the call of the service that it asks for. The reply of the service is shown in the form of
the endpoint.
-/

namespace SecondFactor.Http

open Service (Call Reply)

/-! ## Answers -/

def tokenMembers (t : Session.Tokens) : Json.Object :=
  [("access_token", .text t.access), ("refresh_token", .text t.refresh),
   ("token_type", .text "Bearer"), ("expires_in", .number t.expiresIn),
   ("two_factor", .text t.claim.text)]

def textList (texts : List String) : Json.Value := .list (texts.map .text)

/-- An account as it is shown to who registered it. -/
def accountMembers (id : Uuid) (account : Account) : Json.Object :=
  [("id", .text id.toText), ("email", .text account.email), ("two_factor", .text Status.off.text),
   ("created_at", .text account.created.internetText)]

def overviewMembers (v : Service.Overview) : Json.Object :=
  [("status", .text v.enrollment.text), ("session", .text v.claim.text),
   ("backup_codes_remaining", .number v.codesLeft)]

/-- The version that is told with the health of the service. -/
def version : String := "0.1.0"

def healthResponse (h : Service.Health) : Response where
  status := if h.gallery then 200 else 503
  content := .object
    [("status", .text (if h.gallery then "ok" else "degraded")), ("version", .text version),
     ("qr_storage", .flag h.gallery), ("pending_enrollments", .number h.pending)]

/-- The answer with an image, which is not to be kept anywhere. -/
def imageResponse (png : Bytes) : Response where
  status := 200
  content := .image png
  cacheControl := some "no-store"

def replyResponse : Reply → Response
  | .health h => healthResponse h
  | .account id account => { status := 201, content := .object (accountMembers id account) }
  | .login tokens => .ok (tokenMembers tokens ++ [("requires_2fa", .flag (tokens.claim == .on))])
  | .tokens tokens => .ok (tokenMembers tokens)
  | .done => .noContent
  | .overview v => .ok (overviewMembers v)
  | .setup image => .ok
    [("qr_image", .text image.text), ("qr_url", .text (Endpoint.imagePath ++ image.text))]
  | .image png => imageResponse png
  | .activation a => .ok (tokenMembers a.tokens ++ [("recovery_key", .text a.recoveryKey)])
  | .codes shown => .ok [("codes", textList shown)]
  | .recoveryKey shown => .ok [("recovery_key", .text shown)]

/-! ## Requests -/

variable (o : Occasion)

def carryOut : Except Refusal Call → Op Response
  | .ok call => replyResponse <$> Service.perform o call
  | .error refusal => pure (refusal.response o.draws.reference)

/-- Does what a request asks for. Who must have a session is refused without one. -/
def satisfy (r : Request) : Demand → Op Response
  | .anyone call => carryOut o call
  | .member call => do
    let token ← Op.require .unauthorized r.token?
    let session ← Service.sessionOf o token
    carryOut o (call session)

/-- The response that an operation ends with, refusals included; nothing when it breaks off. -/
def settle : Except Failure Response → Option Response
  | .ok response => some response
  | .error (.refused cause) => some (.ofCause o.draws.reference cause)
  | .error .crash => none

def respond (r : Request) : StateM State (Option Response) :=
  match Endpoint.ofTarget? r.target with
  | none => pure (some .unknownPath)
  | some endpoint => do
    let methods := endpoint.verb.methods
    if methods.contains r.method then
      let response := settle o (← (satisfy o r (endpoint.demand r o.deployment.policy.digits)).run)
      return if r.method = "HEAD" then response.map .stripped else response
    else return some (.wrongMethod (String.intercalate "," methods))

end SecondFactor.Http
