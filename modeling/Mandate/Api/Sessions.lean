/-
  Operator sessions of the console: the session table, the synchronizer token
  of each session, the guards of the routes, login and logout.

  A login never changes a session: it writes a new one under a drawn token and
  drops the old entry (`authenticateSession`).
-/
import Mandate.Api.Amounts
import Mandate.Api.Pages
import Mandate.Transport.Gateway

namespace Mandate

/-! ## State -/

/-- One server-side session. -/
structure Session where
  csrfToken : String
  authenticated : Bool := false
deriving DecidableEq

/-- The signed, timestamped serializer: `dumps secret payload time`, and whether
    `loads secret token maxAge time` returns; `false` when it raises
    `BadSignature`. -/
class CsrfSerializer where
  dumps : String → String → ℤ → String
  loads : String → String → ℤ → ℤ → Bool

/-- `AppState`. -/
structure Console where
  store : Store
  signer : GatewaySigner
  operatorId : String
  operatorPassword : String
  sessionSecret : String
  sessions : Dict String Session
  dealIds : List String
  dealRecords : Dict String String
  screen : ContentScreen
  screenClaims : Dict String ContentClaims

/-! ## Requests and responses -/

/-- The routes, with their path parameters, and what the framework answers by
    itself: an unknown path (404), another method (405), its own pages. -/
inductive Endpoint where
  | loginGet | loginPost | logout | home | newDeal
  | dealDetail (dealId : String)
  | timeline (dealId : String)
  | proposeForm (dealId : String)
  | propose (dealId : String)
  | boundaryEvent (dealId : String)
  | decideApproval (dealId approvalId : String)
  | revoke (dealId : String)
  | framework (status : ℕ) (text : String)
deriving DecidableEq

/-- The method is `GET`. -/
def Endpoint.isGet : Endpoint → Bool
  | loginGet | home | dealDetail _ | timeline _ | proposeForm _ => true
  | _ => false

/-- The route depends on `require_auth`. -/
def Endpoint.guarded : Endpoint → Bool
  | loginGet | loginPost | framework _ _ => false
  | _ => true

/-- The route depends on `require_csrf`, too. -/
def Endpoint.operates : Endpoint → Bool
  | newDeal | propose _ | boundaryEvent _ | decideApproval _ _ | revoke _ => true
  | _ => false

structure HttpRequest where
  endpoint : Endpoint
  cookie : Option String
  form : Dict String String

/-- `str(form.get(name, ""))`. -/
def HttpRequest.field (r : HttpRequest) (name : String) : String := (r.form.get? name).getD ""

/-- A request with the token the middleware set on `request.state`. -/
structure Exchange where
  request : HttpRequest
  mandateToken : String

def Exchange.field (x : Exchange) (name : String) : String := x.request.field name

/-- What a route raises: an `HTTPException`, or what nothing handles. -/
inductive RouteError where
  | http (statusCode : ℕ) (detail : String) (location : Option String := none)
  | python (e : PyError)
  | amount (e : AmountError)

inductive Body where
  /-- a template with the values that `render` adds -/
  | page (page : Page) (csrfToken : String) (authenticated : Bool)
  | detail (text : String)
  | empty
  | serverError

structure Response where
  status : ℕ
  body : Body
  location : Option String := none
  deletesCookie : Bool := false

/-- A redirect after a form was handled. -/
def Response.redirect (url : String) : Response := ⟨303, .empty, some url, false⟩

/-- A `Set-Cookie` header for the session cookie. -/
inductive SetCookie where
  | token (value : String)
  | delete
deriving DecidableEq

/-- A response as it leaves the server. -/
structure HttpResponse where
  response : Response
  cookies : List SetCookie

/-! ## Comparison -/

def sessionMaxAge : ℤ := 8 * 3600

/-- `hmac.compare_digest` on texts; it raises on characters outside ASCII. -/
def compareDigest (a b : String) : Except PyError Bool :=
  if (a.toList ++ b.toList).all fun c => c.toNat < 128 then .ok (a = b) else .error .typeError

theorem eq_of_compareDigest {a b : String} (h : compareDigest a b = .ok true) : a = b := by
  unfold compareDigest at h
  split_ifs at h
  simpa using h

namespace Console

/-! ## Sessions -/

def getSession (c : Console) (x : Exchange) : Option Session := c.sessions.get? x.mandateToken

def isAuthenticated (c : Console) (x : Exchange) : Bool :=
  ((c.getSession x).map Session.authenticated).getD false

def csrfTokenFor (c : Console) (x : Exchange) : String :=
  ((c.getSession x).map Session.csrfToken).getD ""

def checkPassword (c : Console) (submitted : String) : Except PyError Bool :=
  compareDigest submitted c.operatorPassword

def destroySession (c : Console) (x : Exchange) : Console :=
  { c with sessions := c.sessions.remove x.mandateToken }

def requireAuth (c : Console) (x : Exchange) : Except RouteError Session :=
  match (c.getSession x).filter Session.authenticated with
  | some session => .ok session
  | none =>
    if x.request.endpoint.isGet then .error (.http 307 "login required" (some "/login"))
    else .error (.http 403 "login required")

def render (c : Console) (x : Exchange) (page : Page) : Response :=
  { status := 200, body := .page page (c.csrfTokenFor x) (c.isAuthenticated x) }

/-- What a new session takes from the entropy source and the clock. -/
structure SessionDraw where
  token : String
  payload : String
  time : ℤ

variable [CsrfSerializer]

/-- `_new_csrf`: a signed token over fresh bytes. -/
def newCsrf (c : Console) (d : SessionDraw) : String :=
  CsrfSerializer.dumps c.sessionSecret d.payload d.time

/-- A new session under the drawn token. -/
def openSession (c : Console) (d : SessionDraw) (authenticated : Bool) : Console :=
  { c with sessions := c.sessions.set d.token ⟨c.newCsrf d, authenticated⟩ }

def newAnonymousSession (c : Console) (d : SessionDraw) : Console := c.openSession d false

/-- `session_middleware`, before the route: a cookie without a session gets an
    anonymous one. -/
def sessionMiddleware (c : Console) (request : HttpRequest) (d : SessionDraw) :
    Exchange × Console :=
  match request.cookie.filter fun token => (c.sessions.get? token).isSome with
  | some token => (⟨request, token⟩, c)
  | none => (⟨request, d.token⟩, c.newAnonymousSession d)

/-- Replace the session by an authenticated one under a drawn token. -/
def authenticateSession (c : Console) (x : Exchange) (d : SessionDraw) :
    Option (Exchange × Console) :=
  match c.getSession x with
  | none => none
  | some _ =>
    let opened := c.openSession d true
    some ({ x with mandateToken := d.token },
      { opened with sessions := opened.sessions.remove x.mandateToken })

/-- The submitted token is the session's, and its signature is valid now. -/
def verifyCsrf (c : Console) (x : Exchange) (submitted : String) (time : ℤ) :
    Except PyError Bool :=
  match c.getSession x with
  | none => .ok false
  | some session =>
    if submitted = "" then .ok false
    else do
      if !(← compareDigest submitted session.csrfToken) then return false
      return CsrfSerializer.loads c.sessionSecret submitted sessionMaxAge time

/-- The check of the synchronizer token; the login was checked before, and is
    not checked again. -/
def requireCsrf (c : Console) (x : Exchange) (time : ℤ) : Except RouteError Unit :=
  match c.verifyCsrf x (x.field "csrf_token") time with
  | .error e => .error (.python e)
  | .ok true => .ok ()
  | .ok false => .error (.http 400 "csrf token mismatch")

end Console

end Mandate
