import SecurityOAuth2Jwt.Common.Outcome
import SecurityOAuth2Jwt.ResourceServer.CustomUserAuthenticationConverter

/-!
# `ResourceController` and the argument resolver of `WebMvcConfiguration`

The handlers behind `/v1/resource`, with the authorization check in front of them. The
authentication is the one in the `SecurityContext`.
-/

namespace ResourceServer

open Java Spring

/-- The answer to a request: refused by the authorization check, a body, or an exception of the
handler. -/
inductive Response where
  | denied
  | body (text : String)
  | failed (e : JavaException)
  deriving DecidableEq, Repr

/-- `(CustomPrincipal) authentication.getPrincipal()`. The cast of a null reference succeeds. -/
def castCustomPrincipal : Principal CustomPrincipal → Result (Option CustomPrincipal)
  | .user principal => .ok (some principal)
  | .client none => .ok none
  | .client (some _) => .error (.ofClass .classCast)

/-- `WebMvcConfiguration`: every exception is swallowed. -/
def resolveArgument (authentication : OAuth2Authentication CustomPrincipal) :
    Option CustomPrincipal :=
  match castCustomPrincipal authentication.getPrincipal with
  | .ok principal => principal
  | .error _ => none

namespace ResourceController

/-- `principal.getUsername() + " " + principal.getEmail()`. -/
def describe : Option CustomPrincipal → Result String
  | some principal => .ok (principal.username ++ " " ++ principal.email)
  | none => .error (.ofClass .nullPointer)

def context (authentication : OAuth2Authentication CustomPrincipal) : Result String := do
  let principal ← castCustomPrincipal authentication.getPrincipal
  describe principal

def secured (principal : Option CustomPrincipal) : Result String := do
  let text ← describe principal
  return "ResourceController.secured:" ++ text

def general : Result String := .ok "ResourceController.common"

def answer : Result String → Response
  | .ok text => .body text
  | .error e => .failed e

/-- A handler behind `@PreAuthorize("hasAnyAuthority(...)")`. -/
def preAuthorize (authentication : OAuth2Authentication CustomPrincipal) (roles : List String)
    (handler : Result String) : Response :=
  if authentication.hasAnyAuthority roles then answer handler else .denied

/-- The mappings below `/v1/resource`. -/
inductive Endpoint where
  | admins
  | users
  | common
  deriving DecidableEq, Repr

def get (authentication : OAuth2Authentication CustomPrincipal) : Endpoint → Response
  | .admins => preAuthorize authentication ["role_admin"] (context authentication)
  | .users =>
    preAuthorize authentication ["role_admin", "role_user"]
      (secured (resolveArgument authentication))
  | .common => answer general

end ResourceController

end ResourceServer
