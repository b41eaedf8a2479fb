import SecurityOAuth2Jwt.ResourceServer.CustomAccessTokenConverter
import SecurityOAuth2Jwt.ResourceServer.ResourceController
import SecurityOAuth2Jwt.Spring.BearerAuthentication

/-!
# `ResourceServerConfiguration`

A request to the resource server: its bearer token, if it has one, is authenticated with the
converter of the application, and the method security of the handlers decides. The configuration
permits every request, so a request without a token reaches the handlers as an anonymous one.
-/

namespace ResourceServer

open Java Spring

/-- The authority of Spring's anonymous authentication. -/
def anonymousAuthorities : List GrantedAuthority := [⟨"ROLE_ANONYMOUS"⟩]

/-- The converter as Spring's token services see it. -/
def CustomAccessTokenConverter.toAccessTokenConverter (S : SpringSecurity)
    (conv : CustomAccessTokenConverter) : AccessTokenConverter CustomPrincipal where
  extractAccessToken := extractAccessToken
  extractAuthentication := conv.extractAuthentication S

/-- The answer to a request: that of the filter for an invalid token, or that of the application. -/
inductive Reply where
  | refused
  | answered (response : Response)
  deriving DecidableEq, Repr

/-- The resource server with the objects that it uses. -/
structure ResourceServerConfiguration where
  spring : SpringSecurity
  tokenConverter : CustomAccessTokenConverter
  manager : OAuth2AuthenticationManager CustomPrincipal

structure ResourceServerConfiguration.Documented (R : ResourceServerConfiguration) : Prop where
  spring : R.spring.Documented
  manager : R.manager.Documented

namespace ResourceServerConfiguration

variable (R : ResourceServerConfiguration)

def resourceId : String := "USER_ADMIN_RESOURCE"

/-- `@PreAuthorize` for an anonymous request. The entry point and the handler for denied requests
both send the status 401. -/
def preAuthorizeAnonymous (roles : List String) (handler : Result String) : Response :=
  if ∃ role ∈ roles, ⟨role⟩ ∈ anonymousAuthorities then ResourceController.answer handler
  else .denied

/-- The principal of an anonymous authentication is a string. -/
def anonymous : ResourceController.Endpoint → Response
  | .admins => preAuthorizeAnonymous ["role_admin"] (.error (.ofClass .classCast))
  | .users => preAuthorizeAnonymous ["role_admin", "role_user"] (ResourceController.secured none)
  | .common => ResourceController.answer ResourceController.general

/-- The reply to a request at the time `now`. -/
def request (decode : String → Option ClaimsMap) (now : Int64) (bearer : Option String)
    (endpoint : ResourceController.Endpoint) : Reply :=
  match bearer with
  | none => .answered (anonymous endpoint)
  | some value =>
    match R.manager.authenticate (R.tokenConverter.toAccessTokenConverter R.spring) resourceId
      decode now value with
    | .refused => .refused
    | .failed e => .answered (.failed e)
    | .authenticated authentication => .answered (ResourceController.get authentication endpoint)

end ResourceServerConfiguration

end ResourceServer
