import SecurityOAuth2Jwt.Common.Machine
import SecurityOAuth2Jwt.AuthorizationServer.SecurityUserServiceImpl
import SecurityOAuth2Jwt.Spring.TokenRequest

/-!
# `CustomOauth2RequestFactory` and the authorization server around it

`createTokenRequest` may replace the authentication in the security context before it calls the
factory of Spring, which reads it. The server is a machine: its state is what is stored and the
context of the thread, its events are changes from outside and token requests.
-/

namespace AuthorizationServer

open Java Spring

/-- The factory with the objects that it uses; `base` is the superclass. -/
structure CustomOauth2RequestFactory where
  spring : SpringSecurity
  checker : AccountStatusUserDetailsChecker
  tokenStore : TokenStore
  base : DefaultOAuth2RequestFactory

structure CustomOauth2RequestFactory.Documented (f : CustomOauth2RequestFactory) : Prop where
  spring : f.spring.Documented
  checker : f.checker.Documented
  base : f.base.Documented

namespace CustomOauth2RequestFactory

variable (f : CustomOauth2RequestFactory)

/-- The authentication that a refresh request puts into the context. -/
def refreshedAuthentication (users : UserTable) (requestParameters : RequestParameters) :
    Result (UserAuthentication String) := do
  let refreshToken ← f.tokenStore.readRefreshToken (requestParameters.get "refresh_token")
  let authentication ← f.tokenStore.readAuthenticationForRefreshToken refreshToken
  let user ← loadUserByUsername f.checker users authentication.getName
  let authorities ← user.getAuthorities f.spring
  return f.spring.usernamePasswordAuthenticationToken authentication.getName none
    (some authorities.toList)

/-- The outcome of the call and the context after it. -/
def createTokenRequest (users : UserTable) (clients : ClientTable) (context : SecurityContext)
    (requestParameters : RequestParameters) (authenticatedClient : ClientDetails) :
    Result TokenRequest × SecurityContext :=
  match requestParameters.get "grant_type" with
  | none => (.error (.ofClass .nullPointer), context)
  | some grantType =>
    if grantType = "refresh_token" then
      match f.refreshedAuthentication users requestParameters with
      | .error e => (.error e, context)
      | .ok user =>
        -- written before Spring's factory runs, and kept when that fails
        let context : SecurityContext := ⟨some (.user user)⟩
        (f.base.createTokenRequest clients context requestParameters authenticatedClient, context)
    else (f.base.createTokenRequest clients context requestParameters authenticatedClient, context)

end CustomOauth2RequestFactory

/-! ## The server -/

structure ServerState where
  users : UserTable
  clients : ClientTable
  context : SecurityContext

/-- Rows are written, a client is registered or changed, some request leaves its authentication in
the context, or the token endpoint creates a token request. -/
inductive ServerEvent where
  | changeUsers (users : UserTable)
  | changeClients (clients : ClientTable)
  | leaveContext (context : SecurityContext)
  | tokenRequest (requestParameters : RequestParameters) (authenticatedClient : ClientDetails)

def server (f : CustomOauth2RequestFactory) :
    Machine ServerState ServerEvent (Option (Result TokenRequest)) where
  step s
    | .changeUsers users => ({ s with users }, none)
    | .changeClients clients => ({ s with clients }, none)
    | .leaveContext context => ({ s with context }, none)
    | .tokenRequest requestParameters authenticatedClient =>
      let outcome :=
        f.createTokenRequest s.users s.clients s.context requestParameters authenticatedClient
      ({ s with context := outcome.2 }, some outcome.1)

end AuthorizationServer
