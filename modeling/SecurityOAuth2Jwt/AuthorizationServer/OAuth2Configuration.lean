import SecurityOAuth2Jwt.AuthorizationServer.CustomOauth2RequestFactory
import SecurityOAuth2Jwt.AuthorizationServer.CustomTokenEnhancer
import SecurityOAuth2Jwt.AuthorizationServer.WebSecurityConfiguration
import SecurityOAuth2Jwt.Spring.TokenServices

/-!
# `OAuth2Configuration`

The configuration wires the classes of the application into Spring's token endpoint: the request
factory, the user service and the login, and the enhancer that writes the claims of a token.
-/

namespace AuthorizationServer

open Java Spring

/-- `JwtAccessTokenConverter` encodes two tokens: the access token, and the refresh token that goes
with it. -/
structure JwtTokensConverter where
  access : JwtAccessTokenConverter
  refresh : RefreshToken → JwtAccessTokenConverter

/-- The two tokens differ in their ids and in their expiration only; a refresh token holds the id of
the access token. -/
structure JwtTokensConverter.Documented (J : JwtTokensConverter) : Prop where
  access : J.access.Documented
  exp : ∀ token authentication, LeavesDefaults token →
    (J.access.enhance token authentication).find? Claim.exp =
      token.expiration.map fun time => .long (time / 1000)
  no_ati : ∀ token authentication, LeavesDefaults token →
    (J.access.enhance token authentication).find? Claim.ati = none
  ati : ∀ refreshToken token authentication, LeavesDefaults token →
    ∃ id, ((J.refresh refreshToken).enhance token authentication).find? Claim.ati = some (.str id)
  refresh_exp : ∀ refreshToken token authentication, LeavesDefaults token →
    ((J.refresh refreshToken).enhance token authentication).find? Claim.exp =
      refreshToken.expiration.map fun time => .long (time / 1000)
  same : ∀ refreshToken token authentication k, LeavesDefaults token →
    k ∉ [Claim.jti, Claim.ati, Claim.exp] →
    ((J.refresh refreshToken).enhance token authentication).find? k =
      (J.access.enhance token authentication).find? k

/-- The authorization server with the objects that it uses. -/
structure OAuth2Configuration where
  spring : SpringSecurity
  checker : AccountStatusUserDetailsChecker
  provider : DaoAuthenticationProvider
  passwordEncoder : PasswordMatcher
  tokenStore : JwtTokenStore
  /-- The superclass of `CustomOauth2RequestFactory`. -/
  base : DefaultOAuth2RequestFactory
  /-- The request factory of Spring, without the check of user scopes. -/
  defaultFactory : ClientTable → SecurityContext → RequestParameters → ClientDetails →
    Result TokenRequest
  /-- `app.security.check-user-scopes`. -/
  securityCheckUserScopes : Bool
  endpoint : TokenEndpoint SecurityUser
  tokenServices : DefaultTokenServices
  jwtAccessTokenConverter : JwtTokensConverter

structure OAuth2Configuration.Documented (A : OAuth2Configuration) : Prop where
  spring : A.spring.Documented
  checker : A.checker.Documented
  provider : A.provider.Succeeds A.spring
  tokenStore : A.tokenStore.Documented
  base : KeepsParameters A.base.createTokenRequest
  defaultFactory : KeepsParameters A.defaultFactory
  endpoint : A.endpoint.Documented
  tokenServices : A.tokenServices.Documented
  jwtAccessTokenConverter : A.jwtAccessTokenConverter.Documented

/-- What is documented of the requests that succeed. -/
structure OAuth2Configuration.Completes (A : OAuth2Configuration) : Prop where
  base : CreatesRequests A.base.createTokenRequest A.base.parseParameterList
    (DefaultOAuth2RequestFactory.checkUserScopes A.base.toUpperCase)
  defaultFactory : CreatesRequests A.defaultFactory A.base.parseParameterList fun _ scopes => scopes
  endpoint : A.endpoint.Completes A.base.parseParameterList
  tokenServices : A.tokenServices.Completes

/-- The random ids of the tokens that a request is answered with. -/
structure TokenIds where
  access : String
  refresh : String
  deriving DecidableEq, Repr

/-- The claims of the tokens that a request is answered with. -/
structure IssuedTokens where
  access : ClaimsMap
  refresh : Option ClaimsMap

namespace OAuth2Configuration

variable (A : OAuth2Configuration)

/-- `requestFactory()`, over the token store that decodes with `decode`. -/
def requestFactory (decode : String → Option ClaimsMap) : CustomOauth2RequestFactory where
  spring := A.spring
  checker := A.checker
  tokenStore := A.tokenStore.store decode
  base := A.base

/-- The user service and the authentication manager, as the granters see them. -/
def services (users : UserTable) : UserServices SecurityUser where
  authenticate := login A.provider A.checker A.passwordEncoder users
  loadUserByUsername := loadUserByUsername A.checker users
  check := A.checker.check
  getAuthorities user := LinkedHashSet.toList <$> user.getAuthorities A.spring

/-- `endpoints.requestFactory(requestFactory())` if user scopes are to be checked. -/
def createTokenRequest (decode : String → Option ClaimsMap) (s : ServerState)
    (requestParameters : RequestParameters) (client : ClientDetails) :
    Result TokenRequest × SecurityContext :=
  if A.securityCheckUserScopes then
    (A.requestFactory decode).createTokenRequest s.users s.clients s.context requestParameters
      client
  else (A.defaultFactory s.clients s.context requestParameters client, s.context)

/-- The claims of the tokens for an authentication: the enhancer encodes both. -/
def enhanceTokens (token : OAuth2AccessToken) (refreshToken : Option RefreshToken)
    (authentication : OAuth2Authentication SecurityUser) : Result IssuedTokens := do
  let access ← enhance A.jwtAccessTokenConverter.access token authentication
  match refreshToken with
  | none => return { access, refresh := none }
  | some refreshToken => do
    let refresh ← enhance (A.jwtAccessTokenConverter.refresh refreshToken) token authentication
    return { access, refresh := some refresh }

/-- What the granters are given at the time `now`. -/
def grantContext (decode : String → Option ClaimsMap) (codes : AuthorizationCodes SecurityUser)
    (s : ServerState) (settings : ClientSettingsTable) (now : Int64) :
    GrantContext SecurityUser where
  services := A.services s.users
  store := A.tokenStore.store decode
  codes := codes
  clients := s.clients
  settings := settings
  now := now

/-- What the endpoint does with a token request at the time `now`. -/
def grantTokens (decode : String → Option ClaimsMap) (codes : AuthorizationCodes SecurityUser)
    (s : ServerState) (settings : ClientSettingsTable) (now : Int64) (ids : TokenIds)
    (request : TokenRequest) : Result IssuedTokens := do
  let store := A.tokenStore.store decode
  let authentication ← A.endpoint.grant (A.grantContext decode codes s settings now) request
  let stored := authentication.storedRequest
  let token ← A.tokenServices.createAccessToken settings now ids.access stored
  let refreshToken ←
    A.tokenServices.refreshToken store settings now ids.refresh request stored
  A.enhanceTokens token refreshToken authentication

/-- A request to the token endpoint: its outcome, and the context after it. -/
def postAccessToken (decode : String → Option ClaimsMap) (codes : AuthorizationCodes SecurityUser)
    (s : ServerState) (settings : ClientSettingsTable) (now : Int64) (ids : TokenIds)
    (requestParameters : RequestParameters) (client : ClientDetails) :
    Result IssuedTokens × SecurityContext :=
  let (outcome, context) := A.createTokenRequest decode s requestParameters client
  (do let request ← outcome
      A.grantTokens decode codes s settings now ids request, context)

end OAuth2Configuration

end AuthorizationServer
