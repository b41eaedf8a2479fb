import SecurityOAuth2Jwt.AuthorizationServer.SecurityUser
import SecurityOAuth2Jwt.Spring.Authentication

/-!
# `CustomTokenEnhancer`

The enhancer adds the email of the user to the token and hands it to Spring's
`JwtAccessTokenConverter`, which is a parameter. Of the enhanced token the model keeps the claims
that are signed.
-/

namespace AuthorizationServer

open Java Spring

/-- The claims that Spring's default converters write. -/
def defaultClaims : List String :=
  [Claim.username, Claim.authorities, Claim.scope, Claim.jti, "ati", Claim.exp, Claim.grantType,
    Claim.clientId, Claim.aud]

/-- The `authorities` claim of these names: a collection of strings, absent when there are none. -/
def HasAuthoritiesClaim (map : ClaimsMap) (names : List String) : Prop :=
  map.find? Claim.authorities =
    if names = [] then none else some (.coll (names.map Elem.str))

/-- The additional information of the token sets none of the default claims. -/
def LeavesDefaults (token : OAuth2AccessToken) : Prop :=
  ∀ k ∈ defaultClaims, token.additionalInformation.find? k = none

instance (token : OAuth2AccessToken) : Decidable (LeavesDefaults token) :=
  inferInstanceAs (Decidable (∀ k ∈ defaultClaims, token.additionalInformation.find? k = none))

/-- `JwtAccessTokenConverter`: the claims of the token that `enhance` encodes. -/
structure JwtAccessTokenConverter where
  enhance : OAuth2AccessToken → OAuth2Authentication SecurityUser → ClaimsMap

/-- The claims of a token that leaves the default claims alone. A null entry of the additional
information is kept or omitted. -/
structure JwtAccessTokenConverter.Documented (J : JwtAccessTokenConverter) : Prop where
  username : ∀ token authentication user name, LeavesDefaults token →
    authentication.userAuthentication = some user → user.principal.username = some name →
    (J.enhance token authentication).find? Claim.username = some (.str name)
  authorities : ∀ token authentication user, LeavesDefaults token →
    authentication.userAuthentication = some user →
    ∃ names, (∀ x, x ∈ names ↔ ⟨x⟩ ∈ user.authorities.getD []) ∧
      HasAuthoritiesClaim (J.enhance token authentication) names
  scope : ∀ token authentication, LeavesDefaults token →
    (J.enhance token authentication).find? Claim.scope = token.scope.map .ofSet
  clientId : ∀ token authentication, LeavesDefaults token →
    (J.enhance token authentication).find? Claim.clientId =
      some (.ofString authentication.storedRequest.clientId)
  aud : ∀ token authentication, LeavesDefaults token →
    (J.enhance token authentication).find? Claim.aud =
      (authentication.storedRequest.resourceIds.bind LinkedHashSet.nonEmpty?).map .ofSet
  grantType : ∀ token authentication, LeavesDefaults token →
    (J.enhance token authentication).find? Claim.grantType = none ∨
      ∃ g, (J.enhance token authentication).find? Claim.grantType = some (.str g)
  information : ∀ token authentication k v, LeavesDefaults token →
    token.additionalInformation.find? k = some v →
    (J.enhance token authentication).find? k = some v ∨
      (v = .null ∧ (J.enhance token authentication).find? k = none)

/-- `(SecurityUser) authentication.getPrincipal()`. -/
def castSecurityUser : Principal SecurityUser → Result (Option SecurityUser)
  | .user user => .ok (some user)
  | .client none => .ok none
  | .client (some _) => .error (.ofClass .classCast)

/-- `user.getEmail()`. -/
def getEmail : Option SecurityUser → Result (Option String)
  | some user => .ok user.email
  | none => .error (.ofClass .nullPointer)

/-- `CustomTokenEnhancer.enhance`. -/
def enhance (J : JwtAccessTokenConverter) (accessToken : OAuth2AccessToken)
    (authentication : OAuth2Authentication SecurityUser) : Result ClaimsMap := do
  let user ← castSecurityUser authentication.getPrincipal
  let email ← getEmail user
  let info := accessToken.additionalInformation.put "email" (.ofString email)
  let customAccessToken := { accessToken with additionalInformation := info }
  return J.enhance customAccessToken authentication

end AuthorizationServer
