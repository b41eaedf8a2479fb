import SecurityOAuth2Jwt.ResourceServer.CustomUserAuthenticationConverter

/-!
# `CustomAccessTokenConverter`

The conversion between the claims map of a token and the pair of an access token and an
authentication.
-/

namespace ResourceServer

open Java Spring

structure CustomAccessTokenConverter where
  includeGrantType : Bool := false
  userTokenConverter : CustomUserAuthenticationConverter := {}

namespace CustomAccessTokenConverter

variable {π : Type} (S : SpringSecurity) (conv : CustomAccessTokenConverter)

/-- A scope that is neither a string nor a collection is ignored; a null one is dereferenced. -/
def extractScope (map : ClaimsMap) : Result (LinkedHashSet Elem) :=
  if map.containsKey Claim.scope then
    match map.get Claim.scope with
    | .null => .error (.ofClass .nullPointer)
    | .str scopeObj => .ok (LinkedHashSet.ofList ((split ' ' scopeObj).map Elem.str))
    | .coll scopeColl => .ok (LinkedHashSet.ofList scopeColl)
    | _ => .ok ∅
  else .ok ∅

/-- The claims of the map that stay in the additional information of the token. -/
def extractInformation (map : ClaimsMap) : ClaimsMap :=
  let info := map.remove Claim.exp
  let info := info.remove Claim.aud
  let info := info.remove Claim.clientId
  let info := info.remove Claim.scope
  info.putSome Claim.jti (map.find? Claim.jti)

/-- `exp` counts seconds, a `Date` milliseconds; the product is a 64-bit one. -/
def extractExpiration (map : ClaimsMap) : Result (Option Int64) :=
  if map.containsKey Claim.exp then do
    let exp ← (map.get Claim.exp).castLong
    return some (exp * 1000)
  else return none

def extractAccessToken (value : String) (map : ClaimsMap) : Result OAuth2AccessToken := do
  let expiration ← extractExpiration map
  let scope ← extractScope map
  return { value, expiration, scope := some scope, additionalInformation := extractInformation map }

def extractParameters (clientId : Option String) (map : ClaimsMap) :
    Result (JavaMap String (Option String)) :=
  let parameters : JavaMap String (Option String) := ∅
  let parameters := parameters.put Claim.clientId clientId
  if conv.includeGrantType && map.containsKey Claim.grantType then do
    let grantType ← (map.get Claim.grantType).castString
    return parameters.put Claim.grantType grantType
  else return parameters

def getAudience (map : ClaimsMap) : Result (List Elem) :=
  match map.get Claim.aud with
  | .coll auds => .ok auds
  | auds => do
    match ← auds.castString with
    | some aud => return [.str aud]
    | none => return [.null]

def extractResourceIds (map : ClaimsMap) : Result (LinkedHashSet Elem) :=
  if map.containsKey Claim.aud then LinkedHashSet.ofList <$> getAudience map else pure ∅

/-- The authorities of the request, read for a client-only token; the claim must then be a
collection of strings. -/
def extractClientAuthorities (user : Option (UserAuthentication CustomPrincipal))
    (map : ClaimsMap) : Result (Option (List GrantedAuthority)) :=
  if user.isNone && map.containsKey Claim.authorities then
    match map.get Claim.authorities with
    | .coll elems => do
      let roles ← toStringArray elems
      some <$> S.createAuthorityList roles
    | .null => .error (.ofClass .nullPointer)
    | _ => .error (.ofClass .classCast)
  else return none

def extractAuthentication (map : ClaimsMap) : Result (OAuth2Authentication CustomPrincipal) := do
  let scope ← extractScope map
  let user ← conv.userTokenConverter.extractAuthentication S map
  let clientId ← (map.get Claim.clientId).castString
  let parameters ← conv.extractParameters clientId map
  let resourceIds ← extractResourceIds map
  let authorities ← extractClientAuthorities S user map
  let request := S.oauth2Request parameters clientId authorities true scope resourceIds
  return { storedRequest := request, userAuthentication := user }

/-- The first claims of an encoded token: those of the user, or the authorities of a client-only
request. -/
def convertAuthentication (nameOf : π → Option String)
    (authentication : OAuth2Authentication π) : ClaimsMap :=
  let response : ClaimsMap := ∅
  match authentication.userAuthentication with
  | some user =>
    response.putAll (CustomUserAuthenticationConverter.convertUserAuthentication S nameOf user)
  | none =>
    response.putSome Claim.authorities
      ((authentication.storedRequest.authorities.bind LinkedHashSet.nonEmpty?).map
        fun (as : LinkedHashSet GrantedAuthority) =>
          .ofStringSet (S.authorityListToSet as.toList))

def convertAccessToken (nameOf : π → Option String) (token : OAuth2AccessToken)
    (authentication : OAuth2Authentication π) : ClaimsMap :=
  let clientToken := authentication.storedRequest
  let response := convertAuthentication S nameOf authentication
  let response := response.putSome Claim.scope (token.scope.map .ofSet)
  let response := response.putSome Claim.jti (token.additionalInformation.find? Claim.jti)
  let response := response.putSome Claim.exp (token.expiration.map fun time => .long (time / 1000))
  let response := response.putSome Claim.grantType
    (if conv.includeGrantType then (S.getGrantType clientToken.requestParameters).map .str
      else none)
  -- overwrites what was written so far
  let response := response.putAll token.additionalInformation
  let response := response.put Claim.clientId (.ofString clientToken.clientId)
  response.putSome Claim.aud ((clientToken.resourceIds.bind LinkedHashSet.nonEmpty?).map .ofSet)

end CustomAccessTokenConverter

end ResourceServer
