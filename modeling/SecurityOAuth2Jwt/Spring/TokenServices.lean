import SecurityOAuth2Jwt.Common.Outcome
import SecurityOAuth2Jwt.Spring.TokenRequest
import SecurityOAuth2Jwt.Spring.BearerAuthentication

/-!
# Spring's token endpoint, token services and token store

These are parameters. What is documented of them is whom they name in a token: a granter asks the
application who the user is, and the token services stamp the expiration. The authorization endpoint
is left out; of it there are only the codes that it handed out.
-/

namespace Spring

open Java

variable {π : Type}

/-- What the granters call in the application. -/
structure UserServices (π : Type) where
  /-- `AuthenticationManager.authenticate` for a name and a password. -/
  authenticate : String → String → Result (UserAuthentication π)
  loadUserByUsername : String → Result π
  /-- The status check of Spring, on what `UserDetails` tells it. -/
  check : π → Result Unit
  getAuthorities : π → Result (List GrantedAuthority)

/-- The columns of a client that the granters and the token services read. -/
structure ClientSettings where
  resourceIds : LinkedHashSet Elem
  authorizedGrantTypes : LinkedHashSet String
  accessTokenValidity : Option Int32

abbrev ClientSettingsTable := JavaMap String ClientSettings

/-- A client without grant types may use all of them. -/
def ClientSettings.Authorizes (client : ClientSettings) (grantType : String) : Prop :=
  client.authorizedGrantTypes = ∅ ∨ grantType ∈ client.authorizedGrantTypes

instance (client : ClientSettings) (grantType : String) : Decidable (client.Authorizes grantType) :=
  inferInstanceAs (Decidable (_ ∨ _))

/-- The validity of access tokens in seconds; the default is half a day. -/
def ClientSettings.validitySeconds (client : ClientSettings) : Int32 :=
  client.accessTokenValidity.getD 43200

/-- The expiration of an access token; there is none unless the validity is positive. -/
def ClientSettings.expiration (client : ClientSettings) (now : Int64) : Option Int64 :=
  if 0 < client.validitySeconds then some (now + client.validitySeconds.toInt64 * 1000) else none

/-! ## The granters -/

/-- The user name of a password request, as Spring's authentication provider reads it. -/
def RequestParameters.username (ps : RequestParameters) : String :=
  (ps.get "username").getD "NONE_PROVIDED"

/-- The authorization codes that can be redeemed, with the authentication behind each of them. -/
abbrev AuthorizationCodes (π : Type) := JavaMap String (OAuth2Authentication π)

/-- What the granters are given: the application, the token store, the authorization codes, the
clients and the time. -/
structure GrantContext (π : Type) where
  services : UserServices π
  store : TokenStore
  codes : AuthorizationCodes π
  clients : ClientTable
  settings : ClientSettingsTable
  now : Int64

/-- The token endpoint behind the request factory: the validator and the granters. -/
structure TokenEndpoint (π : Type) where
  grant : GrantContext π → TokenRequest → Result (OAuth2Authentication π)

/-- The user of a password grant: the one that the authentication manager accepts. -/
def PasswordGrant (ctx : GrantContext π) (request : TokenRequest) (client : ClientSettings)
    (a : OAuth2Authentication π) : Prop :=
  ∃ password user, request.requestParameters.get "password" = some password ∧
    ctx.services.authenticate request.requestParameters.username password = .ok user ∧
    a.userAuthentication = some user ∧ a.storedRequest.resourceIds = some client.resourceIds

/-- The user of a refresh grant: the user service loads the name in the refresh token again. -/
def RefreshGrant (ctx : GrantContext π) (request : TokenRequest) (a : OAuth2Authentication π) :
    Prop :=
  ∃ refreshToken stored,
    ctx.store.readRefreshToken (request.requestParameters.get "refresh_token") = .ok refreshToken ∧
    ctx.store.readAuthenticationForRefreshToken refreshToken = .ok stored ∧
    (stored.isClientOnly = true → a.userAuthentication = none) ∧
    (stored.isClientOnly = false → ∃ user credentials authorities,
      ctx.services.loadUserByUsername stored.getName = .ok user ∧
      ctx.services.getAuthorities user = .ok authorities ∧
      a.userAuthentication = some ⟨user, credentials, some authorities⟩)

/-- The user of a code grant, if any: the one behind the code, which is a code of the client. -/
def CodeGrant (ctx : GrantContext π) (request : TokenRequest) (a : OAuth2Authentication π) : Prop :=
  ∃ code stored, request.requestParameters.get "code" = some code ∧
    ctx.codes.find? code = some stored ∧
    stored.storedRequest.clientId = some request.clientId ∧
    a.userAuthentication = stored.userAuthentication

structure TokenEndpoint.Documented (E : TokenEndpoint π) : Prop where
  client : ∀ ctx request a, E.grant ctx request = .ok a →
    a.storedRequest.clientId = some request.clientId ∧
    ∃ client grantType, ctx.settings.find? request.clientId = some client ∧
      request.grantType = some grantType ∧ client.Authorizes grantType ∧
      (grantType = "password" ∧ PasswordGrant ctx request client a ∨
        grantType = "refresh_token" ∧ RefreshGrant ctx request a ∨
        grantType = "client_credentials" ∧ a.userAuthentication = none ∨
        grantType = "authorization_code" ∧ CodeGrant ctx request a)
  /-- The scopes of the request are as its constructor stored them. -/
  scope : ∀ ctx request a, E.grant ctx request = .ok a →
    isStoredAsGiven a.storedRequest.scope = true

/-- The grant type decides between the alternatives. -/
theorem kind_of_grantType {grantType : String} {P Q R T : Prop}
    (h : grantType = "password" ∧ P ∨ grantType = "refresh_token" ∧ Q ∨
      grantType = "client_credentials" ∧ R ∨ grantType = "authorization_code" ∧ T) :
    (grantType = "password" → P) ∧ (grantType = "refresh_token" → Q) ∧
      (grantType = "client_credentials" → R) := by
  rcases h with ⟨rfl, hP⟩ | ⟨rfl, hQ⟩ | ⟨rfl, hR⟩ | ⟨rfl, -⟩
  · exact ⟨fun _ => hP, fun h => absurd h (by decide), fun h => absurd h (by decide)⟩
  · exact ⟨fun h => absurd h (by decide), fun _ => hQ, fun h => absurd h (by decide)⟩
  · exact ⟨fun h => absurd h (by decide), fun h => absurd h (by decide), fun _ => hR⟩
  · exact ⟨fun h => absurd h (by decide), fun h => absurd h (by decide),
      fun h => absurd h (by decide)⟩

section Grants

variable {E : TokenEndpoint π} (hE : E.Documented) {ctx : GrantContext π} {request : TokenRequest}
  {a : OAuth2Authentication π} (h : E.grant ctx request = .ok a)

include hE h

theorem TokenEndpoint.Documented.passwordGrant (htype : request.grantType = some "password") :
    ∃ client, ctx.settings.find? request.clientId = some client ∧
      PasswordGrant ctx request client a := by
  obtain ⟨-, client, grantType, hclient, hgrantType, -, hkind⟩ := hE.client _ _ _ h
  rw [htype] at hgrantType
  cases hgrantType
  exact ⟨client, hclient, (kind_of_grantType hkind).1 rfl⟩

theorem TokenEndpoint.Documented.refreshGrant (htype : request.grantType = some "refresh_token") :
    RefreshGrant ctx request a := by
  obtain ⟨-, client, grantType, -, hgrantType, -, hkind⟩ := hE.client _ _ _ h
  rw [htype] at hgrantType
  cases hgrantType
  exact (kind_of_grantType hkind).2.1 rfl

/-- A client alone has no user. -/
theorem TokenEndpoint.Documented.clientGrant
    (htype : request.grantType = some "client_credentials") : a.userAuthentication = none := by
  obtain ⟨-, client, grantType, -, hgrantType, -, hkind⟩ := hE.client _ _ _ h
  rw [htype] at hgrantType
  cases hgrantType
  exact (kind_of_grantType hkind).2.2 rfl

end Grants

/-- The client of the request may use the grant type, with these scopes. -/
structure ClientMay (ctx : GrantContext π) (request : TokenRequest) (grantType : String) :
    Prop where
  requested : request.grantType = some grantType
  scopes : ∃ details, ctx.clients.find? request.clientId = some details ∧
    ValidScopes details request.scope
  authorized : ∃ client, ctx.settings.find? request.clientId = some client ∧
    client.Authorizes grantType

/-- What a refresh grant checks of the refresh token and of its authentication. The scopes are those
of the parameter, whatever the token request has. -/
structure RefreshAllowed (parseParameterList : Option String → LinkedHashSet String)
    (ctx : GrantContext π) (request : TokenRequest) (refreshToken : RefreshToken)
    (stored : OAuth2Authentication String) : Prop where
  client : stored.storedRequest.clientId = some request.clientId
  unexpired : ∀ time, refreshToken.expiration = some time → ctx.now ≤ time
  scopes : ∀ scope ∈ (parseParameterList (request.requestParameters.get "scope")).toList,
    Elem.str scope ∈ stored.storedRequest.scope

/-- When a grant succeeds, and with which scopes. -/
structure TokenEndpoint.Completes (E : TokenEndpoint π)
    (parseParameterList : Option String → LinkedHashSet String) : Prop where
  only : ∀ ctx request a grantType, E.grant ctx request = .ok a →
    request.grantType = some grantType → ClientMay ctx request grantType
  allowed : ∀ ctx request a refreshToken stored, E.grant ctx request = .ok a →
    request.grantType = some "refresh_token" →
    ctx.store.readRefreshToken (request.requestParameters.get "refresh_token") = .ok refreshToken →
    ctx.store.readAuthenticationForRefreshToken refreshToken = .ok stored →
    RefreshAllowed parseParameterList ctx request refreshToken stored
  password : ∀ ctx request password user, ClientMay ctx request "password" →
    request.requestParameters.get "password" = some password →
    ctx.services.authenticate request.requestParameters.username password = .ok user →
    ∃ a, E.grant ctx request = .ok a
  refresh : ∀ ctx request refreshToken stored user authorities,
    ClientMay ctx request "refresh_token" →
    ctx.store.readRefreshToken (request.requestParameters.get "refresh_token") = .ok refreshToken →
    ctx.store.readAuthenticationForRefreshToken refreshToken = .ok stored →
    RefreshAllowed parseParameterList ctx request refreshToken stored →
    stored.isClientOnly = false → ctx.services.loadUserByUsername stored.getName = .ok user →
    ctx.services.check user = .ok () → ctx.services.getAuthorities user = .ok authorities →
    ∃ a, E.grant ctx request = .ok a
  passwordScopes : ∀ ctx request a, E.grant ctx request = .ok a →
    request.grantType = some "password" →
    ∀ x ∈ a.storedRequest.scope, ∃ scope ∈ request.scope, x = .str scope
  /-- A refresh does not add scopes to those of the refresh token. -/
  refreshScopes : ∀ ctx request a refreshToken stored, E.grant ctx request = .ok a →
    request.grantType = some "refresh_token" →
    ctx.store.readRefreshToken (request.requestParameters.get "refresh_token") = .ok refreshToken →
    ctx.store.readAuthenticationForRefreshToken refreshToken = .ok stored →
    ∀ x ∈ a.storedRequest.scope, x ∈ stored.storedRequest.scope

/-! ## The token services -/

/-- `DefaultTokenServices`; the ids of new tokens are random. -/
structure DefaultTokenServices where
  createAccessToken : ClientSettingsTable → (now : Int64) → (id : String) → OAuth2Request →
    Result OAuth2AccessToken
  /-- A new refresh token, the one of the request, or none. -/
  refreshToken : TokenStore → ClientSettingsTable → (now : Int64) → (id : String) → TokenRequest →
    OAuth2Request → Result (Option RefreshToken)

structure DefaultTokenServices.Documented (D : DefaultTokenServices) : Prop where
  access : ∀ settings now id request token,
    D.createAccessToken settings now id request = .ok token →
    ∃ clientId client, request.clientId = some clientId ∧ settings.find? clientId = some client ∧
      token = ⟨id, client.expiration now, some request.scope, ∅⟩

/-- The services serve every known client. -/
structure DefaultTokenServices.Completes (D : DefaultTokenServices) : Prop where
  access : ∀ settings now id request clientId client, request.clientId = some clientId →
    settings.find? clientId = some client →
    ∃ token, D.createAccessToken settings now id request = .ok token
  refreshToken : ∀ store settings now id tokenRequest request clientId client,
    request.clientId = some clientId → settings.find? clientId = some client →
    (tokenRequest.grantType = some "refresh_token" → ∃ token,
      store.readRefreshToken (tokenRequest.requestParameters.get "refresh_token") = .ok token) →
    ∃ token, D.refreshToken store settings now id tokenRequest request = .ok token

/-! ## The token store -/

/-- `JwtTokenStore`: it reads the claims of a token whose signature is right. -/
structure JwtTokenStore where
  store : (decode : String → Option ClaimsMap) → TokenStore

structure JwtTokenStore.Documented (W : JwtTokenStore) : Prop where
  refreshToken : ∀ decode value token, (W.store decode).readRefreshToken value = .ok token →
    ∃ map, value = some token.value ∧ decode token.value = some map ∧
      map.containsKey Claim.ati = true
  authentication : ∀ decode token a,
    (W.store decode).readAuthenticationForRefreshToken token = .ok a →
    ∃ map, decode token.value = some map ∧
      ∀ name, map.find? Claim.username = some (.str name) →
        a.isClientOnly = false ∧ a.getName = name

/-- The expiration in the claims, in milliseconds. -/
def expirationIn (map : ClaimsMap) : Option Int64 :=
  match map.find? Claim.exp with
  | some (.long e) => some (e * 1000)
  | _ => none

/-- The claims of a user as the token converter writes them. -/
structure UserClaims (map : ClaimsMap) (clientId : String) (scope : LinkedHashSet Elem) : Prop where
  username : ∃ name, map.find? Claim.username = some (.str name)
  clientId : map.find? Claim.clientId = some (.str clientId)
  stored : isStoredAsGiven scope = true
  scope : map.find? Claim.scope = some (.ofSet scope)
  exp : map.find? Claim.exp = none ∨ ∃ e, map.find? Claim.exp = some (.long e)
  authorities : map.find? Claim.authorities = none ∨
    ∃ elems, map.find? Claim.authorities = some (.coll elems)
  aud : map.find? Claim.aud = none ∨ ∃ elems, map.find? Claim.aud = some (.coll elems)

theorem UserClaims.congr {m m' : ClaimsMap} {clientId : String} {scope : LinkedHashSet Elem}
    (h : UserClaims m clientId scope)
    (hexp : m'.find? Claim.exp = none ∨ ∃ e, m'.find? Claim.exp = some (.long e))
    (hsame : ∀ k, k ∉ [Claim.jti, Claim.ati, Claim.exp] → m'.find? k = m.find? k) :
    UserClaims m' clientId scope := by
  obtain ⟨husername, hclientId, hstored, hscope, -, hauthorities, haud⟩ := h
  refine ⟨?_, ?_, hstored, ?_, hexp, ?_, ?_⟩
  · rw [hsame _ (by decide)]
    exact husername
  · rw [hsame _ (by decide)]
    exact hclientId
  · rw [hsame _ (by decide)]
    exact hscope
  · rw [hsame _ (by decide)]
    exact hauthorities
  · rw [hsame _ (by decide)]
    exact haud

/-- The pieces of the authorities in the claims: the names are joined with commas and cut again. -/
def authorityPieces (map : ClaimsMap) : List String :=
  match map.find? Claim.authorities with
  | some (.coll elems) => tokenizeToStringArray (",".intercalate (elems.map Elem.text))
  | _ => []

/-- The authorities in the claims can be read: every piece of them has text. -/
def AuthoritiesReadable (map : ClaimsMap) : Prop := ∀ t ∈ authorityPieces map, HasText t

instance (map : ClaimsMap) : Decidable (AuthoritiesReadable map) :=
  inferInstanceAs (Decidable (∀ t ∈ authorityPieces map, HasText t))

/-- How the store reads what the token converter writes for a user. The authentication is read
exactly when its authorities are. -/
structure JwtTokenStore.Reads (W : JwtTokenStore) : Prop where
  refreshToken : ∀ decode value map clientId scope, decode value = some map →
    UserClaims map clientId scope → map.containsKey Claim.ati = true →
    (W.store decode).readRefreshToken (some value) = .ok ⟨value, expirationIn map⟩
  readable : ∀ decode token map clientId scope, decode token.value = some map →
    UserClaims map clientId scope →
    ((∃ a, (W.store decode).readAuthenticationForRefreshToken token = .ok a) ↔
      AuthoritiesReadable map)
  authentication : ∀ decode token map clientId scope a, decode token.value = some map →
    UserClaims map clientId scope →
    (W.store decode).readAuthenticationForRefreshToken token = .ok a →
    a.storedRequest.clientId = some clientId ∧ a.storedRequest.scope.Same scope

/-! ## Reference implementations -/

instance (parseParameterList : Option String → LinkedHashSet String) (ctx : GrantContext π)
    (request : TokenRequest) (refreshToken : RefreshToken) (stored : OAuth2Authentication String) :
    Decidable (RefreshAllowed parseParameterList ctx request refreshToken stored) :=
  decidable_of_iff
    (stored.storedRequest.clientId = some request.clientId ∧
      refreshToken.expiration.all (fun time => decide (ctx.now ≤ time)) = true ∧
      ∀ scope ∈ (parseParameterList (request.requestParameters.get "scope")).toList,
        Elem.str scope ∈ stored.storedRequest.scope)
    (by
      have hunexpired : refreshToken.expiration.all (fun time => decide (ctx.now ≤ time)) = true ↔
          ∀ time, refreshToken.expiration = some time → ctx.now ≤ time := by
        simp [Option.all_eq_true]
      rw [hunexpired]
      exact ⟨fun h => ⟨h.1, h.2.1, h.2.2⟩, fun h => ⟨h.client, h.unexpired, h.scopes⟩⟩)

namespace TokenEndpoint

/-- No request has other scopes than those that it stores as they are. -/
def storedScope (scope : LinkedHashSet Elem) : LinkedHashSet Elem :=
  if isStoredAsGiven scope then scope else ∅

/-- The authentication of a grant. -/
def granted (request : TokenRequest) (client : ClientSettings) (scope : LinkedHashSet Elem)
    (user : Option (UserAuthentication π)) : OAuth2Authentication π where
  storedRequest :=
    { requestParameters := request.requestParameters
      clientId := some request.clientId
      authorities := some ∅
      approved := true
      scope := storedScope scope
      resourceIds := some client.resourceIds }
  userAuthentication := user

/-- Scopes as elements of a collection. -/
def elems (scopes : LinkedHashSet String) : LinkedHashSet Elem :=
  .ofList (scopes.toList.map Elem.str)

/-- The requested scopes, or all those of the refresh token. -/
def refreshedScopes (parseParameterList : Option String → LinkedHashSet String)
    (request : TokenRequest) (stored : OAuth2Authentication String) : LinkedHashSet Elem :=
  let scopes := parseParameterList (request.requestParameters.get "scope")
  if scopes.isEmpty then stored.storedRequest.scope else elems scopes

/-- The user of a password request. -/
def passwordUser (ctx : GrantContext π) (request : TokenRequest) : Result (UserAuthentication π) :=
  match request.requestParameters.get "password" with
  | none => .error ⟨.badCredentials, some "Bad credentials"⟩
  | some password => ctx.services.authenticate request.requestParameters.username password

/-- The scopes and the user of a refresh request; no user for the refresh token of a client. -/
def refreshed (parseParameterList : Option String → LinkedHashSet String) (ctx : GrantContext π)
    (request : TokenRequest) : Result (LinkedHashSet Elem × Option (UserAuthentication π)) := do
  let refreshToken ← ctx.store.readRefreshToken (request.requestParameters.get "refresh_token")
  let stored ← ctx.store.readAuthenticationForRefreshToken refreshToken
  if RefreshAllowed parseParameterList ctx request refreshToken stored then
    let scope := refreshedScopes parseParameterList request stored
    if stored.isClientOnly then return (scope, none)
    else do
      let user ← ctx.services.loadUserByUsername stored.getName
      ctx.services.check user
      let authorities ← ctx.services.getAuthorities user
      return (scope, some ⟨user, some "", some authorities⟩)
  else .error ⟨.invalidToken, none⟩

/-- The authentication behind a code of the client. -/
def redeemed (ctx : GrantContext π) (request : TokenRequest) : Result (OAuth2Authentication π) :=
  match (request.requestParameters.get "code").bind ctx.codes.find? with
  | none => .error ⟨.invalidToken, some "Invalid authorization code"⟩
  | some stored =>
    if stored.storedRequest.clientId = some request.clientId then .ok stored
    else .error ⟨.invalidClient, some "Client ID mismatch"⟩

/-- The granters, as documented. -/
def reference (parseParameterList : Option String → LinkedHashSet String) (π : Type) :
    TokenEndpoint π where
  grant ctx request :=
    match ctx.clients.find? request.clientId, ctx.settings.find? request.clientId,
      request.grantType with
    | some details, some client, some grantType =>
      if ValidScopes details request.scope ∧ client.Authorizes grantType then
        if grantType = "password" then do
          let user ← passwordUser ctx request
          return granted request client (elems request.scope) (some user)
        else if grantType = "refresh_token" then do
          let (scope, user) ← refreshed parseParameterList ctx request
          return granted request client scope user
        else if grantType = "client_credentials" then
          .ok (granted request client (elems request.scope) none)
        else if grantType = "authorization_code" then do
          let stored ← redeemed ctx request
          return granted request client stored.storedRequest.scope stored.userAuthentication
        else .error ⟨.invalidClient, some "Unsupported grant type"⟩
      else .error ⟨.invalidClient, some "Unauthorized grant type or scope"⟩
    | _, _, _ => .error ⟨.clientRegistration, none⟩

section Reference

variable {parseParameterList : Option String → LinkedHashSet String} {ctx : GrantContext π}
  {request : TokenRequest} {a : OAuth2Authentication π}

theorem passwordUser_ok_iff {user : UserAuthentication π} :
    passwordUser ctx request = .ok user ↔
      ∃ password, request.requestParameters.get "password" = some password ∧
        ctx.services.authenticate request.requestParameters.username password = .ok user := by
  unfold passwordUser
  cases request.requestParameters.get "password" with
  | none => simp
  | some password => simp

theorem isStoredAsGiven_storedScope (scope : LinkedHashSet Elem) :
    isStoredAsGiven (storedScope scope) = true := by
  unfold storedScope
  split_ifs with h
  · exact h
  · rfl

theorem mem_of_mem_storedScope {scope : LinkedHashSet Elem} {x : Elem} (h : x ∈ storedScope scope) :
    x ∈ scope := by
  unfold storedScope at h
  split_ifs at h
  · exact h
  · exact absurd h (LinkedHashSet.not_mem_empty x)

theorem redeemed_ok_iff {stored : OAuth2Authentication π} :
    redeemed ctx request = .ok stored ↔
      ∃ code, request.requestParameters.get "code" = some code ∧
        ctx.codes.find? code = some stored ∧
        stored.storedRequest.clientId = some request.clientId := by
  unfold redeemed
  cases hcode : request.requestParameters.get "code" with
  | none => simp
  | some code =>
    cases hfind : ctx.codes.find? code with
    | none => simp [hfind]
    | some found =>
      by_cases hclient : found.storedRequest.clientId = some request.clientId
      · simp only [Option.bind_some, hfind, if_pos hclient]
        constructor
        · intro h
          cases h
          exact ⟨code, rfl, hfind, hclient⟩
        · rintro ⟨code', hcode', hfind', -⟩
          cases hcode'
          rw [hfind] at hfind'
          exact congrArg Except.ok (Option.some.inj hfind')
      · simp only [Option.bind_some, hfind, if_neg hclient]
        constructor
        · intro h
          cases h
        · rintro ⟨code', hcode', hfind', hclient'⟩
          cases hcode'
          rw [hfind] at hfind'
          cases hfind'
          exact absurd hclient' hclient

theorem mem_elems {scopes : LinkedHashSet String} {x : Elem} :
    x ∈ elems scopes ↔ ∃ scope ∈ scopes, x = .str scope := by
  unfold elems
  rw [LinkedHashSet.mem_ofList, List.mem_map]
  exact exists_congr fun scope => and_congr_right fun _ => eq_comm

theorem mem_stored_of_mem_refreshedScopes {refreshToken : RefreshToken}
    {stored : OAuth2Authentication String}
    (h : RefreshAllowed parseParameterList ctx request refreshToken stored) {x : Elem}
    (hx : x ∈ refreshedScopes parseParameterList request stored) :
    x ∈ stored.storedRequest.scope := by
  simp only [refreshedScopes] at hx
  split_ifs at hx
  · exact hx
  · obtain ⟨scope, hscope, rfl⟩ := mem_elems.mp hx
    exact h.scopes scope hscope

theorem refreshed_ok_iff {scope : LinkedHashSet Elem} {user : Option (UserAuthentication π)} :
    refreshed parseParameterList ctx request = .ok (scope, user) ↔
      ∃ refreshToken stored,
        ctx.store.readRefreshToken (request.requestParameters.get "refresh_token") =
          .ok refreshToken ∧
        ctx.store.readAuthenticationForRefreshToken refreshToken = .ok stored ∧
        RefreshAllowed parseParameterList ctx request refreshToken stored ∧
        scope = refreshedScopes parseParameterList request stored ∧
        (stored.isClientOnly = true ∧ user = none ∨
          stored.isClientOnly = false ∧ ∃ u authorities,
            ctx.services.loadUserByUsername stored.getName = .ok u ∧
            ctx.services.check u = .ok () ∧ ctx.services.getAuthorities u = .ok authorities ∧
            user = some ⟨u, some "", some authorities⟩) := by
  unfold refreshed
  constructor
  · intro h
    obtain ⟨refreshToken, hread, h⟩ := Outcome.bind_eq_ok.mp h
    obtain ⟨stored, hstored, h⟩ := Outcome.bind_eq_ok.mp h
    split_ifs at h with hallowed hclient
    · cases h
      exact ⟨refreshToken, stored, hread, hstored, hallowed, rfl, Or.inl ⟨hclient, rfl⟩⟩
    · obtain ⟨u, hload, h⟩ := Outcome.bind_eq_ok.mp h
      obtain ⟨⟨⟩, hcheck, h⟩ := Outcome.bind_eq_ok.mp h
      obtain ⟨authorities, hauthorities, h⟩ := Outcome.bind_eq_ok.mp h
      cases h
      exact ⟨refreshToken, stored, hread, hstored, hallowed, rfl, Or.inr
        ⟨Bool.eq_false_iff.mpr hclient, u, authorities, hload, hcheck, hauthorities, rfl⟩⟩
  · rintro ⟨refreshToken, stored, hread, hstored, hallowed, rfl, ⟨hclient, rfl⟩ |
      ⟨hclient, u, authorities, hload, hcheck, hauthorities, rfl⟩⟩
    · simp [hread, hstored, hallowed, hclient]
    · simp [hread, hstored, hallowed, hclient, hload, hcheck, hauthorities]

theorem reference_ok_iff :
    (reference parseParameterList π).grant ctx request = .ok a ↔
      ∃ client grantType, ctx.settings.find? request.clientId = some client ∧
        ClientMay ctx request grantType ∧ client.Authorizes grantType ∧
        (grantType = "password" ∧ (∃ user, passwordUser ctx request = .ok user ∧
            a = granted request client (elems request.scope) (some user)) ∨
          grantType = "refresh_token" ∧ (∃ scope user,
            refreshed parseParameterList ctx request = .ok (scope, user) ∧
            a = granted request client scope user) ∨
          grantType = "client_credentials" ∧
            a = granted request client (elems request.scope) none ∨
          grantType = "authorization_code" ∧ (∃ stored, redeemed ctx request = .ok stored ∧
            a = granted request client stored.storedRequest.scope stored.userAuthentication)) := by
  constructor
  · intro h
    simp only [reference] at h
    split at h
    · next details client grantType hdetails hclient htype =>
      split_ifs at h with hmay hpassword hrefresh hcredentials hcode
      · obtain ⟨user, huser, h⟩ := Outcome.bind_eq_ok.mp h
        cases h
        exact ⟨client, grantType, hclient, ⟨htype, ⟨details, hdetails, hmay.1⟩, client, hclient,
          hmay.2⟩, hmay.2, Or.inl ⟨hpassword, user, huser, rfl⟩⟩
      · obtain ⟨⟨scope, user⟩, huser, h⟩ := Outcome.bind_eq_ok.mp h
        cases h
        exact ⟨client, grantType, hclient, ⟨htype, ⟨details, hdetails, hmay.1⟩, client, hclient,
          hmay.2⟩, hmay.2, Or.inr (Or.inl ⟨hrefresh, scope, user, huser, rfl⟩)⟩
      · cases h
        exact ⟨client, grantType, hclient, ⟨htype, ⟨details, hdetails, hmay.1⟩, client, hclient,
          hmay.2⟩, hmay.2, Or.inr (Or.inr (Or.inl ⟨hcredentials, rfl⟩))⟩
      · obtain ⟨stored, hstored, h⟩ := Outcome.bind_eq_ok.mp h
        cases h
        exact ⟨client, grantType, hclient, ⟨htype, ⟨details, hdetails, hmay.1⟩, client, hclient,
          hmay.2⟩, hmay.2, Or.inr (Or.inr (Or.inr ⟨hcode, stored, hstored, rfl⟩))⟩
    · cases h
  · rintro ⟨client, grantType, hclient, ⟨htype, ⟨details, hdetails, hvalid⟩, -⟩, hauthorizes, hkind⟩
    simp only [reference, hdetails, hclient, htype, if_pos (And.intro hvalid hauthorizes)]
    rcases hkind with ⟨rfl, user, huser, rfl⟩ | ⟨rfl, scope, user, huser, rfl⟩ | ⟨rfl, rfl⟩ |
      ⟨rfl, stored, hstored, rfl⟩
    · rw [if_pos rfl, huser]
      rfl
    · rw [if_neg (by decide), if_pos rfl, huser]
      rfl
    · rw [if_neg (by decide), if_neg (by decide), if_pos rfl]
    · rw [if_neg (by decide), if_neg (by decide), if_neg (by decide), if_pos rfl, hstored]
      rfl

/-- A reference refresh has read and allowed the refresh token. -/
theorem refreshed_of_reference (h : (reference parseParameterList π).grant ctx request = .ok a)
    (htype : request.grantType = some "refresh_token") :
    ∃ client scope user, refreshed parseParameterList ctx request = .ok (scope, user) ∧
      a = granted request client scope user := by
  obtain ⟨client, grantType, -, hmay, -, hkind⟩ := reference_ok_iff.mp h
  have hrefresh := hmay.requested
  rw [htype] at hrefresh
  cases hrefresh
  obtain ⟨scope, user, huser, rfl⟩ := (kind_of_grantType hkind).2.1 rfl
  exact ⟨client, scope, user, huser, rfl⟩

theorem reference_documented : (reference parseParameterList π).Documented where
  client ctx request a h := by
    obtain ⟨client, grantType, hclient, hmay, hauthorizes, hkind⟩ := reference_ok_iff.mp h
    rcases hkind with ⟨rfl, user, huser, rfl⟩ | ⟨rfl, scope, user, huser, rfl⟩ | ⟨rfl, rfl⟩ |
      ⟨rfl, stored, hstored, rfl⟩
    · obtain ⟨password, hpassword, huser⟩ := passwordUser_ok_iff.mp huser
      exact ⟨rfl, client, _, hclient, hmay.requested, hauthorizes,
        Or.inl ⟨rfl, password, user, hpassword, huser, rfl, rfl⟩⟩
    · obtain ⟨refreshToken, stored, hread, hstored, -, -, hkind⟩ := refreshed_ok_iff.mp huser
      refine ⟨rfl, client, _, hclient, hmay.requested, hauthorizes,
        Or.inr (Or.inl ⟨rfl, refreshToken, stored, hread, hstored, fun hyes => ?_, fun hno => ?_⟩)⟩
      · rcases hkind with ⟨-, rfl⟩ | ⟨hno, -⟩
        · rfl
        · rw [hyes] at hno
          cases hno
      · rcases hkind with ⟨hyes, -⟩ | ⟨-, u, authorities, hload, -, hauthorities, rfl⟩
        · rw [hyes] at hno
          cases hno
        · exact ⟨u, some "", authorities, hload, hauthorities, rfl⟩
    · exact ⟨rfl, client, _, hclient, hmay.requested, hauthorizes,
        Or.inr (Or.inr (Or.inl ⟨rfl, rfl⟩))⟩
    · obtain ⟨code, hcode, hfind, hid⟩ := redeemed_ok_iff.mp hstored
      exact ⟨rfl, client, _, hclient, hmay.requested, hauthorizes,
        Or.inr (Or.inr (Or.inr ⟨rfl, code, stored, hcode, hfind, hid, rfl⟩))⟩
  scope ctx request a h := by
    obtain ⟨client, grantType, -, -, -, hkind⟩ := reference_ok_iff.mp h
    rcases hkind with ⟨-, user, -, rfl⟩ | ⟨-, scope, user, -, rfl⟩ | ⟨-, rfl⟩ | ⟨-, stored, -, rfl⟩
    · exact isStoredAsGiven_storedScope _
    · exact isStoredAsGiven_storedScope _
    · exact isStoredAsGiven_storedScope _
    · exact isStoredAsGiven_storedScope _

theorem reference_completes : (reference parseParameterList π).Completes parseParameterList where
  only ctx request a grantType h htype := by
    obtain ⟨client, grantType', -, hmay, -⟩ := reference_ok_iff.mp h
    have hsame := hmay.requested
    rw [htype] at hsame
    cases hsame
    exact hmay
  allowed ctx request a refreshToken stored h htype hread hstored := by
    obtain ⟨client, scope, user, huser, -⟩ := refreshed_of_reference h htype
    obtain ⟨refreshToken', stored', hread', hstored', hallowed, -⟩ := refreshed_ok_iff.mp huser
    rw [← Except.ok.inj (hread.symm.trans hread')] at hstored' hallowed
    rw [← Except.ok.inj (hstored.symm.trans hstored')] at hallowed
    exact hallowed
  password ctx request password user hmay hpassword huser := by
    obtain ⟨client, hclient, hauthorizes⟩ := hmay.authorized
    exact ⟨_, reference_ok_iff.mpr ⟨client, _, hclient, hmay, hauthorizes, Or.inl
      ⟨rfl, user, passwordUser_ok_iff.mpr ⟨password, hpassword, huser⟩, rfl⟩⟩⟩
  refresh ctx request refreshToken stored user authorities hmay hread hstored hallowed hclientOnly
      hload hcheck hauthorities := by
    obtain ⟨client, hclient, hauthorizes⟩ := hmay.authorized
    exact ⟨_, reference_ok_iff.mpr ⟨client, _, hclient, hmay, hauthorizes, Or.inr (Or.inl
      ⟨rfl, _, _, refreshed_ok_iff.mpr ⟨refreshToken, stored, hread, hstored, hallowed, rfl, Or.inr
        ⟨hclientOnly, user, authorities, hload, hcheck, hauthorities, rfl⟩⟩, rfl⟩)⟩⟩
  passwordScopes ctx request a h htype x hx := by
    obtain ⟨client, grantType, -, hmay, -, hkind⟩ := reference_ok_iff.mp h
    have hpassword := hmay.requested
    rw [htype] at hpassword
    cases hpassword
    obtain ⟨user, -, rfl⟩ := (kind_of_grantType hkind).1 rfl
    exact mem_elems.mp (mem_of_mem_storedScope hx)
  refreshScopes ctx request a refreshToken stored h htype hread hstored x hx := by
    obtain ⟨client, scope, user, huser, rfl⟩ := refreshed_of_reference h htype
    obtain ⟨refreshToken', stored', hread', hstored', hallowed, rfl, -⟩ :=
      refreshed_ok_iff.mp huser
    rw [← Except.ok.inj (hread.symm.trans hread')] at hstored' hallowed
    rw [← Except.ok.inj (hstored.symm.trans hstored')] at hallowed hx
    exact mem_stored_of_mem_refreshedScopes hallowed (mem_of_mem_storedScope hx)

end Reference

end TokenEndpoint

/-- Token services that make a new refresh token, which does not expire, with each access token. -/
def DefaultTokenServices.reference : DefaultTokenServices where
  createAccessToken settings now id request :=
    match request.clientId.bind settings.find? with
    | some client => .ok ⟨id, client.expiration now, some request.scope, ∅⟩
    | none => .error ⟨.clientRegistration, none⟩
  refreshToken _ _ _ id _ _ := .ok (some ⟨id, none⟩)

theorem DefaultTokenServices.reference_documented : reference.Documented where
  access settings now id request token h := by
    simp only [reference] at h
    split at h
    · next client hclient =>
      obtain ⟨clientId, hid, hfind⟩ := Option.bind_eq_some_iff.mp hclient
      cases h
      exact ⟨clientId, client, hid, hfind, rfl⟩
    · cases h

theorem DefaultTokenServices.reference_completes : reference.Completes where
  access settings now id request clientId client hid hclient := by
    simp [reference, hid, hclient]
  refreshToken store settings now id tokenRequest request clientId client _ _ _ := ⟨_, rfl⟩

/-- The user that the claims name, or the client; the authorities of a user are read as well. -/
def JwtTokenStore.reference : JwtTokenStore where
  store decode :=
    { readRefreshToken := fun value =>
        match value with
        | none => .error ⟨.invalidToken, some "Cannot convert access token to JSON"⟩
        | some value =>
          match decode value with
          | none => .error ⟨.invalidToken, some "Cannot convert access token to JSON"⟩
          | some map =>
            if map.containsKey Claim.ati = true then .ok ⟨value, expirationIn map⟩
            else .error ⟨.invalidToken, some "Encoded token is not a refresh token"⟩
      readAuthenticationForRefreshToken := fun token =>
        match decode token.value with
        | none => .error ⟨.invalidToken, some "Cannot convert access token to JSON"⟩
        | some map =>
          let clientId :=
            match map.find? Claim.clientId with
            | some (.str clientId) => some clientId
            | _ => none
          let scope :=
            match map.find? Claim.scope with
            | some (.coll elems) => LinkedHashSet.ofList elems
            | _ => ∅
          let request : OAuth2Request := ⟨∅, clientId, some ∅, true, scope, some ∅⟩
          match map.find? Claim.username with
          | some (.str name) =>
            if AuthoritiesReadable map then
              let authorities := (authorityPieces map).map GrantedAuthority.mk
              .ok ⟨request, some ⟨name, some "N/A", some authorities⟩⟩
            else .error ⟨.illegalArgument, some SpringSecurity.noTextMessage⟩
          | _ => .ok ⟨request, none⟩ }

theorem JwtTokenStore.reference_documented : reference.Documented where
  refreshToken decode value token h := by
    simp only [reference] at h
    split at h
    · cases h
    · next v =>
      split at h
      · cases h
      · next map hmap =>
        split_ifs at h with hati
        cases h
        exact ⟨map, rfl, hmap, hati⟩
  authentication decode token a h := by
    simp only [reference] at h
    split at h
    · cases h
    · next map hmap =>
      refine ⟨map, hmap, fun name hname => ?_⟩
      simp only [hname] at h
      split_ifs at h
      cases h
      exact ⟨rfl, rfl⟩

theorem JwtTokenStore.reference_reads : reference.Reads where
  refreshToken decode value map clientId scope hmap _ hati := by
    simp [reference, hmap, hati]
  readable decode token map clientId scope hmap hclaims := by
    obtain ⟨name, hname⟩ := hclaims.username
    simp only [reference, hmap, hname]
    by_cases hreadable : AuthoritiesReadable map
    · simp [hreadable]
    · simp [hreadable]
  authentication decode token map clientId scope a hmap hclaims h := by
    obtain ⟨name, hname⟩ := hclaims.username
    simp only [reference, hmap, hname, hclaims.clientId, hclaims.scope] at h
    split_ifs at h
    cases h
    exact ⟨rfl, fun x => by simp [JavaValue.ofSet]⟩

end Spring
