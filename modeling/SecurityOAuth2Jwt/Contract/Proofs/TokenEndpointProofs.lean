import SecurityOAuth2Jwt.AuthorizationServer.OAuth2Configuration
import SecurityOAuth2Jwt.AuthorizationServer.Proofs.LoginProofs
import SecurityOAuth2Jwt.Contract.Proofs.EndToEndProofs

/-!
# Proofs: whom an issued token names

The token endpoint signs nothing for a client alone, because the enhancer casts the principal to a
user. A token is issued to an active user of the table, who gave a password that matches or handed
in a refresh token with the same name, and its claims are those of the row at that moment.
-/

namespace Contract

open Java Spring AuthorizationServer ResourceServer

/-! ## The claims of a user -/

/-- The claims that say who the user is: the name, the email and the titles of the row. -/
structure ClaimsOf (u : SecurityUser) (name : String) (m : ClaimsMap) : Prop where
  username : m.find? Claim.username = some (.str name)
  email : ClaimsMap.get m ResourceServer.email = .ofString u.email
  authorities : ∃ names, (∀ x, x ∈ names ↔ some x ∈ u.titles) ∧ HasAuthoritiesClaim m names

theorem ClaimsOf.congr {u : SecurityUser} {name : String} {m m' : ClaimsMap} (h : ClaimsOf u name m)
    (hsame : ∀ k, k ∉ [Claim.jti, Claim.ati, Claim.exp] → m'.find? k = m.find? k) :
    ClaimsOf u name m' := by
  obtain ⟨names, hnames, hclaim⟩ := h.authorities
  refine ⟨?_, ?_, names, hnames, ?_⟩
  · rw [hsame _ (by decide)]
    exact h.username
  · rw [ClaimsMap.get_congr (hsame _ (by decide))]
    exact h.email
  · unfold HasAuthoritiesClaim at hclaim ⊢
    rw [hsame _ (by decide)]
    exact hclaim

/-- The authentication of a user of the table, with the authorities of the row. -/
def AuthenticatesRow (S : SpringSecurity) (a : OAuth2Authentication SecurityUser)
    (u : SecurityUser) : Prop :=
  ∃ credentials authorities, u.getAuthorities S = .ok authorities ∧
    a.userAuthentication = some ⟨u, credentials, some authorities.toList⟩

theorem claimsOf_enhanced {S : SpringSecurity} (hS : S.Documented) {J : JwtAccessTokenConverter}
    (hJ : J.Documented) {token : OAuth2AccessToken} (hfree : LeavesDefaults token)
    {a : OAuth2Authentication SecurityUser} {u : SecurityUser} (ha : AuthenticatesRow S a u)
    {name : String} (hname : u.username = some name) :
    ClaimsOf u name (J.enhance (withEmail token u) a) := by
  obtain ⟨credentials, authorities, hl, huser⟩ := ha
  have hdefaults := leavesDefaults_withEmail hfree u
  obtain ⟨names, hnames, hclaim⟩ := hJ.authorities _ a _ hdefaults huser
  refine ⟨hJ.username _ a _ name hdefaults huser hname, get_enhanced_email hJ hfree u a, names,
    fun x => ?_, hclaim⟩
  exact (hnames x).trans (SecurityUser.mem_getAuthorities hS hl)

/-- The cast in the enhancer fails for a client alone. -/
theorem enhance_client (J : JwtAccessTokenConverter) (token : OAuth2AccessToken)
    {a : OAuth2Authentication SecurityUser} (hclient : a.userAuthentication = none)
    {clientId : String} (hid : a.storedRequest.clientId = some clientId) :
    AuthorizationServer.enhance J token a = .error (.ofClass .classCast) := by
  have hprincipal : a.getPrincipal = .client (some clientId) := by
    simp only [OAuth2Authentication.getPrincipal, hclient, hid]
  unfold AuthorizationServer.enhance
  rw [hprincipal]
  rfl

theorem enhanceTokens_user (A : OAuth2Configuration) (token : OAuth2AccessToken)
    (refreshToken : Option RefreshToken) {a : OAuth2Authentication SecurityUser}
    {user : UserAuthentication SecurityUser} (huser : a.userAuthentication = some user) :
    A.enhanceTokens token refreshToken a = .ok
      { access := A.jwtAccessTokenConverter.access.enhance (withEmail token user.principal) a
        refresh := refreshToken.map fun r =>
          (A.jwtAccessTokenConverter.refresh r).enhance (withEmail token user.principal) a } := by
  unfold OAuth2Configuration.enhanceTokens
  rw [enhance_user _ _ huser]
  cases refreshToken with
  | none => rfl
  | some r =>
    simp only [enhance_user _ _ huser, Outcome.ok_bind]
    rfl

theorem enhanceTokens_client (A : OAuth2Configuration) (token : OAuth2AccessToken)
    (refreshToken : Option RefreshToken) {a : OAuth2Authentication SecurityUser}
    (hclient : a.userAuthentication = none) {clientId : String}
    (hid : a.storedRequest.clientId = some clientId) :
    A.enhanceTokens token refreshToken a = .error (.ofClass .classCast) := by
  unfold OAuth2Configuration.enhanceTokens
  rw [enhance_client _ _ hclient hid]
  rfl

/-! ## The token request -/

theorem services_getAuthorities_ok_iff {A : OAuth2Configuration} {users : UserTable}
    {u : SecurityUser} {list : List GrantedAuthority} :
    (A.services users).getAuthorities u = .ok list ↔
      ∃ authorities, u.getAuthorities A.spring = .ok authorities ∧ authorities.toList = list := by
  show LinkedHashSet.toList <$> u.getAuthorities A.spring = .ok list ↔ _
  cases u.getAuthorities A.spring with
  | error e => simp
  | ok authorities => simp

section Requests

variable {A : OAuth2Configuration} (hA : A.Documented) {decode : String → Option ClaimsMap}
  {s : ServerState} {settings : ClientSettingsTable} {now : Int64} {ids : TokenIds}
  {ps : RequestParameters} {client : ClientDetails} {tokens : IssuedTokens}

/-- Why a request gets tokens for the user `u` named `name`: a password that matches, or a refresh
token that names the user. -/
def Authorized (A : OAuth2Configuration) (decode : String → Option ClaimsMap)
    (ps : RequestParameters) (name : String) (u : SecurityUser) : Prop :=
  (ps.get "grant_type" = some "password" ∧ ps.username = name ∧
    ∃ password, ps.get "password" = some password ∧ A.passwordEncoder password u.password = true) ∨
  (ps.get "grant_type" = some "refresh_token" ∧
    ∃ value m, ps.get "refresh_token" = some value ∧ decode value = some m ∧
      m.containsKey Claim.ati = true ∧ m.find? Claim.username = some (.str name))

include hA

/-- Either factory keeps the parameters of the request. -/
theorem createTokenRequest_ok {request : TokenRequest}
    (h : (A.createTokenRequest decode s ps client).1 = .ok request) :
    request.requestParameters = ps ∧ request.clientId = client.clientId ∧
      request.grantType = ps.get "grant_type" := by
  unfold OAuth2Configuration.createTokenRequest at h
  split_ifs at h
  · unfold CustomOauth2RequestFactory.createTokenRequest at h
    split at h
    · cases h
    · split_ifs at h
      · split at h
        · cases h
        · exact hA.base.kept _ _ _ _ _ h
      · exact hA.base.kept _ _ _ _ _ h
  · exact hA.defaultFactory.kept _ _ _ _ _ h

/-- Without authorization codes, the granters authenticate an active user of the table or the client
alone. -/
theorem user_of_grant (hnames : ∀ value m, decode value = some m →
      ∃ name, m.find? Claim.username = some (.str name))
    {request : TokenRequest} (hrequest : request.requestParameters = ps ∧
      request.clientId = client.clientId ∧ request.grantType = ps.get "grant_type")
    {a : OAuth2Authentication SecurityUser}
    (h : A.endpoint.grant (A.grantContext decode ∅ s settings now) request = .ok a) :
    a.userAuthentication = none ∨ ∃ name u, loadUserByUsername A.checker s.users name = .ok u ∧
      AuthenticatesRow A.spring a u ∧ Authorized A decode ps name u := by
  obtain ⟨rfl, -, htype⟩ := hrequest
  obtain ⟨-, row, grantType, -, hgrantType, -, hgrant⟩ := hA.endpoint.client _ _ _ h
  rw [htype] at hgrantType
  rcases hgrant with ⟨rfl, password, user, hpassword, hlogin, huser, -⟩ |
    ⟨rfl, refreshToken, stored, hread, hstored, hclient, hreload⟩ | ⟨-, hnone⟩ |
    ⟨-, code, stored, -, hcode, -⟩
  · obtain ⟨u, authorities, hload, hmatch, hl, rfl⟩ :=
      hA.provider.only _ _ _ _ _ (show A.provider.authenticate _ _ _ _ = .ok user from hlogin)
    exact Or.inr ⟨_, u, hload, ⟨none, authorities, hl, huser⟩,
      Or.inl ⟨hgrantType, rfl, password, hpassword, hmatch⟩⟩
  · obtain ⟨m, hvalue, hm, hati⟩ := hA.tokenStore.refreshToken _ _ _ hread
    obtain ⟨m', hm', hstoredName⟩ := hA.tokenStore.authentication _ _ _ hstored
    rw [hm] at hm'
    cases hm'
    obtain ⟨name, hname⟩ := hnames _ m hm
    obtain ⟨huserToken, hgetName⟩ := hstoredName name hname
    obtain ⟨u, credentials, list, hload, hlist, huser⟩ := hreload huserToken
    rw [hgetName] at hload
    obtain ⟨authorities, hl, rfl⟩ := services_getAuthorities_ok_iff.mp hlist
    exact Or.inr ⟨name, u, hload, ⟨credentials, authorities, hl, huser⟩,
      Or.inr ⟨hgrantType, refreshToken.value, m, hvalue, hm, hati, hname⟩⟩
  · exact Or.inl hnone
  · cases hcode

/-- The access token of an authentication before it is enhanced. -/
def plainTokenOf (ids : TokenIds) (row : ClientSettings) (now : Int64)
    (a : OAuth2Authentication SecurityUser) : OAuth2AccessToken :=
  ⟨ids.access, row.expiration now, some a.storedRequest.scope, ∅⟩

/-- How a token request succeeds without authorization codes: an active row is authenticated, and
both tokens are made from the same plain token. -/
structure Granted (A : OAuth2Configuration) (decode : String → Option ClaimsMap) (s : ServerState)
    (settings : ClientSettingsTable) (now : Int64) (ids : TokenIds) (ps : RequestParameters)
    (client : ClientDetails) (tokens : IssuedTokens) (name : String) (u : SecurityUser)
    (row : ClientSettings) (a : OAuth2Authentication SecurityUser) : Prop where
  request : ∃ request, (A.createTokenRequest decode s ps client).1 = .ok request ∧
    A.endpoint.grant (A.grantContext decode ∅ s settings now) request = .ok a
  found : s.users.findByUsername name = some u
  active : u.Active
  authenticates : AuthenticatesRow A.spring a u
  authorized : Authorized A decode ps name u
  settings : settings.find? client.clientId = some row
  clientId : a.storedRequest.clientId = some client.clientId
  resource : ps.get "grant_type" = some "password" →
    a.storedRequest.resourceIds = some row.resourceIds
  access : tokens.access =
    A.jwtAccessTokenConverter.access.enhance (withEmail (plainTokenOf ids row now a) u) a
  refresh : ∀ m, tokens.refresh = some m → ∃ refreshToken,
    m = (A.jwtAccessTokenConverter.refresh refreshToken).enhance
      (withEmail (plainTokenOf ids row now a) u) a

theorem granted_of_ok (hnames : ∀ value m, decode value = some m →
      ∃ name, m.find? Claim.username = some (.str name))
    (h : (A.postAccessToken decode ∅ s settings now ids ps client).1 = .ok tokens) :
    ∃ name u row a, Granted A decode s settings now ids ps client tokens name u row a := by
  obtain ⟨request, hrequest, h⟩ := Outcome.bind_eq_ok.mp h
  have hkept := createTokenRequest_ok hA hrequest
  obtain ⟨a, hgrant, h⟩ := Outcome.bind_eq_ok.mp h
  obtain ⟨token, htoken, h⟩ := Outcome.bind_eq_ok.mp h
  obtain ⟨refreshToken, -, h⟩ := Outcome.bind_eq_ok.mp h
  obtain ⟨hid, -⟩ := hA.endpoint.client _ _ _ hgrant
  obtain ⟨clientId, row, hclientId, hrow, rfl⟩ := hA.tokenServices.access _ _ _ _ _ htoken
  rw [hid] at hclientId
  cases hclientId
  rcases user_of_grant hA hnames hkept hgrant with hclient | ⟨name, u, hload, hauth, hauthorized⟩
  · rw [enhanceTokens_client A _ _ hclient hid] at h
    cases h
  obtain ⟨hfound, hactive⟩ := (loadUserByUsername_ok_iff hA.checker).mp hload
  obtain ⟨credentials, authorities, hl, huser⟩ := hauth
  rw [enhanceTokens_user A _ _ huser] at h
  cases h
  obtain ⟨-, hclientId, htype⟩ := hkept
  refine ⟨name, u, row, a, ⟨request, hrequest, hgrant⟩, hfound, hactive,
    ⟨credentials, authorities, hl, huser⟩, hauthorized, ?_, ?_, fun hpassword => ?_, rfl,
    fun m hm => ?_⟩
  · rw [← hclientId]
    exact hrow
  · rw [← hclientId]
    exact hid
  · obtain ⟨row', hrow', -, -, -, -, -, hids⟩ :=
      hA.endpoint.passwordGrant hgrant (htype.trans hpassword)
    rw [hids, Option.some.inj (hrow'.symm.trans hrow)]
  · obtain ⟨refreshToken, -, rfl⟩ := Option.map_eq_some_iff.mp hm
    exact ⟨refreshToken, rfl⟩

/-! ## The claims of the issued tokens -/

section Claims

variable {name : String} {u : SecurityUser} {row : ClientSettings}
  {a : OAuth2Authentication SecurityUser}

omit hA in
theorem leavesDefaults_plainTokenOf (ids : TokenIds) (row : ClientSettings) (now : Int64)
    (a : OAuth2Authentication SecurityUser) : LeavesDefaults (plainTokenOf ids row now a) :=
  fun _ _ => rfl

variable (hgranted : Granted A decode s settings now ids ps client tokens name u row a)

include hgranted

theorem Granted.claimsOf_access : ClaimsOf u name tokens.access := by
  have hfree := leavesDefaults_plainTokenOf ids row now a
  rw [hgranted.access]
  exact claimsOf_enhanced hA.spring hA.jwtAccessTokenConverter.access hfree hgranted.authenticates
    (UserTable.username_of_findByUsername hgranted.found)

theorem Granted.exp_access :
    tokens.access.find? Claim.exp = (row.expiration now).map fun time => .long (time / 1000) := by
  have hfree := leavesDefaults_plainTokenOf ids row now a
  rw [hgranted.access]
  exact hA.jwtAccessTokenConverter.exp _ a (leavesDefaults_withEmail hfree u)

theorem Granted.ati_access : tokens.access.find? Claim.ati = none := by
  have hfree := leavesDefaults_plainTokenOf ids row now a
  rw [hgranted.access]
  exact hA.jwtAccessTokenConverter.no_ati _ a (leavesDefaults_withEmail hfree u)

theorem Granted.claimsOf_refresh {m : ClaimsMap} (hm : tokens.refresh = some m) :
    ClaimsOf u name m := by
  have hfree := leavesDefaults_plainTokenOf ids row now a
  have haccess := hgranted.claimsOf_access hA
  rw [hgranted.access] at haccess
  obtain ⟨refreshToken, rfl⟩ := hgranted.refresh m hm
  exact haccess.congr fun k hk =>
    hA.jwtAccessTokenConverter.same refreshToken _ a k (leavesDefaults_withEmail hfree u) hk

theorem Granted.ati_refresh {m : ClaimsMap} (hm : tokens.refresh = some m) :
    ∃ id, m.find? Claim.ati = some (.str id) := by
  have hfree := leavesDefaults_plainTokenOf ids row now a
  obtain ⟨refreshToken, rfl⟩ := hgranted.refresh m hm
  exact hA.jwtAccessTokenConverter.ati refreshToken _ a (leavesDefaults_withEmail hfree u)

end Claims

end Requests

/-! ## A configuration that behaves as documented -/

/-- The claims of a refresh token are those of the access token, but for its id and expiration. -/
def referenceTokensConverter (S : SpringSecurity) : JwtTokensConverter where
  access := referenceConverter S
  refresh refreshToken :=
    { enhance := fun token authentication =>
        let map := ((referenceConverter S).enhance token authentication).remove Claim.exp
        let map := map.putSome Claim.exp
          (refreshToken.expiration.map fun time => .long (time / 1000))
        let map := map.put Claim.jti (.str refreshToken.value)
        map.put Claim.ati (.str token.value) }

theorem referenceTokensConverter_documented {S : SpringSecurity} (hS : S.Documented) :
    (referenceTokensConverter S).Documented where
  access := referenceConverter_documented hS
  exp token authentication hfree :=
    CustomAccessTokenConverter.find?_encoded_exp S {} SecurityUser.username authentication
      (find?_withTokenId hfree (by decide))
  no_ati token authentication hfree :=
    CustomAccessTokenConverter.find?_convertAccessToken_of_free S {} SecurityUser.username
      authentication (find?_withTokenId hfree (by decide)) (by decide)
  ati refreshToken token authentication _ := ⟨token.value, by simp [referenceTokensConverter]⟩
  refresh_exp refreshToken token authentication _ := by
    have hjti : Claim.exp ≠ Claim.jti := by decide
    have hati : Claim.exp ≠ Claim.ati := by decide
    simp [referenceTokensConverter, hjti, hati]
  same refreshToken token authentication k _ hk := by
    simp only [List.mem_cons, List.not_mem_nil, or_false, not_or] at hk
    obtain ⟨hjti, hati, hexp⟩ := hk
    simp [referenceTokensConverter, hjti, hati, hexp]

def referenceConfiguration : OAuth2Configuration where
  spring := .reference
  checker := .reference
  provider := .reference .reference
  passwordEncoder := plainEncoder
  tokenStore := .reference
  base := .reference DefaultOAuth2RequestFactory.parseScopes id
  defaultFactory := DefaultOAuth2RequestFactory.createWith DefaultOAuth2RequestFactory.parseScopes
    fun _ scopes => scopes
  securityCheckUserScopes := true
  endpoint := .reference DefaultOAuth2RequestFactory.parseScopes SecurityUser
  tokenServices := .reference
  jwtAccessTokenConverter := referenceTokensConverter .reference

theorem referenceConfiguration_documented : referenceConfiguration.Documented where
  spring := SpringSecurity.reference_documented
  checker := AccountStatusUserDetailsChecker.reference_documented
  provider := DaoAuthenticationProvider.reference_succeeds SpringSecurity.reference_documented
  tokenStore := JwtTokenStore.reference_documented
  base := DefaultOAuth2RequestFactory.createWith_keepsParameters _ _
  defaultFactory := DefaultOAuth2RequestFactory.createWith_keepsParameters
    DefaultOAuth2RequestFactory.parseScopes fun _ scopes => scopes
  endpoint := TokenEndpoint.reference_documented
  tokenServices := DefaultTokenServices.reference_documented
  jwtAccessTokenConverter :=
    referenceTokensConverter_documented SpringSecurity.reference_documented

theorem referenceConfiguration_completes : referenceConfiguration.Completes where
  base := DefaultOAuth2RequestFactory.createWith_createsRequests _ _
  defaultFactory := DefaultOAuth2RequestFactory.createWith_createsRequests
    DefaultOAuth2RequestFactory.parseScopes fun _ scopes => scopes
  endpoint := TokenEndpoint.reference_completes
  tokenServices := DefaultTokenServices.reference_completes

end Contract
