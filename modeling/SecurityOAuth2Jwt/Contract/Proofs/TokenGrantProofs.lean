import SecurityOAuth2Jwt.AuthorizationServer.Proofs.LoginSuccessProofs
import SecurityOAuth2Jwt.Contract.Proofs.RevocationProofs

/-!
# Proofs: when a token request succeeds

A request succeeds when its factory, its granter and the enhancer do, and the enhancer fails for a
client alone. The security context has a say in this for as long as user scopes are checked: a
password request gets the scopes that whoever is in the context may have, and a refresh request puts
the user of the token there first.
-/

namespace Contract

open Java Spring AuthorizationServer ResourceServer

/-! ## The client of a request -/

section Client

/-- The factory of Spring that the configuration ends up with. -/
def springFactory (A : OAuth2Configuration) : ClientTable → SecurityContext → RequestParameters →
    ClientDetails → Result TokenRequest :=
  if A.securityCheckUserScopes then A.base.createTokenRequest else A.defaultFactory

/-- The scopes that the context permits, of all scopes if they are not checked. -/
def permittedIn (A : OAuth2Configuration) (context : SecurityContext)
    (scopes : LinkedHashSet String) : LinkedHashSet String :=
  if A.securityCheckUserScopes then
    DefaultOAuth2RequestFactory.checkUserScopes A.base.toUpperCase context scopes
  else scopes

/-- The scopes that the titles of the row permit. -/
def permittedTo (A : OAuth2Configuration) (u : SecurityUser) (scopes : LinkedHashSet String) :
    LinkedHashSet String :=
  if A.securityCheckUserScopes then
    LinkedHashSet.ofList (scopes.toList.filter fun scope =>
      decide (∃ t ∈ standsFor A.base.toUpperCase scope, some t ∈ u.titles))
  else scopes

/-- The authenticated client may use the grant type, with the permitted ones of the requested
scopes. -/
structure Eligible (A : OAuth2Configuration) (s : ServerState) (settings : ClientSettingsTable)
    (permitted : LinkedHashSet String → LinkedHashSet String) (ps : RequestParameters)
    (client : ClientDetails) (grantType : String) : Prop where
  same : SameClient ps client
  scopes : ∃ details, s.clients.find? client.clientId = some details ∧
    ValidScopes details (permitted (requestedScopes A.base.parseParameterList details ps))
  authorized : ∃ row, settings.find? client.clientId = some row ∧ row.Authorizes grantType

variable {A : OAuth2Configuration}

theorem permittedIn_user {u : SecurityUser} {authorities : LinkedHashSet GrantedAuthority}
    (hS : A.spring.Documented) (hl : u.getAuthorities A.spring = .ok authorities) (name : String) :
    permittedIn A ⟨some (.user ⟨name, none, some authorities.toList⟩)⟩ = permittedTo A u := by
  have hauthority : ∀ t, ⟨t⟩ ∈ authorities.toList ↔ some t ∈ u.titles := fun t =>
    SecurityUser.mem_getAuthorities hS hl
  funext scopes
  unfold permittedIn permittedTo DefaultOAuth2RequestFactory.checkUserScopes
  simp only [Option.getD_some, hauthority]

variable (hA : A.Documented) (hC : A.Completes)

include hA in
theorem springFactory_keepsParameters : KeepsParameters (springFactory A) := by
  unfold springFactory
  split_ifs
  · exact hA.base
  · exact hA.defaultFactory

include hC in
theorem springFactory_createsRequests :
    CreatesRequests (springFactory A) A.base.parseParameterList (permittedIn A) := by
  unfold springFactory permittedIn
  split_ifs
  · exact hC.base
  · exact hC.defaultFactory

include hA hC in
/-- An eligible client is one whose request is created and then accepted by the endpoint. -/
theorem eligible_iff {s : ServerState} {settings : ClientSettingsTable} {context : SecurityContext}
    {ps : RequestParameters} {client : ClientDetails} {grantType : String} {now : Int64}
    {decode : String → Option ClaimsMap} {codes : AuthorizationCodes SecurityUser}
    (hgrantType : ps.get "grant_type" = some grantType) :
    Eligible A s settings (permittedIn A context) ps client grantType ↔
      ∃ request, springFactory A s.clients context ps client = .ok request ∧
        ClientMay (A.grantContext decode codes s settings now) request grantType := by
  have hkeeps := springFactory_keepsParameters hA
  have hcreates := springFactory_createsRequests hC
  constructor
  · rintro ⟨hsame, ⟨details, hdetails, hvalid⟩, hauthorized⟩
    obtain ⟨request, hrequest⟩ := (hcreates.created s.clients context ps client).mpr
      ⟨hsame, details, hdetails⟩
    obtain ⟨-, hclientId, htype⟩ := hkeeps.kept _ _ _ _ _ hrequest
    have hscopes := hcreates.scopes _ _ _ _ _ _ hdetails hrequest
    refine ⟨request, hrequest, htype.trans hgrantType, ⟨details, ?_, ?_⟩, ?_⟩
    · rw [hclientId]
      exact hdetails
    · exact (ValidScopes.congr hscopes).mpr hvalid
    · rw [hclientId]
      exact hauthorized
  · rintro ⟨request, hrequest, htype, ⟨details, hdetails, hvalid⟩, hauthorized⟩
    obtain ⟨hsame, -⟩ := (hcreates.created s.clients context ps client).mp ⟨request, hrequest⟩
    obtain ⟨-, hclientId, -⟩ := hkeeps.kept _ _ _ _ _ hrequest
    rw [hclientId] at hdetails hauthorized
    have hscopes := hcreates.scopes _ _ _ _ _ _ hdetails hrequest
    exact ⟨hsame, ⟨details, hdetails, (ValidScopes.congr hscopes).mp hvalid⟩, hauthorized⟩

end Client

/-! ## The granter and the enhancer -/

section Grant

variable {A : OAuth2Configuration} {decode : String → Option ClaimsMap}
  {codes : AuthorizationCodes SecurityUser} {s : ServerState} {settings : ClientSettingsTable}
  {now : Int64} {ids : TokenIds} {ps : RequestParameters} {client : ClientDetails}

theorem postAccessToken_ok_iff :
    (∃ tokens, (A.postAccessToken decode codes s settings now ids ps client).1 = .ok tokens) ↔
      ∃ request, (A.createTokenRequest decode s ps client).1 = .ok request ∧
        ∃ tokens, A.grantTokens decode codes s settings now ids request = .ok tokens := by
  constructor
  · rintro ⟨tokens, h⟩
    obtain ⟨request, hrequest, h⟩ := Outcome.bind_eq_ok.mp h
    exact ⟨request, hrequest, tokens, h⟩
  · rintro ⟨request, hrequest, tokens, h⟩
    exact ⟨tokens, Outcome.bind_eq_ok.mpr ⟨request, hrequest, h⟩⟩

/-- A password request goes by the context as it is. -/
theorem createTokenRequest_of_password (hpassword : ps.get "grant_type" = some "password") :
    (A.createTokenRequest decode s ps client).1 =
      springFactory A s.clients s.context ps client := by
  have hne : "password" ≠ "refresh_token" := by decide
  unfold OAuth2Configuration.createTokenRequest springFactory
  cases A.securityCheckUserScopes with
  | false => rfl
  | true =>
    simp only [if_true, CustomOauth2RequestFactory.createTokenRequest, hpassword, if_neg hne]
    rfl

variable (hA : A.Documented) (hC : A.Completes)

include hA

/-- A refresh request whose token names an active row goes by the titles of this row. -/
theorem createTokenRequest_of_refresh (hrefresh : ps.get "grant_type" = some "refresh_token")
    {name : String}
    (hname : tokenName (A.tokenStore.store decode) (ps.get "refresh_token") = .ok name)
    {u : SecurityUser} (hload : loadUserByUsername A.checker s.users name = .ok u)
    {authorities : LinkedHashSet GrantedAuthority}
    (hl : u.getAuthorities A.spring = .ok authorities) :
    ∃ context, (A.createTokenRequest decode s ps client).1 =
        springFactory A s.clients context ps client ∧
      permittedIn A context = permittedTo A u := by
  cases hcheck : A.securityCheckUserScopes with
  | false =>
    refine ⟨s.context, ?_, ?_⟩
    · simp [OAuth2Configuration.createTokenRequest, springFactory, hcheck]
    · funext scopes
      simp [permittedIn, permittedTo, hcheck]
  | true =>
    refine ⟨⟨some (.user ⟨name, none, some authorities.toList⟩)⟩, ?_,
      permittedIn_user hA.spring hl name⟩
    have huser : (A.requestFactory decode).refreshedAuthentication s.users ps =
        .ok ⟨name, none, some authorities.toList⟩ := by
      rw [CustomOauth2RequestFactory.refreshedAuthentication_eq]
      simp only [OAuth2Configuration.requestFactory, hname, Outcome.ok_bind, hload, hl,
        hA.spring.userToken]
      rfl
    unfold OAuth2Configuration.createTokenRequest springFactory
    rw [hcheck, if_pos rfl, if_pos rfl,
      CustomOauth2RequestFactory.createTokenRequest_of_refreshed hrefresh huser]
    rfl

include hC

/-- What an authentication needs of the token services is there for every one that is granted. -/
theorem tokenServices_of_grant {request : TokenRequest} {a : OAuth2Authentication SecurityUser}
    (hgrant : A.endpoint.grant (A.grantContext decode codes s settings now) request = .ok a) :
    ∃ token refreshToken,
      A.tokenServices.createAccessToken settings now ids.access a.storedRequest = .ok token ∧
      A.tokenServices.refreshToken (A.tokenStore.store decode) settings now ids.refresh request
        a.storedRequest = .ok refreshToken := by
  obtain ⟨hid, row, -, hrow, -⟩ := hA.endpoint.client _ _ _ hgrant
  obtain ⟨token, htoken⟩ := hC.tokenServices.access settings now ids.access _ _ _ hid hrow
  have hreadable : request.grantType = some "refresh_token" → ∃ refreshToken,
      (A.tokenStore.store decode).readRefreshToken
        (request.requestParameters.get "refresh_token") = .ok refreshToken := by
    intro htype
    obtain ⟨refreshToken, stored, hread, -⟩ := hA.endpoint.refreshGrant hgrant htype
    exact ⟨refreshToken, hread⟩
  obtain ⟨refreshToken, hrefreshToken⟩ := hC.tokenServices.refreshToken
    (A.tokenStore.store decode) settings now ids.refresh request _ _ _ hid hrow hreadable
  exact ⟨token, refreshToken, htoken, hrefreshToken⟩

/-- A client alone gets no token: the cast in the enhancer fails. -/
theorem grantTokens_of_client {request : TokenRequest} {a : OAuth2Authentication SecurityUser}
    (hgrant : A.endpoint.grant (A.grantContext decode codes s settings now) request = .ok a)
    (hclient : a.userAuthentication = none) :
    A.grantTokens decode codes s settings now ids request = .error (.ofClass .classCast) := by
  obtain ⟨hid, -⟩ := hA.endpoint.client _ _ _ hgrant
  obtain ⟨token, refreshToken, htoken, hrefreshToken⟩ :=
    @tokenServices_of_grant A decode codes s settings now ids hA hC request a hgrant
  unfold OAuth2Configuration.grantTokens
  simp only [hgrant, Outcome.ok_bind, htoken, hrefreshToken]
  exact enhanceTokens_client A token refreshToken hclient hid

/-- Once a user is authenticated for a token request, it is answered with tokens. -/
theorem grantTokens_ok_iff {request : TokenRequest} :
    (∃ tokens, A.grantTokens decode codes s settings now ids request = .ok tokens) ↔
      ∃ a user, A.endpoint.grant (A.grantContext decode codes s settings now) request = .ok a ∧
        a.userAuthentication = some user := by
  constructor
  · rintro ⟨tokens, h⟩
    obtain ⟨a, hgrant, -⟩ := Outcome.bind_eq_ok.mp h
    cases huser : a.userAuthentication with
    | none =>
      rw [grantTokens_of_client hA hC hgrant huser] at h
      cases h
    | some user => exact ⟨a, user, hgrant, huser⟩
  · rintro ⟨a, user, hgrant, huser⟩
    obtain ⟨token, refreshToken, htoken, hrefreshToken⟩ :=
      @tokenServices_of_grant A decode codes s settings now ids hA hC request a hgrant
    have htokens := enhanceTokens_user A token refreshToken huser
    refine ⟨_, Eq.trans ?_ htokens⟩
    unfold OAuth2Configuration.grantTokens
    simp only [hgrant, Outcome.ok_bind, htoken, hrefreshToken]

/-- Tokens are issued to users only. Whatever its grant type, a token request is answered with
tokens exactly when a request is created and a user is authenticated for it. If the client alone is,
the cast in the enhancer fails; so nothing is ever signed for client credentials. -/
theorem tokens_for_users_only :
    ((∃ tokens, (A.postAccessToken decode codes s settings now ids ps client).1 = .ok tokens) ↔
      ∃ request a user, (A.createTokenRequest decode s ps client).1 = .ok request ∧
        A.endpoint.grant (A.grantContext decode codes s settings now) request = .ok a ∧
        a.userAuthentication = some user) ∧
    (∀ request a, (A.createTokenRequest decode s ps client).1 = .ok request →
      A.endpoint.grant (A.grantContext decode codes s settings now) request = .ok a →
      a.userAuthentication = none →
      (A.postAccessToken decode codes s settings now ids ps client).1 =
        .error (.ofClass .classCast)) ∧
    (ps.get "grant_type" = some "client_credentials" →
      Servers.signedFor (A.postAccessToken decode codes s settings now ids ps client).1 = []) := by
  have hiff : (∃ tokens, (A.postAccessToken decode codes s settings now ids ps client).1 =
      .ok tokens) ↔ ∃ request a user, (A.createTokenRequest decode s ps client).1 = .ok request ∧
        A.endpoint.grant (A.grantContext decode codes s settings now) request = .ok a ∧
        a.userAuthentication = some user := by
    rw [postAccessToken_ok_iff]
    constructor
    · rintro ⟨request, hrequest, htokens⟩
      obtain ⟨a, user, hgrant, huser⟩ := (grantTokens_ok_iff hA hC).mp htokens
      exact ⟨request, a, user, hrequest, hgrant, huser⟩
    · rintro ⟨request, a, user, hrequest, hgrant, huser⟩
      exact ⟨request, hrequest, (grantTokens_ok_iff hA hC).mpr ⟨a, user, hgrant, huser⟩⟩
  refine ⟨hiff, fun request a hrequest hgrant hclient => ?_, fun hcredentials => ?_⟩
  · show (A.createTokenRequest decode s ps client).1 >>=
      A.grantTokens decode codes s settings now ids = _
    rw [hrequest, Outcome.ok_bind]
    exact grantTokens_of_client hA hC hgrant hclient
  · cases houtcome : (A.postAccessToken decode codes s settings now ids ps client).1 with
    | error e => rfl
    | ok tokens =>
      obtain ⟨request, a, user, hrequest, hgrant, huser⟩ := hiff.mp ⟨tokens, houtcome⟩
      obtain ⟨-, -, htype⟩ := createTokenRequest_ok hA hrequest
      rw [hA.endpoint.clientGrant hgrant (htype.trans hcredentials)] at huser
      cases huser

/-- A password request succeeds exactly when its client is eligible for the grant in the context
that it meets, and its name and password are those of an active row whose titles all have text. -/
theorem password_request_succeeds_iff (hpassword : ps.get "grant_type" = some "password") :
    (∃ tokens, (A.postAccessToken decode codes s settings now ids ps client).1 = .ok tokens) ↔
      Eligible A s settings (permittedIn A s.context) ps client "password" ∧
      ∃ password u, ps.get "password" = some password ∧
        s.users.findByUsername ps.username = some u ∧ u.Active ∧
        A.passwordEncoder password u.password = true ∧ ∀ t ∈ u.titles, TextPresent t := by
  rw [postAccessToken_ok_iff, createTokenRequest_of_password hpassword]
  constructor
  · rintro ⟨request, hrequest, htokens⟩
    obtain ⟨hps, -, htype⟩ := (springFactory_keepsParameters hA).kept _ _ _ _ _ hrequest
    rw [hpassword] at htype
    obtain ⟨a, -, hgrant, -⟩ := (grantTokens_ok_iff hA hC).mp htokens
    have hmay := hC.endpoint.only _ _ _ _ hgrant htype
    refine ⟨(eligible_iff hA hC hpassword).mpr ⟨request, hrequest, hmay⟩, ?_⟩
    obtain ⟨-, -, password, user, hparameter, hlogin, -⟩ :=
      hA.endpoint.passwordGrant hgrant htype
    rw [hps] at hparameter hlogin
    obtain ⟨u, authorities, hfound, hactive, hmatch, hl, -⟩ :=
      (login_ok_iff hA.provider hA.checker).mp hlogin
    exact ⟨password, u, hparameter, hfound, hactive, hmatch,
      (SecurityUser.getAuthorities_returns_iff hA.spring).mp ⟨authorities, hl⟩⟩
  · rintro ⟨heligible, password, u, hparameter, hfound, hactive, hmatch, htext⟩
    obtain ⟨request, hrequest, hmay⟩ := (eligible_iff hA hC hpassword).mp heligible
    obtain ⟨hps, -, htype⟩ := (springFactory_keepsParameters hA).kept _ _ _ _ _ hrequest
    obtain ⟨authorities, hl⟩ := (SecurityUser.getAuthorities_returns_iff hA.spring).mpr htext
    have hlogin : login A.provider A.checker A.passwordEncoder s.users ps.username password =
        .ok ⟨u, none, some authorities.toList⟩ :=
      (login_ok_iff hA.provider hA.checker).mpr ⟨u, authorities, hfound, hactive, hmatch, hl, rfl⟩
    rw [← hps] at hparameter hlogin
    obtain ⟨a, hgrant⟩ := hC.endpoint.password _ request password _ hmay hparameter hlogin
    obtain ⟨-, -, -, user, -, -, huser, -⟩ :=
      hA.endpoint.passwordGrant hgrant (htype.trans hpassword)
    exact ⟨request, hrequest, (grantTokens_ok_iff hA hC).mpr ⟨a, user, hgrant, huser⟩⟩

/-! ## Refresh requests -/

omit hA hC in
/-- What the store reads behind a refresh token with these claims of a user. -/
structure ReadBack (A : OAuth2Configuration) (decode : String → Option ClaimsMap) (value : String)
    (m : ClaimsMap) (clientId : String) (scope : LinkedHashSet Elem) (name : String)
    (stored : OAuth2Authentication String) : Prop where
  decoded : decode value = some m
  refresh : m.containsKey Claim.ati = true
  claims : UserClaims m clientId scope
  username : m.find? Claim.username = some (.str name)
  token : (A.tokenStore.store decode).readRefreshToken (some value) = .ok ⟨value, expirationIn m⟩
  authentication : (A.tokenStore.store decode).readAuthenticationForRefreshToken
    ⟨value, expirationIn m⟩ = .ok stored
  readable : AuthoritiesReadable m
  clientId : stored.storedRequest.clientId = some clientId
  scope : stored.storedRequest.scope.Same scope
  user : stored.isClientOnly = false
  name : stored.getName = name

omit hA hC in
theorem ReadBack.tokenName_eq {value : String} {m : ClaimsMap} {clientId : String}
    {scope : LinkedHashSet Elem} {name : String} {stored : OAuth2Authentication String}
    (h : ReadBack A decode value m clientId scope name stored) :
    tokenName (A.tokenStore.store decode) (some value) = .ok name :=
  tokenName_ok_iff.mpr ⟨_, stored, h.token, h.authentication, h.name⟩

omit hC in
/-- A refresh grant is for the row that the user service loads for the name in the token. -/
theorem ReadBack.row_of_grant {value : String} {m : ClaimsMap} {clientId : String}
    {scope : LinkedHashSet Elem} {name : String} {stored : OAuth2Authentication String}
    (h : ReadBack A decode value m clientId scope name stored) {request : TokenRequest}
    (hvalue : request.requestParameters.get "refresh_token" = some value)
    {a : OAuth2Authentication SecurityUser}
    (hgrant : A.endpoint.grant (A.grantContext decode codes s settings now) request = .ok a)
    (htype : request.grantType = some "refresh_token") :
    ∃ u, loadUserByUsername A.checker s.users name = .ok u ∧ AuthenticatesRow A.spring a u := by
  obtain ⟨refreshToken, stored', hread, hstored, -, hreload⟩ :=
    hA.endpoint.refreshGrant hgrant htype
  rw [hvalue] at hread
  rw [Except.ok.inj (hread.symm.trans h.token)] at hstored
  rw [Except.ok.inj (hstored.symm.trans h.authentication)] at hreload
  obtain ⟨u, credentials, list, hload, hlist, huser⟩ := hreload h.user
  rw [h.name] at hload
  obtain ⟨authorities, hl, rfl⟩ := services_getAuthorities_ok_iff.mp hlist
  exact ⟨u, hload, credentials, authorities, hl, huser⟩

variable (hW : A.tokenStore.Reads)

include hW

omit hC in
theorem readBack_of_stored {value : String} {m : ClaimsMap} (hm : decode value = some m)
    (hati : m.containsKey Claim.ati = true) {clientId : String} {scope : LinkedHashSet Elem}
    (hclaims : UserClaims m clientId scope) {name : String}
    (hname : m.find? Claim.username = some (.str name)) {stored : OAuth2Authentication String}
    (hstored : (A.tokenStore.store decode).readAuthenticationForRefreshToken
      ⟨value, expirationIn m⟩ = .ok stored) :
    ReadBack A decode value m clientId scope name stored := by
  obtain ⟨m', hm', hstoredName⟩ := hA.tokenStore.authentication _ _ _ hstored
  rw [hm] at hm'
  cases hm'
  obtain ⟨huser, hgetName⟩ := hstoredName name hname
  obtain ⟨hclientId, hscope⟩ := hW.authentication _ _ _ _ _ _ hm hclaims hstored
  exact ⟨hm, hati, hclaims, hname, hW.refreshToken _ _ _ _ _ hm hclaims hati, hstored,
    (hW.readable _ ⟨value, _⟩ _ _ _ hm hclaims).mp ⟨stored, hstored⟩, hclientId, hscope, huser,
    hgetName⟩

/-- A refresh grant has read the claims of a user behind the value that was sent, and allowed it. -/
theorem readBack_of_grant
    (hsigned : ∀ value m, decode value = some m → ∃ clientId scope, UserClaims m clientId scope)
    {request : TokenRequest} {a : OAuth2Authentication SecurityUser}
    (hgrant : A.endpoint.grant (A.grantContext decode codes s settings now) request = .ok a)
    (htype : request.grantType = some "refresh_token") :
    ∃ value m clientId scope name stored,
      request.requestParameters.get "refresh_token" = some value ∧
      ReadBack A decode value m clientId scope name stored ∧
      RefreshAllowed A.base.parseParameterList (A.grantContext decode codes s settings now) request
        ⟨value, expirationIn m⟩ stored := by
  obtain ⟨refreshToken, stored, hread, hstored, -⟩ := hA.endpoint.refreshGrant hgrant htype
  have hallowed := hC.endpoint.allowed _ _ _ _ _ hgrant htype hread hstored
  obtain ⟨m, hvalue, hm, hati⟩ := hA.tokenStore.refreshToken _ _ _ hread
  obtain ⟨clientId, scope, hclaims⟩ := hsigned _ m hm
  obtain ⟨name, hname⟩ := hclaims.username
  -- the expiration of the refresh token is that in the claims
  have hread' := hW.refreshToken _ _ _ _ _ hm hclaims hati
  rw [hvalue] at hread
  rw [Except.ok.inj (hread.symm.trans hread')] at hstored hallowed
  exact ⟨refreshToken.value, m, clientId, scope, name, stored, hvalue,
    readBack_of_stored hA hW hm hati hclaims hname hstored, hallowed⟩

omit hA hC hW in
/-- The claims are those of a refresh token that can be read, and that the client may use now for
the scopes that it asks for. -/
structure RenewableBy (A : OAuth2Configuration) (m : ClaimsMap) (now : Int64)
    (ps : RequestParameters) (client : ClientDetails) : Prop where
  refresh : m.containsKey Claim.ati = true
  client : m.find? Claim.clientId = some (.str client.clientId)
  unexpired : ∀ time, expirationIn m = some time → now ≤ time
  scopes : ∃ scope : LinkedHashSet Elem, m.find? Claim.scope = some (.ofSet scope) ∧
    ∀ x ∈ (A.base.parseParameterList (ps.get "scope")).toList, Elem.str x ∈ scope
  authorities : AuthoritiesReadable m

omit hA hC hW in
theorem refreshAllowed_iff {ctx : GrantContext SecurityUser} (hnow : ctx.now = now)
    {request : TokenRequest} (hps : request.requestParameters = ps)
    (hid : request.clientId = client.clientId) {value : String} {m : ClaimsMap} {clientId : String}
    {scope : LinkedHashSet Elem} {name : String} {stored : OAuth2Authentication String}
    (hread : ReadBack A decode value m clientId scope name stored) :
    RefreshAllowed A.base.parseParameterList ctx request ⟨value, expirationIn m⟩ stored ↔
      RenewableBy A m now ps client := by
  subst hnow hps
  constructor
  · rintro ⟨hclient, hunexpired, hscopes⟩
    rw [hread.clientId, hid] at hclient
    refine ⟨hread.refresh, ?_, hunexpired, ⟨scope, hread.claims.scope, fun x hx => ?_⟩,
      hread.readable⟩
    · rw [hread.claims.clientId, Option.some.inj hclient]
    · exact (hread.scope _).mp (hscopes x hx)
  · rintro ⟨-, hclient, hunexpired, ⟨scope', hscope', hscopes⟩, -⟩
    rw [hread.claims.clientId] at hclient
    rw [hread.claims.scope] at hscope'
    refine ⟨?_, hunexpired, fun x hx => ?_⟩
    · rw [hread.clientId, hid, JavaValue.str.inj (Option.some.inj hclient)]
    · have hx' : Elem.str x ∈ scope'.toList := hscopes x hx
      rw [← JavaValue.coll.inj (Option.some.inj hscope')] at hx'
      exact (hread.scope _).mpr hx'

/-- A refresh request succeeds exactly when its token was signed as a refresh token for this client,
can be read, is not expired and has the requested scopes, the user that it names is an active row
whose titles all have text, and the client is eligible for the grant with the scopes that these
titles permit. -/
theorem refresh_request_ok_iff
    (hsigned : ∀ value m, decode value = some m → ∃ clientId scope, UserClaims m clientId scope)
    (hrefresh : ps.get "grant_type" = some "refresh_token") :
    (∃ tokens, (A.postAccessToken decode codes s settings now ids ps client).1 = .ok tokens) ↔
      ∃ value m name u, ps.get "refresh_token" = some value ∧ decode value = some m ∧
        RenewableBy A m now ps client ∧ m.find? Claim.username = some (.str name) ∧
        s.users.findByUsername name = some u ∧ u.Active ∧ (∀ t ∈ u.titles, TextPresent t) ∧
        Eligible A s settings (permittedTo A u) ps client "refresh_token" := by
  rw [postAccessToken_ok_iff]
  constructor
  · rintro ⟨request, hrequest, htokens⟩
    obtain ⟨hps, hid, htype⟩ := createTokenRequest_ok hA hrequest
    rw [hrefresh] at htype
    obtain ⟨a, -, hgrant, -⟩ := (grantTokens_ok_iff hA hC).mp htokens
    obtain ⟨value, m, clientId, scope, name, stored, hvalue, hback, hallowed⟩ :=
      readBack_of_grant hA hC hW hsigned hgrant htype
    obtain ⟨u, hload, credentials, authorities, hl, -⟩ :=
      hback.row_of_grant hA hvalue hgrant htype
    obtain ⟨hfound, hactive⟩ := (loadUserByUsername_ok_iff hA.checker).mp hload
    have htokenName := hback.tokenName_eq
    rw [hps] at hvalue
    rw [← hvalue] at htokenName
    obtain ⟨context, hcontext, hpermitted⟩ :=
      @createTokenRequest_of_refresh A decode s ps client hA hrefresh name htokenName u hload _ hl
    rw [hcontext] at hrequest
    refine ⟨value, m, name, u, hvalue, hback.decoded, ?_, hback.username, hfound, hactive,
      (SecurityUser.getAuthorities_returns_iff hA.spring).mp ⟨authorities, hl⟩, ?_⟩
    · exact (refreshAllowed_iff rfl hps hid hback).mp hallowed
    · rw [← hpermitted]
      exact (eligible_iff hA hC hrefresh).mpr
        ⟨request, hrequest, hC.endpoint.only _ _ _ _ hgrant htype⟩
  · rintro ⟨value, m, name, u, hvalue, hm, hrenewable, hname, hfound, hactive, htext, heligible⟩
    obtain ⟨clientId, scope, hclaims⟩ := hsigned _ m hm
    obtain ⟨stored, hstored⟩ :=
      (hW.readable _ ⟨value, expirationIn m⟩ _ _ _ hm hclaims).mpr hrenewable.authorities
    have hback := readBack_of_stored hA hW hm hrenewable.refresh hclaims hname hstored
    obtain ⟨authorities, hl⟩ := (SecurityUser.getAuthorities_returns_iff hA.spring).mpr htext
    have hload := (loadUserByUsername_ok_iff hA.checker).mpr ⟨hfound, hactive⟩
    have htokenName := hback.tokenName_eq
    rw [← hvalue] at htokenName
    obtain ⟨context, hcontext, hpermitted⟩ :=
      @createTokenRequest_of_refresh A decode s ps client hA hrefresh name htokenName u hload _ hl
    rw [← hpermitted] at heligible
    obtain ⟨request, hrequest, hmay⟩ := (eligible_iff hA hC hrefresh).mp heligible
    rw [← hcontext] at hrequest
    obtain ⟨hps, hid, htype⟩ := createTokenRequest_ok hA hrequest
    rw [← hps] at hvalue
    have hallowed : RefreshAllowed A.base.parseParameterList
        (A.grantContext decode codes s settings now) request ⟨value, expirationIn m⟩ stored :=
      (refreshAllowed_iff rfl hps hid hback).mpr hrenewable
    have hread := hback.token
    rw [← hvalue] at hread
    rw [← hback.name] at hload
    obtain ⟨a, hgrant⟩ := hC.endpoint.refresh _ request _ stored u _ hmay hread hstored hallowed
      hback.user hload ((check_ok_iff_active hA.checker).mpr hactive)
      (services_getAuthorities_ok_iff.mpr ⟨authorities, hl, rfl⟩)
    obtain ⟨u', -, credentials, authorities', -, huser⟩ :=
      hback.row_of_grant hA hvalue hgrant (htype.trans hrefresh)
    exact ⟨request, hrequest, (grantTokens_ok_iff hA hC).mpr ⟨a, _, hgrant, huser⟩⟩

end Grant

/-! ## Signed claims -/

section Signed

variable {Y : Servers} (hA : Y.authorizationServer.Documented)

include hA

section Granted

variable {decode : String → Option ClaimsMap} {server : ServerState}
  {settings : ClientSettingsTable} {issued : Int64} {ids : TokenIds} {ps : RequestParameters}
  {client : ClientDetails} {tokens : IssuedTokens} {name : String} {u : SecurityUser}
  {row : ClientSettings} {a : OAuth2Authentication SecurityUser}
  (hgranted : Granted Y.authorizationServer decode server settings issued ids ps client tokens name
    u row a)

include hgranted

theorem Granted.userClaims_access :
    UserClaims tokens.access client.clientId a.storedRequest.scope := by
  have hfree := leavesDefaults_withEmail (leavesDefaults_plainTokenOf ids row issued a) u
  have hclaims := hgranted.claimsOf_access hA
  obtain ⟨names, -, hclaim⟩ := hclaims.authorities
  obtain ⟨request, -, hgrant⟩ := hgranted.request
  refine ⟨⟨name, hclaims.username⟩, ?_, hA.endpoint.scope _ _ _ hgrant, ?_,
    (hgranted.tokenReadable_access hA).exp, ?_, ?_⟩
  · rw [hgranted.access, hA.jwtAccessTokenConverter.access.clientId _ a hfree, hgranted.clientId]
    rfl
  · rw [hgranted.access, hA.jwtAccessTokenConverter.access.scope _ a hfree]
    rfl
  · unfold HasAuthoritiesClaim at hclaim
    split_ifs at hclaim
    · exact Or.inl hclaim
    · exact Or.inr ⟨_, hclaim⟩
  · have haud := hA.jwtAccessTokenConverter.access.aud _ a hfree
    rw [← hgranted.access] at haud
    rw [haud]
    cases a.storedRequest.resourceIds.bind LinkedHashSet.nonEmpty? with
    | none => exact Or.inl rfl
    | some aud => exact Or.inr ⟨aud.toList, rfl⟩

theorem Granted.userClaims_refresh {m : ClaimsMap} (hm : tokens.refresh = some m) :
    UserClaims m client.clientId a.storedRequest.scope := by
  have hfree := leavesDefaults_withEmail (leavesDefaults_plainTokenOf ids row issued a) u
  have haccess := hgranted.userClaims_access hA
  have hexp := (hgranted.tokenReadable_refresh hA hm).exp
  rw [hgranted.access] at haccess
  obtain ⟨refreshToken, rfl⟩ := hgranted.refresh m hm
  exact haccess.congr hexp fun k hk =>
    hA.jwtAccessTokenConverter.same refreshToken _ a k hfree hk

theorem Granted.userClaims_signed {m : ClaimsMap} (hm : m ∈ Servers.signedFor (.ok tokens)) :
    UserClaims m client.clientId a.storedRequest.scope := by
  rcases List.mem_cons.mp hm with rfl | hrefresh
  · exact hgranted.userClaims_access hA
  · exact hgranted.userClaims_refresh hA (Option.mem_toList.mp hrefresh)

end Granted

/-- Everything that is signed can be read back by the authorization server. -/
theorem Reachable.userClaims {s : ServersState} (hs : Reachable Y s) :
    ∀ m ∈ s.signed, ∃ clientId scope, UserClaims m clientId scope := by
  obtain ⟨s₀, es, hinitial, rfl⟩ := hs
  refine (Y.machine.run_induction (P := fun t => Inv t ∧ ∀ m ∈ t.signed, ∃ clientId scope,
    UserClaims m clientId scope) (fun t e ⟨hinv, hsigned⟩ => ⟨inv_step hA t e hinv, ?_⟩)
    ⟨hinitial.inv, fun m hm => ?_⟩ es).2
  · intro m hm
    rcases hinv.mem_signed_step hA hm with
      hold | ⟨ps, client, ids, tokens, name, u, row, a, rfl, -, hgranted, hnew⟩
    · exact hsigned m hold
    · exact ⟨_, _, hgranted.userClaims_signed hA hnew⟩
  · rw [hinitial.signed] at hm
    cases hm

/-- In every reachable state, a refresh request succeeds exactly when its token was signed as a
refresh token for this client, can be read, is not expired and has the requested scopes, the user
that it names is an active row of the moment whose titles all have text, and the client is eligible
for the grant with the scopes that these titles permit. -/
theorem refresh_request_succeeds_iff (hC : Y.authorizationServer.Completes)
    (hW : Y.authorizationServer.tokenStore.Reads) {s : ServersState} (hs : Reachable Y s)
    {ps : RequestParameters} (hrefresh : ps.get "grant_type" = some "refresh_token")
    (client : ClientDetails) (ids : TokenIds) :
    (∃ tokens, (Y.postAccessToken s ps client ids).1 = .ok tokens) ↔
      ∃ value m name u, ps.get "refresh_token" = some value ∧ Y.decode s value = some m ∧
        RenewableBy Y.authorizationServer m s.clock ps client ∧
        m.find? Claim.username = some (.str name) ∧
        s.server.users.findByUsername name = some u ∧ u.Active ∧ (∀ t ∈ u.titles, TextPresent t) ∧
        Eligible Y.authorizationServer s.server s.settings (permittedTo Y.authorizationServer u) ps
          client "refresh_token" := by
  refine refresh_request_ok_iff hA hC hW (fun value m hm => ?_) hrefresh
  exact hs.userClaims hA m (decode_eq_some hm).1

end Signed

/-! Alice logs in, and refreshes her token. -/

theorem eligible_webClient {permitted : LinkedHashSet String → LinkedHashSet String}
    {ps : RequestParameters} (hid : ps.get "client_id" = none)
    (hpermitted : permitted (requestedScopes DefaultOAuth2RequestFactory.parseScopes webClient ps) =
      .ofList ["role_user"]) (grantType : String) :
    Eligible referenceConfiguration stateOfAlice.server stateOfAlice.settings permitted ps webClient
      grantType where
  same := Or.inl hid
  scopes := by
    refine ⟨webClient, rfl, ?_⟩
    show ValidScopes webClient
      (permitted (requestedScopes DefaultOAuth2RequestFactory.parseScopes webClient ps))
    rw [hpermitted]
    decide
  authorized := ⟨_, rfl, Or.inl rfl⟩

theorem titles_of_alice :
    ∀ t ∈ (userWithEmail (some "alice@mail")).titles, TextPresent t := by
  intro t ht
  cases List.mem_singleton.mp ht
  decide

theorem login_of_alice_gets_tokens :
    ∃ tokens, (referenceConfiguration.postAccessToken (referenceServers.decode stateOfAlice) ∅
      stateOfAlice.server stateOfAlice.settings stateOfAlice.clock ⟨"1", "2"⟩ loginParameters
      webClient).1 = .ok tokens :=
  (password_request_succeeds_iff referenceConfiguration_documented referenceConfiguration_completes
    rfl).mpr ⟨eligible_webClient rfl rfl "password", "secret", userWithEmail (some "alice@mail"),
      rfl, rfl, by decide, rfl, titles_of_alice⟩

def clientParameters : RequestParameters :=
  (∅ : RequestParameters).put "grant_type" (some "client_credentials")

theorem client_of_alice_gets_no_token :
    (referenceConfiguration.postAccessToken (referenceServers.decode stateOfAlice) ∅
      stateOfAlice.server stateOfAlice.settings stateOfAlice.clock ⟨"1", "2"⟩ clientParameters
      webClient).1 = .error (.ofClass .classCast) :=
  (tokens_for_users_only referenceConfiguration_documented
    referenceConfiguration_completes).2.1 _ _ rfl rfl rfl

theorem refresh_of_alice_gets_tokens :
    ∃ tokens, (referenceServers.postAccessToken loggedIn (refreshParametersOf "refresh 2") webClient
      ⟨"3", "4"⟩).1 = .ok tokens := by
  have hsome : (referenceServers.decode loggedIn "refresh 2").isSome = true := rfl
  obtain ⟨m, hm⟩ := Option.isSome_iff_exists.mp hsome
  refine (refresh_request_succeeds_iff referenceConfiguration_documented
    referenceConfiguration_completes JwtTokenStore.reference_reads
    ⟨stateOfAlice, _, initial_stateOfAlice, rfl⟩ rfl webClient ⟨"3", "4"⟩).mpr
    ⟨"refresh 2", m, "alice", userWithEmail (some "alice@mail"), rfl, hm, ?_, ?_, rfl, by decide,
      titles_of_alice, eligible_webClient rfl rfl "refresh_token"⟩
  · cases hm
    refine ⟨rfl, rfl, fun time htime => ?_, ⟨LinkedHashSet.ofList [.str "role_user"], rfl,
      fun x hx => ?_⟩, by decide⟩
    · cases htime
    · cases hx
  · cases hm
    rfl

end Contract
