import SecurityOAuth2Jwt.Common.Entitlement
import SecurityOAuth2Jwt.Common.Refinement
import SecurityOAuth2Jwt.AuthorizationServer.CustomOauth2RequestFactory
import SecurityOAuth2Jwt.AuthorizationServer.Proofs.SecurityUserProofs
import SecurityOAuth2Jwt.AuthorizationServer.Proofs.UserServiceProofs

/-!
# Proofs: refresh requests

A refresh request goes by the row that the store has for the user at that moment. The server refines
the issuer that grants what the registry of the moment permits.
-/

namespace AuthorizationServer

open Java Spring

/-- The request asks for a refresh. -/
def IsRefresh (ps : RequestParameters) : Prop := ps.get "grant_type" = some "refresh_token"

instance (ps : RequestParameters) : Decidable (IsRefresh ps) :=
  inferInstanceAs (Decidable (ps.get "grant_type" = some "refresh_token"))

/-- The name in a refresh token, if the token and its authentication can be read. -/
def tokenName (store : TokenStore) (value : Option String) : Result String := do
  let refreshToken ← store.readRefreshToken value
  let authentication ← store.readAuthenticationForRefreshToken refreshToken
  return authentication.getName

theorem tokenName_ok_iff {store : TokenStore} {value : Option String} {name : String} :
    tokenName store value = .ok name ↔
      ∃ refreshToken authentication, store.readRefreshToken value = .ok refreshToken ∧
        store.readAuthenticationForRefreshToken refreshToken = .ok authentication ∧
        authentication.getName = name := by
  unfold tokenName
  simp only [Outcome.bind_eq_ok, Outcome.pure_eq_ok, Except.ok.injEq]
  constructor
  · rintro ⟨token, ht, authentication, ha, hname⟩
    exact ⟨token, authentication, ht, ha, hname⟩
  · rintro ⟨token, authentication, ht, ha, hname⟩
    exact ⟨token, ht, authentication, ha, hname⟩

namespace CustomOauth2RequestFactory

variable {f : CustomOauth2RequestFactory} {users : UserTable} {clients : ClientTable}
  {context : SecurityContext} {ps : RequestParameters} {client : ClientDetails}

/-! ## One request -/

/-- Of the token, a refresh request uses the name only. -/
theorem refreshedAuthentication_eq :
    f.refreshedAuthentication users ps = (do
      let name ← tokenName f.tokenStore (ps.get "refresh_token")
      let u ← loadUserByUsername f.checker users name
      let authorities ← u.getAuthorities f.spring
      return f.spring.usernamePasswordAuthenticationToken name none
        (some authorities.toList)) := by
  unfold refreshedAuthentication tokenName
  cases f.tokenStore.readRefreshToken (ps.get "refresh_token") with
  | error e => rfl
  | ok token =>
    simp only [Outcome.ok_bind]
    cases f.tokenStore.readAuthenticationForRefreshToken token with
    | error e => rfl
    | ok authentication => rfl

/-- The authentication of a refresh request is that of an active stored user. -/
theorem refreshedAuthentication_ok_iff (hf : f.Documented) {user : UserAuthentication String} :
    f.refreshedAuthentication users ps = .ok user ↔
      ∃ name u authorities, tokenName f.tokenStore (ps.get "refresh_token") = .ok name ∧
        users.findByUsername name = some u ∧ u.Active ∧
        u.getAuthorities f.spring = .ok authorities ∧
        user = ⟨name, none, some authorities.toList⟩ := by
  rw [refreshedAuthentication_eq]
  simp only [Outcome.bind_eq_ok, hf.spring.userToken]
  constructor
  · rintro ⟨name, hname, u, hu, authorities, hl, huser⟩
    obtain ⟨hfind, hactive⟩ := (loadUserByUsername_ok_iff hf.checker).mp hu
    cases huser
    exact ⟨name, u, authorities, hname, hfind, hactive, hl, rfl⟩
  · rintro ⟨name, u, authorities, hname, hfind, hactive, hl, rfl⟩
    exact ⟨name, hname, u, (loadUserByUsername_ok_iff hf.checker).mpr ⟨hfind, hactive⟩, authorities,
      hl, rfl⟩

/-- A refresh request whose user can be authenticated runs Spring's factory as this user. -/
theorem createTokenRequest_of_refreshed (hps : IsRefresh ps) {user : UserAuthentication String}
    (huser : f.refreshedAuthentication users ps = .ok user) :
    f.createTokenRequest users clients context ps client =
      (f.base.createTokenRequest clients ⟨some (.user user)⟩ ps client, ⟨some (.user user)⟩) := by
  unfold IsRefresh at hps
  simp only [createTokenRequest, hps, if_true, huser]

/-- A refresh request whose user cannot be authenticated fails and leaves the context alone. -/
theorem createTokenRequest_of_not_refreshed (hps : IsRefresh ps) {e : JavaException}
    (he : f.refreshedAuthentication users ps = .error e) :
    f.createTokenRequest users clients context ps client = (.error e, context) := by
  unfold IsRefresh at hps
  simp only [createTokenRequest, hps, if_true, he]

/-- Any other request leaves the context alone. -/
theorem createTokenRequest_context_of_not_refresh (hps : ¬ IsRefresh ps) :
    (f.createTokenRequest users clients context ps client).2 = context := by
  unfold IsRefresh at hps
  unfold createTokenRequest
  cases hgrant : ps.get "grant_type" with
  | none => rfl
  | some grantType =>
    have hne : grantType ≠ "refresh_token" := by
      rintro rfl
      exact hps hgrant
    simp only [if_neg hne]

/-- A successful refresh request belongs to an active stored user, and its scopes are the requested
ones that a title of the user stands for. -/
theorem createTokenRequest_refresh_ok (hf : f.Documented) (hps : IsRefresh ps)
    {request : TokenRequest}
    (h : (f.createTokenRequest users clients context ps client).1 = .ok request) :
    ∃ name u details, tokenName f.tokenStore (ps.get "refresh_token") = .ok name ∧
      users.findByUsername name = some u ∧ u.Active ∧
      clients.find? client.clientId = some details ∧
      ∀ scope, scope ∈ request.scope ↔
        scope ∈ requestedScopes f.base.parseParameterList details ps ∧
          ∃ t ∈ standsFor f.base.toUpperCase scope, some t ∈ u.titles := by
  cases huser : f.refreshedAuthentication users ps with
  | error e =>
    rw [createTokenRequest_of_not_refreshed hps huser] at h
    cases h
  | ok user =>
    rw [createTokenRequest_of_refreshed hps huser] at h
    obtain ⟨name, u, authorities, hname, hfind, hactive, hl, rfl⟩ :=
      (refreshedAuthentication_ok_iff hf).mp huser
    obtain ⟨hclient, details, hdetails⟩ := hf.base.client_of_ok h
    obtain ⟨request', hrequest, hscope⟩ :=
      hf.base.user_scopes clients _ ps client details hclient hdetails
    rw [hrequest] at h
    cases h
    refine ⟨name, u, details, hname, hfind, hactive, hdetails, fun scope => ?_⟩
    rw [hscope]
    -- the factory reads the authorities of the context, which are the titles of the row
    have hauthority : ∀ t, ⟨t⟩ ∈ authorities.toList ↔ some t ∈ u.titles := fun t =>
      SecurityUser.mem_getAuthorities hf.spring hl
    simp only [Option.getD_some, hauthority]

/-- The outcome of a refresh request depends neither on the context nor on anything in the token but
the name. -/
theorem createTokenRequest_refresh_congr (hps : IsRefresh ps) {context' : SecurityContext}
    {store : TokenStore}
    (hstore : ∀ value, tokenName store value = tokenName f.tokenStore value) :
    ({ f with tokenStore := store }.createTokenRequest users clients context' ps client).1 =
      (f.createTokenRequest users clients context ps client).1 := by
  have huser : { f with tokenStore := store }.refreshedAuthentication users ps =
      f.refreshedAuthentication users ps := by
    rw [refreshedAuthentication_eq, refreshedAuthentication_eq, hstore]
  cases hres : f.refreshedAuthentication users ps with
  | error e =>
    rw [createTokenRequest_of_not_refreshed hps hres,
      createTokenRequest_of_not_refreshed hps (huser.trans hres)]
  | ok user =>
    rw [createTokenRequest_of_refreshed hps hres,
      createTokenRequest_of_refreshed hps (huser.trans hres)]

end CustomOauth2RequestFactory

/-! ## The server refines the issuer -/

/-- The registry behind a user table: the titles of the active users. -/
def registryOf (users : UserTable) : Entitlement.Registry String String := fun name =>
  (users.findByUsername name).bind fun u => if u.Active then some {t | some t ∈ u.titles} else none

theorem registryOf_eq_some {users : UserTable} {name : String} {titles : Set String} :
    registryOf users name = some titles ↔
      ∃ u, users.findByUsername name = some u ∧ u.Active ∧ titles = {t | some t ∈ u.titles} := by
  unfold registryOf
  rw [Option.bind_eq_some_iff]
  constructor
  · rintro ⟨u, hu, h⟩
    by_cases hactive : u.Active
    · rw [if_pos hactive] at h
      cases h
      exact ⟨u, hu, hactive, rfl⟩
    · rw [if_neg hactive] at h
      cases h
  · rintro ⟨u, hu, hactive, rfl⟩
    exact ⟨u, hu, if_pos hactive⟩

/-- What a server event is for the issuer. -/
def issuerEvent (f : CustomOauth2RequestFactory) (s : ServerState) :
    ServerEvent → Entitlement.Event String String String
  | .changeUsers users => .change (registryOf users)
  | .changeClients _ => .request none ∅
  | .leaveContext _ => .request none ∅
  | .tokenRequest ps client =>
    .request (tokenName f.tokenStore (ps.get "refresh_token")).toOption
      {scope | ∃ details, s.clients.find? client.clientId = some details ∧
        scope ∈ requestedScopes f.base.parseParameterList details ps}

/-- A successful refresh is answered with the grant of the issuer. -/
def RefreshGranted (e : ServerEvent) (output : Option (Result TokenRequest))
    (grant : Option (Set String)) : Prop :=
  ∀ ps client request, e = .tokenRequest ps client → IsRefresh ps → output = some (.ok request) →
    grant = some {scope | scope ∈ request.scope}

/-- The titles that stand for a scope. -/
def scopeTitles (f : CustomOauth2RequestFactory) (scope : String) : Set String :=
  {t | t ∈ standsFor f.base.toUpperCase scope}

/-- The issuer of scopes to holders and titles that are strings. -/
def scopeIssuer (f : CustomOauth2RequestFactory) :
    Machine (Entitlement.Registry String String) (Entitlement.Event String String String)
      (Option (Set String)) :=
  Entitlement.issuer (scopeTitles f)

/-- The server refines the issuer, with the registry behind its user table. It does so from every
state. -/
def serverRefinesIssuer {f : CustomOauth2RequestFactory} (hf : f.Documented) :
    Machine.Refinement (server f) (scopeIssuer f) where
  Inv _ := True
  abs s := registryOf s.users
  event := issuerEvent f
  Out := RefreshGranted
  inv_step _ _ _ := trivial
  state_step s e _ := by
    cases e with
    | changeUsers users => rfl
    | changeClients clients => rfl
    | leaveContext context => rfl
    | tokenRequest ps client => rfl
  out_step s e _ := by
    rintro ps client request rfl hps hout
    have hok : (f.createTokenRequest s.users s.clients s.context ps client).1 = .ok request :=
      Option.some.inj hout
    obtain ⟨name, u, details, hname, hfind, hactive, hdetails, hscope⟩ :=
      CustomOauth2RequestFactory.createTokenRequest_refresh_ok hf hps hok
    refine Entitlement.issuer_output_eq_some.mpr
      ⟨name, {t | some t ∈ u.titles}, ?_, registryOf_eq_some.mpr ⟨u, hfind, hactive, rfl⟩, ?_⟩
    · rw [hname]
      rfl
    · ext scope
      refine (hscope scope).trans (and_congr_left fun _ => ?_)
      constructor
      · intro hrequested
        exact ⟨details, hdetails, hrequested⟩
      · rintro ⟨details', hdetails', hrequested⟩
        rw [hdetails] at hdetails'
        cases hdetails'
        exact hrequested

/-! ## Runs of the server -/

section Runs

variable {f : CustomOauth2RequestFactory} (hf : f.Documented) {s : ServerState}
  {es : List ServerEvent}
  {x : Machine.Entry ServerState ServerEvent (Option (Result TokenRequest))}
  (hx : x ∈ (server f).trace s es) {ps : RequestParameters} {client : ClientDetails}
  (hevent : x.event = .tokenRequest ps client) (hps : IsRefresh ps)

include hx hevent

theorem output_of_tokenRequest :
    x.output = some (f.createTokenRequest x.before.users x.before.clients x.before.context ps
      client).1 := by
  obtain ⟨-, -, -, -, hout⟩ := (server f).mem_trace hx
  rw [hout, hevent]
  rfl

include hf hps

/-- In every run, the scopes of a successful refresh are the grant of that moment's registry. -/
theorem refresh_scopes_eq_granted {request : TokenRequest} (hok : x.output = some (.ok request)) :
    ∃ name titles, tokenName f.tokenStore (ps.get "refresh_token") = .ok name ∧
      registryOf x.before.users name = some titles ∧
      {scope | scope ∈ request.scope} = Entitlement.granted (scopeTitles f) titles
        {scope | ∃ details, x.before.clients.find? client.clientId = some details ∧
          scope ∈ requestedScopes f.base.parseParameterList details ps} := by
  obtain ⟨y, hy, hbefore, hyevent, hout⟩ := (serverRefinesIssuer hf).mem_trace trivial hx
  have hgrant : y.output = some {scope | scope ∈ request.scope} :=
    hout ps client request hevent hps hok
  have hrequest : y.event = issuerEvent f x.before (.tokenRequest ps client) := by
    rw [hyevent, hevent]
    rfl
  obtain ⟨name, titles, hname, htitles, hset⟩ :=
    Entitlement.issuer_run_sound hy hrequest hgrant
  refine ⟨name, titles, ?_, ?_, hset⟩
  · cases htoken : tokenName f.tokenStore (ps.get "refresh_token") with
    | error e =>
      rw [htoken] at hname
      cases hname
    | ok name' =>
      rw [htoken] at hname
      cases hname
      rfl
  · rw [hbefore] at htitles
    exact htitles

/-- A refresh yields what the user is entitled to at that moment: it succeeds only for an active
stored user, with those requested scopes that a title of the user's roles and permissions stands
for; neither the context before it nor the roles recorded in the token play any part. -/
theorem refresh_never_exceeds_entitlement :
    (∀ request, x.output = some (.ok request) →
      ∃ refreshToken authentication u details,
        f.tokenStore.readRefreshToken (ps.get "refresh_token") = .ok refreshToken ∧
        f.tokenStore.readAuthenticationForRefreshToken refreshToken = .ok authentication ∧
        u ∈ x.before.users.rows ∧ u.username = some authentication.getName ∧ u.Active ∧
        x.before.clients.find? client.clientId = some details ∧
        ∀ scope, scope ∈ request.scope ↔
          scope ∈ requestedScopes f.base.parseParameterList details ps ∧
            ∃ role ∈ u.roleSet, ∃ t ∈ standsFor f.base.toUpperCase scope,
              role.title = some t ∨
                ∃ permission ∈ role.permissionSet, permission.title = some t) ∧
    ∀ (context : SecurityContext) (store : TokenStore),
      (∀ value, tokenName store value = tokenName f.tokenStore value) →
      x.output = some ({ f with tokenStore := store }.createTokenRequest x.before.users
        x.before.clients context ps client).1 := by
  have hout := output_of_tokenRequest hx hevent
  constructor
  · intro request hok
    have hresult : (f.createTokenRequest x.before.users x.before.clients x.before.context ps
        client).1 = .ok request := Option.some.inj (hout.symm.trans hok)
    obtain ⟨name, u, details, hname, hfind, hactive, hdetails, hscope⟩ :=
      CustomOauth2RequestFactory.createTokenRequest_refresh_ok hf hps hresult
    obtain ⟨token, authentication, htoken, hauthentication, rfl⟩ := tokenName_ok_iff.mp hname
    refine ⟨token, authentication, u, details, htoken, hauthentication,
      UserTable.mem_of_findByUsername hfind, UserTable.username_of_findByUsername hfind, hactive,
      hdetails, fun scope => (hscope scope).trans (and_congr_right fun _ => ?_)⟩
    constructor
    · rintro ⟨t, ht, hmem⟩
      obtain ⟨role, hrole, htitle⟩ := SecurityUser.some_mem_titles.mp hmem
      exact ⟨role, hrole, t, ht, htitle⟩
    · rintro ⟨role, hrole, t, ht, htitle⟩
      exact ⟨t, ht, SecurityUser.some_mem_titles.mpr ⟨role, hrole, htitle⟩⟩
  · intro context store hstore
    rw [hout, CustomOauth2RequestFactory.createTokenRequest_refresh_congr hps hstore]

end Runs

/-- Of two refreshes of the same token for the same registered client, in any two runs, the one at
which the user has fewer titles yields fewer scopes. -/
theorem refresh_scopes_shrink {f : CustomOauth2RequestFactory} (hf : f.Documented)
    {s₁ s₂ : ServerState} {es₁ es₂ : List ServerEvent}
    {x y : Machine.Entry ServerState ServerEvent (Option (Result TokenRequest))}
    (hx : x ∈ (server f).trace s₁ es₁) (hy : y ∈ (server f).trace s₂ es₂)
    {ps : RequestParameters} {client : ClientDetails} (hxevent : x.event = .tokenRequest ps client)
    (hyevent : y.event = .tokenRequest ps client) (hps : IsRefresh ps)
    (hclient : y.before.clients.find? client.clientId = x.before.clients.find? client.clientId)
    (htitles : ∀ name titles titles', registryOf x.before.users name = some titles →
      registryOf y.before.users name = some titles' → titles' ⊆ titles)
    {request request' : TokenRequest} (hok : x.output = some (.ok request))
    (hok' : y.output = some (.ok request')) {scope : String} (hscope : scope ∈ request'.scope) :
    scope ∈ request.scope := by
  obtain ⟨name, titles, hname, hregistry, hset⟩ := refresh_scopes_eq_granted hf hx hxevent hps hok
  obtain ⟨name', titles', hname', hregistry', hset'⟩ :=
    refresh_scopes_eq_granted hf hy hyevent hps hok'
  rw [hname] at hname'
  cases hname'
  have hmono := @Entitlement.granted_mono _ _ (scopeTitles f) _ _
    (htitles name titles titles' hregistry hregistry')
    {scope | ∃ details, x.before.clients.find? client.clientId = some details ∧
      scope ∈ requestedScopes f.base.parseParameterList details ps}
  rw [← hset] at hmono
  apply hmono
  rw [hclient] at hset'
  rw [← hset']
  exact hscope

/-! A run in which alice loses a role before she refreshes a token issued with it. -/

def userNamed (name : String) (roles : List SecurityRole) : SecurityUser where
  username := some name
  password := some "secret"
  email := some "mail"
  accountExpired := some false
  accountLocked := some false
  credentialExpired := some false
  enabled := some true
  roleSet := roles

def usersOfAlice (roles : List SecurityRole) : UserTable :=
  ⟨[userNamed "alice" roles], by simp [userNamed]⟩

def registeredClient : ClientDetails := ⟨"client", .ofList ["role_admin", "role_user"]⟩

/-- Every token value is an expired token of alice, issued to the client with both roles. -/
def storeOfAlice : TokenStore where
  readRefreshToken value := .ok ⟨value.getD "", some 0⟩
  readAuthenticationForRefreshToken _ := .ok
    { storedRequest := SpringSecurity.reference.oauth2Request ∅ (some "client") none true ∅ ∅
      userAuthentication := some ⟨"alice", none, some [⟨"role_admin"⟩, ⟨"role_user"⟩]⟩ }

def referenceFactory : CustomOauth2RequestFactory where
  spring := .reference
  checker := .reference
  tokenStore := storeOfAlice
  base := .reference DefaultOAuth2RequestFactory.parseScopes
    fun s => String.ofList (s.toList.map Char.toUpper)

theorem referenceFactory_documented : referenceFactory.Documented where
  spring := SpringSecurity.reference_documented
  checker := AccountStatusUserDetailsChecker.reference_documented
  base := DefaultOAuth2RequestFactory.reference_documented _ _

def refreshParameters : RequestParameters :=
  ((∅ : RequestParameters).put "grant_type" (some "refresh_token")).put "refresh_token"
    (some "token")

def aliceRefreshes : List ServerEvent :=
  [.changeClients ((∅ : ClientTable).put "client" registeredClient),
    .changeUsers (usersOfAlice [⟨some "role_user", []⟩]),
    .leaveContext ⟨some (.other 0)⟩,
    .tokenRequest refreshParameters registeredClient]

def beforeRefresh : ServerState :=
  ⟨usersOfAlice [⟨some "role_admin", []⟩, ⟨some "role_user", []⟩], ∅, ⟨none⟩⟩

theorem refresh_of_alice_never_exceeds_entitlement :
    ∃ x ∈ (server referenceFactory).trace beforeRefresh aliceRefreshes,
      ∃ request, x.output = some (.ok request) ∧
        ∃ u ∈ x.before.users.rows, u.Active ∧
          ∀ scope ∈ request.scope, ∃ role ∈ u.roleSet,
            ∃ t ∈ standsFor referenceFactory.base.toUpperCase scope, role.title = some t ∨
              ∃ permission ∈ role.permissionSet, permission.title = some t := by
  obtain ⟨x, hx, hevent, request, hok⟩ :
      ∃ x ∈ (server referenceFactory).trace beforeRefresh aliceRefreshes,
        x.event = .tokenRequest refreshParameters registeredClient ∧
          ∃ request, x.output = some (.ok request) :=
    ⟨_, List.mem_of_getElem? (i := 3) rfl, rfl, _, rfl⟩
  obtain ⟨_, _, u, _, -, -, hu, -, hactive, -, hscope⟩ :=
    (refresh_never_exceeds_entitlement referenceFactory_documented hx hevent rfl).1 request hok
  exact ⟨x, hx, request, hok, u, hu, hactive, fun scope hmem => ((hscope scope).mp hmem).2⟩

end AuthorizationServer
