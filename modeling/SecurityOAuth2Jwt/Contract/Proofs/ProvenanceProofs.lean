import SecurityOAuth2Jwt.Contract.Proofs.TokenGrantProofs

/-!
# Proofs: where a token comes from

A token is as good as the login behind it. Through any number of refreshes it stays with the user
and the client of the login, and it has no scope that the login was not granted: what the client may
have for whoever was in the security context then.
-/

namespace Contract

open Java Spring AuthorizationServer ResourceServer

section Provenance

variable {Y : Servers}

/-- The scope was granted to a login: it was requested, the context permitted it, and the client had
it. -/
def ScopeGranted (A : OAuth2Configuration) (s : ServerState) (ps : RequestParameters)
    (client : ClientDetails) (scope : String) : Prop :=
  ∃ details, s.clients.find? client.clientId = some details ∧
    scope ∈ permittedIn A s.context (requestedScopes A.base.parseParameterList details ps) ∧
    (details.scope = ∅ ∨ scope ∈ details.scope)

/-- The claims are for the user and the client of the login, with some of its scopes. -/
structure Attributed (A : OAuth2Configuration) (s : ServerState) (ps : RequestParameters)
    (client : ClientDetails) (m : ClaimsMap) : Prop where
  username : m.find? Claim.username = some (.str ps.username)
  clientId : m.find? Claim.clientId = some (.str client.clientId)
  scope : ∃ scope : LinkedHashSet Elem, m.find? Claim.scope = some (.ofSet scope) ∧
    ∀ x ∈ scope, ∃ t, x = .str t ∧ ScopeGranted A s ps client t

/-- The run has a login that the claims go back to. -/
def FromLogin (Y : Servers) (s : ServersState) (es : List ServersEvent) (m : ClaimsMap) : Prop :=
  ∃ pre ps client ids tokens post, es = pre ++ .requestToken ps client ids :: post ∧
    (Y.postAccessToken (Y.machine.run s pre) ps client ids).1 = .ok tokens ∧
    ps.get "grant_type" = some "password" ∧
    Attributed Y.authorizationServer (Y.machine.run s pre).server ps client m

theorem FromLogin.append {s : ServersState} {es : List ServersEvent} {m : ClaimsMap}
    (h : FromLogin Y s es m) (es' : List ServersEvent) : FromLogin Y s (es ++ es') m := by
  obtain ⟨pre, ps, client, ids, tokens, post, rfl, hlogin⟩ := h
  refine ⟨pre, ps, client, ids, tokens, post ++ es', ?_, hlogin⟩
  rw [List.append_assoc, List.cons_append]

/-- Claims for the same user and client, with no more scopes, go back to the same login. -/
theorem FromLogin.narrow {s : ServersState} {es : List ServersEvent} {m m' : ClaimsMap}
    (h : FromLogin Y s es m) {name clientId : String} {scope scope' : LinkedHashSet Elem}
    (hm : UserClaims m clientId scope) (hm' : UserClaims m' clientId scope')
    (hname : m.find? Claim.username = some (.str name))
    (hname' : m'.find? Claim.username = some (.str name)) (hscope : ∀ x ∈ scope', x ∈ scope) :
    FromLogin Y s es m' := by
  obtain ⟨pre, ps, client, ids, tokens, post, hes, houtcome, hpassword, husername, hclientId,
    scope₀, hscope₀, hgranted⟩ := h
  refine ⟨pre, ps, client, ids, tokens, post, hes, houtcome, hpassword, ?_, ?_, scope', hm'.scope,
    fun x hx => hgranted x ?_⟩
  · rw [hname', ← hname]
    exact husername
  · rw [hm'.clientId, ← hm.clientId]
    exact hclientId
  · rw [hm.scope] at hscope₀
    have hmem : x ∈ scope.toList := hscope x hx
    rw [JavaValue.coll.inj (Option.some.inj hscope₀)] at hmem
    exact hmem

variable (hA : Y.authorizationServer.Documented) (hC : Y.authorizationServer.Completes)

include hA hC

section Granted

variable {decode : String → Option ClaimsMap} {server : ServerState}
  {settings : ClientSettingsTable} {issued : Int64} {ids : TokenIds} {ps : RequestParameters}
  {client : ClientDetails} {tokens : IssuedTokens} {name : String} {u : SecurityUser}
  {row : ClientSettings} {a : OAuth2Authentication SecurityUser}
  (hgranted : Granted Y.authorizationServer decode server settings issued ids ps client tokens name
    u row a)

include hgranted

/-- The scopes of a login are granted to it. -/
theorem Granted.scopes_of_password (hpassword : ps.get "grant_type" = some "password") :
    ∀ x ∈ a.storedRequest.scope, ∃ t, x = .str t ∧
      ScopeGranted Y.authorizationServer server ps client t := by
  intro x hx
  obtain ⟨request, hrequest, hgrant⟩ := hgranted.request
  rw [createTokenRequest_of_password hpassword] at hrequest
  obtain ⟨-, hid, htype⟩ := (springFactory_keepsParameters hA).kept _ _ _ _ _ hrequest
  rw [hpassword] at htype
  obtain ⟨-, ⟨details, hdetails, -, hvalid⟩, -⟩ := hC.endpoint.only _ _ _ _ hgrant htype
  obtain ⟨t, ht, rfl⟩ := hC.endpoint.passwordScopes _ _ _ hgrant htype x hx
  rw [hid] at hdetails
  have hscopes :=
    (springFactory_createsRequests hC).scopes _ _ _ _ _ _ hdetails hrequest
  refine ⟨t, rfl, details, hdetails, (hscopes t).mp ht, ?_⟩
  rcases hvalid with hempty | hall
  · exact Or.inl hempty
  · exact Or.inr (hall t ht)

/-- The tokens of a refresh are for the user and the client of the refresh token, with no more
scopes. -/
theorem Granted.claims_of_refresh (hW : Y.authorizationServer.tokenStore.Reads)
    (hsigned : ∀ value m, decode value = some m → ∃ clientId scope, UserClaims m clientId scope)
    (hrefresh : ps.get "grant_type" = some "refresh_token") :
    ∃ value m scope, decode value = some m ∧ UserClaims m client.clientId scope ∧
      m.find? Claim.username = some (.str name) ∧ ∀ x ∈ a.storedRequest.scope, x ∈ scope := by
  obtain ⟨request, hrequest, hgrant⟩ := hgranted.request
  obtain ⟨hps, hid, htype⟩ := createTokenRequest_ok hA hrequest
  rw [hrefresh] at htype
  obtain ⟨value, m, clientId, scope, name', stored, hvalue, hback, hallowed⟩ :=
    readBack_of_grant hA hC hW hsigned hgrant htype
  rw [hps] at hvalue
  -- the token names the user, and its client is the one of the request
  have hname : m.find? Claim.username = some (.str name) := by
    rcases hgranted.authorized with ⟨hpassword, -⟩ | ⟨-, value', m', hvalue', hm', -, hname⟩
    · rw [hrefresh] at hpassword
      exact absurd hpassword (by decide)
    · rw [hvalue] at hvalue'
      cases hvalue'
      rw [hback.decoded] at hm'
      cases hm'
      exact hname
  have hclient := hallowed.client
  rw [hback.clientId, hid] at hclient
  cases hclient
  have hread := hback.token
  rw [← hvalue, ← hps] at hread
  exact ⟨value, m, scope, hback.decoded, hback.claims, hname, fun x hx => (hback.scope x).mp
    (hC.endpoint.refreshScopes _ _ _ _ _ hgrant htype hread hback.authentication x hx)⟩

end Granted

/-- In every run from an initial state, everything that is signed goes back to a login in the run:
it is for the user and the client of this login, and each of its scopes was one that the login
requested, that the context permitted and that the client had. -/
theorem token_traces_to_scoped_login (hW : Y.authorizationServer.tokenStore.Reads)
    {s : ServersState} (hs : Initial s) (es : List ServersEvent) :
    ∀ m ∈ (Y.machine.run s es).signed, FromLogin Y s es m := by
  -- a refresh is based on something signed earlier, to which the hypothesis applies
  induction es using List.reverseRecOn with
  | nil =>
    intro m hm
    have hempty : m ∈ s.signed := hm
    rw [hs.signed] at hempty
    cases hempty
  | append_singleton es e ih =>
    intro m hm
    rw [Y.machine.run_concat] at hm
    have hreachable : Reachable Y (Y.machine.run s es) := ⟨s, es, hs, rfl⟩
    rcases (hreachable.inv hA).mem_signed_step hA hm with
      hold | ⟨ps, client, ids, tokens, name, u, row, a, rfl, houtcome, hgranted, hnew⟩
    · exact (ih m hold).append _
    · have hclaims := hgranted.userClaims_signed hA hnew
      have hname := (hgranted.claimsOf_signed hA hnew).username
      rcases hgranted.authorized with ⟨hpassword, rfl, -⟩ | ⟨hrefresh, -⟩
      · exact ⟨es, ps, client, ids, tokens, [], rfl, houtcome, hpassword, hname,
          hclaims.clientId, _, hclaims.scope, hgranted.scopes_of_password hA hC hpassword⟩
      · obtain ⟨value, m', scope, hm', hclaims', hname', hscope⟩ :=
          hgranted.claims_of_refresh hA hC hW (fun value m' hm' =>
            hreachable.userClaims hA m' (decode_eq_some hm').1) hrefresh
        have hlogin := (ih m' (decode_eq_some hm').1).append [.requestToken ps client ids]
        exact hlogin.narrow hclaims' hclaims hname' hname hscope

end Provenance

/-! The token that alice gets for her refresh token. -/

theorem refreshed_token_of_alice_traces_to_scoped_login :
    ∃ m, referenceServers.decode (referenceServers.machine.run stateOfAlice runOfAlice)
        "access 3" = some m ∧ FromLogin referenceServers stateOfAlice runOfAlice m := by
  have hsome : (referenceServers.decode (referenceServers.machine.run stateOfAlice runOfAlice)
      "access 3").isSome = true := rfl
  obtain ⟨m, hm⟩ := Option.isSome_iff_exists.mp hsome
  exact ⟨m, hm, token_traces_to_scoped_login referenceConfiguration_documented
    referenceConfiguration_completes JwtTokenStore.reference_reads initial_stateOfAlice runOfAlice m
    (decode_eq_some hm).1⟩

end Contract
