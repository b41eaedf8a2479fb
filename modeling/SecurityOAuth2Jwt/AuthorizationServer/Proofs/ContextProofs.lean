import SecurityOAuth2Jwt.AuthorizationServer.Proofs.TokenRequestProofs

/-!
# Proofs: the security context after a token request

The context is written before Spring's factory runs, so it changes as soon as the token names an
active user whose authorities can be built, and it is not restored when the factory then fails.
-/

namespace AuthorizationServer

open Java Spring

namespace CustomOauth2RequestFactory

variable {f : CustomOauth2RequestFactory}

/-- A request for another client or an unknown one fails. -/
theorem createTokenRequest_fails (hf : f.Documented) (users : UserTable) (clients : ClientTable)
    (context : SecurityContext) (ps : RequestParameters) (client : ClientDetails)
    (h : ¬ SameClient ps client ∨ clients.find? client.clientId = none) :
    ∃ e, (f.createTokenRequest users clients context ps client).1 = .error e := by
  have hbase : ∀ context',
      ∃ e, f.base.createTokenRequest clients context' ps client = .error e := by
    intro context'
    by_cases hsame : SameClient ps client
    · have hunknown : clients.find? client.clientId = none := h.resolve_left fun hn => hn hsame
      obtain ⟨e, he, -⟩ := hf.base.unknown clients context' ps client hsame hunknown
      exact ⟨e, he⟩
    · obtain ⟨e, he, -⟩ := hf.base.mismatch clients context' ps client hsame
      exact ⟨e, he⟩
  by_cases hps : IsRefresh ps
  · cases huser : f.refreshedAuthentication users ps with
    | error e => exact ⟨e, by rw [createTokenRequest_of_not_refreshed hps huser]⟩
    | ok user =>
      rw [createTokenRequest_of_refreshed hps huser]
      exact hbase _
  · unfold createTokenRequest
    cases hgrant : ps.get "grant_type" with
    | none => exact ⟨_, rfl⟩
    | some grantType =>
      have hne : grantType ≠ "refresh_token" := by
        rintro rfl
        exact hps hgrant
      simp only [if_neg hne]
      exact hbase context

/-- Only a refresh request whose user can be authenticated changes the context. -/
theorem refreshed_of_context_ne {users : UserTable} {clients : ClientTable}
    {context : SecurityContext} {ps : RequestParameters} {client : ClientDetails}
    (hchanged : (f.createTokenRequest users clients context ps client).2 ≠ context) :
    IsRefresh ps ∧ ∃ user, f.refreshedAuthentication users ps = .ok user := by
  by_cases hps : IsRefresh ps
  · cases huser : f.refreshedAuthentication users ps with
    | error e =>
      rw [createTokenRequest_of_not_refreshed hps huser] at hchanged
      exact absurd rfl hchanged
    | ok user => exact ⟨hps, user, rfl⟩
  · exact absurd (createTokenRequest_context_of_not_refresh hps) hchanged

/-- The context changes only for a refresh request whose token can be read and names an active
stored user; it then holds the authentication of this user, also when the call fails, and whatever
the lifetime of the token and the client it was issued to. -/
theorem context_after_createTokenRequest (hf : f.Documented) (users : UserTable)
    (clients : ClientTable) (context : SecurityContext) (ps : RequestParameters)
    (client : ClientDetails) :
    let outcome := f.createTokenRequest users clients context ps client
    (∀ refreshToken authentication u authorities, IsRefresh ps →
      f.tokenStore.readRefreshToken (ps.get "refresh_token") = .ok refreshToken →
      f.tokenStore.readAuthenticationForRefreshToken refreshToken = .ok authentication →
      u ∈ users.rows → u.username = some authentication.getName → u.Active →
      u.getAuthorities f.spring = .ok authorities →
      outcome.2 = ⟨some (.user ⟨authentication.getName, none, some authorities.toList⟩)⟩) ∧
    (outcome.2 ≠ context → ∃ refreshToken authentication u authorities, IsRefresh ps ∧
      f.tokenStore.readRefreshToken (ps.get "refresh_token") = .ok refreshToken ∧
      f.tokenStore.readAuthenticationForRefreshToken refreshToken = .ok authentication ∧
      u ∈ users.rows ∧ u.username = some authentication.getName ∧ u.Active ∧
      u.getAuthorities f.spring = .ok authorities) ∧
    (¬ SameClient ps client ∨ clients.find? client.clientId = none →
      ∃ e, outcome.1 = .error e) := by
  refine ⟨?_, ?_, createTokenRequest_fails hf users clients context ps client⟩
  · intro refreshToken authentication u authorities hps htoken hauth hu hname hactive hl
    have huser := (refreshedAuthentication_ok_iff hf).mpr ⟨authentication.getName, u, authorities,
      tokenName_ok_iff.mpr ⟨refreshToken, authentication, htoken, hauth, rfl⟩,
      UserTable.findByUsername_of_mem hu hname, hactive, hl, rfl⟩
    rw [createTokenRequest_of_refreshed hps huser]
  · intro hchanged
    obtain ⟨hps, user, huser⟩ := refreshed_of_context_ne hchanged
    obtain ⟨name, u, authorities, hname, hfind, hactive, hl, -⟩ :=
      (refreshedAuthentication_ok_iff hf).mp huser
    obtain ⟨token, authentication, htoken, hauth, rfl⟩ := tokenName_ok_iff.mp hname
    exact ⟨token, authentication, u, authorities, hps, htoken, hauth,
      UserTable.mem_of_findByUsername hfind, UserTable.username_of_findByUsername hfind, hactive,
      hl⟩

end CustomOauth2RequestFactory

/-! Alice's expired token, issued to `client`, in the hands of another client. -/

def intruder : ClientDetails := ⟨"intruder", .ofList ["role_user"]⟩

def intruderContext : SecurityContext := ⟨some (.other 0)⟩

def tokenRequestOfIntruder (ps : RequestParameters) : Result TokenRequest × SecurityContext :=
  referenceFactory.createTokenRequest (usersOfAlice [⟨some "role_user", []⟩])
    ((∅ : ClientTable).put "intruder" intruder) intruderContext ps intruder

theorem context_of_intruder :
    (tokenRequestOfIntruder refreshParameters).2 =
      ⟨some (.user ⟨"alice", none, some [⟨"role_user"⟩]⟩)⟩ :=
  (CustomOauth2RequestFactory.context_after_createTokenRequest referenceFactory_documented
    (usersOfAlice [⟨some "role_user", []⟩]) ((∅ : ClientTable).put "intruder" intruder)
    intruderContext refreshParameters intruder).1 ⟨"token", some 0⟩ _
    (userNamed "alice" [⟨some "role_user", []⟩]) (.ofList [⟨"role_user"⟩]) rfl rfl rfl
    (List.mem_singleton.mpr rfl) rfl (by decide) rfl

/-- A call that fails on its `client_id` leaves alice in the context, and so does a successful call
with her expired token, which was issued to another client. -/
theorem context_of_intruder_holds_alice :
    (tokenRequestOfIntruder (refreshParameters.put "client_id" (some "client"))).1 =
      .error ⟨.invalidClient, some "Given client ID does not match authenticated client"⟩ ∧
    (tokenRequestOfIntruder (refreshParameters.put "client_id" (some "client"))).2 ≠
      intruderContext ∧
    (∃ request, (tokenRequestOfIntruder refreshParameters).1 = .ok request) ∧
    (tokenRequestOfIntruder refreshParameters).2 ≠ intruderContext :=
  ⟨rfl, by decide, ⟨_, rfl⟩, by decide⟩

end AuthorizationServer
