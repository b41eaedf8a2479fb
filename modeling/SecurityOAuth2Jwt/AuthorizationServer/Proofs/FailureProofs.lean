import SecurityOAuth2Jwt.Spring.Proofs.SecurityProofs
import SecurityOAuth2Jwt.AuthorizationServer.Proofs.TokenRequestProofs

/-!
# Proofs: how a token request fails

A token request is to end with an exception that the endpoint turns into a protocol error. This
depends on the `grant_type` parameter, on the flags of the stored user that the status check reads
before it rejects, and on the titles of an active one.
-/

namespace AuthorizationServer

open Java Spring Outcome

/-- The `OAuth2Exception`s, `ClientRegistrationException`s and `AuthenticationException`s. -/
def protocolExceptions : List ExceptionClass :=
  [.invalidToken, .invalidClient, .clientRegistration, .badCredentials, .usernameNotFound,
    .internalAuthenticationService] ++ statusExceptions

/-- The exception belongs to the protocol. -/
def IsProtocol (e : JavaException) : Prop := e.cls ∈ protocolExceptions

theorem not_isProtocol_nullPointer : ¬ IsProtocol (.ofClass .nullPointer) := by
  simp [IsProtocol, protocolExceptions, statusExceptions, JavaException.ofClass]

/-! ## What Spring does on a failing request -/

/-- The status checks in the order of `AccountStatusUserDetailsChecker`, with the given messages. -/
def checkInOrder (locked disabled accountExpired credentialsExpired : String) (u : SecurityUser) :
    Result Unit := do
  AccountStatusUserDetailsChecker.require u.isAccountNonLocked .locked locked
  AccountStatusUserDetailsChecker.require u.isEnabled .disabled disabled
  AccountStatusUserDetailsChecker.require u.isAccountNonExpired .accountExpired accountExpired
  AccountStatusUserDetailsChecker.require u.isCredentialsNonExpired .credentialsExpired
    credentialsExpired

/-- The factory with what a failing request tells about its parts. -/
structure CustomOauth2RequestFactory.FailsAsDocumented (f : CustomOauth2RequestFactory) : Prop
    extends f.Documented where
  checker_order : ∃ locked disabled accountExpired credentialsExpired, ∀ u,
    f.checker.check u = checkInOrder locked disabled accountExpired credentialsExpired u
  readRefreshToken_missing : ∃ e, f.tokenStore.readRefreshToken none = .error e
  readRefreshToken : ∀ value, ErrorsIn (fun e => e.cls = .invalidToken)
    (f.tokenStore.readRefreshToken value)
  readAuthentication : ∀ token, ErrorsIn (fun e => e.cls = .invalidToken)
    (f.tokenStore.readAuthenticationForRefreshToken token)
  /-- The grant type of the request is not looked at. -/
  base_returns : ∀ clients context ps client, SameClient ps client →
    (∃ details, clients.find? client.clientId = some details) →
    ∃ request, f.base.createTokenRequest clients context ps client = .ok request

/-! ## The stored user -/

/-- The status check meets no null flag before one that rejects the user. -/
def SecurityUser.StatusReadable (u : SecurityUser) : Prop :=
  u.accountLocked ≠ none ∧ (u.accountLocked = some false →
    u.enabled ≠ none ∧ (u.enabled = some true →
      u.accountExpired ≠ none ∧ (u.accountExpired = some false →
        u.credentialExpired ≠ none)))

instance (u : SecurityUser) : Decidable u.StatusReadable :=
  inferInstanceAs (Decidable (_ ∧ (_ → _ ∧ (_ → _ ∧ (_ → _)))))

/-- The row can be used for a request: its status can be read, and if the user is active, every
title has text. -/
structure SecurityUser.Usable (u : SecurityUser) : Prop where
  status : u.StatusReadable
  titles : u.Active → ∀ t ∈ u.titles, TextPresent t

theorem errorsIn_unbox_iff {flag : Option Bool} :
    ErrorsIn IsProtocol (unbox flag) ↔ flag ≠ none := by
  cases flag with
  | none => simp [unbox, not_isProtocol_nullPointer]
  | some b => simp [unbox]

/-- A negated flag is read without an exception of the virtual machine unless it is null. -/
theorem errorsIn_not_unbox_iff {flag : Option Bool} :
    ErrorsIn IsProtocol (do let b ← unbox flag; return !b : Result Bool) ↔ flag ≠ none := by
  rw [errorsIn_bind_iff, errorsIn_unbox_iff]
  simp

theorem errorsIn_require_iff {status : Result Bool} {cls : ExceptionClass} {message : String}
    (hcls : cls ∈ statusExceptions) :
    ErrorsIn IsProtocol (AccountStatusUserDetailsChecker.require status cls message) ↔
      ErrorsIn IsProtocol status := by
  have hprotocol : cls ∈ protocolExceptions := List.mem_append_right _ hcls
  rcases status with e | (- | -)
  · simp [AccountStatusUserDetailsChecker.require]
  · simpa [AccountStatusUserDetailsChecker.require, IsProtocol] using hprotocol
  · simp [AccountStatusUserDetailsChecker.require]

/-- The status check ends with a protocol exception, if with any, exactly when no null flag is met
before a rejecting one. -/
theorem errorsIn_checkInOrder_iff {locked disabled accountExpired credentialsExpired : String}
    {u : SecurityUser} :
    ErrorsIn IsProtocol (checkInOrder locked disabled accountExpired credentialsExpired u) ↔
      u.StatusReadable := by
  unfold checkInOrder SecurityUser.StatusReadable
  simp only [errorsIn_then_iff, AccountStatusUserDetailsChecker.require_ok_iff]
  rw [errorsIn_require_iff (by simp [statusExceptions]),
    errorsIn_require_iff (by simp [statusExceptions]),
    errorsIn_require_iff (by simp [statusExceptions]),
    errorsIn_require_iff (by simp [statusExceptions])]
  unfold SecurityUser.isAccountNonLocked SecurityUser.isEnabled SecurityUser.isAccountNonExpired
    SecurityUser.isCredentialsNonExpired
  simp only [errorsIn_not_unbox_iff, errorsIn_unbox_iff, not_unbox_ok_iff, unbox_ok_iff]

theorem errorsIn_addAuthority_iff {S : SpringSecurity} (hS : S.Documented)
    {set : LinkedHashSet GrantedAuthority} {title : Option String} :
    ErrorsIn IsProtocol (SecurityUser.addAuthority S set title) ↔ TextPresent title := by
  unfold SecurityUser.addAuthority
  rw [errorsIn_bind_iff]
  by_cases htext : TextPresent title
  · cases title with
    | none => exact htext.elim
    | some t => simp [hS.simple_text t htext, htext]
  · obtain ⟨e, he, hcls⟩ := hS.simple_no_text title htext
    simp [he, IsProtocol, hcls, htext, protocolExceptions, statusExceptions]

/-- The loop over the titles ends with a protocol exception, if with any, exactly when every title
has text: then it returns. -/
theorem errorsIn_foldlM_addAuthority_iff {S : SpringSecurity} (hS : S.Documented)
    {ts : List (Option String)} {set : LinkedHashSet GrantedAuthority} :
    ErrorsIn IsProtocol (ts.foldlM (SecurityUser.addAuthority S) set) ↔
      ∀ t ∈ ts, TextPresent t := by
  induction ts generalizing set with
  | nil => simp
  | cons t ts ih =>
    rw [List.foldlM_cons, errorsIn_bind_iff, errorsIn_addAuthority_iff hS, List.forall_mem_cons]
    refine and_congr_right fun htext => ?_
    cases t with
    | none => exact htext.elim
    | some t =>
      have hadd : SecurityUser.addAuthority S set (some t) = .ok (set.add ⟨t⟩) :=
        (SecurityUser.addAuthority_ok_iff hS).mpr ⟨t, rfl, htext, rfl⟩
      constructor
      · intro h
        exact ih.mp (h _ hadd)
      · intro h set' _
        exact ih.mpr h

theorem errorsIn_getAuthorities_iff {S : SpringSecurity} (hS : S.Documented) {u : SecurityUser} :
    ErrorsIn IsProtocol (u.getAuthorities S) ↔ ∀ t ∈ u.titles, TextPresent t := by
  rw [SecurityUser.getAuthorities_eq]
  exact errorsIn_foldlM_addAuthority_iff hS

namespace CustomOauth2RequestFactory

variable {f : CustomOauth2RequestFactory} (hf : f.FailsAsDocumented) {users : UserTable}
  {clients : ClientTable} {context : SecurityContext} {ps : RequestParameters}
  {client : ClientDetails}

include hf

/-! ## A refresh request -/

theorem errorsIn_loadUserByUsername_iff {name : String} :
    ErrorsIn IsProtocol (loadUserByUsername f.checker users name) ↔
      ∀ u, users.findByUsername name = some u → u.StatusReadable := by
  obtain ⟨locked, disabled, accountExpired, credentialsExpired, hchecker⟩ := hf.checker_order
  unfold loadUserByUsername
  cases users.findByUsername name with
  | none => simp [IsProtocol, protocolExceptions]
  | some u =>
    have hcheck : ErrorsIn IsProtocol (f.checker.check u) ↔ u.StatusReadable := by
      rw [hchecker]
      exact errorsIn_checkInOrder_iff
    simp only [errorsIn_then_iff, hcheck, Outcome.pure_eq_ok, errorsIn_ok, implies_true, and_true,
      Option.some.injEq, forall_eq']

/-- A token that cannot be read is a protocol error. -/
theorem errorsIn_tokenName (value : Option String) :
    ErrorsIn IsProtocol (tokenName f.tokenStore value) := by
  have hprotocol : ∀ e : JavaException, e.cls = .invalidToken → IsProtocol e := by
    intro e he
    simp [IsProtocol, he, protocolExceptions]
  unfold tokenName
  refine errorsIn_bind_iff.mpr ⟨fun e he => hprotocol e (hf.readRefreshToken _ e he), ?_⟩
  intro refreshToken _
  refine errorsIn_bind_iff.mpr ⟨fun e he => hprotocol e (hf.readAuthentication _ e he), ?_⟩
  intro authentication _
  exact errorsIn_ok _

/-- A refresh request gets past its user with no exception but one of the protocol exactly when the
row of that user, if there is one, is usable. -/
theorem errorsIn_refreshedAuthentication_iff :
    ErrorsIn IsProtocol (f.refreshedAuthentication users ps) ↔
      ∀ name u, tokenName f.tokenStore (ps.get "refresh_token") = .ok name →
        users.findByUsername name = some u → u.Usable := by
  rw [refreshedAuthentication_eq, errorsIn_bind_iff]
  simp only [errorsIn_bind_iff, errorsIn_loadUserByUsername_iff hf,
    errorsIn_getAuthorities_iff hf.spring, loadUserByUsername_ok_iff hf.checker,
    Outcome.pure_eq_ok, errorsIn_ok, implies_true, and_true, errorsIn_tokenName hf, true_and]
  constructor
  · intro h name u hname hu
    obtain ⟨hstatus, htitles⟩ := h name hname
    exact ⟨hstatus u hu, fun hactive => htitles u ⟨hu, hactive⟩⟩
  · intro h name hname
    exact ⟨fun u hu => (h name u hname hu).status,
      fun u hu => (h name u hname hu.1).titles hu.2⟩

/-! ## Spring's factory -/

theorem base_ok_iff :
    (∃ request, f.base.createTokenRequest clients context ps client = .ok request) ↔
      SameClient ps client ∧ ∃ details, clients.find? client.clientId = some details := by
  constructor
  · rintro ⟨request, h⟩
    exact hf.base.client_of_ok h
  · rintro ⟨hclient, hdetails⟩
    exact hf.base_returns clients context ps client hclient hdetails

theorem errorsIn_base :
    ErrorsIn IsProtocol (f.base.createTokenRequest clients context ps client) := by
  intro e he
  by_cases hclient : SameClient ps client
  · cases hdetails : clients.find? client.clientId with
    | none =>
      obtain ⟨e', he', hcls⟩ := hf.base.unknown clients context ps client hclient hdetails
      rw [he'] at he
      cases he
      simp [IsProtocol, hcls, protocolExceptions]
    | some details =>
      obtain ⟨request, h⟩ := hf.base_returns clients context ps client hclient ⟨details, hdetails⟩
      rw [h] at he
      cases he
  · obtain ⟨e', he', hcls⟩ := hf.base.mismatch clients context ps client hclient
    rw [he'] at he
    cases he
    simp [IsProtocol, hcls, protocolExceptions]

omit hf in
theorem createTokenRequest_of_not_refresh {grantType : String}
    (hgrant : ps.get "grant_type" = some grantType) (hps : ¬ IsRefresh ps) :
    (f.createTokenRequest users clients context ps client).1 =
      f.base.createTokenRequest clients context ps client := by
  have hne : grantType ≠ "refresh_token" := by
    rintro rfl
    exact hps hgrant
  simp only [createTokenRequest, hgrant, if_neg hne]

/-! ## The request -/

/-- The request is to be rejected: its client is another one or unknown, or its refresh token is
missing or cannot be read, or does not belong to an active stored user. -/
def Rejected (f : CustomOauth2RequestFactory) (users : UserTable) (clients : ClientTable)
    (ps : RequestParameters) (client : ClientDetails) : Prop :=
  ¬ SameClient ps client ∨ clients.find? client.clientId = none ∨
    (IsRefresh ps ∧ (ps.get "refresh_token" = none ∨
      (∃ e, tokenName f.tokenStore (ps.get "refresh_token") = .error e) ∨
      ∃ name, tokenName f.tokenStore (ps.get "refresh_token") = .ok name ∧
        ∀ u, users.findByUsername name = some u → ¬ u.Active))

/-- Every failure is a protocol exception, and the requests that fail are those to be rejected. -/
structure FailsByProtocol (f : CustomOauth2RequestFactory) (users : UserTable)
    (clients : ClientTable) (context : SecurityContext) (ps : RequestParameters)
    (client : ClientDetails) : Prop where
  protocol : ErrorsIn IsProtocol (f.createTokenRequest users clients context ps client).1
  throws_iff : (∃ e, (f.createTokenRequest users clients context ps client).1 = .error e) ↔
    Rejected f users clients ps client

theorem not_rejected_iff :
    ¬ Rejected f users clients ps client ↔
      SameClient ps client ∧ (∃ details, clients.find? client.clientId = some details) ∧
        (IsRefresh ps → ∃ name u, tokenName f.tokenStore (ps.get "refresh_token") = .ok name ∧
          users.findByUsername name = some u ∧ u.Active) := by
  unfold Rejected
  rw [not_or, not_or, not_not, not_and, ← ne_eq, Option.ne_none_iff_exists']
  refine and_congr_right fun _ => and_congr_right fun _ => forall_congr' fun _ => ?_
  cases htoken : tokenName f.tokenStore (ps.get "refresh_token") with
  | error e => simp
  | ok name =>
    have hpresent : ps.get "refresh_token" ≠ none := by
      intro hmissing
      obtain ⟨e, he⟩ := hf.readRefreshToken_missing
      simp only [tokenName, hmissing, he, Outcome.error_bind] at htoken
      cases htoken
    simp [hpresent]

/-- A request with a grant type, whose user is usable if it is a refresh, returns exactly when it is
not to be rejected. -/
theorem createTokenRequest_ok_iff {grantType : String}
    (hgrant : ps.get "grant_type" = some grantType)
    (husable : IsRefresh ps → ∀ name u, tokenName f.tokenStore (ps.get "refresh_token") = .ok name →
      users.findByUsername name = some u → u.Usable) :
    (∃ request, (f.createTokenRequest users clients context ps client).1 = .ok request) ↔
      ¬ Rejected f users clients ps client := by
  rw [not_rejected_iff hf]
  by_cases hps : IsRefresh ps
  · cases huser : f.refreshedAuthentication users ps with
    | error e =>
      have hnone : ¬ ∃ name u, tokenName f.tokenStore (ps.get "refresh_token") = .ok name ∧
          users.findByUsername name = some u ∧ u.Active := by
        rintro ⟨name, u, hname, hu, hactive⟩
        have htitles := (husable hps name u hname hu).titles hactive
        obtain ⟨authorities, hauthorities⟩ :=
          (SecurityUser.getAuthorities_returns_iff hf.spring).mpr htitles
        have hreturns := (refreshedAuthentication_ok_iff hf.toDocumented).mpr
          ⟨name, u, authorities, hname, hu, hactive, hauthorities, rfl⟩
        rw [huser] at hreturns
        cases hreturns
      rw [createTokenRequest_of_not_refreshed hps huser]
      constructor
      · rintro ⟨request, h⟩
        cases h
      · rintro ⟨-, -, hactive⟩
        exact absurd (hactive hps) hnone
    | ok user =>
      obtain ⟨name, u, authorities, hname, hu, hactive, -, -⟩ :=
        (refreshedAuthentication_ok_iff hf.toDocumented).mp huser
      rw [createTokenRequest_of_refreshed hps huser]
      have hsome : ∃ name u, tokenName f.tokenStore (ps.get "refresh_token") = .ok name ∧
        users.findByUsername name = some u ∧ u.Active := ⟨name, u, hname, hu, hactive⟩
      simp only [base_ok_iff hf, hsome, implies_true, and_true]
  · rw [createTokenRequest_of_not_refresh hgrant hps]
    simp only [base_ok_iff hf, hps, false_implies, and_true]

end CustomOauth2RequestFactory

/-! The refresh of alice's token, and the requests that end with an exception of another kind. -/

/-- The store of alice's token rejects every other value. -/
def strictStore : TokenStore where
  readRefreshToken
    | some "token" => .ok ⟨"token", some 0⟩
    | _ => .error ⟨.invalidToken, some "Cannot convert access token to JSON"⟩
  readAuthenticationForRefreshToken := storeOfAlice.readAuthenticationForRefreshToken

def strictFactory : CustomOauth2RequestFactory :=
  { referenceFactory with tokenStore := strictStore }

theorem strictFactory_failsAsDocumented : strictFactory.FailsAsDocumented where
  spring := SpringSecurity.reference_documented
  checker := AccountStatusUserDetailsChecker.reference_documented
  base := DefaultOAuth2RequestFactory.reference_documented _ _
  checker_order := ⟨_, _, _, _, fun _ => rfl⟩
  readRefreshToken_missing := ⟨_, rfl⟩
  readRefreshToken value := by
    intro e he
    simp only [strictFactory, strictStore] at he
    split at he
    · cases he
    · cases he
      rfl
  readAuthentication token := errorsIn_ok _
  base_returns clients context ps client hclient := by
    rintro ⟨details, hdetails⟩
    simp only [strictFactory, referenceFactory, DefaultOAuth2RequestFactory.reference,
      if_pos hclient, hdetails]
    exact ⟨_, rfl⟩

def clientsOfAlice : ClientTable := (∅ : ClientTable).put "client" registeredClient

/-- A table with alice only, whose flag `enabled` is null. -/
def usersWithoutFlag : UserTable :=
  ⟨[{ userNamed "alice" [] with enabled := none }], by simp [userNamed]⟩

end AuthorizationServer
