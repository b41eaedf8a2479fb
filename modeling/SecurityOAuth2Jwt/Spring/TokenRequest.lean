import SecurityOAuth2Jwt.Spring.Authentication

/-!
# Token requests: Spring's request factory, token store and security context

The default request factory and the token store are parameters of the model. Of the factory the
theorems use what it does for a user in the context, with the check of user scopes switched on.
-/

namespace Spring

open Java

/-- The parameters of a request to the token endpoint. -/
abbrev RequestParameters := JavaMap String (Option String)

/-- `requestParameters.get(key)`. -/
def RequestParameters.get (ps : RequestParameters) (k : String) : Option String :=
  (ps.find? k).join

structure ClientDetails where
  clientId : String
  scope : LinkedHashSet String

/-- The clients that `ClientDetailsService` knows, by id. -/
abbrev ClientTable := JavaMap String ClientDetails

structure TokenRequest where
  requestParameters : RequestParameters
  clientId : String
  scope : LinkedHashSet String
  grantType : Option String

/-- The authentication in a `SecurityContext`: a token of a user known by name, or any other. -/
inductive Authentication where
  | user (token : UserAuthentication String)
  | other (id : Nat)
  deriving DecidableEq, Repr

structure SecurityContext where
  authentication : Option Authentication
  deriving DecidableEq, Repr

structure RefreshToken where
  value : String
  expiration : Option Int64

/-- `TokenStore`, as far as refresh tokens go. -/
structure TokenStore where
  readRefreshToken : Option String → Result RefreshToken
  readAuthenticationForRefreshToken : RefreshToken → Result (OAuth2Authentication String)

/-- The client id of the request is absent or that of the authenticated client. -/
def SameClient (ps : RequestParameters) (client : ClientDetails) : Prop :=
  ps.get "client_id" = none ∨ ps.get "client_id" = some client.clientId

instance (ps : RequestParameters) (client : ClientDetails) : Decidable (SameClient ps client) :=
  inferInstanceAs (Decidable (_ ∨ _))

/-- The scopes of the request, or those of the client if the request has none. -/
def requestedScopes (parseParameterList : Option String → LinkedHashSet String)
    (details : ClientDetails) (ps : RequestParameters) : LinkedHashSet String :=
  let scopes := parseParameterList (ps.get "scope")
  if scopes.isEmpty then details.scope else scopes

/-- The authorities that stand for a scope. -/
def standsFor (toUpperCase : String → String) (scope : String) : List String :=
  [scope, toUpperCase scope, "ROLE_" ++ toUpperCase scope]

/-- `DefaultOAuth2RequestFactory` with `checkUserScopes` set. -/
structure DefaultOAuth2RequestFactory where
  /-- `OAuth2Utils.parseParameterList`. -/
  parseParameterList : Option String → LinkedHashSet String
  /-- `String.toUpperCase`. -/
  toUpperCase : String → String
  createTokenRequest : ClientTable → SecurityContext → RequestParameters → ClientDetails →
    Result TokenRequest

structure DefaultOAuth2RequestFactory.Documented (F : DefaultOAuth2RequestFactory) : Prop where
  mismatch : ∀ clients context ps client, ¬ SameClient ps client →
    ∃ e, F.createTokenRequest clients context ps client = .error e ∧ e.cls = .invalidClient
  unknown : ∀ clients context ps client, SameClient ps client →
    clients.find? client.clientId = none →
    ∃ e, F.createTokenRequest clients context ps client = .error e ∧ e.cls = .clientRegistration
  user_scopes : ∀ clients user ps client details, SameClient ps client →
    clients.find? client.clientId = some details →
    ∃ request, F.createTokenRequest clients ⟨some (.user user)⟩ ps client = .ok request ∧
      ∀ scope, scope ∈ request.scope ↔ scope ∈ requestedScopes F.parseParameterList details ps ∧
        ∃ t ∈ standsFor F.toUpperCase scope, ⟨t⟩ ∈ user.authorities.getD []

/-- A token request keeps the parameters it is created from, and is for the authenticated client. -/
structure KeepsParameters (create : ClientTable → SecurityContext → RequestParameters →
    ClientDetails → Result TokenRequest) : Prop where
  kept : ∀ clients context ps client request, create clients context ps client = .ok request →
    request.requestParameters = ps ∧ request.clientId = client.clientId ∧
    request.grantType = ps.get "grant_type"

/-- Of the requested scopes a token request has the permitted ones. It is created exactly for a
known client that is the authenticated one. -/
structure CreatesRequests (create : ClientTable → SecurityContext → RequestParameters →
    ClientDetails → Result TokenRequest) (parseParameterList : Option String → LinkedHashSet String)
    (permitted : SecurityContext → LinkedHashSet String → LinkedHashSet String) : Prop where
  created : ∀ clients context ps client,
    (∃ request, create clients context ps client = .ok request) ↔
      SameClient ps client ∧ ∃ details, clients.find? client.clientId = some details
  scopes : ∀ clients context ps client details request,
    clients.find? client.clientId = some details → create clients context ps client = .ok request →
    ∀ scope, scope ∈ request.scope ↔
      scope ∈ permitted context (requestedScopes parseParameterList details ps)

/-- What `DefaultOAuth2RequestValidator` accepts: some scopes, and only those of the client if it
has any. -/
def ValidScopes (details : ClientDetails) (scopes : LinkedHashSet String) : Prop :=
  scopes ≠ ∅ ∧ (details.scope = ∅ ∨ ∀ scope ∈ scopes.toList, scope ∈ details.scope)

instance (details : ClientDetails) (scopes : LinkedHashSet String) :
    Decidable (ValidScopes details scopes) :=
  inferInstanceAs (Decidable (_ ∧ (_ ∨ ∀ scope ∈ scopes.toList, scope ∈ details.scope)))

theorem ValidScopes.congr {details : ClientDetails} {scopes scopes' : LinkedHashSet String}
    (h : scopes.Same scopes') : ValidScopes details scopes ↔ ValidScopes details scopes' := by
  have hempty := LinkedHashSet.Same.empty_iff h
  have hall : (∀ scope ∈ scopes.toList, scope ∈ details.scope) ↔
      ∀ scope ∈ scopes'.toList, scope ∈ details.scope :=
    forall_congr' fun scope => imp_congr_left (h scope)
  unfold ValidScopes
  rw [Ne, hempty, hall]

/-- A token request is created for the authenticated client only, and only if it is known. -/
theorem DefaultOAuth2RequestFactory.Documented.client_of_ok {F : DefaultOAuth2RequestFactory}
    (hF : F.Documented) {clients : ClientTable} {context : SecurityContext} {ps : RequestParameters}
    {client : ClientDetails} {request : TokenRequest}
    (h : F.createTokenRequest clients context ps client = .ok request) :
    SameClient ps client ∧ ∃ details, clients.find? client.clientId = some details := by
  have hclient : SameClient ps client := by
    by_contra hmismatch
    obtain ⟨e, he, -⟩ := hF.mismatch clients context ps client hmismatch
    rw [he] at h
    cases h
  refine ⟨hclient, ?_⟩
  cases hdetails : clients.find? client.clientId with
  | none =>
    obtain ⟨e, he, -⟩ := hF.unknown clients context ps client hclient hdetails
    rw [he] at h
    cases h
  | some details => exact ⟨details, rfl⟩

namespace DefaultOAuth2RequestFactory

/-- The permitted scopes of a user in the context, all scopes otherwise. -/
def checkUserScopes (toUpperCase : String → String) (context : SecurityContext)
    (scopes : LinkedHashSet String) : LinkedHashSet String :=
  match context.authentication with
  | some (.user user) => LinkedHashSet.ofList (scopes.toList.filter fun scope =>
      decide (∃ t ∈ standsFor toUpperCase scope, ⟨t⟩ ∈ user.authorities.getD []))
  | _ => scopes

/-- A factory that behaves as documented, for a parser of scopes and a case mapping. -/
def reference (parseParameterList : Option String → LinkedHashSet String)
    (toUpperCase : String → String) : DefaultOAuth2RequestFactory where
  parseParameterList := parseParameterList
  toUpperCase := toUpperCase
  createTokenRequest clients context ps client :=
    if SameClient ps client then
      match clients.find? client.clientId with
      | none =>
        .error ⟨.clientRegistration, some ("No client with requested id: " ++ client.clientId)⟩
      | some details =>
        let scopes := requestedScopes parseParameterList details ps
        .ok ⟨ps, client.clientId, checkUserScopes toUpperCase context scopes, ps.get "grant_type"⟩
    else .error ⟨.invalidClient, some "Given client ID does not match authenticated client"⟩

theorem reference_documented (parseParameterList : Option String → LinkedHashSet String)
    (toUpperCase : String → String) : (reference parseParameterList toUpperCase).Documented where
  mismatch clients context ps client h := by
    exact ⟨_, if_neg h, rfl⟩
  unknown clients context ps client h hnone := by
    refine ⟨⟨.clientRegistration, some ("No client with requested id: " ++ client.clientId)⟩, ?_,
      rfl⟩
    simp only [reference, if_pos h, hnone]
  user_scopes clients user ps client details h hsome := by
    refine ⟨⟨ps, client.clientId, checkUserScopes toUpperCase ⟨some (.user user)⟩
      (requestedScopes parseParameterList details ps), ps.get "grant_type"⟩, ?_, fun scope => ?_⟩
    · simp only [reference, if_pos h, hsome]
    · simp [checkUserScopes, reference, LinkedHashSet.mem_toList]

/-- A factory with other permitted scopes; the one of Spring permits all. -/
def createWith (parseParameterList : Option String → LinkedHashSet String)
    (permitted : SecurityContext → LinkedHashSet String → LinkedHashSet String)
    (clients : ClientTable) (context : SecurityContext) (ps : RequestParameters)
    (client : ClientDetails) : Result TokenRequest :=
  if SameClient ps client then
    match clients.find? client.clientId with
    | none =>
      .error ⟨.clientRegistration, some ("No client with requested id: " ++ client.clientId)⟩
    | some details =>
      .ok ⟨ps, client.clientId, permitted context (requestedScopes parseParameterList details ps),
        ps.get "grant_type"⟩
  else .error ⟨.invalidClient, some "Given client ID does not match authenticated client"⟩

section CreateWith

variable (parseParameterList : Option String → LinkedHashSet String)
  (permitted : SecurityContext → LinkedHashSet String → LinkedHashSet String)

theorem createWith_ok_iff {clients : ClientTable} {context : SecurityContext}
    {ps : RequestParameters} {client : ClientDetails} {request : TokenRequest} :
    createWith parseParameterList permitted clients context ps client = .ok request ↔
      SameClient ps client ∧ ∃ details, clients.find? client.clientId = some details ∧
        request =
          ⟨ps, client.clientId, permitted context (requestedScopes parseParameterList details ps),
            ps.get "grant_type"⟩ := by
  unfold createWith
  by_cases hclient : SameClient ps client
  · rw [if_pos hclient]
    cases clients.find? client.clientId with
    | none => simp
    | some details => simp [hclient, eq_comm]
  · rw [if_neg hclient]
    simp [hclient]

theorem createWith_keepsParameters : KeepsParameters (createWith parseParameterList permitted) where
  kept clients context ps client request h := by
    obtain ⟨-, details, -, rfl⟩ := (createWith_ok_iff _ _).mp h
    exact ⟨rfl, rfl, rfl⟩

theorem createWith_createsRequests :
    CreatesRequests (createWith parseParameterList permitted) parseParameterList permitted where
  created clients context ps client := by
    constructor
    · rintro ⟨request, h⟩
      obtain ⟨hclient, details, hdetails, -⟩ := (createWith_ok_iff _ _).mp h
      exact ⟨hclient, details, hdetails⟩
    · rintro ⟨hclient, details, hdetails⟩
      exact ⟨_, (createWith_ok_iff _ _).mpr ⟨hclient, details, hdetails, rfl⟩⟩
  scopes clients context ps client details request hdetails h scope := by
    obtain ⟨-, details', hdetails', rfl⟩ := (createWith_ok_iff _ _).mp h
    rw [hdetails] at hdetails'
    cases hdetails'
    exact Iff.rfl

end CreateWith

/-- Scopes separated by blanks. -/
def parseScopes : Option String → LinkedHashSet String
  | some scopes => LinkedHashSet.ofList ((split ' ' scopes).filter fun s => decide (s ≠ ""))
  | none => ∅

end DefaultOAuth2RequestFactory

end Spring
