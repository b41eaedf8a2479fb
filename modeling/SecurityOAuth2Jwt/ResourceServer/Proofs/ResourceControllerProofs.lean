import SecurityOAuth2Jwt.ResourceServer.ResourceController
import SecurityOAuth2Jwt.ResourceServer.Proofs.DecoderProofs

/-!
# Proofs: who gets an answer from `ResourceController`

The check in front of a handler looks at authorities, which a client-only token may also have; the
handlers then need the principal of a user.
-/

namespace ResourceServer

open Java Spring

namespace ResourceController

variable {authentication : OAuth2Authentication CustomPrincipal}

theorem preAuthorize_denied {roles : List String} {handler : Result String}
    (h : ∀ role ∈ roles, ⟨role⟩ ∉ authentication.getAuthorities) :
    preAuthorize authentication roles handler = .denied := by
  have hcheck : ¬ authentication.hasAnyAuthority roles = true := by
    rw [OAuth2Authentication.hasAnyAuthority_iff]
    rintro ⟨role, hrole, hmem⟩
    exact h role hrole hmem
  exact if_neg hcheck

theorem preAuthorize_passed {roles : List String} {handler : Result String} {role : String}
    (hrole : role ∈ roles) (hmem : ⟨role⟩ ∈ authentication.getAuthorities) :
    preAuthorize authentication roles handler = answer handler :=
  if_pos (OAuth2Authentication.hasAnyAuthority_iff.mpr ⟨role, hrole, hmem⟩)

/-- The handlers describe the principal of a user. -/
theorem handlers_of_user {user : UserAuthentication CustomPrincipal}
    (h : authentication.userAuthentication = some user) :
    context authentication = .ok (user.principal.username ++ " " ++ user.principal.email) ∧
    secured (resolveArgument authentication) =
      .ok ("ResourceController.secured:" ++
        (user.principal.username ++ " " ++ user.principal.email)) := by
  have hprincipal : authentication.getPrincipal = .user user.principal := by
    simp only [OAuth2Authentication.getPrincipal, h]
  unfold context resolveArgument
  rw [hprincipal]
  exact ⟨rfl, rfl⟩

/-- Without a user both handlers end with an exception: a `ClassCastException` or a
`NullPointerException`. -/
theorem handlers_of_client (h : authentication.userAuthentication = none) :
    (∃ e, context authentication = .error e) ∧
    ∃ e, secured (resolveArgument authentication) = .error e := by
  have hprincipal : authentication.getPrincipal =
      .client authentication.storedRequest.clientId := by
    simp only [OAuth2Authentication.getPrincipal, h]
  unfold context resolveArgument
  rw [hprincipal]
  cases authentication.storedRequest.clientId with
  | none => exact ⟨⟨_, rfl⟩, ⟨_, rfl⟩⟩
  | some id => exact ⟨⟨_, rfl⟩, ⟨_, rfl⟩⟩

/-! ## The identity in the answer -/

/-- Every request that passes the check is answered with the user name and the email of the claims,
and every other one is denied. -/
structure AnsweredWithIdentity (map : ClaimsMap)
    (authentication : OAuth2Authentication CustomPrincipal) : Prop where
  admins_denied : ⟨"role_admin"⟩ ∉ authentication.getAuthorities →
    get authentication .admins = .denied
  admins : ⟨"role_admin"⟩ ∈ authentication.getAuthorities →
    ∃ username email', (map.get Claim.username).text = .ok username ∧
      (map.get email).text = .ok email' ∧
      get authentication .admins = .body (username ++ " " ++ email')
  users_denied : ⟨"role_admin"⟩ ∉ authentication.getAuthorities →
    ⟨"role_user"⟩ ∉ authentication.getAuthorities → get authentication .users = .denied
  users : ⟨"role_admin"⟩ ∈ authentication.getAuthorities ∨
      ⟨"role_user"⟩ ∈ authentication.getAuthorities →
    ∃ username email', (map.get Claim.username).text = .ok username ∧
      (map.get email).text = .ok email' ∧
      get authentication .users =
        .body ("ResourceController.secured:" ++ (username ++ " " ++ email'))

theorem getAdmins_denied (h : ⟨"role_admin"⟩ ∉ authentication.getAuthorities) :
    get authentication .admins = .denied := by
  refine preAuthorize_denied fun role hrole => ?_
  rw [List.mem_singleton] at hrole
  subst hrole
  exact h

theorem getUsers_denied (hadmin : ⟨"role_admin"⟩ ∉ authentication.getAuthorities)
    (huser : ⟨"role_user"⟩ ∉ authentication.getAuthorities) :
    get authentication .users = .denied := by
  refine preAuthorize_denied fun role hrole => ?_
  rcases List.mem_pair.mp hrole with rfl | rfl
  · exact hadmin
  · exact huser

theorem getAdmins_passed (h : ⟨"role_admin"⟩ ∈ authentication.getAuthorities) :
    get authentication .admins = answer (context authentication) :=
  preAuthorize_passed (List.mem_singleton.mpr rfl) h

theorem getUsers_passed (h : ⟨"role_admin"⟩ ∈ authentication.getAuthorities ∨
      ⟨"role_user"⟩ ∈ authentication.getAuthorities) :
    get authentication .users = answer (secured (resolveArgument authentication)) := by
  rcases h with h | h
  · exact preAuthorize_passed (List.mem_pair.mpr (Or.inl rfl)) h
  · exact preAuthorize_passed (List.mem_pair.mpr (Or.inr rfl)) h

/-- A user is answered with the claims the user was decoded from. -/
theorem answeredWithIdentity_of_user {S : SpringSecurity} (hS : S.Documented)
    {conv : CustomUserAuthenticationConverter} {map : ClaimsMap}
    {user : UserAuthentication CustomPrincipal}
    (hdecoded : conv.extractAuthentication S map = .ok (some user))
    (huser : authentication.userAuthentication = some user) :
    AnsweredWithIdentity map authentication := by
  obtain ⟨-, username, email', authorities, hu, he, -, rfl⟩ :=
    (CustomUserAuthenticationConverter.extractAuthentication_ok_some_iff hS).mp hdecoded
  obtain ⟨hcontext, hsecured⟩ := handlers_of_user huser
  refine ⟨getAdmins_denied, fun h => ⟨username, email', hu, he, ?_⟩, getUsers_denied,
    fun h => ⟨username, email', hu, he, ?_⟩⟩
  · rw [getAdmins_passed h, hcontext]
    rfl
  · rw [getUsers_passed h, hsecured]
    rfl

/-- A client-only authentication is answered properly exactly when it has neither role. -/
theorem answeredWithIdentity_of_client_iff {map : ClaimsMap}
    (hclient : authentication.userAuthentication = none) :
    AnsweredWithIdentity map authentication ↔
      ⟨"role_admin"⟩ ∉ authentication.getAuthorities ∧
        ⟨"role_user"⟩ ∉ authentication.getAuthorities := by
  obtain ⟨-, e, he⟩ := handlers_of_client hclient
  have hfails : AnsweredWithIdentity map authentication →
      ¬ (⟨"role_admin"⟩ ∈ authentication.getAuthorities ∨
        ⟨"role_user"⟩ ∈ authentication.getAuthorities) := by
    intro hanswer hrole
    obtain ⟨username, email', -, -, hbody⟩ := hanswer.users hrole
    rw [getUsers_passed hrole, he] at hbody
    cases hbody
  constructor
  · intro hanswer
    exact not_or.mp (hfails hanswer)
  · rintro ⟨hadmin, huser⟩
    exact ⟨fun _ => getAdmins_denied hadmin, fun h => absurd h hadmin,
      fun _ _ => getUsers_denied hadmin huser, fun h => absurd h (not_or.mpr ⟨hadmin, huser⟩)⟩

/-- The answers carry the token's identity exactly when the token names a user or its authorities
hold neither role. -/
theorem answered_with_identity_iff {S : SpringSecurity} (hS : S.Documented)
    (conv : CustomAccessTokenConverter) (map : ClaimsMap)
    (authentication : OAuth2Authentication CustomPrincipal)
    (h : conv.extractAuthentication S map = .ok authentication) :
    AnsweredWithIdentity map authentication ↔
      map.containsKey Claim.username = true ∨
        ∀ elems, map.find? Claim.authorities = some (.coll elems) →
          Elem.str "role_admin" ∉ elems ∧ Elem.str "role_user" ∉ elems := by
  obtain ⟨scope, user, clientId, parameters, ids, authorities, -, huser, -, -, -, hl, rfl⟩ :=
    CustomAccessTokenConverter.extractAuthentication_ok_iff.mp h
  cases user with
  | some user =>
    have hkey : map.containsKey Claim.username = true :=
      ((CustomUserAuthenticationConverter.extractAuthentication_ok_some_iff hS).mp huser).1
    exact iff_of_true (answeredWithIdentity_of_user hS huser rfl) (Or.inl hkey)
  | none =>
    have hkey : ¬ map.containsKey Claim.username = true := by
      rw [CustomUserAuthenticationConverter.extractAuthentication_ok_none_iff.mp huser]
      simp
    rw [answeredWithIdentity_of_client_iff rfl, or_iff_right hkey]
    rcases (CustomAccessTokenConverter.extractClientAuthorities_ok_iff hS).mp hl with
      ⟨hnone, rfl⟩ | ⟨ss, hss, -, rfl⟩
    · simp [hnone, OAuth2Authentication.mem_getAuthorities_of_client hS]
    · rw [OAuth2Authentication.mem_getAuthorities_of_client hS,
        OAuth2Authentication.mem_getAuthorities_of_client hS, hss]
      simp

/-! A client-only token with an administrator's authority. -/

def adminClientClaims : ClaimsMap :=
  let map : ClaimsMap := ∅
  let map := map.put Claim.clientId (.str "client")
  map.put Claim.authorities (.coll [.str "role_admin"])

def adminClient : OAuth2Authentication CustomPrincipal where
  storedRequest := SpringSecurity.reference.oauth2Request
    ((∅ : JavaMap String (Option String)).put Claim.clientId (some "client")) (some "client")
    (some [⟨"role_admin"⟩]) true ∅ ∅
  userAuthentication := none

theorem admin_client_answered_with_identity_iff :
    AnsweredWithIdentity adminClientClaims adminClient ↔
      adminClientClaims.containsKey Claim.username = true ∨
        ∀ elems, adminClientClaims.find? Claim.authorities = some (.coll elems) →
          Elem.str "role_admin" ∉ elems ∧ Elem.str "role_user" ∉ elems :=
  answered_with_identity_iff SpringSecurity.reference_documented {} adminClientClaims adminClient
    rfl

/-- The check lets the client through, and both handlers throw. -/
theorem admin_client_not_answered :
    ({} : CustomAccessTokenConverter).extractAuthentication SpringSecurity.reference
      adminClientClaims = .ok adminClient ∧
    get adminClient .admins = .failed (.ofClass .classCast) ∧
    get adminClient .users = .failed (.ofClass .nullPointer) :=
  ⟨rfl, rfl, rfl⟩

end ResourceController

end ResourceServer
