import SecurityOAuth2Jwt.ResourceServer.ResourceServerConfiguration
import SecurityOAuth2Jwt.ResourceServer.Proofs.AuthoritiesClaimProofs
import SecurityOAuth2Jwt.ResourceServer.Proofs.ResourceControllerProofs

/-!
# Proofs: the answer to a request, by the claims of its token

A request is answered with an identity exactly when the claims of its token pass the checks of
Spring, can be read by the converter, and hold an authority that the handler requires. Which claims
end in an exception can be told from the claims, too.
-/

namespace ResourceServer

open Java Spring

/-! ## The claims that the token services look at -/

/-- The audience of the claims: none, or one that has the resource in it. -/
def AudienceFor (resourceId : String) (m : ClaimsMap) : Prop :=
  match m.find? Claim.aud with
  | none => True
  | some (.str aud) => aud = resourceId
  | some (.coll auds) => auds = [] ∨ Elem.str resourceId ∈ auds
  | some _ => False

/-- The claims of a token that is good for access to the resource at the time `now`. -/
structure Acceptable (resourceId : String) (now : Int64) (m : ClaimsMap) : Prop where
  access : m.find? Claim.ati = none
  current : m.find? Claim.exp = none ∨ ∃ e, m.find? Claim.exp = some (.long e) ∧ now ≤ e * 1000
  audience : AudienceFor resourceId m

/-- A set of the elements of a list is empty if the list is. -/
theorem empty_or_mem_ofList_iff {auds : List Elem} {x : Elem} :
    LinkedHashSet.ofList auds = ∅ ∨ x ∈ LinkedHashSet.ofList auds ↔ auds = [] ∨ x ∈ auds := by
  rw [LinkedHashSet.mem_ofList]
  refine or_congr_left ?_
  constructor
  · intro hempty
    rw [List.eq_nil_iff_forall_not_mem]
    intro y hy
    rw [← LinkedHashSet.mem_ofList, hempty] at hy
    exact LinkedHashSet.not_mem_empty y hy
  · rintro rfl
    rfl

namespace CustomAccessTokenConverter

variable {S : SpringSecurity} {conv : CustomAccessTokenConverter} {m : ClaimsMap} {now : Int64}

/-- The converter keeps the claim by which a refresh token is told from an access token. -/
theorem isRefreshToken_iff {value : String} {token : OAuth2AccessToken}
    (h : extractAccessToken value m = .ok token) :
    IsRefreshToken token ↔ m.containsKey Claim.ati = true := by
  obtain ⟨expiration, scope, -, -, rfl⟩ := extractAccessToken_ok_iff.mp h
  have hkept : ¬ ConsumedClaim Claim.ati := by
    unfold ConsumedClaim
    decide
  unfold IsRefreshToken
  rw [JavaMap.containsKey_congr (find?_extractInformation_of_kept hkept)]

/-- The `exp` claim is absent or a long. -/
def ExpReadable (m : ClaimsMap) : Prop :=
  m.find? Claim.exp = none ∨ ∃ e, m.find? Claim.exp = some (.long e)

theorem extractAccessToken_returns_iff {value : String} :
    (∃ token, extractAccessToken value m = .ok token) ↔
      ExpReadable m ∧ m.find? Claim.scope ≠ some .null := by
  rw [← extractScope_returns_iff]
  constructor
  · rintro ⟨token, h⟩
    obtain ⟨expiration, scope, he, hs, -⟩ := extractAccessToken_ok_iff.mp h
    refine ⟨?_, scope, hs⟩
    rcases extractExpiration_ok_iff.mp he with ⟨hnone, -⟩ | ⟨e, hexp, -⟩
    · exact Or.inl hnone
    · exact Or.inr ⟨e, hexp⟩
  · rintro ⟨hexp, scope, hs⟩
    rcases hexp with hnone | ⟨e, hexp⟩
    · exact ⟨_, extractAccessToken_ok_iff.mpr
        ⟨none, scope, extractExpiration_ok_iff.mpr (Or.inl ⟨hnone, rfl⟩), hs, rfl⟩⟩
    · exact ⟨_, extractAccessToken_ok_iff.mpr
        ⟨_, scope, extractExpiration_ok_iff.mpr (Or.inr ⟨e, hexp, rfl⟩), hs, rfl⟩⟩

/-- A token whose `exp` can be read is current until that second. -/
theorem isExpired_eq_false_iff {value : String} {token : OAuth2AccessToken}
    (h : extractAccessToken value m = .ok token) :
    token.isExpired now = false ↔
      m.find? Claim.exp = none ∨ ∃ e, m.find? Claim.exp = some (.long e) ∧ now ≤ e * 1000 := by
  obtain ⟨expiration, scope, he, -, rfl⟩ := extractAccessToken_ok_iff.mp h
  rcases extractExpiration_ok_iff.mp he with ⟨hnone, rfl⟩ | ⟨e, hexp, rfl⟩
  · exact iff_of_true rfl (Or.inl hnone)
  · have hexpired : (OAuth2AccessToken.isExpired
        ⟨value, some (e * 1000), some scope, extractInformation m⟩ now = false) ↔
        now ≤ e * 1000 :=
      decide_eq_false_iff_not.trans Int64.not_lt
    rw [hexpired, hexp]
    simp

theorem meantFor_iff (hS : S.Documented) {resourceId : String}
    {a : OAuth2Authentication CustomPrincipal} (h : conv.extractAuthentication S m = .ok a) :
    MeantFor resourceId a ↔ AudienceFor resourceId m := by
  obtain ⟨scope, user, clientId, parameters, ids, authorities, -, -, -, -, hids, -, rfl⟩ :=
    extractAuthentication_ok_iff.mp h
  have hread : MeantFor resourceId
      (⟨S.oauth2Request parameters clientId authorities true scope ids, user⟩ :
        OAuth2Authentication CustomPrincipal) ↔ ids = ∅ ∨ Elem.str resourceId ∈ ids := by
    have hstored := (hS.request parameters clientId authorities true scope ids).resourceIds
    constructor
    · intro hall
      exact hall ids hstored
    · intro hids ids' h'
      rw [← Option.some.inj (hstored.symm.trans h')]
      exact hids
  refine hread.trans ?_
  unfold AudienceFor
  cases haud : m.find? Claim.aud with
  | none =>
    rw [extractResourceIds_none haud] at hids
    cases hids
    simp
  | some v =>
    have hkey : m.containsKey Claim.aud = true := JavaMap.containsKey_eq_true.mpr ⟨v, haud⟩
    simp only [extractResourceIds, getAudience, if_pos hkey, ClaimsMap.get_of_find? haud] at hids
    cases v with
    | null =>
      cases hids
      exact empty_or_mem_ofList_iff.trans (by simp)
    | str aud =>
      cases hids
      exact empty_or_mem_ofList_iff.trans (by simp [eq_comm])
    | coll auds =>
      cases hids
      exact empty_or_mem_ofList_iff
    | long n => cases hids
    | obj id text => cases hids

end CustomAccessTokenConverter

/-! ## The authorities of a user, by the claim -/

namespace CustomUserAuthenticationConverter

variable {S : SpringSecurity} {conv : CustomUserAuthenticationConverter} {m : ClaimsMap}

/-- The claim is this string, or a collection that is joined to it. -/
def AuthoritiesText (m : ClaimsMap) (text : String) : Prop :=
  m.find? Claim.authorities = some (.str text) ∨
    ∃ elems, m.find? Claim.authorities = some (.coll elems) ∧
      text = ",".intercalate (elems.map Elem.text)

/-- The default authorities without a claim, and the tokens of the claim otherwise, which must all
have text. -/
def ReadAuthorities (conv : CustomUserAuthenticationConverter) (m : ClaimsMap)
    (authorities : List GrantedAuthority) : Prop :=
  (m.find? Claim.authorities = none ∧ authorities = conv.defaultAuthorities.getD []) ∨
    ∃ text, AuthoritiesText m text ∧ (∀ t ∈ tokenizeToStringArray text, HasText t) ∧
      authorities = (tokenizeToStringArray text).map GrantedAuthority.mk

theorem getAuthorities_of_text (hS : S.Documented) {text : String} (h : AuthoritiesText m text) :
    conv.getAuthorities S m =
      some <$> S.createAuthorityList ((tokenizeToStringArray text).map some) := by
  rcases h with hstr | ⟨elems, hcoll, rfl⟩
  · have hkey : m.containsKey Claim.authorities = true :=
      JavaMap.containsKey_eq_true.mpr ⟨_, hstr⟩
    simp only [getAuthorities, if_pos hkey, ClaimsMap.get_of_find? hstr, hS.commaSeparated]
  · have hkey : m.containsKey Claim.authorities = true :=
      JavaMap.containsKey_eq_true.mpr ⟨_, hcoll⟩
    simp only [getAuthorities, if_pos hkey, ClaimsMap.get_of_find? hcoll, hS.commaDelimited,
      hS.commaSeparated]

theorem getAuthorities_ok_iff (hS : S.Documented) {authorities : List GrantedAuthority} :
    (∃ l, conv.getAuthorities S m = .ok l ∧ l.getD [] = authorities) ↔
      ReadAuthorities conv m authorities := by
  have htext : ∀ text, AuthoritiesText m text →
      ((∃ l, conv.getAuthorities S m = .ok l ∧ l.getD [] = authorities) ↔
        (∀ t ∈ tokenizeToStringArray text, HasText t) ∧
          authorities = (tokenizeToStringArray text).map GrantedAuthority.mk) := by
    intro text h
    rw [getAuthorities_of_text hS h, ← createAuthorityList_ok_iff hS]
    cases S.createAuthorityList ((tokenizeToStringArray text).map some) with
    | error e =>
      refine iff_of_false ?_ (by simp)
      rintro ⟨l, hl, -⟩
      cases hl
    | ok as =>
      constructor
      · rintro ⟨l, hl, rfl⟩
        cases hl
        rfl
      · intro has
        cases has
        exact ⟨_, rfl, rfl⟩
  constructor
  · rintro ⟨l, hl, rfl⟩
    cases hfind : m.find? Claim.authorities with
    | none =>
      have hkey : m.containsKey Claim.authorities = false := JavaMap.containsKey_eq_false.mpr hfind
      unfold getAuthorities at hl
      rw [hkey] at hl
      cases hl
      exact Or.inl ⟨hfind, rfl⟩
    | some v =>
      have hkey : m.containsKey Claim.authorities = true :=
        JavaMap.containsKey_eq_true.mpr ⟨v, hfind⟩
      have hclaim : ∃ text, AuthoritiesText m text := by
        cases v with
        | str text => exact ⟨text, Or.inl hfind⟩
        | coll elems => exact ⟨_, Or.inr ⟨elems, hfind, rfl⟩⟩
        | null =>
          simp only [getAuthorities, if_pos hkey, ClaimsMap.get_of_find? hfind] at hl
          cases hl
        | long n =>
          simp only [getAuthorities, if_pos hkey, ClaimsMap.get_of_find? hfind] at hl
          cases hl
        | obj id text =>
          simp only [getAuthorities, if_pos hkey, ClaimsMap.get_of_find? hfind] at hl
          cases hl
      obtain ⟨text, hclaim⟩ := hclaim
      exact Or.inr ⟨text, hclaim, (htext text hclaim).mp ⟨l, hl, rfl⟩⟩
  · rintro (⟨hfind, rfl⟩ | ⟨text, hclaim, hread⟩)
    · have hkey : m.containsKey Claim.authorities = false := JavaMap.containsKey_eq_false.mpr hfind
      unfold getAuthorities
      rw [hkey]
      exact ⟨_, rfl, rfl⟩
    · exact (htext text hclaim).mpr hread

end CustomUserAuthenticationConverter

/-! ## The handlers -/

namespace ResourceController

/-- The authorities of which the handler requires one. -/
def requiredRoles : Endpoint → List String
  | .admins => ["role_admin"]
  | .users => ["role_admin", "role_user"]
  | .common => []

/-- The answer of the handler to a user with this name and email. -/
def bodyFor (username email : String) : Endpoint → String
  | .admins => username ++ " " ++ email
  | .users => "ResourceController.secured:" ++ (username ++ " " ++ email)
  | .common => "ResourceController.common"

variable {authentication : OAuth2Authentication CustomPrincipal} {endpoint : Endpoint}

/-- A handler with required authorities answers users who have one of them, and nobody else. -/
theorem get_body_iff (hendpoint : endpoint ≠ .common) {text : String} :
    get authentication endpoint = .body text ↔
      ∃ user, authentication.userAuthentication = some user ∧
        (∃ role ∈ requiredRoles endpoint, ⟨role⟩ ∈ user.authorities.getD []) ∧
        text = bodyFor user.principal.username user.principal.email endpoint := by
  -- both handlers are guarded, and return for users only
  have hguarded : ∃ handler, get authentication endpoint =
        preAuthorize authentication (requiredRoles endpoint) handler ∧
      (∀ user, authentication.userAuthentication = some user →
        handler = .ok (bodyFor user.principal.username user.principal.email endpoint)) ∧
      (authentication.userAuthentication = none → ∃ e, handler = .error e) := by
    cases endpoint with
    | admins =>
      exact ⟨_, rfl, fun user h => (handlers_of_user h).1, fun h => (handlers_of_client h).1⟩
    | users =>
      exact ⟨_, rfl, fun user h => (handlers_of_user h).2, fun h => (handlers_of_client h).2⟩
    | common => exact absurd rfl hendpoint
  obtain ⟨handler, hget, hofUser, hofClient⟩ := hguarded
  rw [hget]
  unfold preAuthorize
  cases huser : authentication.userAuthentication with
  | none =>
    obtain ⟨e, he⟩ := hofClient huser
    refine iff_of_false (fun h => ?_) (by simp)
    split_ifs at h
    rw [he] at h
    cases h
  | some user =>
    have hauthorities : authentication.getAuthorities = user.authorities.getD [] := by
      simp only [OAuth2Authentication.getAuthorities, huser]
    rw [hofUser user huser]
    by_cases hrole : ∃ role ∈ requiredRoles endpoint, ⟨role⟩ ∈ user.authorities.getD []
    · have hpass : authentication.hasAnyAuthority (requiredRoles endpoint) = true := by
        rw [OAuth2Authentication.hasAnyAuthority_iff, hauthorities]
        exact hrole
      rw [if_pos hpass]
      constructor
      · intro h
        cases h
        exact ⟨user, rfl, hrole, rfl⟩
      · rintro ⟨user', h, -, rfl⟩
        cases h
        rfl
    · have hpass : ¬ authentication.hasAnyAuthority (requiredRoles endpoint) = true := by
        rw [OAuth2Authentication.hasAnyAuthority_iff, hauthorities]
        exact hrole
      rw [if_neg hpass]
      refine iff_of_false (by simp) ?_
      rintro ⟨user', h, hrole', -⟩
      cases h
      exact hrole hrole'

/-- The public handler answers everybody, the others users with an authority that they require. -/
theorem get_of_user {user : UserAuthentication CustomPrincipal}
    (huser : authentication.userAuthentication = some user) :
    get authentication endpoint =
      if endpoint = .common ∨
          ∃ role ∈ requiredRoles endpoint, ⟨role⟩ ∈ user.authorities.getD [] then
        .body (bodyFor user.principal.username user.principal.email endpoint)
      else .denied := by
  by_cases hcommon : endpoint = .common
  · subst hcommon
    rfl
  by_cases hrole : ∃ role ∈ requiredRoles endpoint, ⟨role⟩ ∈ user.authorities.getD []
  · rw [if_pos (Or.inr hrole)]
    exact (get_body_iff hcommon).mpr ⟨user, huser, hrole, rfl⟩
  · rw [if_neg (not_or.mpr ⟨hcommon, hrole⟩)]
    have hauthorities : authentication.getAuthorities = user.authorities.getD [] := by
      simp only [OAuth2Authentication.getAuthorities, huser]
    push Not at hrole
    rw [← hauthorities] at hrole
    cases endpoint with
    | admins => exact preAuthorize_denied hrole
    | users => exact preAuthorize_denied hrole
    | common => exact absurd rfl hcommon

end ResourceController

/-! ## The reply to a request -/

namespace ResourceServerConfiguration

open CustomAccessTokenConverter CustomUserAuthenticationConverter ResourceController

section Documented

variable {R : ResourceServerConfiguration} (hR : R.Documented) {decode : String → Option ClaimsMap}
  {now : Int64} {value : String} {endpoint : Endpoint}

include hR

/-- The reply to a token changes to a refusal only. -/
theorem request_later {decode' : String → Option ClaimsMap} {now' : Int64}
    (hsame : decode' value = decode value) (hle : now ≤ now') :
    R.request decode' now' (some value) endpoint = R.request decode now (some value) endpoint ∨
      R.request decode' now' (some value) endpoint = .refused := by
  unfold request
  simp only
  rcases hR.manager.authenticate_later hsame hle with hlater | hlater
  · rw [hlater]
    exact Or.inl rfl
  · rw [hlater]
    exact Or.inr rfl

/-- A token is accepted exactly when its claims are acceptable and can be read. -/
theorem authenticated_iff {a : OAuth2Authentication CustomPrincipal} :
    R.manager.authenticate (R.tokenConverter.toAccessTokenConverter R.spring) resourceId decode now
        value = .authenticated a ↔
      ∃ m, decode value = some m ∧ Acceptable resourceId now m ∧
        R.tokenConverter.extractAuthentication R.spring m = .ok a := by
  rw [hR.manager.authenticated_iff]
  constructor
  · rintro ⟨m, token, hm, htoken, hkind, hexpired, ha, hmeant⟩
    refine ⟨m, hm, ⟨?_, (isExpired_eq_false_iff htoken).mp hexpired,
      (meantFor_iff hR.spring ha).mp hmeant⟩, ha⟩
    rw [isRefreshToken_iff htoken, Bool.not_eq_true] at hkind
    exact JavaMap.containsKey_eq_false.mp hkind
  · rintro ⟨m, hm, ⟨haccess, hcurrent, haudience⟩, ha⟩
    have hexp : ExpReadable m := hcurrent.imp id fun ⟨e, he, _⟩ => ⟨e, he⟩
    obtain ⟨scope, _, _, _, _, _, hs, -⟩ := extractAuthentication_ok_iff.mp ha
    obtain ⟨token, htoken⟩ := (@extractAccessToken_returns_iff m value).mpr
      ⟨hexp, extractScope_returns_iff.mp ⟨scope, hs⟩⟩
    refine ⟨m, token, hm, htoken, ?_, (isExpired_eq_false_iff htoken).mpr hcurrent, ha,
      (meantFor_iff hR.spring ha).mpr haudience⟩
    rw [isRefreshToken_iff htoken, Bool.not_eq_true]
    exact JavaMap.containsKey_eq_false.mpr haccess

/-- An accepted token leaves the answer to the handler. -/
theorem request_of_acceptable {m : ClaimsMap} {a : OAuth2Authentication CustomPrincipal}
    (hm : decode value = some m) (hacceptable : Acceptable resourceId now m)
    (ha : R.tokenConverter.extractAuthentication R.spring m = .ok a) :
    R.request decode now (some value) endpoint = .answered (ResourceController.get a endpoint) := by
  have haccepted := (authenticated_iff hR).mpr ⟨m, hm, hacceptable, ha⟩
  simp only [request, haccepted]

theorem request_body_iff {text : String} :
    R.request decode now (some value) endpoint = .answered (.body text) ↔
      ∃ m a, decode value = some m ∧ Acceptable resourceId now m ∧
        R.tokenConverter.extractAuthentication R.spring m = .ok a ∧
        ResourceController.get a endpoint = .body text := by
  have hauthenticated := @authenticated_iff R hR decode now value
  unfold request
  simp only
  cases hresult : R.manager.authenticate (R.tokenConverter.toAccessTokenConverter R.spring)
      resourceId decode now value with
  | refused =>
    refine iff_of_false (by simp) ?_
    rintro ⟨m, a, hm, hacceptable, ha, -⟩
    rw [hauthenticated.mpr ⟨m, hm, hacceptable, ha⟩] at hresult
    cases hresult
  | failed e =>
    refine iff_of_false (by simp) ?_
    rintro ⟨m, a, hm, hacceptable, ha, -⟩
    rw [hauthenticated.mpr ⟨m, hm, hacceptable, ha⟩] at hresult
    cases hresult
  | authenticated a =>
    obtain ⟨m, hm, hacceptable, ha⟩ := hauthenticated.mp hresult
    constructor
    · intro h
      exact ⟨m, a, hm, hacceptable, ha, by simpa using h⟩
    · rintro ⟨m', a', hm', -, ha', hbody⟩
      rw [hm] at hm'
      cases hm'
      rw [ha] at ha'
      cases ha'
      show Reply.answered (ResourceController.get a endpoint) = _
      rw [hbody]

/-- What an answer with an identity says about the claims of the token. -/
theorem claims_of_body (hendpoint : endpoint ≠ .common) {text : String}
    (h : R.request decode now (some value) endpoint = .answered (.body text)) :
    ∃ m username mail authorities, decode value = some m ∧ Acceptable resourceId now m ∧
      RestReadable R.tokenConverter m ∧ m.containsKey Claim.username = true ∧
      (m.get Claim.username).text = .ok username ∧ (m.get email).text = .ok mail ∧
      ReadAuthorities R.tokenConverter.userTokenConverter m authorities ∧
      (∃ role ∈ requiredRoles endpoint, ⟨role⟩ ∈ authorities) ∧
      text = bodyFor username mail endpoint := by
  obtain ⟨m, a, hm, hacceptable, ha, hbody⟩ := (request_body_iff hR).mp h
  obtain ⟨user, huser, hrole, rfl⟩ := (get_body_iff hendpoint).mp hbody
  obtain ⟨hextract, l, hl, -⟩ := parts_of_extracted hR.spring ha
  have hrest := (extractAuthentication_returns_iff hextract hl).mp ⟨a, ha⟩
  rw [huser] at hextract
  obtain ⟨hkey, username, mail, as, hu, he, has, rfl⟩ :=
    (extractAuthentication_ok_some_iff hR.spring).mp hextract
  exact ⟨m, username, mail, as.getD [], hm, hacceptable, hrest, hkey, hu, he,
    (getAuthorities_ok_iff hR.spring).mp ⟨as, has, rfl⟩, hrole, rfl⟩

/-- A request to a guarded handler is answered with an identity exactly when the claims of its token
are acceptable, name a user with an email, hold an authority that the handler requires, and can be
read otherwise. -/
theorem request_answered_iff (hendpoint : endpoint ≠ .common) {text : String} :
    R.request decode now (some value) endpoint = .answered (.body text) ↔
      ∃ m username mail authorities, decode value = some m ∧ Acceptable resourceId now m ∧
        RestReadable R.tokenConverter m ∧ m.containsKey Claim.username = true ∧
        (m.get Claim.username).text = .ok username ∧ (m.get email).text = .ok mail ∧
        ReadAuthorities R.tokenConverter.userTokenConverter m authorities ∧
        (∃ role ∈ requiredRoles endpoint, ⟨role⟩ ∈ authorities) ∧
        text = bodyFor username mail endpoint := by
  constructor
  · exact claims_of_body hR hendpoint
  · rintro ⟨m, username, mail, authorities, hm, hacceptable, hrest, hkey, hu, he, hread, hrole, rfl⟩
    obtain ⟨as, has, rfl⟩ := (getAuthorities_ok_iff hR.spring).mpr hread
    have hextract := (extractAuthentication_ok_some_iff hR.spring).mpr
      ⟨hkey, username, mail, as, hu, he, has, rfl⟩
    obtain ⟨a, ha⟩ := (extractAuthentication_returns_iff hextract rfl).mpr hrest
    obtain ⟨hextract', -⟩ := parts_of_extracted hR.spring ha
    have huser := Except.ok.inj (hextract'.symm.trans hextract)
    exact (request_body_iff hR).mpr
      ⟨m, a, hm, hacceptable, ha, (get_body_iff hendpoint).mpr ⟨_, huser, hrole, rfl⟩⟩

end Documented

/-! The answer to alice's token, whose authorities are a string. -/

def aliceClaims : ClaimsMap :=
  let map : ClaimsMap := ∅
  let map := map.put Claim.username (.str "alice")
  let map := map.put email (.str "alice@mail")
  let map := map.put Claim.aud (.coll [.str "USER_CLIENT_RESOURCE", .str "USER_ADMIN_RESOURCE"])
  let map := map.put Claim.exp (.long 1600000000)
  map.put Claim.authorities (.str "role_user, role_admin")

def referenceServer : ResourceServerConfiguration where
  spring := .reference
  tokenConverter := {}
  manager := .reference CustomPrincipal

theorem referenceServer_documented : referenceServer.Documented where
  spring := SpringSecurity.reference_documented
  manager := OAuth2AuthenticationManager.reference_documented CustomPrincipal

theorem request_of_alice_answered :
    referenceServer.request (fun _ => some aliceClaims) 1600000000000 (some "token") .admins =
      .answered (.body "alice alice@mail") := by
  refine (request_answered_iff referenceServer_documented (by decide)).mpr
    ⟨aliceClaims, "alice", "alice@mail", [⟨"role_user"⟩, ⟨"role_admin"⟩], rfl,
      ⟨rfl, Or.inr ⟨1600000000, rfl, by decide⟩, Or.inr (by decide)⟩,
      ⟨by decide, Or.inl rfl, ?_, Or.inr ⟨_, rfl⟩⟩, by decide, rfl, rfl,
      Or.inr ⟨"role_user, role_admin", Or.inl rfl, by decide, by decide⟩,
      ⟨"role_admin", List.mem_singleton.mpr rfl, by decide⟩, rfl⟩
  intro h
  cases h

end ResourceServerConfiguration

end ResourceServer
