import SecurityOAuth2Jwt.AuthorizationServer.Proofs.UserServiceProofs
import SecurityOAuth2Jwt.ResourceServer.Proofs.RoundTripProofs
import SecurityOAuth2Jwt.Contract.Proofs.AuthoritiesProofs

/-!
# Proofs: decoding the tokens that the authorization server issues

The resource server needs the email of the user, which the authorization server takes from a
nullable column, and it rejects an authority list with a token that is all white space.
-/

namespace Contract

open Java Spring AuthorizationServer ResourceServer

/-! ## The claims of an issued token -/

/-- The token that the enhancer hands to Spring. -/
def withEmail (token : OAuth2AccessToken) (u : SecurityUser) : OAuth2AccessToken :=
  { token with
    additionalInformation := token.additionalInformation.put "email" (.ofString u.email) }

theorem leavesDefaults_withEmail {token : OAuth2AccessToken} (h : LeavesDefaults token)
    (u : SecurityUser) : LeavesDefaults (withEmail token u) := by
  intro k hk
  have hne : k ≠ "email" := by
    rintro rfl
    revert hk
    decide
  show (token.additionalInformation.put "email" _).find? k = none
  rw [JavaMap.find?_put, if_neg hne]
  exact h k hk

theorem enhance_user (J : JwtAccessTokenConverter) (token : OAuth2AccessToken)
    {authentication : OAuth2Authentication SecurityUser} {user : UserAuthentication SecurityUser}
    (huser : authentication.userAuthentication = some user) :
    AuthorizationServer.enhance J token authentication =
      .ok (J.enhance (withEmail token user.principal) authentication) := by
  have hprincipal : authentication.getPrincipal = .user user.principal := by
    simp only [OAuth2Authentication.getPrincipal, huser]
  unfold AuthorizationServer.enhance
  rw [hprincipal]
  rfl

section Documented

variable {J : JwtAccessTokenConverter} (hJ : J.Documented) {token : OAuth2AccessToken}
  (hfree : LeavesDefaults token) (u : SecurityUser)
  (authentication : OAuth2Authentication SecurityUser)

include hJ hfree

/-- Every entry of the additional information but the email is in the claims, a null one perhaps by
its absence. -/
theorem get_enhanced {k : String} {v : JavaValue}
    (hk : token.additionalInformation.find? k = some v) (hne : k ≠ "email") :
    ClaimsMap.get (J.enhance (withEmail token u) authentication) k = v := by
  have hinfo : (withEmail token u).additionalInformation.find? k = some v := by
    show (token.additionalInformation.put "email" _).find? k = some v
    rw [JavaMap.find?_put, if_neg hne, hk]
  rcases hJ.information _ authentication k v (leavesDefaults_withEmail hfree u) hinfo with
    h | ⟨rfl, h⟩
  · exact ClaimsMap.get_of_find? h
  · exact ClaimsMap.get_of_find?_none h

theorem get_enhanced_email :
    ClaimsMap.get (J.enhance (withEmail token u) authentication) ResourceServer.email =
      .ofString u.email := by
  have hinfo : (withEmail token u).additionalInformation.find? "email" =
      some (.ofString u.email) := by
    show (token.additionalInformation.put "email" _).find? "email" = _
    rw [JavaMap.find?_put, if_pos rfl]
  rcases hJ.information _ authentication "email" _ (leavesDefaults_withEmail hfree u) hinfo with
    h | ⟨hnull, h⟩
  · exact ClaimsMap.get_of_find? h
  · rw [hnull]
    exact ClaimsMap.get_of_find?_none h

/-- Apart from the user, the decoder can read every claim of an issued token. -/
theorem decodes_enhanced {S : SpringSecurity} {conv : CustomAccessTokenConverter}
    {user : UserAuthentication CustomPrincipal}
    (huser : conv.userTokenConverter.extractAuthentication S
      (J.enhance (withEmail token u) authentication) = .ok (some user)) :
    ∃ decoded, conv.extractAuthentication S (J.enhance (withEmail token u) authentication) =
      .ok decoded ∧ decoded.userAuthentication = some user := by
  have hdefaults := leavesDefaults_withEmail hfree u
  have hscope := hJ.scope _ authentication hdefaults
  have hclient := hJ.clientId _ authentication hdefaults
  have haud := hJ.aud _ authentication hdefaults
  have hgrant := hJ.grantType _ authentication hdefaults
  generalize J.enhance (withEmail token u) authentication = map at huser hscope hclient haud hgrant
  have hs := CustomAccessTokenConverter.extractScope_of_written hscope
  obtain ⟨parameters, hp⟩ := CustomAccessTokenConverter.extractParameters_returns conv
    authentication.storedRequest.clientId hgrant
  have hids := CustomAccessTokenConverter.extractResourceIds_of_written haud
  refine ⟨_, CustomAccessTokenConverter.extractAuthentication_ok_iff.mpr ⟨_, some user,
    authentication.storedRequest.clientId, parameters, _, none, hs, huser, ?_, hp, hids, rfl, rfl⟩,
    rfl⟩
  rw [ClaimsMap.get_of_find? hclient, JavaValue.castString_ofString]

end Documented

/-! ## A converter that behaves as documented

Spring's default converter has the encoder that the resource server copied. -/

/-- `JwtAccessTokenConverter.enhance` adds a token id unless there is one. -/
def withTokenId (token : OAuth2AccessToken) : OAuth2AccessToken :=
  { token with
    additionalInformation :=
      ((∅ : ClaimsMap).put Claim.jti (.str token.value)).putAll token.additionalInformation }

theorem find?_withTokenId {token : OAuth2AccessToken} (hfree : LeavesDefaults token) {k : String}
    (hk : k ∈ defaultClaims ∧ k ≠ Claim.jti) :
    (withTokenId token).additionalInformation.find? k = none := by
  obtain ⟨hdefault, hjti⟩ := hk
  show (((∅ : ClaimsMap).put Claim.jti _).putAll token.additionalInformation).find? k = none
  rw [JavaMap.find?_putAll, hfree k hdefault, JavaMap.find?_put, if_neg hjti]
  rfl

/-- The encoder writes the names of a user's authorities as a collection of strings. -/
theorem hasAuthoritiesClaim_of_written {S : SpringSecurity} (hS : S.Documented) {map : ClaimsMap}
    {user : UserAuthentication SecurityUser}
    (hwritten : map.find? Claim.authorities =
      CustomAccessTokenConverter.writtenUserAuthorities S user) :
    ∃ names, (∀ x, x ∈ names ↔ ⟨x⟩ ∈ user.authorities.getD []) ∧ HasAuthoritiesClaim map names := by
  unfold CustomAccessTokenConverter.writtenUserAuthorities at hwritten
  rcases has : user.authorities with - | (- | ⟨a, as⟩)
  · simp only [has] at hwritten
    exact ⟨[], by simp, hwritten⟩
  · simp only [has] at hwritten
    exact ⟨[], by simp, hwritten⟩
  · simp only [has] at hwritten
    have hmem : ∀ x, x ∈ (S.authorityListToSet (a :: as)).toList ↔
        ∃ b ∈ a :: as, b.getAuthority = x := hS.mem_authorityListToSet (a :: as)
    have hne : (S.authorityListToSet (a :: as)).toList ≠ [] :=
      List.ne_nil_of_mem ((hmem a.getAuthority).mpr ⟨a, List.mem_cons_self .., rfl⟩)
    refine ⟨(S.authorityListToSet (a :: as)).toList, fun x => ?_, ?_⟩
    · rw [hmem]
      constructor
      · rintro ⟨b, hb, rfl⟩
        exact hb
      · intro hb
        exact ⟨_, hb, rfl⟩
    · unfold HasAuthoritiesClaim
      rw [if_neg hne]
      exact hwritten

def referenceConverter (S : SpringSecurity) : JwtAccessTokenConverter where
  enhance token authentication :=
    ({} : CustomAccessTokenConverter).convertAccessToken S SecurityUser.username (withTokenId token)
      authentication

theorem referenceConverter_documented {S : SpringSecurity} (hS : S.Documented) :
    (referenceConverter S).Documented where
  username token authentication user name hfree huser hname := by
    refine (CustomAccessTokenConverter.find?_encoded_username S {} SecurityUser.username
      authentication (find?_withTokenId hfree (by decide))).trans ?_
    rw [CustomAccessTokenConverter.writtenUsername, huser, Option.map_some, hname]
    rfl
  authorities token authentication user hfree huser := by
    have hwritten := CustomAccessTokenConverter.find?_encoded_authorities S {} SecurityUser.username
      authentication (find?_withTokenId hfree (by decide))
    rw [CustomAccessTokenConverter.writtenAuthorities_of_user S huser] at hwritten
    exact hasAuthoritiesClaim_of_written hS hwritten
  scope token authentication hfree :=
    CustomAccessTokenConverter.find?_encoded_scope S {} SecurityUser.username authentication
      (find?_withTokenId hfree (by decide))
  clientId token authentication _ :=
    CustomAccessTokenConverter.find?_convertAccessToken_clientId S {} SecurityUser.username
      (withTokenId token) authentication
  aud token authentication hfree :=
    CustomAccessTokenConverter.find?_encoded_aud S {} SecurityUser.username authentication
      (find?_withTokenId hfree (by decide))
  grantType token authentication hfree :=
    Or.inl (CustomAccessTokenConverter.find?_encoded_grantType S {} SecurityUser.username
      authentication (find?_withTokenId hfree (by decide)))
  information token authentication k v hfree hk := by
    have hkept : k ∉ defaultClaims := by
      intro hmem
      rw [hfree k hmem] at hk
      cases hk
    have hother : k ∉ [Claim.aud, Claim.clientId] := by
      intro hmem
      rcases List.mem_pair.mp hmem with rfl | rfl <;> exact hkept (by decide)
    refine Or.inl (CustomAccessTokenConverter.find?_convertAccessToken_of_information S {}
      SecurityUser.username authentication ?_ hother)
    show (((∅ : ClaimsMap).put Claim.jti _).putAll token.additionalInformation).find? k = some v
    rw [JavaMap.find?_putAll, hk]
    rfl

/-! ## The contract -/

/-- The pieces of the titles of a user are the tokens of the names that are sent. -/
theorem pieces_have_text_iff {S : SpringSecurity} (hS : S.Documented) {u : SecurityUser}
    {authorities : LinkedHashSet GrantedAuthority} (hl : u.getAuthorities S = .ok authorities)
    {names : List String} (hnames : ∀ x, x ∈ names ↔ ⟨x⟩ ∈ authorities) :
    (∀ t, some t ∈ u.titles → ∀ piece ∈ tokenizeToStringArray t, HasText piece) ↔
      ∀ piece ∈ names.flatMap tokenizeToStringArray, HasText piece := by
  have htitle : ∀ t, t ∈ names ↔ some t ∈ u.titles := fun t =>
    (hnames t).trans (SecurityUser.mem_getAuthorities hS hl)
  simp only [List.mem_flatMap, ← htitle]
  constructor
  · rintro h piece ⟨t, ht, hpiece⟩
    exact h t ht piece hpiece
  · intro h t ht piece hpiece
    exact h piece ⟨t, ht, hpiece⟩

/-- An issued token is decoded to its user exactly when the user has an email and no piece of a
title between commas is all white space. -/
theorem issued_token_decodable_iff {S : SpringSecurity} (hS : S.Documented)
    {C : AccountStatusUserDetailsChecker} (hC : C.Documented) {J : JwtAccessTokenConverter}
    (hJ : J.Documented) {conv : CustomAccessTokenConverter}
    (hdef : conv.userTokenConverter.defaultAuthorities = none) {T : UserTable} {name : String}
    {u : SecurityUser} (hload : loadUserByUsername C T name = .ok u) {token : OAuth2AccessToken}
    (hfree : LeavesDefaults token) {authentication : OAuth2Authentication SecurityUser}
    {credentials : Option String} {authorities : LinkedHashSet GrantedAuthority}
    (hl : u.getAuthorities S = .ok authorities)
    (huser : authentication.userAuthentication =
      some ⟨u, credentials, some authorities.toList⟩) :
    ∃ map, AuthorizationServer.enhance J token authentication = .ok map ∧
      ((∃ decoded decodedUser, conv.extractAuthentication S map = .ok decoded ∧
          decoded.isClientOnly = false ∧ decoded.userAuthentication = some decodedUser ∧
          decodedUser.principal.username = name ∧
          u.email = some decodedUser.principal.email ∧
          ∀ k v, token.additionalInformation.find? k = some v → k ≠ "email" →
            ClaimsMap.get map k = v) ↔
        u.email ≠ none ∧
          ∀ t, some t ∈ u.titles → ∀ piece ∈ tokenizeToStringArray t, HasText piece) := by
  refine ⟨_, enhance_user J token huser, ?_⟩
  have hdefaults := leavesDefaults_withEmail hfree u
  have hname : u.username = some name :=
    UserTable.username_of_findByUsername ((loadUserByUsername_ok_iff hC).mp hload).1
  have husername := hJ.username _ authentication _ name hdefaults huser hname
  have hemail := get_enhanced_email hJ hfree u authentication
  obtain ⟨names, hnames, hclaim⟩ := hJ.authorities _ authentication _ hdefaults huser
  rw [pieces_have_text_iff hS hl hnames]
  constructor
  · rintro ⟨decoded, decodedUser, hok, -, hdecoded, -, hsame, -⟩
    obtain ⟨_, user', _, _, _, _, -, huser', -, -, -, -, rfl⟩ :=
      CustomAccessTokenConverter.extractAuthentication_ok_iff.mp hok
    have hsome : user' = some decodedUser := hdecoded
    subst hsome
    obtain ⟨-, _, _, as, -, -, has, -⟩ :=
      (CustomUserAuthenticationConverter.extractAuthentication_ok_some_iff hS).mp huser'
    -- a decoded user has an email, so the stored one is not null
    refine ⟨?_, ((getAuthorities_ok_iff hS hdef hclaim).mp has).1⟩
    rw [hsame]
    exact Option.some_ne_none _
  · rintro ⟨hsome, htext⟩
    obtain ⟨email', hu⟩ := Option.ne_none_iff_exists'.mp hsome
    have hread := (getAuthorities_ok_iff hS hdef hclaim).mpr ⟨htext, rfl⟩
    have hdecodedUser :=
      (CustomUserAuthenticationConverter.extractAuthentication_ok_some_iff hS).mpr
      ⟨JavaMap.containsKey_eq_true.mpr ⟨_, husername⟩, name, email', _,
        by rw [ClaimsMap.get_of_find? husername]; rfl, by rw [hemail, hu]; rfl, hread, rfl⟩
    obtain ⟨decoded, hok, hdecoded⟩ := decodes_enhanced hJ hfree u authentication hdecodedUser
    refine ⟨decoded, _, hok, ?_, hdecoded, rfl, hu, fun k v hk hne =>
      get_enhanced hJ hfree u authentication hk hne⟩
    unfold OAuth2Authentication.isClientOnly
    rw [hdecoded]
    rfl

/-! A user with a null email, as the constructor of the entity leaves it. -/

def userWithEmail (mail : Option String) : SecurityUser :=
  { userWithRole ⟨some "role_user", []⟩ with email := mail }

def tableOf (u : SecurityUser) (h : u.username = some "alice") : UserTable :=
  ⟨[u], by simp [h]⟩

def authenticationOf (u : SecurityUser) : OAuth2Authentication SecurityUser where
  storedRequest := SpringSecurity.reference.oauth2Request ∅ (some "client") none true
    (.ofList [.str "role_user"]) ∅
  userAuthentication := some ⟨u, none, some [⟨"role_user"⟩]⟩

def plainToken : OAuth2AccessToken where
  value := "token"
  expiration := some 1600000000000
  scope := some (.ofList [.str "role_user"])
  additionalInformation := (∅ : ClaimsMap).put "tenant" (.str "one")

theorem token_of_user_with_email_decodable :
    ∃ map, AuthorizationServer.enhance (referenceConverter .reference) plainToken
        (authenticationOf (userWithEmail (some "alice@mail"))) = .ok map ∧
      ∃ decoded decodedUser, ({} : CustomAccessTokenConverter).extractAuthentication
          SpringSecurity.reference map = .ok decoded ∧
        decoded.userAuthentication = some decodedUser ∧
        decodedUser.principal.username = "alice" := by
  obtain ⟨map, hmap, hiff⟩ :=
    @issued_token_decodable_iff .reference SpringSecurity.reference_documented .reference
      AccountStatusUserDetailsChecker.reference_documented (referenceConverter .reference)
      (referenceConverter_documented SpringSecurity.reference_documented) {} rfl
      (tableOf (userWithEmail (some "alice@mail")) rfl) "alice" (userWithEmail (some "alice@mail"))
      rfl plainToken (by decide) (authenticationOf (userWithEmail (some "alice@mail"))) none
      (.ofList [⟨"role_user"⟩]) rfl rfl
  have htitles : ∀ t, some t ∈ (userWithEmail (some "alice@mail")).titles →
      ∀ piece ∈ tokenizeToStringArray t, HasText piece := by
    intro t ht
    cases List.mem_singleton.mp ht
    decide
  obtain ⟨decoded, decodedUser, hok, -, huser, hname, -⟩ := hiff.mpr ⟨by decide, htitles⟩
  exact ⟨map, hmap, decoded, decodedUser, hok, huser, hname⟩

theorem token_of_user_without_email_not_decoded :
    ∃ map, AuthorizationServer.enhance (referenceConverter .reference) plainToken
        (authenticationOf (userWithEmail none)) = .ok map ∧
      ({} : CustomAccessTokenConverter).extractAuthentication SpringSecurity.reference map =
        .error (.ofClass .nullPointer) :=
  ⟨_, rfl, rfl⟩

end Contract
