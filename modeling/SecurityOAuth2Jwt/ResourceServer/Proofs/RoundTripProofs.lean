import SecurityOAuth2Jwt.Java.Proofs.LongProofs
import SecurityOAuth2Jwt.ResourceServer.Proofs.EncoderProofs
import SecurityOAuth2Jwt.ResourceServer.Proofs.DecoderProofs

/-!
# Proofs: decoding an encoded token

The additional information uses none of the claim names of the converters, so the decoder reads the
claims that the encoder wrote. For a client-only token it reads all of them back. A user token never
comes back, because the decoder needs an `email` claim that the encoder does not write.
-/

namespace ResourceServer

open Java Spring

namespace CustomAccessTokenConverter

variable {π : Type} {S : SpringSecurity} {conv : CustomAccessTokenConverter}

/-! ## The claims of a token whose additional information is free of claim names -/

section Free

variable (S : SpringSecurity) (conv : CustomAccessTokenConverter) (nameOf : π → Option String)
  {token : OAuth2AccessToken} (authentication : OAuth2Authentication π)

theorem find?_encoded_scope (hfree : token.additionalInformation.find? Claim.scope = none) :
    (conv.convertAccessToken S nameOf token authentication).find? Claim.scope =
      token.scope.map .ofSet :=
  find?_convertAccessToken_of_free S conv nameOf authentication hfree (by decide)

theorem find?_encoded_exp (hfree : token.additionalInformation.find? Claim.exp = none) :
    (conv.convertAccessToken S nameOf token authentication).find? Claim.exp =
      token.expiration.map fun time => .long (time / 1000) :=
  find?_convertAccessToken_of_free S conv nameOf authentication hfree (by decide)

theorem find?_encoded_grantType (hfree : token.additionalInformation.find? Claim.grantType = none) :
    (conv.convertAccessToken S nameOf token authentication).find? Claim.grantType =
      if conv.includeGrantType then
        (S.getGrantType authentication.storedRequest.requestParameters).map .str
      else none :=
  find?_convertAccessToken_of_free S conv nameOf authentication hfree (by decide)

theorem find?_encoded_username (hfree : token.additionalInformation.find? Claim.username = none) :
    (conv.convertAccessToken S nameOf token authentication).find? Claim.username =
      writtenUsername nameOf authentication :=
  find?_convertAccessToken_of_free S conv nameOf authentication hfree (by decide)

theorem find?_encoded_authorities
    (hfree : token.additionalInformation.find? Claim.authorities = none) :
    (conv.convertAccessToken S nameOf token authentication).find? Claim.authorities =
      writtenAuthorities S authentication :=
  find?_convertAccessToken_of_free S conv nameOf authentication hfree (by decide)

theorem find?_encoded_aud (hfree : token.additionalInformation.find? Claim.aud = none) :
    (conv.convertAccessToken S nameOf token authentication).find? Claim.aud =
      writtenAudience authentication := by
  rw [find?_convertAccessToken, if_pos rfl, hfree, Option.or_none]

end Free

/-! ## Client-only tokens -/

/-- The decoder reads the audience back that the encoder wrote, an absent one as empty. -/
theorem extractResourceIds_of_written {map : ClaimsMap} {authentication : OAuth2Authentication π}
    (haud : map.find? Claim.aud = writtenAudience authentication) :
    extractResourceIds map = .ok (authentication.storedRequest.resourceIds.getD ∅) := by
  unfold writtenAudience at haud
  cases hids : authentication.storedRequest.resourceIds with
  | none =>
    rw [hids] at haud
    exact extractResourceIds_none haud
  | some ids =>
    rw [hids, Option.bind_some] at haud
    exact extractResourceIds_of_nonEmpty haud

/-- The authorities of a client-only request are read back one by one, in an unspecified order. -/
theorem extractClientAuthorities_of_written (hS : S.Documented) {map : ClaimsMap}
    {authentication : OAuth2Authentication π} (hclient : authentication.userAuthentication = none)
    (htext : ∀ a ∈ authentication.storedRequest.authorities.getD ∅, HasText a.getAuthority)
    (hauth : map.find? Claim.authorities = writtenAuthorities S authentication) :
    ∃ authorities, extractClientAuthorities S none map = .ok authorities ∧
      ∀ a, a ∈ LinkedHashSet.ofList (authorities.getD []) ↔
        a ∈ authentication.storedRequest.authorities.getD ∅ := by
  have hnone : map.find? Claim.authorities = none →
      extractClientAuthorities S none map = .ok none := by
    intro h
    have hkey : map.containsKey Claim.authorities = false := JavaMap.containsKey_eq_false.mpr h
    simp only [extractClientAuthorities, hkey, Bool.and_false]
    rfl
  unfold writtenAuthorities at hauth
  rw [hclient] at hauth
  cases has : authentication.storedRequest.authorities with
  | none =>
    rw [has] at hauth
    refine ⟨none, hnone hauth, fun a => ?_⟩
    simp
  | some as =>
    rw [has] at hauth htext
    by_cases hne : as = ∅
    · subst hne
      refine ⟨none, hnone hauth, fun a => ?_⟩
      simp
    · rw [Option.bind_some, LinkedHashSet.nonEmpty?_of_ne hne, Option.map_some] at hauth
      have hkey : map.containsKey Claim.authorities = true :=
        JavaMap.containsKey_eq_true.mpr ⟨_, hauth⟩
      have hmem : ∀ x, x ∈ (S.authorityListToSet as.toList).toList ↔
          ∃ a ∈ as, a.getAuthority = x := hS.mem_authorityListToSet as.toList
      have hlist : S.createAuthorityList ((S.authorityListToSet as.toList).toList.map some) =
          .ok ((S.authorityListToSet as.toList).toList.map GrantedAuthority.mk) := by
        refine (createAuthorityList_ok_iff hS).mpr ⟨fun s hs => ?_, rfl⟩
        obtain ⟨a, ha, rfl⟩ := (hmem s).mp hs
        exact htext a ha
      refine ⟨some ((S.authorityListToSet as.toList).toList.map GrantedAuthority.mk), ?_, ?_⟩
      · simp only [extractClientAuthorities, hkey, ClaimsMap.get_of_find? hauth,
          JavaValue.ofStringSet, toStringArray_map_str, Outcome.ok_bind, hlist]
        rfl
      · intro a
        rw [LinkedHashSet.mem_ofList, Option.getD_some, Option.getD_some, List.mem_map]
        constructor
        · rintro ⟨x, hx, rfl⟩
          obtain ⟨a, ha, rfl⟩ := (hmem x).mp hx
          exact ha
        · intro ha
          exact ⟨a.getAuthority, (hmem _).mpr ⟨a, ha, rfl⟩, rfl⟩

/-- The grant type of the request is read back when it is written. -/
theorem extractParameters_of_written (hS : S.Documented) (hgrant : conv.includeGrantType = true)
    {map : ClaimsMap} {authentication : OAuth2Authentication π} {clientId : Option String}
    (hmap : map.find? Claim.grantType =
      (S.getGrantType authentication.storedRequest.requestParameters).map .str) :
    ∃ parameters, conv.extractParameters clientId map = .ok parameters ∧
      S.getGrantType parameters =
        S.getGrantType authentication.storedRequest.requestParameters := by
  cases hg : S.getGrantType authentication.storedRequest.requestParameters with
  | none =>
    rw [hg] at hmap
    have hkey : map.containsKey Claim.grantType = false := JavaMap.containsKey_eq_false.mpr hmap
    refine ⟨(∅ : JavaMap String (Option String)).put Claim.clientId clientId, ?_, ?_⟩
    · simp only [extractParameters, hkey, Bool.and_false]
      rfl
    · refine hS.grantType_none _ ?_ ?_
      · simp +decide
      · simp +decide
  | some g =>
    rw [hg] at hmap
    have hkey : map.containsKey Claim.grantType = true := JavaMap.containsKey_eq_true.mpr ⟨_, hmap⟩
    refine ⟨((∅ : JavaMap String (Option String)).put Claim.clientId clientId).put Claim.grantType
      (some g), ?_, ?_⟩
    · simp only [extractParameters, hgrant, hkey, Bool.and_self, if_true,
        ClaimsMap.get_of_find? hmap, JavaValue.castString, Outcome.ok_bind]
      rfl
    · refine hS.grantType_param _ _ ?_
      simp +decide

theorem extractParameters_of_off (hoff : conv.includeGrantType = false) (clientId : Option String)
    (map : ClaimsMap) :
    conv.extractParameters clientId map =
      .ok ((∅ : JavaMap String (Option String)).put Claim.clientId clientId) := by
  simp only [extractParameters, hoff, Bool.false_and]
  rfl

/-- The request parameters are read back with the grant type, if the converter includes it. -/
theorem extractParameters_encoded (hS : S.Documented) {map : ClaimsMap}
    {authentication : OAuth2Authentication π} (clientId : Option String)
    (hmap : map.find? Claim.grantType =
      if conv.includeGrantType then
        (S.getGrantType authentication.storedRequest.requestParameters).map .str
      else none) :
    ∃ parameters, conv.extractParameters clientId map = .ok parameters ∧
      (conv.includeGrantType = true → S.getGrantType parameters =
        S.getGrantType authentication.storedRequest.requestParameters) := by
  cases hinclude : conv.includeGrantType with
  | false =>
    refine ⟨_, extractParameters_of_off hinclude clientId map, fun h => ?_⟩
    cases h
  | true =>
    rw [hinclude, if_pos rfl] at hmap
    obtain ⟨parameters, hp, hgrant⟩ := extractParameters_of_written hS hinclude hmap
    exact ⟨parameters, hp, fun _ => hgrant⟩

/-! ### The access token -/

section AccessToken

variable (S : SpringSecurity) (conv : CustomAccessTokenConverter) (nameOf : π → Option String)
  {token : OAuth2AccessToken} (authentication : OAuth2Authentication π)

/-- The expiration comes back in whole seconds. -/
theorem extractExpiration_encoded
    (hfree : token.additionalInformation.find? Claim.exp = none) :
    ∃ expiration, extractExpiration (conv.convertAccessToken S nameOf token authentication) =
        .ok expiration ∧
      expiration.map Int64.toInt =
        token.expiration.map fun ms => 1000 * ms.toInt.tdiv 1000 := by
  have hexp := find?_encoded_exp S conv nameOf authentication hfree
  cases htime : token.expiration with
  | none =>
    rw [htime] at hexp
    exact ⟨none, extractExpiration_ok_iff.mpr (Or.inl ⟨hexp, rfl⟩), rfl⟩
  | some ms =>
    rw [htime] at hexp
    refine ⟨some (ms / 1000 * 1000), extractExpiration_ok_iff.mpr (Or.inr ⟨_, hexp, rfl⟩), ?_⟩
    rw [Option.map_some, Option.map_some, toInt_seconds_mul, Int.mul_comm]

/-- Additional information under no claim name of the converters comes back as it is. -/
theorem find?_extractInformation_encoded {k : String} {x : JavaValue}
    (hx : token.additionalInformation.find? k = some x)
    (hk : k ∉ [Claim.exp, Claim.aud, Claim.clientId, Claim.scope]) :
    (extractInformation (conv.convertAccessToken S nameOf token authentication)).find? k =
      some x := by
  have hkept : ¬ ConsumedClaim k := by
    rintro (rfl | rfl | rfl | rfl) <;> exact hk (by simp)
  have hother : k ∉ [Claim.aud, Claim.clientId] := by
    intro hmem
    rcases List.mem_pair.mp hmem with rfl | rfl <;> exact hk (by simp)
  rw [find?_extractInformation_of_kept hkept]
  exact find?_convertAccessToken_of_information S conv nameOf authentication hx hother

end AccessToken

/-- Decoding an encoded client-only token gives the client id, the authorities, the scope and the
audience back, and the grant type when it is included; the token comes back with its expiration in
whole seconds and with its additional information. A request is taken to store the scope that it is
given. -/
theorem client_token_round_trip (hS : S.Documented) (conv : CustomAccessTokenConverter)
    (nameOf : π → Option String) (value : String) (token : OAuth2AccessToken)
    (authentication : OAuth2Authentication π)
    (hclient : authentication.userAuthentication = none)
    (htext : ∀ a ∈ authentication.storedRequest.authorities.getD ∅, HasText a.getAuthority)
    (hstores : S.StoresScope authentication.storedRequest.scope)
    (hscope : token.scope = some authentication.storedRequest.scope)
    (hfree : ∀ k ∈ [Claim.username, Claim.authorities, Claim.scope, Claim.exp, Claim.clientId,
      Claim.aud, Claim.grantType], token.additionalInformation.find? k = none) :
    let map := conv.convertAccessToken S nameOf token authentication
    (∃ decoded, conv.extractAuthentication S map = .ok decoded ∧ decoded.isClientOnly = true ∧
      decoded.storedRequest.clientId = authentication.storedRequest.clientId ∧
      (decoded.storedRequest.authorities.getD ∅).Same
        (authentication.storedRequest.authorities.getD ∅) ∧
      decoded.storedRequest.scope = authentication.storedRequest.scope ∧
      decoded.storedRequest.resourceIds.getD ∅ =
        authentication.storedRequest.resourceIds.getD ∅ ∧
      (conv.includeGrantType = true → S.getGrantType decoded.storedRequest.requestParameters =
        S.getGrantType authentication.storedRequest.requestParameters)) ∧
    ∃ decodedToken, extractAccessToken value map = .ok decodedToken ∧
      decodedToken.scope = token.scope ∧
      decodedToken.expiration.map Int64.toInt =
        token.expiration.map (fun ms => 1000 * ms.toInt.tdiv 1000) ∧
      ∀ k x, token.additionalInformation.find? k = some x →
        decodedToken.additionalInformation.find? k = some x := by
  intro map
  have hextract : extractScope map = .ok authentication.storedRequest.scope := by
    have hwritten := find?_encoded_scope S conv nameOf authentication (hfree _ (by simp))
    rw [extractScope_of_written hwritten, hscope, Option.getD_some]
  constructor
  · have huser : map.find? Claim.username = none := by
      rw [find?_encoded_username S conv nameOf authentication (hfree _ (by simp)), writtenUsername,
        hclient]
      rfl
    have hcid :
        (map.get Claim.clientId).castString = .ok authentication.storedRequest.clientId := by
      rw [ClaimsMap.get_of_find? (find?_convertAccessToken_clientId S conv nameOf token _),
        JavaValue.castString_ofString]
    have hids := extractResourceIds_of_written
      (find?_encoded_aud S conv nameOf authentication (hfree _ (by simp)))
    obtain ⟨authorities, hl, hsame⟩ := extractClientAuthorities_of_written hS hclient htext
      (find?_encoded_authorities S conv nameOf authentication (hfree _ (by simp)))
    obtain ⟨parameters, hp, hgrant⟩ := extractParameters_encoded hS
      authentication.storedRequest.clientId
      (find?_encoded_grantType S conv nameOf authentication (hfree _ (by simp)))
    have hholds := hS.request parameters authentication.storedRequest.clientId authorities true
      authentication.storedRequest.scope (authentication.storedRequest.resourceIds.getD ∅)
    refine ⟨_, extractAuthentication_ok_iff.mpr ⟨_, none, _, parameters, _, authorities, hextract,
      CustomUserAuthenticationConverter.extractAuthentication_of_none huser, hcid, hp, hids, hl,
      rfl⟩, rfl, hholds.clientId, ?_, hstores .., ?_, fun hinclude => ?_⟩
    · rw [hholds.authorities]
      exact hsame
    · rw [hholds.resourceIds]
      rfl
    · rw [hholds.requestParameters]
      exact hgrant hinclude
  · obtain ⟨expiration, hexp, hseconds⟩ :=
      extractExpiration_encoded S conv nameOf authentication (hfree _ (by simp))
    refine ⟨_, extractAccessToken_ok_iff.mpr ⟨expiration, _, hexp, hextract, rfl⟩, hscope.symm,
      hseconds, fun k x hx => ?_⟩
    refine find?_extractInformation_encoded S conv nameOf authentication hx fun hmem => ?_
    -- the four claims that the decoder consumes are among those the information leaves free
    have hnone : token.additionalInformation.find? k = none := by
      apply hfree
      simp only [List.mem_cons, List.not_mem_nil, or_false] at hmem
      rcases hmem with rfl | rfl | rfl | rfl <;> simp
    rw [hnone] at hx
    cases hx

def clientAuthentication : OAuth2Authentication CustomPrincipal where
  storedRequest := SpringSecurity.reference.oauth2Request
    ((∅ : JavaMap String (Option String)).put Claim.grantType (some "client_credentials"))
    (some "client") (some [⟨"a,b"⟩, ⟨" role_admin "⟩]) true (.ofList [.str "read"])
    (.ofList [.str "resource"])
  userAuthentication := none

def clientToken : OAuth2AccessToken where
  value := "token"
  expiration := some (-1999)
  scope := some clientAuthentication.storedRequest.scope
  additionalInformation := (∅ : ClaimsMap).put Claim.jti (.str "id")

theorem client_token_round_trip_of_verbatim_titles :
    ∃ decoded, ({ includeGrantType := true } : CustomAccessTokenConverter).extractAuthentication
        SpringSecurity.reference (({ includeGrantType := true } : CustomAccessTokenConverter)
          |>.convertAccessToken SpringSecurity.reference (fun _ => none) clientToken
            clientAuthentication) = .ok decoded ∧
      decoded.isClientOnly = true ∧
      decoded.storedRequest.clientId = some "client" := by
  have hS := SpringSecurity.reference_documented
  obtain ⟨⟨decoded, hok, hclient, hid, -⟩, -⟩ :=
    client_token_round_trip hS { includeGrantType := true } (fun _ => none) "token" clientToken
      clientAuthentication rfl (by decide) (hS.scope _ (by decide)) rfl (by decide)
  exact ⟨decoded, hok, hclient, hid⟩

/-! ## User tokens -/

/-- The decoder throws on every encoded user token: it calls `toString` on the missing email. -/
theorem extractAuthentication_encoded_user (S : SpringSecurity) (conv : CustomAccessTokenConverter)
    (nameOf : π → Option String) (token : OAuth2AccessToken)
    {authentication : OAuth2Authentication π} {user : UserAuthentication π}
    (huser : authentication.userAuthentication = some user)
    (hfree : ∀ k ∈ [Claim.username, email, Claim.scope],
      token.additionalInformation.find? k = none) :
    conv.extractAuthentication S (conv.convertAccessToken S nameOf token authentication) =
      .error (.ofClass .nullPointer) := by
  generalize hmap : conv.convertAccessToken S nameOf token authentication = map
  have husername : map.find? Claim.username = some (.ofString (nameOf user.principal)) := by
    rw [← hmap, find?_encoded_username S conv nameOf authentication (hfree _ (by simp)),
      writtenUsername, huser]
    rfl
  have hemail : map.find? email = none := by
    rw [← hmap]
    exact find?_convertAccessToken_of_free S conv nameOf authentication (hfree email (by simp))
      (by decide)
  have hscope : extractScope map = .ok (token.scope.getD ∅) := by
    apply extractScope_of_written
    rw [← hmap]
    exact find?_encoded_scope S conv nameOf authentication (hfree _ (by simp))
  have hkey : map.containsKey Claim.username = true :=
    JavaMap.containsKey_eq_true.mpr ⟨_, husername⟩
  have hnull : conv.userTokenConverter.extractAuthentication S map =
      .error (.ofClass .nullPointer) := by
    simp only [CustomUserAuthenticationConverter.extractAuthentication, if_pos hkey,
      ClaimsMap.get_of_find? husername, ClaimsMap.get_of_find?_none hemail]
    cases nameOf user.principal with
    | none => rfl
    | some name => rfl
  simp only [extractAuthentication, hscope, hnull, Outcome.ok_bind, Outcome.error_bind]

/-- No user token comes back from the encoder: for no user, token and request does decoding the
encoded claims return the user, the authorities and the request again. -/
theorem user_token_never_round_trips (S : SpringSecurity) (conv : CustomAccessTokenConverter)
    (nameOf : CustomPrincipal → Option String) (token : OAuth2AccessToken)
    (authentication : OAuth2Authentication CustomPrincipal)
    (user : UserAuthentication CustomPrincipal)
    (huser : authentication.userAuthentication = some user)
    (hfree : ∀ k ∈ [Claim.username, email, Claim.authorities, Claim.scope, Claim.exp,
      Claim.clientId, Claim.aud, Claim.grantType], token.additionalInformation.find? k = none) :
    ¬ ∃ decoded decodedUser,
      conv.extractAuthentication S (conv.convertAccessToken S nameOf token authentication) =
        .ok decoded ∧
      decoded.userAuthentication = some decodedUser ∧
      decodedUser.principal = user.principal ∧
      (∀ a, a ∈ decodedUser.authorities.getD [] ↔ a ∈ user.authorities.getD []) ∧
      decoded.storedRequest.clientId = authentication.storedRequest.clientId ∧
      decoded.storedRequest.scope = authentication.storedRequest.scope ∧
      decoded.storedRequest.resourceIds.getD ∅ =
        authentication.storedRequest.resourceIds.getD ∅ := by
  rintro ⟨decoded, decodedUser, hok, -⟩
  have herror := extractAuthentication_encoded_user S conv nameOf token huser fun k hk =>
    hfree k (by simp only [List.mem_cons] at hk ⊢; tauto)
  rw [herror] at hok
  cases hok

def aliceAuthentication : OAuth2Authentication CustomPrincipal where
  storedRequest := SpringSecurity.reference.oauth2Request ∅ (some "client") none true
    (.ofList [.str "read"]) ∅
  userAuthentication := some ⟨⟨"alice", "alice@mail"⟩, some "N/A", some [⟨"role_user"⟩]⟩

def aliceAccessToken : OAuth2AccessToken where
  value := "token"
  expiration := none
  scope := some aliceAuthentication.storedRequest.scope
  additionalInformation := ∅

def encodedForAlice : ClaimsMap :=
  ({} : CustomAccessTokenConverter).convertAccessToken SpringSecurity.reference
    (fun _ => some "CustomPrincipal@1b2c3d") aliceAccessToken aliceAuthentication

theorem token_of_alice_never_round_trips :
    ¬ ∃ decoded decodedUser,
      ({} : CustomAccessTokenConverter).extractAuthentication SpringSecurity.reference
        encodedForAlice = .ok decoded ∧
      decoded.userAuthentication = some decodedUser ∧
      decodedUser.principal = ⟨"alice", "alice@mail"⟩ ∧
      (∀ a, a ∈ decodedUser.authorities.getD [] ↔ a ∈ [GrantedAuthority.mk "role_user"]) ∧
      decoded.storedRequest.clientId = some "client" ∧
      decoded.storedRequest.scope = aliceAuthentication.storedRequest.scope ∧
      decoded.storedRequest.resourceIds.getD ∅ = ∅ :=
  user_token_never_round_trips SpringSecurity.reference {} (fun _ => some "CustomPrincipal@1b2c3d")
    aliceAccessToken aliceAuthentication
    ⟨⟨"alice", "alice@mail"⟩, some "N/A", some [⟨"role_user"⟩]⟩ rfl (by decide)

/-- The claims encoded for alice make the decoder throw. -/
theorem token_of_alice_not_decoded :
    ({} : CustomAccessTokenConverter).extractAuthentication SpringSecurity.reference
      encodedForAlice = .error (.ofClass .nullPointer) :=
  rfl

end CustomAccessTokenConverter

end ResourceServer
