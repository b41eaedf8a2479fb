import SecurityOAuth2Jwt.ResourceServer.CustomAccessTokenConverter

/-!
# Proofs: the claims written by `convertAccessToken`

The encoder writes the claims of the authentication and of the token, overwrites them with the
additional information of the token, and writes `client_id` and `aud` last. One lemma says what a
key of the result holds; the theorems about the encoder follow from it.
-/

namespace ResourceServer

open Java Spring

variable {π : Type} (S : SpringSecurity) (conv : CustomAccessTokenConverter)
  (nameOf : π → Option String)

namespace CustomAccessTokenConverter

/-- The authorities that the encoder writes for a user. -/
def writtenUserAuthorities (user : UserAuthentication π) : Option JavaValue :=
  match user.authorities with
  | some (a :: as) => some (.ofStringSet (S.authorityListToSet (a :: as)))
  | _ => none

/-- The authorities that the encoder writes: the user's, or those of a client-only request. -/
def writtenAuthorities (authentication : OAuth2Authentication π) : Option JavaValue :=
  match authentication.userAuthentication with
  | some user => writtenUserAuthorities S user
  | none =>
    (authentication.storedRequest.authorities.bind LinkedHashSet.nonEmpty?).map
      fun (as : LinkedHashSet GrantedAuthority) => .ofStringSet (S.authorityListToSet as.toList)

theorem writtenAuthorities_of_user {authentication : OAuth2Authentication π}
    {user : UserAuthentication π} (h : authentication.userAuthentication = some user) :
    writtenAuthorities S authentication = writtenUserAuthorities S user := by
  simp only [writtenAuthorities, h]

/-- The user name that the encoder writes. -/
def writtenUsername (authentication : OAuth2Authentication π) : Option JavaValue :=
  authentication.userAuthentication.map fun user => .ofString (nameOf user.principal)

/-- The claims written before the additional information. -/
def writtenClaims (token : OAuth2AccessToken) (authentication : OAuth2Authentication π) :
    ClaimsMap :=
  ⟨fun k =>
    if k = Claim.username then writtenUsername nameOf authentication
    else if k = Claim.authorities then writtenAuthorities S authentication
    else if k = Claim.scope then token.scope.map .ofSet
    else if k = Claim.jti then token.additionalInformation.find? Claim.jti
    else if k = Claim.exp then token.expiration.map fun time => .long (time / 1000)
    else if k = Claim.grantType then
      if conv.includeGrantType then
        (S.getGrantType authentication.storedRequest.requestParameters).map .str
      else none
    else none⟩

/-- The audience that the encoder writes, absent when empty. -/
def writtenAudience (authentication : OAuth2Authentication π) : Option JavaValue :=
  (authentication.storedRequest.resourceIds.bind LinkedHashSet.nonEmpty?).map .ofSet

/-- What the user converter writes. -/
theorem find?_convertUserAuthentication (user : UserAuthentication π) (k : String) :
    (CustomUserAuthenticationConverter.convertUserAuthentication S nameOf user).find? k =
      if k = Claim.username then some (.ofString (nameOf user.principal))
      else if k = Claim.authorities then writtenUserAuthorities S user
      else none := by
  have hdistinct : Claim.authorities ≠ Claim.username := by decide
  unfold CustomUserAuthenticationConverter.convertUserAuthentication writtenUserAuthorities
  rcases user.authorities with - | (- | ⟨a, as⟩)
  · simp only [JavaMap.find?_put, JavaMap.find?_empty, ite_self]
  · simp only [JavaMap.find?_put, JavaMap.find?_empty, ite_self]
  · by_cases hk : k = Claim.authorities
    · subst hk
      simp only [JavaMap.find?_put, if_pos, if_neg hdistinct]
    · simp only [JavaMap.find?_put, JavaMap.find?_empty, if_neg hk]

theorem find?_convertAuthentication (authentication : OAuth2Authentication π) (k : String) :
    (convertAuthentication S nameOf authentication).find? k =
      if k = Claim.username then writtenUsername nameOf authentication
      else if k = Claim.authorities then writtenAuthorities S authentication
      else none := by
  have hdistinct : Claim.authorities ≠ Claim.username := by decide
  unfold convertAuthentication writtenUsername writtenAuthorities
  cases authentication.userAuthentication with
  | none =>
    by_cases hk : k = Claim.authorities
    · subst hk
      simp only [JavaMap.find?_putSome, JavaMap.find?_empty, if_pos, if_neg hdistinct,
        Option.or_none]
    · simp only [JavaMap.find?_putSome, JavaMap.find?_empty, if_neg hk, Option.map_none, ite_self]
  | some user =>
    simp only [JavaMap.find?_putAll, JavaMap.find?_empty, find?_convertUserAuthentication,
      Option.or_none, Option.map_some]

/-- What every key of an encoded token holds. -/
theorem find?_convertAccessToken (token : OAuth2AccessToken)
    (authentication : OAuth2Authentication π) (k : String) :
    (conv.convertAccessToken S nameOf token authentication).find? k =
      if k = Claim.aud then
        (writtenAudience authentication).or (token.additionalInformation.find? Claim.aud)
      else if k = Claim.clientId then
        some (.ofString authentication.storedRequest.clientId)
      else (token.additionalInformation.find? k).or
        ((writtenClaims S conv nameOf token authentication).find? k) := by
  unfold convertAccessToken
  simp only [JavaMap.find?_putSome, JavaMap.find?_put, JavaMap.find?_putAll,
    find?_convertAuthentication]
  -- from the key written last to the one written first
  by_cases haud : k = Claim.aud
  · subst haud
    simp +decide [writtenAudience]
  by_cases hcid : k = Claim.clientId
  · simp only [if_neg haud, if_pos hcid]
  simp only [if_neg haud, if_neg hcid]
  congr 1
  unfold writtenClaims
  by_cases hgt : k = Claim.grantType
  · subst hgt
    simp +decide
  by_cases hexp : k = Claim.exp
  · subst hexp
    simp +decide
  by_cases hjti : k = Claim.jti
  · subst hjti
    simp +decide
  by_cases hscope : k = Claim.scope
  · subst hscope
    simp +decide
  simp only [if_neg hgt, if_neg hexp, if_neg hjti, if_neg hscope]

/-- The encoded client id is that of the authentication. -/
theorem find?_convertAccessToken_clientId (token : OAuth2AccessToken)
    (authentication : OAuth2Authentication π) :
    (conv.convertAccessToken S nameOf token authentication).find? Claim.clientId =
      some (.ofString authentication.storedRequest.clientId) := by
  rw [find?_convertAccessToken]
  rfl

/-- The audience of the authentication is encoded unless it is empty. -/
theorem find?_convertAccessToken_aud (token : OAuth2AccessToken)
    {authentication : OAuth2Authentication π} {ids : LinkedHashSet Elem}
    (hids : authentication.storedRequest.resourceIds = some ids) (hne : ids ≠ ∅) :
    (conv.convertAccessToken S nameOf token authentication).find? Claim.aud =
      some (.ofSet ids) := by
  have haud : writtenAudience authentication = some (.ofSet ids) := by
    unfold writtenAudience
    rw [hids, Option.bind_some, LinkedHashSet.nonEmpty?_of_ne hne, Option.map_some]
  rw [find?_convertAccessToken, if_pos rfl, haud]
  rfl

/-- Any other claim is taken from the additional information, or else from what was written
before. -/
theorem find?_convertAccessToken_of_other (token : OAuth2AccessToken)
    (authentication : OAuth2Authentication π) {k : String} (hk : k ∉ [Claim.aud, Claim.clientId]) :
    (conv.convertAccessToken S nameOf token authentication).find? k =
      (token.additionalInformation.find? k).or
        ((writtenClaims S conv nameOf token authentication).find? k) := by
  simp only [List.mem_cons, List.not_mem_nil, or_false, not_or] at hk
  obtain ⟨haud, hcid⟩ := hk
  rw [find?_convertAccessToken, if_neg haud, if_neg hcid]

/-- A claim in the additional information is encoded as it is, except `client_id` and `aud`. -/
theorem find?_convertAccessToken_of_information {token : OAuth2AccessToken}
    (authentication : OAuth2Authentication π) {k : String} {x : JavaValue}
    (hx : token.additionalInformation.find? k = some x) (hk : k ∉ [Claim.aud, Claim.clientId]) :
    (conv.convertAccessToken S nameOf token authentication).find? k = some x := by
  rw [find?_convertAccessToken_of_other S conv nameOf token authentication hk, hx]
  rfl

/-- A claim that is not in the additional information holds what the encoder wrote first. -/
theorem find?_convertAccessToken_of_free {token : OAuth2AccessToken}
    (authentication : OAuth2Authentication π) {k : String}
    (hfree : token.additionalInformation.find? k = none) (hk : k ∉ [Claim.aud, Claim.clientId]) :
    (conv.convertAccessToken S nameOf token authentication).find? k =
      (writtenClaims S conv nameOf token authentication).find? k := by
  rw [find?_convertAccessToken_of_other S conv nameOf token authentication hk, hfree,
    Option.none_or]

end CustomAccessTokenConverter

end ResourceServer
