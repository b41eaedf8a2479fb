import SecurityOAuth2Jwt.Java.Proofs.LongProofs
import SecurityOAuth2Jwt.ResourceServer.Proofs.EncoderProofs
import SecurityOAuth2Jwt.ResourceServer.Proofs.DecoderProofs

/-!
# Proofs: encoding a token whose additional information came from a claims map

The decoder leaves `user_name`, `authorities` and most other claims in the additional information of
the token, and the encoder copies this information over the claims it wrote before. So the claims of
the decoded map win over those of the authentication.
-/

namespace ResourceServer

open Java Spring

namespace CustomAccessTokenConverter

variable {π : Type} {S : SpringSecurity} {conv : CustomAccessTokenConverter}

/-! ## What the additional information decides -/

/-- Two tokens with the same scope and expiration whose additional informations agree on a claim
other than `jti` are encoded alike on this claim. -/
theorem find?_convertAccessToken_congr (S : SpringSecurity) (conv : CustomAccessTokenConverter)
    (nameOf : π → Option String) {authentication : OAuth2Authentication π}
    {token₁ token₂ : OAuth2AccessToken} (hscope : token₁.scope = token₂.scope)
    (hexp : token₁.expiration = token₂.expiration) {k : String} (hjti : k ≠ Claim.jti)
    (hk : token₁.additionalInformation.find? k = token₂.additionalInformation.find? k) :
    (conv.convertAccessToken S nameOf token₁ authentication).find? k =
      (conv.convertAccessToken S nameOf token₂ authentication).find? k := by
  have hwritten : (writtenClaims S conv nameOf token₁ authentication).find? k =
      (writtenClaims S conv nameOf token₂ authentication).find? k := by
    simp only [writtenClaims, if_neg hjti, hscope, hexp]
  rw [find?_convertAccessToken, find?_convertAccessToken, hk, hwritten]
  by_cases haud : k = Claim.aud
  · subst haud
    rw [hk]
  · simp only [if_neg haud]

/-- The claims that a token always takes from the authentication are the client id and a non-empty
audience. On the other security claims two tokens agree when their additional informations do, and a
token decoded from one user's claims keeps the name and the authorities in them under any
authentication. -/
theorem additional_information_decides (S : SpringSecurity) (conv : CustomAccessTokenConverter)
    (nameOf : π → Option String) (authentication : OAuth2Authentication π) :
    (∀ token₁ token₂ : OAuth2AccessToken, token₁.scope = token₂.scope →
      token₁.expiration = token₂.expiration →
      let m₁ := conv.convertAccessToken S nameOf token₁ authentication
      let m₂ := conv.convertAccessToken S nameOf token₂ authentication
      m₁.find? Claim.clientId = m₂.find? Claim.clientId ∧
      ((∃ ids, authentication.storedRequest.resourceIds = some ids ∧ ids ≠ ∅) →
        m₁.find? Claim.aud = m₂.find? Claim.aud) ∧
      ∀ k ∈ [Claim.username, Claim.authorities, Claim.scope, Claim.exp, Claim.aud],
        token₁.additionalInformation.find? k = token₂.additionalInformation.find? k →
          m₁.find? k = m₂.find? k) ∧
    (∀ (value : String) (map : ClaimsMap) (token : OAuth2AccessToken),
      extractAccessToken value map = .ok token →
      ∀ k ∈ [Claim.username, Claim.authorities], ∀ x, map.find? k = some x →
        (conv.convertAccessToken S nameOf token authentication).find? k = some x) := by
  constructor
  · intro token₁ token₂ hscope hexp
    refine ⟨?_, ?_, ?_⟩
    · rw [find?_convertAccessToken_clientId, find?_convertAccessToken_clientId]
    · rintro ⟨ids, hids, hne⟩
      rw [find?_convertAccessToken_aud S conv nameOf token₁ hids hne,
        find?_convertAccessToken_aud S conv nameOf token₂ hids hne]
    · intro k hk hinfo
      have hjti : k ≠ Claim.jti := by
        rintro rfl
        revert hk
        decide
      exact find?_convertAccessToken_congr S conv nameOf hscope hexp hjti hinfo
  · intro value map token h k hk x hx
    obtain ⟨e, s, -, -, rfl⟩ := extractAccessToken_ok_iff.mp h
    have hkept : ¬ ConsumedClaim k ∧ k ∉ [Claim.aud, Claim.clientId] := by
      unfold ConsumedClaim
      rcases List.mem_pair.mp hk with rfl | rfl <;> decide
    obtain ⟨hkept, hother⟩ := hkept
    refine find?_convertAccessToken_of_information S conv nameOf authentication ?_ hother
    exact (find?_extractInformation_of_kept hkept).trans hx

/-! The claims of alice under an authentication of bob, encoded by the wired converter. -/

def aliceClaims : ClaimsMap :=
  let map : ClaimsMap := ∅
  let map := map.put Claim.username (.str "alice")
  let map := map.put email (.str "alice@mail")
  map.put Claim.authorities (.coll [.str "role_admin"])

def forgedInformation : ClaimsMap :=
  let information := aliceClaims
  let information := information.put Claim.scope (.coll [.str "write"])
  let information := information.put Claim.exp (.long 9999999999)
  information.put Claim.aud (.coll [.str "forged"])

def tokenWith (information : ClaimsMap) : OAuth2AccessToken :=
  { value := "token", expiration := none, scope := some ∅, additionalInformation := information }

def bobAuthentication (resourceIds : LinkedHashSet Elem) :
    OAuth2Authentication CustomPrincipal where
  storedRequest := SpringSecurity.reference.oauth2Request ∅ (some "client") none true ∅ resourceIds
  userAuthentication := some ⟨⟨"bob", "bob@mail"⟩, none, some [⟨"role_user"⟩]⟩

/-- `CustomPrincipal` does not override `toString`. -/
def objectName (_ : CustomPrincipal) : Option String := some "CustomPrincipal@1b2c3d"

def encodeForBob (resourceIds : LinkedHashSet Elem) (information : ClaimsMap) : ClaimsMap :=
  ({} : CustomAccessTokenConverter).convertAccessToken SpringSecurity.reference objectName
    (tokenWith information) (bobAuthentication resourceIds)

theorem additional_information_decides_for_bob :
    (encodeForBob (.ofList [.str "resource"]) forgedInformation).find? Claim.aud =
      (encodeForBob (.ofList [.str "resource"]) ∅).find? Claim.aud ∧
    (encodeForBob ∅ (extractInformation aliceClaims)).find? Claim.username = some (.str "alice") :=
  ⟨((additional_information_decides SpringSecurity.reference {} objectName
      (bobAuthentication (.ofList [.str "resource"]))).1 (tokenWith forgedInformation) (tokenWith ∅)
      rfl rfl).2.1 ⟨_, rfl, by decide⟩,
    (additional_information_decides SpringSecurity.reference {} objectName
      (bobAuthentication ∅)).2 "token" aliceClaims (tokenWith (extractInformation aliceClaims)) rfl
      Claim.username (by decide) (.str "alice") rfl⟩

/-- Two tokens that differ in their additional information only are encoded differently on five of
the six security claims, and a token decoded from alice's claims names alice under an authentication
of bob. -/
theorem information_of_alice_wins_over_bob :
    (tokenWith forgedInformation).scope = (tokenWith ∅).scope ∧
    (tokenWith forgedInformation).expiration = (tokenWith ∅).expiration ∧
    (∀ k ∈ [Claim.username, Claim.authorities, Claim.scope, Claim.exp, Claim.aud],
      (encodeForBob ∅ forgedInformation).find? k ≠ (encodeForBob ∅ ∅).find? k) ∧
    extractAccessToken "token" aliceClaims = .ok (tokenWith (extractInformation aliceClaims)) ∧
    (encodeForBob ∅ (extractInformation aliceClaims)).find? Claim.username = some (.str "alice") ∧
    (encodeForBob ∅ (extractInformation aliceClaims)).find? Claim.authorities =
      some (.coll [.str "role_admin"]) :=
  ⟨rfl, rfl, by decide, rfl, by decide, by decide⟩

/-! ## Re-encoding a decoded token -/

section Reencoding

variable {value : String} {map : ClaimsMap} {token : OAuth2AccessToken}
  {authentication : OAuth2Authentication CustomPrincipal}

theorem writtenUsername_eq_none (nameOf : CustomPrincipal → Option String)
    (ha : conv.extractAuthentication S map = .ok authentication)
    (hnone : map.find? Claim.username = none) : writtenUsername nameOf authentication = none := by
  obtain ⟨s, user, c, p, r, l, -, huser, -, -, -, -, rfl⟩ := extractAuthentication_ok_iff.mp ha
  rw [CustomUserAuthenticationConverter.extractAuthentication_of_none hnone] at huser
  cases huser
  rfl

theorem writtenAuthorities_eq_none (hS : S.Documented)
    (hdef : conv.userTokenConverter.defaultAuthorities = none)
    (ha : conv.extractAuthentication S map = .ok authentication)
    (hnone : map.find? Claim.authorities = none) : writtenAuthorities S authentication = none := by
  have hkey : map.containsKey Claim.authorities = false := JavaMap.containsKey_eq_false.mpr hnone
  obtain ⟨s, user, c, p, r, l, -, huser, -, -, -, hl, rfl⟩ := extractAuthentication_ok_iff.mp ha
  cases user with
  | none =>
    have hnull : l = none := by
      simp only [extractClientAuthorities, hkey, Bool.and_false] at hl
      cases hl
      rfl
    subst hnull
    simp only [writtenAuthorities, (hS.request ..).authorities]
    rfl
  | some user =>
    obtain ⟨-, u, e, as, -, -, has, rfl⟩ :=
      (CustomUserAuthenticationConverter.extractAuthentication_ok_some_iff hS).mp huser
    have hnull : as = none := by
      simp only [CustomUserAuthenticationConverter.getAuthorities, hkey, hdef] at has
      cases has
      rfl
    subst hnull
    rfl

theorem getGrantType_eq_none (hS : S.Documented)
    (ha : conv.extractAuthentication S map = .ok authentication)
    (hnone : map.find? Claim.grantType = none) :
    S.getGrantType authentication.storedRequest.requestParameters = none := by
  have hkey : map.containsKey Claim.grantType = false := JavaMap.containsKey_eq_false.mpr hnone
  obtain ⟨s, user, c, p, r, l, -, -, -, hp, -, -, rfl⟩ := extractAuthentication_ok_iff.mp ha
  simp only [extractParameters, hkey, Bool.and_false] at hp
  cases hp
  rw [(hS.request ..).requestParameters]
  refine hS.grantType_none _ ?_ ?_
  · simp +decide
  · simp +decide

/-- What the encoder writes for a claim that the decoded map does not have, `scope`, `exp` and the
claims it always writes aside. -/
theorem find?_writtenClaims_eq_none (hS : S.Documented)
    (hdef : conv.userTokenConverter.defaultAuthorities = none)
    (nameOf : CustomPrincipal → Option String)
    (ht : extractAccessToken value map = .ok token)
    (ha : conv.extractAuthentication S map = .ok authentication) {k : String}
    (hk : ¬ ConsumedClaim k) (hnone : map.find? k = none) :
    (writtenClaims S conv nameOf token authentication).find? k = none := by
  have hscope : k ≠ Claim.scope := fun h => hk (by simp [ConsumedClaim, h])
  have hexp : k ≠ Claim.exp := fun h => hk (by simp [ConsumedClaim, h])
  obtain ⟨e, s, -, -, rfl⟩ := extractAccessToken_ok_iff.mp ht
  unfold writtenClaims
  simp only [if_neg hscope, if_neg hexp]
  split_ifs with huser hauth hjti hgrant hinclude
  · subst huser
    exact writtenUsername_eq_none nameOf ha hnone
  · subst hauth
    exact writtenAuthorities_eq_none hS hdef ha hnone
  · subst hjti
    exact (find?_extractInformation_of_kept hk).trans hnone
  · subst hgrant
    rw [getGrantType_eq_none hS ha hnone]
    rfl
  · rfl
  · rfl

/-- A re-encoded token has the claims of the decoded map, except for the three claims that the
encoder takes from the request and the scope of the token. -/
theorem find?_reencoded (hS : S.Documented)
    (hdef : conv.userTokenConverter.defaultAuthorities = none)
    (nameOf : CustomPrincipal → Option String)
    (ht : extractAccessToken value map = .ok token)
    (ha : conv.extractAuthentication S map = .ok authentication)
    (hexp : ∀ x, map.find? Claim.exp = some x → ∃ ms : Int64, x = .long (ms / 1000)) {k : String}
    (hrest : k ∉ [Claim.scope, Claim.aud, Claim.clientId]) :
    (conv.convertAccessToken S nameOf token authentication).find? k = map.find? k := by
  obtain ⟨hscope, hother⟩ := not_or.mp (mt List.mem_cons.mpr hrest)
  obtain ⟨e, s, he, -, rfl⟩ := extractAccessToken_ok_iff.mp ht
  by_cases hk : k = Claim.exp
  · subst hk
    have hfree : (extractInformation map).find? Claim.exp = none :=
      find?_extractInformation_of_consumed (Or.inl rfl)
    rw [find?_convertAccessToken_of_free S conv nameOf authentication hfree hother]
    show (e.map fun time => JavaValue.long (time / 1000)) = map.find? Claim.exp
    rcases extractExpiration_ok_iff.mp he with ⟨hm, rfl⟩ | ⟨n, hm, rfl⟩
    · rw [hm]
      rfl
    · obtain ⟨ms, hms⟩ := hexp _ hm
      cases hms
      rw [hm, Option.map_some, seconds_mul_div]
  · have hkept : ¬ ConsumedClaim k := by
      rintro (hexp | haud | hcid | hscope')
      · exact hk hexp
      · exact hother (by simp [haud])
      · exact hother (by simp [hcid])
      · exact hscope hscope'
    rw [find?_convertAccessToken_of_other S conv nameOf _ authentication hother]
    show ((extractInformation map).find? k).or _ = map.find? k
    rw [find?_extractInformation_of_kept hkept]
    cases hm : map.find? k with
    | some x => rfl
    | none => exact find?_writtenClaims_eq_none hS hdef nameOf ht ha hkept hm

/-- The scope of a decoded token is written back as a collection. -/
theorem find?_reencoded_scope (nameOf : CustomPrincipal → Option String)
    (ht : extractAccessToken value map = .ok token) {scope : LinkedHashSet Elem}
    (hs : extractScope map = .ok scope) :
    (conv.convertAccessToken S nameOf token authentication).find? Claim.scope =
      some (.ofSet scope) := by
  obtain ⟨e, s', -, hs', rfl⟩ := extractAccessToken_ok_iff.mp ht
  rw [hs] at hs'
  cases hs'
  have hfree : (extractInformation map).find? Claim.scope = none :=
    find?_extractInformation_of_consumed (Or.inr (Or.inr (Or.inr rfl)))
  exact find?_convertAccessToken_of_free S conv nameOf authentication hfree (by decide)

/-- The audience of a decoded token is written back as a collection, unless it is empty. -/
theorem find?_reencoded_aud (nameOf : CustomPrincipal → Option String)
    (ht : extractAccessToken value map = .ok token) {ids : LinkedHashSet Elem}
    (hids : authentication.storedRequest.resourceIds = some ids) :
    (conv.convertAccessToken S nameOf token authentication).find? Claim.aud =
      ids.nonEmpty?.map .ofSet := by
  have hkey : ConsumedClaim Claim.aud := Or.inr (Or.inl rfl)
  obtain ⟨e, s, -, -, rfl⟩ := extractAccessToken_ok_iff.mp ht
  rw [find?_convertAccessToken, if_pos rfl, find?_extractInformation_of_consumed hkey,
    Option.or_none, writtenAudience, hids, Option.bind_some]

/-- The encoder adds no audience to a decoded token without one. -/
theorem find?_reencoded_aud_eq_none (hS : S.Documented) (nameOf : CustomPrincipal → Option String)
    (ht : extractAccessToken value map = .ok token)
    (ha : conv.extractAuthentication S map = .ok authentication)
    (hnone : map.find? Claim.aud = none) :
    (conv.convertAccessToken S nameOf token authentication).find? Claim.aud = none := by
  obtain ⟨s, user, c, p, ids, l, -, -, -, -, hids, -, hauth⟩ := extractAuthentication_ok_iff.mp ha
  have hempty : ids = ∅ := by
    rw [extractResourceIds_none hnone] at hids
    cases hids
    rfl
  have hrequest : authentication.storedRequest.resourceIds = some ∅ := by
    rw [hauth, ← hempty]
    exact (hS.request ..).resourceIds
  rw [find?_reencoded_aud nameOf ht hrequest]
  rfl

section Decoded

variable (hS : S.Documented) (hdef : conv.userTokenConverter.defaultAuthorities = none)
  (nameOf : CustomPrincipal → Option String) (ht : extractAccessToken value map = .ok token)
  (ha : conv.extractAuthentication S map = .ok authentication)
  (hexp : ∀ x, map.find? Claim.exp = some x → ∃ ms : Int64, x = .long (ms / 1000))

include hS hdef ht ha hexp

theorem extractAccessToken_reencoded :
    extractAccessToken value (conv.convertAccessToken S nameOf token authentication) =
      .ok token := by
  obtain ⟨expiration, scope, he, hs, htoken⟩ := extractAccessToken_ok_iff.mp ht
  have hkeep := @find?_reencoded S conv value map token authentication hS hdef nameOf ht ha hexp
  refine extractAccessToken_ok_iff.mpr ⟨expiration, scope, ?_, ?_, ?_⟩
  · rw [← he]
    exact extractExpiration_congr (hkeep (by decide))
  · rw [extractScope_coll (find?_reencoded_scope nameOf ht hs), LinkedHashSet.ofList_toList]
  · have hinformation : extractInformation (conv.convertAccessToken S nameOf token authentication) =
        extractInformation map := by
      refine extractInformation_congr fun k hk => hkeep ?_
      intro hmem
      apply hk
      simp only [List.mem_cons, List.not_mem_nil, or_false] at hmem
      rcases hmem with hscope | haud | hcid
      · exact Or.inr (Or.inr (Or.inr hscope))
      · exact Or.inr (Or.inl haud)
      · exact Or.inr (Or.inr (Or.inl hcid))
    rw [hinformation]
    exact htoken

theorem extractAuthentication_reencoded :
    conv.extractAuthentication S (conv.convertAccessToken S nameOf token authentication) =
      .ok authentication := by
  have hkeep := @find?_reencoded S conv value map token authentication hS hdef nameOf ht ha hexp
  obtain ⟨scope, user, clientId, parameters, ids, authorities, hs, huser, -, hp, -, hl, hauth⟩ :=
    extractAuthentication_ok_iff.mp ha
  have hclient : (conv.convertAccessToken S nameOf token authentication).find? Claim.clientId =
      some (.ofString clientId) := by
    rw [find?_convertAccessToken_clientId, hauth, (hS.request ..).clientId]
  have hrequest : authentication.storedRequest.resourceIds = some ids := by
    rw [hauth]
    exact (hS.request ..).resourceIds
  have haud : (conv.convertAccessToken S nameOf token authentication).find? Claim.aud =
      ids.nonEmpty?.map .ofSet := find?_reencoded_aud nameOf ht hrequest
  refine extractAuthentication_ok_iff.mpr
    ⟨scope, user, clientId, parameters, ids, authorities, ?_, ?_, ?_, ?_, ?_, ?_, hauth⟩
  · rw [extractScope_coll (find?_reencoded_scope nameOf ht hs), LinkedHashSet.ofList_toList]
  · rw [← huser]
    exact CustomUserAuthenticationConverter.extractAuthentication_congr
      (hkeep (by decide)) (hkeep (by decide)) (hkeep (by decide))
  · rw [ClaimsMap.get_of_find? hclient, JavaValue.castString_ofString]
  · rw [← hp]
    exact extractParameters_congr (hkeep (by decide))
  · exact extractResourceIds_of_nonEmpty haud
  · rw [← hl]
    exact extractClientAuthorities_congr (hkeep (by decide))

/-- Re-encoding adds no claim but `scope` and `client_id`. -/
theorem containsKey_of_reencoded {k : String}
    (hk : (conv.convertAccessToken S nameOf token authentication).containsKey k = true) :
    map.containsKey k = true ∨ k = Claim.scope ∨ k = Claim.clientId := by
  obtain ⟨x, hx⟩ := JavaMap.containsKey_eq_true.mp hk
  by_cases hscope : k = Claim.scope
  · exact Or.inr (Or.inl hscope)
  by_cases hcid : k = Claim.clientId
  · exact Or.inr (Or.inr hcid)
  refine Or.inl (JavaMap.containsKey_eq_true.mpr ?_)
  by_cases haud : k = Claim.aud
  · subst haud
    refine Option.ne_none_iff_exists'.mp fun hnone => ?_
    have habsent := find?_reencoded_aud_eq_none hS nameOf ht ha hnone
    rw [habsent] at hx
    cases hx
  · have hrest : k ∉ [Claim.scope, Claim.aud, Claim.clientId] := by simp [hscope, haud, hcid]
    exact ⟨x, (find?_reencoded hS hdef nameOf ht ha hexp hrest).symm.trans hx⟩

end Decoded

/-- Re-encoding a decoded token keeps every claim but `scope`, `aud` and `client_id`, adds none but
`scope` and `client_id`, writes the decoded values of these three, and decoding the result gives the
same token and the same authentication again. -/
theorem reencoded_token_stable (hS : S.Documented)
    (hdef : conv.userTokenConverter.defaultAuthorities = none)
    (nameOf : CustomPrincipal → Option String) (ht : extractAccessToken value map = .ok token)
    (ha : conv.extractAuthentication S map = .ok authentication)
    (hexp : ∀ x, map.find? Claim.exp = some x → ∃ ms : Int64, x = .long (ms / 1000)) :
    let map₂ := conv.convertAccessToken S nameOf token authentication
    (∀ k x, k ∉ [Claim.scope, Claim.aud, Claim.clientId] → map.find? k = some x →
      map₂.find? k = some x) ∧
    (∀ k, map₂.containsKey k = true →
      map.containsKey k = true ∨ k = Claim.scope ∨ k = Claim.clientId) ∧
    (∃ scope, extractScope map = .ok scope ∧ token.scope = some scope ∧
      S.BuiltWith scope authentication.storedRequest ∧
      (S.StoresScope scope → authentication.storedRequest.scope = scope) ∧
      map₂.find? Claim.scope = some (.ofSet scope)) ∧
    map₂.find? Claim.clientId = some (.ofString authentication.storedRequest.clientId) ∧
    (∃ ids, authentication.storedRequest.resourceIds = some ids ∧
      (map₂.find? Claim.aud = none ↔ ids = ∅) ∧
      (ids ≠ ∅ → map₂.find? Claim.aud = some (.ofSet ids))) ∧
    extractAccessToken value map₂ = .ok token ∧
    conv.extractAuthentication S map₂ = .ok authentication := by
  intro map₂
  have hkeep := @find?_reencoded S conv value map token authentication hS hdef nameOf ht ha hexp
  obtain ⟨expiration, scope, he, hs, htoken⟩ := extractAccessToken_ok_iff.mp ht
  obtain ⟨scope', user, clientId, parameters, ids, authorities, hs', -, -, -, -, -, hauth⟩ :=
    extractAuthentication_ok_iff.mp ha
  have hsame : scope' = scope := by
    rw [hs] at hs'
    cases hs'
    rfl
  have hrequest : authentication.storedRequest.resourceIds = some ids := by
    rw [hauth]
    exact (hS.request ..).resourceIds
  have haud : map₂.find? Claim.aud = ids.nonEmpty?.map .ofSet :=
    find?_reencoded_aud nameOf ht hrequest
  have hbuilt : S.BuiltWith scope authentication.storedRequest := by
    rw [hauth, hsame]
    exact ⟨parameters, clientId, authorities, true, ids, rfl⟩
  refine ⟨?_, fun k => containsKey_of_reencoded hS hdef nameOf ht ha hexp,
    ⟨scope, hs, ?_, hbuilt, hbuilt.scope_eq, find?_reencoded_scope nameOf ht hs⟩,
    find?_convertAccessToken_clientId S conv nameOf token authentication, ⟨ids, hrequest, ?_, ?_⟩,
    extractAccessToken_reencoded hS hdef nameOf ht ha hexp,
    extractAuthentication_reencoded hS hdef nameOf ht ha hexp⟩
  · intro k x hk hx
    exact (hkeep hk).trans hx
  · rw [htoken]
  · rw [haud, Option.map_eq_none_iff, LinkedHashSet.nonEmpty?_eq_none_iff]
  · intro hne
    rw [haud, LinkedHashSet.nonEmpty?_of_ne hne]
    rfl

/-- A token of alice with a scope string and a single audience. -/
def aliceToken : ClaimsMap :=
  let map := aliceClaims
  let map := map.put Claim.scope (.str "read write")
  let map := map.put Claim.aud (.str "resource")
  let map := map.put Claim.clientId (.str "client")
  let map := map.put Claim.exp (.long (1600000000123 / 1000))
  map.put "ati" (.str "id")

theorem reencoded_token_of_alice :
    ∃ token authentication, extractAccessToken "token" aliceToken = .ok token ∧
      ({} : CustomAccessTokenConverter).extractAuthentication SpringSecurity.reference aliceToken =
        .ok authentication ∧
      (({} : CustomAccessTokenConverter).convertAccessToken SpringSecurity.reference objectName
        token authentication).find? Claim.username = some (.str "alice") := by
  obtain ⟨token, ht⟩ : ∃ token, extractAccessToken "token" aliceToken = .ok token := ⟨_, rfl⟩
  obtain ⟨authentication, ha⟩ : ∃ authentication,
      ({} : CustomAccessTokenConverter).extractAuthentication SpringSecurity.reference aliceToken =
        .ok authentication := ⟨_, rfl⟩
  refine ⟨token, authentication, ht, ha, ?_⟩
  refine (reencoded_token_stable SpringSecurity.reference_documented rfl objectName ht ha ?_).1
    Claim.username (.str "alice") (by decide) rfl
  intro x hx
  cases hx
  exact ⟨1600000000123, rfl⟩

end Reencoding

end CustomAccessTokenConverter

end ResourceServer
