import SecurityOAuth2Jwt.Java.Proofs.LongProofs
import SecurityOAuth2Jwt.ResourceServer.Proofs.ReencodingProofs
import SecurityOAuth2Jwt.ResourceServer.Proofs.DecoderProofs

/-!
# Proofs: the expiration of a decoded token

The decoder multiplies the seconds of the `exp` claim by 1000 in 64 bits. The product is exact, and
comes back through the encoder, for the seconds whose milliseconds fit into 64 bits and no others.
-/

namespace ResourceServer

open Java Spring

namespace CustomAccessTokenConverter

variable {S : SpringSecurity} {conv : CustomAccessTokenConverter}
  {nameOf : CustomPrincipal → Option String}

/-- A claims map with an `exp` claim that is decoded to a token and an authentication. -/
structure Decoded (S : SpringSecurity) (conv : CustomAccessTokenConverter) (value : String)
    (m : ClaimsMap) (e : Int64) (token : OAuth2AccessToken)
    (authentication : OAuth2Authentication CustomPrincipal) : Prop where
  exp : m.find? Claim.exp = some (.long e)
  token : extractAccessToken value m = .ok token
  authentication : conv.extractAuthentication S m = .ok authentication

/-- The token expires at the instant that `exp` names, and `exp` is written back. -/
structure ExpirySurvives (S : SpringSecurity) (conv : CustomAccessTokenConverter)
    (nameOf : CustomPrincipal → Option String) (e : Int64) (token : OAuth2AccessToken)
    (authentication : OAuth2Authentication CustomPrincipal) : Prop where
  exact : token.expiration.map Int64.toInt = some (1000 * e.toInt)
  expired : ∀ now : Int64, 1000 * e.toInt < now.toInt → token.isExpired now = true
  valid : ∀ now : Int64, now.toInt < 1000 * e.toInt → token.isExpired now = false
  written : (conv.convertAccessToken S nameOf token authentication).find? Claim.exp =
    some (.long e)

theorem Decoded.expiration {value : String} {m : ClaimsMap} {e : Int64} {token : OAuth2AccessToken}
    {authentication : OAuth2Authentication CustomPrincipal}
    (h : Decoded S conv value m e token authentication) : token.expiration = some (e * 1000) := by
  obtain ⟨expiration, scope, hexp, -, rfl⟩ := extractAccessToken_ok_iff.mp h.token
  rcases extractExpiration_ok_iff.mp hexp with ⟨hnone, -⟩ | ⟨n, hn, rfl⟩
  · rw [h.exp] at hnone
    cases hnone
  · rw [h.exp] at hn
    cases hn
    rfl

/-- The additional information of a decoded token has no `exp`, so the encoder divides. -/
theorem Decoded.find?_exp {value : String} {m : ClaimsMap} {e : Int64} {token : OAuth2AccessToken}
    {authentication : OAuth2Authentication CustomPrincipal}
    (h : Decoded S conv value m e token authentication) :
    (conv.convertAccessToken S nameOf token authentication).find? Claim.exp =
      some (.long (e * 1000 / 1000)) := by
  have hexp := h.expiration
  obtain ⟨expiration, scope, -, -, rfl⟩ := extractAccessToken_ok_iff.mp h.token
  have hfree : (extractInformation m).find? Claim.exp = none :=
    find?_extractInformation_of_consumed (Or.inl rfl)
  refine (find?_convertAccessToken_of_free S conv nameOf authentication hfree (by decide)).trans ?_
  show expiration.map (fun time => JavaValue.long (time / 1000)) = _
  rw [show expiration = some (e * 1000) from hexp]
  rfl

theorem expirySurvives_iff {value : String} {m : ClaimsMap} {e : Int64} {token : OAuth2AccessToken}
    {authentication : OAuth2Authentication CustomPrincipal}
    (h : Decoded S conv value m e token authentication) :
    ExpirySurvives S conv nameOf e token authentication ↔ FitsMillis e := by
  have hexp := h.expiration
  constructor
  · intro hsurvives
    have hexact := hsurvives.exact
    rw [hexp] at hexact
    exact (toInt_millis_iff e).mp (Option.some.inj hexact)
  · intro hfits
    have hmillis := (toInt_millis_iff e).mpr hfits
    refine ⟨?_, fun now hnow => ?_, fun now hnow => ?_, ?_⟩
    · rw [hexp, Option.map_some, hmillis]
    · rw [← hmillis] at hnow
      simp only [OAuth2AccessToken.isExpired, hexp]
      exact decide_eq_true (Int64.lt_iff_toInt_lt.mpr hnow)
    · rw [← hmillis] at hnow
      simp only [OAuth2AccessToken.isExpired, hexp]
      refine decide_eq_false fun hlt => ?_
      have hlt' := Int64.lt_iff_toInt_lt.mp hlt
      omega
    · rw [h.find?_exp, (millis_div_iff e).mpr hfits]

/-- For any two decoded maps, the expirations are the instants that `exp` names, in the same order,
and are written back, exactly when the milliseconds of both fit into 64 bits. -/
theorem expiry_survives_iff {conv : CustomAccessTokenConverter} {value₁ value₂ : String}
    {m₁ m₂ : ClaimsMap} {e₁ e₂ : Int64} {token₁ token₂ : OAuth2AccessToken}
    {authentication₁ authentication₂ : OAuth2Authentication CustomPrincipal}
    (h₁ : Decoded S conv value₁ m₁ e₁ token₁ authentication₁)
    (h₂ : Decoded S conv value₂ m₂ e₂ token₂ authentication₂) :
    (ExpirySurvives S conv nameOf e₁ token₁ authentication₁ ∧
      ExpirySurvives S conv nameOf e₂ token₂ authentication₂ ∧
      (e₁ ≤ e₂ → ∃ time₁ time₂, token₁.expiration = some time₁ ∧
        token₂.expiration = some time₂ ∧ time₁ ≤ time₂)) ↔
    FitsMillis e₁ ∧ FitsMillis e₂ := by
  rw [expirySurvives_iff h₁, expirySurvives_iff h₂]
  constructor
  · rintro ⟨hfits₁, hfits₂, -⟩
    exact ⟨hfits₁, hfits₂⟩
  · rintro ⟨hfits₁, hfits₂⟩
    refine ⟨hfits₁, hfits₂, fun hle => ⟨_, _, h₁.expiration, h₂.expiration, ?_⟩⟩
    have hle' := Int64.le_iff_toInt_le.mp hle
    rw [Int64.le_iff_toInt_le, (toInt_millis_iff e₁).mpr hfits₁, (toInt_millis_iff e₂).mpr hfits₂]
    omega

/-! A token that expires in 2100, and one that expires a second after the last 64-bit instant. -/

def claimsWithExp (e : Int64) : ClaimsMap := (∅ : ClaimsMap).put Claim.exp (.long e)

theorem expiry_of_2100_survives :
    ∃ token authentication, Decoded .reference {} "token" (claimsWithExp 4102444800) 4102444800
        token authentication ∧
      ExpirySurvives .reference {} objectName 4102444800 token authentication := by
  obtain ⟨token, ht⟩ : ∃ token, extractAccessToken "token" (claimsWithExp 4102444800) = .ok token :=
    ⟨_, rfl⟩
  obtain ⟨authentication, ha⟩ : ∃ authentication,
      ({} : CustomAccessTokenConverter).extractAuthentication .reference
        (claimsWithExp 4102444800) = .ok authentication := ⟨_, rfl⟩
  have hdecoded : Decoded .reference {} "token" (claimsWithExp 4102444800) 4102444800 token
      authentication := ⟨rfl, ht, ha⟩
  exact ⟨token, authentication, hdecoded,
    ((expiry_survives_iff hdecoded hdecoded).mpr ⟨by decide, by decide⟩).1⟩

/-- The token is decoded to a time before 1970: it is expired at all times from then on, and the
encoder writes another `exp`. -/
theorem expiry_past_64_bits_wraps :
    ∃ token authentication, Decoded .reference {} "token" (claimsWithExp 9223372036854776)
        9223372036854776 token authentication ∧
      token.expiration.map Int64.toInt = some (-9223372036854775616) ∧
      token.isExpired 0 = true ∧
      (({} : CustomAccessTokenConverter).convertAccessToken .reference objectName token
        authentication).find? Claim.exp = some (.long (-9223372036854775)) :=
  ⟨_, _, ⟨rfl, rfl, rfl⟩, rfl, rfl, rfl⟩

end CustomAccessTokenConverter

end ResourceServer
