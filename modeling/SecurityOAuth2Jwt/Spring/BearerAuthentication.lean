import SecurityOAuth2Jwt.Spring.Authentication

/-!
# Spring's authentication of bearer tokens

The filter in front of a resource server hands the token of a request to the authentication manager,
which is a parameter. It reads the token with the converter of the application, and accepts it if it
is no refresh token, is not expired and is meant for the resource.
-/

namespace Spring

open Java

variable {π : Type}

/-- The decoding half of `AccessTokenConverter`. -/
structure AccessTokenConverter (π : Type) where
  extractAccessToken : String → ClaimsMap → Result OAuth2AccessToken
  extractAuthentication : ClaimsMap → Result (OAuth2Authentication π)

/-- The classes of exceptions in the model that extend `OAuth2Exception`. -/
def oauth2Exceptions : List ExceptionClass := [.invalidToken, .invalidClient]

structure AccessTokenConverter.NeverOAuth2 (C : AccessTokenConverter π) : Prop where
  token : ∀ value map e, C.extractAccessToken value map = .error e → e.cls ∉ oauth2Exceptions
  authentication : ∀ map e, C.extractAuthentication map = .error e → e.cls ∉ oauth2Exceptions

/-- `AccessTokenConverter.ATI`: in a refresh token, the id of its access token. -/
def Claim.ati : String := "ati"

/-- What becomes of a token: an authentication, an `OAuth2Exception` that the filter answers
itself, or another exception, which passes the filter. -/
inductive Authenticated (π : Type) where
  | authenticated (authentication : OAuth2Authentication π)
  | refused
  | failed (e : JavaException)

/-- The filter handles an `OAuth2Exception` and lets any other exception pass. -/
def Authenticated.ofException (e : JavaException) : Authenticated π :=
  if e.cls ∈ oauth2Exceptions then .refused else .failed e

/-- The token is meant for the resource: a token that names no resource is meant for all. -/
def MeantFor (resourceId : String) (authentication : OAuth2Authentication π) : Prop :=
  ∀ ids, authentication.storedRequest.resourceIds = some ids → ids = ∅ ∨ Elem.str resourceId ∈ ids

instance (resourceId : String) (authentication : OAuth2Authentication π) :
    Decidable (MeantFor resourceId authentication) :=
  match h : authentication.storedRequest.resourceIds with
  | none => isTrue fun ids hids => by
      rw [h] at hids
      cases hids
  | some ids =>
    if hmeant : ids = ∅ ∨ Elem.str resourceId ∈ ids then
      isTrue fun ids' hids => by
        rw [h] at hids
        cases hids
        exact hmeant
    else isFalse fun hall => hmeant (hall ids h)

/-- `isRefreshToken(token)`: the token holds the id of another token. -/
def IsRefreshToken (token : OAuth2AccessToken) : Prop :=
  token.additionalInformation.containsKey Claim.ati = true

instance (token : OAuth2AccessToken) : Decidable (IsRefreshToken token) :=
  inferInstanceAs (Decidable (_ = true))

/-- `OAuth2AuthenticationManager.authenticate` over the token services of a resource server.
`decode` verifies the signature of a token and parses its claims. -/
structure OAuth2AuthenticationManager (π : Type) where
  authenticate : AccessTokenConverter π → (resourceId : String) →
    (decode : String → Option ClaimsMap) → (now : Int64) → (token : String) → Authenticated π

/-- The token is read first, then checked for its kind and its expiration; then the authentication
is read and its resource ids are checked. -/
structure OAuth2AuthenticationManager.Documented (M : OAuth2AuthenticationManager π) : Prop where
  not_signed : ∀ C resourceId decode now value, decode value = none →
    M.authenticate C resourceId decode now value = .refused
  unreadable : ∀ C resourceId decode now value map e, decode value = some map →
    C.extractAccessToken value map = .error e →
    M.authenticate C resourceId decode now value = .ofException e
  refused : ∀ C resourceId decode now value map token, decode value = some map →
    C.extractAccessToken value map = .ok token →
    IsRefreshToken token ∨ token.isExpired now = true →
    M.authenticate C resourceId decode now value = .refused
  unauthenticated : ∀ C resourceId decode now value map token e, decode value = some map →
    C.extractAccessToken value map = .ok token → ¬ IsRefreshToken token →
    token.isExpired now = false → C.extractAuthentication map = .error e →
    M.authenticate C resourceId decode now value = .ofException e
  other_resource : ∀ C resourceId decode now value map token authentication,
    decode value = some map → C.extractAccessToken value map = .ok token →
    ¬ IsRefreshToken token → token.isExpired now = false →
    C.extractAuthentication map = .ok authentication → ¬ MeantFor resourceId authentication →
    M.authenticate C resourceId decode now value = .refused
  accepted : ∀ C resourceId decode now value map token authentication,
    decode value = some map → C.extractAccessToken value map = .ok token →
    ¬ IsRefreshToken token → token.isExpired now = false →
    C.extractAuthentication map = .ok authentication → MeantFor resourceId authentication →
    M.authenticate C resourceId decode now value = .authenticated authentication

namespace OAuth2AuthenticationManager

/-- A manager that behaves as documented. -/
def reference (π : Type) : OAuth2AuthenticationManager π where
  authenticate C resourceId decode now value :=
    match decode value with
    | none => .refused
    | some map =>
      match C.extractAccessToken value map with
      | .error e => .ofException e
      | .ok token =>
        if IsRefreshToken token ∨ token.isExpired now = true then .refused
        else
          match C.extractAuthentication map with
          | .error e => .ofException e
          | .ok authentication =>
            if MeantFor resourceId authentication then .authenticated authentication else .refused

theorem reference_documented (π : Type) : (reference π).Documented where
  not_signed C resourceId decode now value h := by
    simp only [reference, h]
  unreadable C resourceId decode now value map e h he := by
    simp only [reference, h, he]
  refused C resourceId decode now value map token h ht hrefused := by
    simp only [reference, h, ht, if_pos hrefused]
  unauthenticated C resourceId decode now value map token e h ht hkind hexpired he := by
    have hpass : ¬ (IsRefreshToken token ∨ token.isExpired now = true) := by simp [hkind, hexpired]
    simp only [reference, h, ht, if_neg hpass, he]
  other_resource C resourceId decode now value map token a h ht hkind hexpired ha hother := by
    have hpass : ¬ (IsRefreshToken token ∨ token.isExpired now = true) := by simp [hkind, hexpired]
    simp only [reference, h, ht, if_neg hpass, ha, if_neg hother]
  accepted C resourceId decode now value map token a h ht hkind hexpired ha hmeant := by
    have hpass : ¬ (IsRefreshToken token ∨ token.isExpired now = true) := by simp [hkind, hexpired]
    simp only [reference, h, ht, if_neg hpass, ha, if_pos hmeant]

end OAuth2AuthenticationManager

/-! ## What becomes of a token -/

/-- An expired token stays expired. -/
theorem OAuth2AccessToken.isExpired_later (token : OAuth2AccessToken) {now now' : Int64}
    (hle : now ≤ now') (h : token.isExpired now = true) : token.isExpired now' = true := by
  unfold isExpired at h ⊢
  cases hexpiration : token.expiration with
  | none =>
    rw [hexpiration] at h
    cases h
  | some time =>
    rw [hexpiration] at h
    exact decide_eq_true (Int64.lt_of_lt_of_le (of_decide_eq_true h) hle)

namespace OAuth2AuthenticationManager.Documented

variable {M : OAuth2AuthenticationManager π} (hM : M.Documented) {C : AccessTokenConverter π}
  {resourceId : String} {decode : String → Option ClaimsMap} {now : Int64} {value : String}

include hM

/-- The documented behaviour determines the manager. -/
theorem eq_reference :
    M.authenticate C resourceId decode now value =
      (reference π).authenticate C resourceId decode now value := by
  have hreference := reference_documented π
  cases hmap : decode value with
  | none => rw [hM.not_signed _ _ _ _ _ hmap, hreference.not_signed _ _ _ _ _ hmap]
  | some map =>
    cases htoken : C.extractAccessToken value map with
    | error e =>
      rw [hM.unreadable _ _ _ _ _ _ _ hmap htoken, hreference.unreadable _ _ _ _ _ _ _ hmap htoken]
    | ok token =>
      by_cases hrefused : IsRefreshToken token ∨ token.isExpired now = true
      · rw [hM.refused _ _ _ _ _ _ _ hmap htoken hrefused,
          hreference.refused _ _ _ _ _ _ _ hmap htoken hrefused]
      obtain ⟨hkind, hexpired⟩ := not_or.mp hrefused
      rw [Bool.not_eq_true] at hexpired
      cases ha : C.extractAuthentication map with
      | error e =>
        rw [hM.unauthenticated _ _ _ _ _ _ _ _ hmap htoken hkind hexpired ha,
          hreference.unauthenticated _ _ _ _ _ _ _ _ hmap htoken hkind hexpired ha]
      | ok a =>
        by_cases hmeant : MeantFor resourceId a
        · rw [hM.accepted _ _ _ _ _ _ _ _ hmap htoken hkind hexpired ha hmeant,
            hreference.accepted _ _ _ _ _ _ _ _ hmap htoken hkind hexpired ha hmeant]
        · rw [hM.other_resource _ _ _ _ _ _ _ _ hmap htoken hkind hexpired ha hmeant,
            hreference.other_resource _ _ _ _ _ _ _ _ hmap htoken hkind hexpired ha hmeant]

/-- A token is accepted exactly when it passes all the checks. -/
theorem authenticated_iff {authentication : OAuth2Authentication π} :
    M.authenticate C resourceId decode now value = .authenticated authentication ↔
      ∃ map token, decode value = some map ∧ C.extractAccessToken value map = .ok token ∧
        ¬ IsRefreshToken token ∧ token.isExpired now = false ∧
        C.extractAuthentication map = .ok authentication ∧ MeantFor resourceId authentication := by
  constructor
  · rw [hM.eq_reference]
    intro h
    simp only [reference, Authenticated.ofException] at h
    split at h
    · cases h
    · next map hmap =>
      split at h
      · split_ifs at h
      · next token htoken =>
        split_ifs at h with hrefused
        obtain ⟨hkind, hexpired⟩ := not_or.mp hrefused
        split at h
        · split_ifs at h
        · next a ha =>
          split_ifs at h with hmeant
          cases h
          exact ⟨map, token, hmap, htoken, hkind, Bool.eq_false_iff.mpr hexpired, ha, hmeant⟩
  · rintro ⟨map, token, hmap, htoken, hkind, hexpired, ha, hmeant⟩
    exact hM.accepted _ _ _ _ _ _ _ _ hmap htoken hkind hexpired ha hmeant

/-- A converter that never ends with an `OAuth2Exception` passes all of its exceptions on. -/
theorem failed_iff (hC : C.NeverOAuth2) {e : JavaException} :
    M.authenticate C resourceId decode now value = .failed e ↔
      ∃ map, decode value = some map ∧ (C.extractAccessToken value map = .error e ∨
        ∃ token, C.extractAccessToken value map = .ok token ∧ ¬ IsRefreshToken token ∧
          token.isExpired now = false ∧ C.extractAuthentication map = .error e) := by
  constructor
  · rw [hM.eq_reference]
    intro h
    simp only [reference, Authenticated.ofException] at h
    split at h
    · cases h
    · next map hmap =>
      split at h
      · next e' htoken =>
        rw [if_neg (hC.token _ _ _ htoken)] at h
        cases h
        exact ⟨map, hmap, Or.inl htoken⟩
      · next token htoken =>
        split_ifs at h with hrefused
        obtain ⟨hkind, hexpired⟩ := not_or.mp hrefused
        split at h
        · next e' ha =>
          rw [if_neg (hC.authentication _ _ ha)] at h
          cases h
          exact ⟨map, hmap, Or.inr ⟨token, htoken, hkind, Bool.eq_false_iff.mpr hexpired, ha⟩⟩
        · split_ifs at h
  · rintro ⟨map, hmap, htoken | ⟨token, htoken, hkind, hexpired, ha⟩⟩
    · rw [hM.unreadable _ _ _ _ _ _ _ hmap htoken]
      exact if_neg (hC.token _ _ _ htoken)
    · rw [hM.unauthenticated _ _ _ _ _ _ _ _ hmap htoken hkind hexpired ha]
      exact if_neg (hC.authentication _ _ ha)

/-- Time changes what becomes of a token in one way only: the token is refused. -/
theorem authenticate_later {decode' : String → Option ClaimsMap} {now' : Int64}
    (hsame : decode' value = decode value) (hle : now ≤ now') :
    M.authenticate C resourceId decode' now' value = M.authenticate C resourceId decode now value ∨
      M.authenticate C resourceId decode' now' value = .refused := by
  cases hmap : decode value with
  | none => exact Or.inr (hM.not_signed _ _ _ _ _ (hsame.trans hmap))
  | some map =>
    have hmap' : decode' value = some map := hsame.trans hmap
    cases htoken : C.extractAccessToken value map with
    | error e =>
      rw [hM.unreadable _ _ _ _ _ _ _ hmap htoken, hM.unreadable _ _ _ _ _ _ _ hmap' htoken]
      exact Or.inl rfl
    | ok token =>
      by_cases hrefused : IsRefreshToken token ∨ token.isExpired now' = true
      · exact Or.inr (hM.refused _ _ _ _ _ _ _ hmap' htoken hrefused)
      obtain ⟨hkind, hcurrent⟩ := not_or.mp hrefused
      rw [Bool.not_eq_true] at hcurrent
      have hexpired : token.isExpired now = false :=
        Bool.eq_false_iff.mpr fun h => Bool.eq_false_iff.mp hcurrent (token.isExpired_later hle h)
      cases ha : C.extractAuthentication map with
      | error e =>
        rw [hM.unauthenticated _ _ _ _ _ _ _ _ hmap htoken hkind hexpired ha,
          hM.unauthenticated _ _ _ _ _ _ _ _ hmap' htoken hkind hcurrent ha]
        exact Or.inl rfl
      | ok a =>
        by_cases hmeant : MeantFor resourceId a
        · rw [hM.accepted _ _ _ _ _ _ _ _ hmap htoken hkind hexpired ha hmeant,
            hM.accepted _ _ _ _ _ _ _ _ hmap' htoken hkind hcurrent ha hmeant]
          exact Or.inl rfl
        · exact Or.inr (hM.other_resource _ _ _ _ _ _ _ _ hmap' htoken hkind hcurrent ha hmeant)

end OAuth2AuthenticationManager.Documented

end Spring
