import SecurityOAuth2Jwt.Spring.Proofs.SecurityProofs
import SecurityOAuth2Jwt.ResourceServer.CustomAccessTokenConverter

/-!
# Proofs: decoding a claims map

The decoder returns exactly when each of its parts does, and every part reads a few claims only.
-/

namespace ResourceServer

open Java Spring

variable {S : SpringSecurity}

/-! ## The user -/

namespace CustomUserAuthenticationConverter

variable {conv : CustomUserAuthenticationConverter}

theorem getAuthorities_congr {m n : ClaimsMap}
    (h : m.find? Claim.authorities = n.find? Claim.authorities) :
    conv.getAuthorities S m = conv.getAuthorities S n := by
  unfold getAuthorities
  rw [JavaMap.containsKey_congr h, ClaimsMap.get_congr h]

/-- The user converter reads `user_name`, `email` and `authorities` only. -/
theorem extractAuthentication_congr {m n : ClaimsMap}
    (huser : m.find? Claim.username = n.find? Claim.username)
    (hemail : m.find? email = n.find? email)
    (hauth : m.find? Claim.authorities = n.find? Claim.authorities) :
    conv.extractAuthentication S m = conv.extractAuthentication S n := by
  unfold extractAuthentication
  rw [JavaMap.containsKey_congr huser, ClaimsMap.get_congr huser, ClaimsMap.get_congr hemail,
    getAuthorities_congr hauth]

theorem extractAuthentication_of_none {m : ClaimsMap} (h : m.find? Claim.username = none) :
    conv.extractAuthentication S m = .ok none := by
  have hkey : m.containsKey Claim.username = false := JavaMap.containsKey_eq_false.mpr h
  simp only [extractAuthentication, hkey]
  rfl

/-- A user is extracted exactly from a user name and an email that are not null and from authorities
that can be read. -/
theorem extractAuthentication_ok_some_iff (hS : S.Documented) {m : ClaimsMap}
    {user : UserAuthentication CustomPrincipal} :
    conv.extractAuthentication S m = .ok (some user) ↔
      m.containsKey Claim.username = true ∧
      ∃ username email' authorities, (m.get Claim.username).text = .ok username ∧
        (m.get email).text = .ok email' ∧ conv.getAuthorities S m = .ok authorities ∧
        user = ⟨⟨username, email'⟩, some "N/A", some (authorities.getD [])⟩ := by
  unfold extractAuthentication
  by_cases hkey : m.containsKey Claim.username = true
  · simp only [if_pos hkey, Outcome.bind_eq_ok, Outcome.pure_eq_ok, Except.ok.injEq,
      Option.some.injEq, hS.userToken]
    constructor
    · rintro ⟨username, hu, email', he, authorities, ha, rfl⟩
      exact ⟨hkey, username, email', authorities, hu, he, ha, rfl⟩
    · rintro ⟨-, username, email', authorities, hu, he, ha, rfl⟩
      exact ⟨username, hu, email', he, authorities, ha, rfl⟩
  · simp [hkey]

/-- Without a user name there is no user, and a map with one never yields "no user". -/
theorem extractAuthentication_ok_none_iff {m : ClaimsMap} :
    conv.extractAuthentication S m = .ok none ↔ m.containsKey Claim.username = false := by
  constructor
  · intro h
    by_contra hkey
    rw [Bool.not_eq_false] at hkey
    simp only [extractAuthentication, if_pos hkey, Outcome.bind_eq_ok, Outcome.pure_eq_ok,
      Except.ok.injEq] at h
    obtain ⟨_, _, _, _, _, _, h⟩ := h
    cases h
  · intro hkey
    exact extractAuthentication_of_none (JavaMap.containsKey_eq_false.mp hkey)

/-- A collection of strings is joined with commas and cut again. -/
theorem getAuthorities_coll_ok_iff (hS : S.Documented) {m : ClaimsMap} {names : List String}
    (hfind : m.find? Claim.authorities = some (.coll (names.map Elem.str)))
    {authorities : Option (List GrantedAuthority)} :
    conv.getAuthorities S m = .ok authorities ↔
      (∀ t ∈ names.flatMap tokenizeToStringArray, HasText t) ∧
        authorities = some ((names.flatMap tokenizeToStringArray).map GrantedAuthority.mk) := by
  have hkey : m.containsKey Claim.authorities = true := JavaMap.containsKey_eq_true.mpr ⟨_, hfind⟩
  simp only [getAuthorities, if_pos hkey, ClaimsMap.get_of_find? hfind]
  cases hlist : S.commaSeparatedStringToAuthorityList
      (S.collectionToCommaDelimitedString (names.map Elem.str)) with
  | error e =>
    constructor
    · intro h
      cases h
    · rintro ⟨htext, -⟩
      rw [(commaSeparated_join_ok_iff hS).mpr ⟨htext, rfl⟩] at hlist
      cases hlist
  | ok as =>
    obtain ⟨htext, rfl⟩ := (commaSeparated_join_ok_iff hS).mp hlist
    constructor
    · intro h
      cases h
      exact ⟨htext, rfl⟩
    · rintro ⟨-, rfl⟩
      rfl

end CustomUserAuthenticationConverter

/-! ## The access token -/

namespace CustomAccessTokenConverter

theorem extractScope_coll {m : ClaimsMap} {xs : List Elem}
    (h : m.find? Claim.scope = some (.coll xs)) :
    extractScope m = .ok (LinkedHashSet.ofList xs) := by
  have hkey : m.containsKey Claim.scope = true := JavaMap.containsKey_eq_true.mpr ⟨_, h⟩
  simp only [extractScope, if_pos hkey, ClaimsMap.get_of_find? h]

theorem extractScope_none {m : ClaimsMap} (h : m.find? Claim.scope = none) :
    extractScope m = .ok ∅ := by
  have hkey : m.containsKey Claim.scope = false := JavaMap.containsKey_eq_false.mpr h
  simp only [extractScope, hkey]
  rfl

/-- A scope that was written as a collection, or left out, is read back. -/
theorem extractScope_of_written {m : ClaimsMap} {scope : Option (LinkedHashSet Elem)}
    (h : m.find? Claim.scope = scope.map .ofSet) : extractScope m = .ok (scope.getD ∅) := by
  cases scope with
  | none => exact extractScope_none h
  | some scope =>
    rw [extractScope_coll h, LinkedHashSet.ofList_toList]
    rfl

/-- The additional information is the map without the claims that the token keeps elsewhere. -/
theorem find?_extractInformation (m : ClaimsMap) (k : String) :
    (extractInformation m).find? k =
      if k = Claim.exp ∨ k = Claim.aud ∨ k = Claim.clientId ∨ k = Claim.scope then none
      else m.find? k := by
  unfold extractInformation
  by_cases hjti : k = Claim.jti
  · subst hjti
    simp +decide
  · simp only [JavaMap.find?_putSome, if_neg hjti, JavaMap.find?_remove]
    by_cases hscope : k = Claim.scope
    · simp [hscope]
    by_cases hcid : k = Claim.clientId
    · simp [hcid]
    by_cases haud : k = Claim.aud
    · simp [haud]
    by_cases hexp : k = Claim.exp
    · simp [hexp]
    simp only [hexp, haud, hcid, hscope, or_self, if_false]

/-- The claims that the decoder does not leave in the additional information. -/
def ConsumedClaim (k : String) : Prop :=
  k = Claim.exp ∨ k = Claim.aud ∨ k = Claim.clientId ∨ k = Claim.scope

theorem find?_extractInformation_of_kept {m : ClaimsMap} {k : String} (hk : ¬ ConsumedClaim k) :
    (extractInformation m).find? k = m.find? k := by
  rw [find?_extractInformation]
  exact if_neg hk

theorem find?_extractInformation_of_consumed {m : ClaimsMap} {k : String} (hk : ConsumedClaim k) :
    (extractInformation m).find? k = none := by
  rw [find?_extractInformation]
  exact if_pos hk

theorem extractAccessToken_ok_iff {v : String} {m : ClaimsMap} {t : OAuth2AccessToken} :
    extractAccessToken v m = .ok t ↔
      ∃ expiration scope, extractExpiration m = .ok expiration ∧ extractScope m = .ok scope ∧
        t = ⟨v, expiration, some scope, extractInformation m⟩ := by
  unfold extractAccessToken
  simp only [Outcome.bind_eq_ok, Outcome.pure_eq_ok, Except.ok.injEq]
  constructor
  · rintro ⟨e, he, s, hs, rfl⟩
    exact ⟨e, s, he, hs, rfl⟩
  · rintro ⟨e, s, he, hs, rfl⟩
    exact ⟨e, he, s, hs, rfl⟩

/-- The expiration of a decoded token: nothing without an `exp` claim, else a multiple of it. -/
theorem extractExpiration_ok_iff {m : ClaimsMap} {e : Option Int64} :
    extractExpiration m = .ok e ↔
      (m.find? Claim.exp = none ∧ e = none) ∨
        ∃ n, m.find? Claim.exp = some (.long n) ∧ e = some (n * 1000) := by
  unfold extractExpiration
  cases h : m.find? Claim.exp with
  | none =>
    have hkey : ¬ m.containsKey Claim.exp = true := by
      rw [JavaMap.containsKey_eq_false.mpr h]
      exact Bool.false_ne_true
    rw [if_neg hkey]
    constructor
    · intro he
      cases he
      exact Or.inl ⟨rfl, rfl⟩
    · rintro (⟨-, rfl⟩ | ⟨n, hn, -⟩)
      · rfl
      · cases hn
  | some v =>
    have hkey : m.containsKey Claim.exp = true := JavaMap.containsKey_eq_true.mpr ⟨v, h⟩
    rw [if_pos hkey, ClaimsMap.get_of_find? h, Outcome.bind_eq_ok]
    constructor
    · rintro ⟨n, hn, he⟩
      cases he
      cases v with
      | long n' =>
        cases hn
        exact Or.inr ⟨n, rfl, rfl⟩
      | null => cases hn
      | str s => cases hn
      | coll xs => cases hn
      | obj id text => cases hn
    · rintro (⟨hnone, -⟩ | ⟨n, hn, rfl⟩)
      · cases hnone
      · cases hn
        exact ⟨n, rfl, rfl⟩

/-- The additional information depends on the claims that it keeps only. -/
theorem extractInformation_congr {m n : ClaimsMap}
    (h : ∀ k, ¬ ConsumedClaim k → m.find? k = n.find? k) :
    extractInformation m = extractInformation n := by
  ext1
  funext k
  by_cases hk : ConsumedClaim k
  · rw [find?_extractInformation_of_consumed hk, find?_extractInformation_of_consumed hk]
  · rw [find?_extractInformation_of_kept hk, find?_extractInformation_of_kept hk, h k hk]

theorem extractExpiration_congr {m n : ClaimsMap} (h : m.find? Claim.exp = n.find? Claim.exp) :
    extractExpiration m = extractExpiration n := by
  unfold extractExpiration
  rw [JavaMap.containsKey_congr h, ClaimsMap.get_congr h]

/-! ## The authentication -/

variable {conv : CustomAccessTokenConverter}

theorem extractAuthentication_ok_iff {m : ClaimsMap} {a : OAuth2Authentication CustomPrincipal} :
    conv.extractAuthentication S m = .ok a ↔
      ∃ scope user clientId parameters resourceIds authorities, extractScope m = .ok scope ∧
        conv.userTokenConverter.extractAuthentication S m = .ok user ∧
        (m.get Claim.clientId).castString = .ok clientId ∧
        conv.extractParameters clientId m = .ok parameters ∧
        extractResourceIds m = .ok resourceIds ∧
        extractClientAuthorities S user m = .ok authorities ∧
        a = ⟨S.oauth2Request parameters clientId authorities true scope resourceIds, user⟩ := by
  unfold extractAuthentication
  simp only [Outcome.bind_eq_ok, Outcome.pure_eq_ok, Except.ok.injEq]
  constructor
  · rintro ⟨s, hs, u, hu, c, hc, p, hp, r, hr, l, hl, rfl⟩
    exact ⟨s, u, c, p, r, l, hs, hu, hc, hp, hr, hl, rfl⟩
  · rintro ⟨s, u, c, p, r, l, hs, hu, hc, hp, hr, hl, rfl⟩
    exact ⟨s, hs, u, hu, c, hc, p, hp, r, hr, l, hl, rfl⟩

theorem extractResourceIds_coll {m : ClaimsMap} {xs : List Elem}
    (h : m.find? Claim.aud = some (.coll xs)) :
    extractResourceIds m = .ok (LinkedHashSet.ofList xs) := by
  have hkey : m.containsKey Claim.aud = true := JavaMap.containsKey_eq_true.mpr ⟨_, h⟩
  simp only [extractResourceIds, if_pos hkey, getAudience, ClaimsMap.get_of_find? h]
  rfl

theorem extractResourceIds_none {m : ClaimsMap} (h : m.find? Claim.aud = none) :
    extractResourceIds m = .ok ∅ := by
  have hkey : m.containsKey Claim.aud = false := JavaMap.containsKey_eq_false.mpr h
  simp only [extractResourceIds, hkey]
  rfl

/-- An audience that was written as a collection, or left out because it is empty, is read back. -/
theorem extractResourceIds_of_nonEmpty {m : ClaimsMap} {ids : LinkedHashSet Elem}
    (h : m.find? Claim.aud = ids.nonEmpty?.map .ofSet) : extractResourceIds m = .ok ids := by
  by_cases hne : ids = ∅
  · subst hne
    exact extractResourceIds_none h
  · rw [LinkedHashSet.nonEmpty?_of_ne hne] at h
    rw [extractResourceIds_coll h, LinkedHashSet.ofList_toList]

theorem extractClientAuthorities_congr {user : Option (UserAuthentication CustomPrincipal)}
    {m n : ClaimsMap} (h : m.find? Claim.authorities = n.find? Claim.authorities) :
    extractClientAuthorities S user m = extractClientAuthorities S user n := by
  unfold extractClientAuthorities
  rw [JavaMap.containsKey_congr h, ClaimsMap.get_congr h]

/-- The authorities of a client-only request: none, or the strings of the claim one by one. -/
theorem extractClientAuthorities_ok_iff (hS : S.Documented) {m : ClaimsMap}
    {l : Option (List GrantedAuthority)} :
    extractClientAuthorities S none m = .ok l ↔
      (m.find? Claim.authorities = none ∧ l = none) ∨
        ∃ ss : List String, m.find? Claim.authorities = some (.coll (ss.map Elem.str)) ∧
          (∀ s ∈ ss, HasText s) ∧ l = some (ss.map GrantedAuthority.mk) := by
  unfold extractClientAuthorities
  cases h : m.find? Claim.authorities with
  | none =>
    have hkey : m.containsKey Claim.authorities = false := JavaMap.containsKey_eq_false.mpr h
    simp [hkey, eq_comm]
  | some v =>
    have hkey : m.containsKey Claim.authorities = true := JavaMap.containsKey_eq_true.mpr ⟨v, h⟩
    cases v with
    | coll elems =>
      simp only [hkey, Option.isNone_none, Bool.and_self, if_true, ClaimsMap.get_of_find? h,
        Outcome.bind_eq_ok]
      constructor
      · rintro ⟨roles, hroles, hl⟩
        cases hlist : S.createAuthorityList roles with
        | error e =>
          rw [hlist] at hl
          cases hl
        | ok as =>
          rw [hlist] at hl
          cases hl
          obtain ⟨ss, rfl, htext, rfl⟩ := createAuthorityList_ok hS hlist
          rw [toStringArray_ok_map_some hroles]
          exact Or.inr ⟨ss, rfl, htext, rfl⟩
      · rintro (⟨hnone, -⟩ | ⟨ss, hss, htext, rfl⟩)
        · cases hnone
        · cases hss
          refine ⟨ss.map some, toStringArray_map_str ss, ?_⟩
          rw [hS.createAuthorityList_text ss htext]
          rfl
    | null => simp [hkey, ClaimsMap.get_of_find? h]
    | str s => simp [hkey, ClaimsMap.get_of_find? h]
    | long n => simp [hkey, ClaimsMap.get_of_find? h]
    | obj i t => simp [hkey, ClaimsMap.get_of_find? h]

/-- A grant type that is absent or a string can be read. -/
theorem extractParameters_returns (conv : CustomAccessTokenConverter) (clientId : Option String)
    {m : ClaimsMap}
    (h : m.find? Claim.grantType = none ∨ ∃ g, m.find? Claim.grantType = some (.str g)) :
    ∃ parameters, conv.extractParameters clientId m = .ok parameters := by
  unfold extractParameters
  by_cases hread : (conv.includeGrantType && m.containsKey Claim.grantType) = true
  · rcases h with h | ⟨g, h⟩
    · have hkey : m.containsKey Claim.grantType = false := JavaMap.containsKey_eq_false.mpr h
      simp [hkey] at hread
    · simp only [if_pos hread, ClaimsMap.get_of_find? h]
      exact ⟨_, rfl⟩
  · simp only [if_neg hread]
    exact ⟨_, rfl⟩

theorem extractParameters_congr {clientId : Option String} {m n : ClaimsMap}
    (h : m.find? Claim.grantType = n.find? Claim.grantType) :
    conv.extractParameters clientId m = conv.extractParameters clientId n := by
  unfold extractParameters
  rw [JavaMap.containsKey_congr h, ClaimsMap.get_congr h]

end CustomAccessTokenConverter

end ResourceServer
