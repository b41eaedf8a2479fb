import SecurityOAuth2Jwt.ResourceServer.Proofs.DecoderProofs

/-!
# Proofs: the authorities claim with and without a user

For a user the decoder joins and cuts the authorities claim, which may be a string; for a
client-only token it casts the claim to a collection and keeps every string. The other claims are
read alike.
-/

namespace ResourceServer

open Java Spring

variable {S : SpringSecurity}

/-! ## The claims that are read with and without a user -/

/-- The reference is null or points to a string. -/
def IsStringOrNull (v : JavaValue) : Prop := v = .null ∨ ∃ s, v = .str s

theorem castString_returns_iff {v : JavaValue} :
    (∃ s, v.castString = .ok s) ↔ IsStringOrNull v := by
  constructor
  · rintro ⟨s, hs⟩
    cases v with
    | null => exact Or.inl rfl
    | str s' => exact Or.inr ⟨s', rfl⟩
    | long n => cases hs
    | coll xs => cases hs
    | obj id text => cases hs
  · rintro (rfl | ⟨s, rfl⟩)
    · exact ⟨none, rfl⟩
    · exact ⟨some s, rfl⟩

namespace CustomAccessTokenConverter

variable {conv : CustomAccessTokenConverter} {m : ClaimsMap}

/-- The scope, the client id, the grant type and the audience have classes that the decoder can
read. -/
structure RestReadable (conv : CustomAccessTokenConverter) (m : ClaimsMap) : Prop where
  scope : m.find? Claim.scope ≠ some .null
  clientId : IsStringOrNull (m.get Claim.clientId)
  grantType : conv.includeGrantType = true → IsStringOrNull (m.get Claim.grantType)
  aud : IsStringOrNull (m.get Claim.aud) ∨ ∃ xs, m.get Claim.aud = .coll xs

theorem extractScope_returns_iff :
    (∃ scope, extractScope m = .ok scope) ↔ m.find? Claim.scope ≠ some .null := by
  cases hfind : m.find? Claim.scope with
  | none =>
    have hscope := extractScope_none hfind
    exact iff_of_true ⟨_, hscope⟩ (by simp)
  | some v =>
    have hkey : m.containsKey Claim.scope = true := JavaMap.containsKey_eq_true.mpr ⟨v, hfind⟩
    unfold extractScope
    rw [if_pos hkey, ClaimsMap.get_of_find? hfind]
    cases v with
    | null =>
      refine iff_of_false ?_ (by simp)
      rintro ⟨scope, hscope⟩
      cases hscope
    | str s => exact iff_of_true ⟨_, rfl⟩ (by simp)
    | long n => exact iff_of_true ⟨_, rfl⟩ (by simp)
    | coll xs => exact iff_of_true ⟨_, rfl⟩ (by simp)
    | obj id text => exact iff_of_true ⟨_, rfl⟩ (by simp)

theorem extractParameters_returns_iff (clientId : Option String) :
    (∃ parameters, conv.extractParameters clientId m = .ok parameters) ↔
      (conv.includeGrantType = true → IsStringOrNull (m.get Claim.grantType)) := by
  unfold extractParameters
  by_cases hread : (conv.includeGrantType && m.containsKey Claim.grantType) = true
  · obtain ⟨hinclude, -⟩ := Bool.and_eq_true_iff.mp hread
    simp only [if_pos hread, Outcome.bind_eq_ok, Outcome.pure_eq_ok, Except.ok.injEq]
    rw [← castString_returns_iff]
    constructor
    · rintro ⟨parameters, grantType, hg, -⟩ -
      exact ⟨grantType, hg⟩
    · intro h
      obtain ⟨grantType, hg⟩ := h hinclude
      exact ⟨_, grantType, hg, rfl⟩
  · rw [if_neg hread]
    refine iff_of_true ⟨_, rfl⟩ fun hinclude => Or.inl ?_
    have hkey : m.containsKey Claim.grantType = false := by simpa [hinclude] using hread
    exact ClaimsMap.get_of_find?_none (JavaMap.containsKey_eq_false.mp hkey)

theorem extractResourceIds_returns_iff :
    (∃ ids, extractResourceIds m = .ok ids) ↔
      IsStringOrNull (m.get Claim.aud) ∨ ∃ xs, m.get Claim.aud = .coll xs := by
  cases hfind : m.find? Claim.aud with
  | none =>
    have hids := extractResourceIds_none hfind
    exact iff_of_true ⟨_, hids⟩ (Or.inl (Or.inl (ClaimsMap.get_of_find?_none hfind)))
  | some v =>
    have hkey : m.containsKey Claim.aud = true := JavaMap.containsKey_eq_true.mpr ⟨v, hfind⟩
    simp only [extractResourceIds, getAudience, if_pos hkey, ClaimsMap.get_of_find? hfind]
    cases v with
    | null => exact iff_of_true ⟨_, rfl⟩ (Or.inl (Or.inl rfl))
    | str s => exact iff_of_true ⟨_, rfl⟩ (Or.inl (Or.inr ⟨s, rfl⟩))
    | coll xs => exact iff_of_true ⟨_, rfl⟩ (Or.inr ⟨xs, rfl⟩)
    | long n =>
      refine iff_of_false ?_ (by simp [IsStringOrNull])
      rintro ⟨ids, hids⟩
      cases hids
    | obj id text =>
      refine iff_of_false ?_ (by simp [IsStringOrNull])
      rintro ⟨ids, hids⟩
      cases hids

/-- The decoder returns exactly when the user, the authorities of the request and the remaining
claims can be read; what it returns depends on the first two only as far as authorities go. -/
theorem extractAuthentication_returns_iff {user : Option (UserAuthentication CustomPrincipal)}
    {authorities : Option (List GrantedAuthority)}
    (huser : conv.userTokenConverter.extractAuthentication S m = .ok user)
    (hl : extractClientAuthorities S user m = .ok authorities) :
    (∃ a, conv.extractAuthentication S m = .ok a) ↔ RestReadable conv m := by
  constructor
  · rintro ⟨a, ha⟩
    obtain ⟨scope, _, clientId, parameters, ids, _, hs, -, hc, hp, hids, -, -⟩ :=
      extractAuthentication_ok_iff.mp ha
    exact ⟨extractScope_returns_iff.mp ⟨scope, hs⟩, castString_returns_iff.mp ⟨clientId, hc⟩,
      (extractParameters_returns_iff clientId).mp ⟨parameters, hp⟩,
      extractResourceIds_returns_iff.mp ⟨ids, hids⟩⟩
  · intro hrest
    obtain ⟨scope, hs⟩ := extractScope_returns_iff.mpr hrest.scope
    obtain ⟨clientId, hc⟩ := castString_returns_iff.mpr hrest.clientId
    obtain ⟨parameters, hp⟩ := (extractParameters_returns_iff clientId).mpr hrest.grantType
    obtain ⟨ids, hids⟩ := extractResourceIds_returns_iff.mpr hrest.aud
    exact ⟨_, extractAuthentication_ok_iff.mpr
      ⟨scope, user, clientId, parameters, ids, authorities, hs, huser, hc, hp, hids, hl, rfl⟩⟩

/-! ## The claim without a user -/

theorem find?_remove_username {k : String} (hk : k ≠ Claim.username) :
    (m.remove Claim.username).find? k = m.find? k := by
  rw [JavaMap.find?_remove, if_neg hk]

theorem restReadable_remove_username_iff :
    RestReadable conv (m.remove Claim.username) ↔ RestReadable conv m := by
  have hscope := @find?_remove_username m Claim.scope (by decide)
  have hclientId := ClaimsMap.get_congr (@find?_remove_username m Claim.clientId (by decide))
  have hgrantType := ClaimsMap.get_congr (@find?_remove_username m Claim.grantType (by decide))
  have haud := ClaimsMap.get_congr (@find?_remove_username m Claim.aud (by decide))
  constructor
  · rintro ⟨h₁, h₂, h₃, h₄⟩
    rw [hscope] at h₁
    rw [hclientId] at h₂
    rw [hgrantType] at h₃
    rw [haud] at h₄
    exact ⟨h₁, h₂, h₃, h₄⟩
  · rintro ⟨h₁, h₂, h₃, h₄⟩
    rw [← hscope] at h₁
    rw [← hclientId] at h₂
    rw [← hgrantType] at h₃
    rw [← haud] at h₄
    exact ⟨h₁, h₂, h₃, h₄⟩

/-- The user and the authorities of the request in what the decoder returns. -/
theorem parts_of_extracted (hS : S.Documented) {a : OAuth2Authentication CustomPrincipal}
    (ha : conv.extractAuthentication S m = .ok a) :
    conv.userTokenConverter.extractAuthentication S m = .ok a.userAuthentication ∧
      ∃ authorities, extractClientAuthorities S a.userAuthentication m = .ok authorities ∧
        a.storedRequest.authorities = some (LinkedHashSet.ofList (authorities.getD [])) := by
  obtain ⟨scope, user, clientId, parameters, ids, authorities, -, huser, -, -, -, hl, rfl⟩ :=
    extractAuthentication_ok_iff.mp ha
  exact ⟨huser, authorities, hl, (hS.request ..).authorities⟩

/-- A client-only token is decoded from a collection of strings, which are its authorities. -/
theorem authorities_of_extracted_client (hS : S.Documented)
    {a : OAuth2Authentication CustomPrincipal} (ha : conv.extractAuthentication S m = .ok a)
    (hclient : a.userAuthentication = none) (hclaim : m.find? Claim.authorities ≠ none) :
    ∃ names : List String, m.find? Claim.authorities = some (.coll (names.map Elem.str)) ∧
      (∀ t ∈ names, HasText t) ∧
      a.storedRequest.authorities =
        some (LinkedHashSet.ofList (names.map GrantedAuthority.mk)) := by
  obtain ⟨-, authorities, hl, hrequest⟩ := parts_of_extracted hS ha
  rw [hclient] at hl
  rcases (extractClientAuthorities_ok_iff hS).mp hl with ⟨hnone, -⟩ | ⟨names, hfind, htext, rfl⟩
  · exact absurd hnone hclaim
  · exact ⟨names, hfind, htext, hrequest⟩

/-- A user token is decoded from a collection of strings to their tokens. -/
theorem authorities_of_extracted_user (hS : S.Documented)
    {a : OAuth2Authentication CustomPrincipal} (ha : conv.extractAuthentication S m = .ok a)
    {user : UserAuthentication CustomPrincipal} (huser : a.userAuthentication = some user)
    {names : List String}
    (hfind : m.find? Claim.authorities = some (.coll (names.map Elem.str))) :
    user.authorities = some ((names.flatMap tokenizeToStringArray).map GrantedAuthority.mk) := by
  obtain ⟨hextract, -⟩ := parts_of_extracted hS ha
  rw [huser] at hextract
  obtain ⟨-, username, email', authorities, -, -, has, rfl⟩ :=
    (CustomUserAuthenticationConverter.extractAuthentication_ok_some_iff hS).mp hextract
  obtain ⟨-, rfl⟩ := (CustomUserAuthenticationConverter.getAuthorities_coll_ok_iff hS hfind).mp has
  rfl

/-- Cutting the names and keeping them gives the same authorities exactly for plain names. -/
theorem tokens_same_names_iff {names : List String} (htext : ∀ t ∈ names, HasText t) :
    (∀ x, x ∈ (names.flatMap tokenizeToStringArray).map GrantedAuthority.mk ↔
      x ∈ LinkedHashSet.ofList (names.map GrantedAuthority.mk)) ↔
    ∀ t ∈ names, PlainTitle t := by
  have hmem : ∀ (ss : List String) (t : String),
      ⟨t⟩ ∈ ss.map GrantedAuthority.mk ↔ t ∈ ss := by
    intro ss t
    simp
  rw [← flatMap_tokenize_same_iff htext]
  constructor
  · intro h t
    have ht := h ⟨t⟩
    rwa [LinkedHashSet.mem_ofList, hmem, hmem] at ht
  · rintro h ⟨t⟩
    rw [LinkedHashSet.mem_ofList, hmem, hmem]
    exact h t

theorem names_eq_of_find? {names names' : List String}
    (h : m.find? Claim.authorities = some (.coll (names.map Elem.str)))
    (h' : m.find? Claim.authorities = some (.coll (names'.map Elem.str))) : names = names' := by
  rw [h] at h'
  have hmap := JavaValue.coll.inj (Option.some.inj h')
  exact List.map_injective_iff.mpr (fun _ _ hstr => Elem.str.inj hstr) hmap

/-- A user whose authorities are plain names is decoded. -/
theorem user_decoded_of_plain (hS : S.Documented) (huser : m.get Claim.username ≠ .null)
    (hemail : m.get email ≠ .null) {names : List String}
    (hfind : m.find? Claim.authorities = some (.coll (names.map Elem.str)))
    (htext : ∀ t ∈ names, HasText t) (hplain : ∀ t ∈ names, PlainTitle t)
    (hrest : RestReadable conv m) :
    ∃ a user, conv.extractAuthentication S m = .ok a ∧ a.userAuthentication = some user := by
  have htokens : ∀ t ∈ names.flatMap tokenizeToStringArray, HasText t := fun t ht =>
    htext t (((flatMap_tokenize_same_iff htext).mpr hplain t).mp ht)
  obtain ⟨username, hu⟩ := JavaValue.text_of_ne_null huser
  obtain ⟨email', he⟩ := JavaValue.text_of_ne_null hemail
  have has : conv.userTokenConverter.getAuthorities S m = .ok _ :=
    (CustomUserAuthenticationConverter.getAuthorities_coll_ok_iff hS hfind).mpr ⟨htokens, rfl⟩
  have hextract := (CustomUserAuthenticationConverter.extractAuthentication_ok_some_iff hS).mpr
    ⟨ClaimsMap.containsKey_of_get_ne_null huser, username, email', _, hu, he, has, rfl⟩
  obtain ⟨a, ha⟩ := (extractAuthentication_returns_iff hextract rfl).mpr hrest
  obtain ⟨hextract', -⟩ := parts_of_extracted hS ha
  exact ⟨a, _, ha, Except.ok.inj (hextract'.symm.trans hextract)⟩

/-- Without a user every collection of names with text is decoded. -/
theorem client_decoded_of_names (hS : S.Documented) (hnone : m.find? Claim.username = none)
    {names : List String}
    (hfind : m.find? Claim.authorities = some (.coll (names.map Elem.str)))
    (htext : ∀ t ∈ names, HasText t) (hrest : RestReadable conv m) :
    ∃ a, conv.extractAuthentication S m = .ok a ∧ a.userAuthentication = none := by
  have hnoUser : conv.userTokenConverter.extractAuthentication S m = .ok none :=
    CustomUserAuthenticationConverter.extractAuthentication_of_none hnone
  have hl := (extractClientAuthorities_ok_iff hS).mpr (Or.inr ⟨names, hfind, htext, rfl⟩)
  obtain ⟨a, ha⟩ := (extractAuthentication_returns_iff hnoUser hl).mpr hrest
  obtain ⟨hextract, -⟩ := parts_of_extracted hS ha
  exact ⟨a, ha, Except.ok.inj (hextract.symm.trans hnoUser)⟩

/-- The authorities of the user and those of the client-only request agree exactly when the claim is
a collection of plain names and the other claims can be read. -/
theorem authorities_alike_iff (hS : S.Documented) (conv : CustomAccessTokenConverter)
    (m : ClaimsMap) (huser : m.get Claim.username ≠ .null) (hemail : m.get email ≠ .null)
    (hclaim : (∃ s, m.find? Claim.authorities = some (.str s)) ∨
      ∃ names : List String, m.find? Claim.authorities = some (.coll (names.map Elem.str)) ∧
        ∀ t ∈ names, HasText t) :
    (∃ a a₀ user, conv.extractAuthentication S m = .ok a ∧
      conv.extractAuthentication S (m.remove Claim.username) = .ok a₀ ∧
      a.userAuthentication = some user ∧ a₀.userAuthentication = none ∧
      ∀ x, x ∈ user.authorities.getD [] ↔ x ∈ a₀.storedRequest.authorities.getD ∅) ↔
    (∃ names : List String, m.find? Claim.authorities = some (.coll (names.map Elem.str)) ∧
      ∀ t ∈ names, PlainTitle t) ∧ RestReadable conv m := by
  have hauth := @find?_remove_username m Claim.authorities (by decide)
  have hpresent : (m.remove Claim.username).find? Claim.authorities ≠ none := by
    rw [hauth]
    rcases hclaim with ⟨s, hs⟩ | ⟨names, hnames, -⟩
    · simp [hs]
    · simp [hnames]
  constructor
  · rintro ⟨a, a₀, user, ha, ha₀, hau, ha₀u, hsame⟩
    obtain ⟨hextract, authorities, hl, -⟩ := parts_of_extracted hS ha
    have hrest := (extractAuthentication_returns_iff hextract hl).mp ⟨a, ha⟩
    obtain ⟨names, hfind, htext, hrequest⟩ :=
      authorities_of_extracted_client hS ha₀ ha₀u hpresent
    rw [hauth] at hfind
    rw [authorities_of_extracted_user hS ha hau hfind, hrequest] at hsame
    exact ⟨⟨names, hfind, (tokens_same_names_iff htext).mp hsame⟩, hrest⟩
  · rintro ⟨⟨names, hfind, hplain⟩, hrest⟩
    have htext : ∀ t ∈ names, HasText t := by
      rcases hclaim with ⟨s, hs⟩ | ⟨names', hfind', htext⟩
      · rw [hs] at hfind
        cases hfind
      · rw [names_eq_of_find? hfind hfind']
        exact htext
    obtain ⟨a, user, ha, hau⟩ := user_decoded_of_plain hS huser hemail hfind htext hplain hrest
    have hremoved : (m.remove Claim.username).find? Claim.username = none := by
      rw [JavaMap.find?_remove, if_pos rfl]
    obtain ⟨a₀, ha₀, ha₀u⟩ := client_decoded_of_names hS hremoved (hauth.trans hfind) htext
      (restReadable_remove_username_iff.mpr hrest)
    refine ⟨a, a₀, user, ha, ha₀, hau, ha₀u, ?_⟩
    obtain ⟨names', hfind', -, hrequest⟩ := authorities_of_extracted_client hS ha₀ ha₀u hpresent
    rw [hauth] at hfind'
    rw [authorities_of_extracted_user hS ha hau hfind, hrequest, ← names_eq_of_find? hfind hfind']
    exact (tokens_same_names_iff htext).mpr hplain

/-! The claims of a user with a plain authority, and the same authority as a string. -/

def claimsOfAlice (authorities : JavaValue) : ClaimsMap :=
  let map : ClaimsMap := ∅
  let map := map.put Claim.username (.str "alice")
  let map := map.put email (.str "alice@mail")
  map.put Claim.authorities authorities

theorem authorities_alike_of_alice :
    ∃ a a₀ user, ({} : CustomAccessTokenConverter).extractAuthentication SpringSecurity.reference
        (claimsOfAlice (.coll [.str "role_user"])) = .ok a ∧
      ({} : CustomAccessTokenConverter).extractAuthentication SpringSecurity.reference
        ((claimsOfAlice (.coll [.str "role_user"])).remove Claim.username) = .ok a₀ ∧
      a.userAuthentication = some user ∧ a₀.userAuthentication = none ∧
      ∀ x, x ∈ user.authorities.getD [] ↔ x ∈ a₀.storedRequest.authorities.getD ∅ :=
  (authorities_alike_iff SpringSecurity.reference_documented {}
    (claimsOfAlice (.coll [.str "role_user"])) (by decide) (by decide)
    (Or.inr ⟨["role_user"], rfl, by decide⟩)).mpr
    ⟨⟨["role_user"], rfl, by decide⟩, by decide, Or.inl rfl, (fun h => absurd h (by decide)),
      Or.inl (Or.inl rfl)⟩

/-- As a string the claim is read for the user, and the client-only token is rejected. As a
collection, a name with a comma gives the user two authorities and the client one. -/
theorem authorities_of_alice_differ :
    (∃ a, ({} : CustomAccessTokenConverter).extractAuthentication SpringSecurity.reference
      (claimsOfAlice (.str "role_user")) = .ok a) ∧
    ({} : CustomAccessTokenConverter).extractAuthentication SpringSecurity.reference
      ((claimsOfAlice (.str "role_user")).remove Claim.username) =
        .error (.ofClass .classCast) ∧
    (∃ a, ({} : CustomAccessTokenConverter).extractAuthentication SpringSecurity.reference
      (claimsOfAlice (.coll [.str "x,role_admin"])) = .ok a ∧
      a.getAuthorities = [⟨"x"⟩, ⟨"role_admin"⟩]) ∧
    ∃ a, ({} : CustomAccessTokenConverter).extractAuthentication SpringSecurity.reference
      ((claimsOfAlice (.coll [.str "x,role_admin"])).remove Claim.username) = .ok a ∧
      a.getAuthorities = [⟨"x,role_admin"⟩] :=
  ⟨⟨_, rfl⟩, rfl, ⟨_, rfl, rfl⟩, ⟨_, rfl, rfl⟩⟩

end CustomAccessTokenConverter

end ResourceServer
