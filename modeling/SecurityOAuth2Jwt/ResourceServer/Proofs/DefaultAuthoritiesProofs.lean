import SecurityOAuth2Jwt.ResourceServer.Proofs.AuthoritiesClaimProofs
import SecurityOAuth2Jwt.ResourceServer.Proofs.ReencodingProofs

/-!
# Proofs: default authorities

The defaults go through a comma-separated string, like an authorities claim, and are granted to a
user whose token has no such claim. The encoder writes them into the claim, so a token that is
encoded again carries them to every other server.
-/

namespace ResourceServer

open Java Spring

variable {S : SpringSecurity}

namespace CustomUserAuthenticationConverter

/-! ## The setter -/

/-- `StringUtils.arrayToCommaDelimitedString`, as documented; a null name is written as `null`. -/
def JoinsWithCommas (arrayToCommaDelimitedString : List (Option String) → String) : Prop :=
  ∀ names, arrayToCommaDelimitedString names =
    ",".intercalate (names.map fun name => name.getD "null")

/-- The tokens of the names that are given to the setter. -/
def defaultNames (names : List (Option String)) : List String :=
  names.flatMap fun name => tokenizeToStringArray (name.getD "null")

theorem defaultNames_map_some (ss : List String) :
    defaultNames (ss.map some) = ss.flatMap tokenizeToStringArray := by
  unfold defaultNames
  rw [List.flatMap_map]
  rfl

/-- The setter returns exactly when every token of the names has text, and stores the tokens. -/
theorem setDefaultAuthorities_ok_iff (hS : S.Documented)
    {join : List (Option String) → String} (hjoin : JoinsWithCommas join)
    {names : List (Option String)} {conv : CustomUserAuthenticationConverter} :
    setDefaultAuthorities S join names = .ok conv ↔ (∀ t ∈ defaultNames names, HasText t) ∧
      conv = ⟨some ((defaultNames names).map GrantedAuthority.mk)⟩ := by
  have htokens : tokenizeToStringArray (join names) = defaultNames names := by
    rw [hjoin, tokenize_intercalate, List.flatMap_map]
    rfl
  unfold setDefaultAuthorities
  rw [Outcome.bind_eq_ok, hS.commaSeparated, htokens]
  constructor
  · rintro ⟨authorities, has, hreturn⟩
    obtain ⟨htext, rfl⟩ := (createAuthorityList_ok_iff hS).mp has
    cases hreturn
    exact ⟨htext, rfl⟩
  · rintro ⟨htext, rfl⟩
    exact ⟨_, (createAuthorityList_ok_iff hS).mpr ⟨htext, rfl⟩, rfl⟩

/-- A converter as the program can configure it: the field is private and has one setter. -/
def Configured (S : SpringSecurity) (conv : CustomUserAuthenticationConverter) : Prop :=
  conv.defaultAuthorities = none ∨
    ∃ join names, JoinsWithCommas join ∧ setDefaultAuthorities S join names = .ok conv

/-- The defaults of a configured converter survive the way through a comma-separated string. -/
theorem Configured.plain (hS : S.Documented) {conv : CustomUserAuthenticationConverter}
    (h : Configured S conv) {d : GrantedAuthority} (hd : d ∈ conv.defaultAuthorities.getD []) :
    HasText d.getAuthority ∧ PlainTitle d.getAuthority := by
  rcases h with hnone | ⟨join, names, hjoin, hset⟩
  · rw [hnone] at hd
    cases hd
  · obtain ⟨htext, rfl⟩ := (setDefaultAuthorities_ok_iff hS hjoin).mp hset
    obtain ⟨t, ht, rfl⟩ := List.mem_map.mp hd
    obtain ⟨name, -, hpiece⟩ := List.mem_flatMap.mp ht
    have hplain := Pieces.plain_of_mem_tokens (mem_tokenizeToStringArray.mp hpiece)
    exact ⟨htext t ht, plainTitle_iff.mpr hplain.2⟩

/-! ## Tokens without an authorities claim -/

variable {conv : CustomUserAuthenticationConverter} {map : ClaimsMap}

/-- A claim is read alike by all converters. -/
theorem getAuthorities_of_claim {conv' : CustomUserAuthenticationConverter} {map' : ClaimsMap}
    {v : JavaValue} (h : map.find? Claim.authorities = some v)
    (h' : map'.find? Claim.authorities = some v) :
    conv.getAuthorities S map = conv'.getAuthorities S map' := by
  have hkey : map.containsKey Claim.authorities = true := JavaMap.containsKey_eq_true.mpr ⟨v, h⟩
  have hkey' : map'.containsKey Claim.authorities = true := JavaMap.containsKey_eq_true.mpr ⟨v, h'⟩
  unfold getAuthorities
  rw [if_pos hkey, if_pos hkey', ClaimsMap.get_of_find? h, ClaimsMap.get_of_find? h']

theorem getAuthorities_of_none (hnone : map.find? Claim.authorities = none) :
    conv.getAuthorities S map = .ok conv.defaultAuthorities := by
  have hkey : map.containsKey Claim.authorities = false := JavaMap.containsKey_eq_false.mpr hnone
  unfold getAuthorities
  rw [hkey]
  rfl

/-- A user without an authorities claim has the default authorities. -/
theorem extractAuthentication_of_no_authorities (hS : S.Documented)
    (hnone : map.find? Claim.authorities = none) (huser : map.get Claim.username ≠ .null)
    (hemail : map.get email ≠ .null) :
    ∃ user, conv.extractAuthentication S map = .ok (some user) ∧
      user.authorities = some (conv.defaultAuthorities.getD []) := by
  obtain ⟨username, hu⟩ := JavaValue.text_of_ne_null huser
  obtain ⟨mail, he⟩ := JavaValue.text_of_ne_null hemail
  exact ⟨_, (extractAuthentication_ok_some_iff hS).mpr ⟨ClaimsMap.containsKey_of_get_ne_null huser,
    username, mail, _, hu, he, getAuthorities_of_none hnone, rfl⟩, rfl⟩

/-- Names with text that are given to the setter are what every user without an authorities claim is
granted exactly when all of them are plain: no comma in them, nothing to trim. -/
theorem default_authorities_kept_iff (hS : S.Documented) {join : List (Option String) → String}
    (hjoin : JoinsWithCommas join) {ss : List String} (htext : ∀ s ∈ ss, HasText s) :
    (∃ conv, setDefaultAuthorities S join (ss.map some) = .ok conv ∧
      ∀ map : ClaimsMap, map.find? Claim.authorities = none → map.get Claim.username ≠ .null →
        map.get email ≠ .null → ∃ user, conv.extractAuthentication S map = .ok (some user) ∧
          ∀ x, ⟨x⟩ ∈ user.authorities.getD [] ↔ x ∈ ss) ↔
      ∀ s ∈ ss, PlainTitle s := by
  rw [← flatMap_tokenize_same_iff htext, ← defaultNames_map_some]
  constructor
  · rintro ⟨conv, hset, hgranted⟩ t
    obtain ⟨-, rfl⟩ := (setDefaultAuthorities_ok_iff hS hjoin).mp hset
    let map : ClaimsMap := ((∅ : ClaimsMap).put Claim.username (.str "")).put email (.str "")
    have hnone : map.find? Claim.authorities = none := rfl
    obtain ⟨user, hok, hsame⟩ := hgranted map hnone (by decide) (by decide)
    obtain ⟨user', hok', hauthorities⟩ := @extractAuthentication_of_no_authorities S
      ⟨some ((defaultNames (ss.map some)).map GrantedAuthority.mk)⟩ map hS hnone
      (by decide) (by decide)
    rw [hok] at hok'
    cases hok'
    rw [← hsame t, hauthorities]
    simp
  · intro hsame
    have htokens : ∀ t ∈ defaultNames (ss.map some), HasText t := fun t ht =>
      htext t ((hsame t).mp ht)
    refine ⟨_, (setDefaultAuthorities_ok_iff hS hjoin).mpr ⟨htokens, rfl⟩, ?_⟩
    intro map hnone huser hemail
    obtain ⟨user, hok, hauthorities⟩ := @extractAuthentication_of_no_authorities S
      ⟨some ((defaultNames (ss.map some)).map GrantedAuthority.mk)⟩ map hS hnone huser hemail
    refine ⟨user, hok, fun x => ?_⟩
    rw [← hsame x, hauthorities]
    simp

end CustomUserAuthenticationConverter

/-! ## Encoding a decoded token again -/

namespace CustomAccessTokenConverter

open CustomUserAuthenticationConverter

variable {conv conv' : CustomAccessTokenConverter} {value : String} {map : ClaimsMap}
  {token : OAuth2AccessToken} {authentication : OAuth2Authentication CustomPrincipal}
  {user : UserAuthentication CustomPrincipal}

/-- The claims that name the user are encoded as they were decoded. -/
theorem find?_reencoded_identity (nameOf : CustomPrincipal → Option String)
    (ht : extractAccessToken value map = .ok token) {k : String}
    (hk : k ∈ [Claim.username, email, Claim.authorities]) {x : JavaValue}
    (hx : map.find? k = some x) :
    (conv.convertAccessToken S nameOf token authentication).find? k = some x := by
  obtain ⟨e, s, -, -, rfl⟩ := extractAccessToken_ok_iff.mp ht
  have hkept : ¬ ConsumedClaim k ∧ k ∉ [Claim.aud, Claim.clientId] := by
    unfold ConsumedClaim
    simp only [List.mem_cons, List.not_mem_nil, or_false] at hk
    rcases hk with rfl | rfl | rfl <;> decide
  obtain ⟨hkept, hother⟩ := hkept
  refine find?_convertAccessToken_of_information S conv nameOf authentication ?_ hother
  exact (find?_extractInformation_of_kept hkept).trans hx

/-- For a user without an authorities claim the encoder writes the authorities of the user. -/
theorem find?_reencoded_authorities (nameOf : CustomPrincipal → Option String)
    (ht : extractAccessToken value map = .ok token) (hnone : map.find? Claim.authorities = none)
    (huser : authentication.userAuthentication = some user) :
    (conv.convertAccessToken S nameOf token authentication).find? Claim.authorities =
      writtenUserAuthorities S user := by
  obtain ⟨e, s, -, -, rfl⟩ := extractAccessToken_ok_iff.mp ht
  have hfree : (extractInformation map).find? Claim.authorities = none :=
    (find?_extractInformation_of_kept (by unfold ConsumedClaim; decide)).trans hnone
  rw [find?_convertAccessToken_of_free S conv nameOf authentication hfree (by decide)]
  exact writtenAuthorities_of_user S huser

/-- Another converter reads the same name and email, so only the authorities count. -/
theorem same_user_iff (hS : S.Documented) (nameOf : CustomPrincipal → Option String)
    (ht : extractAccessToken value map = .ok token)
    (huser : conv.userTokenConverter.extractAuthentication S map = .ok (some user)) :
    (∃ user', conv'.userTokenConverter.extractAuthentication S
          (conv.convertAccessToken S nameOf token authentication) = .ok (some user') ∧
        user'.principal = user.principal ∧
        ∀ x, x ∈ user'.authorities.getD [] ↔ x ∈ user.authorities.getD []) ↔
      ∃ authorities, conv'.userTokenConverter.getAuthorities S
          (conv.convertAccessToken S nameOf token authentication) = .ok authorities ∧
        ∀ x, x ∈ authorities.getD [] ↔ x ∈ user.authorities.getD [] := by
  obtain ⟨hkey, username, mail, as, hu, he, -, rfl⟩ :=
    (extractAuthentication_ok_some_iff hS).mp huser
  obtain ⟨v, hv⟩ := JavaMap.containsKey_eq_true.mp hkey
  have hmail : map.find? email ≠ none := by
    intro hnone
    rw [ClaimsMap.get_of_find?_none hnone] at he
    cases he
  obtain ⟨w, hw⟩ := Option.ne_none_iff_exists'.mp hmail
  have hv' := @find?_reencoded_identity S conv value map token authentication nameOf ht
    Claim.username (by decide) v hv
  have hw' := @find?_reencoded_identity S conv value map token authentication nameOf ht
    email (by decide) w hw
  rw [ClaimsMap.get_of_find? hv, ← ClaimsMap.get_of_find? hv'] at hu
  rw [ClaimsMap.get_of_find? hw, ← ClaimsMap.get_of_find? hw'] at he
  constructor
  · rintro ⟨user', hok, -, hsame⟩
    obtain ⟨-, _, _, as', -, -, has', rfl⟩ := (extractAuthentication_ok_some_iff hS).mp hok
    exact ⟨as', has', hsame⟩
  · rintro ⟨as', has', hsame⟩
    exact ⟨_, (extractAuthentication_ok_some_iff hS).mpr ⟨JavaMap.containsKey_eq_true.mpr ⟨v, hv'⟩,
      username, mail, as', hu, he, has', rfl⟩, rfl, hsame⟩

/-- The authorities that are written for plain names are read again by any converter. -/
theorem getAuthorities_written (hS : S.Documented) {m : ClaimsMap} {a : GrantedAuthority}
    {as : List GrantedAuthority}
    (hplain : ∀ d ∈ a :: as, HasText d.getAuthority ∧ PlainTitle d.getAuthority)
    (hm : m.find? Claim.authorities = some (.ofStringSet (S.authorityListToSet (a :: as)))) :
    ∃ authorities, conv'.userTokenConverter.getAuthorities S m = .ok authorities ∧
      ∀ x, x ∈ authorities.getD [] ↔ x ∈ a :: as := by
  have hnames : ∀ t, t ∈ (S.authorityListToSet (a :: as)).toList ↔
      ∃ d ∈ a :: as, d.getAuthority = t := fun t =>
    LinkedHashSet.mem_toList.trans (hS.mem_authorityListToSet (a :: as) t)
  have htext : ∀ t ∈ (S.authorityListToSet (a :: as)).toList, HasText t := by
    intro t ht
    obtain ⟨d, hd, rfl⟩ := (hnames t).mp ht
    exact (hplain d hd).1
  have htokens := (flatMap_tokenize_same_iff htext).mpr fun t ht => by
    obtain ⟨d, hd, rfl⟩ := (hnames t).mp ht
    exact (hplain d hd).2
  refine ⟨_, (getAuthorities_coll_ok_iff hS hm).mpr
    ⟨fun t ht => htext t ((htokens t).mp ht), rfl⟩, fun x => ?_⟩
  have hmem : x ∈ ((S.authorityListToSet (a :: as)).toList.flatMap tokenizeToStringArray).map
      GrantedAuthority.mk ↔ x.getAuthority ∈
        (S.authorityListToSet (a :: as)).toList.flatMap tokenizeToStringArray := by
    constructor
    · intro h
      obtain ⟨t, ht, rfl⟩ := List.mem_map.mp h
      exact ht
    · intro h
      exact List.mem_map.mpr ⟨x.getAuthority, h, rfl⟩
  refine hmem.trans (((htokens _).trans (hnames _)).trans ?_)
  constructor
  · rintro ⟨⟨t⟩, hd, rfl⟩
    exact hd
  · intro hx
    exact ⟨x, hx, rfl⟩

/-- A token of a user that is decoded and encoded again means the same to any other converter,
whatever its defaults are, exactly when it had an authorities claim, or when the user was granted
some default, which is then in the claim, or when the other converter has no defaults. -/
theorem reencoded_user_same_iff (hS : S.Documented) (hconv : Configured S conv.userTokenConverter)
    (nameOf : CustomPrincipal → Option String) (ht : extractAccessToken value map = .ok token)
    (ha : conv.extractAuthentication S map = .ok authentication)
    (huser : authentication.userAuthentication = some user) :
    (∃ user', conv'.userTokenConverter.extractAuthentication S
          (conv.convertAccessToken S nameOf token authentication) = .ok (some user') ∧
        user'.principal = user.principal ∧
        ∀ x, x ∈ user'.authorities.getD [] ↔ x ∈ user.authorities.getD []) ↔
      map.find? Claim.authorities ≠ none ∨ user.authorities.getD [] ≠ [] ∨
        conv'.userTokenConverter.defaultAuthorities.getD [] = [] := by
  have hextract : conv.userTokenConverter.extractAuthentication S map = .ok (some user) :=
    (parts_of_extracted hS ha).1.trans (congrArg _ huser)
  rw [same_user_iff hS nameOf ht hextract]
  obtain ⟨-, _, _, as, -, -, has, rfl⟩ := (extractAuthentication_ok_some_iff hS).mp hextract
  cases hclaim : map.find? Claim.authorities with
  | some v =>
    -- the claim is kept, and a claim is read without the defaults
    have hkept := @find?_reencoded_identity S conv value map token authentication nameOf ht
      Claim.authorities (by decide) v hclaim
    refine iff_of_true ⟨as, ?_, fun x => Iff.rfl⟩ (Or.inl (by simp))
    rw [← has]
    exact getAuthorities_of_claim hkept hclaim
  | none =>
    have hwritten := @find?_reencoded_authorities S conv value map token authentication _ nameOf ht
      hclaim huser
    rw [getAuthorities_of_none hclaim] at has
    cases has
    cases hdefaults : conv.userTokenConverter.defaultAuthorities.getD [] with
    | nil =>
      have hfree : (conv.convertAccessToken S nameOf token authentication).find?
          Claim.authorities = none := by
        rw [hwritten, hdefaults]
        rfl
      rw [getAuthorities_of_none hfree]
      simp [List.eq_nil_iff_forall_not_mem]
    | cons d ds =>
      have hfound : (conv.convertAccessToken S nameOf token authentication).find?
          Claim.authorities = some (.ofStringSet (S.authorityListToSet (d :: ds))) := by
        rw [hwritten, hdefaults]
        rfl
      refine iff_of_true (getAuthorities_written hS (fun d' hd' => ?_) hfound)
        (Or.inr (Or.inl (by simp)))
      rw [← hdefaults] at hd'
      exact hconv.plain hS hd'

/-! A server that grants `role_user` by default encodes a token of alice without authorities. -/

def joinNames (names : List (Option String)) : String :=
  ",".intercalate (names.map fun name => name.getD "null")

theorem defaults_of_plain_names_kept :
    ∃ conv, setDefaultAuthorities .reference joinNames (["role_user", "can_read_user"].map some) =
        .ok conv ∧
      ∀ map : ClaimsMap, map.find? Claim.authorities = none → map.get Claim.username ≠ .null →
        map.get email ≠ .null →
        ∃ user, conv.extractAuthentication .reference map = .ok (some user) ∧
          ∀ x, ⟨x⟩ ∈ user.authorities.getD [] ↔ x ∈ ["role_user", "can_read_user"] := by
  have htext : ∀ s ∈ ["role_user", "can_read_user"], HasText s := by decide
  have hplain : ∀ s ∈ ["role_user", "can_read_user"], PlainTitle s := by decide
  exact (default_authorities_kept_iff SpringSecurity.reference_documented (fun _ => rfl)
    htext).mpr hplain

def grantingConverter : CustomAccessTokenConverter where
  userTokenConverter := ⟨some [⟨"role_user"⟩]⟩

def bareClaims : ClaimsMap := aliceClaims.remove Claim.authorities

theorem reencoded_bare_token_keeps_defaults :
    ∃ token authentication user, extractAccessToken "token" bareClaims = .ok token ∧
      grantingConverter.extractAuthentication .reference bareClaims = .ok authentication ∧
      authentication.userAuthentication = some user ∧
      ∃ user', ({} : CustomAccessTokenConverter).userTokenConverter.extractAuthentication
          .reference (grantingConverter.convertAccessToken .reference objectName token
            authentication) = .ok (some user') ∧
        user'.principal = user.principal ∧
        ∀ x, x ∈ user'.authorities.getD [] ↔ x ∈ user.authorities.getD [] := by
  have hconv : Configured .reference grantingConverter.userTokenConverter :=
    Or.inr ⟨joinNames, [some "role_user"], fun _ => rfl, rfl⟩
  obtain ⟨token, ht⟩ : ∃ token, extractAccessToken "token" bareClaims = .ok token := ⟨_, rfl⟩
  obtain ⟨authentication, ha, huser⟩ : ∃ authentication,
      grantingConverter.extractAuthentication .reference bareClaims = .ok authentication ∧
        authentication.userAuthentication =
          some ⟨⟨"alice", "alice@mail"⟩, some "N/A", some [⟨"role_user"⟩]⟩ := ⟨_, rfl, rfl⟩
  exact ⟨token, authentication, _, ht, ha, huser,
    (reencoded_user_same_iff SpringSecurity.reference_documented hconv objectName ht ha huser).mpr
      (Or.inr (Or.inl (by simp)))⟩

end CustomAccessTokenConverter

end ResourceServer
