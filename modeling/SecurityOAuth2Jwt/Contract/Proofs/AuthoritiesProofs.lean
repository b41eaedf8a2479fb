import SecurityOAuth2Jwt.AuthorizationServer.CustomTokenEnhancer
import SecurityOAuth2Jwt.AuthorizationServer.Proofs.SecurityUserProofs
import SecurityOAuth2Jwt.ResourceServer.Proofs.DecoderProofs

/-!
# Proofs: the authorities of a user on the other server

The authorization server sends the titles of a user as a collection; the resource server joins the
collection with commas and cuts it again. The titles arrive unchanged exactly when none of them
holds a comma or has blanks around it.
-/

namespace Contract

open Java Spring AuthorizationServer ResourceServer

variable {S : SpringSecurity}

/-- The authorities that the resource server reads from the claim of these names. -/
def readAuthorities (names : List String) : Option (List GrantedAuthority) :=
  if names = [] then none
  else some ((names.flatMap tokenizeToStringArray).map GrantedAuthority.mk)

theorem mem_readAuthorities {names : List String} {x : String} :
    ⟨x⟩ ∈ (readAuthorities names).getD [] ↔ x ∈ names.flatMap tokenizeToStringArray := by
  unfold readAuthorities
  by_cases hnil : names = []
  · rw [if_pos hnil, hnil]
    simp
  · rw [if_neg hnil]
    simp

/-- The claim of these names is read exactly when every token of a name has text. -/
theorem getAuthorities_ok_iff (hS : S.Documented) {conv : CustomUserAuthenticationConverter}
    (hdef : conv.defaultAuthorities = none) {map : ClaimsMap} {names : List String}
    (hmap : HasAuthoritiesClaim map names) {authorities : Option (List GrantedAuthority)} :
    conv.getAuthorities S map = .ok authorities ↔
      (∀ t ∈ names.flatMap tokenizeToStringArray, HasText t) ∧
        authorities = readAuthorities names := by
  unfold HasAuthoritiesClaim at hmap
  unfold readAuthorities
  by_cases hnil : names = []
  · rw [if_pos hnil] at hmap
    have hkey : map.containsKey Claim.authorities = false := JavaMap.containsKey_eq_false.mpr hmap
    unfold CustomUserAuthenticationConverter.getAuthorities
    simp [hkey, hdef, hnil, eq_comm]
  · rw [if_neg hnil] at hmap
    rw [if_neg hnil]
    exact CustomUserAuthenticationConverter.getAuthorities_coll_ok_iff hS hmap

/-- The names of an authorities claim arrive on the resource server as they are exactly when all of
them are plain. -/
theorem names_arrive_iff (hS : S.Documented) {conv : CustomUserAuthenticationConverter}
    (hdef : conv.defaultAuthorities = none) {names : List String} {map : ClaimsMap}
    (htext : ∀ s ∈ names, HasText s) (hmap : HasAuthoritiesClaim map names)
    (huser : map.get Claim.username ≠ .null) (hemail : map.get email ≠ .null) :
    (∃ user, conv.extractAuthentication S map = .ok (some user) ∧
        ∀ x, ⟨x⟩ ∈ user.authorities.getD [] ↔ x ∈ names) ↔
      ∀ s ∈ names, PlainTitle s := by
  rw [← flatMap_tokenize_same_iff htext]
  constructor
  · rintro ⟨user, hok, hsame⟩ t
    obtain ⟨-, username, email', as, -, -, has, rfl⟩ :=
      (CustomUserAuthenticationConverter.extractAuthentication_ok_some_iff hS).mp hok
    obtain ⟨-, rfl⟩ := (getAuthorities_ok_iff hS hdef hmap).mp has
    rw [← mem_readAuthorities]
    exact hsame t
  · intro hsame
    obtain ⟨username, hu⟩ := JavaValue.text_of_ne_null huser
    obtain ⟨email', he⟩ := JavaValue.text_of_ne_null hemail
    have has : conv.getAuthorities S map = .ok (readAuthorities names) :=
      (getAuthorities_ok_iff hS hdef hmap).mpr ⟨fun t ht => htext t ((hsame t).mp ht), rfl⟩
    refine ⟨_, (CustomUserAuthenticationConverter.extractAuthentication_ok_some_iff hS).mpr
      ⟨ClaimsMap.containsKey_of_get_ne_null huser, username, email', _, hu, he, has, rfl⟩,
      fun x => ?_⟩
    rw [← hsame x, ← mem_readAuthorities]
    rfl

/-- The titles of a user arrive on the resource server as they are exactly when they are plain: no
comma in them, nothing to trim. -/
theorem authorities_arrive_iff (hS : S.Documented) {conv : CustomUserAuthenticationConverter}
    (hdef : conv.defaultAuthorities = none) (u : SecurityUser)
    (htext : ∀ t ∈ u.titles, TextPresent t) :
    ∃ authorities, u.getAuthorities S = .ok authorities ∧
      ∀ (names : List String) (map : ClaimsMap), (∀ x, x ∈ names ↔ ⟨x⟩ ∈ authorities) →
        HasAuthoritiesClaim map names →
        map.get Claim.username ≠ .null → map.get email ≠ .null →
        ((∃ user, conv.extractAuthentication S map = .ok (some user) ∧
            ∀ x, ⟨x⟩ ∈ user.authorities.getD [] ↔
              ∃ role ∈ u.roleSet, role.title = some x ∨
                ∃ permission ∈ role.permissionSet, permission.title = some x) ↔
          ∀ role ∈ u.roleSet, (∀ t, role.title = some t → PlainTitle t) ∧
            ∀ permission ∈ role.permissionSet, ∀ t, permission.title = some t → PlainTitle t) := by
  obtain ⟨authorities, hl⟩ := (SecurityUser.getAuthorities_returns_iff hS).mpr htext
  refine ⟨authorities, hl, fun names map hnames hmap huser hemail => ?_⟩
  have htitle : ∀ x, x ∈ names ↔ some x ∈ u.titles := fun x =>
    (hnames x).trans (SecurityUser.mem_getAuthorities hS hl)
  have hnamesText : ∀ s ∈ names, HasText s := fun s hs => htext _ ((htitle s).mp hs)
  have harrive := names_arrive_iff hS hdef hnamesText hmap huser hemail
  simp only [htitle] at harrive
  rw [← SecurityUser.forall_titles_iff]
  simp only [← SecurityUser.some_mem_titles]
  exact harrive

/-! A user whose titles are plain, and one whose title holds a comma. -/

def userWithRole (role : SecurityRole) : SecurityUser where
  username := some "alice"
  password := some "secret"
  email := some "alice@mail"
  accountExpired := some false
  accountLocked := some false
  credentialExpired := some false
  enabled := some true
  roleSet := [role]

def claimsWithAuthorities (names : List String) : ClaimsMap :=
  let map : ClaimsMap := ∅
  let map := map.put Claim.username (.str "alice")
  let map := map.put email (.str "alice@mail")
  map.put Claim.authorities (.coll (names.map Elem.str))

def plainUser : SecurityUser := userWithRole ⟨some "role_user", [⟨some "can_read_user"⟩]⟩

theorem authorities_of_plainUser_arrive :
    ∃ user, ({} : CustomUserAuthenticationConverter).extractAuthentication SpringSecurity.reference
        (claimsWithAuthorities ["role_user", "can_read_user"]) = .ok (some user) ∧
      ∀ x, ⟨x⟩ ∈ user.authorities.getD [] ↔
        ∃ role ∈ plainUser.roleSet, role.title = some x ∨
          ∃ permission ∈ role.permissionSet, permission.title = some x := by
  obtain ⟨authorities, hl, harrive⟩ :=
    @authorities_arrive_iff .reference SpringSecurity.reference_documented {} rfl plainUser
      (by decide)
  have hlist : authorities = .ofList [⟨"role_user"⟩, ⟨"can_read_user"⟩] :=
    Except.ok.inj (hl.symm.trans rfl)
  subst hlist
  refine (harrive ["role_user", "can_read_user"] (claimsWithAuthorities _) ?_ rfl (by decide)
    (by decide)).mpr ?_
  · intro x
    simp
  · intro role hrole
    cases List.mem_singleton.mp hrole
    refine ⟨fun t ht => ?_, fun permission hpermission t ht => ?_⟩
    · cases ht
      decide
    · cases List.mem_singleton.mp hpermission
      cases ht
      decide

/-- A role titled `x,role_admin` makes its user an administrator on the resource server. -/
theorem authorities_of_comma_title :
    (userWithRole ⟨some "x,role_admin", []⟩).getAuthorities SpringSecurity.reference =
      .ok (.ofList [⟨"x,role_admin"⟩]) ∧
    ({} : CustomUserAuthenticationConverter).extractAuthentication SpringSecurity.reference
        (claimsWithAuthorities ["x,role_admin"]) =
      .ok (some ⟨⟨"alice", "alice@mail"⟩, some "N/A", some [⟨"x"⟩, ⟨"role_admin"⟩]⟩) :=
  ⟨rfl, rfl⟩

end Contract
