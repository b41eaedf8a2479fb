import SecurityOAuth2Jwt.Contract.Proofs.IssuedTokenProofs
import SecurityOAuth2Jwt.ResourceServer.Proofs.ResourceControllerProofs

/-!
# Proofs: from the row of a user to the answer of a resource

For a user with an email and plain titles the two servers work together: the token that one issues
is decoded by the other, and its handlers answer by the roles and permissions of the row.
-/

namespace Contract

open Java Spring AuthorizationServer ResourceServer

variable {S : SpringSecurity}

/-- The titles of a user whose authorities could be built have text. -/
theorem hasText_of_mem_titles (hS : S.Documented) {u : SecurityUser}
    {authorities : LinkedHashSet GrantedAuthority} (hl : u.getAuthorities S = .ok authorities)
    {t : String} (ht : some t ∈ u.titles) : HasText t := by
  obtain ⟨ss, htitles, htext, -⟩ := (SecurityUser.getAuthorities_ok_iff hS).mp hl
  rw [htitles] at ht
  obtain ⟨s, hs, heq⟩ := List.mem_map.mp ht
  rw [← Option.some.inj heq]
  exact htext s hs

section Token

variable (hS : S.Documented) {J : JwtAccessTokenConverter} (hJ : J.Documented)
  {conv : CustomAccessTokenConverter}
  (hdef : conv.userTokenConverter.defaultAuthorities = none) {u : SecurityUser} {mail : String}
  (hmail : u.email = some mail) (hplain : ∀ t, some t ∈ u.titles → PlainTitle t)
  {token : OAuth2AccessToken} (hfree : LeavesDefaults token)
  {authentication : OAuth2Authentication SecurityUser} {credentials : Option String}
  {authorities : LinkedHashSet GrantedAuthority} (hl : u.getAuthorities S = .ok authorities)
  (huser : authentication.userAuthentication = some ⟨u, credentials, some authorities.toList⟩)

include hS hJ hdef hmail hplain hfree hl huser

/-- The token of a user with an email and plain titles is decoded to the name and the email of the
user, with the titles as authorities. -/
theorem issued_token_decoded {name : String} (hname : u.username = some name) :
    ∃ map decoded user, AuthorizationServer.enhance J token authentication = .ok map ∧
      conv.extractAuthentication S map = .ok decoded ∧ decoded.userAuthentication = some user ∧
      user.principal = ⟨name, mail⟩ ∧ ∀ x, ⟨x⟩ ∈ decoded.getAuthorities ↔ some x ∈ u.titles := by
  have hdefaults := leavesDefaults_withEmail hfree u
  have husername := ClaimsMap.get_of_find? (hJ.username _ _ _ name hdefaults huser hname)
  have hemail := get_enhanced_email hJ hfree u authentication
  rw [hmail] at hemail
  obtain ⟨names, hnames, hclaim⟩ := hJ.authorities _ authentication _ hdefaults huser
  have htitle : ∀ x, x ∈ names ↔ some x ∈ u.titles := fun x =>
    (hnames x).trans (SecurityUser.mem_getAuthorities hS hl)
  have htext : ∀ s ∈ names, HasText s := fun s hs =>
    hasText_of_mem_titles hS hl ((htitle s).mp hs)
  have hnamesPlain : ∀ s ∈ names, PlainTitle s := fun s hs => hplain s ((htitle s).mp hs)
  obtain ⟨user, hextract, hsame⟩ := (names_arrive_iff hS hdef htext hclaim
    (by simp [husername]) (by simp [hemail, JavaValue.ofString])).mpr hnamesPlain
  obtain ⟨decoded, hdecoded, hdecodedUser⟩ := decodes_enhanced hJ hfree u authentication hextract
  refine ⟨_, decoded, user, enhance_user J token huser, hdecoded, hdecodedUser, ?_, fun x => ?_⟩
  · obtain ⟨-, username, email', as, hu, he, -, rfl⟩ :=
      (CustomUserAuthenticationConverter.extractAuthentication_ok_some_iff hS).mp hextract
    rw [husername] at hu
    rw [hemail] at he
    cases hu
    cases he
    rfl
  · unfold OAuth2Authentication.getAuthorities
    rw [hdecodedUser, ← htitle]
    exact hsame x

/-- With such a token a user is answered with name and email where a role or a permission of the row
is titled as the handler requires, and denied otherwise. -/
theorem issued_token_answered {C : AccountStatusUserDetailsChecker} (hC : C.Documented)
    {T : UserTable} {name : String} (hload : loadUserByUsername C T name = .ok u) :
    ∃ map decoded, AuthorizationServer.enhance J token authentication = .ok map ∧
      conv.extractAuthentication S map = .ok decoded ∧
      ResourceController.get decoded .admins =
        (if some "role_admin" ∈ u.titles then .body (name ++ " " ++ mail) else .denied) ∧
      ResourceController.get decoded .users =
        (if some "role_admin" ∈ u.titles ∨ some "role_user" ∈ u.titles then
          .body ("ResourceController.secured:" ++ (name ++ " " ++ mail))
        else .denied) := by
  have hname : u.username = some name :=
    UserTable.username_of_findByUsername ((loadUserByUsername_ok_iff hC).mp hload).1
  obtain ⟨map, decoded, user, hmap, hdecoded, hdecodedUser, hprincipal, hauthority⟩ :=
    issued_token_decoded hS hJ hdef hmail hplain hfree hl huser hname
  obtain ⟨hcontext, hsecured⟩ := ResourceController.handlers_of_user hdecodedUser
  rw [hprincipal] at hcontext hsecured
  refine ⟨map, decoded, hmap, hdecoded, ?_, ?_⟩
  · by_cases hadmin : some "role_admin" ∈ u.titles
    · rw [ResourceController.getAdmins_passed ((hauthority _).mpr hadmin), hcontext, if_pos hadmin]
      rfl
    · rw [ResourceController.getAdmins_denied (mt (hauthority _).mp hadmin), if_neg hadmin]
  · by_cases hrole : some "role_admin" ∈ u.titles ∨ some "role_user" ∈ u.titles
    · have hpassed := hrole.imp (hauthority _).mpr (hauthority _).mpr
      rw [ResourceController.getUsers_passed hpassed, hsecured, if_pos hrole]
      rfl
    · obtain ⟨hadmin, huserRole⟩ := not_or.mp hrole
      rw [ResourceController.getUsers_denied (mt (hauthority _).mp hadmin)
        (mt (hauthority _).mp huserRole), if_neg hrole]

end Token

end Contract
