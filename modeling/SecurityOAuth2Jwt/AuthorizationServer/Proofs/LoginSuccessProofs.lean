import SecurityOAuth2Jwt.AuthorizationServer.Proofs.FailureProofs
import SecurityOAuth2Jwt.AuthorizationServer.Proofs.LoginProofs

/-!
# Proofs: who gets in

A login goes through the user service, the password and the authorities of the row, and a refresh
request through the same service with the name in its token. Both let in the same users, with the
same authorities.
-/

namespace AuthorizationServer

open Java Spring

section Success

variable {S : SpringSecurity} {P : DaoAuthenticationProvider} (hP : P.Succeeds S)
  {C : AccountStatusUserDetailsChecker} (hC : C.Documented) {encoder : PasswordMatcher}
  {T : UserTable} {name password : String}

include hP hC

/-- A successful login is that of an active row, with the authorities of the row. -/
theorem login_ok_iff {a : UserAuthentication SecurityUser} :
    login P C encoder T name password = .ok a ↔
      ∃ u authorities, T.findByUsername name = some u ∧ u.Active ∧
        encoder password u.password = true ∧ u.getAuthorities S = .ok authorities ∧
        a = ⟨u, none, some authorities.toList⟩ := by
  constructor
  · intro h
    obtain ⟨u, authorities, hload, hmatch, hl, ha⟩ := hP.only _ _ _ _ _ h
    obtain ⟨hfound, hactive⟩ := (loadUserByUsername_ok_iff hC).mp hload
    exact ⟨u, authorities, hfound, hactive, hmatch, hl, ha⟩
  · rintro ⟨u, authorities, hfound, hactive, hmatch, hl, rfl⟩
    have hload := (loadUserByUsername_ok_iff hC).mpr ⟨hfound, hactive⟩
    -- the provider asks for the status that the service has checked
    obtain ⟨hlocked, henabled, hexpired, hcredentials⟩ :=
      (hC.check_ok_iff u).mp ((check_ok_iff_active hC).mpr hactive)
    exact hP.success _ _ _ _ _ _ hload hmatch hlocked henabled hexpired hcredentials hl

/-- A login succeeds exactly when the table has an active row for the name whose password matches
and whose titles all have text; it authenticates this row, without the password, and its
authorities are the titles of the row, each of them once. -/
theorem login_succeeds_iff (hS : S.Documented) :
    ((∃ a, login P C encoder T name password = .ok a) ↔
      ∃ u, T.findByUsername name = some u ∧ u.Active ∧ encoder password u.password = true ∧
        ∀ t ∈ u.titles, TextPresent t) ∧
    ∀ a, login P C encoder T name password = .ok a →
      T.findByUsername name = some a.principal ∧ a.credentials = none ∧
      ∃ authorities, a.authorities = some authorities ∧ authorities.Nodup ∧
        ∀ t, ⟨t⟩ ∈ authorities ↔ some t ∈ a.principal.titles := by
  constructor
  · constructor
    · rintro ⟨a, ha⟩
      obtain ⟨u, authorities, hfound, hactive, hmatch, hl, -⟩ := (login_ok_iff hP hC).mp ha
      exact ⟨u, hfound, hactive, hmatch,
        (SecurityUser.getAuthorities_returns_iff hS).mp ⟨authorities, hl⟩⟩
    · rintro ⟨u, hfound, hactive, hmatch, htext⟩
      obtain ⟨authorities, hl⟩ := (SecurityUser.getAuthorities_returns_iff hS).mpr htext
      exact ⟨_, (login_ok_iff hP hC).mpr ⟨u, authorities, hfound, hactive, hmatch, hl, rfl⟩⟩
  · intro a ha
    obtain ⟨u, authorities, hfound, -, -, hl, rfl⟩ := (login_ok_iff hP hC).mp ha
    exact ⟨hfound, rfl, authorities.toList, rfl, authorities.nodup, fun t =>
      SecurityUser.mem_getAuthorities hS hl⟩

end Success

/-- For a user whose password is known, a refresh token that names the user is worth as much as a
login: the one puts an authentication into the context exactly when the other succeeds, with the
same authorities in the same order. -/
theorem refresh_agrees_with_login {f : CustomOauth2RequestFactory} (hf : f.Documented)
    {P : DaoAuthenticationProvider} (hP : P.Succeeds f.spring) {encoder : PasswordMatcher}
    {T : UserTable} {ps : RequestParameters} {name password : String}
    (hname : tokenName f.tokenStore (ps.get "refresh_token") = .ok name)
    (hmatch : ∀ u, T.findByUsername name = some u → encoder password u.password = true)
    (authorities : List GrantedAuthority) :
    f.refreshedAuthentication T ps = .ok ⟨name, none, some authorities⟩ ↔
      ∃ u, login P f.checker encoder T name password = .ok ⟨u, none, some authorities⟩ := by
  rw [f.refreshedAuthentication_ok_iff hf]
  constructor
  · rintro ⟨name', u, set, hname', hfound, hactive, hl, huser⟩
    rw [hname] at hname'
    cases hname'
    obtain ⟨-, -, hauthorities⟩ := UserAuthentication.mk.inj huser
    rw [hauthorities]
    exact ⟨u, (login_ok_iff hP hf.checker).mpr ⟨u, set, hfound, hactive, hmatch u hfound, hl, rfl⟩⟩
  · rintro ⟨u, ha⟩
    obtain ⟨u', set, hfound, hactive, -, hl, hlogin⟩ := (login_ok_iff hP hf.checker).mp ha
    obtain ⟨-, -, hauthorities⟩ := UserAuthentication.mk.inj hlogin
    rw [hauthorities]
    exact ⟨name, u', set, hname, hfound, hactive, hl, rfl⟩

/-! Alice logs in with her password, and refreshes. -/

theorem titles_of_aliceRow : aliceRow.titles = [some "role_user", some "read"] := rfl

theorem login_of_alice_succeeds :
    ∃ a, login (.reference .reference) .reference plainEncoder tableOfAlice "alice" "secret" =
      .ok a := by
  have hS := SpringSecurity.reference_documented
  refine (login_succeeds_iff (DaoAuthenticationProvider.reference_succeeds hS)
    AccountStatusUserDetailsChecker.reference_documented hS).1.mpr
      ⟨aliceRow, rfl, by decide, rfl, ?_⟩
  rw [titles_of_aliceRow]
  decide

theorem refresh_of_alice_agrees_with_login :
    referenceFactory.refreshedAuthentication tableOfAlice refreshParameters =
        .ok ⟨"alice", none, some [⟨"role_user"⟩, ⟨"read"⟩]⟩ ↔
      ∃ u, login (.reference .reference) .reference plainEncoder tableOfAlice "alice" "secret" =
        .ok ⟨u, none, some [⟨"role_user"⟩, ⟨"read"⟩]⟩ := by
  refine refresh_agrees_with_login referenceFactory_documented
    (DaoAuthenticationProvider.reference_succeeds SpringSecurity.reference_documented) rfl
    (fun u hfound => ?_) [⟨"role_user"⟩, ⟨"read"⟩]
  cases hfound
  rfl

end AuthorizationServer
