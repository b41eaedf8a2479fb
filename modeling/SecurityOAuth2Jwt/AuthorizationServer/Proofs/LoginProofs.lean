import SecurityOAuth2Jwt.AuthorizationServer.WebSecurityConfiguration
import SecurityOAuth2Jwt.AuthorizationServer.Proofs.UserServiceProofs

/-!
# Proofs: what a failed login reveals

For a missing user the service throws `BadCredentialsException`, which Spring does not expect from a
user service and wraps; for a wrong password Spring throws `BadCredentialsException` itself. So the
two outcomes differ in the class of the exception.
-/

namespace AuthorizationServer

open Java Spring

/-- A provider that behaves as documented. -/
def DaoAuthenticationProvider.reference (S : SpringSecurity) : DaoAuthenticationProvider where
  authenticate load encoder name password :=
    match load name with
    | .error e =>
      if e.cls = .usernameNotFound then .error badCredentials
      else .error ⟨.internalAuthenticationService, e.message⟩
    | .ok user =>
      if encoder password user.password then do
        let authorities ← user.getAuthorities S
        return S.usernamePasswordAuthenticationToken user none (some authorities.toList)
      else .error badCredentials

theorem DaoAuthenticationProvider.reference_documented (S : SpringSecurity) :
    (reference S).Documented where
  not_found load encoder name password e h hcls := by
    simp only [reference, h, hcls, if_true]
  wrapped load encoder name password e h hcls := by
    simp only [reference, h, if_neg hcls]
  mismatch load encoder name password u h hmatch := by
    simp only [reference, h, hmatch]
    rfl

theorem DaoAuthenticationProvider.reference_succeeds {S : SpringSecurity} (hS : S.Documented) :
    (reference S).Succeeds S where
  only load encoder name password a h := by
    simp only [reference] at h
    split at h
    · split_ifs at h
    · next u hload =>
      split_ifs at h with hmatch
      obtain ⟨authorities, hl, hreturn⟩ := Outcome.bind_eq_ok.mp h
      cases hreturn
      exact ⟨u, authorities, hload, hmatch, hl, hS.userToken ..⟩
  success load encoder name password u authorities hload hmatch _ _ _ _ hl := by
    simp only [reference, hload, if_pos hmatch, hl, hS.userToken]
    rfl

section Documented

variable {P : DaoAuthenticationProvider} (hP : P.Documented) {C : AccountStatusUserDetailsChecker}
  {encoder : PasswordMatcher} {T : UserTable} {name password : String}

include hP

/-- An unknown name ends with a wrapped exception. -/
theorem login_of_missing (hmissing : T.findByUsername name = none) :
    login P C encoder T name password =
      .error ⟨.internalAuthenticationService, some "Bad credentials"⟩ := by
  have hload : loadUserByUsername C T name = .error ⟨.badCredentials, some "Bad credentials"⟩ := by
    simp only [loadUserByUsername, hmissing]
  exact hP.wrapped _ encoder name password _ hload (by decide)

/-- A wrong password for an active user ends with `BadCredentialsException`. -/
theorem login_of_mismatch (hC : C.Documented) {u : SecurityUser}
    (hfind : T.findByUsername name = some u) (hactive : u.Active)
    (hmatch : encoder password u.password = false) :
    login P C encoder T name password = .error badCredentials := by
  have hload : loadUserByUsername C T name = .ok u :=
    (loadUserByUsername_ok_iff hC).mpr ⟨hfind, hactive⟩
  exact hP.mismatch _ encoder name password u hload hmatch

/-- Adding an active row for the name always changes the outcome of a failed login. -/
theorem failed_login_reveals_account (hC : C.Documented)
    (hmissing : ∀ u ∈ T.rows, u.username ≠ some name) {r : SecurityUser}
    (hname : r.username = some name) (hactive : r.Active)
    (hmatch : encoder password r.password = false) {T' : UserTable}
    (hrows : ∀ u, u ∈ T'.rows ↔ u = r ∨ u ∈ T.rows) :
    login P C encoder T name password ≠ login P C encoder T' name password := by
  have hnone : T.findByUsername name = none := UserTable.findByUsername_eq_none hmissing
  have hsome : T'.findByUsername name = some r :=
    UserTable.findByUsername_of_mem ((hrows r).mpr (Or.inl rfl)) hname
  rw [login_of_missing hP hnone, login_of_mismatch hP hC hsome hactive hmatch]
  intro h
  cases h

end Documented

/-! An empty table, and the same table with a row for alice. -/

def aliceRow : SecurityUser where
  username := some "alice"
  password := some "secret"
  email := none
  accountExpired := some false
  accountLocked := some false
  credentialExpired := some false
  enabled := some true
  roleSet := [⟨some "role_user", [⟨some "read"⟩]⟩]

def plainEncoder : PasswordMatcher := fun presented stored => decide (stored = some presented)

def emptyTable : UserTable := ⟨[], List.nodup_nil⟩

def tableOfAlice : UserTable := ⟨[aliceRow], by decide⟩

theorem failed_login_reveals_alice :
    login (.reference .reference) .reference plainEncoder emptyTable "alice" "guess" ≠
      login (.reference .reference) .reference plainEncoder tableOfAlice "alice" "guess" :=
  failed_login_reveals_account (DaoAuthenticationProvider.reference_documented _)
    AccountStatusUserDetailsChecker.reference_documented (r := aliceRow) (by simp [emptyTable]) rfl
    (by decide) rfl (by simp [emptyTable, tableOfAlice])

theorem failed_logins_of_alice :
    login (.reference .reference) .reference plainEncoder emptyTable "alice" "guess" =
      .error ⟨.internalAuthenticationService, some "Bad credentials"⟩ ∧
    login (.reference .reference) .reference plainEncoder tableOfAlice "alice" "guess" =
      .error ⟨.badCredentials, some "Bad credentials"⟩ :=
  ⟨rfl, rfl⟩

end AuthorizationServer
